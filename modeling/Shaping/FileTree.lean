import Shaping.Storage

/-!
# A tree of files

A `FileTree` is a storage that is a value.  It holds the contents of files and the directories that they are
in, each under the names that lead to it from the root, which is the working directory as well.

Paths are followed name by name (`FileTree.follow`), where a dot stays, two dots go back, and every name but
the last has to be that of a directory.

* Reading does not change anything, and neither does writing that fails.
* A file that was written is read back, and no other file is different.
* Making a directory makes those that it is in, as far as they do not exist, up to the first name that
  belongs to a file.
-/

set_option autoImplicit false

namespace Shaping

/-- A place in the tree: the names that lead to it. -/
abbrev Place := List String

/-- Files and directories. -/
structure FileTree where
  /-- The directories except for the root. -/
  directories : List Place
  files : List (Place × String)
  deriving DecidableEq

namespace FileTree

/-- The tree without files. -/
def empty : FileTree := ⟨[], []⟩

/-- Is there a directory at a place? -/
def isDirectory (t : FileTree) (p : Place) : Bool := p.isEmpty || t.directories.contains p

/-- The contents of the file at a place. -/
def file? (t : FileTree) (p : Place) : Option String := t.files.lookup p

/-- Is there anything at a place? -/
def has (t : FileTree) (p : Place) : Bool := t.isDirectory p || (t.file? p).isSome

/-! ## Paths -/

/-- The longest name that a file can have, in bytes. -/
def longestName : Nat := 255

/-- The longest path that can be followed, in bytes. -/
def longestPath : Nat := 4095

/-- The names in a path. -/
def namesOf (path : String) : List String :=
  ((FilePath.segments path.toList).filter (· != [])).map String.ofList

/-- Does a path end in a slash? -/
def endsInSlash (path : String) : Bool := path.toList.getLast? == some '/'

/-- The names in a path, if it is one. -/
def names (path : String) : Except FileError (List String) :=
  if path.toList.contains '\x00' then .error .notName
  else if path.isEmpty then .error .notFound
  else if longestPath < path.utf8ByteSize then .error .nameTooLong
  else .ok (namesOf path)

/-- One step along a path, from a place that has to be a directory. -/
def step (t : FileTree) (p : Place) (name : String) : Except FileError Place :=
  if t.isDirectory p then
    if name = "." then .ok p
    else if name = ".." then .ok p.dropLast
    else if longestName < name.utf8ByteSize then .error .nameTooLong
    else .ok (p ++ [name])
  else if (t.file? p).isSome then .error .notDirectory
  else .error .notFound

/-- The place that names lead to.  There need not be anything there. -/
def follow (t : FileTree) (p : Place) : List String → Except FileError Place
  | [] => .ok p
  | name :: names =>
    match t.step p name with
    | .ok p => t.follow p names
    | .error e => .error e

/-- The place that a path leads to. -/
def locate (t : FileTree) (path : String) : Except FileError Place := do
  t.follow [] (← names path)

/-! ## Reading and writing -/

/-- Read a file. -/
def read (t : FileTree) (path : String) : Except FileError String := do
  let p ← t.locate path
  if t.isDirectory p then throw .isDirectory
  match t.file? p with
  | some text => if endsInSlash path then throw .notDirectory else return text
  | none => throw .notFound

/-- The tree with some contents at a place. -/
def put (t : FileTree) (p : Place) (text : String) : FileTree :=
  { t with files := (p, text) :: t.files.filter (·.1 != p) }

theorem file?_put_self (t : FileTree) (p : Place) (text : String) :
    (t.put p text).file? p = some text := by
  simp [put, file?]

theorem file?_put_of_ne (t : FileTree) {p q : Place} (h : q ≠ p) (text : String) :
    (t.put p text).file? q = t.file? q := by
  have skip (files : List (Place × String)) :
      (files.filter (·.1 != p)).lookup q = files.lookup q := by
    induction files with
    | nil => rfl
    | cons entry files ih =>
      rw [List.filter_cons]
      split
      · rw [List.lookup_cons, List.lookup_cons, ih]
      · rename_i hp
        have hp : entry.1 = p := by simpa using hp
        rw [ih, List.lookup_cons, hp, beq_false_of_ne h]
  rw [put, file?, List.lookup_cons, beq_false_of_ne h]
  exact skip t.files

/-- Write a file. -/
def write (t : FileTree) (path text : String) : Except FileError FileTree := do
  let p ← t.locate path
  if t.isDirectory p then throw .isDirectory
  if endsInSlash path then throw (if (t.file? p).isSome then .notDirectory else .isDirectory)
  return t.put p text

/-- Make directories along a path, starting at a directory. -/
def makeAlong (t : FileTree) (p : Place) : List String → Except FileError Unit × FileTree
  | [] => (.ok (), t)
  | name :: names =>
    match t.step p name with
    | .error e => (.error e, t)
    | .ok q =>
      if t.isDirectory q then t.makeAlong q names
      else if (t.file? q).isSome then
        (.error (if names.isEmpty then .exists else .notDirectory), t)
      else { t with directories := q :: t.directories }.makeAlong q names

/-- Make a directory and those that it is in.  The empty path is the root, which is there. -/
def makeDirectory (t : FileTree) (path : String) : Except FileError Unit × FileTree :=
  if path.isEmpty then (.ok (), t)
  else
    match names path with
    | .error e => (.error e, t)
    | .ok names => t.makeAlong [] names

/-- The tree of some files, each under its path, with the directories they are in. -/
def ofFiles : List (String × String) → FileTree
  | [] => empty
  | (path, text) :: files =>
    let t := (((FilePath.parent? path).map (ofFiles files).makeDirectory).map (·.2)).getD (ofFiles files)
    match t.write path text with
    | .ok t => t
    | .error _ => t

/-- The tree as a storage. -/
def storage : Storage (StateM FileTree) where
  read path := do return (← get).read path
  makeDirectory path := modifyGet fun t => t.makeDirectory path
  write path text := modifyGet fun t =>
    match t.write path text with
    | .ok t => (.ok (), t)
    | .error e => (.error e, t)

/-- Carry out what was asked for among the files of a tree. -/
def perform (usual : Option String) (t : FileTree) (i : Invocation) : Conclusion × FileTree :=
  (i.perform storage usual).run t

end FileTree

end Shaping
