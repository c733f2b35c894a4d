/-!
# Paths of files

A path is a text of names with slashes between them.  Slashes that follow one another count as one, and
so does a dot for the place where it stands, unless it is the first name.

`FilePath.parent?` is the directory that a file is in, in the same words as the path.  It is the empty text
for a file in the working directory.
-/

set_option autoImplicit false

namespace Shaping.FilePath

/-- The texts between the slashes. -/
def segments : List Char → List (List Char)
  | [] => [[]]
  | c :: cs =>
    if c = '/' then [] :: segments cs
    else
      match segments cs with
      | [] => [[c]]
      | s :: ss => (c :: s) :: ss

/-- Is there no name between two slashes? -/
def isVoid (segment : List Char) : Bool := segment = [] || segment = ['.']

/-- Segments without those at the end that are no names.  The first one is kept. -/
def dropVoid : List (List Char) → List (List Char)
  | [] => []
  | s :: ss => s :: (ss.reverse.dropWhile isVoid).reverse

/-- Segments with slashes between them. -/
def joined : List (List Char) → List Char
  | [] => []
  | [s] => s
  | s :: ss => s ++ '/' :: joined ss

/-- The directory that a file is in.  The root is in none. -/
def parent? (path : String) : Option String :=
  match dropVoid (segments path.toList) with
  | [] | [[]] => none
  | [_] => some ""
  | [[], _] => some "/"
  | ss => some (String.ofList (joined (dropVoid ss.dropLast)))

end Shaping.FilePath
