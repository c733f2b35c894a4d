import Shaping.Command.Response
import Shaping.FilePath

/-!
# Carrying a command out

A `Storage` is what has to be known of a place where files are kept: how to read one, how to write one, and
how to make directories.  `Invocation.perform` carries a command out on any storage: it reads the files that
the command goes by, lets the command be decided, and runs the errand that is left.

The directory of the configuration file is made if it does not exist yet.  A load is handed back to be
driven, because that takes time.
-/

set_option autoImplicit false

namespace Shaping

/-- A place where files are kept. -/
structure Storage (m : Type → Type) where
  read : String → m (Except FileError String)
  /-- Make a directory and those that it is in, as far as they do not exist. -/
  makeDirectory : String → m (Except FileError Unit)
  /-- Write a file, in place of what was there. -/
  write : String → String → m (Except FileError Unit)

/-- What came of a command. -/
structure Conclusion where
  output : String
  notes : Array Note
  /-- Failure, or maybe a load that is still to be driven. -/
  result : Except Stop (Option Load)

namespace Storage

variable {m : Type → Type} [Monad m]

/-- Make sure that the directory of a file exists. -/
def prepare (storage : Storage m) (path : String) : m (Except Failure Unit) :=
  match FilePath.parent? path with
  | some directory => do
    return (← storage.makeDirectory directory).mapError fun e =>
      ⟨[.creatingDirectory directory], .file e⟩
  | none => pure (.ok ())

/-- Save a configuration. -/
def save (storage : Storage m) (path : String) (c : Config) : m (Except Failure Unit) := do
  match ← storage.prepare path with
  | .error f => return .error f
  | .ok _ =>
    return (← storage.write path c.text).mapError fun e => ⟨[.writingConfig path], .file e⟩

/-- Run what is left of a command that has been decided. -/
def run (storage : Storage m) (r : Response) : m Conclusion :=
  match r with
  | ⟨output, notes, next⟩ =>
    match next with
    | .error stop => pure ⟨output, notes, .error stop⟩
    | .ok .nothing => pure ⟨output, notes, .ok none⟩
    | .ok (.load l) => pure ⟨output, notes, .ok (some l)⟩
    | .ok (.save path c confirmation) => do
      match ← storage.save path c with
      | .error f => return ⟨output, notes, .error (.failed f)⟩
      | .ok _ =>
        let note : Note := .info ("Saved configuration to " ++ Text.quotePath path)
        return ⟨output ++ confirmation, notes.push note, .ok none⟩

/-- The contents of a file, if one is named. -/
def readIf (storage : Storage m) : Option String → m (Except FileError String)
  | some path => storage.read path
  | none => pure (.error .notFound)

end Storage

/-- Carry out what was asked for.  The configuration file is `usual` unless another one is named. -/
def Invocation.perform {m : Type → Type} [Monad m] (storage : Storage m) (usual : Option String)
    (i : Invocation) : m Conclusion := do
  let configPath := i.config.or usual
  let config ← storage.readIf configPath
  let other ← storage.readIf i.command.otherFile?
  storage.run (i.command.respond ⟨configPath, config, other⟩)

end Shaping
