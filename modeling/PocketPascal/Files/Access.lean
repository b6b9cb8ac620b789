import PocketPascal.Files.Path
import PocketPascal.Text.Quoted
import PocketPascal.Text.Lines

/-! # Access to files

What a program needs of the files around it, the ways in which that can fail, and how the bytes of a
file are read as text.
-/

namespace PocketPascal

/-- Why something cannot be done to a file. -/
inductive FileCause where
  | missing | alreadyThere | notADirectory | isADirectory | nameTooLong
  | other (number : Nat) (text : String)
  deriving DecidableEq

namespace FileCause

/-- The number of a cause. -/
def number : FileCause → Nat
  | missing => 2
  | alreadyThere => 17
  | notADirectory => 20
  | isADirectory => 21
  | nameTooLong => 36
  | other n _ => n

/-- The words for a cause. -/
def text : FileCause → String
  | missing => "No such file or directory"
  | alreadyThere => "File exists"
  | notADirectory => "Not a directory"
  | isADirectory => "Is a directory"
  | nameTooLong => "File name too long"
  | other _ text => text

end FileCause

/-- A failed attempt on a path. A path that holds a NUL character, or a surrogate that has no bytes
in the name of a file, is not even tried; nor can a surrogate stand in what a file holds. -/
inductive FileError where
  | failed (cause : FileCause) (path : RawText)
  | nulInPath
  | unencodable
  deriving DecidableEq

/-- What is said about a failed attempt. -/
def FileError.message : FileError → String
  | failed cause path => s!"[Errno {cause.number}] {cause.text}: {Text.quoted path}"
  | nulInPath => "a path cannot hold a NUL character"
  | unencodable => "a surrogate cannot be written"

/-- What a program needs of the files around it. -/
class FileAccess (m : Type → Type) where
  /-- The bytes of the file at a path as it is written. -/
  readFile : RawText → m (Except FileError ByteArray)
  /-- Makes one directory. -/
  makeDirectory : Path → m (Except FileError Unit)
  /-- Whether there is a directory. -/
  isDirectory : Path → m Bool
  /-- Makes or replaces a file, which is left empty if its text holds surrogates. -/
  writeFile : Path → RawText → m (Except FileError Unit)

namespace FileAccess

variable {m : Type → Type} [Monad m] [FileAccess m]

/-- Makes a directory unless it is there; with fuel, first those around it that are missing. -/
def ensureDirectory : Nat → Path → m (Except FileError Unit)
  | fuel, p => do
    match ← makeDirectory p with
    | .ok _ => pure (.ok ())
    | .error (.failed .missing path) =>
      match fuel with
      | 0 => pure (.error (.failed .missing path))
      | fuel + 1 =>
        if p.parts.isEmpty then pure (.error (.failed .missing path)) else
        match ← ensureDirectory fuel p.parent with
        | .error e => pure (.error e)
        | .ok _ => ensureDirectory 0 p
    | .error (.failed cause path) =>
      if ← isDirectory p then pure (.ok ()) else pure (.error (.failed cause path))
    | .error e => pure (.error e)

/-- Makes a directory and those around it unless they are there. -/
def makeDirectories (p : Path) : m (Except FileError Unit) :=
  ensureDirectory p.parts.length p

end FileAccess

/-- The text of a file, whose bytes have to be proper UTF-8. -/
def decodeText? (bytes : ByteArray) : Option String :=
  (String.fromUTF8? bytes).map fun s => String.ofList (Text.normalizeNewlines s.toList)

end PocketPascal
