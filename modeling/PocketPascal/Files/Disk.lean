import PocketPascal.Files.Access

/-! # A disk

Files as a map from paths in normal form to bytes. Directories are there wherever they are needed,
and files are made and replaced at will: all that fails is to read a file that is missing, and to
write a text that has no bytes.
-/

namespace PocketPascal

/-- What is in the file at each path. -/
structure Disk where
  file? : Path → Option ByteArray

namespace Disk

/-- Makes or replaces a file. -/
def put (d : Disk) (p : Path) (bytes : ByteArray) : Disk where
  file? q := if q = p then some bytes else d.file? q

@[simp] theorem file?_put_self (d : Disk) (p : Path) (bytes : ByteArray) :
    (d.put p bytes).file? p = some bytes :=
  if_pos rfl

theorem file?_put_of_ne (d : Disk) {p q : Path} (h : q ≠ p) (bytes : ByteArray) :
    (d.put p bytes).file? q = d.file? q :=
  if_neg h

/-- The bytes of the file at a path as it is written. -/
def read (d : Disk) (path : RawText) : Except FileError ByteArray :=
  match d.file? (.ofText path) with
  | some bytes => .ok bytes
  | none => .error (.failed .missing path)

/-- Makes or replaces a file with a text, or with nothing if the text has no bytes. -/
def writeText (p : Path) (text : RawText) : StateM Disk (Except FileError Unit) := do
  match text.toString? with
  | some s => do
    modify (·.put p s.toUTF8)
    return .ok ()
  | none => do
    modify (·.put p .empty)
    return .error .unencodable

instance : FileAccess (StateM Disk) where
  readFile path := return (← get).read path
  makeDirectory _ := return .ok ()
  isDirectory _ := return true
  writeFile := writeText

/-- What comes after an action starts from its answer, on the disk that it leaves. -/
theorem run_bind {α β : Type} (x : StateM Disk α) (f : α → StateM Disk β) (d : Disk) :
    (x >>= f).run d = (f (x.run d).1).run (x.run d).2 := rfl

theorem run_readFile (d : Disk) (path : RawText) :
    (FileAccess.readFile (m := StateM Disk) path).run d = (d.read path, d) := rfl

end Disk

end PocketPascal
