import PocketPascal.Files.Access

/-! # A tree of files

Files and directories as a value, on which everything that is done to files can be played through.
Paths are followed part by part, so a part that leads upwards needs the directory before it.
-/

namespace PocketPascal

/-- What may be at a place in the tree. -/
inductive FileEntry where
  | file (bytes : ByteArray)
  | directory

/-- The entries of a tree, each with the names on the way to it, and the directory that relative
paths start from. The root is a directory without an entry. -/
structure FileTree where
  entries : List (List RawText × FileEntry) := []
  here : List RawText := []

namespace FileTree

/-- What is at a place. -/
def entry? (t : FileTree) (place : List RawText) : Option FileEntry :=
  if place = [] then some .directory else (t.entries.find? (·.1 == place)).map (·.2)

/-- The most bytes that a name in a directory may have. -/
def nameCapacity : Nat := 255

/-- The most bytes that a written path may have. -/
def pathCapacity : Nat := 4095

/-- The place that one step from a directory leads to, whether or not something is there. -/
def advance (place : List RawText) (step : RawText) : Except FileCause (List RawText) :=
  if step = ".." then .ok place.dropLast
  else if step.nameSize?.any (nameCapacity < ·) then .error .nameTooLong
  else .ok (place ++ [step])

/-- The directory that one step from a directory leads to. -/
def enter (t : FileTree) (place : List RawText) (step : RawText) : Except FileCause (List RawText) :=
  match advance place step with
  | .error cause => .error cause
  | .ok next =>
    match t.entry? next with
    | some .directory => .ok next
    | some (.file _) => .error .notADirectory
    | none => .error .missing

/-- The place that steps from a directory lead to; all but the last have to lead to directories. -/
def follow (t : FileTree) (place : List RawText) : List RawText → Except FileCause (List RawText)
  | [] => .ok place
  | [step] => advance place step
  | step :: rest =>
    match t.enter place step with
    | .error cause => .error cause
    | .ok next => t.follow next rest

/-- The place of a path. -/
def locate (t : FileTree) (p : Path) : Except FileCause (List RawText) :=
  t.follow (if p.root = .relative then t.here else []) p.parts

/-- What is wrong with a path as it is written, whatever files there are. -/
def fault? (path : RawText) : Option FileError :=
  match path.nameSize? with
  | none => some .unencodable
  | some size =>
    if path.contains '\x00' then some .nulInPath
    else if pathCapacity < size then some (.failed .nameTooLong path)
    else none

/-- The place of a path as it is written, in the normal form given. -/
def placeOf (t : FileTree) (path : RawText) (p : Path) : Except FileError (List RawText) :=
  match fault? path with
  | some e => .error e
  | none => (t.locate p).mapError (.failed · path)

/-- Puts something at a place. -/
def put (t : FileTree) (place : List RawText) (e : FileEntry) : FileTree :=
  if (t.entry? place).isSome then
    { t with entries := t.entries.map fun old => if old.1 = place then (place, e) else old }
  else { t with entries := t.entries ++ [(place, e)] }

/-- Whether a path as it is written can only be a directory. -/
def endsInDirectory (path : RawText) : Bool :=
  (Path.pieces path).getLast?.any fun (part : RawText) => part == "" || part == "." || part == ".."

/-- The bytes of the file at a path as it is written. -/
def read (t : FileTree) (path : RawText) : Except FileError ByteArray :=
  if path.isEmpty then .error (.failed .missing path)
  else match t.placeOf path (.ofText path) with
    | .error e => .error e
    | .ok place =>
      match t.entry? place with
      | none => .error (.failed .missing path)
      | some .directory => .error (.failed .isADirectory path)
      | some (.file bytes) =>
        if endsInDirectory path then .error (.failed .notADirectory path) else .ok bytes

/-- Makes a directory. -/
def makeDirectory (t : FileTree) (p : Path) : Except FileError FileTree :=
  match t.placeOf p.text p with
  | .error e => .error e
  | .ok place =>
    match t.entry? place with
    | some _ => .error (.failed .alreadyThere p.text)
    | none => .ok (t.put place .directory)

/-- Whether there is a directory. -/
def isDirectory (t : FileTree) (p : Path) : Bool :=
  match (t.locate p).map t.entry? with
  | .ok (some .directory) => true
  | _ => false

/-- Makes or replaces a file. -/
def write (t : FileTree) (p : Path) (bytes : ByteArray) : Except FileError FileTree :=
  match t.placeOf p.text p with
  | .error e => .error e
  | .ok place =>
    match t.entry? place with
    | some .directory => .error (.failed .isADirectory p.text)
    | _ => .ok (t.put place (.file bytes))

/-- The answer of a change to the tree, which stays as it is where the change fails. -/
def change (f : FileTree → Except FileError FileTree) :
    StateM FileTree (Except FileError Unit) := do
  match f (← get) with
  | .ok t => do
    set t
    return .ok ()
  | .error e => return .error e

/-- Makes or replaces a file with a text. -/
def writeText (p : Path) (text : RawText) : StateM FileTree (Except FileError Unit) :=
  match text.toString? with
  | some s => change fun t => t.write p s.toUTF8
  | none => do
    match ← change fun t => t.write p .empty with
    | .ok _ => return .error .unencodable
    | .error e => return .error e

instance : FileAccess (StateM FileTree) where
  readFile path := return (← get).read path
  makeDirectory p := change fun t => t.makeDirectory p
  isDirectory p := return (← get).isDirectory p
  writeFile := writeText

end FileTree

end PocketPascal
