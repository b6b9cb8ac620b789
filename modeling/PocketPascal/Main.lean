import PocketPascal.CommandLine.Run

/-! # The program

The command line on the files around it.
-/

namespace PocketPascal

/-- Whether a system error has a number; some calls report its negative. -/
def hasNumber (code n : UInt32) : Bool :=
  code == n || code == 0 - n

/-- Why an attempt on a file failed. -/
def fileCause : IO.Error → FileCause
  | .noFileOrDirectory .. => .missing
  | .alreadyExists .. => .alreadyThere
  | .inappropriateType _ code _ =>
    if hasNumber code 21 then .isADirectory else .notADirectory
  | .invalidArgument _ code details =>
    if hasNumber code 36 then .nameTooLong else .other code.toNat details
  | e => .other 5 (toString e)

/-- Tries something on a path that is a proper text. -/
def attempt {α : Type} (path : RawText) (act : String → IO α) : IO (Except FileError α) := do
  match path.toString? with
  | none => return .error .unencodable
  | some name =>
    if path.contains '\x00' then return .error .nulInPath
    try
      return .ok (← act name)
    catch e => return .error (.failed (fileCause e) path)

instance : FileAccess IO where
  readFile path := attempt path fun name => IO.FS.readBinFile ⟨name⟩
  makeDirectory p := attempt p.text fun name => IO.FS.createDir ⟨name⟩
  isDirectory p := do
    let found ← attempt p.text fun name => do (← IO.FS.realPath ⟨name⟩).isDir
    match found with
    | .ok there => return there
    | .error _ => return false
  writeFile p text := do
    let bytes := (text.toString?.map String.toUTF8).getD .empty
    let written ← attempt p.text fun name => IO.FS.writeBinFile ⟨name⟩ bytes
    return written.bind fun _ => if text.toString?.isSome then .ok () else .error .unencodable

end PocketPascal

open PocketPascal in
/-- Carries out a command line and answers its exit code. -/
def main (args : List String) : IO UInt32 := do
  let transcript ← CommandLine.execute args
  transcript.out.forM IO.println
  transcript.err.forM (fun line => IO.eprintln line)
  match transcript.ending with
  | .ok status => return UInt32.ofNat status.code
  | .error e =>
    IO.eprintln (CommandLine.refusalLine e.message)
    return 1
