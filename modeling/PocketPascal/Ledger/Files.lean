import PocketPascal.Analysis
import PocketPascal.Ledger.Record
import PocketPascal.Settings

/-! # Ledger files

The five ledgers of an analysis, and writing them to files.
-/

namespace PocketPascal.Ledger

/-- The ledgers of an analysis. -/
inductive Name where
  | tokens | cleaned | vars | procs | errors
  deriving DecidableEq

namespace Name

/-- All ledgers in the order in which they are written. -/
def all : List Name := [tokens, cleaned, vars, procs, errors]

/-- What a ledger is called. -/
def text : Name → String
  | tokens => "tokens"
  | cleaned => "cleaned"
  | vars => "variables"
  | procs => "procedures"
  | errors => "errors"

end Name

/-- The text of a ledger. -/
def content (a : Analysis) : Name → String
  | .tokens => render (a.tokens.map tokenRecord)
  | .cleaned => render (a.cleaned.map tokenRecord)
  | .vars => render (a.vars.map variableRecord)
  | .procs => render (a.procs.map procedureRecord)
  | .errors => render (a.errors.map errorRecord)

/-- The file name that settings give to a ledger. -/
def fileName (c : Settings) : Name → RawText
  | .tokens => c.tokenFile
  | .cleaned => c.cleanedFile
  | .vars => c.variableFile
  | .procs => c.procedureFile
  | .errors => c.errorFile

/-- The path of a ledger. -/
def path (c : Settings) (n : Name) : Path :=
  c.outputPath (fileName c n)

variable {m : Type → Type} [Monad m] [FileAccess m]

/-- Writes ledgers in order up to the first failure; answers those written. -/
def writeEach (c : Settings) (content : Name → RawText) :
    List Name → m (List Name × Except FileError Unit)
  | [] => pure ([], .ok ())
  | n :: rest => do
    match ← FileAccess.writeFile (path c n) (content n) with
    | .error e => pure ([], .error e)
    | .ok _ =>
      let (written, ending) ← writeEach c content rest
      pure (n :: written, ending)

/-- Writes all ledgers, into a directory that is made if it is missing. -/
def writeAll (c : Settings) (content : Name → RawText) :
    m (List Name × Except FileError Unit) := do
  match ← FileAccess.makeDirectories (Path.ofText c.outputDir) with
  | .error e => pure ([], .error e)
  | .ok _ => writeEach c content Name.all

end PocketPascal.Ledger
