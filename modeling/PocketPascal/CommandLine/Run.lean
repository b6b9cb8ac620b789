import PocketPascal.CommandLine.Help
import PocketPascal.CommandLine.Log
import PocketPascal.Ledger.Files

/-! # Runs

A run reads a program or a token ledger, analyses it, writes the ledgers and reports. The command
line chooses its settings and turns what goes wrong with files into an exit status.
-/

namespace PocketPascal.CommandLine

/-- How a run ends: without diagnostics, with some, or because it could not be done. -/
inductive Status where
  | clean | faulty | unusable
  deriving DecidableEq

/-- The exit code of a status. -/
def Status.code : Status → Nat
  | clean => 0
  | faulty => 1
  | unusable => 2

/-- What keeps a run from being done. -/
inductive Failure where
  | file (e : FileError)
  | undecodable
  | numberTooLong
  | nestedTooDeep (c : Json.Container)
  deriving DecidableEq

/-- What is said about a failure. -/
def Failure.message : Failure → String
  | file e => e.message
  | undecodable => "invalid UTF-8"
  | numberTooLong => "too many digits in a number"
  | nestedTooDeep _ => "settings nested too deep"

/-- What a run is to do. -/
structure Job where
  /-- The program itself, or else the path of a file. -/
  source : RawText
  isText : Bool := false
  fromTokens : Bool := false
  printErrors : Bool := false
  deriving DecidableEq

/-- What a run leaves besides files: how it ended, its log, and the lines it printed. -/
structure Report where
  ending : Except Failure Status
  log : List LogEntry := []
  printed : List String := []

/-- Analyses a source, with the log. -/
def studySource (l : Limits) (source : MaskedText) : Analysis × List LogEntry :=
  let (tokens, errors) := tokenize l.identifierLength source.text
  let s := (Parser.State.ofTokens tokens).parse l.nesting
  let log := lexerLog source.text tokens errors ++ parserLog s
  (.ofParse tokens errors s.result, log.map (·.restored source))

/-- Analyses the tokens of a ledger, with the log. -/
def studyLedger (l : Limits) (ledger : MaskedText) : Analysis × List LogEntry :=
  let (tokens, warnings) := Ledger.read ledger.text
  let s := (Parser.State.ofTokens tokens).parse l.nesting
  (.ofParse tokens [] s.result,
    ledgerLog ledger warnings ++ (parserLog s).map (·.restored ledger))

/-- Analyses the input of a job, with the log. -/
def study (l : Limits) (fromTokens : Bool) (input : MaskedText) : Analysis × List LogEntry :=
  if fromTokens then studyLedger l input else studySource l input

/-- The log of ledgers written. -/
def writtenLog (c : Settings) (written : List Ledger.Name) : List LogEntry :=
  written.map fun n =>
    ⟨.debug, .ledger, s!"wrote {n.text} ledger to {Text.shown (Ledger.path c n).text}"⟩

/-- The log of a run that has written all its ledgers. -/
def doneLog (c : Settings) (a : Analysis) : List LogEntry :=
  [⟨.info, .cli, s!"Wrote ledgers to {Text.shown (Ledger.path c .errors).parent.text}"⟩, summary a]

variable {m : Type → Type} [Monad m] [FileAccess m]

/-- The text that a job is about. -/
def input (j : Job) : m (Except Failure MaskedText) := do
  if j.isText then return .ok (.ofRaw j.source)
  match ← FileAccess.readFile j.source with
  | .error e => return .error (.file e)
  | .ok bytes =>
    match decodeText? bytes with
    | none => return .error .undecodable
    | some text => return .ok (.ofString text)

/-- Does a job. -/
def run (c : Settings) (j : Job) : m Report := do
  match ← input j with
  | .error e => return { ending := .error e }
  | .ok text =>
    let (a, log) := study c.limits j.fromTokens text
    let (written, ending) ← Ledger.writeAll c fun n => text.restore (Ledger.content a n)
    let log := log ++ writtenLog c written
    match ending with
    | .error e => return { ending := .error (.file e), log }
    | .ok _ =>
      return {
        ending := .ok (if succeeded a.errors then .clean else .faulty)
        log := log ++ doneLog c a
        printed := if j.printErrors then a.errors.map Ledger.errorRecord else [] }

/-! ## The command line -/

/-- Why there are no settings: they are refused, or cannot be read at all. -/
inductive SettingsError where
  | refused (r : Settings.Refusal)
  | failed (e : Failure)
  deriving DecidableEq

/-- What keeps a file from yielding settings. -/
def SettingsError.ofLoad : Settings.LoadError → SettingsError
  | .refused r => refused r
  | .undecodable => failed .undecodable
  | .numberTooLong => failed .numberTooLong
  | .nestedTooDeep c => failed (.nestedTooDeep c)

/-- What keeps a settings file from being read. -/
def SettingsError.ofFile : FileError → SettingsError
  | .failed cause path => refused (.unreadable (.failed cause path))
  | e => failed (.file e)

/-- The settings in a file, or the defaults if no file is named. -/
def loadSettings (file : Option String) : m (Except SettingsError Settings) := do
  match file with
  | none | some "" => return .ok {}
  | some path =>
    match ← FileAccess.readFile path with
    | .error e => return .error (.ofFile e)
    | .ok bytes => return (Settings.ofBytes bytes).mapError .ofLoad

/-- What an option is given, as the value of a setting: nothing is a list without items. -/
def Given.value : Given → Json.Value
  | text s => .string s
  | nothing => .array []

/-- The settings that options ask for. -/
def settingsFor (o : Options) : m (Except SettingsError Settings) := do
  match ← loadSettings o.config with
  | .error e => return .error e
  | .ok c =>
    let members := o.outDir.toList.map fun given =>
      (RawText.ofString (Settings.Field.key (.text .outputDir)), given.value)
    return (c.update members).mapError .refused

/-- What a command line leaves besides files: how it ended, and the lines on its two outputs. -/
structure Transcript where
  ending : Except Failure Status
  out : List String := []
  err : List String := []

/-- What is said where a command line cannot be carried out. -/
def refusalLine (message : String) : String :=
  s!"minipas: {message}"

/-- What a report leaves: a failed access to a file becomes an exit status. -/
def Report.transcript (r : Report) (verbose : Bool) : Transcript :=
  let shown := shownLines verbose r.log
  match r.ending with
  | .error (.file (.failed cause path)) =>
    { ending := .ok .unusable
      out := r.printed
      err := shown ++ [refusalLine (FileError.failed cause path).message] }
  | ending => { ending, out := r.printed, err := shown }

/-- The job that options ask for. -/
def Options.job (o : Options) (c : Settings) : Job :=
  { source := (o.source.map RawText.ofString).getD c.sourcePath
    isText := o.isText
    fromTokens := o.fromTokens
    printErrors := o.printErrors }

/-- Carries out a command line. -/
def execute (args : List String) : m Transcript := do
  match readArguments args with
  | .error e => return { ending := .ok .unusable, err := complaint e }
  | .ok .help => return { ending := .ok .clean, out := help }
  | .ok (.run o) =>
    match ← settingsFor o with
    | .error (.refused r) => return { ending := .ok .unusable, err := [refusalLine r.message] }
    | .error (.failed e) => return { ending := .error e }
    | .ok c => return (← run c (o.job c)).transcript o.verbose

end PocketPascal.CommandLine
