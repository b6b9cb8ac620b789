import PocketPascal.Analysis
import PocketPascal.Ledger.Reader
import PocketPascal.Text.Mask

/-! # The log of a run

What a run tells about its stages, each line with its weight and the stage it comes from.
-/

namespace PocketPascal.CommandLine

/-- The weight of a line of the log. -/
inductive Level where
  | debug | info | warning
  deriving DecidableEq

/-- The name of a weight. -/
def Level.name : Level → String
  | debug => "DEBUG"
  | info => "INFO"
  | warning => "WARNING"

/-- The stage that a line of the log comes from. -/
inductive Channel where
  | lexer | parser | pipeline | ledger | cli
  deriving DecidableEq

/-- The name of a stage. -/
def Channel.name : Channel → String
  | lexer => "minipas.minipas_lexer"
  | parser => "minipas.minipas_parser"
  | pipeline => "minipas.minipas_pipeline"
  | ledger => "minipas.minipas_ledger"
  | cli => "minipas.minipas_cli"

/-- A line of the log. -/
structure LogEntry where
  level : Level
  channel : Channel
  message : String
  deriving DecidableEq

/-- A line of the log as it is written. -/
def LogEntry.line (e : LogEntry) : String :=
  s!"{e.level.name} {e.channel.name}: {e.message}"

/-- The lines that are written: those of little weight only on demand. -/
def shownLines (verbose : Bool) (log : List LogEntry) : List String :=
  (log.filter fun e => verbose || e.level != .debug).map LogEntry.line

/-- A line of the log on a text with the surrogates put back. -/
def LogEntry.restored (input : MaskedText) (e : LogEntry) : LogEntry :=
  { e with message := Text.shown (input.restore e.message) }

/-- The log of a lexical analysis. -/
def lexerLog (source : String) (tokens : List Token) (errors : List Diagnostic) : List LogEntry :=
  let lines := (Text.sourceLines source.toList).length
  errors.map (fun d => ⟨.debug, .lexer, s!"lexical error: {d.render}"⟩) ++
    [⟨.debug, .lexer,
      s!"tokenized {lines} lines into {tokens.length} tokens with {errors.length} errors"⟩] ++
    if errors.isEmpty then [] else
      [⟨.warning, .pipeline, s!"Lexer reported {errors.length} error(s); parsing anyway."⟩]

/-- What the log tells about one event of a parse. -/
def eventEntry? : Parser.Event → Option LogEntry
  | .newLine => none
  | .problem d _ recorded =>
    if recorded then some ⟨.debug, .parser, s!"recorded {d.render}"⟩ else none
  | .entered owner level => some ⟨.debug, .parser, s!"entering {owner} at level {level}"⟩
  | .left owner level => some ⟨.debug, .parser, s!"leaving {owner} at level {level}"⟩
  | .aborted reason line =>
    let level : Level := if reason = .exhausted then .warning else .debug
    some ⟨level, .parser, s!"parse aborted: {(reason.on line).render}"⟩

/-- The log of a parse. -/
def parserLog (s : Parser.State) : List LogEntry :=
  let vars := s.symbols.vars.length
  let procs := s.symbols.procs.length
  s.history.reverse.filterMap eventEntry? ++
    [⟨.debug, .parser, s!"parsed {s.consumed.length} tokens: {vars} variables, " ++
      s!"{procs} procedures, {s.errors.length} errors"⟩]

/-- The log of reading a token ledger. -/
def ledgerLog (input : MaskedText) (warnings : List Ledger.Warning) : List LogEntry :=
  warnings.map fun w =>
    ⟨.warning, .ledger, { w with line := input.restore w.line : Ledger.Warning }.message⟩

/-- The log of an analysis that is done. -/
def summary (a : Analysis) : LogEntry :=
  ⟨.info, .cli,
    if succeeded a.errors then
      s!"Analysis succeeded: {a.vars.length} variable(s), {a.procs.length} procedure(s)"
    else s!"Analysis found {a.errors.length} error(s)"⟩

end PocketPascal.CommandLine
