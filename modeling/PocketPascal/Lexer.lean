import PocketPascal.Cursor
import PocketPascal.Limits
import PocketPascal.Lexer.Event

/-! # Lexical analysis

A source becomes a token stream and a list of lexical errors, all at once or on demand. A lexer is
the state between demands.
-/

namespace PocketPascal

/-- The tokens of a source, closed by the end of file, and its lexical errors. -/
def tokenize (limit : Int) (source : String) : List Token × List Diagnostic :=
  let events := Lexer.sourceEvents limit source
  (events.filterMap Lexer.Event.token?, events.filterMap Lexer.Event.error?)

/-- A source together with how far it has been read, and the errors met on the way. -/
structure Lexer where
  source : String
  limit : Int := ({} : Limits).identifierLength
  line : Nat := 0
  cursor : Cursor Char := .ofList []
  errors : List Diagnostic := []
  deriving DecidableEq

namespace Lexer

/-- Whether no error has been met. -/
def succeeded (x : Lexer) : Bool :=
  x.errors.isEmpty

/-- Where an event leaves the read head. -/
def move (x : Lexer) : Event → Lexer
  | .line number => { x with line := number }
  | .text cs => { x with cursor := .ofList cs }
  | .piece _ piece => { x with cursor := x.cursor.skip piece.text.length }
  | .sentinel _ => x

/-- The tokens that events yield, and the lexer after them. -/
def play (x : Lexer) (events : List Event) : List Token × Lexer :=
  (events.filterMap Event.token?,
    { events.foldl move x with errors := x.errors ++ events.filterMap Event.error? })

/-- The events that a demand for `count?` tokens, or for all, lets happen. -/
def demanded (count? : Option Nat) (events : List Event) : List Event :=
  match count? with
  | some n => Event.demand n events
  | none => events

/-- Reads the whole source from its beginning, forgetting earlier errors. -/
def tokenize (x : Lexer) : (List Token × List Diagnostic) × Lexer :=
  let (tokens, after) := play { x with errors := [] } (sourceEvents x.limit x.source)
  ((tokens, after.errors), after)

/-- Reads the source from its beginning until enough tokens are found. -/
def takeTokens (x : Lexer) (count? : Option Nat) : List Token × Lexer :=
  x.play (demanded count? (sourceEvents x.limit x.source))

/-- Reads a text on the current line until enough tokens are found. -/
def takeLineTokens (x : Lexer) (text : String) (count? : Option Nat) : List Token × Lexer :=
  x.play (demanded count? (textEvents x.limit x.line text.toList))

/-- Why there is no next token. -/
inductive NextError where
  | pastEnd (error : Cursor.PastEnd)
  | rejected (error : Diagnostic)
  deriving DecidableEq

/-- Reads the lexeme under the read head; a rejected text is passed but not kept as an error. -/
def next (x : Lexer) : Except NextError Token × Lexer :=
  match x.cursor.current with
  | .error e => (.error (.pastEnd e), x)
  | .ok c =>
    let piece := lexemeAt x.limit c x.cursor.ahead.tail
    let after := { x with cursor := x.cursor.skip piece.text.length }
    match piece.reading with
    | .lexeme kind => (.ok { kind, text := String.ofList piece.text, line := x.line }, after)
    | .rejected fault => (.error (.rejected (fault.on x.line)), after)
    | .space => (.error (.rejected ((Fault.invalid c).on x.line)), after)

end Lexer

end PocketPascal
