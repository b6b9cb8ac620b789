import PocketPascal.Cursor
import PocketPascal.Symbols
import PocketPascal.Parser.Problem

/-! # The state of a parse

A read head over the tokens, the scopes of the bodies that are open, the symbols declared so far and
the diagnostics recorded so far. The operations here move the read head, report, and declare; which
of them happen is decided by the grammar.
-/

namespace PocketPascal.Parser

/-- An open body: the owner of its declarations, the position of its procedure in the symbol table
if it has one there, and the number of variables that were declared before it. -/
structure Scope where
  owner : String
  record : Option Nat
  start : Nat
  deriving DecidableEq

/-- The scope of the program body. -/
def Scope.program : Scope :=
  { owner := mainProcedure, record := none, start := 0 }

/-- One thing that happens while tokens are parsed, apart from their being passed. -/
inductive Event where
  /-- The end of a source line is passed. -/
  | newLine
  /-- A problem is found at a lookahead; it is recorded if it is the first one on its line. -/
  | problem (d : Diagnostic) (found : Token) (recorded : Bool)
  /-- The body of a procedure is entered at a level. -/
  | entered (owner : String) (level : Int)
  /-- The body of a procedure is left. -/
  | left (owner : String) (level : Int)
  /-- The parse is given up. -/
  | aborted (reason : Abort) (line : Int)
  deriving DecidableEq

/-- What a parser knows between two tokens. -/
structure State where
  cursor : Cursor Token
  /-- The source line of the lookahead. -/
  line : Int := 1
  /-- The level of the innermost body; the program body is at level 1. -/
  level : Int := 1
  /-- How many statements, expressions and procedure bodies are open. -/
  depth : Nat := 0
  /-- Whether the next problem is recorded: none has been on this line. -/
  armed : Bool := true
  /-- The innermost open body. -/
  scope : Scope := .program
  /-- The bodies around it, from the inside out. -/
  enclosing : List Scope := []
  symbols : SymbolTable := {}
  errors : List Diagnostic := []
  /-- What has happened, latest first. -/
  history : List Event := []
  deriving DecidableEq

namespace State

/-- The state before the first of some tokens. -/
def ofTokens (tokens : List Token) : State :=
  { cursor := .ofList tokens }

/-- The open bodies, innermost first. -/
def scopes (s : State) : List Scope :=
  s.scope :: s.enclosing

/-- The tokens passed so far. -/
def consumed (s : State) : List Token :=
  s.cursor.consumed

/-- The token under the read head, or an end of file after the last one. -/
def lookahead (s : State) : Token :=
  s.cursor.peek?.getD .endOfFile

/-- Whether the lookahead is of a kind. -/
def sees (s : State) (kind : Kind) : Bool :=
  s.lookahead.kind == kind

/-- Whether the statements of a body are over. -/
def atBlockEnd (s : State) : Bool :=
  s.sees .endKey || s.sees .endOfFile

/-- Adds to the history. -/
def note (s : State) (e : Event) : State :=
  { s with history := e :: s.history }

/-! ## Moving -/

/-- The line of the lookahead once the end of a line is passed: its own, or else the next one. -/
def nextLine (line : Int) (lookahead : Token) : Int :=
  if lookahead.line = 0 then line + 1 else lookahead.line

/-- Passes the end of a line: problems are recorded again. -/
def crossLine (s : State) : State :=
  let s := { s with cursor := s.cursor.advance, armed := true }
  { s with line := nextLine s.line s.lookahead }.note .newLine

/-- Passes the ends of lines at the head of the tokens ahead. -/
def crossLines : List Token → State → State
  | [], s => s
  | t :: rest, s => if t.kind = .endOfLine then crossLines rest s.crossLine else s

/-- Passes all ends of lines under the read head. -/
def skipLineEnds (s : State) : State :=
  crossLines s.cursor.ahead s

/-- Takes the next token that is no end of line, and passes the ends of lines on both sides of it.
After the last token it is an end of file each time. -/
def consume (s : State) : Token × State :=
  let s := s.skipLineEnds
  (s.lookahead, { s with cursor := s.cursor.advance }.skipLineEnds)

/-! ## Reporting -/

/-- Reports a problem on the current line; only the first one on a line is recorded. -/
def report (s : State) (category : Category) (message : String) : State :=
  let d : Diagnostic := { category, line := s.line, message }
  if s.armed then
    { s with armed := false, errors := s.errors ++ [d] }.note (.problem d s.lookahead true)
  else
    s.note (.problem d s.lookahead false)

/-- Reports what is wrong with the lookahead. -/
def complain (s : State) (p : Problem) : State :=
  s.report p.category p.message

/-- Takes the next token, which should be of a kind; `message` is reported if it is not. -/
def expectOr (s : State) (kind : Kind) (message : String) : Token × State :=
  if s.sees kind then s.consume else (s.report .grammar message).consume

/-- Takes the next token, which should be of a kind. -/
def expect (s : State) (kind : Kind) : Token × State :=
  s.expectOr kind (Problem.unexpected kind s.lookahead.text).message

/-- Takes the next token, which should be the closing parenthesis. -/
def expectClose (s : State) : Token × State :=
  s.expectOr .rightParen Problem.unmatchedParen.message

/-! ## Declaring -/

/-- Lets the procedure of the innermost body, if it has a record, claim a variable. -/
def claim (s : State) (v : Variable) : State :=
  match s.scope.record with
  | some index => { s with symbols := s.symbols.claim index v.address }
  | none => s

/-- Declares a variable of the innermost body. -/
def registerVariable (s : State) (name : String) : State :=
  match s.symbols.declareVariable name s.scope.owner .localVariable s.level s.scope.start with
  | (some v, symbols) => { s with symbols }.claim v
  | (none, _) => s.complain (.redeclaredVariable name)

/-- Declares the parameter of the innermost scope, whose body is one level deeper. It is the first
declaration there, so it is not checked. -/
def registerParameter (s : State) (name : String) : State :=
  let (v, symbols) := s.symbols.addVariable name s.scope.owner .parameter (s.level + 1)
  { s with symbols }.claim v

/-- Declares a procedure whose body is one level deeper; answers its position in the table. -/
def registerProcedure (s : State) (name : String) : Option Nat × State :=
  match s.symbols.declareProcedure name (s.level + 1) with
  | (some _, symbols) => (some s.symbols.procs.length, { s with symbols })
  | (none, _) => (none, s.complain (.redeclaredProcedure name))

/-- Opens a scope for the declarations of a procedure. -/
def openScope (s : State) (owner : String) (record : Option Nat) : State :=
  { s with
    scope := { owner, record, start := s.symbols.vars.length }
    enclosing := s.scopes }

/-- Closes the innermost scope; the program scope stays open. -/
def closeScope (s : State) : State :=
  match s.enclosing with
  | [] => s
  | outer :: rest => { s with scope := outer, enclosing := rest }

/-! ## Resolving -/

/-- Whether a name means a variable here. -/
def knowsVariable (s : State) (name : String) : Bool :=
  (s.symbols.findVariable? name s.level).isSome

/-- Whether a name means a procedure here. -/
def knowsProcedure (s : State) (name : String) : Bool :=
  (s.symbols.findProcedure? name s.level).isSome

end State

end PocketPascal.Parser
