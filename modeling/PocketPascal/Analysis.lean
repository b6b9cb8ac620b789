import PocketPascal.Lexer
import PocketPascal.Parser

/-! # Analysis

Lexical analysis and parse one after the other. The parse takes whatever tokens there are, and its
diagnostics follow the lexical ones.
-/

namespace PocketPascal

/-- How deep a parse under some limits may nest. -/
def Limits.nesting (l : Limits) : Parser.Nesting :=
  { limit := l.nestingDepth }

/-- What is known about a program: its tokens, those that the parse passed, its symbols, and its
diagnostics, the lexical ones first. -/
structure Analysis where
  tokens : List Token
  cleaned : List Token
  vars : List Variable
  procs : List Procedure
  lexicalErrors : List Diagnostic
  errors : List Diagnostic
  deriving DecidableEq

namespace Analysis

/-- The parse of some tokens, put together with the lexical errors met on the way to them. -/
def ofParse (tokens : List Token) (lexicalErrors : List Diagnostic) (r : ParseResult) : Analysis :=
  { tokens
    cleaned := r.tokens
    vars := r.vars
    procs := r.procs
    lexicalErrors
    errors := lexicalErrors ++ r.errors }

end Analysis

/-- Analyses a token stream. -/
def analyzeTokens (l : Limits) (tokens : List Token) : Analysis :=
  .ofParse tokens [] (parse l.nesting tokens)

/-- Analyses a source. -/
def analyze (l : Limits) (source : String) : Analysis :=
  let (tokens, errors) := tokenize l.identifierLength source
  .ofParse tokens errors (parse l.nesting tokens)

end PocketPascal
