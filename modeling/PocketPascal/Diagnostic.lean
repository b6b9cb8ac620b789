import PocketPascal.Text.Quoted

/-! # Diagnostics

What an analysis has to say about a source line.
-/

namespace PocketPascal

/-- The stage whose rules a diagnostic reports broken. -/
inductive Category where
  | compile | lexical | grammar | semantic
  deriving DecidableEq

/-- The name of a category in listings. -/
def Category.name : Category → String
  | .compile => "CompileError"
  | .lexical => "LexicalError"
  | .grammar => "GrammarError"
  | .semantic => "SemanticError"

/-- A message on a source line; a fatal one ended its analysis. -/
structure Diagnostic where
  category : Category
  line : Int
  message : String
  fatal : Bool := false
  deriving DecidableEq

namespace Diagnostic

/-- A diagnostic as users read it. -/
def render (d : Diagnostic) : String :=
  s!"Line {d.line}: {d.message}" ++ if d.fatal then " [FATAL]" else ""

/-- A diagnostic in listings, with its message quoted. -/
def listing (d : Diagnostic) : String :=
  let fatal := if d.fatal then "True" else "False"
  s!"{d.category.name}({d.line}, {Text.quoted d.message}, fatal={fatal})"

end Diagnostic

/-- An analysis has succeeded if it has nothing to say. -/
def succeeded (errors : List Diagnostic) : Bool :=
  errors.isEmpty

/-- An analysis was aborted if one of its diagnostics is fatal. -/
def aborted (errors : List Diagnostic) : Bool :=
  errors.any (·.fatal)

end PocketPascal
