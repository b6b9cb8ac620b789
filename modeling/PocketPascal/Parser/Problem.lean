import PocketPascal.Token
import PocketPascal.Diagnostic

/-! # What a parse complains about

Problems are recorded and passed over; an abort ends the parse.
-/

namespace PocketPascal.Parser

/-- Something wrong that does not keep the parse from going on. -/
inductive Problem where
  | unexpected (wanted : Kind) (found : String)
  | unmatchedParen
  | notAVariableName (found : String)
  | notAnOperator (found : String)
  | notAFactor (found : String)
  | undefinedVariable (name : String)
  | undefinedName (name : String)
  | redeclaredVariable (name : String)
  | redeclaredProcedure (name : String)
  deriving DecidableEq

namespace Problem

/-- Whether a problem is one of form or one of meaning. -/
def category : Problem → Category
  | unexpected .. | unmatchedParen | notAVariableName _ | notAFactor _ => .grammar
  | notAnOperator _ | undefinedVariable _ | undefinedName _ | redeclaredVariable _
  | redeclaredProcedure _ => .semantic

/-- What is said about a problem. -/
def message : Problem → String
  | unexpected wanted found => s!"Expect {wanted.description}, but got '{found}'"
  | unmatchedParen => "Unmatched '('"
  | notAVariableName found => s!"'{found}' is not a valid variable name"
  | notAnOperator found => s!"'{found}' is not a valid operator"
  | notAFactor found => s!"Expect variable, procedure or constant, but got '{found}'"
  | undefinedVariable name => s!"Undefined variable '{name}'"
  | undefinedName name => s!"Undefined variable or procedure '{name}'"
  | redeclaredVariable name => s!"Variable '{name}' has already been declared"
  | redeclaredProcedure name => s!"Procedure '{name}' has already been declared"

end Problem

/-- A reason to give up a parse. -/
inductive Abort where
  | notAStatement (found : String)
  | tooNested (limit : Int)
  | exhausted
  deriving DecidableEq

namespace Abort

/-- What is said when a parse is given up. -/
def message : Abort → String
  | notAStatement found => s!"Expect executions, but got '{found}'. " ++
      "Please move all declarations to the beginning of the procedure"
  | tooNested limit => s!"Nesting exceeds {limit} levels"
  | exhausted => "Nesting too deep to analyze"

/-- The fatal diagnostic of a parse given up on a line. -/
def on (reason : Abort) (line : Int) : Diagnostic :=
  { category := .grammar, line, message := reason.message, fatal := true }

end Abort

end PocketPascal.Parser
