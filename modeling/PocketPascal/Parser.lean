import PocketPascal.Parser.Progress

/-! # Parsing

Resolving goals one by one until none is left or the parse is given up, and what a parse of a whole
token stream yields.
-/

namespace PocketPascal

namespace Parser

/-- How the resolution of goals ends. -/
inductive Outcome where
  | finished (s : State)
  | aborted (reason : Abort) (line : Int) (s : State)
  deriving DecidableEq

/-- The state that a resolution of goals ends in. -/
def Outcome.state : Outcome → State
  | finished s => s
  | aborted _ _ s => s

/-- Leaves the nestings that the given goals would have ended. -/
def State.unwind (s : State) (goals : List Goal) : State :=
  { s with depth := s.depth - goals.countP Goal.endsNesting }

/-- Resolves goals in order, the goals that replace one before those that come after it. -/
def resolve (n : Nesting) (goals : List Goal) (s : State) : Outcome :=
  match goals with
  | [] => .finished s
  | g :: rest =>
    match _move : step n g s with
    | .go goals' s' => resolve n (goals' ++ rest) s'
    | .halt reason line s' => .aborted reason line (s'.unwind rest)
termination_by Goal.tokenWeight * s.remaining + Goal.totalWeight goals
decreasing_by
  have hl := step_lighter n g s
  rw [_move] at hl
  simp only [Move.Lighter] at hl
  simp only [Goal.totalWeight_append, Goal.totalWeight]
  omega

theorem resolve_nil (n : Nesting) (s : State) : resolve n [] s = .finished s := by
  rw [resolve]

/-- The first goal is resolved by a step, and the rest from where that leads. -/
theorem resolve_cons (n : Nesting) (g : Goal) (rest : List Goal) (s : State) :
    resolve n (g :: rest) s =
      match step n g s with
      | .go goals' s' => resolve n (goals' ++ rest) s'
      | .halt reason line s' => .aborted reason line (s'.unwind rest) := by
  rw [resolve]
  split <;> simp_all

/-- Finds one construct of the grammar. -/
def find (n : Nesting) (c : Construct) (s : State) : Outcome :=
  resolve n [.construct c] s

end Parser

/-- What a parse yields: the tokens it passed, the symbols and the diagnostics, a fatal one last. -/
structure ParseResult where
  tokens : List Token
  vars : List Variable
  procs : List Procedure
  errors : List Diagnostic
  deriving DecidableEq

namespace Parser

/-- What has been found so far. -/
def State.result (s : State) : ParseResult :=
  { tokens := s.consumed
    vars := s.symbols.vars
    procs := s.symbols.procs
    errors := s.errors }

/-- Parses what is ahead as a whole program; the reason for giving up is recorded last. -/
def State.parse (s : State) (n : Nesting) : State :=
  match find n .program s.skipLineEnds with
  | .finished s => s
  | .aborted reason line s =>
    { s with errors := s.errors ++ [reason.on line] }.note (.aborted reason line)

end Parser

/-- Parses a token stream. -/
def parse (n : Parser.Nesting) (tokens : List Token) : ParseResult :=
  ((Parser.State.ofTokens tokens).parse n).result

end PocketPascal
