import PocketPascal.Parser.Step

/-! # Progress of a parse

Every step either passes a token or replaces a goal by goals that weigh less together, so a parse
ends whatever its tokens are.
-/

namespace PocketPascal.Parser

namespace State

/-- The number of tokens ahead. -/
def remaining (s : State) : Nat :=
  s.cursor.ahead.length

@[simp] theorem remaining_report (s : State) (c : Category) (m : String) :
    (s.report c m).remaining = s.remaining := by
  unfold report
  split <;> rfl

@[simp] theorem remaining_complain (s : State) (p : Problem) :
    (s.complain p).remaining = s.remaining := by
  simp [complain]

theorem cursor_crossLine (s : State) : s.crossLine.cursor = s.cursor.advance := rfl

theorem remaining_crossLines_le (ts : List Token) (s : State) :
    (crossLines ts s).remaining ≤ s.remaining := by
  fun_induction crossLines ts s with
  | case1 s => exact Nat.le_refl _
  | case2 s t rest _ ih =>
    refine Nat.le_trans ih ?_
    simp only [remaining, cursor_crossLine, Cursor.advance]
    split <;> simp_all
  | case3 s t rest _ => exact Nat.le_refl _

theorem remaining_skipLineEnds_le (s : State) : s.skipLineEnds.remaining ≤ s.remaining :=
  remaining_crossLines_le _ _

theorem remaining_advance (s : State) :
    State.remaining { s with cursor := s.cursor.advance } = s.remaining - 1 := by
  simp only [remaining, Cursor.advance]
  split <;> simp_all

theorem remaining_consume (s : State) : s.consume.2.remaining ≤ s.remaining - 1 := by
  have h := remaining_skipLineEnds_le s
  refine Nat.le_trans (remaining_skipLineEnds_le _) ?_
  rw [remaining_advance]
  omega

theorem remaining_expectOr (s : State) (k : Kind) (m : String) :
    (s.expectOr k m).2.remaining ≤ s.remaining - 1 := by
  unfold expectOr
  split
  · exact remaining_consume s
  · simpa using remaining_consume (s.report .grammar m)

theorem remaining_expect (s : State) (k : Kind) : (s.expect k).2.remaining ≤ s.remaining - 1 :=
  remaining_expectOr _ _ _

theorem remaining_expectClose (s : State) : s.expectClose.2.remaining ≤ s.remaining - 1 :=
  remaining_expectOr _ _ _

@[simp] theorem remaining_claim (s : State) (v : Variable) :
    (s.claim v).remaining = s.remaining := by
  unfold claim
  split <;> rfl

@[simp] theorem remaining_registerVariable (s : State) (name : String) :
    (s.registerVariable name).remaining = s.remaining := by
  unfold registerVariable
  split
  · rw [remaining_claim]; rfl
  · simp

@[simp] theorem remaining_registerParameter (s : State) (name : String) :
    (s.registerParameter name).remaining = s.remaining := by
  simp only [registerParameter, remaining_claim]
  rfl

@[simp] theorem remaining_registerProcedure (s : State) (name : String) :
    (s.registerProcedure name).2.remaining = s.remaining := by
  unfold registerProcedure
  split
  · rfl
  · simp

theorem remaining_pos_of_sees {s : State} {k : Kind} (h : s.sees k = true)
    (hk : k ≠ .endOfFile) : 0 < s.remaining := by
  unfold sees lookahead Cursor.peek? at h
  unfold remaining
  cases ha : s.cursor.ahead with
  | nil =>
    rw [ha] at h
    exact absurd (by simpa [Token.endOfFile] using h) (Ne.symm hk)
  | cons t rest => simp

end State

theorem remaining_nameProcedure (s : State) : (nameProcedure s).remaining ≤ s.remaining := by
  refine Nat.le_trans (State.remaining_expect _ _) (Nat.le_trans (Nat.sub_le _ _) ?_)
  split <;> simp

/-- A move that leaves less to do than a goal of weight `w` with `r` tokens ahead. -/
def Move.Lighter (w r : Nat) : Move → Prop
  | .go goals s =>
    Goal.tokenWeight * s.remaining + Goal.totalWeight goals < Goal.tokenWeight * r + w
  | .halt .. => True

/-- Goals that weigh less are lighter if no token comes back. -/
theorem Move.lighter_go {w r : Nat} {goals : List Goal} {s : State}
    (hw : Goal.totalWeight goals < w) (hr : s.remaining ≤ r) : (Move.go goals s).Lighter w r := by
  have := Nat.mul_le_mul_left Goal.tokenWeight hr
  simp only [Move.Lighter]
  omega

/-- A passed token makes up for any goals lighter than it. -/
theorem Move.lighter_consume {w r : Nat} {goals : List Goal} {s : State}
    (hw : Goal.totalWeight goals < Goal.tokenWeight + w) (hp : 0 < r) (hr : s.remaining ≤ r - 1) :
    (Move.go goals s).Lighter w r := by
  obtain ⟨m, rfl⟩ : ∃ m, r = m + 1 := ⟨r - 1, by omega⟩
  have := Nat.mul_le_mul_left Goal.tokenWeight hr
  simp only [Move.Lighter, Nat.add_sub_cancel, Nat.mul_add] at *
  omega

theorem nested_lighter {n : Nesting} {s : State} {enter : State → Move} {w r : Nat}
    (h : (enter { s with depth := s.depth + 1 }).Lighter w r) : (nested n s enter).Lighter w r := by
  unfold nested
  split
  · trivial
  · exact h

theorem statementMove_lighter (n : Nesting) (s : State) :
    (statementMove n s).Lighter (Goal.constructWeight .statement) s.remaining := by
  refine nested_lighter ?_
  split
  · exact Move.lighter_go (by decide) (Nat.le_refl _)
  · exact Move.lighter_go (by decide) (Nat.le_refl _)
  · exact Move.lighter_go (by decide) (Nat.le_refl _)
  next h =>
    have hs : s.sees .ifKey = true := by simp [State.sees, h]
    exact Move.lighter_consume (by decide) (State.remaining_pos_of_sees hs (by decide))
      (State.remaining_consume _)
  · trivial

theorem assignmentMove_lighter (s : State) :
    (assignmentMove s).Lighter (Goal.constructWeight .assignment) s.remaining := by
  simp only [assignmentMove]
  split
  · exact Move.lighter_go (by decide) (Nat.le_refl _)
  · split
    · exact Move.lighter_go (by decide) (Nat.le_refl _)
    · refine Move.lighter_go (by decide) (Nat.le_trans (State.remaining_consume _) ?_)
      simp

theorem factorMove_lighter (s : State) :
    (factorMove s).Lighter (Goal.constructWeight .factor) s.remaining := by
  simp only [factorMove]
  split
  next => exact Move.lighter_go (by decide) (Nat.le_trans (State.remaining_consume _) (by simp))
  split
  next => exact Move.lighter_go (by decide) (by simp)
  next hi =>
    have hp : 0 < s.remaining :=
      State.remaining_pos_of_sees (k := .identifier) (by simpa using hi) (by decide)
    split
    · exact Move.lighter_go (by decide) (Nat.le_refl _)
    · split
      · exact Move.lighter_consume (by decide) hp (State.remaining_consume _)
      · refine Move.lighter_consume ?_ hp (by simpa using State.remaining_consume (s.complain _))
        split <;> decide

theorem constructMove_lighter (n : Nesting) (c : Construct) (s : State) :
    (constructMove n c s).Lighter (Goal.constructWeight c) s.remaining := by
  cases c with
  | declarations =>
    simp only [constructMove]
    split
    next h =>
      exact Move.lighter_consume (by decide) (State.remaining_pos_of_sees h (by decide))
        (State.remaining_consume _)
    next => exact Move.lighter_go (by decide) (Nat.le_refl _)
  | variableDeclaration =>
    refine Move.lighter_go (by decide) (Nat.le_trans (State.remaining_expect _ _) ?_)
    split <;> simp
  | parameterDeclaration =>
    refine Move.lighter_go (by decide) (Nat.le_trans (State.remaining_expect _ _) ?_)
    split <;> simp
  | procedureBody =>
    simp only [constructMove]
    refine nested_lighter ?_
    exact Move.lighter_go (by decide) (Nat.le_refl _)
  | statements =>
    refine Move.lighter_go ?_ (Nat.le_refl _)
    split <;> decide
  | statement => exact statementMove_lighter n s
  | assignment => exact assignmentMove_lighter s
  | relation =>
    refine Move.lighter_go (by decide) (Nat.le_trans (State.remaining_consume _) ?_)
    split <;> simp
  | expression =>
    simp only [constructMove]
    refine nested_lighter ?_
    exact Move.lighter_go (by decide) (Nat.le_refl _)
  | factor => exact factorMove_lighter s
  | reference =>
    refine Move.lighter_go (by decide) (Nat.le_trans (State.remaining_expect _ _) ?_)
    split <;> simp
  | procedureName =>
    exact Move.lighter_go (by decide) (Nat.le_trans (State.remaining_expect _ _) (Nat.sub_le _ _))
  | _ => exact Move.lighter_go (by decide) (Nat.le_refl _)

/-- Every step that does not end the parse leaves less to do. -/
theorem step_lighter (n : Nesting) (g : Goal) (s : State) :
    (step n g s).Lighter g.weight s.remaining := by
  cases g with
  | construct c => exact constructMove_lighter n c s
  | token kind =>
    exact Move.lighter_go (by simp [Goal.totalWeight, Goal.weight])
      (Nat.le_trans (State.remaining_expect _ _) (Nat.sub_le _ _))
  | closeParen =>
    exact Move.lighter_go (by decide)
      (Nat.le_trans (State.remaining_expectClose _) (Nat.sub_le _ _))
  | declared =>
    simp only [step]
    split
    · exact Move.lighter_go (by decide) (Nat.le_refl _)
    · split
      · exact Move.lighter_go (by decide) (Nat.le_refl _)
      · refine Move.lighter_go (by decide) ?_
        split
        · simp
        · exact Nat.le_trans (State.remaining_consume _) (by simp)
  | procedureHead => exact Move.lighter_go (by decide) (remaining_nameProcedure s)
  | endScope =>
    refine Move.lighter_go (by decide) ?_
    unfold State.closeScope
    split <;> exact Nat.le_refl _
  | endBody => exact Move.lighter_go (by decide) (Nat.le_refl _)
  | endNesting => exact Move.lighter_go (by decide) (Nat.le_refl _)
  | moreStatements =>
    simp only [step]
    split
    next h =>
      refine Move.lighter_consume ?_ (State.remaining_pos_of_sees h (by decide))
        (State.remaining_consume _)
      split <;> decide
    next => exact Move.lighter_go (by decide) (Nat.le_refl _)
  | moreTerms =>
    simp only [step]
    split
    next h =>
      exact Move.lighter_consume (by decide) (State.remaining_pos_of_sees h (by decide))
        (State.remaining_consume _)
    next => exact Move.lighter_go (by decide) (Nat.le_refl _)
  | moreFactors =>
    simp only [step]
    split
    next h =>
      exact Move.lighter_consume (by decide) (State.remaining_pos_of_sees h (by decide))
        (State.remaining_consume _)
    next => exact Move.lighter_go (by decide) (Nat.le_refl _)

end PocketPascal.Parser
