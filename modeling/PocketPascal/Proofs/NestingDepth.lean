import PocketPascal.Proofs.Simulation

/-! # How deep a parse is in

Statements, expressions and procedure bodies are counted while they are open. Each of them leaves a
goal behind that ends it, so the depth is the number of these goals and of what was open before, and
nothing is ever taken off that was not counted. A parse that is given up counts off what it had
entered; only a nesting that was refused stays counted.
-/

namespace PocketPascal.Parser

namespace State

@[simp] theorem depth_consume (s : State) : s.consume.2.depth = s.depth :=
  congrArg View.depth (view_consume s)

@[simp] theorem depth_skipLineEnds (s : State) : s.skipLineEnds.depth = s.depth :=
  congrArg View.depth (view_skipLineEnds s)

@[simp] theorem depth_report (s : State) (c : Category) (m : String) :
    (s.report c m).depth = s.depth :=
  congrArg View.depth (view_report s c m)

@[simp] theorem depth_complain (s : State) (p : Problem) : (s.complain p).depth = s.depth :=
  depth_report s _ _

@[simp] theorem depth_expectOr (s : State) (k : Kind) (m : String) :
    (s.expectOr k m).2.depth = s.depth := by
  unfold expectOr
  split <;> simp

@[simp] theorem depth_expect (s : State) (k : Kind) : (s.expect k).2.depth = s.depth :=
  depth_expectOr s k _

@[simp] theorem depth_closeScope (s : State) : s.closeScope.depth = s.depth := by
  unfold closeScope
  split <;> rfl

@[simp] theorem depth_claim (s : State) (v : Variable) : (s.claim v).depth = s.depth := by
  unfold claim
  split <;> rfl

@[simp] theorem depth_registerVariable (s : State) (name : String) :
    (s.registerVariable name).depth = s.depth := by
  unfold registerVariable
  split
  · exact depth_claim _ _
  · exact depth_complain _ _

@[simp] theorem depth_registerParameter (s : State) (name : String) :
    (s.registerParameter name).depth = s.depth :=
  depth_claim _ _

@[simp] theorem depth_registerProcedure (s : State) (name : String) :
    (s.registerProcedure name).2.depth = s.depth := by
  unfold registerProcedure
  split
  · rfl
  · exact depth_complain _ _

end State

@[simp] theorem depth_nameProcedure (s : State) : (nameProcedure s).depth = s.depth := by
  change ((if s.sees .identifier = true then s.registerProcedure s.lookahead.text
    else (none, s)).2.expect .identifier).2.depth = s.depth
  rw [State.depth_expect]
  split
  · exact State.depth_registerProcedure s _
  · rfl

/-- The number of nestings that are still to be ended among some goals. -/
def openNestings (goals : List Goal) : Nat :=
  goals.countP Goal.endsNesting

theorem openNestings_append (gs hs : List Goal) :
    openNestings (gs ++ hs) = openNestings gs + openNestings hs :=
  List.countP_append

theorem openNestings_cons (g : Goal) (gs : List Goal) :
    openNestings (g :: gs) = openNestings [g] + openNestings gs :=
  openNestings_append [g] gs

section Nesting

variable {n : Nesting} {s s₁ : State} {goals : List Goal}

theorem depth_nested {enter : State → Move} (h : nested n s enter = .go goals s₁)
    (henter : enter (s.atDepth (s.depth + 1)) = .go goals s₁ →
      s₁.depth = s.depth + openNestings goals) : s₁.depth = s.depth + openNestings goals := by
  unfold nested at h
  split at h
  · cases h
  · exact henter h

theorem depth_of_construct {c : Construct} (h : constructMove n c s = .go goals s₁) :
    s₁.depth = s.depth + openNestings goals := by
  cases c with
  | procedureBody =>
    rw [constructMove] at h
    refine depth_nested h fun h => ?_
    cases h
    rfl
  | statement =>
    rw [constructMove, statementMove] at h
    refine depth_nested h fun h => ?_
    split at h <;> cases h
    · rfl
    · rfl
    · rfl
    · exact State.depth_consume _
  | expression =>
    rw [constructMove] at h
    refine depth_nested h fun h => ?_
    cases h
    rfl
  | declarations =>
    simp only [constructMove] at h
    split at h <;> cases h
    · exact State.depth_consume _
    · rfl
  | statements =>
    simp only [constructMove] at h
    cases h
    split <;> rfl
  | assignment =>
    simp only [constructMove, assignmentMove] at h
    repeat' split at h
    all_goals cases h
    · rfl
    · rfl
    · simp [openNestings, Goal.endsNesting]
  | factor =>
    simp only [constructMove, factorMove] at h
    repeat' split at h
    all_goals cases h
    all_goals simp [openNestings, Goal.endsNesting]
  | variableDeclaration | parameterDeclaration | relation | reference =>
    simp only [constructMove] at h
    cases h
    split <;> simp [openNestings]
  | procedureName =>
    cases h
    exact State.depth_expect _ _
  | _ =>
    cases h
    rfl

/-- Every nesting that a step enters is one that is still to be ended, and every one that it ends
was. -/
theorem depth_of_step {g : Goal} (h : step n g s = .go goals s₁)
    (hg : openNestings [g] ≤ s.depth) :
    s₁.depth + openNestings [g] = s.depth + openNestings goals := by
  cases g with
  | construct c => exact depth_of_construct h
  | token kind =>
    cases h
    exact State.depth_expect s kind
  | closeParen =>
    cases h
    exact State.depth_expectOr s _ _
  | procedureHead =>
    cases h
    exact depth_nameProcedure s
  | endScope =>
    cases h
    exact State.depth_closeScope s
  | endBody | endNesting =>
    cases h
    exact Nat.sub_add_cancel hg
  | declared =>
    simp only [step] at h
    repeat' split at h
    all_goals cases h
    all_goals simp [openNestings, Goal.endsNesting]
  | moreStatements =>
    simp only [step] at h
    split at h <;> cases h
    · split <;> exact State.depth_consume s
    · rfl
  | moreTerms | moreFactors =>
    simp only [step] at h
    split at h <;> cases h
    · exact State.depth_consume s
    · rfl

/-- The depth never falls below the number of nestings that are still to be ended, and changes with
it. -/
theorem depth_of_visits {goals' : List Goal} {s' : State} (hv : Visits n goals s goals' s')
    (h : openNestings goals ≤ s.depth) :
    s'.depth + openNestings goals = s.depth + openNestings goals' ∧
      openNestings goals' ≤ s'.depth := by
  induction hv with
  | here => exact ⟨rfl, h⟩
  | @next g rest goals₁ goals' s s₁ s' hstep _ ih =>
    rw [openNestings_cons] at h ⊢
    have hdepth := depth_of_step hstep (by omega)
    rw [openNestings_append] at ih
    obtain ⟨hcount, hle⟩ := ih (by omega)
    exact ⟨by omega, hle⟩

/-- While a construct is looked for, the depth is what it was before and the nestings that are still
to be ended. -/
theorem depth_of_visits_construct {c : Construct} (hv : Visits n [.construct c] s goals s₁) :
    s₁.depth = s.depth + openNestings goals :=
  (depth_of_visits hv (Nat.zero_le _)).1

/-- A nesting that was refused is counted, and nothing else that a call had entered still is. -/
theorem depth_of_aborted {c : Construct} {reason : Abort} {line : Int}
    (hfind : find n c s = .aborted reason line s₁) :
    (∃ found, reason = .notAStatement found) ∧ s₁.depth = s.depth ∨
      (reason = .tooNested n.limit ∨ reason = .exhausted) ∧ s₁.depth = s.depth + 1 := by
  obtain ⟨g, rest, found, s₂, hv, hhalt, rfl⟩ := visits_of_aborted hfind
  obtain ⟨-, hhalts⟩ := halts_of_step hhalt
  have hdepth : found.depth = s.depth + openNestings rest := by
    have hg : openNestings [g] = 0 := by cases hhalts <;> rfl
    rw [depth_of_visits_construct hv, openNestings_cons, hg, Nat.zero_add]
  cases hhalts with
  | refused _ hrefusal =>
    refine Or.inr ⟨Nesting.eq_of_refusal? hrefusal, ?_⟩
    change found.depth + 1 - openNestings rest = s.depth + 1
    omega
  | notAStatement =>
    refine Or.inl ⟨⟨_, rfl⟩, ?_⟩
    change found.consume.2.depth - openNestings rest = s.depth
    rw [State.depth_consume]
    omega

/-- While a construct is looked for, the depth grows by no more than one. -/
theorem depth_find (n : Nesting) (c : Construct) (s : State) :
    s.depth ≤ (find n c s).state.depth ∧ (find n c s).state.depth ≤ s.depth + 1 := by
  cases hfind : find n c s with
  | finished s₁ =>
    have hdepth := depth_of_visits_construct (visits_of_finished hfind)
    simp only [Outcome.state, openNestings, List.countP_nil] at hdepth ⊢
    omega
  | aborted reason line s₁ =>
    rcases depth_of_aborted hfind with ⟨-, hdepth⟩ | ⟨-, hdepth⟩
    all_goals
      rw [Outcome.state, hdepth]
      omega

end Nesting

end PocketPascal.Parser
