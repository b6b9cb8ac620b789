import PocketPascal.Proofs.Reading

/-! # Two parses side by side

A step of a parse looks at the lookahead, the depth and the symbols, and then does what a handful of
operations do. So a relation between states under which these decide alike, and which the operations
keep, is kept by every step, and by the resolution of goals: both resolutions take the same steps.
A property of single states is the case of a relation that only relates equal states.
-/

namespace PocketPascal.Parser

namespace State

/-- Enters the body of the procedure whose scope was opened last. -/
def enterBody (s : State) : State :=
  { s with level := s.level + 1 }.note (.entered s.scope.owner (s.level + 1))

/-- Leaves the body of a procedure. -/
def leaveBody (s : State) : State :=
  { s with level := s.level - 1, depth := s.depth - 1 }.note (.left s.scope.owner s.level)

/-- Is at another depth. -/
def atDepth (s : State) (depth : Nat) : State :=
  { s with depth }

/-- Two states whose lookaheads are of one kind expect a token alike, if taking it and what is
reported of it are alike. -/
theorem expectOr_of_kind {R : State → State → Prop}
    (consume : ∀ {s s'}, R s s' → R s.consume.2 s'.consume.2) {s s' : State}
    (hk : s'.lookahead.kind = s.lookahead.kind) (h : R s s') (k : Kind) {m m' : String}
    (hm : R (s.report .grammar m) (s'.report .grammar m')) :
    R (s.expectOr k m).2 (s'.expectOr k m').2 := by
  rw [expectOr, expectOr, sees, sees, hk]
  split
  · exact consume h
  · exact consume hm

/-- Two states with the same lookahead expect a token alike, if taking and reporting are alike. -/
theorem expectOr_related {R : State → State → Prop}
    (consume : ∀ {s s'}, R s s' → R s.consume.2 s'.consume.2)
    (report : ∀ {s s'}, R s s' → ∀ c m, R (s.report c m) (s'.report c m)) {s s' : State}
    (hl : s'.lookahead.toLexeme = s.lookahead.toLexeme) (h : R s s') (k : Kind) (m : String) :
    R (s.expectOr k m).2 (s'.expectOr k m).2 :=
  expectOr_of_kind consume (congrArg Lexeme.kind hl) h k (report h _ _)

theorem expect_related {R : State → State → Prop}
    (consume : ∀ {s s'}, R s s' → R s.consume.2 s'.consume.2)
    (report : ∀ {s s'}, R s s' → ∀ c m, R (s.report c m) (s'.report c m)) {s s' : State}
    (hl : s'.lookahead.toLexeme = s.lookahead.toLexeme) (h : R s s') (k : Kind) :
    R (s.expect k).2 (s'.expect k).2 := by
  have ht : s'.lookahead.text = s.lookahead.text := congrArg Lexeme.text hl
  rw [expect, expect, ht]
  exact expectOr_related consume report hl h _ _

end State

/-! ## Runs -/

/-- Goals and states that the resolution of goals passes through. -/
inductive Visits (n : Nesting) : List Goal → State → List Goal → State → Prop where
  | here (goals : List Goal) (s : State) : Visits n goals s goals s
  | next {g : Goal} {rest goals goals' : List Goal} {s s₁ s' : State}
      (hstep : step n g s = .go goals s₁) (h : Visits n (goals ++ rest) s₁ goals' s') :
      Visits n (g :: rest) s goals' s'

/-- The constructs that are counted while they are open. -/
def nestings : List Construct :=
  [.procedureBody, .statement, .expression]

theorem Nesting.eq_of_refusal? {n : Nesting} {depth : Nat} {reason : Abort}
    (h : n.refusal? depth = some reason) : reason = .tooNested n.limit ∨ reason = .exhausted := by
  rw [refusal?] at h
  split at h
  · exact Or.inl (Option.some.inj h).symm
  · split at h
    · exact Or.inr (Option.some.inj h).symm
    · cases h

/-- How a goal gives a parse up: what is counted is refused and stays counted, or a statement takes
a token that starts none. -/
inductive Halts (n : Nesting) (s : State) : Goal → Abort → State → Prop where
  | refused {c : Construct} (hc : c ∈ nestings) {reason : Abort}
      (h : n.refusal? s.depth = some reason) :
      Halts n s (.construct c) reason (s.atDepth (s.depth + 1))
  | notAStatement (hn : n.refusal? s.depth = none)
      (h : s.lookahead.kind ∉ [.readKey, .writeKey, .identifier, .ifKey]) :
      Halts n s (.construct .statement) (.notAStatement s.consume.1.text) s.consume.2

section Halts

variable {n : Nesting} {g : Goal} {s s₁ : State} {reason : Abort} {line : Int}

theorem halts_of_nested {c : Construct} (hc : c ∈ nestings) {enter : State → Move}
    (h : nested n s enter = .halt reason line s₁)
    (henter : n.refusal? s.depth = none → enter (s.atDepth (s.depth + 1)) = .halt reason line s₁ →
      line = s.line ∧ Halts n s (.construct c) reason s₁) :
    line = s.line ∧ Halts n s (.construct c) reason s₁ := by
  unfold nested at h
  split at h
  · next hrefusal =>
    cases h
    exact ⟨rfl, .refused hc hrefusal⟩
  · next hn => exact henter hn h

/-- A parse is given up on the current line, before a nesting or behind a token that starts no
statement. -/
theorem halts_of_step (h : step n g s = .halt reason line s₁) :
    line = s.line ∧ Halts n s g reason s₁ := by
  cases g with
  | construct c =>
    rw [step] at h
    cases c with
    | procedureBody =>
      rw [constructMove] at h
      exact halts_of_nested (by decide) h fun _ h => by cases h
    | expression =>
      rw [constructMove] at h
      exact halts_of_nested (by decide) h fun _ h => by cases h
    | statement =>
      rw [constructMove, statementMove] at h
      refine halts_of_nested (by decide) h fun hn h => ?_
      split at h <;> cases h
      exact ⟨rfl, .notAStatement hn (by simp_all)⟩
    | declarations => rw [constructMove] at h; split at h <;> cases h
    | assignment =>
      rw [constructMove, assignmentMove] at h
      split at h
      · cases h
      · split at h <;> cases h
    | factor =>
      rw [constructMove, factorMove] at h
      repeat' split at h
      all_goals cases h
    | _ => cases h
  | declared =>
    rw [step] at h
    split at h
    · cases h
    · split at h <;> cases h
  | moreStatements => rw [step] at h; split at h <;> cases h
  | moreTerms => rw [step] at h; split at h <;> cases h
  | moreFactors => rw [step] at h; split at h <;> cases h
  | _ => cases h

theorem halt_cases (h : step n g s = .halt reason line s₁) :
    line = s.line ∧ (s₁ = s.atDepth (s.depth + 1) ∨ s₁ = s.consume.2) := by
  obtain ⟨hline, hhalts⟩ := halts_of_step h
  cases hhalts with
  | refused => exact ⟨hline, Or.inl rfl⟩
  | notAStatement => exact ⟨hline, Or.inr rfl⟩

end Halts

/-- A parse is given up on the current line, and nothing else is reported with that. -/
theorem step_halt {n : Nesting} {g : Goal} {s : State} {reason : Abort} {line : Int} {s₁ : State}
    (h : step n g s = .halt reason line s₁) : line = s.line ∧ s₁.errors = s.errors := by
  obtain ⟨hline, rfl | rfl⟩ := halt_cases h
  · exact ⟨hline, rfl⟩
  · exact ⟨hline, State.errors_consume s⟩

theorem State.unwind_append (s : State) (gs hs : List Goal) :
    s.unwind (gs ++ hs) = (s.unwind gs).unwind hs := by
  rw [unwind, List.countP_append, ← Nat.sub_sub]
  rfl

/-- A resolution of goals that is given up has come to a goal that gave it up. -/
theorem visits_of_aborted {n : Nesting} {goals : List Goal} {s : State} {reason : Abort}
    {line : Int} {s₁ : State} (h : resolve n goals s = .aborted reason line s₁) :
    ∃ g rest found s₂, Visits n goals s (g :: rest) found ∧
      step n g found = .halt reason line s₂ ∧ s₁ = s₂.unwind rest := by
  fun_induction resolve n goals s with
  | case1 s => cases h
  | case2 s g rest goals' s' hstep ih =>
    obtain ⟨g', rest', found, s₂, hv, hhalt, hs⟩ := ih h
    exact ⟨g', rest', found, s₂, .next hstep hv, hhalt, hs⟩
  | case3 s g rest reason' line' s' hstep =>
    cases h
    exact ⟨g, rest, s, s', .here _ _, hstep, rfl⟩

/-- A resolution of goals that comes to an end has resolved all of them. -/
theorem visits_of_finished {n : Nesting} {goals : List Goal} {s s₁ : State}
    (h : resolve n goals s = .finished s₁) : Visits n goals s [] s₁ := by
  fun_induction resolve n goals s with
  | case1 s =>
    cases h
    exact .here _ _
  | case2 s g rest goals' s' hstep ih => exact .next hstep (ih h)
  | case3 s g rest reason line s' hstep => cases h

theorem Visits.trans {n : Nesting} {goals goals' goals'' : List Goal} {s s' s'' : State}
    (h : Visits n goals s goals' s') (h' : Visits n goals' s' goals'' s'') :
    Visits n goals s goals'' s'' := by
  induction h with
  | here => exact h'
  | next hstep _ ih => exact .next hstep (ih h')

/-- Of two places that a resolution of goals comes by, it comes by one on the way to the other. -/
theorem Visits.total {n : Nesting} {goals goals₁ goals₂ : List Goal} {s s₁ s₂ : State}
    (h₁ : Visits n goals s goals₁ s₁) (h₂ : Visits n goals s goals₂ s₂) :
    Visits n goals₁ s₁ goals₂ s₂ ∨ Visits n goals₂ s₂ goals₁ s₁ := by
  induction h₁ with
  | here => exact Or.inl h₂
  | next hstep h₁ ih =>
    cases h₂ with
    | here => exact Or.inr (.next hstep h₁)
    | next hstep' h₂ =>
      cases hstep.symm.trans hstep'
      exact ih h₂

/-- Goals are resolved to the same end from wherever their resolution comes by. -/
theorem resolve_of_visits {n : Nesting} {goals goals' : List Goal} {s s' : State}
    (hv : Visits n goals s goals' s') : resolve n goals s = resolve n goals' s' := by
  induction hv with
  | here => rfl
  | next hstep _ ih =>
    rw [resolve_cons, hstep]
    exact ih

/-- Goals are resolved before the goals behind them are. What comes behind them is left where they
give the parse up. -/
theorem resolve_append (n : Nesting) (gs hs : List Goal) (s : State) :
    resolve n (gs ++ hs) s =
      match resolve n gs s with
      | .finished s₁ => resolve n hs s₁
      | .aborted reason line s₁ => .aborted reason line (s₁.unwind hs) := by
  fun_induction resolve n gs s with
  | case1 s => rfl
  | case2 s g rest goals s₁ hstep ih =>
    rw [List.cons_append, resolve_cons, hstep]
    rw [List.append_assoc] at ih
    exact ih
  | case3 s g rest reason line s₁ hstep =>
    rw [List.cons_append, resolve_cons, hstep]
    exact congrArg (Outcome.aborted reason line) (s₁.unwind_append rest hs)

/-! ## Matching -/

/-- Two states in which the lookaheads, taken for names, mean variables together, and procedures
together. -/
def State.FindsAlike (s s' : State) : Prop :=
  s'.knowsVariable s'.lookahead.text = s.knowsVariable s.lookahead.text ∧
    s'.knowsProcedure s'.lookahead.text = s.knowsProcedure s.lookahead.text

/-- A relation under which two states decide alike and which every operation of a step keeps. The
texts of the lookaheads may differ, and with them what is reported and why a parse is given up. -/
structure Matching (same : Abort → Abort → Prop) (R : State → State → Prop) : Prop where
  kind : ∀ {s s'}, R s s' → s'.lookahead.kind = s.lookahead.kind
  depth : ∀ {s s'}, R s s' → s'.depth = s.depth
  finds : ∀ {s s'}, R s s' → s.sees .identifier → s.FindsAlike s'
  refused : ∀ reason, same reason reason
  taken : ∀ {s s'}, R s s' →
    same (.notAStatement s.consume.1.text) (.notAStatement s'.consume.1.text)
  consume : ∀ {s s'}, R s s' → R s.consume.2 s'.consume.2
  report : ∀ {s s'}, R s s' → ∀ c (m : String → String),
    R (s.report c (m s.lookahead.text)) (s'.report c (m s'.lookahead.text))
  registerParameter : ∀ {s s'}, R s s' → s.sees .identifier →
    R (s.registerParameter s.lookahead.text) (s'.registerParameter s'.lookahead.text)
  nameProcedure : ∀ {s s'}, R s s' → R (nameProcedure s) (nameProcedure s')
  closeScope : ∀ {s s'}, R s s' → R s.closeScope s'.closeScope
  enterBody : ∀ {s s'}, R s s' → R s.enterBody s'.enterBody
  leaveBody : ∀ {s s'}, R s s' → R s.leaveBody s'.leaveBody
  atDepth : ∀ {s s'}, R s s' → ∀ d, R (s.atDepth d) (s'.atDepth d)

/-- What a step asks for besides where a goal comes up only in some states: an assignment before a
name, a variable in the body that owns it. -/
def Goal.Ready (R : State → State → Prop) (g : Goal) (s s' : State) : Prop :=
  match g with
  | .construct .assignment => s.FindsAlike s'
  | .construct .variableDeclaration => s.sees .identifier →
      R (s.registerVariable s.lookahead.text) (s'.registerVariable s'.lookahead.text)
  | _ => True

/-- Two moves to the same goals, or two ends for reasons that are the same. -/
inductive Move.Related (same : Abort → Abort → Prop) (R : State → State → Prop) :
    Move → Move → Prop where
  | go (goals : List Goal) {s s' : State} (h : R s s') :
      Related same R (.go goals s) (.go goals s')
  | halt {reason reason' : Abort} (hr : same reason reason') {line line' : Int} {s s' : State}
      (h : R s s') : Related same R (.halt reason line s) (.halt reason' line' s')

namespace Matching

variable {same : Abort → Abort → Prop} {R : State → State → Prop} {s s' : State}

theorem sees (mat : Matching same R) (h : R s s') (k : Kind) : s'.sees k = s.sees k := by
  rw [State.sees, State.sees, mat.kind h]

theorem atBlockEnd (mat : Matching same R) (h : R s s') : s'.atBlockEnd = s.atBlockEnd := by
  rw [State.atBlockEnd, State.atBlockEnd, mat.sees h, mat.sees h]

/-- Both lookaheads are wrong in the same way. -/
theorem complain (mat : Matching same R) (h : R s s') {c : Category} (p : String → Problem)
    (hp : ∀ text, (p text).category = c) :
    R (s.complain (p s.lookahead.text)) (s'.complain (p s'.lookahead.text)) := by
  rw [State.complain, State.complain, hp, hp]
  exact mat.report h c fun text => (p text).message

theorem expect (mat : Matching same R) (h : R s s') (k : Kind) :
    R (s.expect k).2 (s'.expect k).2 :=
  State.expectOr_of_kind mat.consume (mat.kind h) h k
    (mat.report h .grammar fun text => (Problem.unexpected k text).message)

theorem expectClose (mat : Matching same R) (h : R s s') : R s.expectClose.2 s'.expectClose.2 :=
  State.expectOr_of_kind mat.consume (mat.kind h) h _ (mat.report h .grammar fun _ => _)

/-- A nesting is refused alike, and entered alike otherwise. -/
theorem nested (mat : Matching same R) (h : R s s') (n : Nesting) {enter enter' : State → Move}
    (he : R (s.atDepth (s.depth + 1)) (s'.atDepth (s'.depth + 1)) →
      Move.Related same R (enter (s.atDepth (s.depth + 1))) (enter' (s'.atDepth (s'.depth + 1)))) :
    Move.Related same R (nested n s enter) (nested n s' enter') := by
  have hd : R (s.atDepth (s.depth + 1)) (s'.atDepth (s'.depth + 1)) := by
    rw [mat.depth h]
    exact mat.atDepth h _
  unfold Parser.nested
  rw [mat.depth h] at hd he ⊢
  split
  · exact .halt (mat.refused _) hd
  · exact he hd

theorem statementMove (mat : Matching same R) (h : R s s') (n : Nesting) :
    Move.Related same R (statementMove n s) (statementMove n s') := by
  refine mat.nested h n fun hd => ?_
  rw [mat.kind h]
  split
  · exact .go _ hd
  · exact .go _ hd
  · exact .go _ hd
  · exact .go _ (mat.consume hd)
  · exact .halt (mat.taken h) (mat.consume h)

theorem assignmentMove (mat : Matching same R) (h : R s s') (hfinds : s.FindsAlike s') :
    Move.Related same R (assignmentMove s) (assignmentMove s') := by
  obtain ⟨hvariable, hprocedure⟩ := hfinds
  simp only [Parser.assignmentMove, hvariable, hprocedure]
  split
  · exact .go _ h
  split
  · exact .go _ h
  · exact .go _ (mat.consume (mat.complain h .undefinedName fun _ => rfl))

theorem factorMove (mat : Matching same R) (h : R s s') :
    Move.Related same R (factorMove s) (factorMove s') := by
  have hskip := mat.consume (mat.complain h .undefinedName fun _ => rfl)
  simp only [Parser.factorMove, mat.sees h, mat.sees hskip]
  split
  · exact .go _ (mat.consume h)
  split
  · exact .go _ (mat.complain h .notAFactor fun _ => rfl)
  · next hname =>
    obtain ⟨hvariable, hprocedure⟩ := mat.finds h (by simpa using hname)
    rw [hvariable, hprocedure]
    split
    · exact .go _ h
    split
    · exact .go _ (mat.consume h)
    · exact .go _ hskip


/-- Two states that are related resolve a construct alike. -/
theorem constructMove (mat : Matching same R) (h : R s s') (n : Nesting) (c : Construct)
    (hready : Goal.Ready R (.construct c) s s') :
    Move.Related same R (constructMove n c s) (constructMove n c s') := by
  cases c with
  | declarations =>
    simp only [Parser.constructMove, mat.sees h]
    split
    · exact .go _ (mat.consume h)
    · exact .go _ h
  | variableDeclaration =>
    simp only [Parser.constructMove, mat.sees h]
    split
    · next hsees => exact .go _ (mat.expect (hready hsees) _)
    · exact .go _ (mat.expect h _)
  | parameterDeclaration =>
    simp only [Parser.constructMove, mat.sees h]
    split
    · next hsees => exact .go _ (mat.expect (mat.registerParameter h hsees) _)
    · exact .go _ (mat.expect h _)
  | procedureBody =>
    rw [Parser.constructMove, Parser.constructMove]
    refine mat.nested h n fun hd => ?_
    exact .go [.construct .body, .endBody] (mat.enterBody hd)
  | statements =>
    simp only [Parser.constructMove, mat.atBlockEnd h]
    exact .go _ h
  | statement => exact mat.statementMove h n
  | assignment => exact mat.assignmentMove h hready
  | relation =>
    simp only [Parser.constructMove, mat.kind h]
    split
    · exact .go _ (mat.consume h)
    · exact .go _ (mat.consume (mat.complain h .notAnOperator fun _ => rfl))
  | expression => exact mat.nested h n fun hd => .go _ hd
  | factor => exact mat.factorMove h
  | reference =>
    simp only [Parser.constructMove, mat.sees h]
    cases hsees : s.sees .identifier with
    | false => exact .go _ (mat.expect h _)
    | true =>
      rw [(mat.finds h hsees).1]
      split
      · exact .go _ (mat.expect (mat.complain h .undefinedVariable fun _ => rfl) _)
      · exact .go _ (mat.expect h _)
  | procedureName => exact .go _ (mat.expect h _)
  | _ => exact .go _ h

/-- Two states that are related resolve a goal alike. -/
theorem step (mat : Matching same R) (h : R s s') (n : Nesting) {g : Goal}
    (hready : g.Ready R s s') : Move.Related same R (step n g s) (step n g s') := by
  cases g with
  | construct c => exact mat.constructMove h n c hready
  | token kind => exact .go _ (mat.expect h _)
  | closeParen => exact .go _ (mat.expectClose h)
  | declared =>
    simp only [Parser.step, mat.sees h]
    have hc := mat.complain h .notAVariableName fun _ => rfl
    split
    · exact .go _ h
    split
    · exact .go _ h
    rw [mat.sees hc]
    split
    · exact .go _ hc
    · exact .go _ (mat.consume hc)
  | procedureHead => exact .go _ (mat.nameProcedure h)
  | endScope => exact .go _ (mat.closeScope h)
  | endBody => exact .go _ (mat.leaveBody h)
  | endNesting =>
    simp only [Parser.step, mat.depth h]
    exact .go _ (mat.atDepth h _)
  | moreStatements =>
    simp only [Parser.step, mat.sees h, mat.atBlockEnd (mat.consume h)]
    split
    · exact .go _ (mat.consume h)
    · exact .go _ h
  | moreTerms =>
    simp only [Parser.step, mat.sees h]
    split
    · exact .go _ (mat.consume h)
    · exact .go _ h
  | moreFactors =>
    simp only [Parser.step, mat.sees h]
    split
    · exact .go _ (mat.consume h)
    · exact .go _ h

end Matching

/-! ## Simulation -/

/-- A relation under which two states decide alike, on the same lookahead, and which every operation
of a step keeps. -/
structure Simulation (R : State → State → Prop) : Prop where
  lookahead : ∀ {s s'}, R s s' → s'.lookahead.toLexeme = s.lookahead.toLexeme
  taken : ∀ {s s'}, R s s' → s'.consume.1.text = s.consume.1.text
  depth : ∀ {s s'}, R s s' → s'.depth = s.depth
  knowsVariable : ∀ {s s'}, R s s' → ∀ name, s'.knowsVariable name = s.knowsVariable name
  knowsProcedure : ∀ {s s'}, R s s' → ∀ name, s'.knowsProcedure name = s.knowsProcedure name
  consume : ∀ {s s'}, R s s' → R s.consume.2 s'.consume.2
  report : ∀ {s s'}, R s s' → ∀ c m, R (s.report c m) (s'.report c m)
  registerVariable : ∀ {s s'}, R s s' →
    ∀ name, R (s.registerVariable name) (s'.registerVariable name)
  registerParameter : ∀ {s s'}, R s s' →
    ∀ name, R (s.registerParameter name) (s'.registerParameter name)
  nameProcedure : ∀ {s s'}, R s s' → R (nameProcedure s) (nameProcedure s')
  closeScope : ∀ {s s'}, R s s' → R s.closeScope s'.closeScope
  enterBody : ∀ {s s'}, R s s' → R s.enterBody s'.enterBody
  leaveBody : ∀ {s s'}, R s s' → R s.leaveBody s'.leaveBody
  atDepth : ∀ {s s'}, R s s' → ∀ d, R (s.atDepth d) (s'.atDepth d)

/-- Two resolutions that end alike. One that is given up names the line of the state in which that
was decided, and nothing has been reported since. -/
inductive Outcome.Related (R : State → State → Prop) : Outcome → Outcome → Prop where
  | finished {s s' : State} (h : R s s') : Related R (.finished s) (.finished s')
  | aborted (reason : Abort) {found found' s s' : State} (hf : R found found')
      (he : s.errors = found.errors) (he' : s'.errors = found'.errors) (h : R s s') :
      Related R (.aborted reason found.line s) (.aborted reason found'.line s')

namespace Simulation

variable {R : State → State → Prop} {s s' : State}

theorem text (sim : Simulation R) (h : R s s') : s'.lookahead.text = s.lookahead.text :=
  congrArg Lexeme.text (sim.lookahead h)

theorem findsAlike (sim : Simulation R) (h : R s s') : s.FindsAlike s' := by
  rw [State.FindsAlike, sim.text h, sim.knowsVariable h, sim.knowsProcedure h]
  exact ⟨rfl, rfl⟩

theorem matching (sim : Simulation R) : Matching Eq R where
  kind h := congrArg Lexeme.kind (sim.lookahead h)
  depth := sim.depth
  finds h _ := sim.findsAlike h
  refused _ := rfl
  taken h := by rw [sim.taken h]
  consume := sim.consume
  report h c m := by
    rw [sim.text h]
    exact sim.report h c _
  registerParameter h _ := by
    rw [sim.text h]
    exact sim.registerParameter h _
  nameProcedure := sim.nameProcedure
  closeScope := sim.closeScope
  enterBody := sim.enterBody
  leaveBody := sim.leaveBody
  atDepth := sim.atDepth

/-- Two states that are related resolve a goal alike. -/
theorem step (sim : Simulation R) (h : R s s') (n : Nesting) (g : Goal) :
    Move.Related Eq R (step n g s) (step n g s') := by
  refine sim.matching.step h n ?_
  unfold Goal.Ready
  split
  · exact sim.findsAlike h
  · intro _
    rw [sim.text h]
    exact sim.registerVariable h _
  · trivial

theorem unwind (sim : Simulation R) (h : R s s') (goals : List Goal) :
    R (s.unwind goals) (s'.unwind goals) := by
  rw [State.unwind, State.unwind, sim.depth h]
  exact sim.atDepth h _

/-- Two states that are related resolve goals alike, step by step. -/
theorem resolve (sim : Simulation R) (h : R s s') (n : Nesting) (goals : List Goal) :
    Outcome.Related R (resolve n goals s) (resolve n goals s') := by
  fun_induction Parser.resolve n goals s generalizing s' with
  | case1 s =>
    rw [resolve_nil]
    exact .finished h
  | case2 s g rest goals' s₁ hstep ih =>
    have hmove := sim.step h n g
    rw [hstep] at hmove
    rw [resolve_cons]
    generalize Parser.step n g s' = m at hmove ⊢
    cases hmove with
    | go _ h₁ => exact ih h₁
  | case3 s g rest reason line s₁ hstep =>
    have hmove := sim.step h n g
    rw [hstep] at hmove
    rw [resolve_cons]
    generalize hm : Parser.step n g s' = m at hmove ⊢
    cases hmove with
    | halt hr h₁ =>
      subst hr
      obtain ⟨rfl, he⟩ := step_halt hstep
      obtain ⟨rfl, he'⟩ := step_halt hm
      exact .aborted _ h he he' (sim.unwind h₁ rest)

end Simulation

/-! ## Properties of single states -/

/-- A property of states that every operation of a step keeps. -/
structure Invariant (P : State → Prop) : Prop where
  consume : ∀ {s}, P s → P s.consume.2
  report : ∀ {s}, P s → ∀ c m, P (s.report c m)
  registerVariable : ∀ {s}, P s → ∀ name, P (s.registerVariable name)
  registerParameter : ∀ {s}, P s → ∀ name, P (s.registerParameter name)
  nameProcedure : ∀ {s}, P s → P (nameProcedure s)
  closeScope : ∀ {s}, P s → P s.closeScope
  enterBody : ∀ {s}, P s → P s.enterBody
  leaveBody : ∀ {s}, P s → P s.leaveBody
  atDepth : ∀ {s}, P s → ∀ d, P (s.atDepth d)

/-- Gives a parse up on a line. -/
def State.giveUp (s : State) (reason : Abort) (line : Int) : State :=
  { s with errors := s.errors ++ [reason.on line] }.note (.aborted reason line)

theorem State.result_giveUp (s : State) (reason : Abort) (line : Int) :
    (s.giveUp reason line).result =
      { s.result with errors := s.result.errors ++ [reason.on line] } := rfl

theorem State.parse_of_finished {n : Nesting} {s s₁ : State}
    (h : find n .program s.skipLineEnds = .finished s₁) : s.parse n = s₁ := by
  rw [parse, h]

theorem State.parse_of_aborted {n : Nesting} {s s₁ : State} {reason : Abort} {line : Int}
    (h : find n .program s.skipLineEnds = .aborted reason line s₁) :
    s.parse n = s₁.giveUp reason line := by
  rw [parse, h]
  rfl

/-- Two parses end in states that are related, or are given up for the same reason in two that
are. -/
theorem Simulation.parse {R : State → State → Prop} {s s' : State} (sim : Simulation R)
    (h : R s.skipLineEnds s'.skipLineEnds) (n : Nesting) :
    R (s.parse n) (s'.parse n) ∨
      ∃ reason found found' s₁ s₁', s.parse n = s₁.giveUp reason found.line ∧
        s'.parse n = s₁'.giveUp reason found'.line ∧ R found found' ∧
        s₁.errors = found.errors ∧ s₁'.errors = found'.errors ∧ R s₁ s₁' := by
  have hout := sim.resolve h n [.construct .program]
  rw [State.parse, State.parse, find, find]
  generalize Parser.resolve n [.construct .program] s.skipLineEnds = o at hout ⊢
  generalize Parser.resolve n [.construct .program] s'.skipLineEnds = o' at hout ⊢
  cases hout with
  | finished h₁ => exact Or.inl h₁
  | aborted reason hf he he' h₁ => exact Or.inr ⟨reason, _, _, _, _, rfl, rfl, hf, he, he', h₁⟩

namespace Invariant

variable {P : State → Prop} {s : State}

theorem and {Q : State → Prop} (hP : Invariant P) (hQ : Invariant Q) :
    Invariant fun s => P s ∧ Q s where
  consume h := ⟨hP.consume h.1, hQ.consume h.2⟩
  report h c m := ⟨hP.report h.1 c m, hQ.report h.2 c m⟩
  registerVariable h name := ⟨hP.registerVariable h.1 name, hQ.registerVariable h.2 name⟩
  registerParameter h name := ⟨hP.registerParameter h.1 name, hQ.registerParameter h.2 name⟩
  nameProcedure h := ⟨hP.nameProcedure h.1, hQ.nameProcedure h.2⟩
  closeScope h := ⟨hP.closeScope h.1, hQ.closeScope h.2⟩
  enterBody h := ⟨hP.enterBody h.1, hQ.enterBody h.2⟩
  leaveBody h := ⟨hP.leaveBody h.1, hQ.leaveBody h.2⟩
  atDepth h d := ⟨hP.atDepth h.1 d, hQ.atDepth h.2 d⟩

/-- An invariant relates every state that has it to itself. -/
theorem simulation (inv : Invariant P) : Simulation fun s s' => s' = s ∧ P s where
  lookahead := by rintro s _ ⟨rfl, -⟩; rfl
  taken := by rintro s _ ⟨rfl, -⟩; rfl
  depth := by rintro s _ ⟨rfl, -⟩; rfl
  knowsVariable := by rintro s _ ⟨rfl, -⟩ name; rfl
  knowsProcedure := by rintro s _ ⟨rfl, -⟩ name; rfl
  consume := by rintro s _ ⟨rfl, h⟩; exact ⟨rfl, inv.consume h⟩
  report := by rintro s _ ⟨rfl, h⟩ c m; exact ⟨rfl, inv.report h c m⟩
  registerVariable := by rintro s _ ⟨rfl, h⟩ name; exact ⟨rfl, inv.registerVariable h name⟩
  registerParameter := by rintro s _ ⟨rfl, h⟩ name; exact ⟨rfl, inv.registerParameter h name⟩
  nameProcedure := by rintro s _ ⟨rfl, h⟩; exact ⟨rfl, inv.nameProcedure h⟩
  closeScope := by rintro s _ ⟨rfl, h⟩; exact ⟨rfl, inv.closeScope h⟩
  enterBody := by rintro s _ ⟨rfl, h⟩; exact ⟨rfl, inv.enterBody h⟩
  leaveBody := by rintro s _ ⟨rfl, h⟩; exact ⟨rfl, inv.leaveBody h⟩
  atDepth := by rintro s _ ⟨rfl, h⟩ d; exact ⟨rfl, inv.atDepth h d⟩

/-- A step that goes on keeps an invariant. -/
theorem of_step (inv : Invariant P) (h : P s) {n : Nesting} {g : Goal} {goals : List Goal}
    {s₁ : State} (hstep : step n g s = .go goals s₁) : P s₁ := by
  have hmove := inv.simulation.step ⟨rfl, h⟩ n g
  rw [hstep] at hmove
  cases hmove with
  | go _ h₁ => exact h₁.2

/-- An invariant holds wherever a resolution of goals comes by. -/
theorem of_visits (inv : Invariant P) (h : P s) {n : Nesting} {goals goals' : List Goal}
    {s' : State} (hv : Visits n goals s goals' s') : P s' := by
  induction hv with
  | here => exact h
  | next hstep _ ih => exact ih (inv.of_step h hstep)

/-- A resolution of goals keeps an invariant, and is given up in a state that has it. -/
theorem resolve (inv : Invariant P) (h : P s) (n : Nesting) (goals : List Goal) :
    (∃ s₁, resolve n goals s = .finished s₁ ∧ P s₁) ∨
      ∃ reason found s₁, resolve n goals s = .aborted reason found.line s₁ ∧ P found ∧
        s₁.errors = found.errors ∧ P s₁ := by
  have hout := inv.simulation.resolve ⟨rfl, h⟩ n goals
  -- both sides are the same resolution, so only the first one is looked at
  suffices hone : ∀ o o', Outcome.Related (fun s s' => s' = s ∧ P s) o o' →
      (∃ s₁, o = .finished s₁ ∧ P s₁) ∨
        ∃ reason found s₁, o = .aborted reason found.line s₁ ∧ P found ∧
          s₁.errors = found.errors ∧ P s₁ from hone _ _ hout
  intro o o' hout
  cases hout with
  | finished h₁ => exact Or.inl ⟨_, rfl, h₁.2⟩
  | aborted reason hf he _ h₁ => exact Or.inr ⟨reason, _, _, rfl, hf.2, he, h₁.2⟩

/-- A parse ends in a state with the invariant, or is given up in one. -/
theorem parse (inv : Invariant P) (h : P s.skipLineEnds) (n : Nesting) :
    P (s.parse n) ∨
      ∃ reason found s₁, s.parse n = s₁.giveUp reason found.line ∧ P found ∧
        s₁.errors = found.errors ∧ P s₁ := by
  rcases inv.simulation.parse ⟨rfl, h⟩ n with h₁ | ⟨reason, found, _, s₁, _, hs, -, hf, he, -, h₁⟩
  · exact Or.inl h₁.2
  · exact Or.inr ⟨reason, found, s₁, hs, hf.2, he, h₁.2⟩

end Invariant

/-- Events that neither cut a line off nor say anything about it. -/
def Event.silent : Event → Bool
  | .entered .. | .left .. => true
  | _ => false

/-- Two states that have read and reported the same, whatever is open and declared in them. -/
structure State.ReadsAs (s s' : State) : Prop where
  cursor : s'.cursor = s.cursor
  line : s'.line = s.line
  armed : s'.armed = s.armed
  errors : s'.errors = s.errors
  history : ∃ es, s'.history = es ++ s.history ∧ ∀ e ∈ es, e.silent = true

namespace State.ReadsAs

theorem of_eq {s s' : State} (cursor : s'.cursor = s.cursor) (line : s'.line = s.line)
    (armed : s'.armed = s.armed) (errors : s'.errors = s.errors)
    (history : s'.history = s.history) : s.ReadsAs s' :=
  ⟨cursor, line, armed, errors, [], history, by simp⟩

theorem declare (s : State) (symbols : SymbolTable) : s.ReadsAs { s with symbols } :=
  .of_eq rfl rfl rfl rfl rfl

theorem claim (s : State) (v : Variable) : s.ReadsAs (s.claim v) := by
  unfold State.claim
  split <;> exact .of_eq rfl rfl rfl rfl rfl

theorem openScope (s : State) (owner : String) (record : Option Nat) :
    s.ReadsAs (s.openScope owner record) :=
  .of_eq rfl rfl rfl rfl rfl

theorem closeScope (s : State) : s.ReadsAs s.closeScope := by
  unfold State.closeScope
  split <;> exact .of_eq rfl rfl rfl rfl rfl

theorem enterBody (s : State) : s.ReadsAs s.enterBody :=
  ⟨rfl, rfl, rfl, rfl, [_], rfl, by simp [Event.silent]⟩

theorem leaveBody (s : State) : s.ReadsAs s.leaveBody :=
  ⟨rfl, rfl, rfl, rfl, [_], rfl, by simp [Event.silent]⟩

theorem atDepth (s : State) (d : Nat) : s.ReadsAs (s.atDepth d) :=
  .of_eq rfl rfl rfl rfl rfl

end State.ReadsAs

/-- A property of what has been read and reported is an invariant as soon as taking a token and
reporting a problem keep it. -/
theorem Invariant.of_readsAs {P : State → Prop}
    (alike : ∀ {s s' : State}, s.ReadsAs s' → P s → P s')
    (consume : ∀ {s : State}, P s → P s.consume.2)
    (report : ∀ {s : State}, P s → ∀ c m, P (s.report c m)) : Invariant P where
  consume := consume
  report := report
  registerVariable := by
    intro s h name
    unfold State.registerVariable
    split
    · exact alike (.claim _ _) (alike (.declare s _) h)
    · exact report h _ _
  registerParameter := by
    intro s h name
    unfold State.registerParameter
    exact alike (.claim _ _) (alike (.declare s _) h)
  nameProcedure := by
    intro s h
    have hexpect : ∀ {x : State}, P x → P (x.expect .identifier).2 := fun hx =>
      State.expect_related (R := fun x _ => P x) consume report rfl hx .identifier
    have hregister : P (s.registerProcedure s.lookahead.text).2 := by
      unfold State.registerProcedure
      split
      · exact alike (.declare s _) h
      · exact report h _ _
    rw [Parser.nameProcedure]
    split
    · exact alike (.openScope _ _ _) (hexpect hregister)
    · exact alike (.openScope _ _ _) (hexpect h)
  closeScope h := alike (.closeScope _) h
  enterBody h := alike (.enterBody _) h
  leaveBody h := alike (.leaveBody _) h
  atDepth h d := alike (.atDepth _ d) h

/-- Taking a token is crossing the ends of lines and moving past the tokens between them. -/
theorem Invariant.of_crossings {P : State → Prop}
    (alike : ∀ {s s' : State}, s.ReadsAs s' → P s → P s')
    (cross : ∀ {s : State}, s.sees .endOfLine → P s → P s.crossLine)
    (advance : ∀ {s : State}, s.Settled → P s → P { s with cursor := s.cursor.advance })
    (report : ∀ {s : State}, P s → ∀ c m, P (s.report c m)) : Invariant P := by
  refine .of_readsAs alike ?_ report
  intro s h
  exact State.consume_keeps (fun _ => cross) (fun _ => advance) h

/-- No token is lost or made up: what was passed and what is ahead are what there was. -/
theorem State.toList_parse (s : State) (n : Nesting) :
    (s.parse n).cursor.toList = s.cursor.toList := by
  have inv : Invariant fun x => x.cursor.toList = s.cursor.toList := by
    refine .of_readsAs ?_ ?_ ?_
    · intro x x' hr h
      rw [hr.cursor, h]
    · intro x h
      rw [toList_consume, h]
    · intro x h c m
      rw [← h]
      unfold report
      split <;> rfl
  rcases inv.parse (toList_skipLineEnds s) n with h | ⟨reason, found, s₁, hs, -, -, h⟩
  · exact h
  · rw [hs]
    exact h

/-- What has been passed is what is no longer ahead. -/
theorem lexemes_parse (n : Nesting) (tokens : List Token) :
    lexemes ((State.ofTokens tokens).parse n).consumed ++ ((State.ofTokens tokens).parse n).unread =
      lexemes tokens := by
  rw [State.unread, ← lexemes_append]
  exact congrArg lexemes (State.toList_parse (State.ofTokens tokens) n)

/-! ## Relations that the grammar cannot see -/

/-- A relation between states that the grammar cannot tell apart. It depends only on what the
grammar knows of them and on what they have read and reported. -/
structure Unseen (R : State → State → Prop) : Prop where
  view : ∀ {s s'}, R s s' → s'.view = s.view
  lookahead : ∀ {s s'}, R s s' → s'.lookahead.toLexeme = s.lookahead.toLexeme
  taken : ∀ {s s'}, R s s' → s'.consume.1.text = s.consume.1.text
  readsAs : ∀ {s s' t t'}, R s s' → s.ReadsAs t → s'.ReadsAs t' → t'.view = t.view → R t t'
  consume : ∀ {s s'}, R s s' → R s.consume.2 s'.consume.2
  report : ∀ {s s'}, R s s' → ∀ c m, R (s.report c m) (s'.report c m)

namespace Unseen

variable {R : State → State → Prop} {s s' : State}

theorem symbols (un : Unseen R) (h : R s s') : s'.symbols = s.symbols :=
  congrArg View.symbols (un.view h)

theorem scope (un : Unseen R) (h : R s s') : s'.scope = s.scope :=
  congrArg View.scope (un.view h)

theorem level (un : Unseen R) (h : R s s') : s'.level = s.level :=
  congrArg View.level (un.view h)

theorem declare (un : Unseen R) (h : R s s') (symbols : SymbolTable) :
    R { s with symbols } { s' with symbols } :=
  un.readsAs h (.declare s _) (.declare s' _) (congrArg (fun v => { v with symbols }) (un.view h))

theorem claim (un : Unseen R) (h : R s s') (v : Variable) : R (s.claim v) (s'.claim v) := by
  have hs : ∀ i, s'.symbols.claim i v.address = s.symbols.claim i v.address := by
    intro i
    rw [un.symbols h]
  rw [State.claim, State.claim, show s'.scope.record = s.scope.record by rw [un.scope h]]
  split
  · rw [hs]
    exact un.declare h _
  · exact h

theorem registerVariable (un : Unseen R) (h : R s s') (name : String) :
    R (s.registerVariable name) (s'.registerVariable name) := by
  have hd : s'.symbols.declareVariable name s'.scope.owner .localVariable s'.level s'.scope.start =
      s.symbols.declareVariable name s.scope.owner .localVariable s.level s.scope.start := by
    rw [un.symbols h, un.scope h, un.level h]
  rw [State.registerVariable, State.registerVariable, hd]
  split
  · exact un.claim (un.declare h _) _
  · exact un.report h _ _

theorem registerParameter (un : Unseen R) (h : R s s') (name : String) :
    R (s.registerParameter name) (s'.registerParameter name) := by
  have ha : s'.symbols.addVariable name s'.scope.owner .parameter (s'.level + 1) =
      s.symbols.addVariable name s.scope.owner .parameter (s.level + 1) := by
    rw [un.symbols h, un.scope h, un.level h]
  rw [State.registerParameter, State.registerParameter, ha]
  exact un.claim (un.declare h _) _

theorem registerProcedure (un : Unseen R) (h : R s s') (name : String) :
    (s'.registerProcedure name).1 = (s.registerProcedure name).1 ∧
      R (s.registerProcedure name).2 (s'.registerProcedure name).2 := by
  have hd : s'.symbols.declareProcedure name (s'.level + 1) =
      s.symbols.declareProcedure name (s.level + 1) := by
    rw [un.symbols h, un.level h]
  rw [State.registerProcedure, State.registerProcedure, hd]
  split
  · exact ⟨by rw [un.symbols h], un.declare h _⟩
  · exact ⟨rfl, un.report h _ _⟩

theorem expect (un : Unseen R) (h : R s s') (k : Kind) : R (s.expect k).2 (s'.expect k).2 :=
  State.expect_related un.consume un.report (un.lookahead h) h k

theorem openScope (un : Unseen R) (h : R s s') (owner : String) (record : Option Nat) :
    R (s.openScope owner record) (s'.openScope owner record) := by
  refine un.readsAs h (.openScope s _ _) (.openScope s' _ _) ?_
  rw [State.view_openScope, State.view_openScope, un.view h]

theorem nameProcedure (un : Unseen R) (h : R s s') : R (nameProcedure s) (nameProcedure s') := by
  have hk : s'.sees .identifier = s.sees .identifier := by
    rw [State.sees, State.sees, show s'.lookahead.kind = s.lookahead.kind from
      congrArg Lexeme.kind (un.lookahead h)]
  have ht : s'.lookahead.text = s.lookahead.text := congrArg Lexeme.text (un.lookahead h)
  obtain ⟨hi, hr⟩ := un.registerProcedure h s.lookahead.text
  simp only [Parser.nameProcedure, hk, ht]
  split
  · rw [hi]
    exact un.openScope (un.expect hr _) _ _
  · exact un.openScope (un.expect h _) _ _

theorem closeScope (un : Unseen R) (h : R s s') : R s.closeScope s'.closeScope := by
  refine un.readsAs h (.closeScope s) (.closeScope s') ?_
  rw [State.view_closeScope, State.view_closeScope, un.view h]

/-- Whatever the grammar cannot see stays as it is. -/
theorem simulation (un : Unseen R) : Simulation R where
  lookahead := un.lookahead
  taken := un.taken
  depth h := congrArg View.depth (un.view h)
  knowsVariable h name := by
    rw [State.knowsVariable, State.knowsVariable, un.symbols h, un.level h]
  knowsProcedure h name := by
    rw [State.knowsProcedure, State.knowsProcedure, un.symbols h, un.level h]
  consume := un.consume
  report := un.report
  registerVariable := un.registerVariable
  registerParameter := un.registerParameter
  nameProcedure := un.nameProcedure
  closeScope := un.closeScope
  enterBody {s s'} h := by
    refine un.readsAs h (.enterBody s) (.enterBody s') ?_
    exact congrArg (fun v : View => { v with level := v.level + 1 }) (un.view h)
  leaveBody {s s'} h := by
    refine un.readsAs h (.leaveBody s) (.leaveBody s') ?_
    exact congrArg (fun v : View => { v with level := v.level - 1, depth := v.depth - 1 })
      (un.view h)
  atDepth {s s'} h d := by
    refine un.readsAs h (.atDepth s d) (.atDepth s' d) ?_
    exact congrArg (fun v : View => { v with depth := d }) (un.view h)

end Unseen

end PocketPascal.Parser
