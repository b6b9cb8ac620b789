import PocketPascal.Proofs.Recognition

/-! # Stages of a parse

What is open and declared changes at few goals only, and these come in a fixed order: a function is
named, its parameter is declared, its body is entered and left, and its scope is closed. So the
goals that are left tell at which stage a parse is, and a property of what is open and declared,
stated stage by stage, is kept by a parse as soon as the declarations keep it.
-/

namespace PocketPascal.Parser

/-! ## Stages -/

/-- Where a parse is: in a body around which `depth` functions are open, or between two bodies on
the way into a function that such a body declares, or out of it. -/
inductive Stage where
  | body (depth : Nat)
  /-- A function has been named, and its parameter comes next. -/
  | named (depth : Nat)
  /-- Its parameter has been passed, and its body comes next. -/
  | headed (depth : Nat)
  /-- Its body has been left, and its scope is closed next. -/
  | left (depth : Nat)

/-- Goals that are resolved within one body. -/
def Goal.isLocal : Goal → Bool
  | .construct .parameterDeclaration | .construct .procedureBody => false
  | .token _ | .closeParen | .procedureHead | .endScope | .endBody => false
  | _ => true

/-- Goals that are single tokens. They may come at any stage. -/
def Goal.isToken : Goal → Bool
  | .token _ | .closeParen => true
  | _ => false

/-- The stages before and after a goal is resolved. -/
inductive Goal.Leads : Goal → Stage → Stage → Prop where
  | inBody {g : Goal} (hg : g.isLocal = true) (d : Nat) : Leads g (.body d) (.body d)
  | token {g : Goal} (hg : g.isToken = true) (a : Stage) : Leads g a a
  | name (d : Nat) : Leads .procedureHead (.body d) (.named d)
  | parameter (d : Nat) : Leads (.construct .parameterDeclaration) (.named d) (.headed d)
  | procedureBody (d : Nat) : Leads (.construct .procedureBody) (.headed d) (.left d)
  | endBody (d : Nat) : Leads .endBody (.body (d + 1)) (.left d)
  | endScope (d : Nat) : Leads .endScope (.left d) (.body d)

/-- The stages before and after goals are resolved. -/
inductive Leads : List Goal → Stage → Stage → Prop where
  | done (a : Stage) : Leads [] a a
  | next {g : Goal} {rest : List Goal} {a b c : Stage} (h : g.Leads a b) (hrest : Leads rest b c) :
      Leads (g :: rest) a c

theorem Leads.append {gs hs : List Goal} {a b c : Stage} (hg : Leads gs a b) (hh : Leads hs b c) :
    Leads (gs ++ hs) a c := by
  induction hg with
  | done => exact hh
  | next h _ ih => exact .next h (ih hh)

theorem leads_in_body {gs : List Goal} (h : gs.all (fun g => g.isLocal || g.isToken) = true)
    (d : Nat) : Leads gs (.body d) (.body d) := by
  induction gs with
  | nil => exact .done _
  | cons g gs ih =>
    rw [List.all_cons, Bool.and_eq_true, Bool.or_eq_true] at h
    exact .next (h.1.elim (.inBody · d) (.token · _)) (ih h.2)

theorem Goal.Leads.body_of_isLocal {g : Goal} {a b : Stage} (h : g.Leads a b)
    (hg : g.isLocal = true) : ∃ d, a = .body d ∧ b = .body d := by
  cases h with
  | inBody _ d => exact ⟨d, rfl, rfl⟩
  | token ht => cases g <;> simp_all [isLocal, isToken]
  | _ => cases hg

theorem Goal.Leads.eq_of_isToken {g : Goal} {a b : Stage} (h : g.Leads a b)
    (hg : g.isToken = true) : a = b := by
  cases h with
  | inBody => rfl
  | token => rfl
  | _ => cases hg

/-- The goals on the way into a function and out of it lead from one stage to the next. -/
theorem Goal.Leads.passage {g : Goal} {a b : Stage} (h : g.Leads a b) :
    match g with
    | .procedureHead => ∃ d, a = .body d ∧ b = .named d
    | .construct .parameterDeclaration => ∃ d, a = .named d ∧ b = .headed d
    | .construct .procedureBody => ∃ d, a = .headed d ∧ b = .left d
    | .endBody => ∃ d, a = .body (d + 1) ∧ b = .left d
    | .endScope => ∃ d, a = .left d ∧ b = .body d
    | _ => True := by
  cases h with
  | inBody hg d => split <;> simp_all [isLocal]
  | token hg => split <;> simp_all [isToken]
  | name d | parameter d | procedureBody d | endBody d | endScope d => exact ⟨d, rfl, rfl⟩

/-- A declaration of a function starts and ends in the body that it stands in. -/
theorem leads_procedureDeclaration (d : Nat) :
    Leads [.token .functionKey, .procedureHead, .token .leftParen,
      .construct .parameterDeclaration, .closeParen, .token .semicolon, .construct .procedureBody,
      .endScope] (.body d) (.body d) :=
  .next (.token rfl _) <| .next (.name d) <| .next (.token rfl _) <| .next (.parameter d) <|
    .next (.token rfl _) <| .next (.token rfl _) <| .next (.procedureBody d) <|
    .next (.endScope d) <| .done _

/-- The parse of some tokens comes to goals in a state. -/
def Reaches (n : Nesting) (tokens : List Token) (goals : List Goal) (s : State) : Prop :=
  Visits n [.construct .program] (State.ofTokens tokens).skipLineEnds goals s

/-- The goals and the state that a number of steps lead to. -/
def advance (n : Nesting) : Nat → List Goal → State → Option (List Goal × State)
  | 0, goals, s => some (goals, s)
  | _ + 1, [], _ => none
  | k + 1, g :: rest, s =>
    match step n g s with
    | .go goals s' => advance n k (goals ++ rest) s'
    | .halt .. => none

theorem visits_of_advance {n : Nesting} {k : Nat} {goals goals' : List Goal} {s s' : State}
    (h : advance n k goals s = some (goals', s')) : Visits n goals s goals' s' := by
  fun_induction advance n k goals s with
  | case1 goals s =>
    cases h
    exact .here _ _
  | case2 => cases h
  | case3 k g rest s goals s₁ hstep ih => exact .next hstep (ih h)
  | case4 => cases h

/-- A goal that a parse comes to after a number of steps, and what holds of the state there. -/
theorem reaches_of_advance {n : Nesting} {tokens : List Token} {g : Goal} {P : State → Prop}
    [DecidablePred P] (k : Nat)
    (h : (advance n k [.construct .program] (State.ofTokens tokens).skipLineEnds).any
      (fun x => x.1.head? = some g ∧ P x.2) = true) :
    ∃ rest s, Reaches n tokens (g :: rest) s ∧ P s := by
  obtain ⟨⟨goals, s⟩, hadvance, hx⟩ := (Option.any_eq_true _ _).1 h
  obtain ⟨hhead, hs⟩ := of_decide_eq_true hx
  obtain ⟨rest, rfl⟩ := List.head?_eq_some_iff.1 hhead
  exact ⟨rest, s, visits_of_advance hadvance, hs⟩

/-- What has been complained about on the way is still there when the parse ends. -/
theorem Reaches.errors_eq_nil {n : Nesting} {tokens : List Token} {goals : List Goal} {s : State}
    (hr : Reaches n tokens goals s) (h : ((State.ofTokens tokens).parse n).errors = []) :
    s.errors = [] := by
  by_contra hne
  rw [State.parse, find, resolve_of_visits hr] at h
  rcases complained_invariant.resolve hne n goals with ⟨s₁, hs, h₁⟩ | ⟨reason, found, s₁, hs, -⟩
  · rw [hs] at h
    exact h₁ h
  · rw [hs] at h
    exact List.append_ne_nil_of_right_ne_nil _ (List.cons_ne_nil _ _) h

/-! ## What a step does -/

/-- A state is reached by taking tokens, by reports, and at another depth. Nothing is opened, closed
or declared. -/
inductive State.Quiet (s : State) : State → Prop where
  | refl : s.Quiet s
  | consume {t : State} (h : s.Quiet t) : s.Quiet t.consume.2
  | report {t : State} (h : s.Quiet t) (c : Category) (m : String) : s.Quiet (t.report c m)
  | atDepth {t : State} (h : s.Quiet t) (d : Nat) : s.Quiet (t.atDepth d)

theorem State.Quiet.complain {s t : State} (h : s.Quiet t) (p : Problem) : s.Quiet (t.complain p) :=
  h.report _ _

theorem State.Quiet.expectOr {s t : State} (h : s.Quiet t) (k : Kind) (m : String) :
    s.Quiet (t.expectOr k m).2 := by
  unfold State.expectOr
  split
  · exact h.consume
  · exact (h.report _ _).consume

theorem State.Quiet.expect {s t : State} (h : s.Quiet t) (k : Kind) : s.Quiet (t.expect k).2 :=
  h.expectOr k _

/-- What the resolution of a goal comes to: the goals that replace it, and what is declared, opened
and closed. -/
inductive Acts : Goal → State → List Goal → State → Prop where
  | quiet {g : Goal} {goals : List Goal} {s s₁ : State}
      (hgoals : ∀ {a b}, g.Leads a b → Leads goals a b) (h : s.Quiet s₁) : Acts g s goals s₁
  | declareVariable {s : State} (hs : s.sees .identifier = true)
      (hnew : ¬ s.symbols.HasLocal s.scope s.lookahead.text s.level) :
      Acts (.construct .variableDeclaration) s []
        (State.consume { s with
          symbols := s.symbols.withVariable s.scope s.lookahead.text .localVariable s.level }).2
  | declareParameter {s : State} (hs : s.sees .identifier = true) :
      Acts (.construct .parameterDeclaration) s []
        (State.consume { s with
          symbols := s.symbols.withVariable s.scope s.lookahead.text .parameter (s.level + 1) }).2
  | noParameter {s : State} (c : Category) (m : String) :
      Acts (.construct .parameterDeclaration) s [] (s.report c m).consume.2
  | declareFunction {s : State} (hs : s.sees .identifier = true)
      (hnew : ¬ s.symbols.HasBody s.lookahead.text (s.level + 1)) :
      Acts .procedureHead s []
        ((State.consume { s with
          symbols := s.symbols.withProcedure s.lookahead.text (s.level + 1) }).2.openScope
            s.lookahead.text (some s.symbols.procs.length))
  | noFunction {s : State} (c : Category) (m : String)
      (hold : s.sees .identifier = true → s.symbols.HasBody s.lookahead.text (s.level + 1)) :
      Acts .procedureHead s [] ((s.report c m).consume.2.openScope s.lookahead.text none)
  | enter {s : State} (d : Nat) :
      Acts (.construct .procedureBody) s [.construct .body, .endBody] (s.atDepth d).enterBody
  | leave (s : State) : Acts .endBody s [] s.leaveBody
  | close (s : State) : Acts .endScope s [] s.closeScope

section Acts

variable {n : Nesting} {s s₁ : State} {goals : List Goal}

theorem Acts.go {g : Goal} (hg : g.isLocal = true)
    (hgoals : goals.all (fun g => g.isLocal || g.isToken) = true) (h : s.Quiet s₁) :
    Acts g s goals s₁ := by
  refine .quiet (fun hlead => ?_) h
  obtain ⟨d, rfl, rfl⟩ := hlead.body_of_isLocal hg
  exact leads_in_body hgoals d

theorem Acts.take {g : Goal} (hg : g.isToken = true) (h : s.Quiet s₁) : Acts g s [] s₁ :=
  .quiet (fun hlead => hlead.eq_of_isToken hg ▸ .done _) h

theorem acts_variableDeclaration
    (h : constructMove n .variableDeclaration s = .go goals s₁) :
    Acts (.construct .variableDeclaration) s goals s₁ := by
  simp only [constructMove] at h
  split at h
  · next hs =>
    by_cases hold : s.symbols.HasLocal s.scope s.lookahead.text s.level
    · rw [State.registerVariable_of_old hold] at h
      cases h
      exact .go rfl rfl ((State.Quiet.refl.complain _).expect _)
    · rw [State.registerVariable_of_new hold, State.expect_of_sees (by exact hs)] at h
      cases h
      exact .declareVariable hs hold
  · cases h
    exact .go rfl rfl (State.Quiet.refl.expect _)

theorem acts_parameterDeclaration
    (h : constructMove n .parameterDeclaration s = .go goals s₁) :
    Acts (.construct .parameterDeclaration) s goals s₁ := by
  simp only [constructMove] at h
  split at h
  · next hs =>
    rw [State.registerParameter_eq, State.expect_of_sees (by exact hs)] at h
    cases h
    exact .declareParameter hs
  · next hs =>
    rw [State.expect, State.expectOr, if_neg hs] at h
    cases h
    exact .noParameter _ _

theorem acts_procedureHead (h : step n .procedureHead s = .go goals s₁) :
    Acts .procedureHead s goals s₁ := by
  cases h
  rw [nameProcedure]
  by_cases hs : s.sees .identifier = true
  · rw [if_pos hs]
    by_cases hold : s.symbols.HasBody s.lookahead.text (s.level + 1)
    · have hsees : ∀ c m, (s.report c m).sees .identifier = true := by
        intro c m
        rw [State.sees, State.lookahead_report]
        exact hs
      rw [State.registerProcedure_of_old hold, State.complain, State.expect_of_sees (hsees _ _)]
      exact .noFunction _ _ fun _ => hold
    · rw [State.registerProcedure_of_new hold, State.expect_of_sees (by exact hs)]
      exact .declareFunction hs hold
  · rw [if_neg hs, State.expect, State.expectOr, if_neg hs]
    exact .noFunction _ _ fun h => absurd h hs

theorem acts_nested {g : Goal} {enter : State → Move} (h : nested n s enter = .go goals s₁)
    (henter : enter (s.atDepth (s.depth + 1)) = .go goals s₁ → Acts g s goals s₁) :
    Acts g s goals s₁ := by
  unfold nested at h
  split at h
  · cases h
  · exact henter h

theorem acts_construct {c : Construct} (h : constructMove n c s = .go goals s₁) :
    Acts (.construct c) s goals s₁ := by
  cases c with
  | procedureDeclaration =>
    cases h
    refine .quiet (fun hlead => ?_) .refl
    obtain ⟨d, rfl, rfl⟩ := hlead.body_of_isLocal rfl
    exact leads_procedureDeclaration d
  | variableDeclaration => exact acts_variableDeclaration h
  | parameterDeclaration => exact acts_parameterDeclaration h
  | procedureBody =>
    rw [constructMove] at h
    refine acts_nested h fun h => ?_
    cases h
    exact .enter _
  | declarations =>
    simp only [constructMove] at h
    split at h <;> cases h
    · exact .go rfl rfl State.Quiet.refl.consume
    · exact .go rfl rfl .refl
  | statements =>
    simp only [constructMove] at h
    cases h
    refine .go rfl ?_ .refl
    split <;> rfl
  | statement =>
    rw [constructMove, statementMove] at h
    refine acts_nested h fun h => ?_
    split at h <;> cases h
    · exact .go rfl rfl (State.Quiet.refl.atDepth _)
    · exact .go rfl rfl (State.Quiet.refl.atDepth _)
    · exact .go rfl rfl (State.Quiet.refl.atDepth _)
    · exact .go rfl rfl (State.Quiet.refl.atDepth _).consume
  | assignment =>
    simp only [constructMove, assignmentMove] at h
    split at h
    · cases h
      exact .go rfl rfl .refl
    · split at h <;> cases h
      · exact .go rfl rfl .refl
      · exact .go rfl rfl (State.Quiet.refl.complain _).consume
  | relation =>
    simp only [constructMove] at h
    cases h
    refine .go rfl rfl (State.Quiet.consume ?_)
    split
    · exact .refl
    · exact State.Quiet.refl.complain _
  | expression =>
    rw [constructMove] at h
    refine acts_nested h fun h => ?_
    cases h
    exact .go rfl rfl (State.Quiet.refl.atDepth _)
  | factor =>
    simp only [constructMove, factorMove] at h
    split at h
    · cases h
      exact .go rfl rfl State.Quiet.refl.consume
    split at h
    · cases h
      exact .go rfl rfl (State.Quiet.refl.complain _)
    split at h
    · cases h
      exact .go rfl rfl .refl
    split at h
    · cases h
      exact .go rfl rfl State.Quiet.refl.consume
    · cases h
      refine .go rfl ?_ (State.Quiet.refl.complain _).consume
      split <;> rfl
  | reference =>
    simp only [constructMove] at h
    cases h
    refine .go rfl rfl (State.Quiet.expect ?_ _)
    split
    · exact State.Quiet.refl.complain _
    · exact .refl
  | procedureName =>
    cases h
    exact .go rfl rfl (State.Quiet.refl.expect _)
  | _ =>
    cases h
    exact .go rfl rfl .refl

/-- Everything that a step can do. -/
theorem acts_of_step {g : Goal} (h : step n g s = .go goals s₁) : Acts g s goals s₁ := by
  cases g with
  | construct c => exact acts_construct h
  | token kind =>
    cases h
    exact .take rfl (State.Quiet.refl.expect _)
  | closeParen =>
    cases h
    exact .take rfl (State.Quiet.refl.expectOr _ _)
  | declared =>
    simp only [step] at h
    split at h
    · cases h
      exact .go rfl rfl .refl
    split at h
    · cases h
      exact .go rfl rfl .refl
    · cases h
      refine .go rfl rfl ?_
      split
      · exact State.Quiet.refl.complain _
      · exact (State.Quiet.refl.complain _).consume
  | procedureHead => exact acts_procedureHead h
  | endScope =>
    cases h
    exact .close s
  | endBody =>
    cases h
    exact .leave s
  | endNesting =>
    cases h
    exact .go rfl rfl (State.Quiet.refl.atDepth _)
  | moreStatements =>
    simp only [step] at h
    split at h
    · cases h
      refine .go rfl ?_ State.Quiet.refl.consume
      split <;> rfl
    · cases h
      exact .go rfl rfl .refl
  | moreTerms | moreFactors =>
    simp only [step] at h
    split at h <;> cases h
    · exact .go rfl rfl State.Quiet.refl.consume
    · exact .go rfl rfl .refl

end Acts

/-! ## Properties kept stage by stage -/

/-- The scope of a body that comes after what is declared so far. -/
def Scope.after (t : SymbolTable) (owner : String) (record : Option Nat) : Scope :=
  { owner, record, start := t.vars.length }

/-- A scope is opened for the declarations of a function. -/
def View.openScope (v : View) (owner : String) (record : Option Nat) : View :=
  { v with
    scope := .after v.symbols owner record
    enclosing := v.scope :: v.enclosing }

/-- The innermost scope is closed. -/
def View.closeScope (v : View) : View :=
  match v.enclosing with
  | [] => v
  | outer :: rest => { v with scope := outer, enclosing := rest }

theorem State.openScope_view (s : State) (owner : String) (record : Option Nat) :
    (s.openScope owner record).view = s.view.openScope owner record := rfl

/-- A property of what the grammar knows at a stage that every declaration keeps, and every opening
and closing of a body. A strict one need not outlive a complaint. -/
structure Kept (strict : Prop) (Q : Stage → View → Prop) : Prop where
  pass : ∀ {a v}, Q a v → Q a v.pass
  atDepth : ∀ {a v}, Q a v → ∀ depth, Q a { v with depth }
  newVariable : ∀ {d} {v : View}, Q (.body d) v → v.sees .identifier = true →
    ¬ v.symbols.HasLocal v.scope v.head.text v.level →
    Q (.body d)
      { v with symbols := v.symbols.withVariable v.scope v.head.text .localVariable v.level }
  newParameter : ∀ {d} {v : View}, Q (.named d) v → v.sees .identifier = true →
    Q (.headed d)
      { v with symbols := v.symbols.withVariable v.scope v.head.text .parameter (v.level + 1) }
  noParameter : ∀ {d v}, ¬ strict → Q (.named d) v → Q (.headed d) v
  newFunction : ∀ {d} {v : View}, Q (.body d) v → v.sees .identifier = true →
    ¬ v.symbols.HasBody v.head.text (v.level + 1) →
    Q (.named d) (View.openScope
      { v.pass with symbols := v.symbols.withProcedure v.head.text (v.level + 1) } v.head.text
      (some v.symbols.procs.length))
  noFunction : ∀ {d v}, ¬ strict → Q (.body d) v →
    (v.sees .identifier = true → v.symbols.HasBody v.head.text (v.level + 1)) →
    Q (.named d) (v.pass.openScope v.head.text none)
  enter : ∀ {d v}, Q (.headed d) v → Q (.body (d + 1)) { v with level := v.level + 1 }
  leave : ∀ {d v}, Q (.body (d + 1)) v → Q (.left d) { v with level := v.level - 1 }
  close : ∀ {d v}, Q (.left d) v → Q (.body d) v.closeScope

/-- A state has a property at a stage, or has given up a strict one. -/
structure State.Has (strict : Prop) (Q : Stage → View → Prop) (a : Stage) (s : State) : Prop where
  proper : s.Proper
  view : (strict → s.errors = []) → Q a s.view

namespace Kept

variable {strict : Prop} {Q : Stage → View → Prop} {n : Nesting} {a b : Stage} {s s₁ : State}
  {g : Goal} {goals : List Goal}

theorem consume (kept : Kept strict Q) (h : s.Has strict Q a) : s.consume.2.Has strict Q a where
  proper := h.proper.consume
  view := by
    rw [State.errors_consume, State.view_consume_eq_pass]
    exact fun hs => kept.pass (h.view hs)

theorem of_quiet (kept : Kept strict Q) (h : s.Has strict Q a) (hq : s.Quiet s₁) :
    s₁.Has strict Q a := by
  induction hq with
  | refl => exact h
  | consume _ ih => exact kept.consume ih
  | report _ c m ih =>
    refine ⟨ih.proper.report c m, fun hs => ?_⟩
    rw [State.view_report]
    exact ih.view fun hstrict =>
      by_contra fun hne => complained_invariant.report hne c m (hs hstrict)
  | atDepth _ d ih =>
    exact ⟨proper_invariant.atDepth ih.proper d, fun hs => kept.atDepth (ih.view hs) d⟩

/-- After a complaint a strict property is no longer asked for. -/
theorem of_complaint (h : s.Proper) {c : Category} {m : String} {v : View}
    (hv : ¬ strict → Q b v) (hs : strict → (s.report c m).errors = []) : Q b v :=
  hv fun hstrict => h.errors_report_ne_nil c m (hs hstrict)

/-- A step keeps the property, at a stage from which the goals that replace the one resolved lead on
to where that one led. -/
theorem of_acts (kept : Kept strict Q) (hacts : Acts g s goals s₁) (hproper : s₁.Proper)
    (hg : g.Leads a b) (h : s.Has strict Q a) :
    ∃ a₁, Leads goals a₁ b ∧ s₁.Has strict Q a₁ := by
  have hsettled := h.proper.settled
  cases hacts with
  | quiet hgoals hq => exact ⟨a, hgoals hg, kept.of_quiet h hq⟩
  | declareVariable hs hnew =>
    obtain ⟨d, rfl, rfl⟩ := hg.body_of_isLocal rfl
    rw [State.text_eq_view hsettled] at hnew ⊢
    rw [State.sees_eq_view hsettled] at hs
    refine ⟨.body d, .done _, kept.consume ⟨h.proper.of_readsAs (.declare s _), fun hstrict => ?_⟩⟩
    exact kept.newVariable (h.view hstrict) hs hnew
  | declareParameter hs =>
    obtain ⟨d, rfl, rfl⟩ := hg.passage
    rw [State.text_eq_view hsettled]
    rw [State.sees_eq_view hsettled] at hs
    refine ⟨.headed d, .done _, kept.consume ⟨h.proper.of_readsAs (.declare s _), ?_⟩⟩
    exact fun hstrict => kept.newParameter (h.view hstrict) hs
  | noParameter c m =>
    obtain ⟨d, rfl, rfl⟩ := hg.passage
    refine ⟨.headed d, .done _, kept.consume ⟨h.proper.report c m, of_complaint h.proper ?_⟩⟩
    intro hstrict
    rw [State.view_report]
    exact kept.noParameter hstrict (h.view fun h => absurd h hstrict)
  | declareFunction hs hnew =>
    obtain ⟨d, rfl, rfl⟩ := hg.passage
    rw [State.text_eq_view hsettled] at hnew hproper ⊢
    rw [State.sees_eq_view hsettled] at hs
    refine ⟨.named d, .done _, hproper, fun hstrict => ?_⟩
    rw [State.openScope_view, State.view_consume_eq_pass]
    have herrors := State.errors_consume
      { s with symbols := s.symbols.withProcedure s.view.head.text (s.level + 1) }
    exact kept.newFunction (h.view fun h => herrors.symm.trans (hstrict h)) hs hnew
  | noFunction c m hold =>
    obtain ⟨d, rfl, rfl⟩ := hg.passage
    rw [State.text_eq_view hsettled] at hold hproper ⊢
    rw [State.sees_eq_view hsettled] at hold
    refine ⟨.named d, .done _, hproper, fun hs => ?_⟩
    refine of_complaint h.proper ?_ fun hstrict => (State.errors_consume _).symm.trans (hs hstrict)
    intro hstrict
    rw [State.openScope_view, State.view_consume_eq_pass, State.view_report]
    exact kept.noFunction hstrict (h.view fun h => absurd h hstrict) hold
  | enter depth =>
    obtain ⟨d, rfl, rfl⟩ := hg.passage
    have hbody : Leads [.construct .body, .endBody] (.body (d + 1)) (.left d) :=
      .next (.inBody rfl _) (.next (.endBody d) (.done _))
    exact ⟨.body (d + 1), hbody, hproper, fun hs => kept.enter (kept.atDepth (h.view hs) depth)⟩
  | leave =>
    obtain ⟨d, rfl, rfl⟩ := hg.passage
    exact ⟨.left d, .done _, hproper, fun hs => kept.atDepth (kept.leave (h.view hs)) _⟩
  | close =>
    obtain ⟨d, rfl, rfl⟩ := hg.passage
    refine ⟨.body d, .done _, hproper, fun hs => ?_⟩
    rw [State.view_closeScope]
    refine kept.close (h.view fun hstrict => ?_)
    have herrors := (State.ReadsAs.closeScope s).errors
    exact herrors ▸ hs hstrict

/-- The property holds wherever a resolution of goals comes by, at a stage from which the goals that
are left lead on. -/
theorem of_visits (kept : Kept strict Q) {goals' : List Goal} {s' : State}
    (hv : Visits n goals s goals' s') (hlead : Leads goals a b) (h : s.Has strict Q a) :
    ∃ a', Leads goals' a' b ∧ s'.Has strict Q a' := by
  induction hv generalizing a with
  | here => exact ⟨a, hlead, h⟩
  | next hstep _ ih =>
    cases hlead with
    | next hg hrest =>
      obtain ⟨a₁, hgoals, h₁⟩ := kept.of_acts (acts_of_step hstep)
        (proper_invariant.of_step h.proper hstep) hg h
      exact ih (hgoals.append hrest) h₁

/-- The property holds where a resolution of goals ends, and if it is not given up, that is where
the goals lead. -/
theorem resolve (kept : Kept strict Q) (hlead : Leads goals a b) (h : s.Has strict Q a) :
    (∃ s₁, resolve n goals s = .finished s₁ ∧ s₁.Has strict Q b) ∨
      ∃ reason line s₁ c, resolve n goals s = .aborted reason line s₁ ∧ s₁.Has strict Q c := by
  fun_induction Parser.resolve n goals s generalizing a with
  | case1 s =>
    cases hlead
    exact Or.inl ⟨s, rfl, h⟩
  | case2 s g rest goals' s₁ hstep ih =>
    cases hlead with
    | next hg hrest =>
      obtain ⟨a₁, hgoals, h₁⟩ := kept.of_acts (acts_of_step hstep)
        (proper_invariant.of_step h.proper hstep) hg h
      exact ih (hgoals.append hrest) h₁
  | case3 s g rest reason line s₁ hstep =>
    have hquiet : s.Quiet s₁ := by
      obtain ⟨-, rfl | rfl⟩ := halt_cases hstep
      · exact State.Quiet.refl.atDepth _
      · exact State.Quiet.refl.consume
    exact Or.inr ⟨reason, line, _, a, rfl, kept.of_quiet h (hquiet.atDepth _)⟩

theorem start {tokens : List Token} (h : Q (.body 0) (State.ofTokens tokens).view) :
    (State.ofTokens tokens).skipLineEnds.Has strict Q (.body 0) where
  proper := .start tokens
  view _ := by
    rw [State.view_skipLineEnds]
    exact h

theorem of_reaches (kept : Kept strict Q) {tokens : List Token}
    (h : Q (.body 0) (State.ofTokens tokens).view) (hr : Reaches n tokens goals s) :
    ∃ a, Leads goals a (.body 0) ∧ s.Has strict Q a :=
  kept.of_visits hr (.next (.inBody rfl 0) (.done _)) (start h)

/-- The property holds where a parse ends if it holds where the parse comes by, and without errors
the parse ends in the program body. -/
theorem parse_of_reaches (kept : Kept strict Q) {tokens : List Token}
    (hr : Reaches n tokens goals s) (hlead : Leads goals a (.body 0)) (h : s.Has strict Q a) :
    (∃ c, ¬ strict → Q c ((State.ofTokens tokens).parse n).view) ∧
      (((State.ofTokens tokens).parse n).errors = [] →
        Q (.body 0) ((State.ofTokens tokens).parse n).view) := by
  rw [State.parse, find, resolve_of_visits hr]
  rcases kept.resolve (n := n) hlead h with ⟨s₁, hs, h₁⟩ | ⟨reason, line, s₁, c, hs, h₁⟩
  · rw [hs]
    exact ⟨⟨.body 0, fun hstrict => h₁.view fun h => absurd h hstrict⟩,
      fun he => h₁.view fun _ => he⟩
  · rw [hs]
    exact ⟨⟨c, fun hstrict => h₁.view fun h => absurd h hstrict⟩,
      fun he => absurd he (List.append_ne_nil_of_right_ne_nil _ (List.cons_ne_nil _ _))⟩

theorem parse (kept : Kept strict Q) {tokens : List Token}
    (h : Q (.body 0) (State.ofTokens tokens).view) (n : Nesting) :
    (∃ c, ¬ strict → Q c ((State.ofTokens tokens).parse n).view) ∧
      (((State.ofTokens tokens).parse n).errors = [] →
        Q (.body 0) ((State.ofTokens tokens).parse n).view) :=
  kept.parse_of_reaches (.here _ _) (.next (.inBody rfl 0) (.done _)) (start h)

end Kept

end PocketPascal.Parser
