import Mathlib.Logic.Equiv.Basic
import PocketPascal.Proofs.Owners

/-! # No name is special

Names are only compared with names. The owners of variables are texts of other tokens as well, and
they are compared where a local is declared; but all that was declared in a body since it was
opened, at the body's own level, has the body's owner, so that the comparison comes to nothing
there. So a parse of renamed tokens takes the same steps, and finds the same under the new names.
-/

namespace PocketPascal

/-! ## Renamed tokens -/

/-- A lexeme under another name, if it is a name. -/
def Lexeme.rename (r : String → String) (a : Lexeme) : Lexeme :=
  if a.kind = .identifier then { a with text := r a.text } else a

/-- A token under another name, if it is a name. -/
def Token.rename (r : String → String) (t : Token) : Token :=
  { t with toLexeme := t.toLexeme.rename r }

/-- A procedure under another name. -/
def Procedure.rename (r : String → String) (p : Procedure) : Procedure :=
  { p with name := r p.name }

/-- Two variables that differ in their owners, and in that the second one has another name. -/
def Variable.Renamed (r : String → String) (v v' : Variable) : Prop :=
  v' = { v with name := r v.name, owner := v'.owner }

/-- What a diagnostic is about, but not what it says. -/
def Diagnostic.unworded (d : Diagnostic) : Category × Int × Bool :=
  (d.category, d.line, d.fatal)

/-- The items of a cursor are replaced one by one. -/
def Cursor.map {α β : Type} (f : α → β) (c : Cursor α) : Cursor β :=
  ⟨c.passed.map f, c.ahead.map f⟩

theorem Cursor.advance_map {α β : Type} (f : α → β) (c : Cursor α) :
    (c.map f).advance = c.advance.map f := by
  rcases c with ⟨passed, _ | ⟨a, rest⟩⟩ <;> rfl

section Rename

variable {r : String → String}

@[simp] theorem Lexeme.kind_rename (a : Lexeme) : (a.rename r).kind = a.kind := by
  unfold rename
  split <;> rfl

theorem Lexeme.text_rename {a : Lexeme} (h : a.kind = .identifier) :
    (a.rename r).text = r a.text := by
  rw [rename, if_pos h]

/-- Items that are related one by one have a property together. -/
theorem exists_mem_iff_of_forall₂ {α β : Type} {R : α → β → Prop} {as : List α} {bs : List β}
    {P : α → Prop} {Q : β → Prop} (h : List.Forall₂ R as bs) (hiff : ∀ {a b}, R a b → (Q b ↔ P a)) :
    (∃ b ∈ bs, Q b) ↔ ∃ a ∈ as, P a := by
  induction h with
  | nil => simp
  | cons hab _ ih => simp only [List.exists_mem_cons_iff, hiff hab, ih]

/-! ## Renamed tables -/

namespace SymbolTable

/-- A table in which everything has another name, and variables have any owners. -/
structure Renamed (r : String → String) (t t' : SymbolTable) : Prop where
  vars : List.Forall₂ (Variable.Renamed r) t.vars t'.vars
  procs : t'.procs = t.procs.map (Procedure.rename r)

namespace Renamed

variable {t t' : SymbolTable} {name : String} {level : Int}

theorem length_vars (h : t.Renamed r t') : t'.vars.length = t.vars.length :=
  h.vars.length_eq.symm

theorem length_procs (h : t.Renamed r t') : t'.procs.length = t.procs.length := by
  rw [h.procs, List.length_map]

theorem getElem?_vars (h : t.Renamed r t') {i : Nat} {v : Variable} (hv : t.vars[i]? = some v) :
    ∃ v', t'.vars[i]? = some v' ∧ v.Renamed r v' := by
  obtain ⟨hi, rfl⟩ := List.getElem?_eq_some_iff.1 hv
  have hi' : i < t'.vars.length := h.length_vars ▸ hi
  exact ⟨t'.vars[i], List.getElem?_eq_getElem hi', h.vars.get hi hi'⟩

theorem hasVariable_iff (hr : Function.Injective r) (h : t.Renamed r t') :
    t'.HasVariable (r name) level ↔ t.HasVariable name level := by
  refine exists_mem_iff_of_forall₂ h.vars fun {v v'} hv => ?_
  rw [hv]
  exact and_congr_left' hr.eq_iff

theorem hasProcedure_iff (hr : Function.Injective r) (h : t.Renamed r t') :
    t'.HasProcedure (r name) level ↔ t.HasProcedure name level := by
  simp [HasProcedure, h.procs, Procedure.rename, hr.eq_iff]

theorem hasBody_iff (hr : Function.Injective r) (h : t.Renamed r t') :
    t'.HasBody (r name) level ↔ t.HasBody name level := by
  simp [HasBody, h.procs, Procedure.rename, hr.eq_iff]

theorem withVariable (h : t.Renamed r t') {c c' : Parser.Scope} (hc : c'.record = c.record)
    (name : String) (kind : VariableKind) (level : Int) :
    (t.withVariable c name kind level).Renamed r (t'.withVariable c' (r name) kind level) where
  vars := by
    refine List.rel_append h.vars (.cons ?_ .nil)
    rw [Variable.Renamed, h.length_vars]
  procs := by
    refine List.ext_getElem? fun i => ?_
    rw [List.getElem?_map, getElem?_procs_withVariable, getElem?_procs_withVariable, h.procs, hc,
      List.getElem?_map, Option.map_map, Option.map_map, h.length_vars]
    congr 1
    funext p
    simp only [Function.comp_apply]
    split <;> rfl

theorem withProcedure (h : t.Renamed r t') (name : String) (level : Int) :
    (t.withProcedure name level).Renamed r (t'.withProcedure (r name) level) where
  vars := h.vars
  procs := by
    simp only [SymbolTable.withProcedure, h.procs, List.map_append]
    rfl

end Renamed

end SymbolTable

/-! ## Renamed states -/

namespace Parser

/-- What a scope is but for its owner. -/
def Scope.unowned (c : Scope) : Option Nat × Nat :=
  (c.record, c.start)

/-- Two states in parses of tokens and of renamed tokens. -/
structure State.Renamed (r : String → String) (s s' : State) : Prop where
  cursor : s'.cursor = s.cursor.map (Token.rename r)
  line : s'.line = s.line
  level : s'.level = s.level
  depth : s'.depth = s.depth
  armed : s'.armed = s.armed
  scope : s'.scope.unowned = s.scope.unowned
  enclosing : s'.enclosing.map Scope.unowned = s.enclosing.map Scope.unowned
  symbols : s.symbols.Renamed r s'.symbols
  errors : s'.errors.map Diagnostic.unworded = s.errors.map Diagnostic.unworded

namespace State.Renamed

variable {s s' : State}

theorem lookahead (h : s.Renamed r s') : s'.lookahead = s.lookahead.rename r := by
  have hfile : Token.endOfFile = Token.endOfFile.rename r := rfl
  rw [State.lookahead, State.lookahead, Cursor.peek?, Cursor.peek?, h.cursor, Cursor.map,
    List.head?_map, hfile, Option.getD_map, ← hfile]

theorem kind (h : s.Renamed r s') : s'.lookahead.kind = s.lookahead.kind := by
  rw [h.lookahead]
  exact Lexeme.kind_rename _

theorem sees (h : s.Renamed r s') (k : Kind) : s'.sees k = s.sees k := by
  rw [State.sees, State.sees, h.kind]

theorem text (h : s.Renamed r s') (hsees : s.sees .identifier = true) :
    s'.lookahead.text = r s.lookahead.text := by
  rw [h.lookahead]
  exact Lexeme.text_rename (by simpa [State.sees] using hsees)

theorem advance (h : s.Renamed r s') :
    State.Renamed r { s with cursor := s.cursor.advance }
      { s' with cursor := s'.cursor.advance } :=
  { h with cursor := by rw [h.cursor, Cursor.advance_map] }

theorem crossLine (h : s.Renamed r s') : s.crossLine.Renamed r s'.crossLine := by
  have hadvance := h.advance
  have hlookahead := hadvance.lookahead
  refine { hadvance with armed := rfl, line := ?_ }
  simp only [State.lookahead] at hlookahead
  simp only [State.crossLine, State.note, State.lookahead, State.nextLine, hlookahead, h.line]
  rfl

theorem consumed (h : s.Renamed r s') : s'.consumed = s.consumed.map (Token.rename r) := by
  rw [State.consumed, State.consumed, Cursor.consumed, Cursor.consumed, h.cursor, Cursor.map,
    List.map_reverse]

theorem consume (h : s.Renamed r s') : s.consume.2.Renamed r s'.consume.2 :=
  State.consume_related (fun h => h.sees _) (fun _ h => h.crossLine) (fun _ h => h.advance) h

theorem report (h : s.Renamed r s') (c : Category) (m m' : String) :
    (s.report c m).Renamed r (s'.report c m') := by
  rw [State.report, State.report, h.armed]
  split
  · refine { h with armed := rfl, errors := ?_ }
    simp [State.note, Diagnostic.unworded, h.line, h.errors]
  · exact { h with }

theorem expect (h : s.Renamed r s') (k : Kind) : (s.expect k).2.Renamed r (s'.expect k).2 :=
  State.expectOr_of_kind consume h.kind h k (h.report _ _ _)

theorem declare (h : s.Renamed r s') {t t' : SymbolTable} (ht : t.Renamed r t') :
    State.Renamed r { s with symbols := t } { s' with symbols := t' } :=
  { h with symbols := ht }

theorem registerParameter (h : s.Renamed r s') (name : String) :
    (s.registerParameter name).Renamed r (s'.registerParameter (r name)) := by
  rw [registerParameter_eq, registerParameter_eq]
  refine h.declare ?_
  rw [h.level]
  exact h.symbols.withVariable (congrArg Prod.fst h.scope) _ _ _

theorem openScope (h : s.Renamed r s') (owner owner' : String) (record : Option Nat) :
    (s.openScope owner record).Renamed r (s'.openScope owner' record) :=
  { h with
    scope := congrArg (Prod.mk record) h.symbols.length_vars
    enclosing := congrArg₂ List.cons h.scope h.enclosing }

theorem closeScope (h : s.Renamed r s') : s.closeScope.Renamed r s'.closeScope := by
  have henclosing := h.enclosing
  unfold State.closeScope
  cases hs : s.enclosing with
  | nil =>
    rw [hs, List.map_nil, List.map_eq_nil_iff] at henclosing
    rw [henclosing]
    exact h
  | cons outer rest =>
    rw [hs, List.map_cons, List.map_eq_cons_iff] at henclosing
    obtain ⟨outer', rest', hs', houter, hrest⟩ := henclosing
    rw [hs']
    exact { h with scope := houter, enclosing := hrest }

theorem nameProcedure (hr : Function.Injective r) (h : s.Renamed r s') :
    (nameProcedure s).Renamed r (nameProcedure s') := by
  rw [Parser.nameProcedure, Parser.nameProcedure, h.sees]
  split
  · next hsees =>
    rw [h.text hsees]
    by_cases hold : s.symbols.HasBody s.lookahead.text (s.level + 1)
    · have hold' : s'.symbols.HasBody (r s.lookahead.text) (s'.level + 1) := by
        rwa [h.level, h.symbols.hasBody_iff hr]
      rw [registerProcedure_of_old hold, registerProcedure_of_old hold']
      exact ((h.report _ _ _).expect _).openScope _ _ _
    · have hnew : ¬ s'.symbols.HasBody (r s.lookahead.text) (s'.level + 1) := by
        rwa [h.level, h.symbols.hasBody_iff hr]
      rw [registerProcedure_of_new hold, registerProcedure_of_new hnew, h.symbols.length_procs]
      refine ((h.declare ?_).expect _).openScope _ _ _
      rw [h.level]
      exact h.symbols.withProcedure _ _
  · exact (h.expect _).openScope _ _ _

theorem findsAlike (hr : Function.Injective r) (h : s.Renamed r s')
    (hsees : s.sees .identifier = true) : s.FindsAlike s' := by
  rw [State.FindsAlike, h.text hsees]
  constructor
  · rw [Bool.eq_iff_iff, knowsVariable_iff, knowsVariable_iff]
    simp only [State.view, h.level, h.symbols.hasVariable_iff hr]
  · rw [Bool.eq_iff_iff, knowsProcedure_iff, knowsProcedure_iff]
    simp only [State.view, h.level, h.symbols.hasProcedure_iff hr]

end State.Renamed

/-- Parses of tokens and of renamed tokens decide alike, whatever they have to say. -/
theorem renamed_matching (hr : Function.Injective r) :
    Matching (fun _ _ => True) (State.Renamed r) where
  kind h := h.kind
  depth h := h.depth
  finds h := h.findsAlike hr
  refused _ := trivial
  taken _ := trivial
  consume h := h.consume
  report h c _ := h.report c _ _
  registerParameter h hsees := by
    rw [h.text hsees]
    exact h.registerParameter _
  nameProcedure h := h.nameProcedure hr
  closeScope h := h.closeScope
  enterBody h := { h with level := congrArg (· + 1) h.level }
  leaveBody h := { h with
    level := congrArg (· - 1) h.level
    depth := congrArg (· - 1) h.depth }
  atDepth h _ := { h with depth := rfl }

/-! ## What goals come with -/

section Ready

variable {n : Nesting} {tokens : List Token} {g : Goal} {rest goals : List Goal} {s s' : State}

/-- Only a statement that starts with a name makes an assignment a goal, and right away. -/
theorem sees_of_assignment_mem (hstep : step n g s = .go goals s')
    (hmem : .construct .assignment ∈ goals) :
    goals = [.construct .assignment, .endNesting] ∧ s'.sees .identifier = true := by
  cases g with
  | construct c =>
    cases c with
    | statement =>
      simp only [step, constructMove, statementMove, nested] at hstep
      split at hstep
      · cases hstep
      split at hstep <;> cases hstep
      · simp at hmem
      · simp at hmem
      · next hkind =>
        exact ⟨rfl, by simpa [State.sees, State.lookahead] using hkind⟩
      · simp [conditionalGoals] at hmem
    | _ =>
      simp only [step, constructMove, assignmentMove, factorMove, nested] at hstep
      repeat' split at hstep
      all_goals cases hstep <;> simp [conditionalGoals] at hmem
  | _ =>
    simp only [step] at hstep
    repeat' split at hstep
    all_goals (cases hstep; simp at hmem)

/-- An assignment is looked for where there is a name. -/
theorem sees_of_assignment (hr : Reaches n tokens (.construct .assignment :: rest) s) :
    s.sees .identifier = true := by
  -- it is no goal behind another one
  have hkept : ∀ {gs : List Goal} {t : State} {gs' : List Goal} {t' : State},
      Visits n gs t gs' t' → .construct .assignment ∉ gs.tail →
      (gs.head? = some (.construct .assignment) → t.sees .identifier = true) →
      .construct .assignment ∉ gs'.tail ∧
        (gs'.head? = some (.construct .assignment) → t'.sees .identifier = true) := by
    intro gs t gs' t' hv
    induction hv with
    | here => exact fun htail hhead => ⟨htail, hhead⟩
    | @next g rest goals gs' t t₁ t' hstep _ ih =>
      intro htail _
      by_cases hmem : .construct .assignment ∈ goals
      · obtain ⟨rfl, hsees⟩ := sees_of_assignment_mem hstep hmem
        exact ih (by simpa using htail) fun _ => hsees
      · have hnone : .construct .assignment ∉ goals ++ rest := by simpa using ⟨hmem, htail⟩
        exact ih (fun h => hnone (List.mem_of_mem_tail h))
          fun h => absurd (List.mem_of_mem_head? h) hnone
  exact (hkept hr (List.not_mem_nil) (by simp)).2 rfl

/-- Whether there is a local like one to be declared is not decided by who owns it: all that was
declared in a body at its own level is its own. -/
theorem hasLocal_iff_of_reaches (hr : Reaches n tokens (.construct .variableDeclaration :: rest) s)
    (name : String) : s.symbols.HasLocal s.scope name s.level ↔
      ∃ v ∈ s.symbols.vars.drop s.scope.start,
        v.name = name ∧ v.kind = .localVariable ∧ v.level = s.level := by
  obtain ⟨a, -, h⟩ := upheld_trivial.kept.of_reaches (fits_start trivial) hr
  have hplaced := (h.view fun h => h.elim).placed
  have hlevel : s.level = (s.enclosing.reverse.length : Int) + 1 := by
    rw [level_of_reaches hr, State.scopes, List.length_cons, List.length_reverse, Int.natCast_succ]
  constructor
  · rintro ⟨v, hv, hname, -, hkind, hv'⟩
    exact ⟨v, hv, hname, hkind, hv'⟩
  · rintro ⟨v, hv, hname, hkind, hv'⟩
    refine ⟨v, hv, hname, ?_, hkind, hv'⟩
    obtain ⟨i, hi⟩ := List.mem_iff_getElem?.1 hv
    rw [List.getElem?_drop] at hi
    have hstarted : (s.view.scope.start : Int) ≤ v.address := by
      rw [hplaced.addresses _ v hi]
      exact_mod_cast Nat.le_add_right _ i
    exact (hplaced.innermost.since v (List.mem_of_mem_drop hv) hstarted).2 (hv'.trans hlevel)

/-- Where parses of tokens and of renamed tokens come, the next goal can be resolved alike. -/
theorem ready_of_reaches (hr : Function.Injective r) {tokens' : List Token}
    (hs : Reaches n tokens (g :: rest) s) (hs' : Reaches n tokens' (g :: rest) s')
    (h : s.Renamed r s') : g.Ready (State.Renamed r) s s' := by
  unfold Goal.Ready
  split
  · exact h.findsAlike hr (sees_of_assignment hs)
  · intro hsees
    have hstart : s'.scope.start = s.scope.start := congrArg Prod.snd h.scope
    have hlocal : s'.symbols.HasLocal s'.scope (r s.lookahead.text) s'.level ↔
        s.symbols.HasLocal s.scope s.lookahead.text s.level := by
      rw [hasLocal_iff_of_reaches hs', hasLocal_iff_of_reaches hs, hstart, h.level]
      refine exists_mem_iff_of_forall₂ (List.forall₂_drop _ h.symbols.vars) fun {v v'} hv => ?_
      rw [hv]
      exact and_congr_left' hr.eq_iff
    rw [h.text hsees]
    by_cases hold : s.symbols.HasLocal s.scope s.lookahead.text s.level
    · rw [State.registerVariable_of_old hold, State.registerVariable_of_old (hlocal.2 hold)]
      exact h.report _ _ _
    · rw [State.registerVariable_of_new hold, State.registerVariable_of_new (mt hlocal.1 hold)]
      refine h.declare ?_
      rw [h.level]
      exact h.symbols.withVariable (congrArg Prod.fst h.scope) _ _ _
  · trivial

end Ready

/-! ## Parses side by side -/

theorem renamed_start (r : String → String) (tokens : List Token) :
    (State.ofTokens tokens).skipLineEnds.Renamed r
      (State.ofTokens (tokens.map (Token.rename r))).skipLineEnds := by
  have hstart : (State.ofTokens tokens).Renamed r (State.ofTokens (tokens.map (Token.rename r))) :=
    ⟨rfl, rfl, rfl, rfl, rfl, rfl, rfl, ⟨.nil, rfl⟩, rfl⟩
  exact State.skipLineEnds_related (fun h => h.sees _) (fun _ h => h.crossLine) hstart

section Parses

variable {n : Nesting} {tokens : List Token} {names : List Lexeme} {g : Goal}
  {rest goals : List Goal} {s s₁ : State}

theorem Goal.namesAfter_renamed {s' : State} (h : s.Renamed r s') (g : Goal)
    (names : List Lexeme) : g.namesAfter s' (names.map (Lexeme.rename r)) =
      (g.namesAfter s names).map (Lexeme.rename r) := by
  unfold namesAfter
  split
  · rw [h.lookahead]
    rfl
  · exact List.map_tail.symm
  · rfl

/-- Where both parses come, they take the same step. -/
theorem step_renamed (hr : Function.Injective r) {tokens' : List Token} {names' : List Lexeme}
    {s' : State} (hw : Within n tokens names (g :: rest) s)
    (hw' : Within n tokens' names' (g :: rest) s') (h : s.Renamed r s') :
    Move.Related (fun _ _ => True) (State.Renamed r) (step n g s) (step n g s') :=
  (renamed_matching hr).step h n (ready_of_reaches hr hw.reaches hw'.reaches h)

/-- The parse of renamed tokens comes to the same goals, within functions that are named at renamed
lexemes. -/
theorem Within.renamed (hr : Function.Injective r) (h : Within n tokens names goals s) :
    ∃ s', Within n (tokens.map (Token.rename r)) (names.map (Lexeme.rename r)) goals s' ∧
      s.Renamed r s' := by
  induction h with
  | start => exact ⟨_, .start, renamed_start r tokens⟩
  | @next names g rest goals s s₁ hw hstep ih =>
    obtain ⟨s', hw', hs⟩ := ih
    have hmove := step_renamed hr hw hw' hs
    rw [hstep] at hmove
    generalize hstep' : step n g s' = m at hmove
    cases hmove with
    | go _ hs₁ => exact ⟨_, Goal.namesAfter_renamed hs g names ▸ hw'.next hstep', hs₁⟩

/-- The variable at a position is declared in the same place. -/
theorem DeclaredIn.renamed (hr : Function.Injective r) {name? : Option Lexeme} {i : Nat}
    (h : DeclaredIn n tokens name? i) :
    DeclaredIn n (tokens.map (Token.rename r)) (name?.map (Lexeme.rename r)) i := by
  obtain ⟨names, g, rest, s, goals, s₁, hw, hstep, hlength, hlength', rfl⟩ := h
  obtain ⟨s', hw', hs⟩ := hw.renamed hr
  have hmove := step_renamed hr hw hw' hs
  rw [hstep] at hmove
  generalize hstep' : step n g s' = m at hmove
  cases hmove with
  | @go _ _ s₁' hs₁ =>
    exact ⟨_, g, rest, s', goals, s₁', hw', hstep', hs.symbols.length_vars.trans hlength,
      hs₁.symbols.length_vars.trans hlength', List.head?_map.symm⟩

theorem State.Renamed.giveUp {s' : State} (h : s.Renamed r s') (reason reason' : Abort)
    {line line' : Int} (hline : line' = line) :
    (s.giveUp reason line).Renamed r (s'.giveUp reason' line') := by
  refine { h with errors := ?_ }
  simp [State.giveUp, State.note, Abort.on, Diagnostic.unworded, h.errors, hline]

/-- A parse of renamed tokens ends as that of the tokens does. -/
theorem State.parse_renamed (hr : Function.Injective r) (n : Nesting) (tokens : List Token) :
    ((State.ofTokens tokens).parse n).Renamed r
      ((State.ofTokens (tokens.map (Token.rename r))).parse n) := by
  cases hresolve : resolve n [.construct .program] (State.ofTokens tokens).skipLineEnds with
  | finished s₁ =>
    obtain ⟨names, hw⟩ := Reaches.exists_within (visits_of_finished hresolve)
    obtain ⟨s₁', hw', hs⟩ := hw.renamed hr
    have hresolve' := (resolve_of_visits hw'.reaches).trans (resolve_nil n s₁')
    rw [State.parse_of_finished hresolve, State.parse_of_finished hresolve']
    exact hs
  | aborted reason line s₁ =>
    obtain ⟨g, rest, found, s₂, hv, hhalt, rfl⟩ := visits_of_aborted hresolve
    obtain ⟨names, hw⟩ := Reaches.exists_within hv
    obtain ⟨found', hw', hfound⟩ := hw.renamed hr
    have hmove := step_renamed hr hw hw' hfound
    rw [hhalt] at hmove
    generalize hhalt' : step n g found' = m at hmove
    cases hmove with
    | @halt _ reason' _ _ line' _ s₂' hs =>
      have hresolve' := (resolve_of_visits hw'.reaches).trans (resolve_cons n g rest found')
      rw [hhalt'] at hresolve'
      have hline : line' = line := by
        rw [(step_halt hhalt).1, (step_halt hhalt').1, hfound.line]
      rw [State.parse_of_aborted hresolve, State.parse_of_aborted hresolve']
      refine State.Renamed.giveUp ?_ _ _ hline
      rw [State.unwind, State.unwind, hs.depth]
      exact { hs with depth := rfl }

end Parses

end Parser

/-- No name is special: where names are replaced by others, and different ones by different ones,
the same tokens are passed, the same is declared under the new names, and the same kinds of problems
are found on the same lines. The owner of a variable is replaced where it was taken from a name; it
stays where it was taken from another token, or is that of the program body. -/
theorem parse_of_renamed (hr : Function.Injective r) (n : Parser.Nesting) (tokens : List Token) :
    let p := parse n tokens
    let p' := parse n (tokens.map (Token.rename r))
    p'.tokens = p.tokens.map (Token.rename r) ∧
      p'.vars.length = p.vars.length ∧
      (∀ i v, p.vars[i]? = some v → (∃ name?, Parser.DeclaredIn n tokens name? i) ∧
        ∀ name?, Parser.DeclaredIn n tokens name? i → v.owner = ownerOf name? ∧
          p'.vars[i]? = some { v with
            name := r v.name
            owner := ownerOf (name?.map (Lexeme.rename r)) }) ∧
      p'.procs = p.procs.map (Procedure.rename r) ∧
      p'.errors.map (fun d => (d.category, d.line, d.fatal)) =
        p.errors.map (fun d => (d.category, d.line, d.fatal)) := by
  intro p p'
  have h : ((Parser.State.ofTokens tokens).parse n).Renamed r
      ((Parser.State.ofTokens (tokens.map (Token.rename r))).parse n) :=
    Parser.State.parse_renamed hr n tokens
  refine ⟨?_, h.symbols.length_vars, fun i v hv => ⟨?_, fun name? hin => ?_⟩, h.symbols.procs,
    h.errors⟩
  · exact h.consumed
  · obtain ⟨goals, s, hreaches, hvars, -⟩ := Parser.exists_reaches_result n tokens
    obtain ⟨names, hw⟩ := hreaches.exists_within
    exact hw.declaredIn i (hvars ▸ (List.getElem?_eq_some_iff.1 hv).1)
  · obtain ⟨v', hv', hrenamed⟩ := h.symbols.getElem?_vars hv
    have howner : v'.owner = ownerOf (name?.map (Lexeme.rename r)) := (hin.renamed hr).owner hv'
    refine ⟨hin.owner hv, hv'.trans ?_⟩
    rw [hrenamed, howner]

/-- The function and the program body are then called the same; what is declared behind a number in
the place of a name still belongs to the number. -/
theorem parse_of_renamed_of_function_named_main :
    let source := "begin integer function f(k); begin integer k; f := k end;\n" ++
      "integer function 7(m); begin integer m; read(m) end;\n" ++ "integer f; read(t) end\n"
    let r := Equiv.swap "f" "main"
    let tokens := (tokenize 16 source).1
    let p := parse { limit := 64 } tokens
    let p' := parse { limit := 64 } (tokens.map (Token.rename r))
    Function.Injective r ∧
      (p.vars.map (fun v => (v.name, v.owner)) =
          [("k", "f"), ("k", "f"), ("m", "7"), ("m", "7"), ("f", "main")] ∧
        p.procs.map Procedure.name = ["f"] ∧ p.errors.map Diagnostic.line = [2, 3]) ∧
      p'.vars.map (fun v => (v.name, v.owner)) =
        [("k", "main"), ("k", "main"), ("m", "7"), ("m", "7"), ("main", "main")] ∧
      p'.procs.map Procedure.name = ["main"] ∧ p'.errors.map Diagnostic.line = [2, 3] := by
  intro source r tokens p p'
  have hr : Function.Injective r := r.injective
  have hp : p.vars.map (fun v => (v.name, v.owner)) =
      [("k", "f"), ("k", "f"), ("m", "7"), ("m", "7"), ("f", "main")] ∧
        p.procs.map Procedure.name = ["f"] ∧ p.errors.map Diagnostic.line = [2, 3] := by
    decide +kernel
  obtain ⟨-, -, -, hprocs, herrors⟩ := parse_of_renamed hr { limit := 64 } tokens
  refine ⟨hr, hp, by decide +kernel, ?_, ?_⟩
  · have hnames := congrArg (List.map r) hp.2.1
    rw [hprocs, List.map_map]
    rwa [List.map_map] at hnames
  · have hlines := congrArg (List.map fun e => e.2.1) herrors
    rw [List.map_map, List.map_map] at hlines
    exact hlines.trans hp.2.2

end Rename

end PocketPascal
