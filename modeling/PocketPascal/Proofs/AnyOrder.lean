import PocketPascal.Lexer
import PocketPascal.Proofs.LineTracking
import PocketPascal.Proofs.NestingDepth
import PocketPascal.Proofs.Ownership

/-! # Calls in any order

A parser is an object with a state, and its methods may be called in any order: constructs may be
looked for in the middle of nowhere, tokens taken, problems reported and symbols declared, and a
call that gives up leaves behind whatever it had opened. What a state says about itself still adds
up after every such call, and what has been read, reported and declared is never taken back.
-/

namespace PocketPascal.Parser

/-! ## Calls -/

/-- A call of one of the methods of a parser. -/
inductive Call where
  | find (c : Construct)
  | parse
  | take
  | skipLineEnds
  /-- An empty message stands for the usual one. -/
  | expect (kind : Kind) (message : String)
  | report (category : Category) (message : String)
  | registerVariable (name : String)
  | registerParameter (name : String)
  | registerProcedure (name : String)

namespace State

/-- The state that a call leaves behind, whether it comes to an end or gives up. -/
def after (n : Nesting) (s : State) : Call → State
  | .find c => (Parser.find n c s).state
  | .parse => s.parse n
  | .take => s.consume.2
  | .skipLineEnds => s.skipLineEnds
  | .expect kind message =>
    if message = "" then (s.expect kind).2 else (s.expectOr kind message).2
  | .report category message => s.report category message
  | .registerVariable name => s.registerVariable name
  | .registerParameter name => s.registerParameter name
  | .registerProcedure name => (s.registerProcedure name).2

/-- The state that several calls leave behind, one after the other. -/
def afterAll (n : Nesting) (s : State) (calls : List Call) : State :=
  calls.foldl (after n) s

end State

/-- A property of states that every method keeps, whatever state it is called in. -/
structure Lasting (P : State → Prop) : Prop extends Invariant P where
  skipLineEnds : ∀ {s}, P s → P s.skipLineEnds
  registerProcedure : ∀ {s}, P s → ∀ name, P (s.registerProcedure name).2
  giveUp : ∀ {s}, P s → ∀ reason line, P (s.giveUp reason line)

namespace Lasting

variable {P : State → Prop} {s : State}

theorem and {Q : State → Prop} (hP : Lasting P) (hQ : Lasting Q) :
    Lasting fun s => P s ∧ Q s where
  toInvariant := hP.toInvariant.and hQ.toInvariant
  skipLineEnds h := ⟨hP.skipLineEnds h.1, hQ.skipLineEnds h.2⟩
  registerProcedure h name := ⟨hP.registerProcedure h.1 name, hQ.registerProcedure h.2 name⟩
  giveUp h reason line := ⟨hP.giveUp h.1 reason line, hQ.giveUp h.2 reason line⟩

theorem expectOr (lasting : Lasting P) (h : P s) (k : Kind) (m : String) :
    P (s.expectOr k m).2 :=
  State.expectOr_related (R := fun x _ => P x) lasting.consume lasting.report rfl h k m

/-- A call that gives up leaves a state behind that has the property as well. -/
theorem find (lasting : Lasting P) (h : P s) (n : Nesting) (c : Construct) :
    P (Parser.find n c s).state := by
  rcases lasting.resolve h n [.construct c] with ⟨s₁, hs, h₁⟩ | ⟨reason, found, s₁, hs, -, -, h₁⟩
  · rw [Parser.find, hs]
    exact h₁
  · rw [Parser.find, hs]
    exact h₁

theorem after (lasting : Lasting P) (h : P s) (n : Nesting) (call : Call) :
    P (s.after n call) := by
  cases call with
  | find c => exact lasting.find h n c
  | parse =>
    rcases lasting.parse (lasting.skipLineEnds h) n with h₁ | ⟨reason, found, s₁, hs, -, -, h₁⟩
    · exact h₁
    · rw [State.after, hs]
      exact lasting.giveUp h₁ _ _
  | take => exact lasting.consume h
  | skipLineEnds => exact lasting.skipLineEnds h
  | expect kind message =>
    rw [State.after]
    split
    · exact lasting.expectOr h _ _
    · exact lasting.expectOr h _ _
  | report category message => exact lasting.report h _ _
  | registerVariable name => exact lasting.registerVariable h name
  | registerParameter name => exact lasting.registerParameter h name
  | registerProcedure name => exact lasting.registerProcedure h name

theorem afterAll (lasting : Lasting P) (h : P s) (n : Nesting) (calls : List Call) :
    P (s.afterAll n calls) := by
  induction calls generalizing s with
  | nil => exact h
  | cons call calls ih => exact ih (lasting.after h n call)

/-- What lasts from where a parse comes by is there when the parse ends. -/
theorem parse_of_reaches (lasting : Lasting P) {n : Nesting} {tokens : List Token}
    {goals : List Goal} (hr : Reaches n tokens goals s) (h : P s) :
    P ((State.ofTokens tokens).parse n) := by
  rw [State.parse, Parser.find, resolve_of_visits hr]
  rcases lasting.resolve h n goals with ⟨s₁, hs, h₁⟩ | ⟨reason, found, s₁, hs, -, -, h₁⟩
  · rw [hs]
    exact h₁
  · rw [hs]
    exact lasting.giveUp h₁ _ _

/-- A property of what has been read and reported lasts if the three ways to change that keep
it. -/
theorem of_readsAs (alike : ∀ {s s' : State}, s.ReadsAs s' → P s → P s')
    (cross : ∀ {s : State}, P s → P s.crossLine)
    (advance : ∀ {s : State}, P s → P { s with cursor := s.cursor.advance })
    (report : ∀ {s : State}, P s → ∀ c m, P (s.report c m))
    (giveUp : ∀ {s : State}, P s → ∀ reason line, P (s.giveUp reason line)) : Lasting P where
  toInvariant :=
    .of_crossings alike (fun _ => cross) (fun _ => advance) report
  skipLineEnds h := State.skipLineEnds_keeps (P := P) (fun _ _ => cross) h
  registerProcedure := by
    intro s h name
    unfold State.registerProcedure
    split
    · exact alike (.declare s _) h
    · exact report h _ _
  giveUp := giveUp

end Lasting

/-! ## What is open and declared -/

namespace State

@[simp] theorem scopes_consume (s : State) : s.consume.2.scopes = s.scopes :=
  congrArg (fun v : View => v.scope :: v.enclosing) (view_consume s)

@[simp] theorem symbols_consume (s : State) : s.consume.2.symbols = s.symbols :=
  congrArg View.symbols (view_consume s)

@[simp] theorem scopes_report (s : State) (c : Category) (m : String) :
    (s.report c m).scopes = s.scopes :=
  congrArg (fun v : View => v.scope :: v.enclosing) (view_report s c m)

@[simp] theorem symbols_report (s : State) (c : Category) (m : String) :
    (s.report c m).symbols = s.symbols :=
  congrArg View.symbols (view_report s c m)

@[simp] theorem scopes_skipLineEnds (s : State) : s.skipLineEnds.scopes = s.scopes :=
  congrArg (fun v : View => v.scope :: v.enclosing) (view_skipLineEnds s)

@[simp] theorem symbols_skipLineEnds (s : State) : s.skipLineEnds.symbols = s.symbols :=
  congrArg View.symbols (view_skipLineEnds s)

@[simp] theorem scopes_openScope (s : State) (owner : String) (record : Option Nat) :
    (s.openScope owner record).scopes = .after s.symbols owner record :: s.scopes := rfl

@[simp] theorem symbols_openScope (s : State) (owner : String) (record : Option Nat) :
    (s.openScope owner record).symbols = s.symbols := rfl

end State

/-- What is open and declared changes in five ways only: a variable or a procedure is declared, a
scope is opened for the last procedure or for none, and a scope other than the program's is
closed. -/
structure Declaring (Q : List Scope → SymbolTable → Prop) : Prop where
  newVariable : ∀ {c outer t}, Q (c :: outer) t →
    ∀ name kind level, Q (c :: outer) (t.withVariable c name kind level)
  newProcedure : ∀ {scopes t}, Q scopes t →
    ∀ {name level}, ¬ t.HasBody name level → Q scopes (t.withProcedure name level)
  openProcedure : ∀ {scopes t}, Q scopes t → ∀ {name level}, ¬ t.HasBody name level →
    Q (.after t name (some t.procs.length) :: scopes) (t.withProcedure name level)
  openScope : ∀ {scopes t}, Q scopes t → ∀ owner, Q (.after t owner none :: scopes) t
  close : ∀ {c c' outer t}, Q (c :: c' :: outer) t → Q (c' :: outer) t

theorem Declaring.lasting {Q : List Scope → SymbolTable → Prop} (dec : Declaring Q) :
    Lasting fun s => Q s.scopes s.symbols where
  consume h := by simpa using h
  report h c m := by simpa using h
  registerVariable {s} h name := by
    by_cases hold : s.symbols.HasLocal s.scope name s.level
    · rw [State.registerVariable_of_old hold]
      simpa [State.complain] using h
    · rw [State.registerVariable_of_new hold]
      exact dec.newVariable h _ _ _
  registerParameter {s} h name := by
    rw [State.registerParameter_eq]
    exact dec.newVariable h _ _ _
  nameProcedure {s} h := by
    have hacts : Acts .procedureHead s [] (Parser.nameProcedure s) :=
      acts_procedureHead (n := ⟨0, none⟩) rfl
    generalize Parser.nameProcedure s = s₁ at hacts
    cases hacts with
    | quiet hgoals _ => cases hgoals (.name 0)
    | declareFunction _ hnew =>
      rw [State.scopes_openScope, State.symbols_openScope, State.scopes_consume,
        State.symbols_consume]
      exact dec.openProcedure h hnew
    | noFunction c m _ =>
      rw [State.scopes_openScope, State.symbols_openScope, State.scopes_consume,
        State.symbols_consume, State.scopes_report, State.symbols_report]
      exact dec.openScope h _
  closeScope {s} h := by
    unfold State.closeScope
    split
    · exact h
    · next outer rest hs =>
      have hscopes : s.scopes = s.scope :: outer :: rest := by rw [State.scopes, hs]
      rw [hscopes] at h
      exact dec.close h
  enterBody h := h
  leaveBody h := h
  atDepth h _ := h
  skipLineEnds h := by simpa using h
  registerProcedure {s} h name := by
    by_cases hold : s.symbols.HasBody name (s.level + 1)
    · rw [State.registerProcedure_of_old hold]
      simpa [State.complain] using h
    · rw [State.registerProcedure_of_new hold]
      exact dec.newProcedure h hold
  giveUp h _ _ := h

/-- What is open and declared adds up: addresses count the variables, procedures differ in name or
level, a range that has begun lies among the addresses given out, and the open scopes, innermost
first, began in the order in which they are open. Each of them has an owner, a record if its owner
has one under that name, and a start; the outermost one is the program's. -/
structure Coherent (scopes : List Scope) (t : SymbolTable) : Prop where
  addresses : ∀ (i : Nat) (v : Variable), t.vars[i]? = some v → v.address = i
  nextAddress : t.nextAddress = t.vars.length
  distinct : (t.procs.map Procedure.key).Nodup
  ranges : ∀ p ∈ t.procs, p.Unused ∨ 0 ≤ p.first ∧ p.first ≤ p.last ∧ p.last < t.nextAddress
  outermost : scopes.getLast? = some .program
  starts : (scopes.map Scope.start).Pairwise (· ≥ ·)
  start_le : ∀ c ∈ scopes, c.start ≤ t.vars.length
  records : ∀ c ∈ scopes, ∀ r, c.record = some r → ∃ p, t.procs[r]? = some p ∧ p.name = c.owner

namespace Coherent

variable {scopes : List Scope} {t : SymbolTable}

theorem start : Coherent [.program] {} where
  addresses _ _ hv := by cases hv
  nextAddress := rfl
  distinct := List.nodup_nil
  ranges := List.forall_mem_nil _
  outermost := rfl
  starts := List.pairwise_singleton _ _
  start_le := List.forall_mem_singleton.2 (Nat.le_refl _)
  records := List.forall_mem_singleton.2 fun r hr => by cases hr

/-- The procedure of the innermost scope claims the new address. -/
theorem withVariable (h : Coherent scopes t) (c : Scope) (name : String) (kind : VariableKind)
    (level : Int) : Coherent scopes (t.withVariable c name kind level) where
  addresses i v hv := by
    rcases getElem?_concat_cases hv with hv | ⟨rfl, rfl⟩
    · exact h.addresses i v hv
    · rfl
  nextAddress := rfl
  distinct := by
    rw [SymbolTable.map_key_withVariable]
    exact h.distinct
  ranges p' hp' := by
    obtain ⟨r, p, hp, rfl⟩ := SymbolTable.mem_procs_withVariable hp'
    have hrange := h.ranges p (List.mem_of_getElem? hp)
    rw [SymbolTable.nextAddress, SymbolTable.length_vars_withVariable]
    rw [SymbolTable.nextAddress] at hrange
    split
    · refine Or.inr ?_
      rcases hrange with hunused | hrange
      · simp only [Procedure.claim, if_pos hunused.1]
        omega
      · have hfirst : p.first ≠ -1 := by omega
        simp only [Procedure.claim, if_neg hfirst]
        omega
    · exact hrange.imp_right fun h => by omega
  outermost := h.outermost
  starts := h.starts
  start_le c' hc' := by
    rw [SymbolTable.length_vars_withVariable]
    exact Nat.le_succ_of_le (h.start_le c' hc')
  records c' hc' r hr := by
    obtain ⟨p, hp, hname⟩ := h.records c' hc' r hr
    rw [SymbolTable.getElem?_procs_withVariable, hp, Option.map_some]
    refine ⟨_, rfl, ?_⟩
    split
    · exact hname
    · exact hname

/-- A new procedure has claimed nothing. -/
theorem withProcedure (h : Coherent scopes t) {name : String} {level : Int}
    (hnew : ¬ t.HasBody name level) : Coherent scopes (t.withProcedure name level) where
  addresses := h.addresses
  nextAddress := rfl
  distinct := by
    rw [SymbolTable.hasBody_iff_mem_key] at hnew
    rw [SymbolTable.withProcedure, List.map_append, List.nodup_append]
    refine ⟨h.distinct, List.nodup_singleton _, ?_⟩
    rintro a ha b hb rfl
    obtain rfl : a = (name, level) := List.mem_singleton.1 hb
    exact hnew ha
  ranges := List.forall_mem_append.2 ⟨h.ranges, List.forall_mem_singleton.2 (Or.inl ⟨rfl, rfl⟩)⟩
  outermost := h.outermost
  starts := h.starts
  start_le := h.start_le
  records c hc r hr := by
    obtain ⟨p, hp, hname⟩ := h.records c hc r hr
    exact ⟨p, getElem?_append_of_some hp _, hname⟩

/-- A scope that is opened began after all others. -/
theorem openScope (h : Coherent scopes t) (owner : String) {record : Option Nat}
    (hrecord : ∀ r, record = some r → ∃ p, t.procs[r]? = some p ∧ p.name = owner) :
    Coherent (.after t owner record :: scopes) t where
  addresses := h.addresses
  nextAddress := h.nextAddress
  distinct := h.distinct
  ranges := h.ranges
  outermost := by
    rw [List.getLast?_cons, h.outermost]
    rfl
  starts := by
    rw [List.map_cons, List.pairwise_cons]
    refine ⟨fun start hstart => ?_, h.starts⟩
    obtain ⟨c, hc, rfl⟩ := List.mem_map.1 hstart
    exact h.start_le c hc
  start_le := List.forall_mem_cons.2 ⟨Nat.le_refl _, h.start_le⟩
  records := List.forall_mem_cons.2 ⟨hrecord, h.records⟩

theorem close {c c' : Scope} {outer : List Scope} (h : Coherent (c :: c' :: outer) t) :
    Coherent (c' :: outer) t where
  addresses := h.addresses
  nextAddress := h.nextAddress
  distinct := h.distinct
  ranges := h.ranges
  outermost := by
    rw [← h.outermost, List.getLast?_cons_cons]
  starts := h.starts.of_cons
  start_le := (List.forall_mem_cons.1 h.start_le).2
  records := (List.forall_mem_cons.1 h.records).2

end Coherent

theorem coherent_declaring : Declaring Coherent where
  newVariable h _ _ _ := h.withVariable _ _ _ _
  newProcedure h _ _ hnew := h.withProcedure hnew
  openProcedure {scopes t} h name level hnew :=
    (h.withProcedure hnew).openScope name fun _ hr => by
      obtain rfl := Option.some.inj hr
      exact ⟨_, List.getElem?_concat_length, rfl⟩
  openScope h owner := h.openScope owner fun r hr => by cases hr
  close h := h.close

/-! ## Nothing is taken back -/

/-- A procedure stays what it is; its range, once begun, begins where it began and reaches no less
far. -/
structure Grown (p p' : Procedure) : Prop where
  key : p'.key = p.key
  type : p'.type = p.type
  first : p.first ≠ -1 → p'.first = p.first
  last : p.last ≤ p'.last

/-- Declarations are only added. -/
structure Enlarged (t t' : SymbolTable) : Prop where
  vars : t.vars <+: t'.vars
  procs : ∀ (r : Nat) (p : Procedure), t.procs[r]? = some p → ∃ p', t'.procs[r]? = some p' ∧
    Grown p p'

namespace Enlarged

variable {t₀ t : SymbolTable}

theorem refl (t : SymbolTable) : Enlarged t t where
  vars := List.prefix_refl _
  procs _ p hp := ⟨p, hp, rfl, rfl, fun _ => rfl, Int.le_refl _⟩

/-- The new address is beyond every range. -/
theorem withVariable {scopes : List Scope} (h : Enlarged t₀ t) (hc : Coherent scopes t) (c : Scope)
    (name : String) (kind : VariableKind) (level : Int) :
    Enlarged t₀ (t.withVariable c name kind level) where
  vars := h.vars.trans (List.prefix_append _ _)
  procs r p hp := by
    obtain ⟨p', hp', hgrown⟩ := h.procs r p hp
    have hrange := hc.ranges p' (List.mem_of_getElem? hp')
    rw [SymbolTable.nextAddress] at hrange
    rw [SymbolTable.getElem?_procs_withVariable, hp', Option.map_some]
    refine ⟨_, rfl, ?_⟩
    split
    · refine ⟨hgrown.key, hgrown.type, fun hfirst => ?_, ?_⟩
      · have := hgrown.first hfirst
        rw [Procedure.claim, this, if_neg hfirst]
      · have := hgrown.last
        simp only [Procedure.claim]
        rcases hrange with hunused | hrange
        · have := hunused.2
          omega
        · omega
    · exact hgrown

theorem withProcedure (h : Enlarged t₀ t) (name : String) (level : Int) :
    Enlarged t₀ (t.withProcedure name level) where
  vars := h.vars
  procs r p hp := by
    obtain ⟨p', hp', hgrown⟩ := h.procs r p hp
    exact ⟨p', getElem?_append_of_some hp' _, hgrown⟩

end Enlarged

theorem enlarged_declaring (t₀ : SymbolTable) :
    Declaring fun scopes t => Coherent scopes t ∧ Enlarged t₀ t where
  newVariable h _ _ _ := ⟨coherent_declaring.newVariable h.1 _ _ _, h.2.withVariable h.1 _ _ _ _⟩
  newProcedure h _ _ hnew := ⟨coherent_declaring.newProcedure h.1 hnew, h.2.withProcedure _ _⟩
  openProcedure h _ _ hnew := ⟨coherent_declaring.openProcedure h.1 hnew, h.2.withProcedure _ _⟩
  openScope h owner := ⟨coherent_declaring.openScope h.1 owner, h.2⟩
  close h := ⟨coherent_declaring.close h.1, h.2⟩

/-! ## What is read and reported -/

theorem toList_lasting (tokens : List Token) : Lasting fun s => s.cursor.toList = tokens := by
  refine .of_readsAs ?_ ?_ ?_ ?_ ?_
  · intro s s' hr h
    rw [hr.cursor, h]
  · intro s h
    rw [State.cursor_crossLine, Cursor.toList_advance, h]
  · intro s h
    rw [Cursor.toList_advance, h]
  · intro s h c m
    rw [State.cursor_report, h]
  · intro s h _ _
    exact h

/-- Reporting is off only after something was recorded. -/
theorem recorded_lasting : Lasting fun s => s.armed = false → s.errors ≠ [] := by
  refine .of_readsAs ?_ ?_ ?_ ?_ ?_
  · intro s s' hr h
    rw [hr.armed, hr.errors]
    exact h
  · intro s _ harmed
    cases harmed
  · intro s h
    exact h
  · intro s h c m _
    rw [State.errors_report]
    split
    · simp
    · next harmed => exact h (by simpa using harmed)
  · intro s _ reason line _
    simp [State.giveUp, State.note]

/-- The tokens passed and the errors recorded are only added to. -/
theorem prefixes_lasting (consumed : List Token) (errors : List Diagnostic) :
    Lasting fun s => consumed <+: s.consumed ∧ errors <+: s.errors := by
  have hadvance : ∀ c : Cursor Token, c.consumed <+: c.advance.consumed := by
    rintro ⟨passed, _ | ⟨t, rest⟩⟩
    · exact List.prefix_refl _
    · simp [Cursor.consumed, Cursor.advance]
  refine .of_readsAs ?_ ?_ ?_ ?_ ?_
  · intro s s' hr h
    rw [State.consumed, hr.cursor, hr.errors]
    exact h
  · intro s h
    exact ⟨h.1.trans (hadvance s.cursor), h.2⟩
  · intro s h
    exact ⟨h.1.trans (hadvance s.cursor), h.2⟩
  · intro s h c m
    rw [State.consumed, State.cursor_report, State.errors_report]
    refine ⟨h.1, ?_⟩
    split
    · exact h.2.trans (List.prefix_append _ _)
    · exact h.2
  · intro s h _ _
    exact ⟨h.1, h.2.trans (List.prefix_append _ _)⟩

/-! ## States after any calls -/

theorem depth_le_after (n : Nesting) (s : State) (call : Call) :
    s.depth ≤ (s.after n call).depth := by
  cases call with
  | find c => exact (depth_find n c s).1
  | parse =>
    have hdepth := (depth_find n .program s.skipLineEnds).1
    rw [State.depth_skipLineEnds] at hdepth
    rw [State.after, State.parse]
    split
    · next hfind => rwa [hfind] at hdepth
    · next hfind => rwa [hfind] at hdepth
  | take => exact (State.depth_consume s).ge
  | skipLineEnds => exact (State.depth_skipLineEnds s).ge
  | expect kind message =>
    rw [State.after]
    split
    · exact (State.depth_expect s _).ge
    · exact (State.depth_expectOr s _ _).ge
  | report category message => exact (State.depth_report s _ _).ge
  | registerVariable name => exact (State.depth_registerVariable s _).ge
  | registerParameter name => exact (State.depth_registerParameter s _).ge
  | registerProcedure name => exact (State.depth_registerProcedure s _).ge

theorem depth_le_afterAll (n : Nesting) (s : State) (calls : List Call) :
    s.depth ≤ (s.afterAll n calls).depth := by
  induction calls generalizing s with
  | nil => exact Nat.le_refl _
  | cons call calls ih => exact (depth_le_after n s call).trans (ih _)

/-- A state as any calls of methods leave it behind: it has passed the first of the tokens, what is
open and declared adds up, and reporting is off only where something was recorded. -/
structure State.Consistent (tokens : List Token) (s : State) : Prop where
  position_le : s.cursor.position ≤ tokens.length
  consumed : s.consumed = tokens.take s.cursor.position
  coherent : Coherent s.scopes s.symbols
  recorded : s.armed = false → s.errors ≠ []

/-- All that has been read, reported and declared in a state is still there in a later one. -/
structure State.Extends (s s' : State) : Prop where
  consumed : s.consumed <+: s'.consumed
  errors : s.errors <+: s'.errors
  symbols : Enlarged s.symbols s'.symbols
  depth : s.depth ≤ s'.depth

theorem consumed_eq_take {tokens : List Token} {c : Cursor Token} (h : c.toList = tokens) :
    c.position ≤ tokens.length ∧ c.consumed = tokens.take c.position := by
  subst h
  simp [Cursor.toList, Cursor.position, Cursor.consumed]

theorem coherent_afterAll (n : Nesting) (tokens : List Token) (calls : List Call) :
    Coherent ((State.ofTokens tokens).afterAll n calls).scopes
      ((State.ofTokens tokens).afterAll n calls).symbols :=
  coherent_declaring.lasting.afterAll (s := .ofTokens tokens) Coherent.start n calls

/-- Whatever methods are called, in whatever order, and whether they give up or not, the state they
leave behind is consistent, the nestings counted in a call are those that it has still to end, and
further calls take nothing back. -/
theorem afterAll_consistent (n : Nesting) (tokens : List Token) (calls more : List Call) :
    ((State.ofTokens tokens).afterAll n calls).Consistent tokens ∧
      (∀ c goals s', Visits n [.construct c] ((State.ofTokens tokens).afterAll n calls) goals s' →
        s'.depth = ((State.ofTokens tokens).afterAll n calls).depth + openNestings goals) ∧
      ((State.ofTokens tokens).afterAll n calls).Extends
        (((State.ofTokens tokens).afterAll n calls).afterAll n more) := by
  have hcoherent := coherent_afterAll n tokens calls
  refine ⟨?_, fun c goals s' => depth_of_visits_construct, ?_⟩
  · have htokens := (toList_lasting tokens).afterAll (s := .ofTokens tokens) rfl n calls
    obtain ⟨hle, hconsumed⟩ := consumed_eq_take htokens
    have hrecorded :=
      recorded_lasting.afterAll (s := .ofTokens tokens) (fun h => by cases h) n calls
    exact ⟨hle, hconsumed, hcoherent, hrecorded⟩
  · generalize (State.ofTokens tokens).afterAll n calls = s at hcoherent ⊢
    obtain ⟨hconsumed, herrors⟩ := (prefixes_lasting s.consumed s.errors).afterAll
      ⟨List.prefix_refl _, List.prefix_refl _⟩ n more
    have hsymbols := (enlarged_declaring s.symbols).lasting.afterAll
      ⟨hcoherent, Enlarged.refl _⟩ n more
    exact ⟨hconsumed, herrors, hsymbols.2, depth_le_afterAll n s more⟩

/-- A call that gives up in the body of the inner one of these functions leaves both of them open,
the next ones declare a parameter there, and a whole parse goes on from there. -/
theorem afterAll_consistent_of_unfinished_functions :
    let tokens := (tokenize 16 "integer function f(x); begin integer function g(y); begin then").1
    let n : Nesting := { limit := 64 }
    let s := (State.ofTokens tokens).afterAll n [.find .declaration, .registerParameter "z"]
    s.scopes.map Scope.owner = ["g", "f", "main"] ∧
      s.symbols.procs.map (fun p => (p.name, p.first, p.last)) = [("f", 0, 0), ("g", 1, 2)] ∧
      s.Consistent tokens ∧ s.Extends (s.afterAll n [.parse, .find .expression]) := by
  intro tokens n s
  obtain ⟨hconsistent, -, hextends⟩ := afterAll_consistent n tokens
    [.find .declaration, .registerParameter "z"] [.parse, .find .expression]
  exact ⟨by decide +kernel, by decide +kernel, hconsistent, hextends⟩

end PocketPascal.Parser
