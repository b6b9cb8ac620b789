import Mathlib.Data.List.Nodup
import PocketPascal.Proofs.Scoping

/-! # Who owns which addresses

Variables get their addresses in the order of their declarations, and a procedure claims the
addresses of its own variables while its body is open. Bodies are nested, so whatever is declared
since a body was opened belongs to that body or to a deeper one. Everything that is said of address
ranges follows from this.
-/

namespace PocketPascal

/-- An entry of a list that is one longer was there before, or is the new one. -/
theorem getElem?_concat_cases {α : Type} {l : List α} {i : Nat} {a b : α}
    (h : (l ++ [b])[i]? = some a) : l[i]? = some a ∨ (i = l.length ∧ a = b) := by
  rw [List.getElem?_append] at h
  split at h
  · exact Or.inl h
  · rw [List.getElem?_singleton] at h
    split at h
    · exact Or.inr ⟨by omega, (Option.some.inj h).symm⟩
    · cases h

/-- An entry of a list stays where it is when the list gets longer. -/
theorem getElem?_append_of_some {α : Type} {l : List α} {i : Nat} {a : α} (h : l[i]? = some a)
    (more : List α) : (l ++ more)[i]? = some a := by
  rw [List.getElem?_append_left (List.getElem?_eq_some_iff.1 h).1]
  exact h

namespace Procedure

/-- A procedure that has claimed no address. -/
def Unused (p : Procedure) : Prop :=
  p.first = -1 ∧ p.last = -1

/-- A variable that is declared as one of a procedure's own. -/
def Owns (p : Procedure) (v : Variable) : Prop :=
  v.owner = p.name ∧ v.level = p.level

/-- An address lies in the range of a procedure. -/
def Covers (p : Procedure) (address : Int) : Prop :=
  p.first ≤ address ∧ address ≤ p.last

/-- What tells procedures apart. -/
def key (p : Procedure) : String × Int :=
  (p.name, p.level)

/-- The range of a procedure goes from one variable of its own to another, and all that lies between
them is deeper, or its own. -/
structure Spans (p : Procedure) (vars : List Variable) : Prop where
  first_nonneg : 0 ≤ p.first
  first_le_last : p.first ≤ p.last
  last_lt : p.last < vars.length
  first_own : ∃ v ∈ vars, v.address = p.first ∧ p.Owns v
  last_own : ∃ v ∈ vars, v.address = p.last ∧ p.Owns v
  within : ∀ v ∈ vars, p.Covers v.address →
    p.level ≤ v.level ∧ (v.level = p.level → v.owner = p.name)

/-- Two ranges are disjoint, or one lies inside the other one and touches neither of its ends. -/
def Apart (p q : Procedure) : Prop :=
  p.last < q.first ∨ q.last < p.first ∨ (p.first < q.first ∧ q.last < p.last) ∨
    (q.first < p.first ∧ p.last < q.last)

/-- A range is what it was when a variable is added. -/
theorem Spans.concat {p : Procedure} {vars : List Variable} (h : p.Spans vars) {v : Variable}
    (hv : v.address = vars.length) : p.Spans (vars ++ [v]) where
  first_nonneg := h.first_nonneg
  first_le_last := h.first_le_last
  last_lt := by
    have := h.last_lt
    rw [List.length_append]
    omega
  first_own := by
    obtain ⟨w, hw, hfirst⟩ := h.first_own
    exact ⟨w, List.mem_append_left _ hw, hfirst⟩
  last_own := by
    obtain ⟨w, hw, hlast⟩ := h.last_own
    exact ⟨w, List.mem_append_left _ hw, hlast⟩
  within := by
    refine List.forall_mem_append.2 ⟨h.within, List.forall_mem_singleton.2 fun hcovers => ?_⟩
    have hlast := h.last_lt
    have hle := hcovers.2
    omega

theorem Spans.not_covers_of_lt {p q : Procedure} {vars : List Variable} (hp : p.Spans vars)
    (hq : q.Spans vars) (h : p.level < q.level) : ¬ q.Covers p.first ∧ ¬ q.Covers p.last := by
  obtain ⟨v, hv, hfirst, hown⟩ := hp.first_own
  obtain ⟨w, hw, hlast, hown'⟩ := hp.last_own
  constructor
  · intro hcovers
    have hlevel := (hq.within v hv (hfirst ▸ hcovers)).1
    have := hown.2
    omega
  · intro hcovers
    have hlevel := (hq.within w hw (hlast ▸ hcovers)).1
    have := hown'.2
    omega

theorem Spans.not_covers_first {p q : Procedure} {vars : List Variable} (hp : p.Spans vars)
    (hq : q.Spans vars) (h : p.level = q.level) (hname : p.name ≠ q.name) :
    ¬ q.Covers p.first := by
  obtain ⟨v, hv, hfirst, hown⟩ := hp.first_own
  intro hcovers
  exact hname (hown.1.symm.trans ((hq.within v hv (hfirst ▸ hcovers)).2 (hown.2.trans h)))

/-- The ends of a range are the procedure's own, so a deeper range can only lie between them, and
one at the same level not even there. -/
theorem Spans.apart {p q : Procedure} {vars : List Variable} (hp : p.Spans vars)
    (hq : q.Spans vars) (h : p.key ≠ q.key) : p.Apart q := by
  have hp' := hp.first_le_last
  have hq' := hq.first_le_last
  unfold Apart
  rcases Int.lt_trichotomy p.level q.level with hlt | heq | hgt
  · obtain ⟨hfirst, hlast⟩ := hp.not_covers_of_lt hq hlt
    unfold Covers at hfirst hlast
    omega
  · have hname : p.name ≠ q.name := fun hn => h (Prod.ext hn heq)
    have hfirst := hp.not_covers_first hq heq hname
    have hfirst' := hq.not_covers_first hp heq.symm hname.symm
    unfold Covers at hfirst hfirst'
    omega
  · obtain ⟨hfirst, hlast⟩ := hq.not_covers_of_lt hp hgt
    unfold Covers at hfirst hlast
    omega

end Procedure

namespace SymbolTable

variable {t : SymbolTable} {c : Parser.Scope} {name : String} {kind : VariableKind} {level : Int}
  {r : Nat}

theorem vars_withVariable (t : SymbolTable) (c : Parser.Scope) (name : String)
    (kind : VariableKind) (level : Int) :
    (t.withVariable c name kind level).vars =
      t.vars ++ [t.nextVariable name c.owner kind level] := rfl

theorem length_vars_withVariable (t : SymbolTable) (c : Parser.Scope) (name : String)
    (kind : VariableKind) (level : Int) :
    (t.withVariable c name kind level).vars.length = t.vars.length + 1 := by
  rw [vars_withVariable, List.length_append, List.length_singleton]

theorem forall_vars_withVariable {P : Variable → Prop} :
    (∀ v ∈ (t.withVariable c name kind level).vars, P v) ↔
      (∀ v ∈ t.vars, P v) ∧ P (t.nextVariable name c.owner kind level) := by
  rw [vars_withVariable, List.forall_mem_append, List.forall_mem_singleton]

/-- Only the procedure of the scope claims the new address. -/
theorem getElem?_procs_withVariable (t : SymbolTable) (c : Parser.Scope) (name : String)
    (kind : VariableKind) (level : Int) (r : Nat) :
    (t.withVariable c name kind level).procs[r]? =
      t.procs[r]?.map fun p => if c.record = some r then p.claim t.vars.length else p := by
  rw [withVariable]
  cases hc : c.record with
  | none => simp
  | some i =>
    simp only [List.getElem?_modify, Option.some.injEq]
    rfl

theorem mem_procs_withVariable {p' : Procedure}
    (h : p' ∈ (t.withVariable c name kind level).procs) : ∃ r p, t.procs[r]? = some p ∧
      p' = if c.record = some r then p.claim t.vars.length else p := by
  obtain ⟨r, hr⟩ := List.mem_iff_getElem?.1 h
  rw [getElem?_procs_withVariable, Option.map_eq_some_iff] at hr
  obtain ⟨p, hp, rfl⟩ := hr
  exact ⟨r, p, hp, rfl⟩

theorem map_key_withVariable (t : SymbolTable) (c : Parser.Scope) (name : String)
    (kind : VariableKind) (level : Int) :
    (t.withVariable c name kind level).procs.map Procedure.key = t.procs.map Procedure.key := by
  refine List.ext_getElem? fun r => ?_
  rw [List.getElem?_map, List.getElem?_map, getElem?_procs_withVariable, Option.map_map]
  congr 1
  funext p
  rw [Function.comp_apply]
  split <;> rfl

theorem hasBody_iff_mem_key : t.HasBody name level ↔ (name, level) ∈ t.procs.map Procedure.key := by
  rw [HasBody, List.mem_map]
  simp only [Procedure.key, Prod.mk.injEq]

theorem hasBody_withVariable {name' : String} {level' : Int} :
    (t.withVariable c name kind level).HasBody name' level' ↔ t.HasBody name' level' := by
  rw [hasBody_iff_mem_key, hasBody_iff_mem_key, map_key_withVariable]

theorem HasBody.withProcedure {name' : String} {level' : Int} (h : t.HasBody name' level') :
    (t.withProcedure name level).HasBody name' level' := by
  obtain ⟨p, hp, hp'⟩ := h
  exact ⟨p, List.mem_append_left _ hp, hp'⟩

theorem hasBody_withProcedure_self : (t.withProcedure name level).HasBody name level :=
  ⟨_, List.mem_append_right _ (List.mem_singleton_self _), rfl, rfl⟩

end SymbolTable

namespace Parser

/-! ## Open bodies -/

/-- What an open body at a level knows: all that is declared since it was opened is its own or
deeper, and if it has a record, that is its procedure, whose range has begun since. -/
structure Scope.Stands (c : Scope) (level : Int) (t : SymbolTable) : Prop where
  start_le : c.start ≤ t.vars.length
  since : ∀ v ∈ t.vars, (c.start : Int) ≤ v.address →
    level ≤ v.level ∧ (v.level = level → v.owner = c.owner)
  record : ∀ r, c.record = some r → ∃ p, t.procs[r]? = some p ∧ p.name = c.owner ∧
    p.level = level ∧ (p.first = -1 ∨ (c.start : Int) ≤ p.first)

/-- Bodies that are open, from the outside in, and what is declared: addresses count the variables,
procedures differ in name or level, and their ranges hold what is theirs. -/
structure Placed (bodies : List Scope) (t : SymbolTable) : Prop where
  outermost : bodies.head? = some .program
  addresses : ∀ (i : Nat) (v : Variable), t.vars[i]? = some v → v.address = i
  owners : ∀ v ∈ t.vars, 1 ≤ v.level ∧
    (v.level = 1 → v.kind = .localVariable ∧ v.owner = mainProcedure)
  distinct : (t.procs.map Procedure.key).Nodup
  deep : ∀ p ∈ t.procs, 2 ≤ p.level
  ranges : ∀ p ∈ t.procs, p.Unused ∨ p.Spans t.vars
  opened : ∀ (i : Nat) (c : Scope), bodies[i]? = some c → c.Stands (i + 1) t

namespace Placed

variable {bodies outer : List Scope} {c : Scope} {t : SymbolTable}

theorem address_mem (h : Placed bodies t) {v : Variable} (hv : v ∈ t.vars) :
    0 ≤ v.address ∧ v.address < t.vars.length := by
  obtain ⟨i, hi⟩ := List.mem_iff_getElem?.1 hv
  have hlt := (List.getElem?_eq_some_iff.1 hi).1
  rw [h.addresses i v hi]
  omega

theorem bodies_ne_nil (h : Placed bodies t) : bodies ≠ [] := by
  rintro rfl
  exact absurd h.outermost (by simp)

/-- Procedures that agree in name and level are the same entry. -/
theorem eq_of_key (h : Placed bodies t) {r r' : Nat} {p p' : Procedure}
    (hr : t.procs[r]? = some p) (hr' : t.procs[r']? = some p') (hkey : p.key = p'.key) :
    r = r' := by
  have hlt : r < (t.procs.map Procedure.key).length := by
    rw [List.length_map]
    exact (List.getElem?_eq_some_iff.1 hr).1
  refine (List.getElem?_inj hlt h.distinct).1 ?_
  rw [List.getElem?_map, List.getElem?_map, hr, hr', Option.map_some, Option.map_some, hkey]

/-- A variable has one owner. -/
theorem eq_of_owns (h : Placed bodies t) {v : Variable} {r r' : Nat} {p p' : Procedure}
    (hr : t.procs[r]? = some p) (hr' : t.procs[r']? = some p') (hown : p.Owns v)
    (hown' : p'.Owns v) : r = r' := by
  refine h.eq_of_key hr hr' ?_
  rw [Procedure.key, Procedure.key, ← hown.1, ← hown.2, ← hown'.1, ← hown'.2]

theorem innermost (h : Placed (outer ++ [c]) t) : c.Stands (outer.length + 1) t :=
  h.opened outer.length c (by simp)

/-- The procedure of the innermost body owns the variables of that body. -/
theorem record_owns (h : Placed (outer ++ [c]) t) {r : Nat} {p : Procedure} (hc : c.record = some r)
    (hp : t.procs[r]? = some p) :
    p.name = c.owner ∧ p.level = outer.length + 1 ∧ (p.first = -1 ∨ (c.start : Int) ≤ p.first) := by
  obtain ⟨q, hq, hq'⟩ := h.innermost.record r hc
  obtain rfl := Option.some.inj (hp.symm.trans hq)
  exact hq'

/-- The range of the procedure of the innermost body, once the body has got a new variable. -/
theorem spans_claim (h : Placed (outer ++ [c]) t) {r : Nat} {p : Procedure} (hc : c.record = some r)
    (hp : t.procs[r]? = some p) (name : String) (kind : VariableKind) :
    (p.claim t.vars.length).Spans (t.withVariable c name kind (outer.length + 1)).vars := by
  obtain ⟨hname, hlevel, hstart⟩ := h.record_owns hc hp
  have hown : ∃ v ∈ (t.withVariable c name kind (outer.length + 1)).vars,
      v.address = t.vars.length ∧ (p.claim t.vars.length).Owns v := by
    refine ⟨_, List.mem_append_right _ (List.mem_singleton_self _), rfl, ?_⟩
    exact ⟨hname.symm, hlevel.symm⟩
  by_cases hfirst : p.first = -1
  · -- the new variable is the first one
    have hclaim : p.claim t.vars.length =
        { p with first := t.vars.length, last := t.vars.length } := by
      rw [Procedure.claim, if_pos hfirst]
    rw [hclaim] at hown ⊢
    refine ⟨Int.natCast_nonneg _, Int.le_refl _, ?_, hown, hown, ?_⟩
    · rw [SymbolTable.length_vars_withVariable]
      exact Int.lt_succ _
    · rw [SymbolTable.forall_vars_withVariable]
      refine ⟨fun v hv hcovers => ?_, fun _ => ⟨Int.le_of_eq hlevel, fun _ => hname.symm⟩⟩
      exact absurd (h.address_mem hv).2 (Int.not_lt.2 hcovers.1)
  · have hclaim : p.claim t.vars.length = { p with last := t.vars.length } := by
      rw [Procedure.claim, if_neg hfirst]
    have hspans : p.Spans t.vars :=
      (h.ranges p (List.mem_of_getElem? hp)).resolve_left fun hunused => hfirst hunused.1
    obtain ⟨v, hv, hfirstv, hownv⟩ := hspans.first_own
    have hle := hspans.first_le_last
    have hlt := hspans.last_lt
    rw [hclaim] at hown ⊢
    refine ⟨hspans.first_nonneg, by dsimp only; omega, ?_,
      ⟨v, List.mem_append_left _ hv, hfirstv, hownv⟩, hown, ?_⟩
    · rw [SymbolTable.length_vars_withVariable]
      exact Int.lt_succ _
    · rw [SymbolTable.forall_vars_withVariable]
      refine ⟨fun w hw hcovers => ?_, fun _ => ⟨Int.le_of_eq hlevel, fun _ => hname.symm⟩⟩
      have hsince := h.innermost.since w hw
        (Int.le_trans (hstart.resolve_left hfirst) hcovers.1)
      dsimp only
      rw [hlevel, hname]
      exact hsince

/-- The innermost body gets a new variable. -/
theorem declare (h : Placed (outer ++ [c]) t) (name : String) {kind : VariableKind}
    (hkind : outer = [] → kind = .localVariable) :
    Placed (outer ++ [c]) (t.withVariable c name kind (outer.length + 1)) where
  outermost := h.outermost
  addresses i v hv := by
    rw [SymbolTable.vars_withVariable] at hv
    rcases getElem?_concat_cases hv with hv | ⟨rfl, rfl⟩
    · exact h.addresses i v hv
    · rfl
  owners := by
    rw [SymbolTable.forall_vars_withVariable]
    refine ⟨h.owners, by simp only [SymbolTable.nextVariable]; omega, fun hlevel => ?_⟩
    have houter : outer = [] := by
      simp only [SymbolTable.nextVariable] at hlevel
      exact List.length_eq_zero_iff.1 (by omega)
    have hmain : c = .program := by simpa [houter] using h.outermost
    exact ⟨hkind houter, congrArg Scope.owner hmain⟩
  distinct := by
    rw [SymbolTable.map_key_withVariable]
    exact h.distinct
  deep p' hp' := by
    obtain ⟨r, p, hp, rfl⟩ := SymbolTable.mem_procs_withVariable hp'
    have hdeep := h.deep p (List.mem_of_getElem? hp)
    split
    · exact hdeep
    · exact hdeep
  ranges p' hp' := by
    obtain ⟨r, p, hp, rfl⟩ := SymbolTable.mem_procs_withVariable hp'
    split
    · next hc => exact Or.inr (h.spans_claim hc hp name kind)
    · exact (h.ranges p (List.mem_of_getElem? hp)).imp_right fun hspans => hspans.concat rfl
  opened i c' hc' := by
    have hstands := h.opened i c' hc'
    have hi := (List.getElem?_eq_some_iff.1 hc').1
    rw [List.length_append, List.length_singleton] at hi
    refine ⟨?_, ?_, fun r hr => ?_⟩
    · have := hstands.start_le
      rw [SymbolTable.length_vars_withVariable]
      omega
    · rw [SymbolTable.forall_vars_withVariable]
      simp only [SymbolTable.nextVariable]
      refine ⟨hstands.since, fun _ => ⟨by omega, fun hlevel => ?_⟩⟩
      -- a body at the level of the new variable is the innermost one
      have hinner : i = outer.length := by omega
      obtain rfl : c = c' := by simpa [hinner] using hc'
      rfl
    · obtain ⟨p, hp, hname, hlevel, hfirst⟩ := hstands.record r hr
      rw [SymbolTable.getElem?_procs_withVariable, hp, Option.map_some]
      refine ⟨_, rfl, ?_⟩
      split
      · refine ⟨hname, hlevel, Or.inr ?_⟩
        have := hstands.start_le
        simp only [Procedure.claim]
        split <;> omega
      · exact ⟨hname, hlevel, hfirst⟩

/-- A body that is opened knows of nothing declared since. -/
theorem stands_new (h : Placed bodies t) (procs : List Procedure) {c : Scope} {level : Int}
    (hstart : c.start = t.vars.length)
    (hrecord : ∀ r, c.record = some r → ∃ p, procs[r]? = some p ∧ p.name = c.owner ∧
      p.level = level ∧ p.first = -1) : c.Stands level { t with procs } where
  start_le := Nat.le_of_eq hstart
  since v hv hle := by
    have := (h.address_mem hv).2
    omega
  record r hr := by
    obtain ⟨p, hp, hname, hlevel, hfirst⟩ := hrecord r hr
    exact ⟨p, hp, hname, hlevel, Or.inl hfirst⟩

/-- A scope without a record is opened. -/
theorem openScope (h : Placed bodies t) (owner : String) :
    Placed (bodies ++ [.after t owner none]) t where
  outermost := by
    rw [List.head?_append_of_ne_nil _ h.bodies_ne_nil]
    exact h.outermost
  addresses := h.addresses
  owners := h.owners
  distinct := h.distinct
  deep := h.deep
  ranges := h.ranges
  opened i c hc := by
    rcases getElem?_concat_cases hc with hc | ⟨rfl, rfl⟩
    · exact h.opened i c hc
    · exact h.stands_new t.procs rfl fun r hr => by cases hr

/-- A procedure is declared, and a scope is opened for its declarations. -/
theorem openProcedure (h : Placed bodies t) {name : String}
    (hnew : ¬ t.HasBody name (bodies.length + 1)) :
    Placed (bodies ++ [.after t name (some t.procs.length)])
      (t.withProcedure name (bodies.length + 1)) where
  outermost := by
    rw [List.head?_append_of_ne_nil _ h.bodies_ne_nil]
    exact h.outermost
  addresses := h.addresses
  owners := h.owners
  distinct := by
    rw [SymbolTable.hasBody_iff_mem_key] at hnew
    rw [SymbolTable.withProcedure, List.map_append, List.nodup_append]
    refine ⟨h.distinct, List.nodup_singleton _, ?_⟩
    rintro a ha b hb rfl
    obtain rfl : a = (name, (bodies.length : Int) + 1) := List.mem_singleton.1 hb
    exact hnew ha
  deep := by
    refine List.forall_mem_append.2 ⟨h.deep, List.forall_mem_singleton.2 ?_⟩
    have := List.length_pos_of_ne_nil h.bodies_ne_nil
    dsimp only
    omega
  ranges := List.forall_mem_append.2 ⟨h.ranges, List.forall_mem_singleton.2 (Or.inl ⟨rfl, rfl⟩)⟩
  opened i c hc := by
    rcases getElem?_concat_cases hc with hc | ⟨rfl, rfl⟩
    · obtain ⟨hstart, hsince, hrecord⟩ := h.opened i c hc
      refine ⟨hstart, hsince, fun r hr => ?_⟩
      obtain ⟨p, hp, hp'⟩ := hrecord r hr
      exact ⟨p, getElem?_append_of_some hp _, hp'⟩
    · refine h.stands_new _ rfl fun r hr => ?_
      obtain rfl := Option.some.inj hr
      exact ⟨_, List.getElem?_concat_length, rfl, rfl, rfl⟩

/-- The innermost body is closed. -/
theorem close (h : Placed (outer ++ [c]) t) (houter : outer ≠ []) : Placed outer t where
  outermost := by
    have hhead : (outer ++ [c]).head? = outer.head? := List.head?_append_of_ne_nil outer houter
    exact hhead.symm.trans h.outermost
  addresses := h.addresses
  owners := h.owners
  distinct := h.distinct
  deep := h.deep
  ranges := h.ranges
  opened i c' hc' := h.opened i c' (getElem?_append_of_some hc' [c])

end Placed

/-! ## Along a parse -/

/-- How many functions are open around the innermost scope, or are to be opened there. -/
def Stage.depth : Stage → Nat
  | .body d | .named d | .headed d | .left d => d

/-- How many scopes are open around the innermost one. -/
def Stage.enclosing : Stage → Nat
  | .body d => d
  | .named d | .headed d | .left d => d + 1

/-- The open bodies, from the outside in. -/
def View.bodies (v : View) : List Scope :=
  v.enclosing.reverse ++ [v.scope]

/-- A property of the lexemes ahead, the open bodies and what is declared, kept stage by stage as
long as the bodies and what is declared fit together. -/
structure Upheld (strict : Prop)
    (R : Stage → List Lexeme → List Scope → SymbolTable → Prop) : Prop where
  pass : ∀ {a ls bodies t}, R a ls bodies t → R a ls.tail bodies t
  newVariable : ∀ {d ls outer c t}, Placed (outer ++ [c]) t → R (.body d) ls (outer ++ [c]) t →
    outer.length = d → ∀ name, R (.body d) ls (outer ++ [c])
      (t.withVariable c name .localVariable (outer.length + 1))
  newParameter : ∀ {d ls outer c t}, Placed (outer ++ [c]) t → R (.named d) ls (outer ++ [c]) t →
    outer.length = d + 1 → ∀ name, R (.headed d) ls (outer ++ [c])
      (t.withVariable c name .parameter (outer.length + 1))
  noParameter : ∀ {d ls bodies t}, ¬ strict → R (.named d) ls bodies t → R (.headed d) ls bodies t
  newFunction : ∀ {d x ls bodies t}, Placed bodies t → R (.body d) (x :: ls) bodies t →
    bodies.length = d + 1 → x.kind = .identifier → ¬ t.HasBody x.text (bodies.length + 1) →
    R (.named d) ls (bodies ++ [.after t x.text (some t.procs.length)])
      (t.withProcedure x.text (bodies.length + 1))
  noFunction : ∀ {d ls bodies t owner}, ¬ strict → Placed bodies t → R (.body d) ls bodies t →
    bodies.length = d + 1 → (∀ x ∈ ls.head?, x.text = owner) →
    (∀ x ∈ ls.head?, x.kind = .identifier → t.HasBody x.text (bodies.length + 1)) →
    R (.named d) ls.tail (bodies ++ [.after t owner none]) t
  enter : ∀ {d ls bodies t}, R (.headed d) ls bodies t → R (.body (d + 1)) ls bodies t
  leave : ∀ {d ls bodies t}, R (.body (d + 1)) ls bodies t → R (.left d) ls bodies t
  close : ∀ {d ls outer c t}, R (.left d) ls (outer ++ [c]) t → R (.body d) ls outer t

/-- The level and the open bodies are those of a stage, and what is declared fits them. -/
structure View.Fits (R : Stage → List Lexeme → List Scope → SymbolTable → Prop) (a : Stage)
    (v : View) : Prop where
  level : v.level = a.depth + 1
  count : v.enclosing.length = a.enclosing
  placed : Placed v.bodies v.symbols
  upheld : R a v.unread v.bodies v.symbols

theorem View.length_bodies (v : View) : v.bodies.length = v.enclosing.length + 1 := by
  simp [bodies]

theorem View.bodies_openScope (v : View) (owner : String) (record : Option Nat) :
    (v.openScope owner record).bodies = v.bodies ++ [.after v.symbols owner record] := by
  simp [bodies, openScope]

theorem View.unread_eq_of_sees {v : View} (h : v.sees .identifier = true) :
    ∃ ls, v.unread = v.head :: ls ∧ v.head.kind = .identifier := by
  have hkind : v.head.kind = .identifier := by simpa [sees] using h
  cases hv : v.unread with
  | nil =>
    rw [head, hv] at hkind
    exact absurd hkind (by decide)
  | cons x ls => exact ⟨ls, by simp [head, hv], hkind⟩

namespace Upheld

variable {strict : Prop} {R : Stage → List Lexeme → List Scope → SymbolTable → Prop}

theorem kept (up : Upheld strict R) : Kept strict (View.Fits R) where
  pass h := ⟨h.level, h.count, h.placed, up.pass h.upheld⟩
  atDepth h _ := ⟨h.level, h.count, h.placed, h.upheld⟩
  newVariable {d v} h _ _ := by
    have hlength : v.enclosing.reverse.length = d := List.length_reverse.trans h.count
    have hlevel : v.level = (v.enclosing.reverse.length : Int) + 1 := by
      rw [hlength]
      exact h.level
    refine ⟨h.level, h.count, ?_, ?_⟩
    · simp only [hlevel]
      exact h.placed.declare _ fun _ => rfl
    · simp only [hlevel]
      exact up.newVariable h.placed h.upheld hlength _
  newParameter {d v} h _ := by
    have hlength : v.enclosing.reverse.length = d + 1 := List.length_reverse.trans h.count
    have hlevel : v.level = (v.enclosing.reverse.length : Int) := by
      rw [hlength, Int.natCast_succ]
      exact h.level
    refine ⟨h.level, h.count, ?_, ?_⟩
    · simp only [hlevel]
      refine h.placed.declare _ fun hnil => ?_
      rw [hnil] at hlength
      exact absurd hlength (by simp)
    · simp only [hlevel]
      exact up.newParameter h.placed h.upheld hlength _
  noParameter hstrict h := ⟨h.level, h.count, h.placed, up.noParameter hstrict h.upheld⟩
  newFunction {d v} h hs hnew := by
    obtain ⟨ls, hunread, hkind⟩ := View.unread_eq_of_sees hs
    have hlength : v.bodies.length = d + 1 := v.length_bodies.trans (congrArg (· + 1) h.count)
    have hlevel : v.level = (v.bodies.length : Int) := by
      rw [hlength, Int.natCast_succ]
      exact h.level
    rw [hlevel] at hnew
    have hupheld := h.upheld
    rw [hunread] at hupheld
    refine ⟨h.level, congrArg (· + 1) h.count, ?_, ?_⟩
    · rw [View.bodies_openScope, hlevel]
      exact h.placed.openProcedure hnew
    · have htail : v.pass.unread = ls := by rw [View.pass, hunread, List.tail_cons]
      rw [View.bodies_openScope, hlevel]
      simp only [View.openScope, htail]
      exact up.newFunction h.placed hupheld hlength hkind hnew
  noFunction {d v} hstrict h hold := by
    have hlength : v.bodies.length = d + 1 := v.length_bodies.trans (congrArg (· + 1) h.count)
    have hlevel : v.level = (v.bodies.length : Int) := by
      rw [hlength, Int.natCast_succ]
      exact h.level
    have hhead : ∀ x ∈ v.unread.head?, x = v.head := by
      intro x hx
      rw [View.head, Option.mem_def.1 hx]
      rfl
    refine ⟨h.level, congrArg (· + 1) h.count, ?_, ?_⟩
    · rw [View.bodies_openScope]
      exact h.placed.openScope _
    · rw [View.bodies_openScope]
      refine up.noFunction hstrict h.placed h.upheld hlength ?_ ?_
      · exact fun x hx => congrArg Lexeme.text (hhead x hx)
      · intro x hx hkind
        obtain rfl := hhead x hx
        rw [hlevel] at hold
        exact hold (by simp [View.sees, hkind])
  enter {d v} h := by
    refine ⟨?_, h.count, h.placed, up.enter h.upheld⟩
    have := h.level
    simp only [Stage.depth] at *
    omega
  leave {d v} h := by
    refine ⟨?_, h.count, h.placed, up.leave h.upheld⟩
    have := h.level
    simp only [Stage.depth] at *
    omega
  close {d v} h := by
    have hcount := h.count
    have hplaced := h.placed
    have hupheld := h.upheld
    rw [View.closeScope]
    cases hv : v.enclosing with
    | nil =>
      rw [hv] at hcount
      exact absurd hcount (by simp [Stage.enclosing])
    | cons outer rest =>
      have hbodies : v.bodies = (rest.reverse ++ [outer]) ++ [v.scope] := by
        rw [View.bodies, hv, List.reverse_cons]
      rw [hv] at hcount
      rw [hbodies] at hplaced hupheld
      exact ⟨h.level, Nat.succ.inj hcount, hplaced.close (by simp), up.close hupheld⟩

end Upheld

/-! ## Where a parse begins -/

theorem open_start {i : Nat} {c : Scope} (h : [Scope.program][i]? = some c) :
    i = 0 ∧ c = .program := by
  rw [List.getElem?_singleton] at h
  split at h
  · next hi => exact ⟨hi, (Option.some.inj h).symm⟩
  · cases h

theorem placed_start : Placed [.program] {} where
  outermost := rfl
  addresses _ _ hv := by simp at hv
  owners := List.forall_mem_nil _
  distinct := List.nodup_nil
  deep := List.forall_mem_nil _
  ranges := List.forall_mem_nil _
  opened i c hc := by
    obtain ⟨rfl, rfl⟩ := open_start hc
    exact ⟨Nat.le_refl _, List.forall_mem_nil _, fun r hr => by cases hr⟩

theorem fits_start {R : Stage → List Lexeme → List Scope → SymbolTable → Prop}
    {tokens : List Token} (h : R (.body 0) (lexemes tokens) [.program] {}) :
    View.Fits R (.body 0) (State.ofTokens tokens).view :=
  ⟨rfl, rfl, placed_start, h⟩

theorem upheld_trivial : Upheld False fun _ _ _ _ => True where
  pass _ := trivial
  newVariable _ _ _ _ := trivial
  newParameter _ _ _ _ := trivial
  noParameter _ _ := trivial
  newFunction _ _ _ _ _ := trivial
  noFunction _ _ _ _ _ _ := trivial
  enter _ := trivial
  leave _ := trivial
  close _ := trivial

end Parser

end PocketPascal
