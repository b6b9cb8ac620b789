import PocketPascal.Proofs.MaximalMunch
import PocketPascal.Proofs.Ownership

/-! # Address ranges describe ownership

The range of a procedure starts with the first variable of its own and ends with the last one, and
stays as it is once the body of the procedure is left. In a parse without errors the ranges tell of
every variable whose it is.
-/

namespace PocketPascal

namespace Parser

variable {ls : List Lexeme} {bodies outer : List Scope} {c : Scope} {t : SymbolTable}

/-! ## Ranges start with the first variable of their own -/

/-- A lexeme that is no identifier is spelled like no identifier after it. -/
def Distinguishes (ls : List Lexeme) : Prop :=
  ls.Pairwise fun a b => a.kind ≠ .identifier → b.kind = .identifier → b.text ≠ a.text

/-- No identifier ahead is spelled like this. -/
def Spent (ls : List Lexeme) (name : String) : Prop :=
  ∀ b ∈ ls, b.kind = .identifier → b.text ≠ name

theorem Spent.tail {name : String} (h : Spent ls name) : Spent ls.tail name :=
  fun b hb => h b (List.mem_of_mem_tail hb)

/-- Whatever owns a variable is a procedure, or nothing that could still be declared as one. So a
procedure finds no variable of its own when it is declared, and claims the first one. -/
structure Earliest (ls : List Lexeme) (bodies : List Scope) (t : SymbolTable) : Prop where
  distinguishes : Distinguishes ls
  scopes : ∀ (i : Nat) (c : Scope), bodies[i]? = some c → 0 < i →
    t.HasBody c.owner (i + 1) ∨ Spent ls c.owner
  vars : ∀ v ∈ t.vars, 2 ≤ v.level → t.HasBody v.owner v.level ∨ Spent ls v.owner
  first_le : ∀ p ∈ t.procs, p.first ≠ -1 → ∀ v ∈ t.vars, p.Owns v → p.first ≤ v.address
  unclaimed : ∀ (i r : Nat) (c : Scope) (p : Procedure), bodies[i]? = some c →
    c.record = some r → t.procs[r]? = some p → p.first = -1 → ∀ v ∈ t.vars, ¬ p.Owns v

namespace Earliest

theorem pass (h : Earliest ls bodies t) : Earliest ls.tail bodies t where
  distinguishes := h.distinguishes.tail
  scopes i c hc hi := (h.scopes i c hc hi).imp_right Spent.tail
  vars v hv hlevel := (h.vars v hv hlevel).imp_right Spent.tail
  first_le := h.first_le
  unclaimed := h.unclaimed

theorem declare (hp : Placed (outer ++ [c]) t) (h : Earliest ls (outer ++ [c]) t) (name : String)
    (kind : VariableKind) :
    Earliest ls (outer ++ [c]) (t.withVariable c name kind (outer.length + 1)) where
  distinguishes := h.distinguishes
  scopes i c' hc' hi := by
    rw [SymbolTable.hasBody_withVariable]
    exact h.scopes i c' hc' hi
  vars := by
    simp only [SymbolTable.forall_vars_withVariable, SymbolTable.hasBody_withVariable]
    refine ⟨h.vars, fun hlevel => h.scopes outer.length c (by simp) ?_⟩
    simp only [SymbolTable.nextVariable] at hlevel
    omega
  first_le p' hp' hfirst := by
    obtain ⟨r, p, hr, rfl⟩ := SymbolTable.mem_procs_withVariable hp'
    have hspans : p.first ≠ -1 → p.first ≤ t.vars.length := by
      intro hfirst
      have hspans := (hp.ranges p (List.mem_of_getElem? hr)).resolve_left fun hu => hfirst hu.1
      have := hspans.first_le_last
      have := hspans.last_lt
      omega
    rw [SymbolTable.forall_vars_withVariable]
    by_cases hc : c.record = some r
    · rw [if_pos hc]
      by_cases hnone : p.first = -1
      · -- nothing is the procedure's own but the new variable
        have hclaim : (p.claim t.vars.length).first = t.vars.length := if_pos hnone
        rw [hclaim]
        refine ⟨fun v hv hown => ?_, fun _ => Int.le_refl _⟩
        exact absurd hown (h.unclaimed outer.length r c p (by simp) hc hr hnone v hv)
      · have hclaim : (p.claim t.vars.length).first = p.first := if_neg hnone
        rw [hclaim]
        exact ⟨h.first_le p (List.mem_of_getElem? hr) hnone, fun _ => hspans hnone⟩
    · rw [if_neg hc] at hfirst ⊢
      exact ⟨h.first_le p (List.mem_of_getElem? hr) hfirst, fun _ => hspans hfirst⟩
  unclaimed i r c' p' hc' hrecord hr := by
    rw [SymbolTable.getElem?_procs_withVariable, Option.map_eq_some_iff] at hr
    obtain ⟨p, hr, rfl⟩ := hr
    intro hfirst
    by_cases hc : c.record = some r
    · -- what has claimed an address has a first one
      rw [if_pos hc, Procedure.claim] at hfirst
      dsimp only at hfirst
      split at hfirst <;> omega
    · rw [if_neg hc] at hfirst ⊢
      rw [SymbolTable.forall_vars_withVariable]
      refine ⟨h.unclaimed i r c' p hc' hrecord hr hfirst, fun hown => hc ?_⟩
      -- the body of the new variable is the only one at its level
      obtain ⟨q, hq, -, hlevel, -⟩ := (hp.opened i c' hc').record r hrecord
      obtain rfl := Option.some.inj (hr.symm.trans hq)
      have hi : i = outer.length := by
        have := hown.2
        simp only [SymbolTable.nextVariable] at this
        omega
      obtain rfl : c = c' := by simpa [hi] using hc'
      exact hrecord

theorem openScope (h : Earliest ls bodies t) {owner : String} (hx : ∀ x ∈ ls.head?, x.text = owner)
    (hold : ∀ x ∈ ls.head?, x.kind = .identifier → t.HasBody x.text (bodies.length + 1)) :
    Earliest ls.tail (bodies ++ [.after t owner none]) t where
  distinguishes := h.distinguishes.tail
  scopes i c hc hi := by
    rcases getElem?_concat_cases hc with hc | ⟨rfl, rfl⟩
    · exact (h.scopes i c hc hi).imp_right Spent.tail
    · cases ls with
      | nil => exact Or.inr fun b hb => absurd hb List.not_mem_nil
      | cons x ls =>
        obtain rfl := hx x rfl
        by_cases hkind : x.kind = .identifier
        · exact Or.inl (hold x rfl hkind)
        · exact Or.inr fun b hb hb' => (List.pairwise_cons.1 h.distinguishes).1 b hb hkind hb'
  vars v hv hlevel := (h.vars v hv hlevel).imp_right Spent.tail
  first_le := h.first_le
  unclaimed i r c p hc hrecord := by
    rcases getElem?_concat_cases hc with hc | ⟨rfl, rfl⟩
    · exact h.unclaimed i r c p hc hrecord
    · cases hrecord

theorem openProcedure {x : Lexeme} (hp : Placed bodies t) (h : Earliest (x :: ls) bodies t)
    (hx : x.kind = .identifier) (hnew : ¬ t.HasBody x.text (bodies.length + 1)) :
    Earliest ls (bodies ++ [.after t x.text (some t.procs.length)])
      (t.withProcedure x.text (bodies.length + 1)) where
  distinguishes := h.distinguishes.tail
  scopes i c hc hi := by
    rcases getElem?_concat_cases hc with hc | ⟨rfl, rfl⟩
    · exact (h.scopes i c hc hi).imp SymbolTable.HasBody.withProcedure Spent.tail
    · exact Or.inl SymbolTable.hasBody_withProcedure_self
  vars v hv hlevel := (h.vars v hv hlevel).imp SymbolTable.HasBody.withProcedure Spent.tail
  first_le := List.forall_mem_append.2
    ⟨h.first_le, List.forall_mem_singleton.2 fun hfirst => absurd rfl hfirst⟩
  unclaimed i r c p hc hrecord hr hfirst v hv hown := by
    rcases getElem?_concat_cases hc with hc | ⟨rfl, rfl⟩
    · obtain ⟨q, hq, -⟩ := (hp.opened i c hc).record r hrecord
      have hr' := getElem?_append_of_some hq [{ name := x.text, level := bodies.length + 1 }]
      obtain rfl := Option.some.inj (hr.symm.trans hr')
      exact h.unclaimed i r c p hc hrecord hq hfirst v hv hown
    · obtain rfl := Option.some.inj hrecord
      rw [SymbolTable.withProcedure, List.getElem?_concat_length] at hr
      obtain rfl := Option.some.inj hr
      -- a variable of that owner would make the name one of a procedure, or one not ahead
      have hlength := List.length_pos_of_ne_nil hp.bodies_ne_nil
      have hlevel : v.level = (bodies.length : Int) + 1 := hown.2
      rcases h.vars v hv (by omega) with hbody | hspent
      · rw [hlevel, hown.1] at hbody
        exact hnew hbody
      · exact hspent x List.mem_cons_self hx hown.1.symm

/-- The innermost body is closed. -/
theorem close (h : Earliest ls (outer ++ [c]) t) : Earliest ls outer t where
  distinguishes := h.distinguishes
  scopes i c' hc' := h.scopes i c' (getElem?_append_of_some hc' [c])
  vars := h.vars
  first_le := h.first_le
  unclaimed i r c' p hc' := h.unclaimed i r c' p (getElem?_append_of_some hc' [c])

end Earliest

theorem earliest_start (h : Distinguishes ls) : Earliest ls [.program] {} where
  distinguishes := h
  scopes i c hc hi := by
    obtain ⟨rfl, rfl⟩ := open_start hc
    exact absurd hi (Nat.lt_irrefl 0)
  vars := List.forall_mem_nil _
  first_le := List.forall_mem_nil _
  unclaimed _ _ _ _ _ _ hr := by simp at hr

theorem earliest_upheld : Upheld False fun _ ls bodies t => Earliest ls bodies t where
  pass h := h.pass
  newVariable hp h _ name := h.declare hp name _
  newParameter hp h _ name := h.declare hp name _
  noParameter _ h := h
  newFunction hp h _ hx hnew := h.openProcedure hp hx hnew
  noFunction _ _ h _ hx hold := h.openScope hx hold
  enter h := h
  leave h := h
  close h := h.close

/-! ## Ranges are complete where nothing is complained about -/

/-- The procedure that has been named last, as long as it has no parameter yet. -/
def Stage.pending : Stage → List Scope → Option Nat
  | .named _, bodies => bodies.getLast?.bind Scope.record
  | _, _ => none

theorem Stage.pending_named (d : Nat) (outer : List Scope) (c : Scope) :
    (Stage.named d).pending (outer ++ [c]) = c.record := by
  rw [pending, List.getLast?_concat, Option.bind_some]

/-- Every body but the outermost is that of a procedure, every variable below the program body lies
in the range of the procedure that owns it, and every procedure has one parameter, which comes
first, but for the procedure whose parameter is pending. -/
structure Complete (pending : Option Nat) (bodies : List Scope) (t : SymbolTable) : Prop where
  recorded : ∀ (i : Nat) (c : Scope), bodies[i]? = some c → 0 < i → ∃ r, c.record = some r
  covered : ∀ v ∈ t.vars, 2 ≤ v.level → ∃ p ∈ t.procs, p.Owns v ∧ p.Covers v.address
  unclaimed : ∀ (r : Nat) (p : Procedure), t.procs[r]? = some p → pending = some r → p.first = -1
  parameter : ∀ (r : Nat) (p : Procedure), t.procs[r]? = some p → pending ≠ some r →
    ∃ v ∈ t.vars, v.kind = .parameter ∧ p.Owns v ∧ v.address = p.first
  only : ∀ p ∈ t.procs, ∀ v ∈ t.vars, v.kind = .parameter → p.Owns v → v.address = p.first

/-- A range keeps its beginning. -/
theorem first_claim_of_ne {p : Procedure} {a : Int} (h : p.first ≠ -1) :
    (p.claim a).first = p.first :=
  if_neg h

theorem first_claim_of_eq {p : Procedure} {a : Int} (h : p.first = -1) : (p.claim a).first = a :=
  if_pos h

/-- A procedure whose range starts with a variable has a range. -/
theorem Placed.first_ne (hp : Placed bodies t) {p : Procedure} {v : Variable} (hv : v ∈ t.vars)
    (hfirst : v.address = p.first) : p.first ≠ -1 := by
  have := (hp.address_mem hv).1
  omega

/-- A procedure that covers an address has a range. -/
theorem Placed.spans_of_covers (hp : Placed bodies t) {p : Procedure} (hmem : p ∈ t.procs)
    {v : Variable} (hv : v ∈ t.vars) (hcovers : p.Covers v.address) : p.Spans t.vars := by
  refine (hp.ranges p hmem).resolve_left fun hunused => ?_
  have := (hp.address_mem hv).1
  have := hcovers.2
  have := hunused.2
  omega

namespace Complete

variable {pending : Option Nat}

/-- A new variable of the innermost body lies in the range of its procedure, and the others still
lie in theirs. -/
theorem covered_declare (hp : Placed (outer ++ [c]) t) (h : Complete pending (outer ++ [c]) t)
    (name : String) (kind : VariableKind) :
    ∀ v ∈ (t.withVariable c name kind (outer.length + 1)).vars, 2 ≤ v.level →
      ∃ p ∈ (t.withVariable c name kind (outer.length + 1)).procs,
        p.Owns v ∧ p.Covers v.address := by
  rw [SymbolTable.forall_vars_withVariable]
  constructor
  · intro v hv hlevel
    obtain ⟨p, hmem, hown, hcovers⟩ := h.covered v hv hlevel
    have hspans := hp.spans_of_covers hmem hv hcovers
    obtain ⟨r, hr⟩ := List.mem_iff_getElem?.1 hmem
    have hr' := SymbolTable.getElem?_procs_withVariable t c name kind (outer.length + 1) r
    rw [hr, Option.map_some] at hr'
    refine ⟨_, List.mem_of_getElem? hr', ?_⟩
    split
    · have hfirst : p.first ≠ -1 := by
        have := hspans.first_nonneg
        omega
      refine ⟨hown, ?_, Int.le_of_lt (hp.address_mem hv).2⟩
      rw [first_claim_of_ne hfirst]
      exact hcovers.1
    · exact ⟨hown, hcovers⟩
  · intro hlevel
    have hi : 0 < outer.length := by
      simp only [SymbolTable.nextVariable] at hlevel
      omega
    obtain ⟨r, hc⟩ := h.recorded outer.length c (by simp) hi
    obtain ⟨p, hr, hname, hlevel', -⟩ := hp.innermost.record r hc
    have hr' := SymbolTable.getElem?_procs_withVariable t c name kind (outer.length + 1) r
    rw [hr, Option.map_some, if_pos hc] at hr'
    exact ⟨_, List.mem_of_getElem? hr', ⟨hname.symm, hlevel'.symm⟩,
      (hp.spans_claim hc hr name kind).first_le_last, Int.le_refl _⟩

/-- The innermost body gets a new local. -/
theorem declareLocal (hp : Placed (outer ++ [c]) t) (h : Complete none (outer ++ [c]) t)
    (name : String) :
    Complete none (outer ++ [c]) (t.withVariable c name .localVariable (outer.length + 1)) where
  recorded := h.recorded
  covered := h.covered_declare hp name _
  unclaimed _ _ _ hpending := by cases hpending
  parameter r p' hr' _ := by
    rw [SymbolTable.getElem?_procs_withVariable, Option.map_eq_some_iff] at hr'
    obtain ⟨p, hr, rfl⟩ := hr'
    obtain ⟨v, hv, hkind, hown, hfirst⟩ := h.parameter r p hr (by simp)
    have hne := hp.first_ne hv hfirst
    refine ⟨v, List.mem_append_left _ hv, hkind, ?_⟩
    split
    · exact ⟨hown, hfirst.trans (first_claim_of_ne hne).symm⟩
    · exact ⟨hown, hfirst⟩
  only p' hp' := by
    obtain ⟨r, p, hr, rfl⟩ := SymbolTable.mem_procs_withVariable hp'
    rw [SymbolTable.forall_vars_withVariable]
    refine ⟨fun v hv hkind hown => ?_, fun hkind => by cases hkind⟩
    have hown' : p.Owns v := by
      split at hown <;> exact hown
    have hfirst := h.only p (List.mem_of_getElem? hr) v hv hkind hown'
    have hne := hp.first_ne hv hfirst
    split
    · exact hfirst.trans (first_claim_of_ne hne).symm
    · exact hfirst

/-- A procedure that owns a variable covers its address. -/
theorem covers_of_owns (hp : Placed bodies t) (h : Complete pending bodies t) {v : Variable}
    (hv : v ∈ t.vars) {r : Nat} {p : Procedure} (hr : t.procs[r]? = some p) (hown : p.Owns v) :
    p.Covers v.address := by
  have hdeep := hp.deep p (List.mem_of_getElem? hr)
  obtain ⟨p', hmem, hown', hcovers⟩ := h.covered v hv (hown.2 ▸ hdeep)
  obtain ⟨r', hr'⟩ := List.mem_iff_getElem?.1 hmem
  obtain rfl := hp.eq_of_owns hr' hr hown' hown
  obtain rfl := Option.some.inj (hr.symm.trans hr')
  exact hcovers

/-- A procedure whose parameter is pending owns no variable. -/
theorem not_owns_of_pending (hp : Placed bodies t) (h : Complete pending bodies t) {r : Nat}
    {p : Procedure} (hr : t.procs[r]? = some p) (hpending : pending = some r) {v : Variable}
    (hv : v ∈ t.vars) : ¬ p.Owns v := by
  intro hown
  have hcovers := h.covers_of_owns hp hv hr hown
  have hfirst := (hp.spans_of_covers (List.mem_of_getElem? hr) hv hcovers).first_nonneg
  have := h.unclaimed r p hr hpending
  omega

/-- The procedure that was named last gets its parameter. -/
theorem declareParameter (hp : Placed (outer ++ [c]) t)
    (h : Complete c.record (outer ++ [c]) t) (houter : 0 < outer.length) (name : String) :
    Complete none (outer ++ [c]) (t.withVariable c name .parameter (outer.length + 1)) := by
  obtain ⟨r₀, hc⟩ := h.recorded outer.length c (by simp) houter
  obtain ⟨p₀, hr₀, hname, hlevel, -⟩ := hp.innermost.record r₀ hc
  have hfirst := h.unclaimed r₀ p₀ hr₀ hc
  refine ⟨h.recorded, h.covered_declare hp name _, (fun _ _ _ hpending => by cases hpending), ?_,
    ?_⟩
  · intro r p' hr' _
    rw [SymbolTable.getElem?_procs_withVariable, Option.map_eq_some_iff] at hr'
    obtain ⟨p, hr, rfl⟩ := hr'
    by_cases hrecord : c.record = some r
    · obtain rfl : r₀ = r := Option.some.inj (hc.symm.trans hrecord)
      obtain rfl := Option.some.inj (hr₀.symm.trans hr)
      rw [if_pos hrecord]
      exact ⟨_, List.mem_append_right _ (List.mem_singleton_self _), rfl,
        ⟨hname.symm, hlevel.symm⟩, (first_claim_of_eq hfirst).symm⟩
    · obtain ⟨v, hv, hv'⟩ := h.parameter r p hr hrecord
      rw [if_neg hrecord]
      exact ⟨v, List.mem_append_left _ hv, hv'⟩
  · intro p' hp'
    obtain ⟨r, p, hr, rfl⟩ := SymbolTable.mem_procs_withVariable hp'
    rw [SymbolTable.forall_vars_withVariable]
    by_cases hrecord : c.record = some r
    · obtain rfl : r₀ = r := Option.some.inj (hc.symm.trans hrecord)
      obtain rfl := Option.some.inj (hr₀.symm.trans hr)
      rw [if_pos hrecord]
      refine ⟨fun v hv _ hown => ?_, fun _ _ => (first_claim_of_eq hfirst).symm⟩
      exact absurd hown (h.not_owns_of_pending hp hr hrecord hv)
    · rw [if_neg hrecord]
      refine ⟨h.only p (List.mem_of_getElem? hr), fun _ hown => ?_⟩
      -- the new variable belongs to the procedure named last
      have hkey : p₀.key = p.key := by
        rw [Procedure.key, Procedure.key, hname, hlevel, ← hown.1, ← hown.2]
        rfl
      exact absurd (hp.eq_of_key hr₀ hr hkey ▸ hc) hrecord

/-- A procedure is declared, whose parameter is pending then. -/
theorem openProcedure (hp : Placed bodies t) (h : Complete none bodies t) {name : String}
    (hnew : ¬ t.HasBody name (bodies.length + 1)) :
    Complete (some t.procs.length) (bodies ++ [.after t name (some t.procs.length)])
      (t.withProcedure name (bodies.length + 1)) := by
  refine ⟨?_, ?_, ?_, ?_, ?_⟩
  · intro i c hc hi
    rcases getElem?_concat_cases hc with hc | ⟨rfl, rfl⟩
    · exact h.recorded i c hc hi
    · exact ⟨_, rfl⟩
  · intro v hv hlevel
    obtain ⟨p, hmem, hp'⟩ := h.covered v hv hlevel
    exact ⟨p, List.mem_append_left _ hmem, hp'⟩
  · intro r p hr hpending
    obtain rfl := Option.some.inj hpending
    rw [SymbolTable.withProcedure, List.getElem?_concat_length] at hr
    exact (Option.some.inj hr) ▸ rfl
  · intro r p hr hne
    rcases getElem?_concat_cases hr with hr | ⟨rfl, -⟩
    · exact h.parameter r p hr (by simp)
    · exact absurd rfl hne
  · refine List.forall_mem_append.2 ⟨h.only, List.forall_mem_singleton.2 fun v hv _ hown => ?_⟩
    -- a variable of the new procedure would lie in the range of one of its name and level
    have hlength := List.length_pos_of_ne_nil hp.bodies_ne_nil
    have hlevel : v.level = (bodies.length : Int) + 1 := hown.2
    obtain ⟨p, hmem, hown', -⟩ := h.covered v hv (by omega)
    exact absurd ⟨p, hmem, hown'.1.symm.trans hown.1, hown'.2.symm.trans hlevel⟩ hnew

/-- The innermost body is closed. -/
theorem close (h : Complete none (outer ++ [c]) t) : Complete none outer t where
  recorded i c' hc' := h.recorded i c' (getElem?_append_of_some hc' [c])
  covered := h.covered
  unclaimed := h.unclaimed
  parameter := h.parameter
  only := h.only

end Complete

theorem complete_start : Complete none [.program] {} where
  recorded i c hc hi := by
    obtain ⟨rfl, rfl⟩ := open_start hc
    exact absurd hi (Nat.lt_irrefl 0)
  covered := List.forall_mem_nil _
  unclaimed _ _ hr := by simp at hr
  parameter _ _ hr := by simp at hr
  only := List.forall_mem_nil _

theorem complete_upheld :
    Upheld True fun a _ bodies t => Complete (a.pending bodies) bodies t where
  pass h := h
  newVariable hp h _ name := h.declareLocal hp name
  newParameter hp h hlength name := by
    rw [Stage.pending_named] at h
    exact h.declareParameter hp (by omega) name
  noParameter hstrict _ := absurd trivial hstrict
  newFunction hp h _ _ hnew := by
    rw [Stage.pending_named]
    exact h.openProcedure hp hnew
  noFunction hstrict := absurd trivial hstrict
  enter h := h
  leave h := h
  close h := h.close

/-! ## Ranges stay as they are once a body is left -/

/-- A procedure of which no body is open, or only the one that is just left. -/
structure Sealed (r : Nat) (p : Procedure) (a : Stage) (bodies : List Scope) (t : SymbolTable) :
    Prop where
  entry : t.procs[r]? = some p
  closed : ∀ (i : Nat) (c : Scope), bodies[i]? = some c → c.record = some r →
    (∃ d, a = .left d) ∧ i + 1 = bodies.length

namespace Sealed

variable {r : Nat} {p : Procedure} {a b : Stage}

/-- A procedure of which no body is open is sealed. -/
theorem of_not_open (hr : t.procs[r]? = some p)
    (h : ∀ (i : Nat) (c : Scope), bodies[i]? = some c → c.record ≠ some r) :
    Sealed r p b bodies t :=
  ⟨hr, fun i c hc hrecord => absurd hrecord (h i c hc)⟩

theorem not_open (h : Sealed r p a bodies t) (ha : ∀ d, a ≠ .left d) (i : Nat) (c : Scope)
    (hc : bodies[i]? = some c) : c.record ≠ some r := by
  intro hrecord
  obtain ⟨d, hd⟩ := (h.closed i c hc hrecord).1
  exact ha d hd

/-- Another procedure's variable changes nothing. -/
theorem declare (h : Sealed r p a (outer ++ [c]) t) (ha : ∀ d, a ≠ .left d) (name : String)
    (kind : VariableKind) (level : Int) :
    Sealed r p b (outer ++ [c]) (t.withVariable c name kind level) := by
  refine of_not_open ?_ (h.not_open ha)
  rw [SymbolTable.getElem?_procs_withVariable, h.entry, Option.map_some,
    if_neg (h.not_open ha outer.length c (by simp))]

theorem openScope (h : Sealed r p a bodies t) (ha : ∀ d, a ≠ .left d) {c : Scope}
    {t' : SymbolTable} (hr : t'.procs[r]? = some p) (hc : c.record ≠ some r) :
    Sealed r p b (bodies ++ [c]) t' := by
  refine of_not_open hr fun i c' hc' => ?_
  rcases getElem?_concat_cases hc' with hc' | ⟨-, rfl⟩
  · exact h.not_open ha i c' hc'
  · exact hc

end Sealed

theorem sealed_upheld (r : Nat) (p : Procedure) :
    Upheld False fun a _ bodies t => Sealed r p a bodies t where
  pass h := h
  newVariable _ h _ name := h.declare (by simp) name _ _
  newParameter _ h _ name := h.declare (by simp) name _ _
  noParameter _ h := .of_not_open h.entry (h.not_open (by simp))
  newFunction {d x ls bodies t} _ h _ _ _ := by
    have hlt := (List.getElem?_eq_some_iff.1 h.entry).1
    refine h.openScope (by simp) (getElem?_append_of_some h.entry _) fun hr => ?_
    exact absurd (Option.some.inj hr) (by omega)
  noFunction _ _ h _ _ _ := h.openScope (by simp) h.entry fun hr => by cases hr
  enter h := .of_not_open h.entry (h.not_open (by simp))
  leave h := .of_not_open h.entry (h.not_open (by simp))
  close {d ls outer c t} h := by
    refine .of_not_open h.entry fun i c' hc' hrecord => ?_
    have hlast := (h.closed i c' (getElem?_append_of_some hc' [c]) hrecord).2
    have hlt := (List.getElem?_eq_some_iff.1 hc').1
    rw [List.length_append, List.length_singleton] at hlast
    omega

end Parser

/-! ## The names of a source -/

namespace Lexer

/-- A text that can only be an identifier. -/
def IsIdentifier (name : List Char) : Prop :=
  IsName name ∧ ∀ k, ¬ SpellsKeyword name k

theorem not_isName_of_spells {text : List Char} {k : Kind} (hk : k ∈ pairs ++ marks)
    (h : Spells text k) : ¬ IsName text := by
  have hhead : ∀ k ∈ pairs ++ marks, ∀ s ∈ k.spelling?, s.toList.head?.any isLetter = false := by
    decide +kernel
  rintro ⟨c, cs, rfl, hc, -⟩
  have hnot := hhead k hk _ h
  rw [String.toList_ofList, List.head?_cons, Option.any_some, hc] at hnot
  cases hnot

theorem Munches.identifier_iff {limit : Int} {text rest : List Char} {k : Kind}
    (h : Munches limit text k rest) : k = .identifier ↔ IsIdentifier text := by
  cases h with
  | keyword hname hend hk =>
    have hne : ∀ k ∈ Kind.keywords, k ≠ .identifier := by decide
    exact iff_of_false (hne k hk.1) fun hid => hid.2 k hk
  | identifier hname _ hk => exact iff_of_true rfl ⟨hname, hk⟩
  | constant hdigits =>
    refine iff_of_false (by decide) fun hid => ?_
    obtain ⟨⟨c, cs, rfl, hc, -⟩, -⟩ := hid
    rw [isLetter_of_isDigit (hdigits.2 c List.mem_cons_self)] at hc
    cases hc
  | pair hk hab =>
    have hne : ∀ k ∈ pairs, k ≠ .identifier := by decide
    exact iff_of_false (hne k hk) fun hid =>
      not_isName_of_spells (List.mem_append_left _ hk) hab hid.1
  | mark hk ha =>
    have hne : ∀ k ∈ marks, k ≠ .identifier := by decide
    exact iff_of_false (hne k hk) fun hid =>
      not_isName_of_spells (List.mem_append_right _ hk) ha hid.1

theorem Cut.identifier_iff {limit : Int} {number : Nat} {cs : List Char} {ts : List Token}
    {ds : List Diagnostic} (h : Cut limit number cs ts ds) :
    ∀ t ∈ ts, t.kind = .identifier ↔ IsIdentifier t.text.toList := by
  induction h with
  | done => exact List.forall_mem_nil _
  | space _ ih => exact ih
  | lexeme hk _ ih =>
    refine List.forall_mem_cons.2 ⟨?_, ih⟩
    rw [String.toList_ofList]
    exact hk.identifier_iff
  | error _ _ ih => exact ih

theorem mem_of_mem_lexemes {a : Lexeme} {ts : List Token} (h : a ∈ lexemes ts) :
    ∃ t ∈ ts, t.toLexeme = a := by
  obtain ⟨t, ht, rfl⟩ := List.mem_map.1 h
  exact ⟨t, List.mem_of_mem_filter ht, rfl⟩

/-- The identifiers of a source are spelled as only identifiers are, and the end of the file is the
last of its tokens. -/
theorem LexesFrom.distinguishes {limit : Int} {k : Nat} {lines : List (List Char)}
    {ts : List Token} {ds : List Diagnostic} (h : LexesFrom limit k lines ts ds) :
    Parser.Distinguishes (lexemes ts) ∧
      ∀ a ∈ lexemes ts, a.kind = .identifier → IsIdentifier a.text.toList := by
  induction h with
  | done =>
    refine ⟨List.pairwise_singleton _ _, fun a ha hkind => ?_⟩
    obtain ⟨t, ht, rfl⟩ := mem_of_mem_lexemes ha
    obtain rfl := List.mem_singleton.1 ht
    cases hkind
  | blank _ _ ih => exact ih
  | @line k line text lines ts ts' ds ds' _ _ hcut _ ih =>
    have hts : ∀ a ∈ lexemes ts, a.kind = .identifier ↔ IsIdentifier a.text.toList := by
      intro a ha
      obtain ⟨t, ht, rfl⟩ := mem_of_mem_lexemes ha
      exact hcut.identifier_iff t ht
    -- whatever stands before an identifier on its line or on an earlier one is spelled otherwise
    have hdiffer : ∀ a ∈ lexemes ts, ∀ b : Lexeme, IsIdentifier b.text.toList →
        a.kind ≠ .identifier → b.text ≠ a.text :=
      fun a ha b hb hkind htext => hkind ((hts a ha).2 (htext ▸ hb))
    rw [lexemes_append, lexemes_cons_endOfLine rfl]
    refine ⟨List.pairwise_append.2 ⟨?_, ih.1, ?_⟩, ?_⟩
    · exact List.pairwise_of_forall_mem_list fun a ha b hb hkind hkind' =>
        hdiffer a ha b ((hts b hb).1 hkind') hkind
    · exact fun a ha b hb hkind hkind' => hdiffer a ha b (ih.2 b hb hkind') hkind
    · exact List.forall_mem_append.2 ⟨fun a ha => (hts a ha).1, ih.2⟩

end Lexer

theorem distinguishes_tokenize (limit : Int) (source : String) :
    Parser.Distinguishes (lexemes (tokenize limit source).1) :=
  (Lexer.lexesFrom_iff.2 ⟨rfl, rfl⟩ :
    Lexer.LexesFrom limit 1 _ (tokenize limit source).1 _).distinguishes.1

/-! ## What the ranges of a parse say -/

/-- An entry is the only one of its kind if all of that kind share what differs between entries. -/
theorem filter_eq_singleton {α β : Type} {f : α → β} {l : List α} (h : (l.map f).Nodup) {a : α}
    (ha : a ∈ l) {P : α → Bool} (hP : ∀ b ∈ l, P b = true ↔ f b = f a) : l.filter P = [a] := by
  induction l with
  | nil => cases ha
  | cons b l ih =>
    obtain ⟨hb, hl⟩ := List.forall_mem_cons.1 hP
    obtain ⟨hnot, hnodup⟩ := List.nodup_cons.1 h
    rcases List.mem_cons.1 ha with rfl | ha
    · rw [List.filter_cons_of_pos (hb.2 rfl), List.filter_eq_nil_iff.2]
      exact fun c hc hPc => hnot ((hl c hc).1 hPc ▸ List.mem_map_of_mem hc)
    · have hne : ¬ P b = true := fun hPb => hnot (hb.1 hPb ▸ List.mem_map_of_mem ha)
      rw [List.filter_cons_of_neg hne, ih hnodup ha hl]

namespace Parser

variable {bodies : List Scope} {t : SymbolTable}

theorem Placed.nodup_addresses (h : Placed bodies t) :
    (t.vars.map Variable.address).Nodup := by
  rw [List.nodup_iff_getElem?_ne_getElem?]
  intro i j hij hj heq
  rw [List.length_map] at hj
  obtain ⟨v, hv⟩ : ∃ v, t.vars[i]? = some v := ⟨_, List.getElem?_eq_getElem (by omega)⟩
  obtain ⟨w, hw⟩ : ∃ w, t.vars[j]? = some w := ⟨_, List.getElem?_eq_getElem hj⟩
  rw [List.getElem?_map, List.getElem?_map, hv, hw, Option.map_some, Option.map_some,
    h.addresses i v hv, h.addresses j w hw] at heq
  have := Option.some.inj heq
  omega

/-- The ranges of two procedures are apart. -/
theorem Placed.pairwise_apart (h : Placed bodies t) :
    t.procs.Pairwise fun p q => p.Unused ∨ q.Unused ∨ p.Apart q := by
  refine (List.pairwise_map.1 h.distinct).imp_of_mem fun {p q} hp hq hkey => ?_
  rcases h.ranges p hp with hunused | hspans
  · exact Or.inl hunused
  rcases h.ranges q hq with hunused | hspans'
  · exact Or.inr (Or.inl hunused)
  · exact Or.inr (Or.inr (hspans.apart hspans' hkey))

end Parser

namespace ParseResult

/-- Addresses count the variables, every range is that of its procedure, and no two ranges overlap
in part. -/
structure Ranged (r : ParseResult) : Prop where
  addresses : ∀ (i : Nat) (v : Variable), r.vars[i]? = some v → v.address = i
  ranges : ∀ p ∈ r.procs, p.Unused ∨ p.Spans r.vars
  apart : r.procs.Pairwise fun p q => p.Unused ∨ q.Unused ∨ p.Apart q

/-- Every variable is one of the program body, in no range, or lies in the range of the one
procedure that owns it, and every range starts with the one parameter of its procedure. -/
structure Accounted (r : ParseResult) : Prop where
  owners : ∀ v ∈ r.vars,
    (v.level = 1 ∧ v.kind = .localVariable ∧ v.owner = mainProcedure ∧
      ∀ p ∈ r.procs, ¬ p.Covers v.address) ∨
    (2 ≤ v.level ∧ ∃ p, r.procs.filter (fun p => p.name = v.owner ∧ p.level = v.level) = [p] ∧
      p.Covers v.address)
  parameters : ∀ p ∈ r.procs, ∃ v, v.address = p.first ∧
    r.vars.filter (fun v => v.kind = .parameter ∧ v.owner = p.name ∧ v.level = p.level) = [v]

end ParseResult

namespace Parser

variable {bodies : List Scope} {t : SymbolTable}

theorem Complete.accounted (hp : Placed bodies t) (h : Complete none bodies t) {r : ParseResult}
    (hvars : r.vars = t.vars) (hprocs : r.procs = t.procs) : r.Accounted where
  owners := by
    rw [hvars, hprocs]
    intro v hv
    obtain ⟨hlevel, hmain⟩ := hp.owners v hv
    by_cases hone : v.level = 1
    · obtain ⟨hkind, howner⟩ := hmain hone
      refine Or.inl ⟨hone, hkind, howner, fun p hmem hcovers => ?_⟩
      have hwithin := ((hp.spans_of_covers hmem hv hcovers).within v hv hcovers).1
      have := hp.deep p hmem
      omega
    · refine Or.inr ⟨by omega, ?_⟩
      obtain ⟨p, hmem, hown, hcovers⟩ := h.covered v hv (by omega)
      refine ⟨p, filter_eq_singleton hp.distinct hmem fun q _ => ?_, hcovers⟩
      rw [decide_eq_true_eq, Procedure.key, Procedure.key, Prod.mk.injEq, hown.1, hown.2]
  parameters := by
    rw [hvars, hprocs]
    intro p hmem
    obtain ⟨i, hi⟩ := List.mem_iff_getElem?.1 hmem
    obtain ⟨v, hv, hkind, hown, hfirst⟩ := h.parameter i p hi (by simp)
    refine ⟨v, hfirst, filter_eq_singleton hp.nodup_addresses hv fun w hw => ?_⟩
    rw [decide_eq_true_eq]
    constructor
    · exact fun hw' => (h.only p hmem w hw hw'.1 hw'.2).trans hfirst.symm
    · intro heq
      obtain rfl : w = v := List.inj_on_of_nodup_map hp.nodup_addresses hw hv heq
      exact ⟨hkind, hown⟩

/-- What is declared when a body is left stays as it is from then on. -/
theorem sealed_of_endBody {n : Nesting} {tokens : List Token} {rest : List Goal} {s : State}
    {index : Nat} (hr : Reaches n tokens (.endBody :: rest) s)
    (hrecord : s.scope.record = some index) :
    ∃ p d, p.name = s.scope.owner ∧ p.level = s.level ∧ s.symbols.procs[index]? = some p ∧
      Leads rest (.left d) (.body 0) ∧
      s.leaveBody.Has False
        (View.Fits fun a _ bodies t => Sealed index p a bodies t) (.left d) := by
  obtain ⟨a, hlead, h⟩ := upheld_trivial.kept.of_reaches (fits_start trivial) hr
  have hfits := h.view fun h => h.elim
  cases hlead with
  | next hg hrest =>
    obtain ⟨d, rfl, rfl⟩ := hg.passage
    have hbodies : s.view.bodies = s.enclosing.reverse ++ [s.scope] := rfl
    have hplaced := hfits.placed
    rw [hbodies] at hplaced
    obtain ⟨p, hp, hname, hlevel, -⟩ := hplaced.innermost.record index hrecord
    have hlevel' : p.level = s.level := by
      have hcount : s.enclosing.length = d + 1 := hfits.count
      have hslevel : s.level = ((d + 1 : Nat) : Int) + 1 := hfits.level
      rw [hlevel, List.length_reverse, hcount, hslevel]
    refine ⟨p, d, hname, hlevel', hp, hrest, proper_invariant.leaveBody h.proper, fun _ => ?_⟩
    have hleft := upheld_trivial.kept.leave hfits
    refine ⟨hleft.level, hleft.count, hleft.placed, hp, fun i c hc hi => ⟨⟨d, rfl⟩, ?_⟩⟩
    -- a body of that record is at the level of that procedure, which is the innermost one
    obtain ⟨q, hq, -, hqlevel, -⟩ := (hfits.placed.opened i c hc).record index hi
    obtain rfl := Option.some.inj (hp.symm.trans hq)
    have hlength : s.view.bodies.length = s.enclosing.reverse.length + 1 := by
      rw [hbodies, List.length_append, List.length_singleton]
    show i + 1 = s.view.bodies.length
    omega

/-- Address ranges describe ownership. The range of a procedure starts and ends with variables of
its own, and what lies between them is its own or deeper; ranges are apart or nested; over the
tokens of a source a range misses no variable of its procedure at its beginning; without errors the
ranges account for every variable and every parameter; and once a body is left the range of its
procedure stays as it is. -/
theorem parse_address_ranges (n : Nesting) (tokens : List Token) :
    let r := PocketPascal.parse n tokens
    r.Ranged ∧
      (∀ limit source, tokens = (tokenize limit source).1 →
        ∀ p ∈ r.procs, ∀ v ∈ r.vars, p.Owns v → p.first ≤ v.address) ∧
      (r.errors = [] → r.Accounted) ∧
      ∀ index rest s, Reaches n tokens (.endBody :: rest) s → s.scope.record = some index →
        ∃ p, p.name = s.scope.owner ∧ p.level = s.level ∧ s.symbols.procs[index]? = some p ∧
          r.procs[index]? = some p ∧
          ∀ goals' s', Visits n (.endBody :: rest) s goals' s' →
            s'.symbols.procs[index]? = some p := by
  intro r
  refine ⟨?_, ?_, ?_, ?_⟩
  · obtain ⟨a, h⟩ := (upheld_trivial.kept.parse (fits_start trivial) n).1
    have hplaced := (h not_false).placed
    exact ⟨hplaced.addresses, hplaced.ranges, hplaced.pairwise_apart⟩
  · rintro limit source htokens p hp v hv hown
    have hstart := earliest_start (htokens ▸ distinguishes_tokenize limit source)
    obtain ⟨a, h⟩ := (earliest_upheld.kept.parse (fits_start hstart) n).1
    have hfits := h not_false
    by_cases hfirst : p.first = -1
    · have := (hfits.placed.address_mem hv).1
      omega
    · exact hfits.upheld.first_le p hp hfirst v hv hown
  · intro herrors
    have hfits := (complete_upheld.kept.parse (fits_start complete_start) n).2 herrors
    exact hfits.upheld.accounted hfits.placed rfl rfl
  · intro index rest s hr hrecord
    obtain ⟨p, d, hname, hlevel, hp, hrest, hsealed⟩ := sealed_of_endBody hr hrecord
    have kept := (sealed_upheld index p).kept
    have hleft : step n .endBody s = .go [] s.leaveBody := rfl
    have hr' : Reaches n tokens rest s.leaveBody := hr.trans (.next hleft (.here _ _))
    refine ⟨p, hname, hlevel, hp, ?_, fun goals' s' hv => ?_⟩
    · obtain ⟨a, h⟩ := (kept.parse_of_reaches hr' hrest hsealed).1
      exact (h not_false).upheld.entry
    · cases hv with
      | here => exact hp
      | next hstep hv =>
        rw [hleft] at hstep
        cases hstep
        obtain ⟨a, -, h⟩ := kept.of_visits hv hrest hsealed
        exact (h.view fun h => h.elim).upheld.entry

/-- The range of the inner one of these functions lies inside the range of the outer one, which goes
on after it. -/
theorem parse_address_ranges_of_nested_functions :
    let source := "begin integer a; integer function f(x); begin integer function g(y); " ++
      "begin integer z; g := y - z end; integer b; f := g(x) * b end; a := f(a) end"
    let tokens := (tokenize 16 source).1
    let n : Nesting := { limit := 64 }
    let r := PocketPascal.parse n tokens
    r.errors = [] ∧ r.Accounted ∧
      r.procs.map (fun p => (p.name, p.first, p.last)) = [("f", 1, 4), ("g", 2, 3)] ∧
      (∀ p ∈ r.procs, ∀ v ∈ r.vars, p.Owns v → p.first ≤ v.address) ∧
      ∃ rest s, Reaches n tokens (.endBody :: rest) s ∧ s.scope.record = some 1 ∧
        r.procs[1]? = s.symbols.procs[1]? := by
  intro source tokens n r
  obtain ⟨-, hfirst, haccounted, hsealed⟩ := parse_address_ranges n tokens
  have herrors : r.errors = [] := by decide +kernel
  refine ⟨herrors, haccounted herrors, by decide +kernel, hfirst 16 source rfl, ?_⟩
  obtain ⟨rest, s, hr, hrecord⟩ :
      ∃ rest s, Reaches n tokens (.endBody :: rest) s ∧ s.scope.record = some 1 :=
    reaches_of_advance 56 (by decide +kernel)
  obtain ⟨p, -, -, hp, hp', -⟩ := hsealed 1 rest s hr hrecord
  exact ⟨rest, s, hr, hrecord, hp'.trans hp.symm⟩

end Parser

end PocketPascal
