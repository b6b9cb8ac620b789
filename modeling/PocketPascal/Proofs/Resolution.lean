import PocketPascal.Proofs.AddressRanges

/-! # What names resolve to

Names are looked up by levels alone, and nothing is ever removed from the symbol table. In a parse
without errors every declaration stands in exactly one body, and of the bodies at one level only the
latest can still be open. So what a lookup finds stands in an open body, or it was declared before
the body that is open at its level was opened, and is left over from a function that is closed.
-/

namespace PocketPascal

/-- A declaration in a symbol table: a variable, or the function at a position. -/
inductive Declaration where
  | value (v : Variable)
  | function (index : Nat) (p : Procedure)

namespace Declaration

def name : Declaration → String
  | value v => v.name
  | function _ p => p.name

/-- The level of the body that a declaration stands in. -/
def level : Declaration → Int
  | value v => v.level
  | function _ p => p.level - 1

def isFunction : Declaration → Bool
  | value _ => false
  | function .. => true

/-- A declaration was made before a body was opened. -/
def Before : Declaration → Parser.Scope → Prop
  | value v, c => v.address < c.start
  | function r _, c => ∃ q, c.record = some q ∧ r < q

end Declaration

namespace SymbolTable

/-- The levels of the bodies of the functions, in the order of their declarations. -/
def levels (t : SymbolTable) : List Int :=
  t.procs.map Procedure.level

/-- The function at one position is declared directly in the body of the function at another: it
comes after it, one level deeper, and all that comes between is deeper than the outer one, too. -/
def Encloses (t : SymbolTable) (q r : Nat) : Prop :=
  q < r ∧ ∃ level, t.levels[q]? = some level ∧ t.levels[r]? = some (level + 1) ∧
    ∀ k between, q < k → k < r → t.levels[k]? = some between → level < between

def Declares (t : SymbolTable) : Declaration → Prop
  | .value v => v ∈ t.vars
  | .function r p => t.procs[r]? = some p

/-- A declaration stands directly in a body: in the program body, or in that of the function at a
position. -/
def Inside (t : SymbolTable) : Declaration → Option Nat → Prop
  | .value v, none => v.level = 1
  | .value v, some q => ∃ p, t.procs[q]? = some p ∧ p.Owns v
  | .function _ p, none => p.level = 2
  | .function r _, some q => t.Encloses q r

variable {t : SymbolTable}

theorem levels_withVariable (t : SymbolTable) (c : Parser.Scope) (name : String)
    (kind : VariableKind) (level : Int) :
    (t.withVariable c name kind level).levels = t.levels := by
  have hkeys := congrArg (List.map Prod.snd) (t.map_key_withVariable c name kind level)
  rw [List.map_map, List.map_map] at hkeys
  exact hkeys

theorem levels_withProcedure (t : SymbolTable) (name : String) (level : Int) :
    (t.withProcedure name level).levels = t.levels ++ [level] := by
  rw [levels, withProcedure, List.map_append, List.map_singleton, levels]

theorem level_of_levels {r : Nat} {p : Procedure} (hr : t.procs[r]? = some p) :
    t.levels[r]? = some p.level := by
  rw [levels, List.getElem?_map, hr, Option.map_some]

/-- More functions do not change which one encloses another. -/
theorem Encloses.append {t' : SymbolTable} {more : List Int} (ht : t'.levels = t.levels ++ more)
    {q r : Nat} (h : t.Encloses q r) : t'.Encloses q r := by
  obtain ⟨hlt, level, hq, hr, hbetween⟩ := h
  have hlength := (List.getElem?_eq_some_iff.1 hr).1
  rw [Encloses, ht]
  refine ⟨hlt, level, getElem?_append_of_some hq more, getElem?_append_of_some hr more, ?_⟩
  intro k between hqk hkr hk
  rw [List.getElem?_append_left (by omega)] at hk
  exact hbetween k between hqk hkr hk

/-- Only one function encloses another directly. -/
theorem Encloses.unique {q q' r : Nat} (h : t.Encloses q r) (h' : t.Encloses q' r) : q = q' := by
  obtain ⟨hlt, level, hq, hr, hbetween⟩ := h
  obtain ⟨hlt', level', hq', hr', hbetween'⟩ := h'
  have hlevel := Option.some.inj (hr.symm.trans hr')
  rcases Nat.lt_trichotomy q q' with hqq | rfl | hqq
  · have := hbetween q' level' hqq hlt' hq'
    omega
  · rfl
  · have := hbetween' q level hqq hlt hq
    omega

end SymbolTable

namespace Parser

variable {bodies outer : List Scope} {c : Scope} {t : SymbolTable}

/-! ## Functions stand in functions -/

/-- All functions declared since the body of a function was opened are deeper, and every function
below the program body stands in another one. -/
structure Rooted (bodies : List Scope) (t : SymbolTable) : Prop where
  deeper : ∀ (i q : Nat) (c : Scope), bodies[i]? = some c → c.record = some q →
    ∀ r level, q < r → t.levels[r]? = some level → (i : Int) + 1 < level
  enclosed : ∀ r level, t.levels[r]? = some level → level = 2 ∨ ∃ q, t.Encloses q r

namespace Rooted

theorem start : Rooted [.program] {} where
  deeper i q c hc hq := by
    obtain ⟨-, rfl⟩ := open_start hc
    cases hq
  enclosed r level hr := by simp [SymbolTable.levels] at hr

theorem declare (h : Rooted bodies t) (c : Scope) (name : String) (kind : VariableKind)
    (level : Int) : Rooted bodies (t.withVariable c name kind level) where
  deeper := by
    rw [SymbolTable.levels_withVariable]
    exact h.deeper
  enclosed r level hr := by
    have hlevels := t.levels_withVariable c name kind
    rw [hlevels] at hr
    refine (h.enclosed r level hr).imp_right fun ⟨q, hq⟩ => ⟨q, ?_⟩
    exact hq.append ((hlevels _).trans (List.append_nil _).symm)

/-- The new function stands in the innermost body. -/
theorem encloses_new (hp : Placed (outer ++ [c]) t) (h : Rooted (outer ++ [c]) t) {q : Nat}
    (hq : c.record = some q) (name : String) :
    (t.withProcedure name (outer.length + 1 + 1)).Encloses q t.procs.length := by
  obtain ⟨p, hget, -, hlevel, -⟩ := hp.innermost.record q hq
  have hlength : t.levels.length = t.procs.length := List.length_map _
  have hlt : q < t.procs.length := (List.getElem?_eq_some_iff.1 hget).1
  rw [SymbolTable.Encloses, SymbolTable.levels_withProcedure]
  refine ⟨hlt, outer.length + 1, ?_, ?_, ?_⟩
  · rw [← hlevel]
    exact getElem?_append_of_some (SymbolTable.level_of_levels hget) _
  · rw [← hlength, List.getElem?_concat_length]
  · intro k between hqk hk hbetween
    rw [List.getElem?_append_left (by omega)] at hbetween
    exact h.deeper outer.length q c (by simp) hq k between hqk hbetween

/-- A function is declared, and a scope is opened for its declarations. -/
theorem openProcedure (hp : Placed bodies t) (hc : Complete none bodies t) (h : Rooted bodies t)
    (name : String) :
    Rooted (bodies ++ [.after t name (some t.procs.length)])
      (t.withProcedure name (bodies.length + 1)) := by
  have hlength : t.levels.length = t.procs.length := List.length_map _
  constructor
  · intro i q c hopen hq r level hlt hr
    rw [SymbolTable.levels_withProcedure] at hr
    rcases getElem?_concat_cases hopen with hopen | ⟨rfl, rfl⟩
    · rcases getElem?_concat_cases hr with hr | ⟨-, rfl⟩
      · exact h.deeper i q c hopen hq r level hlt hr
      · have hi := (List.getElem?_eq_some_iff.1 hopen).1
        omega
    · -- nothing has been declared since
      obtain rfl := Option.some.inj hq
      have hend := (List.getElem?_eq_some_iff.1 hr).1
      rw [List.length_append, List.length_singleton] at hend
      omega
  · intro r level hr
    have hlevels := t.levels_withProcedure name (bodies.length + 1)
    rw [hlevels] at hr
    rcases getElem?_concat_cases hr with hr | ⟨rfl, rfl⟩
    · exact (h.enclosed r level hr).imp_right fun ⟨q, hq⟩ => ⟨q, hq.append hlevels⟩
    · rw [hlength]
      obtain ⟨outer, c, rfl⟩ := (List.eq_nil_or_concat' bodies).resolve_left hp.bodies_ne_nil
      rw [List.length_append, List.length_singleton, Int.natCast_succ]
      by_cases houter : 0 < outer.length
      · obtain ⟨q, hq⟩ := hc.recorded outer.length c (by simp) houter
        exact Or.inr ⟨q, h.encloses_new hp hq name⟩
      · exact Or.inl (by omega)

/-- The innermost body is closed. -/
theorem close (h : Rooted (outer ++ [c]) t) : Rooted outer t where
  deeper i q c' hopen := h.deeper i q c' (getElem?_append_of_some hopen [c])
  enclosed := h.enclosed

end Rooted

theorem rooted_upheld :
    Upheld True fun a _ bodies t => Complete (a.pending bodies) bodies t ∧ Rooted bodies t where
  pass h := h
  newVariable hp h _ name := ⟨h.1.declareLocal hp name, h.2.declare _ name _ _⟩
  newParameter hp h hlength name := by
    rw [Stage.pending_named] at h
    exact ⟨h.1.declareParameter hp (by omega) name, h.2.declare _ name _ _⟩
  noParameter hstrict _ := absurd trivial hstrict
  newFunction hp h _ _ hnew := by
    rw [Stage.pending_named]
    exact ⟨h.1.openProcedure hp hnew, h.2.openProcedure hp h.1 _⟩
  noFunction hstrict := absurd trivial hstrict
  enter h := h
  leave h := h
  close h := ⟨h.1.close, h.2.close⟩

/-! ## Declarations stand in bodies -/

/-- Everything declared has its place: what the symbol table holds where nothing has been complained
about and no parameter is pending. -/
structure Housed (bodies : List Scope) (t : SymbolTable) : Prop
    extends Placed bodies t, Complete none bodies t, Rooted bodies t

namespace Housed

variable {d : Declaration} {i : Nat}

/-- A variable below the program body is one of a function. -/
theorem exists_owner (h : Housed bodies t) {v : Variable} (hv : v ∈ t.vars)
    (hlevel : 2 ≤ v.level) : ∃ (q : Nat) (p : Procedure), t.procs[q]? = some p ∧ p.Owns v := by
  obtain ⟨p, hmem, hown, -⟩ := h.covered v hv hlevel
  obtain ⟨q, hq⟩ := List.mem_iff_getElem?.1 hmem
  exact ⟨q, p, hq, hown⟩

theorem two_lt_of_encloses (h : Housed bodies t) {q r : Nat} {p : Procedure}
    (hqr : t.Encloses q r) (hr : t.procs[r]? = some p) : 2 < p.level := by
  obtain ⟨-, level, hq, hr', -⟩ := hqr
  rw [SymbolTable.level_of_levels hr] at hr'
  obtain ⟨p', hmem, rfl⟩ := List.mem_map.1 (List.mem_of_getElem? hq)
  have := h.deep p' hmem
  have := Option.some.inj hr'
  omega

/-- Every variable stands in exactly one body. -/
theorem existsUnique_of_mem (h : Housed bodies t) {v : Variable} (hv : v ∈ t.vars) :
    ∃! site, t.Inside (.value v) site := by
  by_cases hone : v.level = 1
  · refine ⟨none, hone, fun site hsite => ?_⟩
    cases site with
    | none => rfl
    | some q =>
      obtain ⟨p, hq, hown⟩ := hsite
      have hdeep := h.deep p (List.mem_of_getElem? hq)
      have := hown.2
      omega
  · have hlevel := (h.owners v hv).1
    obtain ⟨q, p, hq, hown⟩ := h.exists_owner hv (by omega)
    refine ⟨some q, ⟨p, hq, hown⟩, fun site hsite => ?_⟩
    cases site with
    | none => exact absurd hsite hone
    | some q' =>
      obtain ⟨p', hq', hown'⟩ := hsite
      rw [h.eq_of_owns hq' hq hown' hown]

/-- Every function stands in exactly one body. -/
theorem existsUnique_of_getElem? (h : Housed bodies t) {r : Nat} {p : Procedure}
    (hr : t.procs[r]? = some p) : ∃! site, t.Inside (.function r p) site := by
  rcases h.enclosed r p.level (SymbolTable.level_of_levels hr) with htwo | ⟨q, hq⟩
  · refine ⟨none, htwo, fun site hsite => ?_⟩
    cases site with
    | none => rfl
    | some q => exact absurd htwo (Int.ne_of_gt (h.two_lt_of_encloses hsite hr))
  · refine ⟨some q, hq, fun site hsite => ?_⟩
    cases site with
    | none => exact absurd hsite (Int.ne_of_gt (h.two_lt_of_encloses hq hr))
    | some q' => rw [SymbolTable.Encloses.unique hsite hq]

/-- Every declaration stands in exactly one body. -/
theorem existsUnique_inside (h : Housed bodies t) (hd : t.Declares d) :
    ∃! site, t.Inside d site := by
  cases d with
  | value v => exact h.existsUnique_of_mem hd
  | function r p => exact h.existsUnique_of_getElem? hd

theorem eq_program (h : Housed bodies t) (hopen : bodies[0]? = some c) : c = .program := by
  have hhead := h.outermost
  rw [List.head?_eq_getElem?, hopen] at hhead
  exact Option.some.inj hhead

/-- A body without a record is the program body. -/
theorem eq_zero_of_record (h : Housed bodies t) (hopen : bodies[i]? = some c)
    (hnone : c.record = none) : i = 0 := by
  by_contra hi
  obtain ⟨q, hq⟩ := h.recorded i c hopen (Nat.pos_of_ne_zero hi)
  rw [hnone] at hq
  cases hq

/-- What stands in an open body is at the level of that body. -/
theorem level_of_inside (h : Housed bodies t) (hd : t.Declares d) (hopen : bodies[i]? = some c)
    (hinside : t.Inside d c.record) : d.level = i + 1 := by
  cases hrecord : c.record with
  | none =>
    obtain rfl := h.eq_zero_of_record hopen hrecord
    rw [hrecord] at hinside
    cases d with
    | value v => exact hinside
    | function r p =>
      have htwo : p.level = 2 := hinside
      rw [Declaration.level]
      omega
  | some q =>
    obtain ⟨p, hq, -, hlevel, -⟩ := (h.opened i c hopen).record q hrecord
    rw [hrecord] at hinside
    cases d with
    | value v =>
      obtain ⟨p', hq', hown⟩ := hinside
      obtain rfl := Option.some.inj (hq.symm.trans hq')
      exact hown.2.trans hlevel
    | function r p' =>
      obtain ⟨-, level, hlevels, hr, -⟩ := hinside
      rw [SymbolTable.level_of_levels hq] at hlevels
      rw [SymbolTable.level_of_levels hd] at hr
      have := Option.some.inj hlevels
      have := Option.some.inj hr
      rw [Declaration.level]
      omega

/-- Nothing was declared before the program body was opened. -/
theorem not_before_program (h : Housed bodies t) (hd : t.Declares d) : ¬ d.Before .program := by
  cases d with
  | value v => exact Int.not_lt.2 (h.address_mem hd).1
  | function r p =>
    rintro ⟨q, hq, -⟩
    cases hq

/-- A variable at the level of the open body of a function stands in that body if it was declared
since that was opened. -/
theorem owns_iff (h : Housed bodies t) {v : Variable} (hv : v ∈ t.vars) {q : Nat} {p : Procedure}
    (hopen : bodies[i]? = some c) (hrecord : c.record = some q) (hq : t.procs[q]? = some p)
    (hlevel : v.level = i + 1) : p.Owns v ↔ (c.start : Int) ≤ v.address := by
  have hstands := h.opened i c hopen
  obtain ⟨p', hq', hname, hlevelp, hfirst⟩ := hstands.record q hrecord
  obtain rfl := Option.some.inj (hq.symm.trans hq')
  constructor
  · intro hown
    have hcovers := h.covers_of_owns h.toPlaced hv hq hown
    have := (h.spans_of_covers (List.mem_of_getElem? hq) hv hcovers).first_nonneg
    exact Int.le_trans (hfirst.resolve_left (by omega)) hcovers.1
  · intro hsince
    exact ⟨((hstands.since v hv hsince).2 hlevel).trans hname.symm, hlevel.trans hlevelp.symm⟩

/-- A function one level below the open body of another one stands in that body if it was declared
after that other one. -/
theorem encloses_iff (h : Housed bodies t) {q r : Nat} {p : Procedure}
    (hr : t.procs[r]? = some p) (hopen : bodies[i]? = some c) (hrecord : c.record = some q)
    (hlevel : p.level = i + 1 + 1) : t.Encloses q r ↔ q ≤ r := by
  obtain ⟨p', hq, -, hlevel', -⟩ := (h.opened i c hopen).record q hrecord
  have hlevels := SymbolTable.level_of_levels hq
  have hlevels' := SymbolTable.level_of_levels hr
  constructor
  · exact fun hqr => Nat.le_of_lt hqr.1
  · intro hle
    have hne : q ≠ r := by
      rintro rfl
      have := Option.some.inj (hlevels.symm.trans hlevels')
      omega
    refine ⟨Nat.lt_of_le_of_ne hle hne, i + 1, hlevel' ▸ hlevels, hlevel ▸ hlevels', ?_⟩
    exact fun k between hqk _ hbetween => h.deeper i q c hopen hrecord k between hqk hbetween

/-- A declaration at the level of an open body stands in that body, or was made before it was
opened. -/
theorem inside_iff_not_before (h : Housed bodies t) (hd : t.Declares d)
    (hopen : bodies[i]? = some c) (hlevel : d.level = i + 1) :
    t.Inside d c.record ↔ ¬ d.Before c := by
  cases hrecord : c.record with
  | none =>
    -- everything at the level of the program body stands in it
    obtain rfl := h.eq_zero_of_record hopen hrecord
    obtain rfl := h.eq_program hopen
    refine iff_of_true ?_ (h.not_before_program hd)
    cases d with
    | value v => exact hlevel
    | function r p =>
      have htwo : p.level - 1 = 1 := hlevel
      show p.level = 2
      omega
  | some q =>
    cases d with
    | value v =>
      obtain ⟨p, hq, -⟩ := (h.opened i c hopen).record q hrecord
      have howns := h.owns_iff hd hopen hrecord hq hlevel
      simp only [SymbolTable.Inside, hq, Option.some.injEq, exists_eq_left', Declaration.Before,
        Int.not_lt, howns]
    | function r p =>
      have hdeep : p.level = i + 1 + 1 := by
        rw [Declaration.level] at hlevel
        omega
      have hencloses := h.encloses_iff hd hopen hrecord hdeep
      simp only [SymbolTable.Inside, Declaration.Before, hrecord, Option.some.injEq,
        exists_eq_left', Nat.not_lt, hencloses]

theorem one_le_level (h : Housed bodies t) (hd : t.Declares d) : 1 ≤ d.level := by
  cases d with
  | value v => exact (h.owners v hd).1
  | function r p =>
    have := h.deep p (List.mem_of_getElem? hd)
    rw [Declaration.level]
    omega

/-- A declaration stands in an open body if it was not made before the body that is open at its
level was opened. -/
theorem exists_open_iff (h : Housed bodies t) (hd : t.Declares d)
    (hlevel : d.level ≤ bodies.length) :
    (∃ site ∈ bodies.map Scope.record, t.Inside d site) ↔
      ¬ ∃ (i : Nat) (c : Scope), bodies[i]? = some c ∧ d.level = i + 1 ∧ d.Before c := by
  constructor
  · rintro ⟨site, hsite, hinside⟩ ⟨i, c, hopen, hi, hbefore⟩
    obtain ⟨c', hmem, rfl⟩ := List.mem_map.1 hsite
    obtain ⟨j, hopen'⟩ := List.mem_iff_getElem?.1 hmem
    have hj := h.level_of_inside hd hopen' hinside
    obtain rfl : i = j := by omega
    obtain rfl := Option.some.inj (hopen.symm.trans hopen')
    exact (h.inside_iff_not_before hd hopen hi).1 hinside hbefore
  · intro hbefore
    have hlow := h.one_le_level hd
    obtain ⟨i, hi⟩ : ∃ i : Nat, d.level = i + 1 := ⟨(d.level - 1).toNat, by omega⟩
    obtain ⟨c, hopen⟩ : ∃ c, bodies[i]? = some c := ⟨_, List.getElem?_eq_getElem (by omega)⟩
    refine ⟨c.record, List.mem_map_of_mem (List.mem_of_getElem? hopen), ?_⟩
    exact (h.inside_iff_not_before hd hopen hi).2 fun hb => hbefore ⟨i, c, hopen, hi, hb⟩

end Housed

/-! ## What a name finds -/

/-- The bodies that are open, from the outside in: the program body, or that of the function at a
position. -/
def State.openBodies (s : State) : List (Option Nat) :=
  s.view.bodies.map Scope.record

/-- A lookup of the lookahead finds a variable, or a function: one of that name that stands at the
level of the innermost body, or above. -/
structure State.Finds (s : State) (function : Bool) (d : Declaration) : Prop where
  declared : s.symbols.Declares d
  isFunction : d.isFunction = function
  name : d.name = s.lookahead.text
  level : d.level ≤ s.level

/-- The lookahead is the name of a variable, or of a function, that stands in an open body. -/
def State.Resolves (s : State) (function : Bool) : Prop :=
  ∃ d, s.symbols.Declares d ∧ d.isFunction = function ∧ d.name = s.lookahead.text ∧
    ∃ site ∈ s.openBodies, s.symbols.Inside d site

/-- A declaration was made before the body that is open at its level was opened. -/
def State.LeftOver (s : State) (d : Declaration) : Prop :=
  ∃ (i : Nat) (c : Scope), s.view.bodies[i]? = some c ∧ d.level = i + 1 ∧ d.Before c

/-- A parse takes the identifier ahead for the name of a variable, or, where no variable of that
name is found, for that of a function which is assigned to or called. -/
inductive Takes (n : Nesting) (tokens : List Token) : Bool → State → Prop where
  | value {rest : List Goal} {s : State} (hr : Reaches n tokens (.construct .reference :: rest) s)
      (hs : s.sees .identifier = true) (hknown : s.knowsVariable s.lookahead.text = true) :
      Takes n tokens false s
  | function {g : Goal} {rest : List Goal} {s : State} (hr : Reaches n tokens (g :: rest) s)
      (hg : g = .construct .assignment ∨ g = .construct .factor) (hs : s.sees .identifier = true)
      (hnew : s.knowsVariable s.lookahead.text = false)
      (hknown : s.knowsProcedure s.lookahead.text = true) : Takes n tokens true s

section Takes

variable {n : Nesting} {tokens : List Token} {s : State} {function : Bool}

theorem Takes.exists_finds (h : Takes n tokens function s) : ∃ d, s.Finds function d := by
  cases h with
  | value hr hs hknown =>
    obtain ⟨v, hv, hname, hlevel⟩ := (s.knowsVariable_iff _).1 hknown
    exact ⟨.value v, hv, rfl, hname, hlevel⟩
  | function hr hg hs hnew hknown =>
    obtain ⟨p, hp, hname, hlevel⟩ := (s.knowsProcedure_iff _).1 hknown
    obtain ⟨r, hr⟩ := List.mem_iff_getElem?.1 hp
    exact ⟨.function r p, hr, rfl, hname, Int.sub_right_le_of_le_add hlevel⟩

/-- In the middle of a body of a parse without errors, everything declared has its place. -/
theorem housed_of_reaches {g : Goal} {rest : List Goal} (hr : Reaches n tokens (g :: rest) s)
    (hg : g.isLocal = true) (herrors : (PocketPascal.parse n tokens).errors = []) :
    s.level = s.view.bodies.length ∧ Housed s.view.bodies s.symbols := by
  obtain ⟨a, hlead, h⟩ :=
    rooted_upheld.kept.of_reaches (fits_start ⟨complete_start, .start⟩) hr
  have hfits := h.view fun _ => hr.errors_eq_nil herrors
  cases hlead with
  | next hlead _ =>
    obtain ⟨d, rfl, -⟩ := hlead.body_of_isLocal hg
    refine ⟨?_, hfits.placed, hfits.upheld.1, hfits.upheld.2⟩
    rw [View.length_bodies, hfits.count]
    exact hfits.level

theorem Takes.housed (h : Takes n tokens function s)
    (herrors : (PocketPascal.parse n tokens).errors = []) :
    s.level = s.view.bodies.length ∧ Housed s.view.bodies s.symbols := by
  cases h with
  | value hr => exact housed_of_reaches hr rfl herrors
  | function hr hg =>
    obtain rfl | rfl := hg
    · exact housed_of_reaches hr rfl herrors
    · exact housed_of_reaches hr rfl herrors

/-- In a parse without errors a name that is taken for a variable or a function finds one, and
everything that it finds stands in exactly one body. That body is open unless the declaration is
left over, that is, made before the body that is open at its level was opened. So a name resolves
against the open bodies if and only if not all that it finds is left over; what the program body
declares never is. -/
theorem parse_resolves_iff (herrors : (PocketPascal.parse n tokens).errors = [])
    (h : Takes n tokens function s) :
    (∃ d, s.Finds function d) ∧
      (∀ d, s.Finds function d → (∃! site, s.symbols.Inside d site) ∧
        ((∃ site ∈ s.openBodies, s.symbols.Inside d site) ↔ ¬ s.LeftOver d)) ∧
      (s.Resolves function ↔ ∃ d, s.Finds function d ∧ ¬ s.LeftOver d) ∧
      ∀ d, s.Finds function d → d.level = 1 → ¬ s.LeftOver d := by
  obtain ⟨hlevel, hhoused⟩ := h.housed herrors
  have hopen : ∀ d, s.Finds function d →
      ((∃ site ∈ s.openBodies, s.symbols.Inside d site) ↔ ¬ s.LeftOver d) :=
    fun d hd => hhoused.exists_open_iff hd.declared (hlevel ▸ hd.level)
  refine ⟨h.exists_finds, fun d hd => ⟨hhoused.existsUnique_inside hd.declared, hopen d hd⟩,
    ⟨?_, ?_⟩, ?_⟩
  · rintro ⟨d, hd, hfunction, hname, site, hsite, hinside⟩
    obtain ⟨c, hmem, rfl⟩ := List.mem_map.1 hsite
    obtain ⟨i, hi⟩ := List.mem_iff_getElem?.1 hmem
    -- what stands in an open body is not too deep to be found
    have hdepth := hhoused.level_of_inside hd hi hinside
    have hlt := (List.getElem?_eq_some_iff.1 hi).1
    have hfinds : s.Finds function d := ⟨hd, hfunction, hname, by omega⟩
    exact ⟨d, hfinds, (hopen d hfinds).1 ⟨_, hsite, hinside⟩⟩
  · rintro ⟨d, hd, hleft⟩
    exact ⟨d, hd.declared, hd.isFunction, hd.name, (hopen d hd).2 hleft⟩
  · rintro d hd hone ⟨i, c, hbody, hi, hbefore⟩
    obtain rfl : i = 0 := by omega
    obtain rfl := hhoused.eq_program hbody
    exact hhoused.not_before_program hd.declared hbefore

end Takes

/-- A variable of the program body is found from a function, and stands in an open body. -/
theorem parse_resolves_iff_of_outer_name :
    let source := "begin integer a; integer function f(x); begin f := x * a end; a := f(a) end"
    let tokens := (tokenize 16 source).1
    let n : Nesting := { limit := 64 }
    (PocketPascal.parse n tokens).errors = [] ∧
      ∃ s, Takes n tokens false s ∧ s.lookahead.text = "a" ∧ s.level = 2 ∧ s.Resolves false := by
  intro source tokens n
  have herrors : (PocketPascal.parse n tokens).errors = [] := by decide +kernel
  refine ⟨herrors, ?_⟩
  obtain ⟨rest, s, hr, hs, hknown, hname, hlevel, hvars⟩ :
      ∃ rest s, Reaches n tokens (.construct .reference :: rest) s ∧
        s.sees .identifier = true ∧ s.knowsVariable s.lookahead.text = true ∧
        s.lookahead.text = "a" ∧ s.level = 2 ∧
        s.symbols.vars.head? = some ⟨"a", mainProcedure, .localVariable, 1, 0, valueType⟩ :=
    reaches_of_advance 31 (by decide +kernel)
  have htakes : Takes n tokens false s := .value hr hs hknown
  obtain ⟨-, -, hiff, houter⟩ := parse_resolves_iff herrors htakes
  have hfinds : s.Finds false (.value ⟨"a", mainProcedure, .localVariable, 1, 0, valueType⟩) :=
    ⟨List.mem_of_mem_head? hvars, rfl, hname.symm, by rw [hlevel]; decide⟩
  exact ⟨s, htakes, hname, hlevel, hiff.2 ⟨_, hfinds, houter _ hfinds rfl⟩⟩

/-- A local of a closed function is still found from a function beside it, and nothing is complained
about. -/
theorem parse_resolves_local_of_closed_sibling :
    let source := "begin integer function f(a); begin integer y; end; " ++
      "integer function g(b); begin write(y) end; end"
    let tokens := (tokenize 16 source).1
    let n : Nesting := { limit := 64 }
    (PocketPascal.parse n tokens).errors = [] ∧
      ∃ s, Takes n tokens false s ∧ s.lookahead.text = "y" ∧ ¬ s.Resolves false := by
  intro source tokens n
  refine ⟨by decide +kernel, ?_⟩
  obtain ⟨rest, s, hr, hs, hknown, hname, hopen, hsymbols⟩ :
      ∃ rest s, Reaches n tokens (.construct .reference :: rest) s ∧
        s.sees .identifier = true ∧ s.knowsVariable s.lookahead.text = true ∧
        s.lookahead.text = "y" ∧ s.openBodies = [none, some 1] ∧ s.symbols = {
          vars := [⟨"a", "f", .parameter, 2, 0, valueType⟩,
            ⟨"y", "f", .localVariable, 2, 1, valueType⟩, ⟨"b", "g", .parameter, 2, 2, valueType⟩]
          procs := [⟨"f", 2, 0, 1, valueType⟩, ⟨"g", 2, 2, 2, valueType⟩] } :=
    reaches_of_advance 44 (by decide +kernel)
  refine ⟨s, .value hr hs hknown, hname, ?_⟩
  rintro ⟨d, hd, hvalue, hd', site, hsite, hinside⟩
  rw [hopen] at hsite
  rw [hsymbols] at hd hinside
  rw [hname] at hd'
  cases d with
  | function r p => cases hvalue
  | value v =>
    simp only [SymbolTable.Declares, List.mem_cons, List.not_mem_nil, or_false] at hd hsite
    rcases hd with rfl | rfl | rfl
    · exact absurd hd' (by decide)
    · rcases hsite with rfl | rfl
      · exact absurd hinside (by unfold SymbolTable.Inside; decide)
      · obtain ⟨p, hp, hown⟩ := hinside
        cases hp
        exact absurd hown.1 (by decide)
    · exact absurd hd' (by decide)

end Parser

end PocketPascal
