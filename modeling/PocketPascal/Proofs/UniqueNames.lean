import PocketPascal.Proofs.AddressRanges
import PocketPascal.Proofs.AnyOrder

/-! # Names are unique where they are declared

A local is refused if one like it was declared since its body was opened, and a parameter is never
refused. So two locals of one body never share a name, whatever else is wrong with the program. That
no two variables of a whole program agree in all but their addresses takes more, and holds where
nothing is complained about: no two functions share a name and a level then, so what was declared
for a function was declared while its one body was open.
-/

namespace PocketPascal

/-- What a variable is declared as: all but the address of its storage. -/
def Variable.signature (v : Variable) : String × String × VariableKind × Int :=
  (v.name, v.owner, v.kind, v.level)

namespace SymbolTable

/-- Variables differ in what they are declared as. -/
def Distinct (t : SymbolTable) : Prop :=
  (t.vars.map Variable.signature).Nodup

theorem Distinct.withVariable {t : SymbolTable} (h : t.Distinct) (c : Parser.Scope)
    {name : String} {kind : VariableKind} {level : Int}
    (hnew : ∀ w ∈ t.vars, w.signature ≠ (name, c.owner, kind, level)) :
    (t.withVariable c name kind level).Distinct := by
  rw [Distinct, vars_withVariable, List.map_append, List.nodup_append]
  refine ⟨h, List.nodup_singleton _, ?_⟩
  rintro a ha b hb rfl
  obtain ⟨w, hw, heq⟩ := List.mem_map.1 ha
  exact hnew w hw (heq.trans (List.mem_singleton.1 hb))

end SymbolTable

namespace Parser

variable {n : Nesting} {tokens : List Token} {g : Goal} {goals goals' goals₁ goals₂ : List Goal}
  {s s' s₁ s₂ : State} {v v₁ v₂ : Variable}

/-! ## One declaration -/

theorem State.Quiet.symbols (h : s.Quiet s') : s'.symbols = s.symbols := by
  induction h with
  | refl => rfl
  | consume _ ih => rw [State.symbols_consume, ih]
  | report _ c m ih => rw [State.symbols_report, ih]
  | atDepth _ d ih => exact ih

theorem State.Quiet.scopes (h : s.Quiet s') : s'.scopes = s.scopes := by
  induction h with
  | refl => rfl
  | consume _ ih => rw [State.scopes_consume, ih]
  | report _ c m ih => rw [State.scopes_report, ih]
  | atDepth _ d ih => exact ih

/-- The variables that a step adds: none, a new local of the innermost body, or a parameter. -/
inductive Adds : Goal → State → List Variable → Prop where
  | none {g : Goal} {s : State} : Adds g s []
  | newLocal {s : State} {name : String} (hnew : ¬ s.symbols.HasLocal s.scope name s.level) :
      Adds (.construct .variableDeclaration) s
        [s.symbols.nextVariable name s.scope.owner .localVariable s.level]
  | newParameter {s : State} (name : String) :
      Adds (.construct .parameterDeclaration) s
        [s.symbols.nextVariable name s.scope.owner .parameter (s.level + 1)]

theorem adds_of_step (hstep : step n g s = .go goals s') :
    ∃ vs, Adds g s vs ∧ s'.symbols.vars = s.symbols.vars ++ vs := by
  have same : s'.symbols.vars = s.symbols.vars →
      ∃ vs, Adds g s vs ∧ s'.symbols.vars = s.symbols.vars ++ vs :=
    fun h => ⟨[], .none, h.trans (List.append_nil _).symm⟩
  have hacts := acts_of_step hstep
  cases hacts with
  | quiet _ hq => exact same (congrArg SymbolTable.vars hq.symbols)
  | declareVariable _ hnew =>
    refine ⟨_, .newLocal hnew, ?_⟩
    rw [State.symbols_consume]
    rfl
  | declareParameter _ =>
    refine ⟨_, .newParameter s.lookahead.text, ?_⟩
    rw [State.symbols_consume]
    rfl
  | noParameter c m =>
    refine same ?_
    rw [State.symbols_consume, State.symbols_report]
  | declareFunction _ _ =>
    refine same ?_
    rw [State.symbols_openScope, State.symbols_consume]
    rfl
  | noFunction c m _ =>
    refine same ?_
    rw [State.symbols_openScope, State.symbols_consume, State.symbols_report]
  | enter d => exact same rfl
  | leave => exact same rfl
  | close =>
    refine same ?_
    unfold State.closeScope
    split <;> rfl

/-- A parse of some tokens declares a local variable in a state. -/
def DeclaresLocal (n : Nesting) (tokens : List Token) (s : State) (v : Variable) : Prop :=
  v.kind = .localVariable ∧ ∃ g rest goals s', Reaches n tokens (g :: rest) s ∧
    step n g s = .go goals s' ∧ s'.symbols.vars = s.symbols.vars ++ [v]

/-- What a declaration of a local says: none like it was declared since the body was opened. -/
theorem DeclaresLocal.inversion (h : DeclaresLocal n tokens s v) :
    ∃ rest goals s', Reaches n tokens (.construct .variableDeclaration :: rest) s ∧
      step n (.construct .variableDeclaration) s = .go goals s' ∧
      s'.symbols.vars = s.symbols.vars ++ [v] ∧
      ¬ s.symbols.HasLocal s.scope v.name s.level ∧
      v = s.symbols.nextVariable v.name s.scope.owner .localVariable s.level := by
  obtain ⟨hkind, g, rest, goals, s', hr, hstep, hvars⟩ := h
  obtain ⟨vs, hadds, hvars'⟩ := adds_of_step hstep
  have hvs : vs = [v] := List.append_cancel_left (hvars'.symm.trans hvars)
  cases hadds with
  | none => cases hvs
  | newLocal hnew =>
    obtain rfl := List.singleton_inj.1 hvs
    exact ⟨rest, goals, s', hr, hstep, hvars, hnew, rfl⟩
  | newParameter name =>
    obtain rfl := List.singleton_inj.1 hvs
    cases hkind

/-! ## Along a parse -/

theorem Visits.vars_prefix (hv : Visits n goals s goals' s') :
    s.symbols.vars <+: s'.symbols.vars := by
  induction hv with
  | here => exact List.prefix_refl _
  | next hstep _ ih =>
    obtain ⟨vs, -, hvars⟩ := adds_of_step hstep
    exact (List.prefix_append _ vs).trans (hvars ▸ ih)

theorem coherent_of_reaches (hr : Reaches n tokens goals s) : Coherent s.scopes s.symbols := by
  refine coherent_declaring.lasting.of_visits ?_ hr
  rw [State.scopes_skipLineEnds, State.symbols_skipLineEnds]
  exact .start

/-- A local is declared in a body, whose level counts the bodies that are open. -/
theorem level_of_reaches {rest : List Goal}
    (hr : Reaches n tokens (.construct .variableDeclaration :: rest) s) :
    s.level = s.scopes.length := by
  obtain ⟨a, hlead, h⟩ := upheld_trivial.kept.of_reaches (fits_start trivial) hr
  have hfits := h.view fun h => h.elim
  cases hlead with
  | next hg _ =>
    obtain ⟨d, rfl, -⟩ := hg.body_of_isLocal rfl
    have hlevel : s.level = (d : Int) + 1 := hfits.level
    have hcount : s.enclosing.length = d := hfits.count
    rw [hlevel, State.scopes, List.length_cons, hcount, Int.natCast_succ]

/-- A local declared in a body is there for the body's next declarations to see. -/
theorem hasLocal_of_visits {rest : List Goal}
    (hr : Reaches n tokens (.construct .variableDeclaration :: rest) s₁)
    (hvars : s'.symbols.vars = s₁.symbols.vars ++ [v])
    (hv : v = s₁.symbols.nextVariable v.name s₁.scope.owner .localVariable s₁.level)
    (hvisits : Visits n goals s' goals₂ s₂) (hscope : s₁.scope = s₂.scope)
    (hlevel : s₁.level = s₂.level) : s₂.symbols.HasLocal s₂.scope v.name s₂.level := by
  obtain ⟨more, hmore⟩ := hvisits.vars_prefix
  rw [hvars, List.append_assoc] at hmore
  have hstart : s₂.scope.start ≤ s₁.symbols.vars.length := by
    rw [← hscope]
    exact (coherent_of_reaches hr).start_le _ List.mem_cons_self
  rw [SymbolTable.HasLocal, ← hmore, List.drop_append_of_le_length hstart, ← hscope, ← hlevel]
  refine ⟨v, List.mem_append_right _ List.mem_cons_self, rfl, ?_⟩
  rw [hv]
  exact ⟨rfl, rfl, rfl⟩

/-- Of two locals declared while the same bodies were open, the later one has a name of its own. -/
theorem name_ne_of_visits {rest₁ : List Goal}
    (hr₁ : Reaches n tokens (.construct .variableDeclaration :: rest₁) s₁)
    (hvars : s'.symbols.vars = s₁.symbols.vars ++ [v₁])
    (hv₁ : v₁ = s₁.symbols.nextVariable v₁.name s₁.scope.owner .localVariable s₁.level)
    (hvisits : Visits n goals s' goals₂ s₂) (hd₂ : DeclaresLocal n tokens s₂ v₂)
    (hscopes : s₁.scopes = s₂.scopes) : v₁.name ≠ v₂.name := by
  obtain ⟨rest₂, -, -, hr₂, -, -, hnew, -⟩ := hd₂.inversion
  have hlevel : s₁.level = s₂.level := by
    rw [level_of_reaches hr₁, level_of_reaches hr₂, hscopes]
  intro hname
  have hlocal := hasLocal_of_visits hr₁ hvars hv₁ hvisits (List.cons.inj hscopes).1 hlevel
  exact hnew (hname ▸ hlocal)

/-- Two locals declared while the same bodies were open, one on the way from the other, are the same
one if they share a name. -/
theorem eq_of_visits {rest₁ rest₂ : List Goal}
    (hr₁ : Reaches n tokens (.construct .variableDeclaration :: rest₁) s₁)
    (hstep₁ : step n (.construct .variableDeclaration) s₁ = .go goals₁ s')
    (hvars₁ : s'.symbols.vars = s₁.symbols.vars ++ [v₁])
    (hv₁ : v₁ = s₁.symbols.nextVariable v₁.name s₁.scope.owner .localVariable s₁.level)
    (hd₂ : DeclaresLocal n tokens s₂ v₂) {s₂' : State}
    (hstep₂ : step n (.construct .variableDeclaration) s₂ = .go goals₂ s₂')
    (hvars₂ : s₂'.symbols.vars = s₂.symbols.vars ++ [v₂])
    (hvisits : Visits n (.construct .variableDeclaration :: rest₁) s₁
      (.construct .variableDeclaration :: rest₂) s₂)
    (hscopes : s₁.scopes = s₂.scopes) (hname : v₁.name = v₂.name) : v₁ = v₂ := by
  cases hvisits with
  | here =>
    cases hstep₁.symm.trans hstep₂
    exact List.singleton_inj.1 (List.append_cancel_left (hvars₁.symm.trans hvars₂))
  | next hstep hvisits =>
    cases hstep.symm.trans hstep₁
    exact absurd hname (name_ne_of_visits hr₁ hvars₁ hv₁ hvisits hd₂ hscopes)

/-- Two locals declared while the same bodies were open are the same one if they share a name. -/
theorem eq_of_declaresLocal (hd₁ : DeclaresLocal n tokens s₁ v₁)
    (hd₂ : DeclaresLocal n tokens s₂ v₂) (hscopes : s₁.scopes = s₂.scopes)
    (hname : v₁.name = v₂.name) : v₁ = v₂ := by
  obtain ⟨rest₁, goals₁, s₁', hr₁, hstep₁, hvars₁, -, hv₁⟩ := hd₁.inversion
  obtain ⟨rest₂, goals₂, s₂', hr₂, hstep₂, hvars₂, -, hv₂⟩ := hd₂.inversion
  rcases hr₁.total hr₂ with hv | hv
  · exact eq_of_visits hr₁ hstep₁ hvars₁ hv₁ hd₂ hstep₂ hvars₂ hv hscopes hname
  · exact (eq_of_visits hr₂ hstep₂ hvars₂ hv₂ hd₁ hstep₁ hvars₁ hv hscopes.symm hname.symm).symm

/-- The locals of a state were declared on the way to it. -/
theorem declaresLocal_of_visits (hr : Reaches n tokens goals s) (hv : Visits n goals s goals' s')
    (h : ∀ v ∈ s.symbols.vars, v.kind = .localVariable → ∃ s₀, DeclaresLocal n tokens s₀ v) :
    ∀ v ∈ s'.symbols.vars, v.kind = .localVariable → ∃ s₀, DeclaresLocal n tokens s₀ v := by
  induction hv with
  | here => exact h
  | @next g rest goals goals' s s₁ s' hstep _ ih =>
    refine ih (hr.trans (.next hstep (.here _ _))) fun v hmem hkind => ?_
    obtain ⟨vs, hadds, hvars⟩ := adds_of_step hstep
    rw [hvars] at hmem
    rcases List.mem_append.1 hmem with hmem | hmem
    · exact h v hmem hkind
    · refine ⟨s, hkind, g, rest, goals, s₁, hr, hstep, ?_⟩
      cases hadds with
      | none => cases hmem
      | newLocal => rw [hvars, List.mem_singleton.1 hmem]
      | newParameter => rw [hvars, List.mem_singleton.1 hmem]

/-- What a parse yields is what is declared where it ends or is given up. -/
theorem exists_reaches_result (n : Nesting) (tokens : List Token) :
    ∃ goals s, Reaches n tokens goals s ∧ (PocketPascal.parse n tokens).vars = s.symbols.vars ∧
      (PocketPascal.parse n tokens).procs = s.symbols.procs := by
  rw [PocketPascal.parse, State.parse, find]
  cases hresolve : resolve n [.construct .program] (State.ofTokens tokens).skipLineEnds with
  | finished s => exact ⟨[], s, visits_of_finished hresolve, rfl, rfl⟩
  | aborted reason line s =>
    obtain ⟨g, rest, found, s₂, hv, hhalt, rfl⟩ := visits_of_aborted hresolve
    have hsymbols : s₂.symbols = found.symbols := by
      obtain ⟨-, rfl | rfl⟩ := halt_cases hhalt
      · rfl
      · exact State.symbols_consume _
    exact ⟨g :: rest, found, hv, congrArg SymbolTable.vars hsymbols,
      congrArg SymbolTable.procs hsymbols⟩

/-! ## Bodies that stay open -/

/-- A resolution of goals in which a number of bodies, counted from the outermost one, stay open. -/
inductive StaysOpen (n : Nesting) (count : Nat) :
    List Goal → State → List Goal → State → Prop where
  | here (goals : List Goal) (s : State) : StaysOpen n count goals s goals s
  | next {g : Goal} {rest goals goals' : List Goal} {s s₁ s' : State}
      (hstep : step n g s = .go goals s₁) (hopen : count ≤ s₁.scopes.length)
      (h : StaysOpen n count (goals ++ rest) s₁ goals' s') :
      StaysOpen n count (g :: rest) s goals' s'

/-- Naming a function opens a scope that whatever it was named by owns. -/
theorem scopes_nameProcedure (s : State) :
    ∃ c, (nameProcedure s).scopes = c :: s.scopes ∧ c.owner = s.lookahead.text := by
  have hregister : (s.registerProcedure s.lookahead.text).2.scopes = s.scopes := by
    unfold State.registerProcedure
    split
    · rfl
    · exact State.scopes_report _ _ _
  rw [nameProcedure, State.scopes_openScope, (State.Quiet.refl.expect _).scopes]
  refine ⟨_, congrArg (List.cons _) ?_, rfl⟩
  split
  · exact hregister
  · rfl

/-- No other step opens a scope or closes one. -/
theorem scopes_eq_of_step (hstep : step n g s = .go goals s') (hname : g ≠ .procedureHead)
    (hend : g ≠ .endScope) : s'.scopes = s.scopes := by
  cases acts_of_step hstep with
  | quiet _ hq => exact hq.scopes
  | declareVariable | declareParameter => exact State.scopes_consume _
  | noParameter c m => rw [State.scopes_consume, State.scopes_report]
  | declareFunction | noFunction => exact absurd rfl hname
  | enter | leave => rfl
  | close => exact absurd rfl hend

/-- A step opens one scope, closes the innermost one, or leaves all as they are. -/
theorem scopes_of_step (hstep : step n g s = .go goals s') :
    s.scopes <:+ s'.scopes ∨ s'.scopes <:+ s.scopes := by
  by_cases hname : g = .procedureHead
  · subst hname
    cases hstep
    obtain ⟨c, hscopes, -⟩ := scopes_nameProcedure s
    exact Or.inl (hscopes ▸ List.suffix_cons _ _)
  by_cases hend : g = .endScope
  · subst hend
    cases hstep
    unfold State.closeScope
    split
    · exact Or.inl (List.suffix_refl _)
    · next outer rest hs =>
      rw [State.scopes, State.scopes, hs]
      exact Or.inr (List.suffix_cons _ _)
  · exact Or.inl (scopes_eq_of_step hstep hname hend ▸ List.suffix_refl _)

/-- The bodies that stay open are open in the end as they were in the beginning. -/
theorem StaysOpen.suffix {scopes : List Scope} (h : StaysOpen n scopes.length goals s goals' s')
    (hs : scopes <:+ s.scopes) : scopes <:+ s'.scopes := by
  induction h with
  | here => exact hs
  | next hstep hopen _ ih =>
    refine ih ?_
    rcases scopes_of_step hstep with hsuffix | hsuffix
    · exact hs.trans hsuffix
    · exact List.suffix_of_suffix_length_le hs hsuffix hopen

/-- A body that has stayed open and is the innermost one again has the same bodies around it. -/
theorem scopes_eq_of_staysOpen (h : StaysOpen n s.scopes.length goals s goals' s')
    (hlength : s'.scopes.length = s.scopes.length) : s'.scopes = s.scopes :=
  ((h.suffix (List.suffix_refl _)).eq_of_length hlength.symm).symm

/-! ## Where nothing is complained about -/

section

variable {pending : Option Nat} {outer : List Scope} {c : Scope} {t : SymbolTable}

/-- All that is declared like a local of the innermost body was declared since that body was
opened. -/
theorem Complete.start_le_address (hp : Placed (outer ++ [c]) t)
    (h : Complete pending (outer ++ [c]) t) (hv : v ∈ t.vars) (howner : v.owner = c.owner)
    (hlevel : v.level = outer.length + 1) : (c.start : Int) ≤ v.address := by
  rcases outer.eq_nil_or_concat with rfl | ⟨init, last, rfl⟩
  · obtain rfl : c = .program := by simpa using hp.outermost
    exact (hp.address_mem hv).1
  · obtain ⟨r, hc⟩ := h.recorded _ c (List.getElem?_concat_length) (by simp)
    obtain ⟨p, hr, hname, hplevel, hfirst⟩ := hp.innermost.record r hc
    have hcovers := h.covers_of_owns hp hv hr ⟨howner.trans hname.symm, hlevel.trans hplevel.symm⟩
    have hnonneg := (hp.spans_of_covers (List.mem_of_getElem? hr) hv hcovers).first_nonneg
    have := hcovers.1
    omega

theorem mem_drop_of_start_le (hp : Placed (outer ++ [c]) t) (hv : v ∈ t.vars)
    (h : (c.start : Int) ≤ v.address) : v ∈ t.vars.drop c.start := by
  obtain ⟨i, hi⟩ := List.mem_iff_getElem?.1 hv
  have haddress := hp.addresses i v hi
  refine List.mem_iff_getElem?.2 ⟨i - c.start, ?_⟩
  rw [List.getElem?_drop, Nat.add_sub_cancel' (by omega)]
  exact hi

end

theorem signature_eq_iff {name owner : String} {kind : VariableKind} {level : Int} :
    v.signature = (name, owner, kind, level) ↔
      v.name = name ∧ v.owner = owner ∧ v.kind = kind ∧ v.level = level := by
  simp only [Variable.signature, Prod.mk.injEq]

/-- Where nothing is complained about, what is declared is distinct. -/
theorem distinct_kept :
    Kept True fun a v => View.Fits (fun a _ bodies t => Complete (a.pending bodies) bodies t) a v ∧
      v.symbols.Distinct where
  pass h := ⟨complete_upheld.kept.pass h.1, h.2⟩
  atDepth h depth := ⟨complete_upheld.kept.atDepth h.1 depth, h.2⟩
  newVariable {d v} h hs hnew := by
    refine ⟨complete_upheld.kept.newVariable h.1 hs hnew, h.2.withVariable _ fun w hw hsame => ?_⟩
    obtain ⟨hname, howner, hkind, hlevel⟩ := signature_eq_iff.1 hsame
    have hlength : v.enclosing.reverse.length = d := List.length_reverse.trans h.1.count
    have hvlevel : v.level = (v.enclosing.reverse.length : Int) + 1 := by
      rw [hlength]
      exact h.1.level
    have hstart := h.1.upheld.start_le_address h.1.placed hw howner (hlevel.trans hvlevel)
    exact hnew ⟨w, mem_drop_of_start_le h.1.placed hw hstart, hname, howner, hkind, hlevel⟩
  newParameter {d v} h hs := by
    refine ⟨complete_upheld.kept.newParameter h.1 hs, h.2.withVariable _ fun w hw hsame => ?_⟩
    obtain ⟨-, howner, -, hlevel⟩ := signature_eq_iff.1 hsame
    have hlength : v.enclosing.reverse.length = d + 1 := List.length_reverse.trans h.1.count
    have hvlevel : v.level = (v.enclosing.reverse.length : Int) := by
      rw [hlength, Int.natCast_succ]
      exact h.1.level
    -- the function has been named just now, so nothing is declared for it
    obtain ⟨r, hc⟩ := h.1.upheld.recorded _ v.scope List.getElem?_concat_length (by omega)
    obtain ⟨p, hr, hname, hplevel, -⟩ := h.1.placed.innermost.record r hc
    have hpending : (Stage.named d).pending v.bodies = some r :=
      (Stage.pending_named d _ _).trans hc
    refine h.1.upheld.not_owns_of_pending h.1.placed hr hpending hw ⟨howner.trans hname.symm, ?_⟩
    rw [hlevel, hplevel, hvlevel]
  noParameter hstrict _ := absurd trivial hstrict
  newFunction h hs hnew := ⟨complete_upheld.kept.newFunction h.1 hs hnew, h.2⟩
  noFunction hstrict _ _ := absurd trivial hstrict
  enter h := ⟨complete_upheld.kept.enter h.1, h.2⟩
  leave h := ⟨complete_upheld.kept.leave h.1, h.2⟩
  close {d v} h := by
    refine ⟨complete_upheld.kept.close h.1, ?_⟩
    unfold View.closeScope
    split
    · exact h.2
    · exact h.2

/-- Names are unique where they are declared. In every parse, given up or not, each local of the
result was declared in some state, two that were declared while the same bodies were open are one if
they share a name, and no two procedures share name and level; and without errors no two variables
agree in name, owner, kind and level. While a body stays open, the bodies that are open whenever it
is the innermost one are the same. -/
theorem parse_names_unique (n : Nesting) (tokens : List Token) :
    let r := PocketPascal.parse n tokens
    (∀ v ∈ r.vars, v.kind = .localVariable → ∃ s, DeclaresLocal n tokens s v) ∧
      (∀ s₁ v₁ s₂ v₂, DeclaresLocal n tokens s₁ v₁ → DeclaresLocal n tokens s₂ v₂ →
        s₁.scopes = s₂.scopes → v₁.name = v₂.name → v₁ = v₂) ∧
      (∀ goals s goals' s', StaysOpen n s.scopes.length goals s goals' s' →
        s'.scopes.length = s.scopes.length → s'.scopes = s.scopes) ∧
      (r.procs.map Procedure.key).Nodup ∧
      (r.errors = [] → (r.vars.map Variable.signature).Nodup) := by
  intro r
  obtain ⟨goals, s, hr, hvars, hprocs⟩ := exists_reaches_result n tokens
  refine ⟨?_, fun s₁ v₁ s₂ v₂ => eq_of_declaresLocal,
    fun _ _ _ _ => scopes_eq_of_staysOpen, ?_, fun herrors => ?_⟩
  · rw [hvars]
    refine declaresLocal_of_visits (.here _ _) hr fun v hv => ?_
    rw [State.symbols_skipLineEnds] at hv
    cases hv
  · rw [hprocs]
    exact (coherent_of_reaches hr).distinct
  · exact (distinct_kept.parse ⟨fits_start complete_start, List.nodup_nil⟩ n).2 herrors |>.2

/-- The functions of this program are named like the owner of what its own body declares, and every
body declares the same name. -/
theorem parse_names_unique_of_functions_named_main :
    let source := "begin integer x; integer function main(x); begin integer x; " ++
      "integer function main(x); begin integer x; main := x end; main := main(x) end; " ++
      "x := main(x) end"
    let tokens := (tokenize 16 source).1
    let n : Nesting := { limit := 64 }
    let r := PocketPascal.parse n tokens
    r.errors = [] ∧ (r.vars.map Variable.signature).Nodup ∧
      r.vars.map (fun v => (v.name, v.owner, v.level)) =
        [("x", "main", 1), ("x", "main", 2), ("x", "main", 2), ("x", "main", 3),
          ("x", "main", 3)] ∧
      ∃ s₁ v₁ s₂ v₂, DeclaresLocal n tokens s₁ v₁ ∧ DeclaresLocal n tokens s₂ v₂ ∧
        v₁.name = v₂.name ∧ v₁ ≠ v₂ ∧ s₁.scopes ≠ s₂.scopes := by
  intro source tokens n r
  obtain ⟨hlocals, heq, -, -, hdistinct⟩ := parse_names_unique n tokens
  have herrors : r.errors = [] := by decide +kernel
  have hvars : r.vars =
      [⟨"x", "main", .localVariable, 1, 0, valueType⟩, ⟨"x", "main", .parameter, 2, 1, valueType⟩,
        ⟨"x", "main", .localVariable, 2, 2, valueType⟩, ⟨"x", "main", .parameter, 3, 3, valueType⟩,
        ⟨"x", "main", .localVariable, 3, 4, valueType⟩] := by
    decide +kernel
  refine ⟨herrors, hdistinct herrors, by rw [hvars]; rfl, ?_⟩
  have hlocal : ∀ i v, r.vars[i]? = some v → v.kind = .localVariable →
      ∃ s, DeclaresLocal n tokens s v := fun i v hv => hlocals v (List.mem_of_getElem? hv)
  rw [hvars] at hlocal
  obtain ⟨s₁, h₁⟩ := hlocal 0 _ rfl rfl
  obtain ⟨s₂, h₂⟩ := hlocal 2 _ rfl rfl
  refine ⟨s₁, _, s₂, _, h₁, h₂, rfl, by decide, fun hscopes => ?_⟩
  exact absurd (heq _ _ _ _ h₁ h₂ hscopes rfl) (by decide)

end Parser

end PocketPascal
