import PocketPascal.Proofs.UniqueNames

/-! # What a call leaves as it found it

Whatever state a construct is looked for in, the call either comes to an end with the same bodies
open as before, at the same level and depth, or it is given up with some more bodies open around
what was given up. The stage that the goals left lead on from tells how many these are.
-/

namespace PocketPascal.Parser

variable {n : Nesting} {g : Goal} {goals goals' : List Goal} {s s₁ base : State} {a b : Stage}

/-! ## Levels -/

namespace State

@[simp] theorem level_consume (s : State) : s.consume.2.level = s.level :=
  congrArg View.level (view_consume s)

@[simp] theorem level_report (s : State) (c : Category) (m : String) :
    (s.report c m).level = s.level :=
  congrArg View.level (view_report s c m)

@[simp] theorem level_skipLineEnds (s : State) : s.skipLineEnds.level = s.level :=
  congrArg View.level (view_skipLineEnds s)

theorem Quiet.level (h : s.Quiet s₁) : s₁.level = s.level := by
  induction h with
  | refl => rfl
  | consume _ ih => rw [level_consume, ih]
  | report _ c m ih => rw [level_report, ih]
  | atDepth _ d ih => exact ih

@[simp] theorem level_closeScope (s : State) : s.closeScope.level = s.level := by
  unfold closeScope
  split <;> rfl

theorem scopes_closeScope {c outer : Scope} {rest : List Scope}
    (h : s.scopes = c :: outer :: rest) : s.closeScope.scopes = outer :: rest := by
  rw [closeScope, show s.enclosing = outer :: rest from List.tail_eq_of_cons_eq h]
  rfl

end State

/-! ## What is open at a stage -/

/-- The bodies that are open in one state are open in another one, with as many others inside as
there are at a stage. -/
structure State.Above (base : State) (a : Stage) (s : State) : Prop where
  scopes : ∃ opened, s.scopes = opened ++ base.scopes ∧ opened.length = a.enclosing
  level : s.level = base.level + a.depth

namespace State.Above

theorem refl (s : State) : s.Above (.body 0) s where
  scopes := ⟨[], rfl, rfl⟩
  level := (Int.add_zero _).symm

theorem of_eq (h : base.Above a s) (henclosing : b.enclosing = a.enclosing)
    (hdepth : b.depth = a.depth) (hscopes : s₁.scopes = s.scopes) (hlevel : s₁.level = s.level) :
    base.Above b s₁ where
  scopes := by
    rw [hscopes, henclosing]
    exact h.scopes
  level := by rw [hlevel, h.level, hdepth]

theorem of_quiet (h : base.Above a s) (hq : s.Quiet s₁) : base.Above a s₁ :=
  h.of_eq rfl rfl hq.scopes hq.level

theorem openScope {d : Nat} (h : base.Above (.body d) s) (owner : String) (record : Option Nat) :
    base.Above (.named d) (s.openScope owner record) where
  scopes := by
    obtain ⟨opened, hopened, hlength⟩ := h.scopes
    refine ⟨.after s.symbols owner record :: opened, ?_, congrArg (· + 1) hlength⟩
    rw [State.scopes_openScope, hopened, List.cons_append]
  level := h.level

theorem closeScope {d : Nat} (h : base.Above (.left d) s) : base.Above (.body d) s.closeScope where
  scopes := by
    obtain ⟨opened, hopened, hlength⟩ := h.scopes
    obtain ⟨c, opened, rfl⟩ := List.exists_cons_of_length_eq_add_one hlength
    -- the scopes of a state are never none, so there is one below those that were opened
    obtain ⟨outer, rest, hrest⟩ : ∃ outer rest, opened ++ base.scopes = outer :: rest :=
      List.exists_cons_of_ne_nil (List.append_ne_nil_of_right_ne_nil _ (List.cons_ne_nil _ _))
    rw [List.cons_append, hrest] at hopened
    rw [State.scopes_closeScope hopened]
    exact ⟨opened, hrest.symm, Nat.succ.inj hlength⟩
  level := by
    rw [State.level_closeScope]
    exact h.level

theorem enterBody {d : Nat} (h : base.Above (.headed d) s) :
    base.Above (.body (d + 1)) s.enterBody where
  scopes := h.scopes
  level := by
    have hlevel : s.level = base.level + d := h.level
    change s.level + 1 = base.level + (d + 1 : Nat)
    omega

theorem leaveBody {d : Nat} (h : base.Above (.body (d + 1)) s) :
    base.Above (.left d) s.leaveBody where
  scopes := h.scopes
  level := by
    have hlevel : s.level = base.level + (d + 1 : Nat) := h.level
    change s.level - 1 = base.level + d
    omega

/-- A step leaves the bodies open that were open below a stage, and comes to the stage that the
goals lead on from. -/
theorem of_acts (hacts : Acts g s goals s₁) (hg : g.Leads a b) (h : base.Above a s) :
    ∃ a₁, Leads goals a₁ b ∧ base.Above a₁ s₁ := by
  cases hacts with
  | quiet hgoals hq => exact ⟨a, hgoals hg, h.of_quiet hq⟩
  | declareVariable _ _ =>
    obtain ⟨d, rfl, rfl⟩ := hg.body_of_isLocal rfl
    exact ⟨.body d, .done _, h.of_eq rfl rfl (State.scopes_consume _) (State.level_consume _)⟩
  | declareParameter _ =>
    obtain ⟨d, rfl, rfl⟩ := hg.passage
    exact ⟨.headed d, .done _, h.of_eq rfl rfl (State.scopes_consume _) (State.level_consume _)⟩
  | noParameter c m =>
    obtain ⟨d, rfl, rfl⟩ := hg.passage
    exact ⟨.headed d, .done _, (h.of_quiet (.consume (.report .refl c m))).of_eq rfl rfl rfl rfl⟩
  | declareFunction _ _ =>
    obtain ⟨d, rfl, rfl⟩ := hg.passage
    have hconsume := h.of_eq rfl rfl (State.scopes_consume { s with
      symbols := s.symbols.withProcedure s.lookahead.text (s.level + 1) }) (State.level_consume _)
    exact ⟨.named d, .done _, hconsume.openScope _ _⟩
  | noFunction c m _ =>
    obtain ⟨d, rfl, rfl⟩ := hg.passage
    have hconsume := h.of_quiet (.consume (.report .refl c m))
    exact ⟨.named d, .done _, hconsume.openScope _ _⟩
  | enter depth =>
    obtain ⟨d, rfl, rfl⟩ := hg.passage
    have hbody : Leads [.construct .body, .endBody] (.body (d + 1)) (.left d) :=
      .next (.inBody rfl _) (.next (.endBody d) (.done _))
    exact ⟨.body (d + 1), hbody, (h.of_quiet (.atDepth .refl depth)).enterBody⟩
  | leave =>
    obtain ⟨d, rfl, rfl⟩ := hg.passage
    exact ⟨.left d, .done _, h.leaveBody⟩
  | close =>
    obtain ⟨d, rfl, rfl⟩ := hg.passage
    exact ⟨.body d, .done _, h.closeScope⟩

theorem of_visits (hv : Visits n goals s goals' s₁) (hlead : Leads goals a b)
    (h : base.Above a s) : ∃ a', Leads goals' a' b ∧ base.Above a' s₁ := by
  induction hv generalizing a with
  | here => exact ⟨a, hlead, h⟩
  | next hstep _ ih =>
    cases hlead with
    | next hg hrest =>
      obtain ⟨a₁, hgoals, h₁⟩ := h.of_acts (acts_of_step hstep) hg
      exact ih (hgoals.append hrest) h₁

end State.Above

/-! ## Levels and open bodies after a call -/

/-- A resolution of goals leaves the level and the open bodies as they were, or is given up at that
level or further in, inside all that was open. -/
inductive Outcome.Inside (s : State) : Outcome → Prop where
  | finished {s₁ : State} (level : s₁.level = s.level) (scopes : s₁.scopes = s.scopes) :
      Inside s (.finished s₁)
  | aborted {reason : Abort} {line : Int} {s₁ : State} (level : s.level ≤ s₁.level)
      (scopes : s.scopes <:+ s₁.scopes) : Inside s (.aborted reason line s₁)

/-- Where a resolution is given up, nothing is opened or closed any more. -/
theorem quiet_of_halt {reason : Abort} {line : Int} (h : step n g s = .halt reason line s₁) :
    s.Quiet s₁ := by
  obtain ⟨-, rfl | rfl⟩ := halt_cases h
  · exact .atDepth .refl _
  · exact .consume .refl

theorem inside_of_leads (hlead : Leads goals (.body 0) (.body 0)) (n : Nesting) (s : State) :
    (resolve n goals s).Inside s := by
  cases hresolve : resolve n goals s with
  | finished s₁ =>
    obtain ⟨a, hdone, h⟩ :=
      (State.Above.refl s).of_visits (visits_of_finished hresolve) hlead
    cases hdone
    obtain ⟨opened, hopened, hlength⟩ := h.scopes
    obtain rfl := List.eq_nil_of_length_eq_zero hlength
    exact .finished (h.level.trans (Int.add_zero _)) hopened
  | aborted reason line s₁ =>
    obtain ⟨g, rest, found, s₂, hv, hhalt, rfl⟩ := visits_of_aborted hresolve
    obtain ⟨a, -, h⟩ := (State.Above.refl s).of_visits hv hlead
    have hquiet := quiet_of_halt hhalt
    refine .aborted ?_ ?_
    · change s.level ≤ s₂.level
      rw [hquiet.level, h.level]
      omega
    · change s.scopes <:+ s₂.scopes
      obtain ⟨opened, hopened, -⟩ := h.scopes
      rw [hquiet.scopes, hopened]
      exact List.suffix_append _ _

theorem inside_procedureBody (n : Nesting) (s : State) : (find n .procedureBody s).Inside s := by
  rw [find, resolve_cons, step, constructMove, nested]
  cases n.refusal? s.depth with
  | some reason => exact .aborted (Int.le_refl _) (List.suffix_refl _)
  | none =>
    have hlead : Leads [.construct .body] (.body 0) (.body 0) := leads_in_body rfl 0
    have hbody := inside_of_leads hlead n (s.atDepth (s.depth + 1)).enterBody
    change (resolve n ([.construct .body] ++ [.endBody])
      (s.atDepth (s.depth + 1)).enterBody).Inside s
    rw [resolve_append]
    generalize resolve n [.construct .body] (s.atDepth (s.depth + 1)).enterBody = o at hbody ⊢
    cases hbody with
    | @finished s₁ level scopes =>
      have hleave : resolve n [.endBody] s₁ = .finished s₁.leaveBody := by
        rw [resolve_cons]
        exact resolve_nil n _
      dsimp only
      rw [hleave]
      refine .finished ?_ scopes
      change s₁.level - 1 = s.level
      rw [level]
      exact Int.add_sub_cancel s.level 1
    | aborted level scopes =>
      exact .aborted (Int.le_trans (Int.le_add_one (Int.le_refl _)) level) scopes

theorem inside_parameterDeclaration (n : Nesting) (s : State) :
    (find n .parameterDeclaration s).Inside s := by
  obtain ⟨s₁, hstep⟩ : ∃ s₁, step n (.construct .parameterDeclaration) s = .go [] s₁ := ⟨_, rfl⟩
  have hfind : find n .parameterDeclaration s = .finished s₁ := by
    rw [find, resolve_cons, hstep]
    exact resolve_nil n s₁
  rw [hfind]
  have hacts := acts_of_step hstep
  cases hacts with
  | quiet _ hq => exact .finished hq.level hq.scopes
  | declareParameter _ => exact .finished (State.level_consume _) (State.scopes_consume _)
  | noParameter c m =>
    have hq : s.Quiet (s.report c m).consume.2 := .consume (.report .refl c m)
    exact .finished hq.level hq.scopes

/-- Whatever construct is looked for in whatever state. -/
theorem inside_find (n : Nesting) (c : Construct) (s : State) : (find n c s).Inside s := by
  cases c with
  | procedureBody => exact inside_procedureBody n s
  | parameterDeclaration => exact inside_parameterDeclaration n s
  | _ => exact inside_of_leads (leads_in_body rfl 0) n s

/-! ## What a call leaves behind -/

/-- What a call that comes to an end leaves as it was. -/
structure State.Restored (s s₁ : State) : Prop where
  level : s₁.level = s.level
  depth : s₁.depth = s.depth
  scopes : s₁.scopes = s.scopes

/-- What a call that is given up leaves behind. The reason for that is not recorded yet. -/
structure State.Abandoned (s : State) (reason : Abort) (s₁ : State) : Prop where
  level : s.level ≤ s₁.level
  scopes : s.scopes <:+ s₁.scopes
  errors : ∃ soft, s₁.errors = s.errors ++ soft ∧ ∀ d ∈ soft, d.fatal = false
  notAStatement : ∀ found, reason = .notAStatement found → s₁.depth = s.depth
  tooNested : ∀ limit, reason = .tooNested limit → s₁.depth = s.depth + 1

/-- The procedures are still the same, and where the state that they come from added up, they have
only got larger ranges. -/
structure State.SameProcedures (s s₁ : State) : Prop where
  keys : s.symbols.procs.map Procedure.key <+: s₁.symbols.procs.map Procedure.key
  enlarged : Coherent s.scopes s.symbols → Enlarged s.symbols s₁.symbols

theorem keys_declaring (keys : List (String × Int)) :
    Declaring fun _ t => keys <+: t.procs.map Procedure.key where
  newVariable h name kind level := by
    rw [SymbolTable.map_key_withVariable]
    exact h
  newProcedure h _ _ _ := h.trans ((List.prefix_append _ _).map _)
  openProcedure h _ _ _ := h.trans ((List.prefix_append _ _).map _)
  openScope h _ := h
  close h := h

theorem sameProcedures_find (n : Nesting) (c : Construct) (s : State) :
    s.SameProcedures (find n c s).state where
  keys := (keys_declaring _).lasting.find (List.prefix_refl _) n c
  enlarged hc := ((enlarged_declaring s.symbols).lasting.find ⟨hc, .refl _⟩ n c).2

theorem soft_invariant (errors : List Diagnostic) : Invariant fun s =>
    ∃ soft, s.errors = errors ++ soft ∧ ∀ d ∈ soft, d.fatal = false := by
  refine .of_readsAs ?_ ?_ ?_
  · intro s s' hr h
    rw [hr.errors]
    exact h
  · intro s h
    rw [State.errors_consume]
    exact h
  · rintro s ⟨soft, herrors, hsoft⟩ c m
    rw [State.errors_report, herrors]
    split
    · refine ⟨soft ++ [_], List.append_assoc _ _ _, ?_⟩
      simpa [or_imp, forall_and] using hsoft
    · exact ⟨soft, rfl, hsoft⟩

theorem restored_of_finished {c : Construct} (hfind : find n c s = .finished s₁) :
    s.Restored s₁ := by
  have hinside := inside_find n c s
  rw [hfind] at hinside
  cases hinside with
  | finished level scopes =>
    exact ⟨level, depth_of_visits_construct (visits_of_finished hfind), scopes⟩

theorem abandoned_of_aborted {c : Construct} {reason : Abort} {line : Int}
    (hfind : find n c s = .aborted reason line s₁) : s.Abandoned reason s₁ := by
  have hinside := inside_find n c s
  rw [hfind] at hinside
  have herrors : ∃ soft, s₁.errors = s.errors ++ soft ∧ ∀ d ∈ soft, d.fatal = false := by
    rcases (soft_invariant s.errors).resolve ⟨[], (List.append_nil _).symm, by simp⟩ n
      [.construct c] with ⟨s₂, hs, -⟩ | ⟨reason, found, s₂, hs, -, -, h⟩
    · cases hs.symm.trans hfind
    · cases hs.symm.trans hfind
      exact h
  cases hinside with
  | aborted level scopes =>
    refine ⟨level, scopes, herrors, ?_, ?_⟩
    · rintro found rfl
      rcases depth_of_aborted hfind with ⟨-, hdepth⟩ | ⟨hreason, -⟩
      · exact hdepth
      · simp at hreason
    · rintro limit rfl
      rcases depth_of_aborted hfind with ⟨⟨_, hreason⟩, -⟩ | ⟨-, hdepth⟩
      · cases hreason
      · exact hdepth

/-- A fresh parser ends its parse as it began it, unless it gives up. -/
theorem restored_parse (n : Nesting) (tokens : List Token)
    (h : aborted ((State.ofTokens tokens).parse n).errors = false) :
    (State.ofTokens tokens).Restored ((State.ofTokens tokens).parse n) := by
  cases hfind : find n .program (State.ofTokens tokens).skipLineEnds with
  | finished s₁ =>
    have hrestored := restored_of_finished hfind
    rw [State.parse_of_finished hfind]
    exact ⟨hrestored.level.trans (State.level_skipLineEnds _),
      hrestored.depth.trans (State.depth_skipLineEnds _),
      hrestored.scopes.trans (State.scopes_skipLineEnds _)⟩
  | aborted reason line s₁ =>
    rw [State.parse_of_aborted hfind, aborted, List.any_eq_false] at h
    exact absurd rfl (h (reason.on line) List.mem_concat_self)

/-- Whatever state a construct is looked for in, a call that comes to an end leaves the level, the
depth and the open bodies as they were. One that is given up leaves all these bodies open, with
others inside them, and has only added errors that are not fatal; a nesting that was refused is
still counted then. In both cases the procedures are the same, and only their ranges have grown. So
a parse that is not given up ends in the program body, with nothing open. -/
theorem find_balanced (n : Nesting) (c : Construct) (s : State) :
    (match find n c s with
      | .finished s₁ => s.Restored s₁
      | .aborted reason _ s₁ => s.Abandoned reason s₁) ∧
    s.SameProcedures (find n c s).state ∧
    ∀ tokens, aborted ((State.ofTokens tokens).parse n).errors = false →
      ((State.ofTokens tokens).parse n).level = 1 ∧ ((State.ofTokens tokens).parse n).depth = 0 ∧
        ((State.ofTokens tokens).parse n).scopes = [.program] := by
  refine ⟨?_, sameProcedures_find n c s, fun tokens h => ?_⟩
  · cases hfind : find n c s with
    | finished s₁ => exact restored_of_finished hfind
    | aborted reason line s₁ => exact abandoned_of_aborted hfind
  · obtain ⟨level, depth, scopes⟩ := restored_parse n tokens h
    exact ⟨level, depth, scopes⟩

/-- A declaration that is given up in the body of the inner one of these functions leaves both of
them open, and one that comes after that comes to an end inside them. A program that reads an
unknown variable ends with nothing open. -/
theorem find_balanced_of_nested_functions :
    let tokens := (tokenize 16 <| "integer function f(x); begin integer function g(y); begin " ++
      "then integer function h(z); begin h := z end;").1
    let n : Nesting := { limit := 64 }
    let s := (State.ofTokens tokens).skipLineEnds
    let s₁ := (find n .declaration s).state
    let s₂ := (find n .declaration s₁).state
    let last := (State.ofTokens (tokenize 16 "begin integer a; read(b) end").1).parse n
    s₁.scopes.map Scope.owner = ["g", "f", "main"] ∧ s.Abandoned (.notAStatement "then") s₁ ∧
      s₂.symbols.procs.map Procedure.name = ["f", "g", "h"] ∧ s₁.Restored s₂ ∧
      last.errors.length = 1 ∧ last.level = 1 ∧ last.depth = 0 ∧ last.scopes = [.program] := by
  intro tokens n s s₁ s₂ last
  have hfind : find n .declaration s = .aborted (.notAStatement "then") 1 s₁ := by decide +kernel
  have hfind₁ : find n .declaration s₁ = .finished s₂ := by decide +kernel
  have hlast : aborted last.errors = false := by decide +kernel
  obtain ⟨habandoned, -, hfresh⟩ := find_balanced n .declaration s
  obtain ⟨hrestored, -, -⟩ := find_balanced n .declaration s₁
  rw [hfind] at habandoned
  rw [hfind₁] at hrestored
  exact ⟨by decide +kernel, habandoned, by decide +kernel, hrestored, by decide +kernel,
    hfresh _ hlast⟩

end PocketPascal.Parser
