import PocketPascal.Proofs.UniqueNames

/-! # The nesting limit only decides when to stop

A limit is asked for in one place only, where something is about to be nested. So two parses under
different limits take the same steps until the smaller limit refuses a nesting, and either they end
together there or the other one goes on from the very state in which the first one was given up.
Whatever had been read, reported and declared by then is still there when it ends.
-/

namespace PocketPascal

/-- A parse was given up for a reason. -/
def ParseResult.EndsWith (r : ParseResult) (reason : Parser.Abort) : Prop :=
  ∃ line, r.errors.getLast? = some (reason.on line)

theorem ParseResult.endsWith_iff (r : ParseResult) (reason : Parser.Abort) :
    (r.errors.getLast?.any fun d => d = reason.on d.line) = true ↔ r.EndsWith reason := by
  rw [EndsWith, Option.any_eq_true]
  constructor
  · rintro ⟨d, hlast, hd⟩
    exact ⟨d.line, by rw [hlast, ← of_decide_eq_true hd]⟩
  · rintro ⟨line, hlast⟩
    exact ⟨_, hlast, decide_eq_true rfl⟩

instance (r : ParseResult) (reason : Parser.Abort) : Decidable (r.EndsWith reason) :=
  decidable_of_iff _ (r.endsWith_iff reason)

/-- A parse that was given up, and one of the same tokens that was not given up there. -/
structure ParseResult.GoesOn (r r' : ParseResult) : Prop where
  tokens : r.tokens <+: r'.tokens
  /-- The last error is the one that the first parse was given up with. -/
  errors : r.errors.dropLast <+: r'.errors
  symbols : Parser.Enlarged { vars := r.vars, procs := r.procs }
    { vars := r'.vars, procs := r'.procs }

namespace Parser

variable {n n' : Nesting} {goals : List Goal} {s : State}

/-! ## One step -/

/-- What is nested in a goal is the same under every limit, and nothing else asks for one. -/
theorem step_asks_nesting (g : Goal) (s : State) :
    (∃ enter, ∀ n, step n g s = nested n s enter) ∨ ∀ n n', step n' g s = step n g s := by
  cases g with
  | construct c =>
    cases c with
    | procedureBody | expression => exact Or.inl ⟨_, fun n => by rw [step, constructMove]⟩
    | statement => exact Or.inl ⟨_, fun n => by rw [step, constructMove, statementMove]⟩
    | _ => exact Or.inr fun _ _ => rfl
  | _ => exact Or.inr fun _ _ => rfl

/-- A limit that is not smaller, and the same capacity. -/
structure Nesting.Raised (n n' : Nesting) : Prop where
  limit : n.limit ≤ n'.limit
  capacity : n'.capacity = n.capacity

namespace Nesting.Raised

theorem refusal? (raised : n.Raised n') {depth : Nat}
    (h : n.refusal? depth ≠ some (.tooNested n.limit)) : n'.refusal? depth = n.refusal? depth := by
  rw [Nesting.refusal?] at h
  split at h
  · exact absurd rfl h
  · next hlimit =>
    have hlimit' : ¬ n'.limit < depth + 1 := by
      have := raised.limit
      omega
    rw [Nesting.refusal?, Nesting.refusal?, if_neg hlimit, if_neg hlimit', raised.capacity]

theorem step (raised : n.Raised n') (g : Goal) (s : State) :
    step n' g s = step n g s ∨
      step n g s = .halt (.tooNested n.limit) s.line (s.atDepth (s.depth + 1)) := by
  rcases step_asks_nesting g s with ⟨enter, hstep⟩ | hstep
  · rw [hstep n, hstep n', nested, nested]
    by_cases hrefused : n.refusal? s.depth = some (.tooNested n.limit)
    · rw [hrefused]
      exact Or.inr rfl
    · rw [raised.refusal? hrefused]
      exact Or.inl rfl
  · exact Or.inl (hstep n n')

/-! ## A whole parse -/

/-- Goals are resolved alike, or one resolution is given up where the other one comes by. -/
theorem resolve (raised : n.Raised n') (goals : List Goal) (s : State) :
    resolve n' goals s = resolve n goals s ∨
      ∃ goals' found s₁, Visits n' goals s goals' found ∧
        resolve n goals s = .aborted (.tooNested n.limit) found.line s₁ ∧
        s₁.result = found.result := by
  fun_induction Parser.resolve n goals s with
  | case1 s => exact Or.inl (resolve_nil n' s)
  | case2 s g rest goals s₁ hstep ih =>
    have hstep' : Parser.step n' g s = .go goals s₁ := by
      rcases raised.step g s with h | h
      · rw [h, hstep]
      · rw [hstep] at h
        cases h
    rcases ih with ih | ⟨goals', found, s₂, hv, ih⟩
    · rw [resolve_cons, hstep']
      exact Or.inl ih
    · exact Or.inr ⟨goals', found, s₂, .next hstep' hv, ih⟩
  | case3 s g rest reason line s₁ hstep =>
    rcases raised.step g s with h | h
    · rw [resolve_cons, h, hstep]
      exact Or.inl rfl
    · rw [hstep] at h
      cases h
      exact Or.inr ⟨g :: rest, s, _, .here _ _, rfl, rfl⟩

/-- A parse ends alike, or is given up where the other one comes by. -/
theorem parse (raised : n.Raised n') (tokens : List Token) :
    PocketPascal.parse n' tokens = PocketPascal.parse n tokens ∨
      ∃ goals found line, Reaches n' tokens goals found ∧
        PocketPascal.parse n tokens =
          { found.result with
            errors := found.result.errors ++ [(Abort.tooNested n.limit).on line] } := by
  rcases raised.resolve [.construct .program] (State.ofTokens tokens).skipLineEnds with
    h | ⟨goals, found, s₁, hv, h, hresult⟩
  · refine Or.inl ?_
    rw [PocketPascal.parse, PocketPascal.parse, State.parse, State.parse, find, find, h]
  · refine Or.inr ⟨goals, found, found.line, hv, ?_⟩
    rw [PocketPascal.parse, State.parse_of_aborted h, State.result_giveUp, hresult]

end Nesting.Raised

/-- A parse goes on from where it comes by. -/
theorem Reaches.goesOn {tokens : List Token} (hr : Reaches n tokens goals s) (d : Diagnostic) :
    ParseResult.GoesOn { s.result with errors := s.result.errors ++ [d] }
      (PocketPascal.parse n tokens) := by
  have hread := (prefixes_lasting s.consumed s.errors).parse_of_reaches hr
    ⟨List.prefix_refl _, List.prefix_refl _⟩
  have hdeclared := (enlarged_declaring s.symbols).lasting.parse_of_reaches hr
    ⟨coherent_of_reaches hr, .refl _⟩
  refine ⟨hread.1, ?_, hdeclared.2⟩
  rw [List.dropLast_concat]
  exact hread.2

end Parser

/-- Under a larger limit a parse yields the same unless the smaller limit ended it. If that did, the
parse goes on: what it had yielded is still there, apart from the error that it was given up with,
and the functions that were open may have got larger ranges. -/
theorem parse_of_limit_le {limit limit' : Int} (hle : limit ≤ limit') (capacity : Option Nat)
    (tokens : List Token) :
    (¬ (parse ⟨limit, capacity⟩ tokens).EndsWith (.tooNested limit) →
      parse ⟨limit', capacity⟩ tokens = parse ⟨limit, capacity⟩ tokens) ∧
    ((parse ⟨limit, capacity⟩ tokens).EndsWith (.tooNested limit) →
      (parse ⟨limit, capacity⟩ tokens).GoesOn (parse ⟨limit', capacity⟩ tokens)) := by
  have raised : Parser.Nesting.Raised ⟨limit, capacity⟩ ⟨limit', capacity⟩ := ⟨hle, rfl⟩
  rcases raised.parse tokens with hsame | ⟨goals, found, line, hr, hgiven⟩
  · refine ⟨fun _ => hsame, fun _ => ?_⟩
    rw [hsame]
    exact ⟨List.prefix_refl _, List.dropLast_prefix _, .refl _⟩
  · rw [hgiven]
    exact ⟨fun h => absurd ⟨line, List.getLast?_concat⟩ h, fun _ => hr.goesOn _⟩

/-- The body of the inner function is refused while the outer one still declares variables, so the
range of the outer one gets larger when the parse goes on. -/
theorem parse_of_limit_le_of_open_function :
    let tokens := (tokenize 16 <| "begin integer function f(x); begin integer a; " ++
      "integer function g(y); begin g := y end; integer b; f := b end; read(x) end").1
    let r := parse { limit := 1 } tokens
    let r' := parse { limit := 64 } tokens
    r.EndsWith (.tooNested 1) ∧ r.GoesOn r' ∧
      r.procs.map (fun p => (p.name, p.first, p.last)) = [("f", 0, 1), ("g", 2, 2)] ∧
      r'.procs.map (fun p => (p.name, p.first, p.last)) = [("f", 0, 3), ("g", 2, 2)] := by
  intro tokens r r'
  have hends : r.EndsWith (.tooNested 1) := by decide +kernel
  exact ⟨hends, (parse_of_limit_le (by decide) (some 256) tokens).2 hends, by decide +kernel,
    by decide +kernel⟩

end PocketPascal
