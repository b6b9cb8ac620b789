import PocketPascal.Proofs.AnyOrder
import PocketPascal.Proofs.Coalescing

/-! # Parses come to an end

Every step leaves less to do than there was, counting the tokens ahead and the weights of the goals.
So a resolution of goals ends after a number of steps that the tokens ahead bound, whatever state it
begins in and however deep it may nest, and it comes back to a goal within that goal only behind a
token. It ends because nothing is left to be found, or because a token starts no statement, or at a
nesting that is too deep. Reads that would fail past the last token are not needed: a parser looks
before it reads.
-/

namespace PocketPascal

namespace Cursor

variable {α : Type} {c : Cursor α}

theorem current_of_isOpen (h : c.isOpen = true) : ∃ a, c.current = .ok a ∧ c.peek? = some a := by
  rcases c with ⟨passed, _ | ⟨a, rest⟩⟩
  · cases h
  · exact ⟨a, rfl, rfl⟩

theorem consume_of_isOpen (h : c.isOpen = true) :
    ∃ a, c.consume = .ok (a, c.advance) ∧ c.peek? = some a := by
  rcases c with ⟨passed, _ | ⟨a, rest⟩⟩
  · cases h
  · exact ⟨a, rfl, rfl⟩

theorem of_not_isOpen (h : ¬ c.isOpen = true) : c.peek? = none ∧ c.advance = c := by
  rcases c with ⟨passed, _ | ⟨a, rest⟩⟩
  · exact ⟨rfl, rfl⟩
  · exact absurd rfl h

end Cursor

namespace Parser

variable {n : Nesting} {g : Goal} {goals goals' rest : List Goal} {s s₁ s₂ : State}

/-! ## Reading -/

namespace State

theorem remaining_crossLine_lt (h : s.cursor.isOpen = true) :
    s.crossLine.remaining < s.remaining := by
  rw [remaining, cursor_crossLine, remaining]
  cases hs : s.cursor.ahead with
  | nil => simp [Cursor.isOpen, hs] at h
  | cons t rest => simp [Cursor.advance, hs]

/-- Passes the ends of lines with reads that fail past the last token. -/
def skipLineEnds? (s : State) : Except Cursor.PastEnd State :=
  if _open : s.cursor.isOpen = true then
    match s.cursor.current with
    | .error e => .error e
    | .ok t =>
      if t.kind = .endOfLine then
        match s.cursor.consume with
        | .error e => .error e
        | .ok _ => skipLineEnds? s.crossLine
      else .ok s
  else .ok s
termination_by s.remaining
decreasing_by exact remaining_crossLine_lt _open

/-- Takes the next token that is no end of line with reads that fail past the last token. -/
def consume? (s : State) : Except Cursor.PastEnd (Token × State) := do
  let s ← s.skipLineEnds?
  if s.cursor.isOpen then
    let (t, cursor) ← s.cursor.consume
    let s ← skipLineEnds? { s with cursor }
    return (t, s)
  else
    return (.endOfFile, s)

theorem lookahead_of_peek? {t : Token} (h : s.cursor.peek? = some t) : s.lookahead = t := by
  rw [lookahead, h, Option.getD_some]

/-- An end of a line that is passed is one that is there. -/
theorem skipLineEnds?_eq_ok (s : State) : s.skipLineEnds? = .ok s.skipLineEnds := by
  fun_induction skipLineEnds? s with
  | case1 s hopen e he =>
    obtain ⟨t, ht, -⟩ := Cursor.current_of_isOpen hopen
    rw [ht] at he
    cases he
  | case2 s hopen t _ _ e he =>
    obtain ⟨t', ht, -⟩ := Cursor.consume_of_isOpen hopen
    rw [ht] at he
    cases he
  | case3 s hopen t ht hkind _ _ ih =>
    obtain ⟨t', ht', hpeek⟩ := Cursor.current_of_isOpen hopen
    obtain rfl : t = t' := Except.ok.inj (ht.symm.trans ht')
    have hsees : s.sees .endOfLine = true := by
      rw [sees, lookahead_of_peek? hpeek, hkind]
      rfl
    rw [ih, skipLineEnds_of_sees hsees]
  | case4 s hopen t ht hkind =>
    obtain ⟨t', ht', hpeek⟩ := Cursor.current_of_isOpen hopen
    obtain rfl : t = t' := Except.ok.inj (ht.symm.trans ht')
    rw [skipLineEnds_eq_self]
    rw [Settled, lookahead_of_peek? hpeek]
    exact hkind
  | case5 s hopen =>
    rw [skipLineEnds_eq_self]
    rw [Settled, lookahead, (Cursor.of_not_isOpen hopen).1]
    decide

/-- A token that is taken is one that is there, or the end of file. -/
theorem consume?_eq_ok (s : State) : s.consume? = .ok s.consume := by
  rw [consume?, skipLineEnds?_eq_ok, consume]
  dsimp only [bind, Except.bind]
  split
  · next hopen =>
    obtain ⟨t, ht, hpeek⟩ := Cursor.consume_of_isOpen hopen
    rw [ht]
    dsimp only
    rw [skipLineEnds?_eq_ok, lookahead_of_peek? hpeek]
    rfl
  · next hopen =>
    obtain ⟨hpeek, hadvance⟩ := Cursor.of_not_isOpen hopen
    rw [hadvance, lookahead, hpeek]
    rw [skipLineEnds_eq_self (settled_skipLineEnds s)]
    rfl

end State

/-! ## Steps -/

/-- Where the resolution of goals comes to rest with an outcome: all are resolved, or the first one
gives the parse up. -/
inductive Rests (n : Nesting) : List Goal → State → Outcome → Prop where
  | finished (s : State) : Rests n [] s (.finished s)
  | aborted {g : Goal} {rest : List Goal} {s s₁ : State} {reason : Abort} {line : Int}
      (h : step n g s = .halt reason line s₁) :
      Rests n (g :: rest) s (.aborted reason line (s₁.unwind rest))

/-- What is left to be done bounds the steps that are taken. -/
theorem advance_rests (n : Nesting) (goals : List Goal) (s : State) :
    ∃ k ≤ Goal.tokenWeight * s.remaining + Goal.totalWeight goals, ∃ goals' s',
      advance n k goals s = some (goals', s') ∧ Rests n goals' s' (resolve n goals s) := by
  fun_induction resolve n goals s with
  | case1 s => exact ⟨0, Nat.zero_le _, [], s, rfl, .finished s⟩
  | case2 s g rest goals s₁ hstep ih =>
    obtain ⟨k, hk, goals', s', hadvance, hrests⟩ := ih
    have hlighter := step_lighter n g s
    rw [hstep, Move.Lighter] at hlighter
    rw [Goal.totalWeight_append] at hk
    refine ⟨k + 1, ?_, goals', s', ?_, hrests⟩
    · rw [Goal.totalWeight]
      omega
    · rw [advance, hstep]
      exact hadvance
  | case3 s g rest reason line s₁ hstep =>
    exact ⟨0, Nat.zero_le _, g :: rest, s, rfl, .aborted hstep⟩

/-- What is left to be done does not grow on the way. -/
theorem Visits.weight_le (hv : Visits n goals s goals' s₁) :
    Goal.tokenWeight * s₁.remaining + Goal.totalWeight goals' ≤
      Goal.tokenWeight * s.remaining + Goal.totalWeight goals := by
  induction hv with
  | here => exact Nat.le_refl _
  | @next g rest goals goals' s s₁ s' hstep _ ih =>
    have hlighter := step_lighter n g s
    rw [hstep, Move.Lighter] at hlighter
    rw [Goal.totalWeight_append] at ih
    rw [Goal.totalWeight]
    omega

theorem position_add_remaining {tokens : List Token} (h : s.cursor.toList = tokens) :
    s.cursor.position + s.remaining = tokens.length := by
  rw [← h, Cursor.toList, List.length_append, List.length_reverse]
  rfl

/-- A goal that comes up again while it is resolved is tokens further on. -/
theorem position_lt_of_cycle {inner : List Goal} (hstep : step n g s = .go goals s₁)
    (hv : Visits n (goals ++ rest) s₁ (g :: inner ++ rest) s₂) :
    s.cursor.position < s₂.cursor.position := by
  have hlighter := step_lighter n g s
  rw [hstep, Move.Lighter] at hlighter
  have hweight := hv.weight_le
  rw [Goal.totalWeight_append, Goal.totalWeight_append, Goal.totalWeight] at hweight
  have hlt : s₂.remaining < s.remaining := by
    simp only [Goal.tokenWeight] at hlighter hweight
    omega
  have inv := (toList_lasting s.cursor.toList).toInvariant
  have htokens : s₂.cursor.toList = s.cursor.toList := inv.of_visits (inv.of_step rfl hstep) hv
  have h := position_add_remaining (s := s) rfl
  have h₂ := position_add_remaining htokens
  omega

theorem position_crossLine (h : s.sees .endOfLine = true) :
    s.crossLine.cursor.position = s.cursor.position + 1 := by
  obtain ⟨t, rest, ht, -⟩ := Tracks.ahead_of_sees_endOfLine h
  rw [State.cursor_crossLine, Cursor.advance, ht]
  rfl

/-! ## Giving up -/

/-- The fatal diagnostics of parses under a limit. -/
inductive FatalUnder (limit : Int) : Diagnostic → Prop where
  | notAStatement (line : Int) (found : String) :
    FatalUnder limit
      { category := .grammar
        line
        message := s!"Expect executions, but got '{found}'. " ++
          "Please move all declarations to the beginning of the procedure"
        fatal := true }
  | tooNested (line : Int) :
    FatalUnder limit
      { category := .grammar
        line
        message := s!"Nesting exceeds {limit} levels"
        fatal := true }

/-- Why a goal gives a parse up: a statement for a token that starts none, and what is counted for
the limit or for the capacity, where there is one. -/
inductive Refuses (n : Nesting) (s : State) : Goal → Abort → Prop where
  | notAStatement (h : s.lookahead.kind ∉ [.readKey, .writeKey, .identifier, .ifKey]) :
      Refuses n s (.construct .statement) (.notAStatement s.consume.1.text)
  | tooNested {c : Construct} (hc : c ∈ nestings) (h : n.limit < s.depth + 1) :
      Refuses n s (.construct c) (.tooNested n.limit)
  | exhausted {c : Construct} (hc : c ∈ nestings) {capacity : Nat}
      (hcapacity : n.capacity = some capacity) (h : capacity < s.depth + 1) :
      Refuses n s (.construct c) .exhausted

theorem refuses_of_refusal? {c : Construct} (hc : c ∈ nestings) {reason : Abort}
    (h : n.refusal? s.depth = some reason) : Refuses n s (.construct c) reason := by
  rw [Nesting.refusal?] at h
  split at h
  · next hlimit =>
    obtain rfl := Option.some.inj h
    exact .tooNested hc hlimit
  · split at h
    · next hcapacity =>
      obtain ⟨capacity, hn, hlt⟩ := (Option.any_eq_true _ _).1 hcapacity
      obtain rfl := Option.some.inj h
      exact .exhausted hc hn (of_decide_eq_true hlt)
    · cases h

/-- A goal that gives a parse up has a reason to. -/
theorem refuses_of_halt {reason : Abort} {line : Int} (h : step n g s = .halt reason line s₁) :
    Refuses n s g reason := by
  obtain ⟨-, hhalts⟩ := halts_of_step h
  cases hhalts with
  | refused hc hrefusal => exact refuses_of_refusal? hc hrefusal
  | notAStatement _ hkind => exact .notAStatement hkind

/-- The message of an abort that has a reason is one of two, unless a capacity is to blame. -/
theorem Refuses.fatalUnder {reason : Abort} (h : Refuses n s g reason) (line : Int) :
    FatalUnder n.limit (reason.on line) ∨ reason = .exhausted ∧ n.capacity.isSome = true := by
  cases h with
  | notAStatement => exact Or.inl (.notAStatement line _)
  | tooNested => exact Or.inl (.tooNested line)
  | exhausted _ hcapacity => exact Or.inr ⟨rfl, Option.isSome_of_eq_some hcapacity⟩

/-- A parse that is given up is recorded as such and yields a result all the same. -/
theorem result_parse (n : Nesting) (s : State) :
    (s.parse n).result =
      { (find n .program s.skipLineEnds).state.result with
        errors := (find n .program s.skipLineEnds).state.errors ++
          (find n .program s.skipLineEnds).fatal } := by
  rw [State.parse]
  cases find n .program s.skipLineEnds with
  | finished s₁ => exact congrArg _ (List.append_nil _).symm
  | aborted reason line s₁ => rfl

/-- Whatever state a construct is looked for in, the search ends within a number of steps that the
tokens ahead bound: it comes to rest, or is given up with one of two messages. A whole parse always
yields a result. No read fails past the last token. A goal that comes up again while it is resolved
is further on, and so is every end of a line that is passed. -/
theorem find_terminates (n : Nesting) (c : Construct) (s : State) :
    (∃ k ≤ Goal.tokenWeight * s.remaining + Goal.constructWeight c, ∃ goals s₁,
      advance n k [.construct c] s = some (goals, s₁) ∧ Rests n goals s₁ (find n c s)) ∧
    (∀ reason line s₁, find n c s = .aborted reason line s₁ →
      (FatalUnder n.limit (reason.on line) ∨ reason = .exhausted ∧ n.capacity.isSome = true) ∧
      ∃ g rest found, Visits n [.construct c] s (g :: rest) found ∧ Refuses n found g reason ∧
        line = found.line) ∧
    (s.parse n).result =
      { (find n .program s.skipLineEnds).state.result with
        errors := (find n .program s.skipLineEnds).state.errors ++
          (find n .program s.skipLineEnds).fatal } ∧
    s.skipLineEnds? = .ok s.skipLineEnds ∧ s.consume? = .ok s.consume ∧
    (∀ g goals inner rest s₁ s₂, step n g s = .go goals s₁ →
      Visits n (goals ++ rest) s₁ (g :: inner ++ rest) s₂ →
      s.cursor.position < s₂.cursor.position) ∧
    (s.sees .endOfLine = true → s.crossLine.cursor.position = s.cursor.position + 1) := by
  refine ⟨advance_rests n [.construct c] s, fun reason line s₁ hfind => ?_, result_parse n s,
    s.skipLineEnds?_eq_ok, s.consume?_eq_ok, fun g goals inner rest s₁ s₂ => position_lt_of_cycle,
    position_crossLine⟩
  obtain ⟨g, rest, found, s₂, hv, hstep, -⟩ := visits_of_aborted hfind
  have hrefuses := refuses_of_halt hstep
  exact ⟨hrefuses.fatalUnder line, g, rest, found, hv, hrefuses, (halt_cases hstep).1⟩

/-- A declaration that comes after a statement ends a parse, and a second minus sign leads back to
where the first one was. -/
theorem find_terminates_of_late_declaration :
    let n : Nesting := { limit := 64 }
    let s := (State.ofTokens (tokenize 16 "begin read(x); integer y end").1).skipLineEnds
    let minus := State.ofTokens (tokenize 16 "- 1 - 1").1
    (∃ reason line s₁, find n .program s = .aborted reason line s₁ ∧
      FatalUnder n.limit (reason.on line)) ∧
    ∃ s₂, Visits n [.construct .term, .moreTerms] minus.consume.2 [.moreTerms] s₂ ∧
      minus.cursor.position < s₂.cursor.position := by
  intro n s minus
  constructor
  · obtain ⟨-, haborted, -⟩ := find_terminates n .program s
    have hfind : ∃ reason line s₁, find n .program s = .aborted reason line s₁ := by
      cases h : find n .program s with
      | finished s₁ =>
        have hfatal : (find n .program s).fatal.isEmpty = false := by decide +kernel
        rw [h] at hfatal
        cases hfatal
      | aborted reason line s₁ => exact ⟨reason, line, s₁, rfl⟩
    obtain ⟨reason, line, s₁, hfind⟩ := hfind
    have hexhausted : (find n .program s).fatal.all
        fun d => d.message ≠ Abort.exhausted.message := by decide +kernel
    refine ⟨reason, line, s₁, hfind, (haborted reason line s₁ hfind).1.resolve_right ?_⟩
    rintro ⟨rfl, -⟩
    rw [hfind] at hexhausted
    simp [Outcome.fatal, Abort.on] at hexhausted
  · obtain ⟨-, -, -, -, -, hcycle, -⟩ := find_terminates n .program minus
    have hadvance : (advance n 3 [.construct .term, .moreTerms] minus.consume.2).any
        (fun x => x.1 = [.moreTerms]) = true := by decide +kernel
    obtain ⟨⟨goals, s₂⟩, hsome, hgoals⟩ := (Option.any_eq_true _ _).1 hadvance
    obtain rfl : goals = [.moreTerms] := of_decide_eq_true hgoals
    have hv := visits_of_advance hsome
    have hstep : step n .moreTerms minus =
        .go [.construct .term, .moreTerms] minus.consume.2 :=
      if_pos (by decide +kernel)
    exact ⟨s₂, hv, hcycle .moreTerms [.construct .term, .moreTerms] [] [] _ s₂ hstep hv⟩

end Parser

end PocketPascal
