import Mathlib.Data.List.TakeDrop
import PocketPascal.Proofs.TokenStreams

/-! # Lexing on demand agrees with lexing at once

A lexer serves a whole session. It is run over its source, asked for single lexemes, and streams are
begun on it and resumed in any order, few of them to their ends, all on one read head, one line and
one list of errors. None of that changes what it reads, and a new stream takes nothing over but the
errors. So the tokens and errors it yields are a beginning of those of a run over the whole source,
cut where the last token that was asked for ends.
-/

namespace PocketPascal.Lexer

/-! ## Sessions -/

/-- A lexer and the streams begun on it. -/
structure Session where
  lexer : Lexer
  streams : List Stream := []

/-- What can be done in a session. -/
inductive Action where
  /-- The whole source is read. -/
  | tokenize
  /-- A stream over the source is begun. -/
  | overSource
  /-- A stream over a text is begun. -/
  | overText (text : String)
  /-- The stream at a position is asked for its next token. -/
  | ask (i : Nat)
  /-- The lexeme under the read head is read. -/
  | next

namespace Session

/-- A session after one action. -/
def act (s : Session) : Action → Session
  | .tokenize => { s with lexer := s.lexer.tokenize.2 }
  | .overSource => { s with streams := s.streams ++ [.source] }
  | .overText text => { s with streams := s.streams ++ [.text text.toList] }
  | .ask i =>
    match s.streams[i]? with
    | none => s
    | some g =>
      let (_, g', y) := s.lexer.resume g
      { lexer := y, streams := s.streams.set i g' }
  | .next => { s with lexer := s.lexer.next.2 }

/-- A session after some actions. -/
def run (s : Session) (actions : List Action) : Session :=
  actions.foldl act s

end Session

/-! ## Every action keeps the source -/

theorem sameTask_play (x : Lexer) (es : List Event) : x.SameTask (x.play es).2 := by
  induction es generalizing x with
  | nil => exact ⟨rfl, rfl⟩
  | cons e es ih =>
    rw [← List.singleton_append, play_append, play_singleton]
    exact (sameTask_after x e).trans (ih _)

theorem sameTask_next (x : Lexer) : x.SameTask x.next.2 := by
  rw [next]
  split
  · exact .refl x
  · dsimp only
    split <;> exact ⟨rfl, rfl⟩

theorem Session.sameTask_act (s : Session) (a : Action) : s.lexer.SameTask (s.act a).lexer := by
  cases a with
  | tokenize =>
    have h := sameTask_play { s.lexer with errors := [] }
      (sourceEvents s.lexer.limit s.lexer.source)
    exact ⟨h.source_eq, h.limit_eq⟩
  | overSource | overText => exact .refl _
  | ask i =>
    rw [Session.act]
    split
    · exact .refl _
    · exact sameTask_resume _ _
  | next => exact sameTask_next _

theorem Session.sameTask_run (s : Session) (actions : List Action) :
    s.lexer.SameTask (s.run actions).lexer := by
  induction actions generalizing s with
  | nil => exact .refl _
  | cons a actions ih => exact (s.sameTask_act a).trans (ih _)

/-! ## Demands -/

/-- A demand yields as many tokens as were asked for, if there are so many. -/
theorem token?_demand (n : Nat) (es : List Event) :
    (Event.demand n es).filterMap Event.token? = (es.filterMap Event.token?).take n := by
  induction es generalizing n with
  | nil => cases n <;> rfl
  | cons e es ih =>
    cases n with
    | zero => rw [Event.demand, List.take_zero, List.filterMap_nil]
    | succ n =>
      rw [Event.demand]
      cases ht : e.token? with
      | none => simp [ht, ih]
      | some t => simp [ht, ih]

/-- A demand ends with the token that meets it, or all events happen. -/
theorem demand_succ_cases (n : Nat) (es : List Event) :
    Event.demand (n + 1) es = es ∨ ∃ before e t, Event.demand (n + 1) es = before ++ [e] ∧
      e.token? = some t ∧ (es.filterMap Event.token?)[n]? = some t := by
  induction es generalizing n with
  | nil => exact Or.inl rfl
  | cons e es ih =>
    rw [Event.demand]
    cases ht : e.token? with
    | none =>
      refine (ih n).imp (congrArg (e :: ·)) ?_
      rintro ⟨before, e', t, hdemand, htoken, hmem⟩
      refine ⟨e :: before, e', t, congrArg (e :: ·) hdemand, htoken, ?_⟩
      rwa [List.filterMap_cons_none ht]
    | some t =>
      rw [List.filterMap_cons_some ht]
      cases n with
      | zero => exact Or.inr ⟨[], e, t, by simp [Event.demand], ht, rfl⟩
      | succ n =>
        refine (ih n).imp (congrArg (e :: ·)) ?_
        rintro ⟨before, e', t', hdemand, htoken, hmem⟩
        exact ⟨e :: before, e', t', congrArg (e :: ·) hdemand, htoken, hmem⟩

/-- A run over the whole source depends on nothing else. -/
theorem tokenize_fst (x : Lexer) : x.tokenize.1 = PocketPascal.tokenize x.limit x.source := by
  simp [tokenize, play, PocketPascal.tokenize]

/-! ## On demand and at once -/

/-- A token that is not the end of the file is not the last one. -/
theorem lt_length_of_kind {limit : Int} {source : String} {k : Nat} {t : Token}
    (ht : (PocketPascal.tokenize limit source).1[k]? = some t) (hkind : t.kind ≠ .endOfFile) :
    k + 1 < (PocketPascal.tokenize limit source).1.length := by
  have hlast := (tokenize_numbered limit source).ends
  have hk : k < (PocketPascal.tokenize limit source).1.length := (List.getElem?_eq_some_iff.1 ht).1
  rcases Nat.lt_or_eq_of_le (Nat.succ_le_of_lt hk) with h | h
  · exact h
  · rw [List.getLast?_eq_getElem?, ← h, Nat.succ_sub_one, ht] at hlast
    obtain rfl : t = .endOfFile := Option.some.inj hlast
    exact absurd rfl hkind

theorem pulled_source (x : Lexer) (n : Nat) :
    Pulled (Text.sourceLines x.source.toList).length n x (sourceEvents x.limit x.source)
      (pull n .source x) :=
  pulled_pull n (g := .source) rfl

/-- What a new stream yields are the first tokens of a run over the whole source. -/
theorem pull_source_fst (x : Lexer) (n : Nat) :
    (pull n .source x).1 = (PocketPascal.tokenize x.limit x.source).1.take n :=
  (congrArg Prod.fst (pulled_source x n).play).symm.trans (token?_demand n _)

/-- A new stream ends with the last token, or is suspended on the line of an earlier one. -/
theorem pull_source_stops (x : Lexer) (k : Nat) :
    let tokens := (PocketPascal.tokenize x.limit x.source).1
    (pull (k + 1) .source x).2.1 = .ended ∧ tokens.length ≤ k + 1 ∨
      k + 1 < tokens.length ∧
        ∃ t, tokens[k]? = some t ∧ t.line = (pull (k + 1) .source x).2.2.line := by
  intro tokens
  have hfst := pull_source_fst x (k + 1)
  rcases pull_succ_line (x := x) (g := .source) k rfl with hended | ⟨t, ht, hkind, hline⟩
  · have hsplit := (pulled_source x (k + 1)).split
    rw [hended, eventsLeft, List.append_nil] at hsplit
    refine Or.inl ⟨hended, ?_⟩
    have hall := token?_demand (k + 1) (sourceEvents x.limit x.source)
    rw [← hsplit] at hall
    exact (List.take_eq_self_iff _).1 hall.symm
  · rw [hfst, List.getElem?_take_of_lt (Nat.lt_succ_self k)] at ht
    exact Or.inr ⟨lt_length_of_kind ht hkind, t, ht, hline⟩

/-- A stream over the source that is asked for all tokens is a run over the whole source. -/
theorem pull_source_all (x : Lexer) {n : Nat}
    (hn : (PocketPascal.tokenize x.limit x.source).1.length ≤ n) :
    pull n .source { x with errors := [] } =
      ((PocketPascal.tokenize x.limit x.source).1, .ended, x.tokenize.2) := by
  obtain ⟨k, rfl⟩ : ∃ k, n = k + 1 := by
    have hlast := (tokenize_numbered x.limit x.source).ends
    cases n with
    | zero =>
      rw [List.eq_nil_of_length_eq_zero (Nat.le_zero.1 hn)] at hlast
      cases hlast
    | succ k => exact ⟨k, rfl⟩
  have hpulled := pulled_source { x with errors := [] } (k + 1)
  have hended : (pull (k + 1) .source { x with errors := [] }).2.1 = .ended := by
    rcases pull_source_stops { x with errors := [] } k with ⟨hended, -⟩ | ⟨h, -⟩
    · exact hended
    · exact absurd hn (Nat.not_le.2 h)
  have hsplit := hpulled.split
  rw [hended, eventsLeft, List.append_nil] at hsplit
  have hplay := hpulled.play
  rw [← hsplit] at hplay
  exact Prod.ext (congrArg Prod.fst hplay).symm
    (Prod.ext hended (congrArg Prod.snd hplay).symm)

/-- The first `k + 1` tokens of a source have been taken, and this has left the lexer `x` as `y`: on
the line of the last one of them, or on the last line of all if that is the end of the file. The
errors that have been added are those found on the way, which ends with that token. -/
structure TakesFirst (limit : Int) (source : String) (k : Nat) (x : Lexer) (taken : List Token)
    (y : Lexer) : Prop where
  tokens : taken = (PocketPascal.tokenize limit source).1.take (k + 1)
  line : (y.line : Int) = if h : k + 1 < (PocketPascal.tokenize limit source).1.length then
    (PocketPascal.tokenize limit source).1[k].line else (Text.sourceLines source.toList).length
  errors : ∃ played left, sourceEvents limit source = played ++ left ∧
    played.filterMap Event.token? = taken ∧
    y.errors = x.errors ++ played.filterMap Event.error? ∧
    (left = [] ∨ ∃ before e t, played = before ++ [e] ∧ e.token? = some t ∧
      (PocketPascal.tokenize limit source).1[k]? = some t) ∧
    ((PocketPascal.tokenize limit source).1.length ≤ k + 1 → left = [])

theorem takesFirst_pull_source (x : Lexer) (k : Nat) :
    TakesFirst x.limit x.source k x (pull (k + 1) .source x).1 (pull (k + 1) .source x).2.2 where
  tokens := pull_source_fst x (k + 1)
  line := by
    rcases pull_source_stops x k with ⟨hended, hlength⟩ | ⟨h, t, ht, hline⟩
    · have hfits := (pulled_source x (k + 1)).fits
      rw [hended] at hfits
      rw [dif_neg (by omega)]
      exact congrArg Nat.cast hfits
    · rw [dif_pos h, ← hline, (List.getElem?_eq_some_iff.1 ht).2]
  errors := by
    have hpulled := pulled_source x (k + 1)
    refine ⟨_, _, hpulled.split, congrArg Prod.fst hpulled.play, ?_, ?_, ?_⟩
    · rw [← congrArg Prod.snd hpulled.play]
      rfl
    · refine (demand_succ_cases k (sourceEvents x.limit x.source)).imp_left fun hall => ?_
      have hsplit := hpulled.split
      rw [hall] at hsplit
      exact List.self_eq_append_right.1 hsplit
    · intro hlength
      rcases pull_source_stops x k with ⟨hended, -⟩ | ⟨h, -⟩
      · rw [hended]
        rfl
      · omega

/-- Wherever a session has left its lexer, a run over the whole source gives what it gives on a
fresh lexer, and a new stream that is asked for all tokens is such a run. One that is asked for
fewer tokens yields the first ones and keeps the errors found before the last of them. -/
theorem incremental_eq_batch (limit : Int) (source : String) (actions : List Action) :
    let x := (Session.run ⟨{ source, limit }, []⟩ actions).lexer
    let tokens := (PocketPascal.tokenize limit source).1
    x.tokenize.1 = ({ source, limit } : Lexer).tokenize.1 ∧
      x.tokenize.1 = PocketPascal.tokenize limit source ∧
      (∀ n, tokens.length ≤ n →
        pull n .source { x with errors := [] } = (tokens, .ended, x.tokenize.2)) ∧
      ∀ k, let r := pull (k + 1) .source x
        x.takeTokens (some (k + 1)) = (r.1, r.2.2) ∧ TakesFirst limit source k x r.1 r.2.2 := by
  intro x tokens
  have hx : SameTask { source, limit } x := Session.sameTask_run ⟨{ source, limit }, []⟩ actions
  have hrun : x.tokenize.1 = PocketPascal.tokenize limit source := by
    rw [tokenize_fst, hx.source_eq, hx.limit_eq]
  refine ⟨hrun.trans (tokenize_fst { source, limit }).symm, hrun, fun n hn => ?_, fun k => ?_⟩
  · have htokens : (PocketPascal.tokenize x.limit x.source).1 = tokens := by
      rw [hx.source_eq, hx.limit_eq]
    exact htokens ▸ pull_source_all x (htokens.symm ▸ hn)
  · have htakes := takesFirst_pull_source x k
    rw [hx.source_eq, hx.limit_eq] at htakes
    exact ⟨takeTokens_eq_pull x (k + 1), htakes⟩

/-- Here two streams have been left unfinished on one line, the first of them having read on in the
text of the other one. -/
theorem incremental_eq_batch_of_interleaved :
    let source := "a ? b\n\n: c"
    let actions : List Action := [.overSource, .ask 0, .overText "? d", .ask 1, .next, .ask 0]
    let x := (Session.run ⟨{ source, limit := 16 }, []⟩ actions).lexer
    let tokens := (PocketPascal.tokenize 16 source).1
    let r := pull (3 + 1) .source x
    x.errors.length = 1 ∧ tokens.length ≤ 6 ∧
      pull 6 .source { x with errors := [] } = (tokens, .ended, x.tokenize.2) ∧
      TakesFirst 16 source 3 x r.1 r.2.2 ∧ r.2.2.line = 3 ∧ r.2.2.errors.length = 3 := by
  intro source actions x tokens r
  obtain ⟨-, -, hall, htakes⟩ := incremental_eq_batch 16 source actions
  have hlength : tokens.length ≤ 6 := by decide +kernel
  refine ⟨by decide +kernel, hlength, hall 6 hlength, ?_, by decide +kernel, by decide +kernel⟩
  with_reducible exact (htakes 3).2

end PocketPascal.Lexer
