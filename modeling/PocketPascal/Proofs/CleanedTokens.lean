import PocketPascal.Proofs.NestingLimit

/-! # The passed tokens stand for the whole run

A parse never takes a decision on the token that it ends before. As long as a token more is passed
later on, nothing that a step looks at, the token behind the end of a line included, is among those
that are never passed; and the last step passes a token. So the parse goes the same way where the
tokens that it did not pass are missing, and ends with the same result there.
-/

namespace PocketPascal

/-! ## Cutting off what is not passed -/

theorem take_cons_of_lt {α : Type} {a : α} {rest : List α} {k : Nat}
    (hk : k < (a :: rest).length) :
    (a :: rest).take ((a :: rest).length - k) = a :: rest.take (rest.length - k) := by
  rw [List.length_cons, Nat.succ_sub (Nat.le_of_lt_succ hk), List.take_succ_cons]

namespace Cursor

variable {α : Type} {c : Cursor α} {k : Nat}

/-- Without the last `k` of the items ahead. -/
def cut (k : Nat) (c : Cursor α) : Cursor α :=
  { c with ahead := c.ahead.take (c.ahead.length - k) }

theorem ahead_cut_cons {a : α} {rest : List α} (h : c.ahead = a :: rest)
    (hk : k < c.ahead.length) : (c.cut k).ahead = a :: rest.take (rest.length - k) := by
  rw [h] at hk
  rw [cut, h, take_cons_of_lt hk]

theorem peek?_cut (hk : k < c.ahead.length) : (c.cut k).peek? = c.peek? := by
  obtain ⟨a, rest, h⟩ := List.exists_cons_of_length_pos (Nat.zero_lt_of_lt hk)
  rw [peek?, peek?, ahead_cut_cons h hk, h]
  rfl

theorem advance_cut (hk : k < c.ahead.length) : (c.cut k).advance = c.advance.cut k := by
  obtain ⟨a, rest, h⟩ := List.exists_cons_of_length_pos (Nat.zero_lt_of_lt hk)
  rw [advance, ahead_cut_cons h hk]
  simp only [advance, h, cut]

end Cursor

namespace Parser

variable {n : Nesting} {g : Goal} {goals goals' : List Goal} {s s₁ : State} {k : Nat}

namespace State

/-- Without the last `k` of the tokens ahead. -/
def cut (k : Nat) (s : State) : State :=
  { s with cursor := s.cursor.cut k }

theorem cut_zero (s : State) : s.cut 0 = s := by
  rw [cut, Cursor.cut, Nat.sub_zero, List.take_length]

theorem lookahead_cut (hk : k < s.remaining) : (s.cut k).lookahead = s.lookahead := by
  rw [lookahead, lookahead, cut, Cursor.peek?_cut hk]

theorem sees_cut (hk : k < s.remaining) (kind : Kind) : (s.cut k).sees kind = s.sees kind := by
  rw [sees, sees, lookahead_cut hk]

theorem atBlockEnd_cut (hk : k < s.remaining) : (s.cut k).atBlockEnd = s.atBlockEnd := by
  rw [atBlockEnd, atBlockEnd, sees_cut hk, sees_cut hk]

@[simp] theorem knowsVariable_cut (k : Nat) (s : State) (name : String) :
    (s.cut k).knowsVariable name = s.knowsVariable name := rfl

@[simp] theorem knowsProcedure_cut (k : Nat) (s : State) (name : String) :
    (s.cut k).knowsProcedure name = s.knowsProcedure name := rfl

/-! ### Passing tokens -/

theorem advance_cut (hk : k < s.remaining) :
    { s.cut k with cursor := (s.cut k).cursor.advance } =
      State.cut k { s with cursor := s.cursor.advance } :=
  congrArg (fun cursor => { s with cursor }) (Cursor.advance_cut hk)

/-- The line behind the end of a line is read off a token that is still there. -/
theorem crossLine_cut (hk : k < s.crossLine.remaining) :
    (s.cut k).crossLine = s.crossLine.cut k := by
  have hnext : k < State.remaining { s with cursor := s.cursor.advance } := hk
  have hs : k < s.remaining := by
    rw [remaining_advance] at hnext
    omega
  simp only [crossLine, note, cut, lookahead, Cursor.advance_cut hs, Cursor.peek?_cut hnext]

theorem crossLines_cut {ts : List Token} (hs : s.cursor.ahead = ts)
    (hk : k < (crossLines ts s).remaining) :
    crossLines (ts.take (ts.length - k)) (s.cut k) = (crossLines ts s).cut k := by
  induction ts generalizing s with
  | nil =>
    rw [crossLines, remaining, hs] at hk
    exact absurd hk (Nat.not_lt_zero k)
  | cons t rest ih =>
    have hlt : k < (t :: rest).length := by
      rw [← hs]
      exact hk.trans_le (remaining_crossLines_le _ _)
    rw [crossLines] at hk
    rw [take_cons_of_lt hlt, crossLines, crossLines]
    split
    · next ht =>
      rw [if_pos ht] at hk
      have hcross : k < s.crossLine.remaining := hk.trans_le (remaining_crossLines_le _ _)
      rw [crossLine_cut hcross]
      exact ih (cursor_ahead_crossLine hs) hk
    · rfl

theorem skipLineEnds_cut (hk : k < s.skipLineEnds.remaining) :
    (s.cut k).skipLineEnds = s.skipLineEnds.cut k :=
  crossLines_cut rfl hk

theorem consume_cut (hk : k < s.consume.2.remaining) :
    (s.cut k).consume = (s.consume.1, s.consume.2.cut k) := by
  have hadvance := hk.trans_le (remaining_skipLineEnds_le _)
  have hskip : k < s.skipLineEnds.remaining := by
    rw [remaining_advance] at hadvance
    omega
  rw [consume, consume, skipLineEnds_cut hskip, lookahead_cut hskip, advance_cut hskip,
    skipLineEnds_cut hk]

/-! ### Reporting -/

theorem report_cut (hk : k < s.remaining) (c : Category) (m : String) :
    (s.cut k).report c m = (s.report c m).cut k := by
  unfold report
  rw [lookahead_cut hk]
  change (if s.armed = true then _ else _) = _
  split <;> rfl

theorem complain_cut (hk : k < s.remaining) (p : Problem) :
    (s.cut k).complain p = (s.complain p).cut k :=
  report_cut hk _ _

theorem expectOr_cut {kind : Kind} {m : String} (hk : k < (s.expectOr kind m).2.remaining) :
    ((s.cut k).expectOr kind m).2 = (s.expectOr kind m).2.cut k := by
  have hs : k < s.remaining := hk.trans_le ((remaining_expectOr s kind m).trans (Nat.sub_le _ _))
  rw [expectOr] at hk ⊢
  rw [expectOr, sees_cut hs, report_cut hs]
  split
  · next h =>
    rw [if_pos h] at hk
    rw [consume_cut hk]
  · next h =>
    rw [if_neg h] at hk
    rw [consume_cut hk]

theorem expect_cut {kind : Kind} (hk : k < (s.expect kind).2.remaining) :
    ((s.cut k).expect kind).2 = (s.expect kind).2.cut k := by
  have hs : k < s.remaining := hk.trans_le ((remaining_expect s kind).trans (Nat.sub_le _ _))
  rw [expect, lookahead_cut hs]
  exact expectOr_cut hk

/-! ### Declaring -/

theorem registerVariable_cut (hk : k < s.remaining) (name : String) :
    (s.cut k).registerVariable name = (s.registerVariable name).cut k := by
  by_cases hold : s.symbols.HasLocal s.scope name s.level
  · rw [registerVariable_of_old hold, registerVariable_of_old (s := s.cut k) hold, complain_cut hk]
  · rw [registerVariable_of_new hold, registerVariable_of_new (s := s.cut k) hold]
    rfl

theorem registerParameter_cut (k : Nat) (s : State) (name : String) :
    (s.cut k).registerParameter name = (s.registerParameter name).cut k := by
  rw [registerParameter_eq, registerParameter_eq]
  rfl

theorem registerProcedure_cut (hk : k < s.remaining) (name : String) :
    (s.cut k).registerProcedure name =
      ((s.registerProcedure name).1, (s.registerProcedure name).2.cut k) := by
  by_cases hold : s.symbols.HasBody name (s.level + 1)
  · rw [registerProcedure_of_old hold, registerProcedure_of_old (s := s.cut k) hold,
      complain_cut hk]
  · rw [registerProcedure_of_new hold, registerProcedure_of_new (s := s.cut k) hold]
    rfl

theorem closeScope_cut (k : Nat) (s : State) : (s.cut k).closeScope = s.closeScope.cut k := by
  cases hs : s.enclosing with
  | nil => simp only [closeScope, hs, show (s.cut k).enclosing = [] from hs]
  | cons outer rest =>
    simp only [closeScope, hs, show (s.cut k).enclosing = outer :: rest from hs]
    rfl

end State

theorem nameProcedure_cut (hk : k < (nameProcedure s).remaining) :
    nameProcedure (s.cut k) = (nameProcedure s).cut k := by
  have hs : k < s.remaining := hk.trans_le (remaining_nameProcedure s)
  simp only [nameProcedure, State.sees_cut hs, State.lookahead_cut hs,
    State.registerProcedure_cut hs] at hk ⊢
  by_cases h : s.sees .identifier = true
  · simp only [if_pos h] at hk ⊢
    rw [State.expect_cut hk]
    rfl
  · simp only [if_neg h] at hk ⊢
    rw [State.expect_cut hk]
    rfl

/-! ## Steps without what is not passed -/

/-- No token comes back. -/
theorem remaining_le_of_step (hstep : step n g s = .go goals s₁) : s₁.remaining ≤ s.remaining := by
  have hlighter := step_lighter n g s
  rw [hstep, Move.Lighter] at hlighter
  have hweight : g.weight < Goal.tokenWeight := by
    cases g with
    | construct c => cases c <;> decide
    | token kind => exact Nat.lt_of_sub_eq_succ rfl
    | _ => decide
  rw [Goal.tokenWeight] at hlighter hweight
  omega

theorem nested_cut {enter enter' : State → Move} (h : nested n s enter = .go goals s₁)
    (henter : enter (s.atDepth (s.depth + 1)) = .go goals s₁ →
      enter' ((s.atDepth (s.depth + 1)).cut k) = .go goals (s₁.cut k)) :
    nested n (s.cut k) enter' = .go goals (s₁.cut k) := by
  unfold nested at h ⊢
  split at h
  · cases h
  · next hn =>
    rw [show n.refusal? (s.cut k).depth = none from hn]
    exact henter h

section Cut

variable (hs : k < s.remaining) (hk : k < s₁.remaining)

include hs hk

theorem statement_cut (h : statementMove n s = .go goals s₁) :
    statementMove n (s.cut k) = .go goals (s₁.cut k) := by
  rw [statementMove] at h ⊢
  refine nested_cut h fun h => ?_
  rw [State.lookahead_cut hs]
  split at h <;> cases h
  · rfl
  · rfl
  · rfl
  · rw [State.consume_cut hk]

theorem assignment_cut (h : assignmentMove s = .go goals s₁) :
    assignmentMove (s.cut k) = .go goals (s₁.cut k) := by
  simp only [assignmentMove, State.lookahead_cut hs, State.knowsVariable_cut,
    State.knowsProcedure_cut] at h ⊢
  split at h
  · next hvariable =>
    cases h
    rw [if_pos hvariable]
  next hvariable =>
  rw [if_neg hvariable]
  split at h
  · next hprocedure =>
    cases h
    rw [if_pos hprocedure]
  · next hprocedure =>
    cases h
    rw [if_neg hprocedure, State.complain_cut hs, State.consume_cut hk]

theorem factor_cut (h : factorMove s = .go goals s₁) :
    factorMove (s.cut k) = .go goals (s₁.cut k) := by
  simp only [factorMove, State.lookahead_cut hs, State.sees_cut hs, State.knowsVariable_cut,
    State.knowsProcedure_cut, State.complain_cut hs] at h ⊢
  split at h
  · next hconstant =>
    cases h
    rw [if_pos hconstant, State.consume_cut hk]
  next hconstant =>
  rw [if_neg hconstant]
  split at h
  · next hname =>
    cases h
    rw [if_pos hname]
  next hname =>
  rw [if_neg hname]
  split at h
  · next hvariable =>
    cases h
    rw [if_pos hvariable]
  next hvariable =>
  rw [if_neg hvariable]
  split at h
  · next hprocedure =>
    cases h
    rw [if_pos hprocedure, State.consume_cut hk]
  · next hprocedure =>
    cases h
    rw [if_neg hprocedure, State.consume_cut hk, State.sees_cut hk]

theorem declared_cut (h : step n .declared s = .go goals s₁) :
    step n .declared (s.cut k) = .go goals (s₁.cut k) := by
  simp only [step, State.sees_cut hs, State.lookahead_cut hs, State.complain_cut hs] at h ⊢
  split at h
  · next hvariable =>
    cases h
    rw [if_pos hvariable]
  next hvariable =>
  rw [if_neg hvariable]
  split at h
  · next hprocedure =>
    cases h
    rw [if_pos hprocedure]
  next hprocedure =>
  rw [if_neg hprocedure]
  cases h
  have hcomplained : k < (s.complain (.notAVariableName s.lookahead.text)).remaining := by
    rwa [State.remaining_complain]
  rw [State.sees_cut hcomplained]
  split
  · rfl
  · next hsemicolon =>
    rw [if_neg hsemicolon] at hk
    rw [State.consume_cut hk]

theorem construct_cut {c : Construct} (h : constructMove n c s = .go goals s₁) :
    constructMove n c (s.cut k) = .go goals (s₁.cut k) := by
  cases c with
  | procedureBody =>
    rw [constructMove] at h ⊢
    refine nested_cut h fun h => ?_
    cases h
    rfl
  | expression =>
    rw [constructMove] at h ⊢
    refine nested_cut h fun h => ?_
    cases h
    rfl
  | statement => exact statement_cut hs hk h
  | assignment => exact assignment_cut hs hk h
  | factor => exact factor_cut hs hk h
  | declarations =>
    simp only [constructMove, State.sees_cut hs] at h ⊢
    split at h <;> cases h
    · next hsees => rw [if_pos hsees, State.consume_cut hk]
    · next hsees => rw [if_neg hsees]
  | statements =>
    simp only [constructMove, State.atBlockEnd_cut hs] at h ⊢
    cases h
    rfl
  | variableDeclaration =>
    simp only [constructMove, State.sees_cut hs, State.lookahead_cut hs,
      State.registerVariable_cut hs] at h ⊢
    cases h
    rw [← apply_ite (State.cut k), State.expect_cut hk]
  | parameterDeclaration =>
    simp only [constructMove, State.sees_cut hs, State.lookahead_cut hs,
      State.registerParameter_cut] at h ⊢
    cases h
    rw [← apply_ite (State.cut k), State.expect_cut hk]
  | relation =>
    simp only [constructMove, State.lookahead_cut hs, State.complain_cut hs] at h ⊢
    cases h
    rw [← apply_ite (State.cut k), State.consume_cut hk]
  | reference =>
    simp only [constructMove, State.sees_cut hs, State.lookahead_cut hs, State.knowsVariable_cut,
      State.complain_cut hs] at h ⊢
    cases h
    rw [← apply_ite (State.cut k), State.expect_cut hk]
  | procedureName =>
    cases h
    rw [constructMove, State.expect_cut hk]
  | _ =>
    cases h
    rfl

end Cut

theorem step_cut (hstep : step n g s = .go goals s₁) (hk : k < s₁.remaining) :
    step n g (s.cut k) = .go goals (s₁.cut k) := by
  have hs : k < s.remaining := hk.trans_le (remaining_le_of_step hstep)
  cases g with
  | construct c => exact construct_cut hs hk hstep
  | token kind =>
    cases hstep
    rw [step, State.expect_cut hk]
  | closeParen =>
    cases hstep
    rw [step, State.expectClose, State.expectOr_cut hk]
    rfl
  | declared => exact declared_cut hs hk hstep
  | procedureHead =>
    cases hstep
    rw [step, nameProcedure_cut hk]
  | endScope =>
    cases hstep
    rw [step, State.closeScope_cut]
  | moreStatements =>
    simp only [step, State.sees_cut hs] at hstep ⊢
    split at hstep <;> cases hstep
    · next hsees => rw [if_pos hsees, State.consume_cut hk, State.atBlockEnd_cut hk]
    · next hsees => rw [if_neg hsees]
  | moreTerms | moreFactors =>
    simp only [step, State.sees_cut hs] at hstep ⊢
    split at hstep <;> cases hstep
    · next hsees => rw [if_pos hsees, State.consume_cut hk]
    · next hsees => rw [if_neg hsees]
  | _ =>
    cases hstep
    rfl

/-! ## A whole parse without what is not passed -/

theorem remaining_le_of_visits (hv : Visits n goals s goals' s₁) : s₁.remaining ≤ s.remaining := by
  induction hv with
  | here => exact Nat.le_refl _
  | next hstep _ ih => exact ih.trans (remaining_le_of_step hstep)

/-- Goals are resolved alike as long as a token is left that is passed later on. -/
theorem Visits.cut (hv : Visits n goals s goals' s₁) (hk : k < s₁.remaining) :
    Visits n goals (s.cut k) goals' (s₁.cut k) := by
  induction hv with
  | here => exact .here _ _
  | next hstep hv ih =>
    exact .next (step_cut hstep (hk.trans_le (remaining_le_of_visits hv))) (ih hk)

namespace State

/-- What is taken with the next token, and what is left then. -/
theorem ahead_cut_append_consume (s : State) :
    (s.cut s.consume.2.remaining).cursor.ahead ++ s.consume.2.cursor.ahead = s.cursor.ahead := by
  have hle : s.consume.2.remaining ≤ s.remaining := (remaining_consume s).trans (Nat.sub_le _ _)
  obtain ⟨taken, htaken⟩ : s.consume.2.cursor.ahead <:+ s.cursor.ahead :=
    List.suffix_of_suffix_length_le ⟨_, toList_consume s⟩ ⟨_, rfl⟩ hle
  have hlength : s.remaining - s.consume.2.remaining = taken.length := by
    rw [remaining, remaining, ← htaken, List.length_append, Nat.add_sub_cancel]
  change s.cursor.ahead.take (s.remaining - _) ++ _ = _
  rw [hlength, ← htaken, List.take_left]

theorem unread_cut_consume (s : State) :
    (s.cut s.consume.2.remaining).unread = s.unread.take 1 := by
  have hconsume : s.consume.2.unread = s.unread.tail := congrArg View.unread (view_consume s)
  have happend : (s.cut s.consume.2.remaining).unread ++ s.consume.2.unread = s.unread := by
    rw [unread, unread, ← lexemes_append, ahead_cut_append_consume, unread]
  refine List.append_cancel_right (happend.trans ?_)
  rw [hconsume, ← List.drop_one, List.take_append_drop]

theorem ahead_eq_nil (h : s.Settled) (hunread : s.unread = []) : s.cursor.ahead = [] := by
  cases hs : s.cursor.ahead with
  | nil => rfl
  | cons t rest =>
    have ht : t.kind ≠ .endOfLine := by simpa [Settled, lookahead, Cursor.peek?, hs] using h
    rw [unread, hs, lexemes_cons ht] at hunread
    cases hunread

/-- The last token is taken the same way where nothing comes behind it. -/
theorem result_cut_consume (s : State) :
    (s.cut s.consume.2.remaining).consume.2.result = s.consume.2.result := by
  set s' := s.cut s.consume.2.remaining with hs'
  have hahead : s'.consume.2.cursor.ahead = [] := by
    refine ahead_eq_nil (settled_consume s') ?_
    have hunread : s'.consume.2.unread = s'.unread.tail := congrArg View.unread (view_consume s')
    rw [hunread, hs', unread_cut_consume]
    cases s.unread <;> rfl
  have hconsumed : s'.consume.2.consumed = s.consume.2.consumed := by
    have hcut : s'.consume.2.consumed ++ s'.consume.2.cursor.ahead =
        s.consumed ++ s'.cursor.ahead := toList_consume s'
    have hwhole : s.consume.2.consumed ++ s.consume.2.cursor.ahead =
        s.consumed ++ s.cursor.ahead := toList_consume s
    rw [hahead, List.append_nil] at hcut
    rw [← ahead_cut_append_consume s, ← List.append_assoc] at hwhole
    exact hcut.trans (List.append_cancel_right hwhole).symm
  rw [result, result, hconsumed, symbols_consume, errors_consume, symbols_consume, errors_consume]
  rfl

theorem text_cut_consume (s : State) :
    (s.cut s.consume.2.remaining).consume.1.text = s.consume.1.text := by
  have htaken : ∀ x : State,
      x.consume.1.toLexeme = x.unread.head?.getD Token.endOfFile.toLexeme := by
    intro x
    rw [consume, lookahead_eq_head (settled_skipLineEnds x), unread_skipLineEnds]
  refine congrArg Lexeme.text ((htaken _).trans (Eq.trans ?_ (htaken s).symm))
  rw [unread_cut_consume, List.head?_take, if_neg Nat.one_ne_zero]

theorem result_cut_expect {kind : Kind} (hk : (s.expect kind).2.remaining < s.remaining) :
    ((s.cut (s.expect kind).2.remaining).expect kind).2.result = (s.expect kind).2.result := by
  by_cases hsees : s.sees kind = true
  · rw [expect_of_sees ((sees_cut hk kind).trans hsees), expect_of_sees hsees]
    exact result_cut_consume s
  · have hexpect : (s.expect kind).2 =
        (s.complain (.unexpected kind s.lookahead.text)).consume.2 := by
      rw [expect, expectOr, if_neg hsees]
      rfl
    have hcut : ∀ k < s.remaining, ((s.cut k).expect kind).2 =
        ((s.complain (.unexpected kind s.lookahead.text)).cut k).consume.2 := by
      intro k hk
      rw [expect, expectOr, if_neg (by rwa [sees_cut hk]), lookahead_cut hk, ← complain_cut hk]
      rfl
    rw [hcut _ hk, hexpect]
    exact result_cut_consume _

end State

theorem step_of_notAStatement (hn : n.refusal? s.depth = none)
    (hkind : s.lookahead.kind ∉ [.readKey, .writeKey, .identifier, .ifKey]) :
    step n (.construct .statement) s =
      .halt (.notAStatement s.consume.1.text) s.line s.consume.2 := by
  rw [step, constructMove, statementMove, nested, hn]
  dsimp only
  split
  all_goals simp_all

/-- A program is a body and an end of file. -/
theorem find_program (n : Nesting) (s : State) :
    find n .program s =
      match find n .body s with
      | .finished s₁ => .finished (s₁.expect .endOfFile).2
      | .aborted reason line s₁ => .aborted reason line (s₁.unwind [.token .endOfFile]) := by
  have hprogram : find n .program s = resolve n ([.construct .body] ++ [.token .endOfFile]) s := by
    rw [find, resolve_cons]
    rfl
  rw [hprogram, resolve_append, ← find]
  cases find n .body s with
  | finished s₁ =>
    dsimp only
    rw [resolve_cons, step]
    exact resolve_nil n _
  | aborted reason line s₁ => rfl

/-- The last token that a program takes is the end of file. -/
theorem find_cut_of_finished (hfind : find n .program s = .finished s₁) (hk : 0 < s₁.remaining) :
    s₁.remaining < s.remaining ∧
      ∃ s₂, find n .program (s.cut s₁.remaining) = .finished s₂ ∧ s₂.result = s₁.result := by
  rw [find_program] at hfind
  cases hbody : find n .body s with
  | aborted reason line s₂ =>
    rw [hbody] at hfind
    cases hfind
  | finished s₂ =>
    rw [hbody] at hfind
    cases hfind
    have hv := visits_of_finished hbody
    have hlt : (s₂.expect .endOfFile).2.remaining < s₂.remaining := by
      have := State.remaining_expect s₂ .endOfFile
      omega
    have hcut : find n .body (s.cut (s₂.expect .endOfFile).2.remaining) =
        .finished (s₂.cut (s₂.expect .endOfFile).2.remaining) :=
      (resolve_of_visits (hv.cut hlt)).trans (resolve_nil n _)
    refine ⟨hlt.trans_le (remaining_le_of_visits hv), _, ?_, State.result_cut_expect hlt⟩
    rw [find_program, hcut]

/-- The last token that is taken before a program is given up is one that starts no statement. -/
theorem find_cut_of_aborted {reason : Abort} {line : Int}
    (hreason : ∀ depth, n.refusal? depth ≠ some reason)
    (hfind : find n .program s = .aborted reason line s₁) (hk : 0 < s₁.remaining) :
    s₁.remaining < s.remaining ∧
      ∃ s₂, find n .program (s.cut s₁.remaining) = .aborted reason line s₂ ∧
        s₂.result = s₁.result := by
  obtain ⟨g, rest, found, s₂, hv, hstep, rfl⟩ := visits_of_aborted hfind
  obtain ⟨rfl, hhalts⟩ := halts_of_step hstep
  cases hhalts with
  | refused _ hrefusal => exact absurd hrefusal (hreason _)
  | notAStatement hn hkind =>
    change 0 < found.consume.2.remaining at hk
    have hlt : found.consume.2.remaining < found.remaining := by
      have := State.remaining_consume found
      omega
    have hstep' := step_of_notAStatement (s := found.cut found.consume.2.remaining) hn
      (by rwa [State.lookahead_cut hlt])
    rw [State.text_cut_consume] at hstep'
    refine ⟨hlt.trans_le (remaining_le_of_visits hv),
      (found.cut found.consume.2.remaining).consume.2.unwind rest, ?_,
      State.result_cut_consume found⟩
    refine (resolve_of_visits (hv.cut hlt)).trans ?_
    rw [resolve_cons, hstep']
    rfl

/-- A parse that no nesting ended yields the same where the tokens that it did not pass are
missing. -/
theorem State.result_parse_cut
    (hlimit : ¬ (s.parse n).result.EndsWith (.tooNested n.limit))
    (hcapacity : ¬ (s.parse n).result.EndsWith .exhausted) (hk : 0 < (s.parse n).remaining) :
    ((s.cut (s.parse n).remaining).parse n).result = (s.parse n).result := by
  cases hfind : find n .program s.skipLineEnds with
  | finished s₁ =>
    rw [parse_of_finished hfind] at hk ⊢
    obtain ⟨hlt, s₂, hcut, hresult⟩ := find_cut_of_finished hfind hk
    rw [← skipLineEnds_cut hlt] at hcut
    rw [parse_of_finished hcut, hresult]
  | aborted reason line s₁ =>
    rw [parse_of_aborted hfind] at hlimit hcapacity hk ⊢
    have hends : (s₁.giveUp reason line).result.EndsWith reason := ⟨line, List.getLast?_concat⟩
    have hreason : ∀ depth, n.refusal? depth ≠ some reason := by
      intro depth hrefusal
      rcases Nesting.eq_of_refusal? hrefusal with rfl | rfl
      · exact hlimit hends
      · exact hcapacity hends
    obtain ⟨hlt, s₂, hcut, hresult⟩ := find_cut_of_aborted hreason hfind hk
    rw [← skipLineEnds_cut hlt] at hcut
    change ((s.cut s₁.remaining).parse n).result = _
    rw [parse_of_aborted hcut, result_giveUp, result_giveUp, hresult]

/-- What is left without the tokens that are not passed is what is passed. -/
theorem cut_remaining_parse (n : Nesting) (tokens : List Token) :
    (State.ofTokens tokens).cut ((State.ofTokens tokens).parse n).remaining =
      .ofTokens (PocketPascal.parse n tokens).tokens := by
  have htake : ∀ passed ahead : List Token, passed ++ ahead = tokens →
      tokens.take (tokens.length - ahead.length) = passed := by
    rintro passed ahead rfl
    rw [List.length_append, Nat.add_sub_cancel, List.take_left]
  exact congrArg State.ofTokens (htake _ _ (State.toList_parse (.ofTokens tokens) n))

end Parser

/-- Parsing the tokens that a parse passed yields the same again, the lines of the errors included,
unless the parse was given up before a nesting: there the next token had been looked at, but not
been passed. -/
theorem parse_tokens_of_parse (n : Parser.Nesting) (tokens : List Token)
    (hlimit : ¬ (parse n tokens).EndsWith (.tooNested n.limit))
    (hcapacity : ¬ (parse n tokens).EndsWith .exhausted) :
    parse n (parse n tokens).tokens = parse n tokens := by
  rw [parse, ← Parser.cut_remaining_parse]
  rcases Nat.eq_zero_or_pos ((Parser.State.ofTokens tokens).parse n).remaining with hk | hk
  · rw [hk, Parser.State.cut_zero]
    rfl
  · exact Parser.State.result_parse_cut hlimit hcapacity hk

/-- A program that is over before its tokens are, and one that is given up at the declaration that
its second line begins with. -/
theorem parse_tokens_of_parse_of_tokens_left :
    let n : Parser.Nesting := { limit := 64 }
    let ended := (tokenize 16 "begin read(x) end begin\nend").1
    let late := (tokenize 16 "begin read(x);\ninteger y end").1
    (parse n ended).tokens.length < ended.length ∧
      parse n (parse n ended).tokens = parse n ended ∧
      (parse n late).tokens.length < late.length ∧
      parse n (parse n late).tokens = parse n late := by
  intro n ended late
  refine ⟨by decide +kernel, ?_, by decide +kernel, ?_⟩
  · exact parse_tokens_of_parse n ended (by decide +kernel) (by decide +kernel)
  · exact parse_tokens_of_parse n late (by decide +kernel) (by decide +kernel)

end PocketPascal
