import PocketPascal.Analysis
import PocketPascal.Proofs.Coalescing

/-! # Where errors stand

Every error of a parse is found at some lookahead: it is recorded there, or the parse is given up
there. Over the tokens of a source it stands on the line of that token, and on the line after the
last one at the end of the file, unless the line in question is the first one that is not blank and
blank lines precede it: a parse takes that one for line 1.
-/

namespace PocketPascal.Parser

/-- How a parse comes to an error: it is recorded at a lookahead, or the parse is given up there. -/
inductive FoundAt (n : Nesting) (tokens : List Token) : Diagnostic → Token → Prop where
  | recorded {d : Diagnostic} {found : Token}
      (h : Event.problem d found true ∈ happenings n tokens) : FoundAt n tokens d found
  | fatal {g : Goal} {rest : List Goal} {s s' : State} {reason : Abort} {line : Int}
      (hv : Visits n [.construct .program] (State.ofTokens tokens).skipLineEnds (g :: rest) s)
      (hstep : step n g s = .halt reason line s') : FoundAt n tokens (reason.on line) s.lookahead

/-- A resolution of goals that comes to a goal that gives it up is given up. -/
theorem aborted_of_visits {n : Nesting} {goals rest : List Goal} {g : Goal} {s found s' : State}
    {reason : Abort} {line : Int} (hv : Visits n goals s (g :: rest) found)
    (hstep : step n g found = .halt reason line s') :
    resolve n goals s = .aborted reason line (s'.unwind rest) := by
  rw [resolve_of_visits hv, resolve_cons, hstep]

/-- What is found is what is recorded, and what the parse is given up for. -/
theorem exists_foundAt_iff (n : Nesting) (tokens : List Token) (d : Diagnostic) :
    (∃ found, FoundAt n tokens d found) ↔
      (∃ found, Event.problem d found true ∈ happenings n tokens) ∨
        d ∈ (find n .program (State.ofTokens tokens).skipLineEnds).fatal := by
  constructor
  · rintro ⟨found, hd⟩
    cases hd with
    | recorded he => exact Or.inl ⟨found, he⟩
    | fatal hv hstep =>
      rw [find, aborted_of_visits hv hstep]
      exact Or.inr List.mem_cons_self
  · rintro (⟨found, he⟩ | hd)
    · exact ⟨found, .recorded he⟩
    · cases hr : find n .program (State.ofTokens tokens).skipLineEnds with
      | finished s =>
        rw [hr] at hd
        cases hd
      | aborted reason line s =>
        rw [hr] at hd
        obtain rfl := List.mem_singleton.1 hd
        obtain ⟨g, rest, found, s', hv, hstep, -⟩ := visits_of_aborted hr
        exact ⟨found.lookahead, .fatal hv hstep⟩

/-! ## What a state knows of its errors -/

/-- The errors of a state are the problems that its history has as recorded. All problems of the
history are found at one of `tokens`, on the line that a parse takes it to stand on. -/
structure State.Placed (first last : Int) (tokens : List Token) (s : State) : Prop where
  located : Located first last s.cursor.ahead s.line
  ahead : ∀ t ∈ s.cursor.ahead, t ∈ tokens
  found : ∀ {d : Diagnostic} {t : Token} {recorded : Bool},
    Event.problem d t recorded ∈ s.history → t ∈ tokens ∧ d.line = lineAt first last t
  recorded : ∀ d : Diagnostic, d ∈ s.errors ↔ ∃ t, Event.problem d t true ∈ s.history

namespace State.Placed

variable {first last : Int} {tokens : List Token} {s : State}

theorem lookahead_mem (h : s.Placed first last tokens) (hend : Token.endOfFile ∈ tokens) :
    s.lookahead ∈ tokens := by
  rw [lookahead_eq_front]
  cases hs : s.cursor.ahead with
  | nil => exact hend
  | cons t rest => exact h.ahead t (by simp [hs])

theorem line_eq (h : s.Placed first last tokens) : s.line = lineAt first last s.lookahead :=
  h.located.line_eq

/-- Events that are no problem change nothing about the problems. -/
theorem of_silent {s' : State} (h : s.Placed first last tokens) (es : List Event)
    (hlocated : Located first last s'.cursor.ahead s'.line)
    (hahead : ∀ t ∈ s'.cursor.ahead, t ∈ tokens) (herrors : s'.errors = s.errors)
    (hhistory : s'.history = es ++ s.history) (hes : ∀ e ∈ es, e.problem? = none) :
    s'.Placed first last tokens := by
  have hmem : ∀ d t recorded, Event.problem d t recorded ∈ s'.history ↔
      Event.problem d t recorded ∈ s.history := by
    intro d t recorded
    rw [hhistory, List.mem_append]
    constructor
    · rintro (he | he)
      · cases hes _ he
      · exact he
    · exact Or.inr
  refine ⟨hlocated, hahead, ?_, ?_⟩
  · intro d t recorded he
    exact h.found ((hmem d t recorded).1 he)
  · intro d
    rw [herrors, h.recorded]
    exact exists_congr fun t => (hmem d t true).symm

theorem of_readsAs {s' : State} (h : s.Placed first last tokens) (hr : s.ReadsAs s') :
    s'.Placed first last tokens := by
  obtain ⟨es, hes, hsilent⟩ := hr.history
  refine h.of_silent es ?_ ?_ hr.errors hes ?_
  · rw [hr.cursor, hr.line]
    exact h.located
  · rw [hr.cursor]
    exact h.ahead
  · intro e he
    have hsilent := hsilent e he
    cases e <;> simp_all [Event.silent, Event.problem?]

theorem crossLine (h : s.Placed first last tokens) (hs : s.sees .endOfLine) :
    s.crossLine.Placed first last tokens := by
  obtain ⟨t, rest, ht, -⟩ := Tracks.ahead_of_sees_endOfLine hs
  refine h.of_silent [.newLine] ((climbs_located first last).crossLine hs h.located) ?_
    rfl rfl (by simp [Event.problem?])
  rw [cursor_ahead_crossLine ht]
  intro u hu
  exact h.ahead u (ht ▸ List.mem_cons_of_mem _ hu)

theorem advance (h : s.Placed first last tokens) (hs : s.Settled) :
    State.Placed first last tokens { s with cursor := s.cursor.advance } := by
  refine h.of_silent [] ((climbs_located first last).advance hs h.located) ?_ rfl rfl (by simp)
  intro u hu
  cases hc : s.cursor.ahead with
  | nil =>
    rw [Cursor.advance, hc] at hu
    exact h.ahead u hu
  | cons t rest =>
    refine h.ahead u (hc ▸ List.mem_cons_of_mem _ ?_)
    simpa [Cursor.advance, hc] using hu

/-- A problem is reported on the current line, recorded or not. -/
theorem report (h : s.Placed first last tokens) (hend : Token.endOfFile ∈ tokens) (c : Category)
    (m : String) : (s.report c m).Placed first last tokens := by
  -- recorded or not, the problem is found at the lookahead
  have hnew : ∀ recorded recorded' : Bool, ∀ d t,
      Event.problem d t recorded' ∈
        Event.problem { category := c, line := s.line, message := m } s.lookahead recorded ::
          s.history →
      t ∈ tokens ∧ d.line = lineAt first last t := by
    intro recorded recorded' d t he
    rcases List.mem_cons.1 he with he | he
    · cases he
      exact ⟨h.lookahead_mem hend, h.line_eq⟩
    · exact h.found he
  unfold State.report
  split
  · refine ⟨h.located, h.ahead, hnew true _ _ _, ?_⟩
    intro d
    simp only [note, List.mem_append, List.mem_cons, List.not_mem_nil, or_false,
      Event.problem.injEq, and_true, h.recorded d]
    constructor
    · rintro (⟨t, he⟩ | rfl)
      · exact ⟨t, Or.inr he⟩
      · exact ⟨_, Or.inl ⟨rfl, rfl⟩⟩
    · rintro ⟨t, ⟨rfl, -⟩ | he⟩
      · exact Or.inr rfl
      · exact Or.inl ⟨t, he⟩
  · refine ⟨h.located, h.ahead, hnew false _ _ _, ?_⟩
    intro d
    simp [note, h.recorded d]

theorem start (h : Lexer.Numbered first last tokens) :
    (ofTokens tokens).skipLineEnds.Placed first last tokens := by
  have hfresh : (ofTokens tokens).Placed first last tokens :=
    { located := located_start h
      ahead := by
        intro t ht
        exact ht
      found := by simp [ofTokens]
      recorded := by simp [ofTokens] }
  refine skipLineEnds_keeps ?_ hfresh
  intro s hs h
  exact h.crossLine hs

end State.Placed

theorem placed_invariant (first last : Int) {tokens : List Token}
    (hend : Token.endOfFile ∈ tokens) : Invariant (State.Placed first last tokens) := by
  refine .of_crossings ?_ ?_ ?_ ?_
  · intro s s' hr h
    exact h.of_readsAs hr
  · intro s hs h
    exact h.crossLine hs
  · intro s hs h
    exact h.advance hs
  · intro s h
    exact h.report hend

/-! ## The errors of a parse -/

section Numbered

variable {first last : Int} {tokens : List Token}

/-- Every error of a parse is found somewhere, and nothing else is. -/
theorem mem_errors_parse_iff (h : Lexer.Numbered first last tokens) (n : Nesting)
    (d : Diagnostic) :
    d ∈ (PocketPascal.parse n tokens).errors ↔ ∃ found, FoundAt n tokens d found := by
  have inv := placed_invariant first last (List.mem_of_getLast? h.ends)
  have hparse : (PocketPascal.parse n tokens).errors =
      ((State.ofTokens tokens).parse n).errors := rfl
  rw [exists_foundAt_iff, hparse, happenings, State.parse, find]
  rcases inv.resolve (.start h) n [.construct .program] with
    ⟨s₁, hr, hp⟩ | ⟨reason, found, s₁, hr, -, -, hp⟩
  · rw [hr]
    simp only [Outcome.fatal, List.not_mem_nil, or_false, List.mem_reverse]
    exact hp.recorded d
  · -- giving up is no problem of the history, and adds one error
    rw [hr]
    simp only [Outcome.fatal, State.note, List.mem_append, List.mem_reverse, List.mem_cons,
      reduceCtorEq, false_or]
    exact or_congr_left (hp.recorded d)

/-- An error stands where its token is taken to stand. -/
theorem FoundAt.line_eq {n : Nesting} {d : Diagnostic} {found : Token}
    (hd : FoundAt n tokens d found) (h : Lexer.Numbered first last tokens) :
    found ∈ tokens ∧ d.line = lineAt first last found := by
  have hend : Token.endOfFile ∈ tokens := List.mem_of_getLast? h.ends
  have inv := placed_invariant first last hend
  cases hd with
  | recorded he =>
    rw [happenings, List.mem_reverse] at he
    rcases inv.parse (.start h) n with hp | ⟨reason, t, s₁, hs, -, -, hp⟩
    · exact hp.found he
    · rw [hs, State.giveUp, State.note, List.mem_cons] at he
      exact hp.found (he.resolve_left (by simp))
  | fatal hv hstep =>
    have hp := inv.of_visits (.start h) hv
    obtain ⟨rfl, -⟩ := step_halt hstep
    exact ⟨hp.lookahead_mem hend, hp.line_eq⟩

end Numbered

/-! ## Source lines -/

/-- The last source line down to a token: its own, or the last one before the end of the file. -/
def homeLine (last : Int) (t : Token) : Int :=
  if t.kind = .endOfFile then last else t.line

/-- The line that a token stands on; the end of the file stands on the line after the last one. -/
def sourceLine (last : Int) (t : Token) : Int :=
  if t.kind = .endOfFile then last + 1 else t.line

/-- A parse is wrong about the line of a token where it takes the first line for another one. -/
theorem lineAt_eq_sourceLine_iff (first last : Int) (t : Token) :
    lineAt first last t = sourceLine last t ↔ first ≤ 1 ∨ homeLine last t ≠ first := by
  have htaken : ∀ n, takenFor first n = n ↔ first ≤ 1 ∨ n ≠ first := by
    intro n
    unfold takenFor
    split <;> omega
  unfold lineAt sourceLine homeLine
  split
  · rw [← htaken last]
    omega
  · exact htaken t.line

/-- The errors that a parse adds to an analysis, each of them found at one of the tokens, and where
they stand: on the line of that token, unless the source starts with blank lines and the token is
on the first line after them, or is the end of a file with no other line. -/
theorem analyze_error_lines (l : Limits) (source : String) :
    (analyze l source).errors = (analyze l source).lexicalErrors ++
        (PocketPascal.parse l.nesting (analyze l source).tokens).errors ∧
      (∀ d, d ∈ (PocketPascal.parse l.nesting (analyze l source).tokens).errors ↔
        ∃ found, FoundAt l.nesting (analyze l source).tokens d found) ∧
      ∀ d found, FoundAt l.nesting (analyze l source).tokens d found →
        found ∈ (analyze l source).tokens ∧
          d.line = lineAt (firstLine source) (lastLine source) found ∧
          (d.line = sourceLine (lastLine source) found ↔
            firstLine source ≤ 1 ∨ homeLine (lastLine source) found ≠ firstLine source) := by
  have htokens : Lexer.Numbered (firstLine source) (lastLine source) (analyze l source).tokens :=
    tokenize_numbered l.identifierLength source
  refine ⟨rfl, mem_errors_parse_iff htokens l.nesting, ?_⟩
  intro d found hd
  obtain ⟨hmem, hline⟩ := hd.line_eq htokens
  refine ⟨hmem, hline, ?_⟩
  rw [hline, lineAt_eq_sourceLine_iff]
  exact or_congr_left (by omega)

/-- A blank line before a stray name: the complaint about the name stands on line 1 and not on the
line of the name. -/
theorem analyze_error_lines_after_blank_line :
    ¬ ∀ d found, FoundAt ({} : Limits).nesting (analyze {} "\nx").tokens d found →
      d.line = sourceLine (lastLine "\nx") found := by
  intro hall
  have hfound : FoundAt ({} : Limits).nesting (analyze {} "\nx").tokens
      { category := .grammar, line := 1, message := "Expect 'begin', but got 'x'" }
      { kind := .identifier, text := "x", line := 2 } := .recorded (by decide +kernel)
  have hline := hall _ _ hfound
  exact absurd hline (by decide)

end PocketPascal.Parser
