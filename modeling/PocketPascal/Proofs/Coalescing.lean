import PocketPascal.Ledger.Reader
import PocketPascal.Proofs.Layout
import PocketPascal.Proofs.LineTracking

/-! # One problem a line

The ends of lines that are crossed cut the history of a parse into segments. What is recorded is
the first problem of every segment that has one, and at the end the reason why the parse was given
up, if it was. Since every crossing leads to a later line, the recorded problems stand on different
lines, in order.
-/

namespace PocketPascal.Parser

namespace Event

/-- The diagnostic of a problem, recorded or not. -/
def problem? : Event → Option Diagnostic
  | .problem d _ _ => some d
  | _ => none

/-- Whether the end of a line is crossed. -/
def isNewLine : Event → Bool
  | .newLine => true
  | _ => false

end Event

/-- The stretches of some events before, between and after the crossings of ends of lines. -/
def segments (events : List Event) : List (List Event) :=
  events.splitOnP Event.isNewLine

/-- The first problem that is reported in each segment that has one. -/
def firstProblems (events : List Event) : List Diagnostic :=
  (segments events).filterMap fun segment => segment.findSome? Event.problem?

/-- The first problem that is reported in the last segment. -/
def openProblem? (events : List Event) : Option Diagnostic :=
  ((segments events).getLastD []).findSome? Event.problem?

/-- What happens in a parse of some tokens, in order. -/
def happenings (n : Nesting) (tokens : List Token) : List Event :=
  ((State.ofTokens tokens).parse n).history.reverse

/-- What giving a resolution up adds to the errors. -/
def Outcome.fatal : Outcome → List Diagnostic
  | .finished _ => []
  | .aborted reason line _ => [reason.on line]

/-! ## One event more -/

theorem segments_concat_newLine (events : List Event) :
    segments (events ++ [.newLine]) = segments events ++ [[]] :=
  List.splitOnP_append_cons events [] rfl

/-- Any other event belongs to the last segment. -/
theorem segments_concat {e : Event} (he : e.isNewLine = false) (events : List Event) :
    ∃ closed segment, segments events = closed ++ [segment] ∧
      segments (events ++ [e]) = closed ++ [segment ++ [e]] := by
  induction events with
  | nil => exact ⟨[], [], rfl, by simp [segments, List.splitOnP_cons_eq_if_modifyHead, he]⟩
  | cons a events ih =>
    obtain ⟨closed, segment, h, h'⟩ := ih
    unfold segments at h h' ⊢
    rw [List.cons_append, List.splitOnP_cons_eq_if_modifyHead, List.splitOnP_cons_eq_if_modifyHead,
      h, h']
    split
    · exact ⟨[] :: closed, segment, rfl, rfl⟩
    · cases closed with
      | nil => exact ⟨[], a :: segment, rfl, rfl⟩
      | cons first closed => exact ⟨(a :: first) :: closed, segment, rfl, rfl⟩

theorem firstProblems_concat_newLine (events : List Event) :
    firstProblems (events ++ [.newLine]) = firstProblems events := by
  rw [firstProblems, segments_concat_newLine, List.filterMap_append]
  exact List.append_nil _

theorem openProblem?_concat_newLine (events : List Event) :
    openProblem? (events ++ [.newLine]) = none := by
  rw [openProblem?, segments_concat_newLine, List.getLastD_concat]
  rfl

theorem findSome?_concat_other {e : Event} (hp : e.problem? = none) (segment : List Event) :
    (segment ++ [e]).findSome? Event.problem? = segment.findSome? Event.problem? := by
  simp [List.findSome?_append, hp]

theorem firstProblems_concat_other {e : Event} (he : e.isNewLine = false) (hp : e.problem? = none)
    (events : List Event) : firstProblems (events ++ [e]) = firstProblems events := by
  obtain ⟨closed, segment, h, h'⟩ := segments_concat he events
  rw [firstProblems, firstProblems, h, h', List.filterMap_append, List.filterMap_append,
    List.filterMap_cons, List.filterMap_cons, findSome?_concat_other hp]

theorem openProblem?_concat_other {e : Event} (he : e.isNewLine = false) (hp : e.problem? = none)
    (events : List Event) : openProblem? (events ++ [e]) = openProblem? events := by
  obtain ⟨closed, segment, h, h'⟩ := segments_concat he events
  rw [openProblem?, openProblem?, h, h', List.getLastD_concat, List.getLastD_concat,
    findSome?_concat_other hp]

/-- A problem counts if it is the first one of the last segment. -/
theorem firstProblems_concat_problem (d : Diagnostic) (found : Token) (recorded : Bool)
    (events : List Event) :
    firstProblems (events ++ [.problem d found recorded]) =
      if openProblem? events = none then firstProblems events ++ [d] else firstProblems events := by
  obtain ⟨closed, segment, h, h'⟩ := segments_concat (e := .problem d found recorded) rfl events
  rw [firstProblems, firstProblems, openProblem?, h, h', List.getLastD_concat,
    List.filterMap_append, List.filterMap_append]
  cases hs : segment.findSome? Event.problem? with
  | none => simp [List.findSome?_append, hs, Event.problem?]
  | some d' => simp [List.findSome?_append, hs]

theorem openProblem?_concat_problem (d : Diagnostic) (found : Token) (recorded : Bool)
    (events : List Event) : openProblem? (events ++ [.problem d found recorded]) ≠ none := by
  obtain ⟨closed, segment, h, h'⟩ := segments_concat (e := .problem d found recorded) rfl events
  rw [openProblem?, h', List.getLastD_concat]
  simp [List.findSome?_append, Event.problem?]

/-! ## The history of a parse -/

/-- The errors of a state are the first problems of the segments of its history, reporting is off
where the last segment has a problem, and the history has a crossing for every end of a line among
the tokens passed. -/
structure State.Coalesced (s : State) : Prop where
  errors : s.errors = firstProblems s.history.reverse
  armed : s.armed = true ↔ openProblem? s.history.reverse = none
  crossings : s.history.countP Event.isNewLine =
    s.cursor.passed.countP fun t => t.kind == .endOfLine

namespace State.Coalesced

variable {s : State}

/-- Events that are no problem and cross no end of a line change nothing. -/
theorem of_readsAs {s' : State} (h : s.Coalesced) (hr : s.ReadsAs s') : s'.Coalesced := by
  obtain ⟨es, hes, hsilent⟩ := hr.history
  -- on the events that are added; none of them cuts a segment off or is a problem in one
  have hsame : ∀ es : List Event, (∀ e ∈ es, e.silent = true) →
      firstProblems (es ++ s.history).reverse = firstProblems s.history.reverse ∧
        openProblem? (es ++ s.history).reverse = openProblem? s.history.reverse ∧
        (es ++ s.history).countP Event.isNewLine = s.history.countP Event.isNewLine := by
    intro es
    induction es with
    | nil =>
      intro _
      exact ⟨rfl, rfl, rfl⟩
    | cons e es ih =>
      intro hall
      obtain ⟨hf, ho, hc⟩ := ih fun e' he' => hall e' (List.mem_cons_of_mem _ he')
      have he := hall e List.mem_cons_self
      have hline : e.isNewLine = false := by cases e <;> simp_all [Event.silent, Event.isNewLine]
      have hproblem : e.problem? = none := by cases e <;> simp_all [Event.silent, Event.problem?]
      rw [List.cons_append, List.reverse_cons, firstProblems_concat_other hline hproblem,
        openProblem?_concat_other hline hproblem, List.countP_cons, hline, hc]
      exact ⟨hf, ho, rfl⟩
  obtain ⟨hf, ho, hc⟩ := hsame es hsilent
  exact
    { errors := by rw [hr.errors, hes, hf, h.errors]
      armed := by rw [hr.armed, hes, ho, h.armed]
      crossings := by rw [hr.cursor, hes, hc, h.crossings] }

/-- Only the first problem since the last crossing is recorded. -/
theorem report (h : s.Coalesced) (c : Category) (m : String) : (s.report c m).Coalesced := by
  have harmed := h.armed
  unfold State.report
  split
  · next ha =>
    have hopen := harmed.1 ha
    refine ⟨?_, ?_, ?_⟩
    · simp only [State.note, List.reverse_cons, firstProblems_concat_problem, hopen, if_pos,
        h.errors]
    · simp [State.note, openProblem?_concat_problem]
    · simpa [State.note, Event.isNewLine] using h.crossings
  · next ha =>
    have hopen : openProblem? s.history.reverse ≠ none := by
      intro ho
      exact ha (harmed.2 ho)
    refine ⟨?_, ?_, ?_⟩
    · simp only [State.note, List.reverse_cons, firstProblems_concat_problem, if_neg hopen,
        h.errors]
    · simpa [State.note, openProblem?_concat_problem] using ha
    · simpa [State.note, Event.isNewLine] using h.crossings

theorem crossLine (h : s.Coalesced) (hs : s.sees .endOfLine) : s.crossLine.Coalesced := by
  obtain ⟨t, rest, ht, hkind⟩ := Tracks.ahead_of_sees_endOfLine hs
  refine ⟨?_, ?_, ?_⟩
  · simp only [State.crossLine, State.note, List.reverse_cons, firstProblems_concat_newLine,
      h.errors]
  · simp [State.crossLine, State.note, openProblem?_concat_newLine]
  · rw [cursor_crossLine, Cursor.advance, ht]
    rw [List.countP_cons_of_pos (by simp [hkind]), ← h.crossings]
    exact List.countP_cons_of_pos rfl

theorem advance (h : s.Coalesced) (hs : s.Settled) :
    State.Coalesced { s with cursor := s.cursor.advance } := by
  refine ⟨h.errors, h.armed, ?_⟩
  cases ht : s.cursor.ahead with
  | nil => simpa [Cursor.advance, ht] using h.crossings
  | cons t rest =>
    have hkind : t.kind ≠ .endOfLine := by
      simpa [State.Settled, State.lookahead, Cursor.peek?, ht] using hs
    simpa [Cursor.advance, ht, hkind] using h.crossings

theorem start (tokens : List Token) : (State.ofTokens tokens).skipLineEnds.Coalesced := by
  have hfresh : (State.ofTokens tokens).Coalesced :=
    { errors := rfl
      armed := by constructor <;> intro _ <;> rfl
      crossings := rfl }
  refine skipLineEnds_keeps ?_ hfresh
  intro s hs h
  exact h.crossLine hs

end State.Coalesced

theorem coalesced_invariant : Invariant State.Coalesced := by
  refine .of_crossings ?_ ?_ ?_ ?_
  · intro s s' hr h
    exact h.of_readsAs hr
  · intro s hs h
    exact h.crossLine hs
  · intro s hs h
    exact h.advance hs
  · intro s h
    exact h.report

theorem length_segments (events : List Event) :
    (segments events).length = events.countP Event.isNewLine + 1 := by
  induction events with
  | nil => rfl
  | cons e events ih =>
    rw [segments, List.splitOnP_cons_eq_if_modifyHead, List.countP_cons]
    split
    · rw [List.length_cons, ← segments, ih]
    · rw [List.length_modifyHead, ← segments, ih]

/-- What a parse records in all: the first problems, and the reason for giving up. -/
theorem errors_parse (n : Nesting) (tokens : List Token) :
    (PocketPascal.parse n tokens).errors =
        firstProblems (happenings n tokens) ++
          (find n .program (State.ofTokens tokens).skipLineEnds).fatal ∧
      (∀ d ∈ firstProblems (happenings n tokens), d.fatal = false) ∧
      (happenings n tokens).countP Event.isNewLine =
        (PocketPascal.parse n tokens).tokens.countP fun t => t.kind == .endOfLine := by
  have inv := coalesced_invariant.and proper_invariant
  rw [PocketPascal.parse, State.result, happenings, State.consumed, Cursor.consumed,
    List.countP_reverse, List.countP_reverse, State.parse, find]
  rcases inv.resolve ⟨.start tokens, .start tokens⟩ n [.construct .program] with
    ⟨s₁, hr, hc, hp⟩ | ⟨reason, found, s₁, hr, -, -, hc, hp⟩
  · rw [hr, ← hc.errors]
    exact ⟨(List.append_nil _).symm, hp.soft, hc.crossings⟩
  · have hfirst : firstProblems (Event.aborted reason found.line :: s₁.history).reverse =
        s₁.errors := by
      rw [List.reverse_cons, firstProblems_concat_other rfl rfl, hc.errors]
    rw [hr]
    simp only [State.note, hfirst]
    exact ⟨rfl, hp.soft, hc.crossings⟩

/-! ## Later problems stand on later lines -/

/-- Errors that stand on different lines, in order; a fatal one stands on no earlier line. -/
def LinesGrow (errors : List Diagnostic) : Prop :=
  ((errors.filter fun d => !d.fatal).Pairwise fun d e => d.line < e.line) ∧
    ∀ e ∈ errors, e.fatal = true → ∀ d ∈ errors, d.line ≤ e.line

/-- The errors of a state stand on different lines in order, none of them below the current line,
and none on it if the next problem will be recorded. -/
structure State.Ascending (s : State) : Prop where
  rising : s.errors.Pairwise fun d e => d.line < e.line
  reached : ∀ d ∈ s.errors, d.line ≤ s.line
  passed : s.armed = true → ∀ d ∈ s.errors, d.line < s.line

namespace State.Ascending

variable {s : State}

theorem of_readsAs {s' : State} (h : s.Ascending) (hr : s.ReadsAs s') : s'.Ascending where
  rising := by rw [hr.errors]; exact h.rising
  reached := by rw [hr.errors, hr.line]; exact h.reached
  passed := by rw [hr.errors, hr.line, hr.armed]; exact h.passed

theorem report (h : s.Ascending) (c : Category) (m : String) : (s.report c m).Ascending := by
  unfold State.report
  split
  · next ha =>
    refine ⟨?_, ?_, by simp [State.note]⟩
    · refine List.pairwise_append.2 ⟨h.rising, List.pairwise_singleton _ _, ?_⟩
      intro d hd e he
      rw [List.mem_singleton.1 he]
      exact h.passed ha d hd
    · intro d hd
      rcases List.mem_append.1 hd with hd | hd
      · exact h.reached d hd
      · obtain rfl := List.mem_singleton.1 hd
        exact Int.le_refl _
  · exact ⟨h.rising, h.reached, h.passed⟩

/-- A crossing that leads to a later line passes all errors. -/
theorem crossLine (h : s.Ascending) (hline : s.line < s.crossLine.line) :
    s.crossLine.Ascending where
  rising := h.rising
  reached d hd := Int.le_trans (h.reached d hd) (Int.le_of_lt hline)
  passed _ d hd := Int.lt_of_le_of_lt (h.reached d hd) hline

end State.Ascending

theorem Climbs.lt_crossLine {C : List Token → Int → Prop} (climbs : Climbs C) {s : State}
    (hs : s.sees .endOfLine) (h : C s.cursor.ahead s.line) : s.line < s.crossLine.line := by
  obtain ⟨t, rest, ht, hkind⟩ := Tracks.ahead_of_sees_endOfLine hs
  rw [Tracks.line_crossLine ht]
  exact climbs.climb hkind (ht ▸ h)

/-- Where every crossing leads to a later line, the errors stand on different lines in order. -/
theorem ascending_invariant {C : List Token → Int → Prop} (climbs : Climbs C) :
    Invariant fun s => C s.cursor.ahead s.line ∧ s.Ascending := by
  refine .of_crossings ?_ ?_ ?_ ?_
  · rintro s s' hr ⟨hc, h⟩
    rw [hr.cursor, hr.line]
    exact ⟨hc, h.of_readsAs hr⟩
  · rintro s hs ⟨hc, h⟩
    have hline : s.line < s.crossLine.line := climbs.lt_crossLine hs hc
    exact ⟨climbs.crossLine hs hc, h.crossLine hline⟩
  · rintro s hs ⟨hc, h⟩
    exact ⟨climbs.advance hs hc, h.rising, h.reached, h.passed⟩
  · rintro s ⟨hc, h⟩ c m
    rw [State.cursor_report, State.line_report]
    exact ⟨hc, h.report c m⟩

theorem ascending_start {C : List Token → Int → Prop} (climbs : Climbs C) {tokens : List Token}
    (h : C tokens 1) :
    C (State.ofTokens tokens).skipLineEnds.cursor.ahead
        (State.ofTokens tokens).skipLineEnds.line ∧
      (State.ofTokens tokens).skipLineEnds.Ascending := by
  have hnone : (State.ofTokens tokens).skipLineEnds.errors = [] := State.errors_skipLineEnds _
  refine ⟨climbs.skipLineEnds h, ?_, ?_, ?_⟩ <;> rw [hnone]
  · exact List.Pairwise.nil
  · intro d hd
    cases hd
  · intro _ d hd
    cases hd

theorem linesGrow_parse {C : List Token → Int → Prop} (climbs : Climbs C) {tokens : List Token}
    (h : C tokens 1) (n : Nesting) : LinesGrow (PocketPascal.parse n tokens).errors := by
  have inv := (ascending_invariant climbs).and proper_invariant
  have hsoft : ∀ {x : State}, x.Proper → x.errors.filter (fun d => !d.fatal) = x.errors := by
    intro x hx
    rw [List.filter_eq_self]
    intro d hd
    simp [hx.soft d hd]
  change LinesGrow ((State.ofTokens tokens).parse n).errors
  rcases inv.parse ⟨ascending_start climbs h, .start tokens⟩ n with
    ⟨⟨-, hs⟩, hp⟩ | ⟨reason, found, s₁, hr, ⟨⟨-, hfound⟩, -⟩, herrors, ⟨-, hs⟩, hp⟩
  · refine ⟨?_, ?_⟩
    · rw [hsoft hp]
      exact hs.rising
    · intro e he hfatal
      rw [hp.soft e he] at hfatal
      cases hfatal
  · rw [hr, State.giveUp, State.note]
    refine ⟨?_, ?_⟩
    · rw [List.filter_append, hsoft hp]
      simpa [Abort.on] using hs.rising
    · intro e he hfatal d hd
      rcases List.mem_append.1 he with he | he
      · rw [hp.soft e he] at hfatal
        cases hfatal
      · rw [List.mem_singleton.1 he]
        rcases List.mem_append.1 hd with hd | hd
        · exact hfound.reached d (herrors ▸ hd)
        · obtain rfl := List.mem_singleton.1 hd
          exact Int.le_refl _

/-- A record tells no line. -/
theorem line_of_readRecord? {line : List Char} {t : Token} (h : Ledger.readRecord? line = some t) :
    t.line = 0 := by
  unfold Ledger.readRecord? at h
  split at h
  · split at h
    · rw [← Option.some.inj h]
    · cases h
  · cases h

theorem readRecord?_of_readLine {line : List Char} {t : Token}
    (h : Ledger.readLine line = .token t) : Ledger.readRecord? line = some t := by
  unfold Ledger.readLine at h
  split at h
  · next t' ht =>
    rw [ht, Ledger.LineReading.token.inj h]
  · split at h <;> cases h

/-- A ledger holds no lines. -/
theorem line_of_mem_read {text : String} {t : Token} (h : t ∈ (Ledger.read text).1) :
    t.line = 0 := by
  obtain ⟨⟨line, reading⟩, hl, ht⟩ := List.mem_filterMap.1 h
  obtain ⟨line', -, heq⟩ := List.mem_map.1 hl
  obtain ⟨rfl, hreading⟩ := Prod.mk.inj heq
  cases reading with
  | token t' =>
    obtain rfl := Option.some.inj ht
    exact line_of_readRecord? (readRecord?_of_readLine hreading)
  | blank => cases ht
  | malformed => cases ht

/-- The errors of a parse are the first problems of the stretches between crossings of ends of
lines, one for every stretch with a problem, and then the reason for giving up, if there is one. So
there are at most as many as crossings and one more; over tokens of a source or of a ledger they
stand on different lines in order. -/
theorem parse_errors_coalesce (n : Nesting) :
    (∀ tokens : List Token,
      (PocketPascal.parse n tokens).errors =
          firstProblems (happenings n tokens) ++
            (find n .program (State.ofTokens tokens).skipLineEnds).fatal ∧
        (∀ d ∈ firstProblems (happenings n tokens), d.fatal = false) ∧
        (segments (happenings n tokens)).length =
          (PocketPascal.parse n tokens).tokens.countP (fun t => t.kind == .endOfLine) + 1 ∧
        ((PocketPascal.parse n tokens).errors.countP fun d => !d.fatal) ≤
          (PocketPascal.parse n tokens).tokens.countP (fun t => t.kind == .endOfLine) + 1) ∧
      (∀ (limit : Int) (source : String),
        LinesGrow (PocketPascal.parse n (tokenize limit source).1).errors) ∧
      ∀ text : String, LinesGrow (PocketPascal.parse n (Ledger.read text).1).errors := by
  refine ⟨?_, ?_, ?_⟩
  · intro tokens
    obtain ⟨herrors, hsoft, hcrossings⟩ := errors_parse n tokens
    have hlength := length_segments (happenings n tokens)
    rw [hcrossings] at hlength
    refine ⟨herrors, hsoft, hlength, ?_⟩
    -- giving up adds no soft error
    have hfatal : ((find n .program (State.ofTokens tokens).skipLineEnds).fatal.countP
        fun d => !d.fatal) = 0 := by
      rw [List.countP_eq_zero]
      cases find n .program (State.ofTokens tokens).skipLineEnds with
      | finished s =>
        intro d hd
        exact absurd hd List.not_mem_nil
      | aborted reason line s =>
        intro d hd
        rw [List.mem_singleton.1 hd]
        simp [Abort.on]
    rw [herrors, List.countP_append, hfatal, ← hlength, Nat.add_zero]
    exact Nat.le_trans List.countP_le_length (List.length_filterMap_le _ _)
  · intro limit source
    have hlocated := located_start (tokenize_numbered limit source)
    exact linesGrow_parse (climbs_located _ _) hlocated n
  · intro text
    have hlines : ∀ t ∈ (Ledger.read text).1, t.line = 0 := by
      intro t ht
      exact line_of_mem_read ht
    exact linesGrow_parse climbs_of_no_lines hlines n

end PocketPascal.Parser
