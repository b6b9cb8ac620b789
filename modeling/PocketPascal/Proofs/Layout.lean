import Mathlib.Tactic.Common
import PocketPascal.Proofs.Simulation

/-! # Layout does not matter

Two token streams that only differ in their ends of lines, and in the lines their tokens stand on,
are parsed in step. Whether a problem is recorded does depend on the layout, but nothing is ever
decided on that, and the first problem of all is always recorded. So all that differs in the end are
line numbers, and which of the later problems were recorded.
-/

namespace PocketPascal

/-- A diagnostic without its line. -/
def Diagnostic.unlined (d : Diagnostic) : Category × String × Bool :=
  (d.category, d.message, d.fatal)

theorem succeeded_eq_isNone_head? (errors : List Diagnostic) :
    succeeded errors = errors.head?.isNone := by
  cases errors <;> rfl

theorem aborted_eq_not_isEmpty (errors : List Diagnostic) :
    aborted errors = !(errors.filter (·.fatal)).isEmpty := by
  induction errors with
  | nil => rfl
  | cons d ds ih => cases hd : d.fatal <;> simp_all [aborted]

namespace Parser

/-- A state as parses meet it: it looks at no end of a line, problems are passed over only where one
has been recorded, and none recorded so far is fatal. -/
structure State.Proper (s : State) : Prop where
  settled : s.Settled
  recorded : s.armed = false → s.errors ≠ []
  soft : ∀ d ∈ s.errors, d.fatal = false

theorem State.errors_report (s : State) (c : Category) (m : String) :
    (s.report c m).errors =
      if s.armed then s.errors ++ [{ category := c, line := s.line, message := m }]
      else s.errors := by
  unfold State.report
  split <;> rfl

theorem State.armed_consume {s : State} (h : s.consume.2.armed = false) : s.armed = false := by
  refine State.consume_keeps (P := fun x => x.armed = false → s.armed = false) ?_ ?_ id h
  · intro x _ _ hx
    exact absurd hx (by simp [State.crossLine, State.note])
  · intro x _ hx
    exact hx

theorem State.Proper.report {s : State} (h : s.Proper) (c : Category) (m : String) :
    (s.report c m).Proper where
  settled := by
    rw [State.Settled, State.lookahead_report]
    exact h.settled
  recorded := by
    intro _
    rw [State.errors_report]
    split
    · simp
    · next ha => exact h.recorded (by simpa using ha)
  soft := by
    rw [State.errors_report]
    split
    · intro d hd
      rcases List.mem_append.1 hd with hd | hd
      · exact h.soft d hd
      · rw [List.mem_singleton.1 hd]
    · exact h.soft

theorem State.Proper.of_readsAs {s t : State} (h : s.Proper) (hr : s.ReadsAs t) : t.Proper where
  settled := by
    rw [State.Settled, State.lookahead, hr.cursor]
    exact h.settled
  recorded := by
    rw [hr.armed, hr.errors]
    exact h.recorded
  soft := by
    rw [hr.errors]
    exact h.soft

theorem State.Proper.consume {s : State} (h : s.Proper) : s.consume.2.Proper where
  settled := s.settled_consume
  recorded := by
    rw [State.errors_consume]
    intro ha
    exact h.recorded (State.armed_consume ha)
  soft := by
    rw [State.errors_consume]
    exact h.soft

theorem proper_invariant : Invariant State.Proper :=
  .of_readsAs (fun hr h => h.of_readsAs hr) (fun h => h.consume) (fun h => h.report)

theorem State.Proper.start (tokens : List Token) : (State.ofTokens tokens).skipLineEnds.Proper where
  settled := State.settled_skipLineEnds _
  recorded := by
    refine State.skipLineEnds_keeps (P := fun x => x.armed = false → x.errors ≠ []) ?_ ?_
    · intro x _ _ hx
      exact absurd hx (by simp [State.crossLine, State.note])
    · intro hx
      exact absurd hx (by simp [State.ofTokens])
  soft := by simp [State.ofTokens]

/-- Two states that the grammar cannot tell apart, and in which the same was recorded first. -/
structure State.Alike (s s' : State) : Prop where
  proper : s.Proper
  proper' : s'.Proper
  view : s'.view = s.view
  first : s'.errors.head?.map Diagnostic.unlined = s.errors.head?.map Diagnostic.unlined

namespace State.Alike

variable {s s' : State}

theorem lookahead (h : s.Alike s') : s'.lookahead.toLexeme = s.lookahead.toLexeme := by
  rw [lookahead_eq_head h.proper.settled, lookahead_eq_head h.proper'.settled]
  rw [show s'.unread = s.unread from congrArg View.unread h.view]

/-- Two states in which nothing was recorded record a problem alike; in two others it comes too late
to be the first one. -/
theorem report (h : s.Alike s') (c : Category) (m : String) :
    (s.report c m).Alike (s'.report c m) where
  proper := h.proper.report c m
  proper' := h.proper'.report c m
  view := by rw [view_report, view_report, h.view]
  first := by
    have hfirst := h.first
    rw [errors_report, errors_report]
    cases he : s.errors with
    | nil =>
      have he' : s'.errors = [] := by
        rw [he] at hfirst
        simpa using hfirst
      have ha : s.armed = true := by
        by_contra hn
        exact h.proper.recorded (by simpa using hn) he
      have ha' : s'.armed = true := by
        by_contra hn
        exact h.proper'.recorded (by simpa using hn) he'
      simp [he', ha, ha', Diagnostic.unlined]
    | cons d ds =>
      have hd : s'.errors.head?.map Diagnostic.unlined = some d.unlined := by
        rw [hfirst, he]
        rfl
      obtain ⟨d', hd', hu⟩ := Option.map_eq_some_iff.1 hd
      obtain ⟨ds', he'⟩ := List.head?_eq_some_iff.1 hd'
      rw [he']
      split <;> split <;> simp [hu]

theorem consume (h : s.Alike s') : s.consume.2.Alike s'.consume.2 where
  proper := h.proper.consume
  proper' := h.proper'.consume
  view := by
    rw [view_consume, view_consume, h.view]
    rw [show s'.unread = s.unread from congrArg View.unread h.view]
  first := by
    rw [errors_consume, errors_consume]
    exact h.first

/-- States that read as before are still alike if the grammar still cannot tell them apart. -/
theorem of_readsAs {t t' : State} (h : s.Alike s') (ht : s.ReadsAs t) (ht' : s'.ReadsAs t')
    (hview : t'.view = t.view) : t.Alike t' where
  proper := h.proper.of_readsAs ht
  proper' := h.proper'.of_readsAs ht'
  view := hview
  first := by
    rw [ht.errors, ht'.errors]
    exact h.first

end State.Alike

/-- States that are alike stay alike. -/
theorem alike_simulation : Simulation State.Alike :=
  Unseen.simulation
    { view := fun h => h.view
      lookahead := fun h => h.lookahead
      taken := by
        intro s s' h
        rw [State.consume, State.consume, State.skipLineEnds_eq_self h.proper.settled,
          State.skipLineEnds_eq_self h.proper'.settled]
        exact congrArg Lexeme.text h.lookahead
      readsAs := fun h => h.of_readsAs
      consume := fun h => h.consume
      report := fun h => h.report }

/-- Layout does not matter to where a parse ends, nor to what it says first and last. -/
theorem parse_alike (n : Nesting) {ts ts' : List Token} (h : lexemes ts' = lexemes ts) :
    ((State.ofTokens ts').parse n).view = ((State.ofTokens ts).parse n).view ∧
      ((State.ofTokens ts').parse n).errors.head?.map Diagnostic.unlined =
        ((State.ofTokens ts).parse n).errors.head?.map Diagnostic.unlined ∧
      (((State.ofTokens ts').parse n).errors.filter (·.fatal)).map Diagnostic.unlined =
        (((State.ofTokens ts).parse n).errors.filter (·.fatal)).map Diagnostic.unlined := by
  have hview : (State.ofTokens ts').view = (State.ofTokens ts).view := by
    rw [State.view, State.view, State.unread, State.unread]
    simp only [State.ofTokens, Cursor.ofList, h]
  have hstart : (State.ofTokens ts).skipLineEnds.Alike (State.ofTokens ts').skipLineEnds :=
    { proper := .start ts
      proper' := .start ts'
      view := by rw [State.view_skipLineEnds, State.view_skipLineEnds, hview]
      first := by rw [State.errors_skipLineEnds, State.errors_skipLineEnds]; rfl }
  have hsoft : ∀ {x : State}, x.Proper → x.errors.filter (·.fatal) = [] := by
    intro x hx
    rw [List.filter_eq_nil_iff]
    intro d hd
    simp [hx.soft d hd]
  rcases alike_simulation.parse hstart n with
    hs | ⟨reason, found, found', s₁, s₁', hp, hp', -, -, -, hs⟩
  · exact ⟨hs.view, hs.first, by rw [hsoft hs.proper, hsoft hs.proper']⟩
  · have hreason : (reason.on found'.line).unlined = (reason.on found.line).unlined := rfl
    have hfirst := hs.first
    rw [hp, hp']
    refine ⟨hs.view, ?_, ?_⟩
    · simp only [State.giveUp, State.note, List.head?_append, Option.map_or, hfirst,
        List.head?_cons, Option.map_some, hreason]
    · simp only [State.giveUp, State.note, List.filter_append, hsoft hs.proper, hsoft hs.proper',
        List.nil_append]
      rfl

end Parser

/-- Two token streams that differ only in their ends of lines and in the lines of their tokens have
the same symbols, are passed equally far, succeed or are aborted together, and have the same first
problem and the same reason to give up. -/
theorem parse_ignores_layout (n : Parser.Nesting) {ts ts' : List Token}
    (h : lexemes ts' = lexemes ts) :
    (parse n ts').vars = (parse n ts).vars ∧
      (parse n ts').procs = (parse n ts).procs ∧
      lexemes (parse n ts').tokens = lexemes (parse n ts).tokens ∧
      succeeded (parse n ts').errors = succeeded (parse n ts).errors ∧
      aborted (parse n ts').errors = aborted (parse n ts).errors ∧
      (parse n ts').errors.head?.map Diagnostic.unlined =
        (parse n ts).errors.head?.map Diagnostic.unlined ∧
      ((parse n ts').errors.filter (·.fatal)).map Diagnostic.unlined =
        ((parse n ts).errors.filter (·.fatal)).map Diagnostic.unlined := by
  obtain ⟨hview, hfirst, hfatal⟩ := Parser.parse_alike n h
  have hsymbols := congrArg Parser.View.symbols hview
  have hunread : ((Parser.State.ofTokens ts').parse n).unread =
      ((Parser.State.ofTokens ts).parse n).unread := congrArg Parser.View.unread hview
  refine ⟨congrArg SymbolTable.vars hsymbols, congrArg SymbolTable.procs hsymbols, ?_, ?_, ?_,
    hfirst, hfatal⟩
  · -- what was passed is what is not ahead, and the same is ahead in both
    have hboth := (Parser.lexemes_parse n ts').trans (h.trans (Parser.lexemes_parse n ts).symm)
    rw [hunread] at hboth
    exact List.append_cancel_right hboth
  · have hnone := congrArg Option.isNone hfirst
    rw [Option.isNone_map, Option.isNone_map] at hnone
    rw [succeeded_eq_isNone_head?, succeeded_eq_isNone_head?]
    exact hnone
  · have hempty := congrArg List.isEmpty hfatal
    rw [List.isEmpty_map, List.isEmpty_map] at hempty
    rw [aborted_eq_not_isEmpty, aborted_eq_not_isEmpty]
    exact congrArg not hempty

/-- A stray name has two problems; the second one is recorded if a line ends between them. -/
theorem parse_ignores_layout_of_stray_name :
    let x : Token := { kind := .identifier, text := "x", line := 1 }
    lexemes [.endOfLine 7, { x with line := 8 }, .endOfLine 8] = lexemes [x] ∧
      (parse { limit := 64 } [x]).errors.length = 1 ∧
      (parse { limit := 64 } [.endOfLine 7, { x with line := 8 }, .endOfLine 8]).errors.length = 2 ∧
      (parse { limit := 64 } [.endOfLine 7, { x with line := 8 }, .endOfLine 8]).errors.head?.map
          Diagnostic.unlined =
        (parse { limit := 64 } [x]).errors.head?.map Diagnostic.unlined := by
  intro x
  have h : lexemes [.endOfLine 7, { x with line := 8 }, .endOfLine 8] = lexemes [x] := by decide
  refine ⟨h, by decide +kernel, by decide +kernel, ?_⟩
  exact (parse_ignores_layout { limit := 64 } h).2.2.2.2.2.1

end PocketPascal
