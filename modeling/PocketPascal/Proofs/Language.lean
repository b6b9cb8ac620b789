import PocketPascal.Proofs.Completeness

/-! # The language of the parser

A parse finds nothing wrong exactly with the programs of the grammar; then it has passed the lexemes
of the program and has built the tables of its derivation.
-/

namespace PocketPascal.Parser

/-- From the start of some lexemes a whole program is accepted if there is one. -/
theorem accepts_program_iff {n : Nesting} {ls : List Lexeme} {v' : View} :
    Accepts n [.construct .program] (({} : Place).view [] {} ls) v' ↔
      ∃ w rest t, ProgramIn n ls w t ∧ ls = w ++ rest ∧ v' = ({} : Place).view [] t rest := by
  constructor
  · intro h
    obtain ⟨_, ⟨u, ⟨w, rest, t, hls, body, rfl⟩, hend⟩, rfl⟩ := meetsAll_of_accepts h
    obtain rfl : ls = w ++ rest := hls
    -- after the body the tokens end, or an end of file is passed
    cases rest with
    | nil =>
      obtain rfl := Option.some.inj hend
      refine ⟨w ++ [], [], t, ?_, by simp, rfl⟩
      rw [List.append_nil]
      exact .toLast body
    | cons e rest =>
      by_cases he : e.kind = .endOfFile
      · rw [View.take_of_head rfl he] at hend
        obtain rfl := Option.some.inj hend
        exact ⟨w ++ [e], rest, t, .toEndOfFile body he, by simp, rfl⟩
      · have hsees : ¬ (({} : Place).view [] t (e :: rest)).sees .endOfFile = true :=
          mt View.sees_iff.1 he
        have hnone : (({} : Place).view [] t (e :: rest)).take .endOfFile = none := if_neg hsees
        cases hnone.symm.trans hend
  · rintro ⟨w, rest, t, hw, hls, rfl⟩
    cases hw with
    | toLast body =>
      obtain rfl : rest = [] := by simpa using hls
      have hend : Accepts n [.token .endOfFile] (({} : Place).view [] t [])
          (({} : Place).view [] t []) := accepts_resolved rfl (.done _)
      have haccepts := body.accepts trivial hend
      rw [List.append_nil] at haccepts
      exact .next rfl haccepts
    | @toEndOfFile w rest' e t body he =>
      obtain rfl : rest' = rest := by simpa using hls
      have hend : Accepts n [.token .endOfFile] (({} : Place).view [] t (e :: rest'))
          (({} : Place).view [] t rest') := accepts_token rfl he (.done _)
      exact .next rfl (body.accepts trivial hend)

/-- What the grammar knows before the first token. -/
theorem view_start (tokens : List Token) :
    (State.ofTokens tokens).skipLineEnds.view = ({} : Place).view [] {} (lexemes tokens) := by
  rw [State.view_skipLineEnds]
  rfl

theorem ProgramIn.at_start {n : Nesting} {ls w : List Lexeme} {t : SymbolTable}
    (h : ProgramIn n ls w t) : ∃ rest, ls = w ++ rest := by
  cases h with
  | toLast => exact ⟨[], (List.append_nil _).symm⟩
  | toEndOfFile => exact ⟨_, List.append_cons _ _ _⟩

/-- A resolution that is finished is the parse. -/
theorem parse_of_finished {n : Nesting} {tokens : List Token} {s : State}
    (h : resolve n [.construct .program] (State.ofTokens tokens).skipLineEnds = .finished s) :
    (State.ofTokens tokens).parse n = s := by
  rw [State.parse, find, h]

/-- A parse that finds nothing wrong has passed a program and nothing else. -/
theorem programIn_of_finished {n : Nesting} {tokens : List Token} {s : State}
    (h : resolve n [.construct .program] (State.ofTokens tokens).skipLineEnds = .finished s)
    (hs : s.errors = []) :
    ProgramIn n (lexemes tokens) (lexemes s.consumed) s.symbols := by
  have haccepts := (accepts_iff (.start tokens) (State.errors_skipLineEnds _) s.view).2
    ⟨s, h, hs, rfl⟩
  rw [view_start] at haccepts
  obtain ⟨w, rest, t, hprogram, hls, hview⟩ := accepts_program_iff.1 haccepts
  have hunread : s.unread = rest := congrArg View.unread hview
  have hsymbols : s.symbols = t := congrArg View.symbols hview
  -- the same is ahead, so the same has been passed
  have hpassed := lexemes_parse n tokens
  rw [parse_of_finished h, hunread, hls] at hpassed
  rw [List.append_cancel_right hpassed, hsymbols]
  exact hprogram

/-- A program is passed without an error, and what it declares is declared. -/
theorem finished_of_programIn {n : Nesting} {tokens : List Token} {w : List Lexeme}
    {t : SymbolTable} (h : ProgramIn n (lexemes tokens) w t) :
    ∃ s, resolve n [.construct .program] (State.ofTokens tokens).skipLineEnds = .finished s ∧
      s.errors = [] ∧ s.symbols = t ∧ lexemes s.consumed = w := by
  obtain ⟨rest, hls⟩ := h.at_start
  have haccepts := accepts_program_iff.2 ⟨w, rest, t, h, hls, rfl⟩
  rw [← view_start] at haccepts
  obtain ⟨s, hr, hs, hview⟩ :=
    (accepts_iff (.start tokens) (State.errors_skipLineEnds _) _).1 haccepts
  have hunread : s.unread = rest := congrArg View.unread hview
  have hpassed := lexemes_parse n tokens
  rw [parse_of_finished hr, hunread, hls] at hpassed
  exact ⟨s, hr, hs, congrArg View.symbols hview, List.append_cancel_right hpassed⟩

/-- A parse without errors is a resolution that is finished without one. -/
theorem errors_parse_eq_nil_iff (n : Nesting) (tokens : List Token) :
    (PocketPascal.parse n tokens).errors = [] ↔
      ∃ s, resolve n [.construct .program] (State.ofTokens tokens).skipLineEnds = .finished s ∧
        s.errors = [] := by
  have hparse : (PocketPascal.parse n tokens).errors =
      ((State.ofTokens tokens).parse n).errors := rfl
  rw [hparse, State.parse, find]
  cases resolve n [.construct .program] (State.ofTokens tokens).skipLineEnds with
  | finished s => simp
  | aborted reason line s => simp [State.note]

/-- The programs of the grammar are what a parse finds nothing wrong with, however the tokens are
laid out. Of a program it passes all lexemes, and it declares what the derivation declares. -/
theorem parse_accepts_language (n : Nesting) (tokens : List Token) :
    ((PocketPascal.parse n tokens).errors = [] ↔ ∃ w t, ProgramIn n (lexemes tokens) w t) ∧
      ∀ w t, ProgramIn n (lexemes tokens) w t →
        lexemes (PocketPascal.parse n tokens).tokens = w ∧
          (PocketPascal.parse n tokens).vars = t.vars ∧
          (PocketPascal.parse n tokens).procs = t.procs := by
  rw [errors_parse_eq_nil_iff]
  refine ⟨⟨?_, ?_⟩, ?_⟩
  · rintro ⟨s, hr, hs⟩
    exact ⟨_, _, programIn_of_finished hr hs⟩
  · rintro ⟨w, t, h⟩
    obtain ⟨s, hr, hs, -⟩ := finished_of_programIn h
    exact ⟨s, hr, hs⟩
  · intro w t h
    obtain ⟨s, hr, -, rfl, rfl⟩ := finished_of_programIn h
    rw [PocketPascal.parse, State.result, parse_of_finished hr]
    exact ⟨rfl, rfl, rfl⟩

end PocketPascal.Parser
