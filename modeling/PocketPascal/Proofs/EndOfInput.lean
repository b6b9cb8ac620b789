import PocketPascal.Proofs.Simulation

/-! # The end of the input

Behind the last token a parser reads an end of file as often as it likes. One more end of file at
the end of the tokens is therefore read as what would have been read there anyway: the two parses
take the same steps, and all that tells them apart is whether the token is still ahead, or was
passed, or never was there.
-/

namespace PocketPascal

/-- One end of file more at the end of what is ahead, or passed as the last item of all. -/
inductive Cursor.Ended : Cursor Token → Cursor Token → Prop where
  | ahead (passed ahead : List Token) : Ended ⟨passed, ahead⟩ ⟨passed, ahead ++ [.endOfFile]⟩
  | passed (passed : List Token) : Ended ⟨passed, []⟩ ⟨.endOfFile :: passed, []⟩

namespace Cursor.Ended

variable {c c' : Cursor Token}

/-- The end of file that is there is the one that is read where there is none. -/
theorem peek (h : Ended c c') : c'.peek?.getD .endOfFile = c.peek?.getD .endOfFile := by
  cases h with
  | ahead passed ahead => cases ahead <;> rfl
  | passed passed => rfl

theorem advance (h : Ended c c') : Ended c.advance c'.advance := by
  cases h with
  | ahead passed ahead =>
    cases ahead with
    | nil => exact .passed passed
    | cons t rest => exact .ahead (t :: passed) rest
  | passed passed => exact .passed passed

/-- The end of file is passed behind everything else. -/
theorem consumed (h : Ended c c') :
    c'.consumed = c.consumed ∨ c.ahead = [] ∧ c'.consumed = c.consumed ++ [.endOfFile] := by
  cases h with
  | ahead passed ahead => exact Or.inl rfl
  | passed passed => exact Or.inr ⟨rfl, List.reverse_cons⟩

end Cursor.Ended

namespace Parser

/-- Two states that differ in an end of file at the end of the tokens. -/
def State.Ended (s s' : State) : Prop :=
  ∃ c, s.cursor.Ended c ∧ s' = { s with cursor := c }

namespace State.Ended

variable {s s' : State}

theorem lookahead (h : s.Ended s') : s'.lookahead = s.lookahead := by
  obtain ⟨c, hc, rfl⟩ := h
  exact hc.peek

theorem sees (h : s.Ended s') (k : Kind) : s'.sees k = s.sees k := by
  rw [State.sees, State.sees, h.lookahead]

theorem advance (h : s.Ended s') :
    State.Ended { s with cursor := s.cursor.advance } { s' with cursor := s'.cursor.advance } := by
  obtain ⟨c, hc, rfl⟩ := h
  exact ⟨c.advance, hc.advance, rfl⟩

theorem crossLine (h : s.Ended s') : s.crossLine.Ended s'.crossLine := by
  have hl := h.advance.lookahead
  obtain ⟨c, hc, rfl⟩ := h
  refine ⟨c.advance, hc.advance, ?_⟩
  simp only [State.lookahead] at hl
  simp only [State.crossLine, State.note, State.lookahead, hl]

theorem skipLineEnds (h : s.Ended s') : s.skipLineEnds.Ended s'.skipLineEnds :=
  State.skipLineEnds_related (fun h => h.sees _) (fun _ h => h.crossLine) h

theorem consume (h : s.Ended s') : s.consume.2.Ended s'.consume.2 :=
  State.consume_related (fun h => h.sees _) (fun _ h => h.crossLine) (fun _ h => h.advance) h

theorem report (h : s.Ended s') (c : Category) (m : String) :
    (s.report c m).Ended (s'.report c m) := by
  have hl := h.lookahead
  obtain ⟨c', hc, rfl⟩ := h
  refine ⟨c', by rwa [State.cursor_report], ?_⟩
  simp only [State.report, hl]
  split <;> rfl

theorem claim (h : s.Ended s') (v : Variable) : (s.claim v).Ended (s'.claim v) := by
  obtain ⟨c, hc, rfl⟩ := h
  simp only [State.claim]
  split <;> exact ⟨c, hc, rfl⟩

theorem declare (h : s.Ended s') (symbols : SymbolTable) :
    State.Ended { s with symbols } { s' with symbols } := by
  obtain ⟨c, hc, rfl⟩ := h
  exact ⟨c, hc, rfl⟩

theorem registerVariable (h : s.Ended s') (name : String) :
    (s.registerVariable name).Ended (s'.registerVariable name) := by
  have hd := h.declare
  have hr := h.report
  obtain ⟨c, hc, rfl⟩ := h
  simp only [State.registerVariable]
  split
  · exact (hd _).claim _
  · exact hr _ _

theorem registerParameter (h : s.Ended s') (name : String) :
    (s.registerParameter name).Ended (s'.registerParameter name) := by
  have hd := h.declare
  obtain ⟨c, hc, rfl⟩ := h
  exact (hd _).claim _

theorem registerProcedure (h : s.Ended s') (name : String) :
    (s'.registerProcedure name).1 = (s.registerProcedure name).1 ∧
      (s.registerProcedure name).2.Ended (s'.registerProcedure name).2 := by
  have hr := h.report
  obtain ⟨c, hc, rfl⟩ := h
  simp only [State.registerProcedure]
  split
  · exact ⟨rfl, c, hc, rfl⟩
  · exact ⟨rfl, hr _ _⟩

theorem openScope (h : s.Ended s') (owner : String) (record : Option Nat) :
    (s.openScope owner record).Ended (s'.openScope owner record) := by
  obtain ⟨c, hc, rfl⟩ := h
  exact ⟨c, hc, rfl⟩

theorem closeScope (h : s.Ended s') : s.closeScope.Ended s'.closeScope := by
  obtain ⟨c, hc, rfl⟩ := h
  simp only [State.closeScope]
  split <;> exact ⟨c, hc, rfl⟩

theorem nameProcedure (h : s.Ended s') : (nameProcedure s).Ended (nameProcedure s') := by
  have hexpect : ∀ {x x' : State}, x.Ended x' →
      (x.expect .identifier).2.Ended (x'.expect .identifier).2 := fun hx =>
    State.expect_related consume report (congrArg Token.toLexeme hx.lookahead) hx _
  simp only [Parser.nameProcedure, h.sees, h.lookahead]
  split
  · obtain ⟨hrecord, hs⟩ := h.registerProcedure s.lookahead.text
    rw [hrecord]
    exact (hexpect hs).openScope _ _
  · exact (hexpect h).openScope _ _

end State.Ended

/-- Neither parse decides on whether an end of file is there. -/
theorem ended_simulation : Simulation State.Ended where
  lookahead h := congrArg Token.toLexeme h.lookahead
  taken h := congrArg Lexeme.text (congrArg Token.toLexeme h.skipLineEnds.lookahead)
  depth := by rintro s _ ⟨c, -, rfl⟩; rfl
  knowsVariable := by rintro s _ ⟨c, -, rfl⟩ name; rfl
  knowsProcedure := by rintro s _ ⟨c, -, rfl⟩ name; rfl
  consume h := h.consume
  report h := h.report
  registerVariable h := h.registerVariable
  registerParameter h := h.registerParameter
  nameProcedure h := h.nameProcedure
  closeScope h := h.closeScope
  enterBody := by rintro s _ ⟨c, hc, rfl⟩; exact ⟨c, hc, rfl⟩
  leaveBody := by rintro s _ ⟨c, hc, rfl⟩; exact ⟨c, hc, rfl⟩
  atDepth := by rintro s _ ⟨c, hc, rfl⟩ d; exact ⟨c, hc, rfl⟩

theorem State.Ended.parse {s s' : State} (h : s.Ended s') (n : Nesting) :
    (s.parse n).Ended (s'.parse n) := by
  rcases ended_simulation.parse h.skipLineEnds n with
    h₁ | ⟨reason, found, found', s₁, s₁', hs, hs', ⟨_, -, rfl⟩, -, -, c, hc, rfl⟩
  · exact h₁
  · rw [hs, hs']
    exact ⟨c, hc, rfl⟩

end Parser

/-- A missing end of file makes no difference: with one more at the end of the tokens a parse finds
the same, and the tokens it passes are the same up to that one, which comes last. -/
theorem parse_concat_endOfFile (n : Parser.Nesting) (tokens : List Token) :
    (parse n (tokens ++ [.endOfFile])).vars = (parse n tokens).vars ∧
      (parse n (tokens ++ [.endOfFile])).procs = (parse n tokens).procs ∧
      (parse n (tokens ++ [.endOfFile])).errors = (parse n tokens).errors ∧
      ((parse n (tokens ++ [.endOfFile])).tokens = (parse n tokens).tokens ∨
        (parse n tokens).tokens = tokens ∧
          (parse n (tokens ++ [.endOfFile])).tokens = tokens ++ [.endOfFile]) := by
  have hstart : (Parser.State.ofTokens tokens).Ended
      (Parser.State.ofTokens (tokens ++ [.endOfFile])) := ⟨_, .ahead [] tokens, rfl⟩
  have hlist := Parser.State.toList_parse (.ofTokens tokens) n
  obtain ⟨c, hc, hs⟩ := hstart.parse n
  rw [parse, parse, hs]
  refine ⟨rfl, rfl, rfl, ?_⟩
  rcases hc.consumed with hsame | ⟨hahead, hlonger⟩
  · exact Or.inl hsame
  · -- nothing is left ahead, so that everything was passed
    have hall : ((Parser.State.ofTokens tokens).parse n).consumed = tokens := by
      rw [Cursor.toList, hahead, List.append_nil] at hlist
      exact hlist
    refine Or.inr ⟨hall, ?_⟩
    exact hlonger.trans (congrArg (· ++ [Token.endOfFile]) hall)

end PocketPascal
