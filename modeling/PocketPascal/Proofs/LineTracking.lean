import PocketPascal.Proofs.Simulation
import PocketPascal.Proofs.SourceLines

/-! # The line a parse is on

A parse starts on line 1 and is told a line only where it crosses the end of one. What is known of
the line follows the tokens ahead, whatever the grammar does: over the tokens of a source the line
is the one of the lookahead, apart from a first line that blank lines precede, and over tokens
without lines it counts the ends of lines. Either way every crossing leads to a later line.
-/

namespace PocketPascal.Parser

/-- The token that `tokens` begin with, or an end of file if there is none. -/
def front (tokens : List Token) : Token :=
  tokens.head?.getD .endOfFile

theorem State.lookahead_eq_front (s : State) : s.lookahead = front s.cursor.ahead := rfl

/-- A property of the tokens ahead and the current line that is kept where tokens are passed. -/
structure Tracks (C : List Token → Int → Prop) : Prop where
  cross : ∀ {t rest line}, t.kind = .endOfLine → C (t :: rest) line →
    C rest (State.nextLine line (front rest))
  pass : ∀ {t rest line}, t.kind ≠ .endOfLine → C (t :: rest) line → C rest line

/-- A property that is kept where tokens are passed, and under which the line grows wherever it
changes. -/
structure Climbs (C : List Token → Int → Prop) : Prop extends Tracks C where
  climb : ∀ {t rest line}, t.kind = .endOfLine → C (t :: rest) line →
    line < State.nextLine line (front rest)

namespace Tracks

variable {C : List Token → Int → Prop}

/-- The end of a line that is seen stands at the head of the tokens ahead. -/
theorem ahead_of_sees_endOfLine {s : State} (h : s.sees .endOfLine) :
    ∃ t rest, s.cursor.ahead = t :: rest ∧ t.kind = .endOfLine := by
  cases hs : s.cursor.ahead with
  | nil =>
    rw [State.sees, State.lookahead, Cursor.peek?, hs] at h
    exact absurd h (by decide)
  | cons t rest => exact ⟨t, rest, rfl, by simpa [State.sees_of_ahead hs] using h⟩

theorem line_crossLine {s : State} {t : Token} {rest : List Token}
    (h : s.cursor.ahead = t :: rest) :
    s.crossLine.line = State.nextLine s.line (front rest) := by
  have hahead := State.cursor_ahead_crossLine h
  rw [← hahead]
  rfl

theorem crossLine (track : Tracks C) {s : State} (hs : s.sees .endOfLine)
    (h : C s.cursor.ahead s.line) : C s.crossLine.cursor.ahead s.crossLine.line := by
  obtain ⟨t, rest, ht, hkind⟩ := ahead_of_sees_endOfLine hs
  rw [State.cursor_ahead_crossLine ht, line_crossLine ht]
  exact track.cross hkind (ht ▸ h)

theorem advance (track : Tracks C) {s : State} (hs : s.Settled) (h : C s.cursor.ahead s.line) :
    C s.cursor.advance.ahead s.line := by
  cases ht : s.cursor.ahead with
  | nil =>
    rw [Cursor.advance, ht]
    exact h
  | cons t rest =>
    have hkind : t.kind ≠ .endOfLine := by
      simpa [State.Settled, State.lookahead, Cursor.peek?, ht] using hs
    rw [Cursor.advance, ht]
    exact track.pass hkind (ht ▸ h)

theorem skipLineEnds (track : Tracks C) {s : State} (h : C s.cursor.ahead s.line) :
    C s.skipLineEnds.cursor.ahead s.skipLineEnds.line :=
  State.skipLineEnds_keeps (P := fun x => C x.cursor.ahead x.line)
    (fun _ hx => track.crossLine hx) h

end Tracks

/-! ## Tokens without lines -/

/-- Tokens that come without lines are counted. -/
theorem climbs_of_no_lines : Climbs fun tokens _ => ∀ t ∈ tokens, t.line = 0 where
  cross _ h t ht := h t (List.mem_cons_of_mem _ ht)
  pass _ h t ht := h t (List.mem_cons_of_mem _ ht)
  climb := by
    intro t rest line _ h
    have hfront : (front rest).line = 0 := by
      cases rest with
      | nil => rfl
      | cons u us => exact h u (by simp)
    rw [State.nextLine, if_pos hfront]
    omega

/-! ## Tokens of a source -/

/-- The number under which a parse knows source line `n`: the first line that is not blank passes
for line 1. -/
def takenFor (first n : Int) : Int :=
  if n = first then min n 1 else n

/-- The line that a parse is on when it looks at a token; the end of the file is taken to stand on
the line after the last one. -/
def lineAt (first last : Int) (t : Token) : Int :=
  if t.kind = .endOfFile then takenFor first last + 1 else takenFor first t.line

/-- The tokens ahead in a source, and the line of the first one of them. -/
structure Located (first last : Int) (tokens : List Token) (line : Int) : Prop where
  line_eq : line = lineAt first last (front tokens)
  chain : tokens.IsChain (Lexer.Next last)
  bound : ∀ t ∈ tokens, t = .endOfFile ∨ (t.kind ≠ .endOfFile ∧ 1 ≤ first ∧ first ≤ t.line)
  ends : tokens = [] ∨ tokens.getLast? = some .endOfFile

namespace Located

variable {first last line : Int} {t : Token} {rest : List Token}

theorem takenFor_le {n : Int} : takenFor first n ≤ n := by
  unfold takenFor
  split <;> omega

theorem takenFor_of_lt {n : Int} (h : first < n) : takenFor first n = n := by
  rw [takenFor, if_neg (by omega)]

/-- After the end of a line comes the end of the file if that line was the last one, or else a token
on a later line. -/
theorem front_after_endOfLine (ht : t.kind = .endOfLine) (h : Located first last (t :: rest) line) :
    (front rest = .endOfFile ∧ t.line = last) ∨
      ((front rest).kind ≠ .endOfFile ∧ t.line < (front rest).line) := by
  cases rest with
  | nil =>
    rcases h.ends with he | he
    · exact absurd he (by simp)
    · obtain rfl : t = .endOfFile := by simpa using he
      exact absurd ht (by decide)
  | cons u us =>
    have hnext := (List.isChain_cons_cons.1 h.chain).1
    cases hnext with
    | onLine ha => exact absurd ht ha
    | onLaterLine _ hu hline => exact Or.inr ⟨hu, hline⟩
    | atEnd _ hline => exact Or.inl ⟨rfl, hline⟩

theorem tail (h : Located first last (t :: rest) line) {line' : Int}
    (hl : line' = lineAt first last (front rest)) : Located first last rest line' where
  line_eq := hl
  chain := by
    cases rest with
    | nil => exact .nil
    | cons u us => exact (List.isChain_cons_cons.1 h.chain).2
  bound u hu := h.bound u (List.mem_cons_of_mem _ hu)
  ends := by
    cases rest with
    | nil => exact Or.inl rfl
    | cons u us =>
      right
      rcases h.ends with he | he
      · exact absurd he (by simp)
      · rwa [List.getLast?_cons_cons] at he

/-- An end of a line stands on a line of the source. -/
theorem bound_endOfLine (ht : t.kind = .endOfLine) (h : Located first last (t :: rest) line) :
    1 ≤ first ∧ first ≤ t.line ∧ line = takenFor first t.line := by
  rcases h.bound t List.mem_cons_self with rfl | ⟨hkind, hfirst, hline⟩
  · exact absurd ht (by decide)
  · refine ⟨hfirst, hline, ?_⟩
    rw [h.line_eq, lineAt, front, List.head?_cons, Option.getD_some, if_neg hkind]

/-- Crossing the end of a line leads to the line of the next token. -/
theorem nextLine_eq (ht : t.kind = .endOfLine) (h : Located first last (t :: rest) line) :
    State.nextLine line (front rest) = lineAt first last (front rest) := by
  obtain ⟨hfirst, hle, hline⟩ := h.bound_endOfLine ht
  rcases h.front_after_endOfLine ht with ⟨hend, hlast⟩ | ⟨hkind, hlt⟩
  · rw [hend, hline, hlast]
    rfl
  · rw [State.nextLine, if_neg (by omega), lineAt, if_neg hkind, takenFor_of_lt (by omega)]

theorem climb (ht : t.kind = .endOfLine) (h : Located first last (t :: rest) line) :
    line < State.nextLine line (front rest) := by
  obtain ⟨hfirst, hle, hline⟩ := h.bound_endOfLine ht
  have htaken : takenFor first t.line ≤ t.line := takenFor_le
  rcases h.front_after_endOfLine ht with ⟨hend, hlast⟩ | ⟨hkind, hlt⟩
  · rw [hend]
    exact Int.lt_succ line
  · rw [State.nextLine, if_neg (by omega)]
    omega

/-- A token that ends no line is followed by one on the same line, and the end of the file by
nothing. -/
theorem line_pass (ht : t.kind ≠ .endOfLine) (h : Located first last (t :: rest) line) :
    line = lineAt first last (front rest) := by
  have hline : line = lineAt first last t := h.line_eq
  rcases h.bound t List.mem_cons_self with rfl | ⟨hkind, hfirst, hle⟩
  · cases rest with
    | nil => exact hline
    | cons u us =>
      -- nothing that may follow is on line 0
      have hu := h.bound u (by simp)
      cases (List.isChain_cons_cons.1 h.chain).1 with
      | onLine _ hfile hzero =>
        rcases hu with rfl | ⟨-, hone, hfu⟩
        · exact absurd rfl hfile
        · have : u.line = 0 := hzero
          omega
      | onLaterLine ha => exact absurd ha (by decide)
      | atEnd ha => exact absurd ha (by decide)
  · cases rest with
    | nil =>
      rcases h.ends with he | he
      · exact absurd he (by simp)
      · obtain rfl : t = .endOfFile := by simpa using he
        exact absurd rfl hkind
    | cons u us =>
      cases (List.isChain_cons_cons.1 h.chain).1 with
      | onLine _ hfile hsame =>
        rw [hline, lineAt, lineAt, if_neg hkind, front, List.head?_cons, Option.getD_some,
          if_neg hfile, hsame]
      | onLaterLine ha => exact absurd ha ht
      | atEnd ha => exact absurd ha ht

end Located

/-- Over the tokens of a source the line is the one of the lookahead, and it grows. -/
theorem climbs_located (first last : Int) : Climbs (Located first last) where
  cross ht h := h.tail (h.nextLine_eq ht)
  pass ht h := h.tail (h.line_pass ht)
  climb ht h := h.climb ht

/-- A parse of a source starts on the line of its first token. -/
theorem located_start {first last : Int} {tokens : List Token}
    (h : Lexer.Numbered first last tokens) : Located first last tokens 1 where
  line_eq := by
    rcases h.head with ⟨ht, hfirst, hlast⟩ | ⟨t, rest, ht, hkind, hline⟩
    · rw [ht, hfirst, hlast]
      decide
    · rcases h.bound t (ht ▸ List.mem_cons_self) with rfl | ⟨-, hone, -⟩
      · exact absurd rfl hkind
      · rw [ht, lineAt, front, List.head?_cons, Option.getD_some, if_neg hkind, takenFor,
          if_pos hline]
        omega
  chain := h.chain
  bound := h.bound
  ends := Or.inr h.ends

end PocketPascal.Parser
