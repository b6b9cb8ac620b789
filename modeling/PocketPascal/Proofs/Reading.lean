import PocketPascal.Parser

/-! # What a parser reads

The ends of lines are passed over on both sides of every other token. So a parser never looks at one
when it decides, and the grammar only sees the lexemes that are left without them: `consume` takes
the first one of these off and changes nothing else that the grammar knows.
-/

namespace PocketPascal

/-- The lexemes of some tokens, the ends of lines left out. -/
def lexemes (tokens : List Token) : List Lexeme :=
  (tokens.filter fun t => t.kind != .endOfLine).map Token.toLexeme

@[simp] theorem lexemes_nil : lexemes [] = [] := rfl

theorem lexemes_eq_filter (ts : List Token) :
    lexemes ts = (ts.map Token.toLexeme).filter fun a => a.kind != .endOfLine := by
  rw [List.filter_map]
  rfl

theorem lexemes_cons_endOfLine {t : Token} (h : t.kind = .endOfLine) (ts : List Token) :
    lexemes (t :: ts) = lexemes ts := by
  simp [lexemes, h]

theorem lexemes_cons {t : Token} (h : t.kind ≠ .endOfLine) (ts : List Token) :
    lexemes (t :: ts) = t.toLexeme :: lexemes ts := by
  simp [lexemes, h]

theorem lexemes_append (ts us : List Token) : lexemes (ts ++ us) = lexemes ts ++ lexemes us := by
  simp [lexemes]

namespace Parser

/-- What the grammar knows of a state: the lexemes ahead, how deep it is in, and what is open and
declared. -/
structure View where
  unread : List Lexeme
  depth : Nat
  level : Int
  scope : Scope
  enclosing : List Scope
  symbols : SymbolTable

namespace State

/-- The lexemes ahead, ends of lines left out. -/
def unread (s : State) : List Lexeme :=
  lexemes s.cursor.ahead

/-- What the grammar knows of a state. -/
def view (s : State) : View :=
  { unread := s.unread
    depth := s.depth
    level := s.level
    scope := s.scope
    enclosing := s.enclosing
    symbols := s.symbols }

/-- The lookahead is no end of a line. -/
def Settled (s : State) : Prop :=
  s.lookahead.kind ≠ .endOfLine

/-! ## Passing ends of lines -/

theorem cursor_ahead_crossLine {s : State} {t : Token} {rest : List Token}
    (h : s.cursor.ahead = t :: rest) : s.crossLine.cursor.ahead = rest := by
  rw [cursor_crossLine, Cursor.advance, h]

theorem sees_of_ahead {s : State} {t : Token} {rest : List Token} {k : Kind}
    (h : s.cursor.ahead = t :: rest) : s.sees k = (t.kind == k) := by
  simp [sees, lookahead, Cursor.peek?, h]

/-- What crossing one end of a line keeps is kept when all of them are passed. -/
theorem skipLineEnds_keeps {P : State → Prop}
    (cross : ∀ s : State, s.sees .endOfLine → P s → P s.crossLine) {s : State} (h : P s) :
    P s.skipLineEnds := by
  suffices go : ∀ (ts : List Token) (s : State), s.cursor.ahead = ts → P s →
      P (crossLines ts s) from go _ s rfl h
  intro ts
  induction ts with
  | nil =>
    intro s _ h
    exact h
  | cons t rest ih =>
    intro s hs h
    rw [crossLines]
    split
    · next ht =>
      have hsees : s.sees .endOfLine = true := by simp [sees_of_ahead hs, ht]
      exact ih s.crossLine (cursor_ahead_crossLine hs) (cross s hsees h)
    · exact h

/-- After the ends of lines the lookahead is something else. -/
theorem settled_skipLineEnds (s : State) : s.skipLineEnds.Settled := by
  suffices go : ∀ (ts : List Token) (s : State), s.cursor.ahead = ts →
      (crossLines ts s).Settled from go _ s rfl
  intro ts
  induction ts with
  | nil =>
    intro s hs
    rw [crossLines, Settled, lookahead, Cursor.peek?, hs]
    decide
  | cons t rest ih =>
    intro s hs
    rw [crossLines]
    split
    · exact ih s.crossLine (cursor_ahead_crossLine hs)
    · next ht => simpa [Settled, lookahead, Cursor.peek?, hs] using ht

/-- Nothing is passed where the lookahead is no end of a line. -/
theorem skipLineEnds_eq_self {s : State} (h : s.Settled) : s.skipLineEnds = s := by
  unfold skipLineEnds
  cases hs : s.cursor.ahead with
  | nil => rw [crossLines]
  | cons t rest =>
    have ht : t.kind ≠ .endOfLine := by
      simpa [Settled, lookahead, Cursor.peek?, hs] using h
    rw [crossLines, if_neg ht]

theorem settled_iff (s : State) : s.Settled ↔ s.sees .endOfLine = false := by
  simp [Settled, sees]

/-- The ends of lines are passed one after the other. -/
theorem skipLineEnds_of_sees {s : State} (h : s.sees .endOfLine = true) :
    s.skipLineEnds = s.crossLine.skipLineEnds := by
  cases hs : s.cursor.ahead with
  | nil => simp [sees, lookahead, Cursor.peek?, hs, Token.endOfFile] at h
  | cons t rest =>
    have ht : t.kind = .endOfLine := by simpa [sees_of_ahead hs] using h
    rw [skipLineEnds, hs, crossLines, if_pos ht, skipLineEnds, cursor_ahead_crossLine hs]

/-- Two states that cross ends of lines alike pass all of them alike. -/
theorem skipLineEnds_related {R : State → State → Prop}
    (sees : ∀ {s s'}, R s s' → s'.sees .endOfLine = s.sees .endOfLine)
    (cross : ∀ {s s'}, s.sees .endOfLine → R s s' → R s.crossLine s'.crossLine) {s s' : State}
    (h : R s s') : R s.skipLineEnds s'.skipLineEnds := by
  have stay : ∀ {s s'}, R s s' → s.sees .endOfLine = false → R s.skipLineEnds s'.skipLineEnds := by
    intro s s' h hsees
    rw [skipLineEnds_eq_self ((settled_iff s).2 hsees),
      skipLineEnds_eq_self ((settled_iff s').2 ((sees h).trans hsees))]
    exact h
  suffices go : ∀ (ts : List Token) (s s' : State), s.cursor.ahead = ts → R s s' →
      R s.skipLineEnds s'.skipLineEnds from go _ s s' rfl h
  intro ts
  induction ts with
  | nil =>
    intro s s' hs h
    exact stay h (by simp [State.sees, lookahead, Cursor.peek?, hs, Token.endOfFile])
  | cons t rest ih =>
    intro s s' hs h
    cases hsees : s.sees .endOfLine with
    | false => exact stay h hsees
    | true =>
      rw [skipLineEnds_of_sees hsees, skipLineEnds_of_sees ((sees h).trans hsees)]
      exact ih _ _ (cursor_ahead_crossLine hs) (cross hsees h)

/-! ## Taking a token -/

/-- Two states that cross ends of lines alike, and move past other tokens alike, take a token
alike. -/
theorem consume_related {R : State → State → Prop}
    (sees : ∀ {s s'}, R s s' → s'.sees .endOfLine = s.sees .endOfLine)
    (cross : ∀ {s s'}, s.sees .endOfLine → R s s' → R s.crossLine s'.crossLine)
    (advance : ∀ {s s'}, s.Settled → R s s' →
      R { s with cursor := s.cursor.advance } { s' with cursor := s'.cursor.advance })
    {s s' : State} (h : R s s') : R s.consume.2 s'.consume.2 :=
  skipLineEnds_related sees cross
    (advance (settled_skipLineEnds s) (skipLineEnds_related sees cross h))

/-- What crossing the end of a line and moving past any other token keep, taking a token keeps. -/
theorem consume_keeps {P : State → Prop}
    (cross : ∀ s : State, s.sees .endOfLine → P s → P s.crossLine)
    (advance : ∀ s : State, s.Settled → P s → P { s with cursor := s.cursor.advance })
    {s : State} (h : P s) : P s.consume.2 :=
  skipLineEnds_keeps cross (advance _ (settled_skipLineEnds s) (skipLineEnds_keeps cross h))

theorem settled_consume (s : State) : s.consume.2.Settled :=
  settled_skipLineEnds _

theorem unread_crossLine {s : State} (h : s.sees .endOfLine) : s.crossLine.unread = s.unread := by
  unfold unread
  cases hs : s.cursor.ahead with
  | nil => simp [cursor_crossLine, Cursor.advance, hs]
  | cons t rest =>
    have ht : t.kind = .endOfLine := by simpa [sees_of_ahead hs] using h
    rw [cursor_ahead_crossLine hs, lexemes_cons_endOfLine ht]

theorem unread_advance {s : State} (h : s.Settled) :
    State.unread { s with cursor := s.cursor.advance } = s.unread.tail := by
  unfold unread
  cases hs : s.cursor.ahead with
  | nil => simp [Cursor.advance, hs]
  | cons t rest =>
    have ht : t.kind ≠ .endOfLine := by
      simpa [Settled, lookahead, Cursor.peek?, hs] using h
    simp [Cursor.advance, hs, lexemes_cons ht]

theorem view_crossLine {s : State} (h : s.sees .endOfLine) : s.crossLine.view = s.view := by
  rw [view, unread_crossLine h]
  rfl

theorem view_advance {s : State} (h : s.Settled) :
    State.view { s with cursor := s.cursor.advance } =
      { s.view with unread := s.unread.tail } := by
  rw [view, unread_advance h]
  rfl

/-- The grammar does not notice that ends of lines are passed. -/
@[simp] theorem view_skipLineEnds (s : State) : s.skipLineEnds.view = s.view :=
  skipLineEnds_keeps (P := fun x => x.view = s.view)
    (fun _ hx h => (view_crossLine hx).trans h) rfl

@[simp] theorem unread_skipLineEnds (s : State) : s.skipLineEnds.unread = s.unread :=
  congrArg View.unread (view_skipLineEnds s)

@[simp] theorem errors_skipLineEnds (s : State) : s.skipLineEnds.errors = s.errors :=
  skipLineEnds_keeps (P := fun x => x.errors = s.errors) (fun _ _ h => h) rfl

@[simp] theorem toList_skipLineEnds (s : State) :
    s.skipLineEnds.cursor.toList = s.cursor.toList := by
  refine skipLineEnds_keeps (P := fun x => x.cursor.toList = s.cursor.toList) ?_ rfl
  intro x _ h
  rw [cursor_crossLine, Cursor.toList_advance, h]

/-- Taking a token takes the first lexeme off what is ahead. -/
@[simp] theorem view_consume (s : State) :
    s.consume.2.view = { s.view with unread := s.unread.tail } := by
  rw [consume, view_skipLineEnds, view_advance (settled_skipLineEnds s), view_skipLineEnds,
    unread_skipLineEnds]

@[simp] theorem errors_consume (s : State) : s.consume.2.errors = s.errors := by
  rw [consume, errors_skipLineEnds, errors_skipLineEnds]

@[simp] theorem toList_consume (s : State) : s.consume.2.cursor.toList = s.cursor.toList := by
  rw [consume, toList_skipLineEnds, Cursor.toList_advance, toList_skipLineEnds]

/-! ## Looking ahead -/

/-- The lexeme that a decision is taken on: the first one ahead, or an end of file. -/
theorem lookahead_eq_head {s : State} (h : s.Settled) :
    s.lookahead.toLexeme = s.unread.head?.getD Token.endOfFile.toLexeme := by
  unfold unread
  cases hs : s.cursor.ahead with
  | nil => simp [lookahead, Cursor.peek?, hs]
  | cons t rest =>
    have ht : t.kind ≠ .endOfLine := by
      simpa [Settled, lookahead, Cursor.peek?, hs] using h
    simp [lookahead, Cursor.peek?, hs, lexemes_cons ht]

/-! ## Reporting and declaring -/

@[simp] theorem view_report (s : State) (c : Category) (m : String) :
    (s.report c m).view = s.view := by
  unfold report
  split <;> rfl

theorem view_openScope (s : State) (owner : String) (record : Option Nat) :
    (s.openScope owner record).view =
      { s.view with
        scope := { owner, record, start := s.view.symbols.vars.length }
        enclosing := s.view.scope :: s.view.enclosing } :=
  rfl

theorem view_closeScope (s : State) :
    s.closeScope.view =
      match s.view.enclosing with
      | [] => s.view
      | outer :: rest => { s.view with scope := outer, enclosing := rest } := by
  unfold closeScope
  cases hs : s.enclosing with
  | nil => simp [view, hs]
  | cons outer rest => simp [view, hs, unread]

@[simp] theorem cursor_report (s : State) (c : Category) (m : String) :
    (s.report c m).cursor = s.cursor := by
  unfold report
  split <;> rfl

@[simp] theorem line_report (s : State) (c : Category) (m : String) :
    (s.report c m).line = s.line := by
  unfold report
  split <;> rfl

@[simp] theorem lookahead_report (s : State) (c : Category) (m : String) :
    (s.report c m).lookahead = s.lookahead := by
  unfold report
  split <;> rfl

end State

end Parser

end PocketPascal
