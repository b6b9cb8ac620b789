import Mathlib.Tactic.Common
import PocketPascal.Proofs.MaximalMunch
import PocketPascal.Proofs.SourceLines

/-! # Token streams that are read on demand

A stream is a reading of a source or of a text that waits until its next token is asked for. Then it
goes on at the read head of its lexer, which it shares with whatever else that lexer does, and keeps
the errors it meets on its way to the token. It does not know what it will come to. But as long as
nothing else happens to the lexer, it plays the events of its source or text one by one, so that
what it yields on demand is a beginning of all there is to yield.
-/

namespace PocketPascal.Lexer

/-! ## Streams -/

/-- Where a reading has been suspended. -/
inductive Stream where
  /-- The source has not been touched. -/
  | source
  /-- The next line has the number, and these lines are left. -/
  | lines (number : Nat) (left : List (List Char))
  /-- The line with the number is under the read head, and these lines are behind it. -/
  | within (number : Nat) (left : List (List Char))
  /-- The text has not been touched. -/
  | text (cs : List Char)
  /-- The text is under the read head. -/
  | along
  /-- All has been read. -/
  | ended
  deriving DecidableEq

variable {x y : Lexer} {e : Event} {es tail rest : List Event} {t? : Option Token} {t : Token}

/-! ## Reading on -/

/-- What is under the read head when lexemes are looked for on the current line. -/
def headEvent (x : Lexer) (c : Char) (cs : List Char) : Event :=
  .piece x.line (pieceAt x.limit c cs)

/-- The lexeme or the rejected text under the read head is one piece. -/
theorem next_of_ahead {c : Char} {cs : List Char} (hahead : x.cursor.ahead = c :: cs)
    (hc : c ≠ ' ') :
    x.next.2 = x.move (x.headEvent c cs) ∧
      ((∃ t, x.next.1 = .ok t ∧ (x.headEvent c cs).token? = some t ∧
          (x.headEvent c cs).error? = none) ∨
        ∃ d, x.next.1 = .error (.rejected d) ∧ (x.headEvent c cs).token? = none ∧
          (x.headEvent c cs).error? = some d) := by
  obtain ⟨after, hafter, hstands⟩ := stands_pieceAt x.limit c cs
  have hpiece : pieceAt x.limit c cs = lexemeAt x.limit c cs := if_neg hc
  have hcurrent : x.cursor.current = .ok c := by rw [Cursor.current, hahead]
  rw [headEvent, next, hcurrent, hahead, List.tail_cons]
  dsimp only
  rw [← hpiece]
  cases hp : pieceAt x.limit c cs with | mk text reading =>
  rw [hp] at hafter hstands
  cases reading with
  | space =>
    obtain rfl : text = [' '] := hstands
    exact absurd (List.cons.inj hafter).1 hc
  | lexeme kind => exact ⟨rfl, Or.inl ⟨_, rfl, rfl, rfl⟩⟩
  | rejected fault => exact ⟨rfl, Or.inr ⟨_, rfl, rfl, rfl⟩⟩

theorem length_text_pieceAt_pos (limit : Int) (c : Char) (cs : List Char) :
    0 < (pieceAt limit c cs).text.length := by
  obtain ⟨_, -, hstands⟩ := stands_pieceAt limit c cs
  exact List.length_pos_iff.2 hstands.ne_nil

/-- Behind the first piece come the other ones. -/
theorem pieces_of_ahead {c : Char} {cs : List Char} (hahead : x.cursor.ahead = c :: cs) :
    pieces x.limit x.cursor.ahead =
      pieceAt x.limit c cs :: pieces x.limit (x.move (x.headEvent c cs)).cursor.ahead := by
  have hpos := length_text_pieceAt_pos x.limit c cs
  have hdrop : (x.move (x.headEvent c cs)).cursor.ahead =
      cs.drop ((pieceAt x.limit c cs).text.length - 1) := by
    rw [headEvent, move, Cursor.skip, hahead, ← Nat.succ_pred_eq_of_pos hpos]
    rfl
  rw [hdrop, hahead, pieces]

theorem length_ahead_move_lt {c : Char} {cs : List Char} (hahead : x.cursor.ahead = c :: cs) :
    (x.move (x.headEvent c cs)).cursor.ahead.length < x.cursor.ahead.length := by
  have hpos := length_text_pieceAt_pos x.limit c cs
  rw [headEvent, move, Cursor.skip, hahead, List.length_drop, List.length_cons]
  omega

/-- Reads on until a token is found or the text under the read head ends. Spaces are passed, and
what is rejected is kept as an error. -/
def readOn (x : Lexer) : Option Token × Lexer :=
  match _hahead : x.cursor.ahead with
  | [] => (none, x)
  | c :: _ =>
    if _hc : c = ' ' then readOn { x with cursor := x.cursor.advance }
    else
      match _hnext : x.next with
      | (.ok t, y) => (some t, y)
      | (.error (.rejected d), y) => readOn { y with errors := y.errors ++ [d] }
      | (.error (.pastEnd _), y) => (none, y)
termination_by x.cursor.ahead.length
decreasing_by
  · simp [Cursor.advance, _hahead]
  · have hmove := (next_of_ahead _hahead _hc).1
    rw [_hnext] at hmove
    obtain rfl : y = _ := hmove
    exact length_ahead_move_lt _hahead

/-! ## Events one by one -/

/-- The lexer after one event. -/
def after (x : Lexer) (e : Event) : Lexer :=
  { x.move e with errors := x.errors ++ e.error?.toList }

/-- Two lexers read the same source under the same limit. -/
structure SameTask (x y : Lexer) : Prop where
  source_eq : y.source = x.source
  limit_eq : y.limit = x.limit

theorem SameTask.refl (x : Lexer) : x.SameTask x :=
  ⟨rfl, rfl⟩

theorem SameTask.trans {z : Lexer} (h : x.SameTask y) (h' : y.SameTask z) : x.SameTask z :=
  ⟨h'.source_eq.trans h.source_eq, h'.limit_eq.trans h.limit_eq⟩

theorem sameTask_after (x : Lexer) (e : Event) : x.SameTask (x.after e) := by
  cases e <;> exact ⟨rfl, rfl⟩

theorem errors_move (x : Lexer) (e : Event) : (x.move e).errors = x.errors := by
  cases e <;> rfl

theorem after_of_error?_eq_none (h : e.error? = none) : x.after e = x.move e := by
  rw [after, h, Option.toList_none, List.append_nil, ← errors_move x e]

/-- Errors are kept apart from everything else. -/
theorem foldl_move_errors (es : List Event) (x : Lexer) (ds : List Diagnostic) :
    es.foldl move { x with errors := ds } = { es.foldl move x with errors := ds } := by
  induction es generalizing x with
  | nil => rfl
  | cons e es ih =>
    have he : move { x with errors := ds } e = { x.move e with errors := ds } := by
      cases e <;> rfl
    rw [List.foldl_cons, List.foldl_cons, he, ih]

theorem play_append (x : Lexer) (es rest : List Event) :
    x.play (es ++ rest) =
      ((x.play es).1 ++ ((x.play es).2.play rest).1, ((x.play es).2.play rest).2) := by
  simp only [play, List.filterMap_append, List.foldl_append, foldl_move_errors, List.append_assoc]

theorem play_singleton (x : Lexer) (e : Event) : x.play [e] = (e.token?.toList, x.after e) := by
  have hsingle {β : Type} (f : Event → Option β) : [e].filterMap f = (f e).toList := by
    cases hf : f e <;> simp [hf]
  rw [play, after, hsingle, hsingle]
  rfl

/-- Events are played up to the first one that yields a token, or to their end, and some are left. -/
inductive Yields : Lexer → List Event → Option Token → Lexer → List Event → Prop where
  | ended {x : Lexer} : Yields x [] none x []
  | token {x : Lexer} {e : Event} {t : Token} {es : List Event} (h : e.token? = some t) :
      Yields x (e :: es) (some t) (x.after e) es
  | pass {x y : Lexer} {e : Event} {t? : Option Token} {es rest : List Event}
      (h : e.token? = none) (hrest : Yields (x.after e) es t? y rest) :
      Yields x (e :: es) t? y rest

/-- A demand begins with the events up to the first token. -/
theorem Yields.exists_played (h : Yields x es t? y rest) :
    ∃ played, es = played ++ rest ∧ x.play played = (t?.toList, y) ∧
      ∀ n, Event.demand (n + 1) es = played ++ Event.demand n rest := by
  induction h with
  | ended => exact ⟨[], rfl, by simp [play], fun n => by cases n <;> rfl⟩
  | @token x e t es ht =>
    refine ⟨[e], rfl, by rw [play_singleton, ht], fun n => ?_⟩
    rw [Event.demand, ht]
    rfl
  | @pass x y e t? es rest ht _ ih =>
    obtain ⟨played, rfl, hplay, hdemand⟩ := ih
    refine ⟨e :: played, rfl, ?_, fun n => ?_⟩
    · rw [← List.singleton_append, play_append, play_singleton, ht, hplay]
      rfl
    · rw [Event.demand, ht, List.cons_append, ← hdemand n]
      rfl

/-- Lines are counted anew from the first one on. -/
theorem Yields.of_line {k n : Nat} (h : Yields { x with line := k } (.line n :: es) t? y rest) :
    Yields x (.line n :: es) t? y rest := by
  cases h with
  | token ht => cases ht
  | pass ht hrest => exact .pass ht hrest

/-! ## Reading on plays the events of a text -/

/-- Reading on, piece by piece. -/
inductive ReadsOn : Lexer → Option Token → Lexer → Prop where
  | ended {x : Lexer} (hahead : x.cursor.ahead = []) : ReadsOn x none x
  | token {x : Lexer} {c : Char} {cs : List Char} {t : Token} (hahead : x.cursor.ahead = c :: cs)
      (ht : (x.headEvent c cs).token? = some t) : ReadsOn x (some t) (x.after (x.headEvent c cs))
  | pass {x y : Lexer} {c : Char} {cs : List Char} {t? : Option Token}
      (hahead : x.cursor.ahead = c :: cs) (ht : (x.headEvent c cs).token? = none)
      (h : ReadsOn (x.after (x.headEvent c cs)) t? y) : ReadsOn x t? y

theorem readsOn_readOn (x : Lexer) : ReadsOn x x.readOn.1 x.readOn.2 := by
  fun_induction readOn x with
  | case1 x hahead => exact .ended hahead
  | case2 x cs hahead ih =>
    have hspace : x.headEvent ' ' cs = .piece x.line ⟨[' '], .space⟩ := rfl
    have hafter : x.after (x.headEvent ' ' cs) = { x with cursor := x.cursor.advance } := by
      rw [after_of_error?_eq_none (by rw [hspace]; rfl), hspace, move, Cursor.advance, hahead,
        Cursor.skip, hahead]
      rfl
    exact .pass hahead rfl (hafter ▸ ih)
  | case3 x c cs hahead hc t y hnext =>
    obtain ⟨hmove, ⟨u, hu, htoken, herror⟩ | ⟨d, hd, -⟩⟩ := next_of_ahead hahead hc
    · rw [hnext] at hmove hu
      cases hu
      obtain rfl : y = _ := hmove
      exact after_of_error?_eq_none herror ▸ .token hahead htoken
    · rw [hnext] at hd
      cases hd
  | case4 x c cs hahead hc d y hnext ih =>
    obtain ⟨hmove, ⟨u, hu, -⟩ | ⟨d', hd, htoken, herror⟩⟩ := next_of_ahead hahead hc
    · rw [hnext] at hu
      cases hu
    · rw [hnext] at hmove hd
      cases hd
      obtain rfl : y = _ := hmove
      have hafter : x.after (x.headEvent c cs) = { x.move (x.headEvent c cs) with
          errors := (x.move (x.headEvent c cs)).errors ++ [d] } := by
        rw [after, herror, errors_move]
        rfl
      exact .pass hahead htoken (hafter ▸ ih)
  | case5 x c cs hahead hc error y hnext =>
    obtain ⟨-, ⟨u, hu, -⟩ | ⟨d, hd, -⟩⟩ := next_of_ahead hahead hc
    · rw [hnext] at hu
      cases hu
    · rw [hnext] at hd
      cases hd

/-- The events that are left of the text under the read head. -/
def textLeft (x : Lexer) : List Event :=
  (pieces x.limit x.cursor.ahead).map (.piece x.line)

theorem textLeft_of_ahead {c : Char} {cs : List Char} (hahead : x.cursor.ahead = c :: cs) :
    x.textLeft = x.headEvent c cs :: (x.after (x.headEvent c cs)).textLeft := by
  rw [textLeft, pieces_of_ahead hahead, List.map_cons]
  rfl

namespace ReadsOn

/-- A token that is found reading on is that of the first event that yields one. -/
theorem yields_some (h : ReadsOn x (some t) y) (tail : List Event) :
    Yields x (x.textLeft ++ tail) (some t) y (y.textLeft ++ tail) := by
  generalize ht? : some t = t? at h
  induction h with
  | ended => cases ht?
  | token hahead ht =>
    cases ht?
    rw [textLeft_of_ahead hahead]
    exact .token ht
  | pass hahead ht _ ih =>
    rw [textLeft_of_ahead hahead]
    exact .pass ht (ih ht?)

/-- Where reading on finds no token, what comes behind the text yields the next one. -/
theorem yields_none {z : Lexer} (h : ReadsOn x none y) (hy : Yields y tail t? z rest) :
    Yields x (x.textLeft ++ tail) t? z rest := by
  generalize hnone : (none : Option Token) = u? at h
  induction h with
  | ended hahead =>
    rw [textLeft, hahead, pieces]
    exact hy
  | token => cases hnone
  | pass hahead ht _ ih =>
    rw [textLeft_of_ahead hahead]
    exact .pass ht (ih hy hnone)

theorem line_eq (h : ReadsOn x t? y) : y.line = x.line := by
  induction h with
  | ended | token => rfl
  | pass _ _ _ ih => exact ih

theorem sameTask (h : ReadsOn x t? y) : x.SameTask y := by
  induction h with
  | ended => exact .refl _
  | token => exact sameTask_after _ _
  | pass _ _ _ ih => exact (sameTask_after _ _).trans ih

theorem token_eq (h : ReadsOn x (some t) y) : t.line = x.line ∧ t.kind ≠ .endOfFile := by
  generalize ht? : some t = t? at h
  induction h with
  | ended => cases ht?
  | @token x c cs t' hahead ht =>
    cases ht?
    cases hp : pieceAt x.limit c cs with | mk text reading =>
    rw [headEvent, hp] at ht
    cases reading with
    | lexeme kind =>
      obtain rfl : _ = t := Option.some.inj ht
      have hkind : kind.isSentinel = false := pieceAt_not_isSentinel (congrArg Piece.reading hp)
      refine ⟨rfl, ?_⟩
      rintro (rfl : kind = .endOfFile)
      exact absurd hkind (by decide)
    | space | rejected fault => cases ht
  | pass _ _ _ ih => exact ih ht?

end ReadsOn

/-! ## Resuming a stream -/

/-- The next token of the text under the read head, where the stream stays, or else what comes at its
end and where the stream goes then. -/
def readThen (x : Lexer) (here : Stream) (last? : Option Token) (there : Stream) :
    Option Token × Stream × Lexer :=
  match x.readOn with
  | (some t, y) => (some t, here, y)
  | (none, y) => (last?, there, y)

/-- The next token of the line with the number: a lexeme, or the end of the line. -/
def readLine (x : Lexer) (number : Nat) (left : List (List Char)) : Option Token × Stream × Lexer :=
  x.readThen (.within number left) (some (.endOfLine number)) (.lines (number + 1) left)

/-- The next token of lines, the first one having the number: that of the first line that is not
blank, or the end of the file. -/
def reachLine (x : Lexer) (number : Nat) : List (List Char) → Option Token × Stream × Lexer
  | [] => (some .endOfFile, .ended, x)
  | line :: left =>
    let cs := lineText line
    if cs.isEmpty then reachLine { x with line := number } (number + 1) left
    else readLine { x with line := number, cursor := .ofList cs } number left

/-- The next token of a text that is not a line. -/
def readText (x : Lexer) : Option Token × Stream × Lexer :=
  x.readThen .along none .ended

/-- The next token of a stream, if there is one, and where the stream and the lexer are left. -/
def resume (x : Lexer) : Stream → Option Token × Stream × Lexer
  | .source => reachLine { x with line := 0 } 1 (Text.sourceLines x.source.toList)
  | .lines number left => x.reachLine number left
  | .within number left => x.readLine number left
  | .text cs => readText { x with cursor := .ofList cs }
  | .along => x.readText
  | .ended => (none, .ended, x)

theorem sameTask_readThen (x : Lexer) (here : Stream) (last? : Option Token) (there : Stream) :
    x.SameTask (x.readThen here last? there).2.2 := by
  have hreads := readsOn_readOn x
  rw [readThen]
  cases hr : x.readOn with | mk t? y =>
  rw [hr] at hreads
  cases t? <;> exact hreads.sameTask

theorem sameTask_reachLine (x : Lexer) (number : Nat) (left : List (List Char)) :
    x.SameTask (x.reachLine number left).2.2 := by
  induction left generalizing x number with
  | nil => exact .refl x
  | cons line left ih =>
    rw [reachLine]
    split
    · have h := ih { x with line := number } (number + 1)
      exact ⟨h.source_eq, h.limit_eq⟩
    · have h := sameTask_readThen { x with line := number, cursor := .ofList (lineText line) }
        (.within number left) (some (.endOfLine number)) (.lines (number + 1) left)
      exact ⟨h.source_eq, h.limit_eq⟩

/-- Whatever a stream is resumed on goes on reading the same source. -/
theorem sameTask_resume (x : Lexer) (g : Stream) : x.SameTask (x.resume g).2.2 := by
  cases g with
  | source =>
    have h := sameTask_reachLine { x with line := 0 } 1 (Text.sourceLines x.source.toList)
    exact ⟨h.source_eq, h.limit_eq⟩
  | lines number left => exact sameTask_reachLine x number left
  | within => exact sameTask_readThen x _ _ _
  | text cs =>
    have h := sameTask_readThen { x with cursor := .ofList cs } .along none .ended
    exact ⟨h.source_eq, h.limit_eq⟩
  | along => exact sameTask_readThen x _ _ _
  | ended => exact .refl x

/-- Asks a stream for some tokens, as long as there are any. -/
def pull : Nat → Stream → Lexer → List Token × Stream × Lexer
  | 0, g, x => ([], g, x)
  | n + 1, g, x =>
    match x.resume g with
    | (none, g', y) => ([], g', y)
    | (some t, g', y) =>
      let (ts, g'', z) := pull n g' y
      (t :: ts, g'', z)

/-! ## Streams play events -/

/-- The events of lines, the first one having the number, and of the end of the file. -/
def linesEvents (limit : Int) (number : Nat) (left : List (List Char)) : List Event :=
  (left.zipIdx number).flatMap (fun (line, number) => lineEvents limit number line) ++
    [.sentinel .endOfFile]

/-- The events that are left to a stream. -/
def eventsLeft (x : Lexer) : Stream → List Event
  | .source => sourceEvents x.limit x.source
  | .lines number left => linesEvents x.limit number left
  | .within number left =>
    x.textLeft ++ .sentinel (.endOfLine number) :: linesEvents x.limit (number + 1) left
  | .text cs => textEvents x.limit x.line cs
  | .along => x.textLeft
  | .ended => []

/-- A lexer is where a stream has left it, in a source of so many lines or on that line. -/
def Stream.Fits (total : Nat) (x : Lexer) : Stream → Prop
  | .source => (Text.sourceLines x.source.toList).length = total
  | .lines number left => x.line + 1 = number ∧ x.line + left.length = total
  | .within number left => x.line = number ∧ x.line + left.length = total
  | .text _ | .along | .ended => x.line = total

/-- What resuming a stream comes to, whose events are these: they are played up to the next token,
and the lexer is left where the token stands. -/
structure Resumed (total : Nat) (x : Lexer) (es : List Event)
    (r : Option Token × Stream × Lexer) : Prop where
  yields : Yields x es r.1 r.2.2 (r.2.2.eventsLeft r.2.1)
  fits : r.2.1.Fits total r.2.2
  token : ∀ t ∈ r.1, r.2.1 = .ended ∨ t.kind ≠ .endOfFile ∧ t.line = r.2.2.line
  ended : r.1 = none → r.2.1 = .ended

/-- Passing an event that yields no token does not matter. -/
theorem Resumed.pass {total : Nat} {r : Option Token × Stream × Lexer} (ht : e.token? = none)
    (h : Resumed total (x.after e) es r) : Resumed total x (e :: es) r :=
  { h with yields := .pass ht h.yields }

theorem yields_sentinel (x : Lexer) (t : Token) (es : List Event) :
    Yields x (.sentinel t :: es) (some t) x es := by
  have hafter : x.after (.sentinel t) = x := after_of_error?_eq_none rfl
  have hyields : Yields x (.sentinel t :: es) (some t) (x.after (.sentinel t)) es := .token rfl
  rwa [hafter] at hyields

/-- Reading on in a text comes to its next lexeme, or to whatever the stream comes to behind it. -/
theorem resumed_readThen {total : Nat} {here there : Stream} {last? : Option Token}
    (hhere : ∀ y, y.line = x.line → x.SameTask y →
      y.eventsLeft here = y.textLeft ++ tail ∧ here.Fits total y)
    (hthere : ∀ y, y.line = x.line → x.SameTask y → Resumed total y tail (last?, there, y)) :
    Resumed total x (x.textLeft ++ tail) (x.readThen here last? there) := by
  have hreads := readsOn_readOn x
  rw [readThen]
  cases hr : x.readOn with | mk t? y =>
  rw [hr] at hreads
  cases t? with
  | none =>
    have hbehind := hthere y hreads.line_eq hreads.sameTask
    exact { hbehind with yields := hreads.yields_none hbehind.yields }
  | some t =>
    obtain ⟨hleft, hfits⟩ := hhere y hreads.line_eq hreads.sameTask
    exact
      { yields := by
          dsimp only
          rw [hleft]
          exact hreads.yields_some tail
        fits := hfits
        token := by
          rintro t ⟨⟩
          rw [hreads.line_eq]
          exact Or.inr hreads.token_eq.symm
        ended := nofun }

theorem resumed_readLine {total number : Nat} {left : List (List Char)} (hline : x.line = number)
    (htotal : x.line + left.length = total) :
    Resumed total x (x.textLeft ++
      .sentinel (.endOfLine number) :: linesEvents x.limit (number + 1) left)
      (x.readLine number left) := by
  refine resumed_readThen (fun y hy hsame => ?_) fun y hy hsame => ?_
  · rw [eventsLeft, hsame.limit_eq, Stream.Fits, hy]
    exact ⟨rfl, hline, htotal⟩
  · exact
      { yields := by
          dsimp only [eventsLeft]
          rw [hsame.limit_eq]
          exact yields_sentinel y _ _
        fits := ⟨congrArg (· + 1) (hy.trans hline), by rw [hy, htotal]⟩
        token := by
          rintro t ⟨⟩
          exact Or.inr ⟨by simp [Token.endOfLine], congrArg Nat.cast (hy.trans hline).symm⟩
        ended := nofun }

theorem linesEvents_cons (limit : Int) (number : Nat) (line : List Char)
    (left : List (List Char)) :
    linesEvents limit number (line :: left) =
      lineEvents limit number line ++ linesEvents limit (number + 1) left := by
  rw [linesEvents, List.zipIdx_cons, List.flatMap_cons, List.append_assoc]
  rfl

theorem resumed_reachLine {total number : Nat} (left : List (List Char))
    (hline : x.line + 1 = number) (htotal : x.line + left.length = total) :
    Resumed total x (linesEvents x.limit number left) (x.reachLine number left) := by
  induction left generalizing x number with
  | nil =>
    exact
      { yields := yields_sentinel x _ _
        fits := htotal
        token := fun _ _ => Or.inl rfl
        ended := nofun }
  | cons line left ih =>
    have htotal' : number + left.length = total := by
      rw [List.length_cons] at htotal
      omega
    have hreach : x.after (.line number) = { x with line := number } :=
      after_of_error?_eq_none rfl
    have hopen : { x with line := number }.after (.text (lineText line)) =
        { x with line := number, cursor := .ofList (lineText line) } :=
      after_of_error?_eq_none rfl
    rw [linesEvents_cons, lineEvents, List.cons_append]
    refine Resumed.pass rfl ?_
    rw [hreach, reachLine]
    cases (lineText line).isEmpty with
    | true => exact ih (x := { x with line := number }) rfl htotal'
    | false =>
      rw [if_neg (by decide), if_neg (by decide), textEvents, List.cons_append, List.cons_append]
      refine Resumed.pass rfl ?_
      rw [hopen, List.append_assoc]
      exact resumed_readLine
        (x := { x with line := number, cursor := .ofList (lineText line) }) rfl htotal'

theorem resumed_ended {total : Nat} (htotal : x.line = total) :
    Resumed total x [] (none, .ended, x) where
  yields := .ended
  fits := htotal
  token := nofun
  ended _ := rfl

theorem resumed_readText {total : Nat} (htotal : x.line = total) :
    Resumed total x x.textLeft x.readText := by
  rw [← List.append_nil x.textLeft]
  refine resumed_readThen (fun y hy _ => ⟨?_, hy.trans htotal⟩) fun y hy _ => ?_
  · rw [List.append_nil, eventsLeft]
  · exact resumed_ended (hy.trans htotal)

theorem resumed_resume {total : Nat} {g : Stream} (h : g.Fits total x) :
    Resumed total x (x.eventsLeft g) (x.resume g) := by
  cases g with
  | source =>
    have hreset : Resumed total { x with line := 0 } (x.eventsLeft .source) (x.resume .source) :=
      resumed_reachLine _ rfl (by rw [Nat.zero_add]; exact h)
    -- a source has a first line, so that the line before it does not matter
    obtain ⟨line, left, hlines⟩ := List.exists_cons_of_ne_nil
      (List.splitOn_ne_nil '\n' x.source.toList : Text.sourceLines x.source.toList ≠ [])
    have hevents : x.eventsLeft .source =
        lineEvents x.limit 1 line ++ linesEvents x.limit 2 left := by
      rw [← linesEvents_cons, ← hlines]
      rfl
    rw [hevents] at hreset ⊢
    exact { hreset with yields := hreset.yields.of_line }
  | lines number left => exact resumed_reachLine left h.1 h.2
  | within number left => exact resumed_readLine h.1 h.2
  | text cs =>
    have htext : x.after (.text cs) = { x with cursor := .ofList cs } :=
      after_of_error?_eq_none rfl
    refine Resumed.pass rfl ?_
    rw [htext]
    exact resumed_readText (x := { x with cursor := .ofList cs }) h
  | along => exact resumed_readText h
  | ended => exact resumed_ended h

/-! ## Asking again and again -/

/-- What asking a stream for `n` tokens comes to, whose events these are: the demanded ones are
played, and the other ones are left. -/
structure Pulled (total n : Nat) (x : Lexer) (es : List Event) (r : List Token × Stream × Lexer) :
    Prop where
  split : es = Event.demand n es ++ r.2.2.eventsLeft r.2.1
  play : x.play (Event.demand n es) = (r.1, r.2.2)
  fits : r.2.1.Fits total r.2.2

/-- Asked for one token more, a stream ends without one, or yields one and is asked again. -/
theorem pull_succ_cases {total : Nat} {g : Stream} (n : Nat) (h : g.Fits total x) :
    (∃ y, Resumed total x (x.eventsLeft g) (none, .ended, y) ∧
        pull (n + 1) g x = ([], .ended, y)) ∨
      ∃ t g' y, Resumed total x (x.eventsLeft g) (some t, g', y) ∧
        pull (n + 1) g x = (t :: (pull n g' y).1, (pull n g' y).2) := by
  have hresumed := resumed_resume h
  rw [pull]
  cases hr : x.resume g with | mk t? r =>
  obtain ⟨g', y⟩ := r
  rw [hr] at hresumed
  cases t? with
  | none =>
    obtain rfl : g' = .ended := hresumed.ended rfl
    exact Or.inl ⟨y, hresumed, rfl⟩
  | some t => exact Or.inr ⟨t, g', y, hresumed, rfl⟩

theorem pulled_pull {total : Nat} {g : Stream} (n : Nat) (h : g.Fits total x) :
    Pulled total n x (x.eventsLeft g) (pull n g x) := by
  induction n generalizing g x with
  | zero => exact ⟨by simp [Event.demand, pull], by simp [Event.demand, play, pull], h⟩
  | succ n ih =>
    rcases pull_succ_cases n h with ⟨y, hresumed, hpull⟩ | ⟨t, g', y, hresumed, hpull⟩
    · obtain ⟨played, hsplit, hplay, hdemand⟩ := hresumed.yields.exists_played
      have hall : Event.demand (n + 1) (x.eventsLeft g) = played := by
        rw [hdemand n]
        cases n <;> exact List.append_nil _
      rw [hpull]
      exact ⟨by rw [hall]; exact hsplit, by rw [hall]; exact hplay, hresumed.fits⟩
    · obtain ⟨played, hsplit, hplay, hdemand⟩ := hresumed.yields.exists_played
      have hrest := ih hresumed.fits
      rw [hpull]
      refine ⟨?_, ?_, hrest.fits⟩
      · rw [hdemand n, List.append_assoc, ← hrest.split]
        exact hsplit
      · rw [hdemand n, play_append, hplay]
        dsimp only
        rw [hrest.play]
        rfl

/-- A stream that has yielded the tokens it was asked for has left the lexer where the last one of
them stands, unless it has ended. -/
theorem pull_succ_line {total : Nat} {g : Stream} (n : Nat) (h : g.Fits total x) :
    (pull (n + 1) g x).2.1 = .ended ∨ ∃ t, (pull (n + 1) g x).1[n]? = some t ∧
      t.kind ≠ .endOfFile ∧ t.line = (pull (n + 1) g x).2.2.line := by
  induction n generalizing g x with
  | zero =>
    rcases pull_succ_cases 0 h with ⟨y, -, hpull⟩ | ⟨t, g', y, hresumed, hpull⟩
    · exact Or.inl (by rw [hpull])
    · rw [hpull]
      exact (hresumed.token t rfl).imp_right fun ht => ⟨t, rfl, ht⟩
  | succ n ih =>
    rcases pull_succ_cases (n + 1) h with ⟨y, -, hpull⟩ | ⟨t, g', y, hresumed, hpull⟩
    · exact Or.inl (by rw [hpull])
    · rw [hpull]
      exact ih hresumed.fits

/-- Tokens of the source are taken by asking a new stream for them. -/
theorem takeTokens_eq_pull (x : Lexer) (n : Nat) :
    x.takeTokens (some n) = ((pull n .source x).1, (pull n .source x).2.2) :=
  (pulled_pull n (g := .source) rfl).play

/-- Tokens of a text are taken by asking a new stream for them. -/
theorem takeLineTokens_eq_pull (x : Lexer) (text : String) (n : Nat) :
    x.takeLineTokens text (some n) =
      ((pull n (.text text.toList) x).1, (pull n (.text text.toList) x).2.2) :=
  (pulled_pull n (g := .text text.toList) rfl).play

end PocketPascal.Lexer
