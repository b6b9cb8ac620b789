import PocketPascal.Proofs.Spacing

/-! # Tokens are read back from how they are printed

Lexemes that are printed on lines, one after the other, are read back if there is a space wherever
one of them would otherwise run on into the next. Which pairs these are is seen from the kind of the
first lexeme and the first character of the second. No space is needed anywhere else, and none may
be missing there.
-/

namespace PocketPascal

open Lexer

/-! ## Lexemes as they are written -/

/-- A lexeme that a source can hold: a keyword in any letters, any other name within the limit, a
numeral, or an operator or punctuation mark. -/
inductive Lexeme.WellFormed (limit : Int) : Lexeme → Prop where
  | keyword {k : Kind} {text : String} (h : SpellsKeyword text.toList k) :
      WellFormed limit ⟨k, text⟩
  | identifier {text : String} (hname : IsName text.toList)
      (hk : ∀ k, ¬ SpellsKeyword text.toList k) (hlimit : text.toList.length ≤ limit) :
      WellFormed limit ⟨.identifier, text⟩
  | constant {text : String} (h : IsNumeral text.toList) : WellFormed limit ⟨.constant, text⟩
  | operator {k : Kind} {text : String} (hk : k ∈ pairs ++ marks) (h : Spells text.toList k) :
      WellFormed limit ⟨k, text⟩

/-- A lexeme that a source can hold. -/
structure Written (limit : Int) extends Lexeme where
  wellFormed : toLexeme.WellFormed limit

/-- A keyword or an identifier. -/
def Lexeme.isName (a : Lexeme) : Prop :=
  a.kind ∈ Kind.keywords ∨ a.kind = .identifier

/-- Right before the other lexeme this one would not end: a name would run on into a name or a
numeral, a numeral into a numeral, and two operators would be another one. -/
def Lexeme.Clings (a b : Lexeme) : Prop :=
  (a.isName ∧ (b.isName ∨ b.kind = .constant)) ∨ (a.kind = .constant ∧ b.kind = .constant) ∨
    (a.kind = .less ∧ (b.text.toList.head? = some '=' ∨ b.text.toList.head? = some '>')) ∨
    (a.kind = .greater ∧ b.text.toList.head? = some '=')

instance (a : Lexeme) : Decidable a.isName :=
  inferInstanceAs (Decidable (_ ∨ _))

instance (a b : Lexeme) : Decidable (a.Clings b) :=
  inferInstanceAs (Decidable ((_ ∧ (_ ∨ _)) ∨ (_ ∧ _) ∨ (_ ∧ (_ ∨ _)) ∨ (_ ∧ _)))

/-- A lexeme ends before a character, or before the end of a text. -/
structure Lexeme.Stops (a : Lexeme) (next : Option Char) : Prop where
  name : a.isName → ∀ c ∈ next, isNameChar c = false
  numeral : a.kind = .constant → ∀ c ∈ next, isDigit c = false
  less : a.kind = .less → next ≠ some '=' ∧ next ≠ some '>'
  greater : a.kind = .greater → next ≠ some '='

section Lexemes

variable {limit : Int} {k : Kind} {text rest : List Char}

theorem isLetter_of_toLower {c : Char} (h : isLetter c.toLower = true) : isLetter c = true := by
  unfold Char.toLower at h
  split at h
  · next hc =>
    have hcapital : 'A' ≤ c ∧ c ≤ 'Z' := hc
    simp [isLetter, hcapital]
  · exact h

/-- Keywords are names. -/
theorem isName_of_spellsKeyword (h : SpellsKeyword text k) : IsName text := by
  have hletters : ∀ k ∈ Kind.keywords, ∀ s ∈ k.spelling?, s.toList ≠ [] ∧
      s.toList.all isLetter = true := by decide
  obtain ⟨hne, hall⟩ := hletters k h.1 _ h.2
  rw [String.toList_ofList] at hne hall
  obtain ⟨c, cs, rfl⟩ := List.exists_cons_of_ne_nil (mt List.map_eq_nil_iff.2 hne)
  rw [List.all_eq_true, List.forall_mem_map, List.forall_mem_cons] at hall
  refine ⟨c, cs, rfl, isLetter_of_toLower hall.1, fun d hd => ?_⟩
  rw [isNameChar, isLetter_of_toLower (hall.2 d hd), Bool.true_or]

/-- A lexeme that goes as far as it can ends before what comes next. -/
theorem stops_of_munches (h : Munches limit text k rest) :
    Lexeme.Stops ⟨k, String.ofList text⟩ rest.head? := by
  cases h with
  | keyword hname hend hk =>
    have hkind : ∀ k ∈ Kind.keywords, k ≠ .constant ∧ k ≠ .less ∧ k ≠ .greater := by decide
    obtain ⟨hconstant, hless, hgreater⟩ := hkind k hk.1
    exact ⟨fun _ => hend, fun h => absurd h hconstant, fun h => absurd h hless,
      fun h => absurd h hgreater⟩
  | identifier hname hend => exact ⟨fun _ => hend, nofun, nofun, nofun⟩
  | constant hdigits hend => exact ⟨fun h => absurd h (by simp [Lexeme.isName, Kind.keywords]),
      fun _ => hend, nofun, nofun⟩
  | pair hk =>
    have hkind : ∀ k ∈ pairs, ¬ (k ∈ Kind.keywords ∨ k = .identifier) ∧ k ≠ .constant ∧
        k ≠ .less ∧ k ≠ .greater := by decide
    obtain ⟨hname, hconstant, hless, hgreater⟩ := hkind k hk
    exact ⟨fun h => absurd h hname, fun h => absurd h hconstant, fun h => absurd h hless,
      fun h => absurd h hgreater⟩
  | @mark a _ _ hk ha hpair =>
    have hkind : ∀ k ∈ marks, ¬ (k ∈ Kind.keywords ∨ k = .identifier) ∧ k ≠ .constant := by decide
    obtain ⟨hname, hconstant⟩ := hkind k hk
    refine ⟨fun h => absurd h hname, fun h => absurd h hconstant, ?_, ?_⟩
    · rintro rfl
      obtain rfl : '<' = a := by simpa [Spells, Kind.spelling?, ← String.toList_inj] using ha
      exact ⟨fun h => hpair _ h .atMost (by decide) rfl,
        fun h => hpair _ h .notEqual (by decide) rfl⟩
    · rintro rfl
      obtain rfl : '>' = a := by simpa [Spells, Kind.spelling?, ← String.toList_inj] using ha
      exact fun h => hpair _ h .atLeast (by decide) rfl

/-- A lexeme that is written well is read as far as it goes where it ends before what comes
next. -/
theorem munches_iff_stops (a : Written limit) :
    Munches limit a.text.toList a.kind rest ↔ a.Stops rest.head? := by
  refine ⟨fun h => by simpa using stops_of_munches h, fun h => ?_⟩
  obtain ⟨⟨kind, text⟩, hform⟩ := a
  cases hform with
  | keyword hk => exact .keyword (isName_of_spellsKeyword hk) (h.name (Or.inl hk.1)) hk
  | identifier hname hk hlimit => exact .identifier hname (h.name (Or.inr rfl)) hk hlimit
  | constant hdigits => exact .constant hdigits (h.numeral rfl)
  | operator hk hspells =>
    have hspelling : kind.spelling? = some text := by simpa [Spells] using hspells
    rcases List.mem_append.1 hk with hk | hk
    · have htwo : ∀ k ∈ pairs, ∀ s ∈ k.spelling?, s.toList.length = 2 := by decide
      obtain ⟨c, d, htext⟩ := List.length_eq_two.1 (htwo kind hk text hspelling)
      simp only [htext] at hspells ⊢
      exact .pair hk hspells
    · have hone : ∀ k ∈ marks, ∀ s ∈ k.spelling?, s.toList.length = 1 := by decide
      obtain ⟨c, htext⟩ := List.length_eq_one_iff.1 (hone kind hk text hspelling)
      simp only [htext] at hspells ⊢
      refine .mark hk hspells fun d hd k' hk' hpair => ?_
      -- a mark that begins an operator of two characters is less-than or greater-than
      have hfirst := spells_pair_iff.1 ⟨hk', hpair⟩
      rcases spells_mark_iff.1 ⟨hk, hspells⟩ with ⟨rfl, rfl⟩ | ⟨rfl, rfl⟩ | ⟨hsingle, hc⟩
      · have hless := h.less rfl
        rcases hfirst with h' | h' | h' | h' <;> simp_all
      · have hgreater := h.greater rfl
        rcases hfirst with h' | h' | h' | h' <;> simp_all
      · have hchar := char_of_single hsingle hc
        rcases hfirst with h' | h' | h' | h' <;> simp [h'.2.1] at hchar

/-- What a lexeme begins with tells names and numerals from each other and from everything else. -/
structure Lexeme.Begins (a : Lexeme) (c : Char) : Prop where
  head : a.text.toList.head? = some c
  ne_space : c ≠ ' '
  nameChar : isNameChar c = true ↔ a.isName ∨ a.kind = .constant
  digit : isDigit c = true ↔ a.kind = .constant

theorem exists_begins_of_isName {a : Lexeme} (h : IsName a.text.toList) (hname : a.isName) :
    ∃ c, a.Begins c := by
  obtain ⟨c, cs, htext, hc, -⟩ := h
  have hchar : isNameChar c = true := by rw [isNameChar, hc, Bool.true_or]
  have hkind : a.kind ≠ .constant := by
    intro hk
    rw [Lexeme.isName, hk] at hname
    exact absurd hname (by decide)
  have hdigit : isDigit c ≠ true := fun hd => absurd hc (by simp [isLetter_of_isDigit hd])
  exact ⟨c, by rw [htext]; rfl, ne_space_of_isLetter hc, iff_of_true hchar (Or.inl hname),
    iff_of_false hdigit hkind⟩

theorem exists_begins {a : Lexeme} (h : a.WellFormed limit) : ∃ c, a.Begins c := by
  cases h with
  | keyword hk => exact exists_begins_of_isName (isName_of_spellsKeyword hk) (Or.inl hk.1)
  | identifier hname => exact exists_begins_of_isName hname (Or.inr rfl)
  | @constant text hdigits =>
    obtain ⟨c, cs, htext⟩ := List.exists_cons_of_ne_nil hdigits.1
    have hc : isDigit c = true := hdigits.2 c (by simp [htext])
    have hchar : isNameChar c = true := by rw [isNameChar, hc, Bool.or_true]
    exact ⟨c, by rw [htext]; rfl, ne_space_of_isDigit hc, iff_of_true hchar (Or.inr rfl),
      iff_of_true hc rfl⟩
  | @operator k text hk hspells =>
    have hhead : ∀ k ∈ pairs ++ marks, ∀ s ∈ k.spelling?,
        s.toList.head?.any (fun c => c != ' ' && !isNameChar c) = true := by decide
    have hkind : ∀ k ∈ pairs ++ marks,
        ¬ ((k ∈ Kind.keywords ∨ k = .identifier) ∨ k = .constant) ∧ k ≠ .constant := by decide
    obtain ⟨c, hc, hother⟩ := (Option.any_eq_true _ _).1
      (hhead k hk text (by simpa [Spells] using hspells))
    obtain ⟨hspace, hchar⟩ : c ≠ ' ' ∧ isNameChar c = false := by simpa using hother
    have hdigit : isDigit c = false := (Bool.or_eq_false_iff.1 hchar).2
    exact ⟨c, hc, hspace, iff_of_false (by simp [hchar]) (hkind k hk).1,
      iff_of_false (by simp [hdigit]) (hkind k hk).2⟩

/-- A lexeme ends before the first character of another one just if it does not cling to it. -/
theorem stops_iff_not_clings {a b : Lexeme} (h : b.WellFormed limit) :
    a.Stops b.text.toList.head? ↔ ¬ a.Clings b := by
  obtain ⟨c, hc⟩ := exists_begins h
  rw [Lexeme.Clings, hc.head, ← hc.nameChar, ← hc.digit]
  constructor
  · rintro hstops (⟨ha, hb⟩ | ⟨ha, hb⟩ | ⟨ha, hb | hb⟩ | ⟨ha, hb⟩)
    · exact absurd (hstops.name ha c rfl) (by simp [hb])
    · exact absurd (hstops.numeral ha c rfl) (by simp [hb])
    · exact (hstops.less ha).1 hb
    · exact (hstops.less ha).2 hb
    · exact hstops.greater ha hb
  · intro hclings
    simp only [not_or, not_and, Bool.not_eq_true] at hclings
    obtain ⟨hname, hnumeral, hless, hgreater⟩ := hclings
    refine ⟨fun ha d hd => ?_, fun ha d hd => ?_, hless, hgreater⟩
    · cases hd
      exact hname ha
    · cases hd
      exact hnumeral ha

theorem stops_of_none (a : Lexeme) : a.Stops none :=
  ⟨nofun, nofun, fun _ => ⟨nofun, nofun⟩, fun _ => nofun⟩

theorem stops_of_space (a : Lexeme) : a.Stops (some ' ') where
  name _ c hc := by cases hc; decide
  numeral _ c hc := by cases hc; decide
  less _ := ⟨by decide, by decide⟩
  greater _ := by decide

end Lexemes

/-! ## Lines as they are printed -/

/-- A run of spaces and tabs; an empty one is no space at all. -/
structure Gap where
  run : List Char
  blank : ∀ c ∈ run, c = ' ' ∨ c = '\t'

/-- A line that is printed: a lexeme, and then others, each behind a gap. -/
structure PrintedLine (limit : Int) where
  first : Written limit
  rest : List (Gap × Written limit)

namespace PrintedLine

variable {limit : Int}

/-- What is printed behind a lexeme. -/
def textBehind (rest : List (Gap × Written limit)) : List Char :=
  rest.flatMap fun (gap, a) => gap.run ++ a.text.toList

/-- What is printed. -/
def text (l : PrintedLine limit) : List Char :=
  l.first.text.toList ++ textBehind l.rest

/-- Lexemes as tokens on a line. -/
def tokensOn (number : Nat) (as : List (Written limit)) : List Token :=
  as.map fun a => { toLexeme := a.toLexeme, line := number }

/-- The tokens of a line that is printed as the line with a number, and the end of that line. -/
def tokens (l : PrintedLine limit) (number : Nat) : List Token :=
  tokensOn number (l.first :: l.rest.map Prod.snd) ++ [.endOfLine number]

/-- Behind a lexeme there is a gap before any other one that it clings to, and so on. -/
def SpacedBehind : Written limit → List (Gap × Written limit) → Prop
  | _, [] => True
  | a, (gap, b) :: rest => (gap.run = [] → ¬ a.Clings b.toLexeme) ∧ SpacedBehind b rest

/-- There is space between any two neighbours that cling to each other. -/
def Spaced (l : PrintedLine limit) : Prop :=
  SpacedBehind l.first l.rest

end PrintedLine

section Lines

variable {limit : Int} {number : Nat} {rest : List Char} {ts : List Token}

theorem Written.isWord (a : Written limit) : Text.IsWord a.text.toList := by
  have hend : a.Stops ([] : List Char).head? := stops_of_none _
  exact ((munches_iff_stops a).2 hend).isWord

/-- No lexeme holds a tab. -/
theorem Written.map_text (a : Written limit) :
    a.text.toList.map (fun c => if c = '\t' then ' ' else c) = a.text.toList := by
  refine (List.map_congr_left fun c hc => if_neg ?_).trans (List.map_id _)
  rintro rfl
  exact absurd (a.isWord.not_blank _ hc) (by decide)

namespace PrintedLine

/-- What is printed behind a lexeme, tabs taken for spaces. -/
theorem map_textBehind_cons (gap : Gap) (b : Written limit) (rest : List (Gap × Written limit)) :
    (textBehind ((gap, b) :: rest)).map (fun c => if c = '\t' then ' ' else c) =
      List.replicate gap.run.length ' ' ++ (b.text.toList ++
        (textBehind rest).map fun c => if c = '\t' then ' ' else c) := by
  rw [textBehind, List.flatMap_cons, List.map_append, List.map_append, map_gap gap.blank,
    b.map_text, List.append_assoc]
  rfl

/-- No blank is printed at the end of a line. -/
theorem not_isBlank_last (a : Written limit) (rest : List (Gap × Written limit)) :
    ∀ c ∈ (a.text.toList ++ (textBehind rest).map fun c => if c = '\t' then ' ' else c).getLast?,
      Text.isBlank c = false := by
  induction rest generalizing a with
  | nil =>
    intro c hc
    exact a.isWord.not_blank c (List.mem_of_getLast? (by simpa [textBehind] using hc))
  | cons g rest ih =>
    obtain ⟨gap, b⟩ := g
    have hne : b.text.toList ++
        (textBehind rest).map (fun c => if c = '\t' then ' ' else c) ≠ [] := by
      simp [b.isWord.ne_nil]
    rw [map_textBehind_cons, ← List.append_assoc, List.getLast?_append_of_ne_nil _ hne]
    exact ih b

/-- Nothing is taken off a line that is printed, and its tabs are taken for spaces. -/
theorem lineText_text (l : PrintedLine limit) : lineText l.text =
    l.first.text.toList ++ (textBehind l.rest).map fun c => if c = '\t' then ' ' else c := by
  refine (Strips.eq_lineText ⟨⟨[], [], ?_, by simp, by simp⟩, ?_, ?_⟩).symm
  · rw [text, List.map_append, l.first.map_text]
    simp
  · rw [List.head?_append_of_ne_nil _ l.first.isWord.ne_nil]
    exact fun c hc => l.first.isWord.not_blank c (List.mem_of_head? hc)
  · exact not_isBlank_last l.first l.rest

/-- What is printed on a line does not end it. -/
theorem feed_not_mem_text (l : PrintedLine limit) : '\n' ∉ l.text := by
  have hword : ∀ a : Written limit, '\n' ∉ a.text.toList := fun a hmem =>
    absurd (a.isWord.not_blank _ hmem) (by decide)
  rw [text, textBehind, List.mem_append, List.mem_flatMap]
  rintro (hmem | ⟨⟨gap, b⟩, -, hmem⟩)
  · exact hword _ hmem
  rcases List.mem_append.1 hmem with hmem | hmem
  · exact absurd (gap.blank _ hmem) (by decide)
  · exact hword b hmem

end PrintedLine

/-- The first token of a text is a lexeme just if that stands at the head of the text and goes no
further. -/
theorem cut_written_iff (a : Written limit) : Cut limit number (a.text.toList ++ rest)
      ({ toLexeme := a.toLexeme, line := number } :: ts) [] ↔
    a.Stops rest.head? ∧ Cut limit number rest ts [] := by
  rw [← munches_iff_stops]
  constructor
  · intro h
    generalize hcs : a.text.toList ++ rest = cs at h
    generalize hts : ({ toLexeme := a.toLexeme, line := number } : Token) :: ts = us at h
    cases h with
    | done => cases hts
    | space h =>
      obtain ⟨c, hc⟩ := exists_begins a.wellFormed
      obtain ⟨cs, htext⟩ := List.head?_eq_some_iff.1 hc.head
      rw [htext] at hcs
      exact absurd (List.cons.inj hcs).1 hc.ne_space
    | @lexeme text rest' k us _ hk h =>
      obtain ⟨htoken, rfl⟩ := List.cons.inj hts
      have hlexeme : a.toLexeme = ⟨k, String.ofList text⟩ := congrArg Token.toLexeme htoken
      rw [hlexeme] at hcs ⊢
      rw [String.toList_ofList] at hcs ⊢
      obtain rfl := List.append_cancel_left hcs
      exact ⟨hk, h⟩
  · rintro ⟨hmunches, h⟩
    simpa using Cut.lexeme hmunches h

/-- A line is cut into the lexemes that are printed on it just if it is spaced. -/
theorem cut_behind_iff (number : Nat) (a : Written limit) (rest : List (Gap × Written limit)) :
    Cut limit number (a.text.toList ++
        (PrintedLine.textBehind rest).map fun c => if c = '\t' then ' ' else c)
      (PrintedLine.tokensOn number (a :: rest.map Prod.snd)) [] ↔
    PrintedLine.SpacedBehind a rest := by
  induction rest generalizing a with
  | nil =>
    rw [PrintedLine.tokensOn, List.map_cons, cut_written_iff]
    exact iff_of_true ⟨stops_of_none _, .done⟩ trivial
  | cons g rest ih =>
    obtain ⟨gap, b⟩ := g
    have hstops : a.Stops (List.replicate gap.run.length ' ' ++ (b.text.toList ++
        (PrintedLine.textBehind rest).map fun c => if c = '\t' then ' ' else c)).head? ↔
        (gap.run = [] → ¬ a.Clings b.toLexeme) := by
      cases hrun : gap.run with
      | nil =>
        rw [List.length_nil, List.replicate_zero, List.nil_append,
          List.head?_append_of_ne_nil _ b.isWord.ne_nil, stops_iff_not_clings b.wellFormed]
        simp
      | cons c cs =>
        exact iff_of_true (stops_of_space _) nofun
    rw [PrintedLine.map_textBehind_cons, PrintedLine.tokensOn, List.map_cons, cut_written_iff,
      cut_spaces_iff, hstops, PrintedLine.SpacedBehind, ← ih b]
    rfl

/-- A line is read back as it is printed just if it is spaced. -/
theorem textTokens_text_iff (number : Nat) (l : PrintedLine limit) :
    textTokens limit number (lineText l.text) =
        PrintedLine.tokensOn number (l.first :: l.rest.map Prod.snd) ∧
      textErrors limit number (lineText l.text) = [] ↔ l.Spaced := by
  rw [PrintedLine.Spaced, ← cut_behind_iff number, cut_iff, l.lineText_text]
  exact and_congr eq_comm eq_comm

theorem not_isSentinel_of_wellFormed {a : Lexeme} (h : a.WellFormed limit) :
    a.kind.isSentinel = false := by
  cases h with
  | keyword hk => exact not_isSentinel_of_mem_keywords hk.1
  | identifier | constant => rfl
  | operator hk =>
    have hkinds : ∀ k ∈ pairs ++ marks, k.isSentinel = false := by decide
    exact hkinds _ hk

/-- What stands before the first place of an item, and what stands behind it. -/
theorem append_cons_inj_of_not_mem {α : Type} {a : α} {xs xs' ys ys' : List α} (h : a ∉ xs)
    (h' : a ∉ xs') : xs ++ a :: ys = xs' ++ a :: ys' ↔ xs = xs' ∧ ys = ys' := by
  refine ⟨fun heq => ?_, fun ⟨hxs, hys⟩ => by rw [hxs, hys]⟩
  rcases List.append_eq_append_iff.1 heq with ⟨zs, rfl, hzs⟩ | ⟨zs, rfl, hzs⟩
  all_goals cases zs <;> simp_all

/-- Lines are read back as they are printed just if each of them is spaced. -/
theorem tokensFrom_text_iff (lines : List (PrintedLine limit)) (k : Nat) :
    tokensFrom limit k (lines.map PrintedLine.text) =
        (lines.zipIdx k).flatMap (fun (l, number) => l.tokens number) ++ [.endOfFile] ∧
      errorsFrom limit k (lines.map PrintedLine.text) = [] ↔ ∀ l ∈ lines, l.Spaced := by
  induction lines generalizing k with
  | nil => exact iff_of_true ⟨rfl, rfl⟩ (List.forall_mem_nil _)
  | cons l lines ih =>
    have hblank : ¬ l.text.all Text.isBlank := by
      rw [← lineText_eq_nil_iff, l.lineText_text]
      simp [l.first.isWord.ne_nil]
    have hend : ∀ {ts : List Token}, (∀ t ∈ ts, t.kind.isSentinel = false) →
        Token.endOfLine k ∉ ts := by
      intro ts hts hmem
      exact absurd (hts _ hmem) (by simp [Token.endOfLine, Kind.isSentinel])
    have hread : Token.endOfLine k ∉ lexemesOn limit k l.text :=
      hend fun t ht => (lexemesOn_line ht).2
    have hprinted : Token.endOfLine k ∉
        PrintedLine.tokensOn k (l.first :: l.rest.map Prod.snd) := by
      refine hend fun t ht => ?_
      obtain ⟨a, -, rfl⟩ := List.mem_map.1 ht
      exact not_isSentinel_of_wellFormed a.wellFormed
    rw [List.map_cons, tokensFrom_cons, errorsFrom_cons, if_neg hblank, if_neg hblank,
      List.zipIdx_cons, List.flatMap_cons, List.forall_mem_cons, ← ih (k + 1),
      ← textTokens_text_iff k, List.append_eq_nil_iff]
    dsimp only
    rw [PrintedLine.tokens, List.append_assoc, List.append_assoc, List.append_assoc,
      List.singleton_append, List.singleton_append, append_cons_inj_of_not_mem hread hprinted]
    exact and_and_and_comm

end Lines

/-- Printing lexemes and reading them gives them back, each on its line, just if there is space
wherever one of them clings to the next. -/
theorem tokenize_of_printed (limit : Int) (lines : List (PrintedLine limit)) :
    tokenize limit (String.ofList (['\n'].intercalate (lines.map PrintedLine.text))) =
        ((lines.zipIdx 1).flatMap (fun (l, number) => l.tokens number) ++ [.endOfFile], []) ↔
      ∀ l ∈ lines, l.Spaced := by
  have htokenize : ∀ source : String, tokenize limit source =
      (tokensFrom limit 1 (Text.sourceLines source.toList),
        errorsFrom limit 1 (Text.sourceLines source.toList)) := fun _ => rfl
  rw [htokenize, Prod.mk.injEq, String.toList_ofList]
  by_cases hnone : lines = []
  · subst hnone
    exact iff_of_true ⟨rfl, rfl⟩ (List.forall_mem_nil _)
  · have hfeed : ∀ line ∈ lines.map PrintedLine.text, '\n' ∉ line := by
      rw [List.forall_mem_map]
      exact fun l _ => l.feed_not_mem_text
    rw [Text.sourceLines, List.splitOn_intercalate '\n' hfeed (by simpa using hnone)]
    exact tokensFrom_text_iff lines 1

/-- An operator needs no space before it. -/
example : ∃ l : PrintedLine 16, l.text = "x<=".toList ∧ l.Spaced := by
  have hkey : ∀ k, ¬ SpellsKeyword "x".toList k := keyword?_eq_none_iff.1 (by decide +kernel)
  have hname : IsName "x".toList := ⟨'x', [], by decide +kernel, by decide, by simp⟩
  let name : Written 16 := ⟨⟨.identifier, "x"⟩, .identifier hname hkey (by decide +kernel)⟩
  let operator : Written 16 := ⟨⟨.atMost, "<="⟩, .operator (by decide) rfl⟩
  have hclings : ¬ Lexeme.Clings ⟨.identifier, "x"⟩ ⟨.atMost, "<="⟩ := by decide +kernel
  refine ⟨⟨name, [(⟨[], List.forall_mem_nil _⟩, operator)]⟩, ?_, ?_⟩
  · simp [PrintedLine.text, PrintedLine.textBehind, name, operator]
  · exact ⟨fun _ => hclings, trivial⟩

end PocketPascal
