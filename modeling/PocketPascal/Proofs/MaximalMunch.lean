import Mathlib.Data.List.TakeWhile
import Mathlib.Tactic.Common
import PocketPascal.Proofs.LexicalGrammar
import PocketPascal.Proofs.SourceLines

/-! # Lexical analysis follows the lexical grammar

The piece at the head of a text is the only one that the lexical grammar allows there, so a line is
cut in one way, and a source has one list of tokens and one list of errors: those that are found.
-/

namespace PocketPascal.Lexer

/-! ## Spellings -/

/-- Among kinds that are spelled differently, a spelling finds the kind that has it. -/
theorem find?_spelling_eq_some_iff {ks : List Kind}
    (hks : ∀ k ∈ ks, ∀ k' ∈ ks, k.spelling? = k'.spelling? → k = k') {s : String} {k : Kind} :
    (ks.find? fun k => k.spelling? == some s) = some k ↔ k ∈ ks ∧ k.spelling? = some s := by
  have hfound : ∀ {k'}, (ks.find? fun k => k.spelling? == some s) = some k' →
      k' ∈ ks ∧ k'.spelling? = some s := by
    intro k' h
    exact ⟨List.mem_of_find?_eq_some h, by simpa using List.find?_some h⟩
  refine ⟨hfound, ?_⟩
  rintro ⟨hk, hspelling⟩
  cases hf : ks.find? fun k => k.spelling? == some s with
  | none => exact absurd hspelling (by simpa using List.find?_eq_none.1 hf k hk)
  | some k' =>
    obtain ⟨hk', hspelling'⟩ := hfound hf
    rw [hks k' hk' k hk (hspelling'.trans hspelling.symm)]

theorem keyword?_eq_some_iff {name : List Char} {k : Kind} :
    keyword? name = some k ↔ SpellsKeyword name k :=
  find?_spelling_eq_some_iff (by decide)

theorem keyword?_eq_none_iff {name : List Char} :
    keyword? name = none ↔ ∀ k, ¬ SpellsKeyword name k := by
  simp only [Option.eq_none_iff_forall_ne_some, ne_eq, keyword?_eq_some_iff]

theorem single?_eq_some_iff {a : Char} {k : Kind} :
    single? a = some k ↔ k ∈ Kind.singles ∧ Spells [a] k := by
  rw [single?, String.singleton_eq_ofList]
  exact find?_spelling_eq_some_iff (by decide)

theorem single?_eq_none_iff {a : Char} :
    single? a = none ↔ ∀ k ∈ Kind.singles, ¬ Spells [a] k := by
  simp only [Option.eq_none_iff_forall_ne_some, ne_eq, single?_eq_some_iff, not_and]

/-- The pairs of characters that are operators. -/
theorem spells_pair_iff {a b : Char} {k : Kind} : (k ∈ pairs ∧ Spells [a, b] k) ↔
    (k = .notEqual ∧ a = '<' ∧ b = '>') ∨ (k = .atMost ∧ a = '<' ∧ b = '=') ∨
      (k = .atLeast ∧ a = '>' ∧ b = '=') ∨ (k = .assign ∧ a = ':' ∧ b = '=') := by
  cases k <;> simp [pairs, Spells, Kind.spelling?, ← String.toList_inj, @eq_comm Char _ a,
    @eq_comm Char _ b]

/-- The characters that are operators or punctuation marks. -/
theorem spells_mark_iff {a : Char} {k : Kind} : (k ∈ marks ∧ Spells [a] k) ↔
    (k = .less ∧ a = '<') ∨ (k = .greater ∧ a = '>') ∨ (k ∈ Kind.singles ∧ Spells [a] k) := by
  cases k <;> simp [marks, Kind.singles, Spells, Kind.spelling?, ← String.toList_inj,
    @eq_comm Char _ a]

theorem char_of_single {a : Char} {k : Kind} (hk : k ∈ Kind.singles) (ha : Spells [a] k) :
    a ∈ ['=', '-', '*', '(', ')', ';'] := by
  cases k <;> simp_all [Kind.singles, Spells, Kind.spelling?, ← String.toList_inj, eq_comm]

/-! ## The piece at the head of a text -/

section Head

variable {limit : Int} {c : Char} {cs rest : List Char} {k : Kind}

theorem ne_space_of_isLetter (h : isLetter c = true) : c ≠ ' ' := by
  rintro rfl
  exact absurd h (by decide)

theorem ne_space_of_isDigit (h : isDigit c = true) : c ≠ ' ' := by
  rintro rfl
  exact absurd h (by decide)

theorem isLetter_of_isDigit (h : isDigit c = true) : isLetter c = false := by
  simp only [isDigit, Bool.and_eq_true, decide_eq_true_eq] at h
  have hsmall : ¬ 'a' ≤ c := fun hc => absurd (Char.le_trans hc h.2) (by decide)
  have hcapital : ¬ 'A' ≤ c := fun hc => absurd (Char.le_trans hc h.2) (by decide)
  simp [isLetter, hsmall, hcapital]

theorem takeWhile_append_of_endsBefore {p : Char → Bool} (hcs : ∀ d ∈ cs, p d = true)
    (hend : EndsBefore rest p) : (cs ++ rest).takeWhile p = cs := by
  rw [List.takeWhile_append_of_pos hcs]
  cases rest with
  | nil => simp
  | cons d rest => simp [hend d rfl]

theorem pieceAt_name (hname : IsName (c :: cs)) (hend : EndsBefore rest isNameChar) :
    pieceAt limit c (cs ++ rest) = ⟨c :: cs, readName limit (c :: cs)⟩ := by
  obtain ⟨d, ds, heq, hc, hcs⟩ := hname
  cases heq
  rw [pieceAt, if_neg (ne_space_of_isLetter hc), lexemeAt, if_pos hc,
    takeWhile_append_of_endsBefore hcs hend]

theorem pieceAt_numeral (hdigits : IsNumeral (c :: cs)) (hend : EndsBefore rest isDigit) :
    pieceAt limit c (cs ++ rest) = ⟨c :: cs, .lexeme .constant⟩ := by
  obtain ⟨hc, hcs⟩ := List.forall_mem_cons.1 hdigits.2
  rw [pieceAt, if_neg (ne_space_of_isDigit hc), lexemeAt, isLetter_of_isDigit hc, if_neg (by simp),
    if_pos hc, takeWhile_append_of_endsBefore hcs hend]

theorem pieceAt_pair {a b : Char} (hk : k ∈ pairs) (hab : Spells [a, b] k) :
    pieceAt limit a (b :: rest) = ⟨[a, b], .lexeme k⟩ := by
  rcases spells_pair_iff.1 ⟨hk, hab⟩ with
    ⟨rfl, rfl, rfl⟩ | ⟨rfl, rfl, rfl⟩ | ⟨rfl, rfl, rfl⟩ | ⟨rfl, rfl, rfl⟩ <;> rfl

/-- A character that is no part of a name and no space is read as a mark. -/
theorem pieceAt_other (hspace : c ≠ ' ') (hname : isNameChar c = false) :
    pieceAt limit c rest = markAt c rest := by
  obtain ⟨hletter, hdigit⟩ := Bool.or_eq_false_iff.1 hname
  rw [pieceAt, if_neg hspace, lexemeAt, hletter, hdigit, if_neg (by simp), if_neg (by simp)]

theorem pieceAt_mark (hk : k ∈ marks) (hc : Spells [c] k)
    (hpair : ∀ d ∈ rest.head?, ∀ k' ∈ pairs, ¬ Spells [c, d] k') :
    pieceAt limit c rest = ⟨[c], .lexeme k⟩ := by
  have hnot : ∀ k' ∈ pairs, ∀ d, Spells [c, d] k' → rest.head? ≠ some d := by
    intro k' hk' d hspells hd
    exact hpair d hd k' hk' hspells
  rcases spells_mark_iff.1 ⟨hk, hc⟩ with ⟨rfl, rfl⟩ | ⟨rfl, rfl⟩ | ⟨hk, hc⟩
  · have hequal : rest.head? ≠ some '=' := hnot .atMost (by decide) _ rfl
    have hgreater : rest.head? ≠ some '>' := hnot .notEqual (by decide) _ rfl
    rw [pieceAt_other (by decide) (by decide), markAt, if_pos rfl]
    split <;> simp_all
  · have hequal : rest.head? ≠ some '=' := hnot .atLeast (by decide) _ rfl
    rw [pieceAt_other (by decide) (by decide), markAt, if_neg (by decide), if_pos rfl]
    split <;> simp_all
  · have hsingle := single?_eq_some_iff.2 ⟨hk, hc⟩
    have hchar := char_of_single hk hc
    simp only [List.mem_cons, List.not_mem_nil, or_false] at hchar
    rcases hchar with rfl | rfl | rfl | rfl | rfl | rfl <;>
      rw [pieceAt_other (by decide) (by decide), markAt, if_neg (by decide), if_neg (by decide),
        if_neg (by decide), hsingle]

/-- A lexeme that goes as far as it can is the piece at the head of a text. -/
theorem Munches.pieceAt (h : Munches limit (c :: cs) k rest) :
    pieceAt limit c (cs ++ rest) = ⟨c :: cs, .lexeme k⟩ := by
  generalize htext : c :: cs = text at h
  cases h with
  | keyword hname hend hk =>
    subst htext
    rw [pieceAt_name hname hend, readName, keyword?_eq_some_iff.2 hk]
  | identifier hname hend hk hlimit =>
    subst htext
    rw [pieceAt_name hname hend, readName, keyword?_eq_none_iff.2 hk]
    exact congrArg _ (if_neg (Int.not_lt.2 hlimit))
  | constant hdigits hend =>
    subst htext
    exact pieceAt_numeral hdigits hend
  | pair hk hab =>
    cases htext
    exact pieceAt_pair hk hab
  | mark hk ha hpair =>
    cases htext
    exact pieceAt_mark hk ha hpair

/-- A text that is no lexeme is the piece at the head of a text. -/
theorem Rejects.pieceAt {message : String} (h : Rejects limit (c :: cs) message rest) :
    ∃ fault : Fault, fault.message = message ∧
      pieceAt limit c (cs ++ rest) = ⟨c :: cs, .rejected fault⟩ := by
  generalize htext : c :: cs = text at h
  cases h with
  | overlong hname hend hk hlimit =>
    subst htext
    refine ⟨.overlong (String.ofList (c :: cs)) limit, rfl, ?_⟩
    rw [pieceAt_name hname hend, readName, keyword?_eq_none_iff.2 hk]
    exact congrArg _ (if_pos hlimit)
  | @colon a rest ha =>
    cases htext
    refine ⟨.misusedColon, rfl, ?_⟩
    rw [pieceAt_other (by decide) (by decide), markAt, if_neg (by decide), if_neg (by decide),
      if_pos rfl]
    split <;> simp_all
  | lastColon =>
    cases htext
    exact ⟨.misusedColon, rfl, rfl⟩
  | invalid hspace hcolon hname hmark =>
    cases htext
    refine ⟨.invalid c, rfl, ?_⟩
    have hless : c ≠ '<' := by
      rintro rfl
      exact hmark .less (by decide) rfl
    have hgreater : c ≠ '>' := by
      rintro rfl
      exact hmark .greater (by decide) rfl
    have hsingle : single? c = none := single?_eq_none_iff.2 fun k hk =>
      hmark k (List.mem_cons_of_mem _ (List.mem_cons_of_mem _ hk))
    rw [pieceAt_other hspace hname, markAt, if_neg hless, if_neg hgreater, if_neg hcolon, hsingle]

/-- What the lexical grammar asks of a piece that stands before `rest`. -/
def Piece.Stands (limit : Int) (p : Piece) (rest : List Char) : Prop :=
  match p.reading with
  | .space => p.text = [' ']
  | .lexeme k => Munches limit p.text k rest
  | .rejected fault => Rejects limit p.text fault.message rest

theorem endsBefore_dropWhile (p : Char → Bool) : EndsBefore (rest.dropWhile p) p := by
  intro d hd
  have hhead := List.head?_dropWhile_not p rest
  rw [hd] at hhead
  exact hhead

theorem stands_name (hc : isLetter c = true) (hcs : ∀ d ∈ cs, isNameChar d = true)
    (hend : EndsBefore rest isNameChar) :
    Piece.Stands limit ⟨c :: cs, readName limit (c :: cs)⟩ rest := by
  have hname : IsName (c :: cs) := ⟨c, cs, rfl, hc, hcs⟩
  rw [readName]
  cases hk : keyword? (c :: cs) with
  | some k => exact .keyword hname hend (keyword?_eq_some_iff.1 hk)
  | none =>
    have hk := keyword?_eq_none_iff.1 hk
    dsimp only
    split
    · next hlimit => exact .overlong hname hend hk hlimit
    · next hlimit => exact .identifier hname hend hk (Int.not_lt.1 hlimit)

/-- A character that begins no operator of two characters is a mark by itself. -/
theorem munches_alone (hk : k ∈ marks) (hc : Spells [c] k)
    (hpair : ∀ {d k'}, rest.head? = some d → ¬ (k' ∈ pairs ∧ Spells [c, d] k')) :
    Munches limit [c] k rest :=
  .mark hk hc fun _ hd _ hk' hspells => hpair hd ⟨hk', hspells⟩

theorem stands_less : ∃ after, '<' :: rest = (markAt '<' rest).text ++ after ∧
    (markAt '<' rest).Stands limit after := by
  rw [markAt, if_pos rfl]
  split
  · next hd =>
    obtain ⟨after, rfl⟩ := List.head?_eq_some_iff.1 hd
    exact ⟨after, rfl, .pair (by decide) rfl⟩
  · next hd =>
    obtain ⟨after, rfl⟩ := List.head?_eq_some_iff.1 hd
    exact ⟨after, rfl, .pair (by decide) rfl⟩
  · next hequal hgreater =>
    refine ⟨rest, rfl, munches_alone (k := .less) (by decide) rfl ?_⟩
    intro d k' hd hspells
    rcases spells_pair_iff.1 hspells with h | h | h | h <;> simp_all

theorem stands_greater : ∃ after, '>' :: rest = (markAt '>' rest).text ++ after ∧
    (markAt '>' rest).Stands limit after := by
  rw [markAt, if_neg (by decide), if_pos rfl]
  split
  · next hd =>
    obtain ⟨after, rfl⟩ := List.head?_eq_some_iff.1 hd
    exact ⟨after, rfl, .pair (by decide) rfl⟩
  · next hequal =>
    refine ⟨rest, rfl, munches_alone (k := .greater) (by decide) rfl ?_⟩
    intro d k' hd hspells
    rcases spells_pair_iff.1 hspells with h | h | h | h <;> simp_all

theorem stands_colon : ∃ after, ':' :: rest = (markAt ':' rest).text ++ after ∧
    (markAt ':' rest).Stands limit after := by
  rw [markAt, if_neg (by decide), if_neg (by decide), if_pos rfl]
  split
  · next hd =>
    obtain ⟨after, rfl⟩ := List.head?_eq_some_iff.1 hd
    exact ⟨after, rfl, .pair (by decide) rfl⟩
  · next d hequal hd =>
    obtain ⟨after, rfl⟩ := List.head?_eq_some_iff.1 hd
    exact ⟨after, rfl, .colon (by rintro rfl; exact hequal rfl)⟩
  · next hd =>
    obtain rfl := List.head?_eq_none_iff.1 hd
    exact ⟨[], rfl, .lastColon⟩

/-- What is read as a mark stands before what comes after it. -/
theorem stands_markAt (hspace : c ≠ ' ') (hname : isNameChar c = false) :
    ∃ after, c :: rest = (markAt c rest).text ++ after ∧ (markAt c rest).Stands limit after := by
  by_cases hless : c = '<'
  · exact hless ▸ stands_less
  by_cases hgreater : c = '>'
  · exact hgreater ▸ stands_greater
  by_cases hcolon : c = ':'
  · exact hcolon ▸ stands_colon
  rw [markAt, if_neg hless, if_neg hgreater, if_neg hcolon]
  cases hsingle : single? c with
  | some k =>
    obtain ⟨hk, hc⟩ := single?_eq_some_iff.1 hsingle
    refine ⟨rest, rfl, munches_alone (by simp [marks, hk]) hc ?_⟩
    intro d k' _ hspells
    rcases spells_pair_iff.1 hspells with h | h | h | h <;> simp_all
  | none =>
    refine ⟨rest, rfl, .invalid hspace hcolon hname ?_⟩
    intro k hk hspells
    rcases spells_mark_iff.1 ⟨hk, hspells⟩ with h | h | h
    · exact hless h.2
    · exact hgreater h.2
    · exact single?_eq_none_iff.1 hsingle k h.1 h.2

/-- The piece at the head of a text stands before what comes after it. -/
theorem stands_pieceAt (limit : Int) (c : Char) (rest : List Char) :
    ∃ after, c :: rest = (pieceAt limit c rest).text ++ after ∧
      (pieceAt limit c rest).Stands limit after := by
  by_cases hspace : c = ' '
  · rw [pieceAt, if_pos hspace, hspace]
    exact ⟨rest, rfl, rfl⟩
  cases hletter : isLetter c with
  | true =>
    rw [pieceAt, if_neg hspace, lexemeAt, if_pos hletter]
    refine ⟨rest.dropWhile isNameChar, ?_, ?_⟩
    · rw [List.cons_append, List.takeWhile_append_dropWhile]
    · exact stands_name hletter (fun d hd => List.mem_takeWhile_imp hd)
        (endsBefore_dropWhile isNameChar)
  | false =>
    cases hdigit : isDigit c with
    | true =>
      rw [pieceAt, if_neg hspace, lexemeAt, hletter, if_neg (by simp), if_pos hdigit]
      refine ⟨rest.dropWhile isDigit, ?_, ?_⟩
      · rw [List.cons_append, List.takeWhile_append_dropWhile]
      · refine .constant ⟨by simp, ?_⟩ (endsBefore_dropWhile isDigit)
        rw [List.forall_mem_cons]
        exact ⟨hdigit, fun d hd => List.mem_takeWhile_imp hd⟩
    | false =>
      have hname : isNameChar c = false := by rw [isNameChar, hletter, hdigit]; rfl
      rw [pieceAt_other hspace hname]
      exact stands_markAt hspace hname

end Head

/-! ## The pieces of a text -/

section Text

variable {limit : Int} {number : Nat} {cs rest text : List Char}

theorem Munches.ne_nil {k : Kind} (h : Munches limit text k rest) : text ≠ [] := by
  cases h with
  | keyword hname | identifier hname =>
    obtain ⟨c, cs, rfl, -⟩ := hname
    exact List.cons_ne_nil _ _
  | constant hdigits => exact hdigits.1
  | pair | mark => exact List.cons_ne_nil _ _

theorem Rejects.ne_nil {message : String} (h : Rejects limit text message rest) : text ≠ [] := by
  cases h with
  | overlong hname =>
    obtain ⟨c, cs, rfl, -⟩ := hname
    exact List.cons_ne_nil _ _
  | colon | lastColon | invalid => exact List.cons_ne_nil _ _

/-- The tokens of a text on a line. -/
def textTokens (limit : Int) (number : Nat) (cs : List Char) : List Token :=
  (textEvents limit number cs).filterMap Event.token?

/-- The errors of a text on a line. -/
def textErrors (limit : Int) (number : Nat) (cs : List Char) : List Diagnostic :=
  (textEvents limit number cs).filterMap Event.error?

/-- What a piece at the head of a text yields comes before what the rest yields. -/
theorem textTokens_of_pieceAt (number : Nat) {c : Char} {reading : Reading}
    (h : pieceAt limit c (cs ++ rest) = ⟨c :: cs, reading⟩) :
    textTokens limit number (c :: cs ++ rest) =
        (Event.piece number ⟨c :: cs, reading⟩).token?.toList ++ textTokens limit number rest ∧
      textErrors limit number (c :: cs ++ rest) =
        (Event.piece number ⟨c :: cs, reading⟩).error?.toList ++ textErrors limit number rest := by
  have hpieces : pieces limit (c :: cs ++ rest) = ⟨c :: cs, reading⟩ :: pieces limit rest := by
    rw [List.cons_append, pieces]
    simp only [h, List.length_cons, Nat.add_sub_cancel, List.drop_left]
  rw [textTokens, textErrors, textEvents, hpieces]
  cases reading <;> exact ⟨rfl, rfl⟩

theorem Piece.Stands.ne_nil {p : Piece} (h : p.Stands limit rest) : p.text ≠ [] := by
  unfold Piece.Stands at h
  split at h
  · rw [h]
    exact List.cons_ne_nil _ _
  · exact Munches.ne_nil h
  · exact Rejects.ne_nil h

/-- A text is cut into the pieces that are found in it. -/
theorem cut_pieces (limit : Int) (number : Nat) : ∀ cs : List Char,
    Cut limit number cs (textTokens limit number cs) (textErrors limit number cs)
  | [] => by
    have hpieces : pieces limit [] = [] := by rw [pieces]
    rw [textTokens, textErrors, textEvents, hpieces]
    exact .done
  | c :: rest => by
    obtain ⟨after, hrest, hstands⟩ := stands_pieceAt limit c rest
    cases hp : pieceAt limit c rest with | mk text reading =>
    rw [hp] at hrest hstands
    obtain ⟨d, cs, rfl⟩ := List.exists_cons_of_ne_nil hstands.ne_nil
    have hlength : after.length ≤ rest.length := by simp [(List.cons.inj hrest).2]
    obtain ⟨rfl, rfl⟩ := List.cons.inj hrest
    obtain ⟨htokens, herrors⟩ := textTokens_of_pieceAt number hp
    have hafter := cut_pieces limit number after
    rw [hrest]
    dsimp only
    rw [htokens, herrors]
    cases reading with
    | space =>
      obtain ⟨rfl, rfl⟩ := List.cons.inj (show c :: cs = ' ' :: [] from hstands)
      exact .space hafter
    | lexeme k => exact .lexeme hstands hafter
    | rejected fault => exact .error hstands hafter
termination_by cs => cs.length
decreasing_by
  rw [List.length_cons]
  omega

/-- A text is cut in one way, and that yields the tokens and errors that are found. -/
theorem cut_iff {ts : List Token} {ds : List Diagnostic} : Cut limit number cs ts ds ↔
    ts = textTokens limit number cs ∧ ds = textErrors limit number cs := by
  constructor
  · intro h
    induction h with
    | done =>
      have hpieces : pieces limit [] = [] := by rw [pieces]
      rw [textTokens, textErrors, textEvents, hpieces]
      exact ⟨rfl, rfl⟩
    | @space rest _ _ _ ih =>
      have hpiece : pieceAt limit ' ' ([] ++ rest) = ⟨[' '], .space⟩ := rfl
      obtain ⟨htokens, herrors⟩ := textTokens_of_pieceAt number hpiece
      exact ⟨ih.1.trans htokens.symm, ih.2.trans herrors.symm⟩
    | lexeme hk _ ih =>
      obtain ⟨c, cs, rfl⟩ := List.exists_cons_of_ne_nil hk.ne_nil
      obtain ⟨htokens, herrors⟩ := textTokens_of_pieceAt number hk.pieceAt
      rw [htokens, herrors, ← ih.1, ← ih.2]
      exact ⟨rfl, rfl⟩
    | error hm _ ih =>
      obtain ⟨c, cs, rfl⟩ := List.exists_cons_of_ne_nil hm.ne_nil
      obtain ⟨fault, rfl, hpiece⟩ := hm.pieceAt
      obtain ⟨htokens, herrors⟩ := textTokens_of_pieceAt number hpiece
      rw [htokens, herrors, ← ih.1, ← ih.2]
      exact ⟨rfl, rfl⟩
  · rintro ⟨rfl, rfl⟩
    exact cut_pieces limit number cs

end Text

/-! ## Lines -/

/-- The blanks at both ends can be taken off in one way only. -/
theorem dropWhile_append_of_head {before cs : List Char} {p : Char → Bool}
    (hbefore : ∀ c ∈ before, p c = true) (hcs : ∀ c ∈ cs.head?, p c = false) :
    (before ++ cs).dropWhile p = cs := by
  rw [List.dropWhile_append_of_pos hbefore]
  cases cs with
  | nil => rfl
  | cons c cs => rw [List.dropWhile_cons_of_neg (by simp [hcs c rfl])]

/-- The blanks at both ends of a line can be taken off in one way only. -/
theorem Strips.eq_lineText {line text : List Char} (h : Strips line text) :
    text = lineText line := by
  obtain ⟨before, after, hline, hbefore, hafter⟩ := h.cut
  rw [lineText, hline]
  by_cases htext : text = []
  · subst htext
    have hall : ∀ c ∈ before ++ [] ++ after, Text.isBlank c = true := by
      intro c hc
      rw [List.append_nil, List.mem_append] at hc
      exact hc.elim (hbefore c) (hafter c)
    exact (trim_eq_nil_iff.2 hall).symm
  · have hhead : ∀ c ∈ (text ++ after).head?, Text.isBlank c = false := by
      rw [List.head?_append_of_ne_nil _ htext]
      exact h.head
    have hlast : ∀ c ∈ text.reverse.head?, Text.isBlank c = false := by
      rw [List.head?_reverse]
      exact h.last
    have hafter : ∀ c ∈ after.reverse, Text.isBlank c = true := by
      simpa using hafter
    rw [Text.trim, List.append_assoc, dropWhile_append_of_head hbefore hhead, List.reverse_append,
      dropWhile_append_of_head hafter hlast, List.reverse_reverse]

theorem strips_lineText (line : List Char) : Strips line (lineText line) := by
  rw [lineText]
  generalize hcs : line.map (fun c => if c = '\t' then ' ' else c) = cs
  -- what is left of the line without the blanks before it, and the blanks after that
  have hfront : cs = cs.takeWhile Text.isBlank ++ cs.dropWhile Text.isBlank :=
    List.takeWhile_append_dropWhile.symm
  have hback : cs.dropWhile Text.isBlank = Text.trim cs ++
      ((cs.dropWhile Text.isBlank).reverse.takeWhile Text.isBlank).reverse := by
    rw [Text.trim, ← List.reverse_append, List.takeWhile_append_dropWhile, List.reverse_reverse]
  let after := ((cs.dropWhile Text.isBlank).reverse.takeWhile Text.isBlank).reverse
  refine ⟨⟨cs.takeWhile Text.isBlank, after, ?_, ?_, ?_⟩, ?_, ?_⟩
  · rw [hcs, List.append_assoc, ← hback, ← hfront]
  · exact fun c hc => List.mem_takeWhile_imp hc
  · exact fun c hc => List.mem_takeWhile_imp (List.mem_reverse.1 hc)
  · intro c hc
    have hends : EndsBefore (cs.dropWhile Text.isBlank) Text.isBlank := endsBefore_dropWhile _
    refine hends c ?_
    rw [hback, List.head?_append]
    rw [Option.mem_def] at hc ⊢
    rw [hc]
    rfl
  · rw [Text.trim, List.getLast?_reverse]
    exact endsBefore_dropWhile Text.isBlank

/-- The errors of lines, the first one having number `k`. -/
def errorsFrom (limit : Int) (k : Nat) (lines : List (List Char)) : List Diagnostic :=
  ((lines.zipIdx k).flatMap (fun (line, number) => lineEvents limit number line) ++
    [Event.sentinel .endOfFile]).filterMap Event.error?

theorem errorsFrom_cons (limit : Int) (k : Nat) (line : List Char) (lines : List (List Char)) :
    errorsFrom limit k (line :: lines) =
      (if line.all Text.isBlank then [] else textErrors limit k (lineText line)) ++
        errorsFrom limit (k + 1) lines := by
  have hline : (lineEvents limit k line).filterMap Event.error? =
      if line.all Text.isBlank then [] else textErrors limit k (lineText line) := by
    rw [lineEvents, List.filterMap_cons_none rfl]
    by_cases h : lineText line = []
    · rw [if_pos ((lineText_eq_nil_iff line).1 h)]
      simp [h]
    · rw [if_neg (mt (lineText_eq_nil_iff line).2 h)]
      simp [h, textErrors, Event.error?]
  rw [errorsFrom, errorsFrom, List.zipIdx_cons, List.flatMap_cons, List.append_assoc,
    List.filterMap_append, hline]

/-- Lines have one list of tokens and one list of errors, those that are found. -/
theorem lexesFrom_iff {limit : Int} {k : Nat} {lines : List (List Char)} {ts : List Token}
    {ds : List Diagnostic} : LexesFrom limit k lines ts ds ↔
      ts = tokensFrom limit k lines ∧ ds = errorsFrom limit k lines := by
  constructor
  · intro h
    induction h with
    | done => exact ⟨rfl, rfl⟩
    | @blank k line lines _ _ hline _ ih =>
      have hblank := (lineText_eq_nil_iff line).1 hline.eq_lineText.symm
      rw [tokensFrom_cons, errorsFrom_cons, if_pos hblank, if_pos hblank]
      exact ih
    | @line k line text lines _ _ _ _ hline htext hcut _ ih =>
      obtain rfl := hline.eq_lineText
      have hblank := mt (lineText_eq_nil_iff line).2 htext
      obtain ⟨rfl, rfl⟩ := cut_iff.1 hcut
      rw [tokensFrom_cons, errorsFrom_cons, if_neg hblank, if_neg hblank, ← ih.1, ← ih.2,
        List.append_assoc]
      exact ⟨rfl, rfl⟩
  · rintro ⟨rfl, rfl⟩
    induction lines generalizing k with
    | nil => exact .done
    | cons line lines ih =>
      have hline := strips_lineText line
      rw [tokensFrom_cons, errorsFrom_cons]
      by_cases htext : lineText line = []
      · have hblank := (lineText_eq_nil_iff line).1 htext
        rw [if_pos hblank, if_pos hblank]
        exact .blank (htext ▸ hline) ih
      · have hblank := mt (lineText_eq_nil_iff line).2 htext
        rw [if_neg hblank, if_neg hblank, List.append_assoc]
        exact .line hline htext (cut_pieces limit k (lineText line)) ih

end PocketPascal.Lexer

namespace PocketPascal

/-- No part of a text that is split holds a character that it was split at. -/
theorem Text.of_mem_splitOnP {α : Type} {p : α → Bool} {cs part : List α}
    (h : part ∈ cs.splitOnP p) : ∀ c ∈ part, p c = false := by
  induction cs generalizing part with
  | nil =>
    obtain rfl : part = [] := by simpa using h
    simp
  | cons c cs ih =>
    rw [List.splitOnP_cons_eq_if_modifyHead] at h
    cases hc : p c with
    | true =>
      rw [if_pos hc] at h
      rcases List.mem_cons.1 h with rfl | h
      · simp
      · exact ih h
    | false =>
      rw [hc, if_neg (by simp)] at h
      -- the first part begins with this character, the others are parts of the rest
      obtain ⟨first, others, hsplit⟩ := List.exists_cons_of_ne_nil (List.splitOnP_ne_nil p cs)
      rw [hsplit, List.modifyHead_cons] at h
      rcases List.mem_cons.1 h with rfl | h
      · rw [List.forall_mem_cons]
        exact ⟨hc, ih (hsplit ▸ List.mem_cons_self)⟩
      · exact ih (hsplit ▸ List.mem_cons_of_mem _ h)

open Lexer in
/-- The tokens and the errors of a source are those that the lexical grammar gives it, and the
lexical grammar gives it no others. -/
theorem tokenize_eq_iff_lexes (limit : Int) (source : String) (ts : List Token)
    (ds : List Diagnostic) : tokenize limit source = (ts, ds) ↔ Lexes limit source ts ds := by
  have htokenize : tokenize limit source =
      (tokensFrom limit 1 (Text.sourceLines source.toList),
        errorsFrom limit 1 (Text.sourceLines source.toList)) := rfl
  rw [htokenize, Prod.mk.injEq, Lexes, Text.sourceLines]
  constructor
  · rintro ⟨rfl, rfl⟩
    refine ⟨source.toList.splitOn '\n', List.splitOn_ne_nil _ _, ?_,
      List.intercalate_splitOn '\n', lexesFrom_iff.2 ⟨rfl, rfl⟩⟩
    intro line hline hmem
    have hfeed := Text.of_mem_splitOnP hline '\n' hmem
    exact absurd hfeed (by simp)
  · rintro ⟨lines, hne, hlines, hsource, h⟩
    obtain ⟨rfl, rfl⟩ := lexesFrom_iff.1 h
    rw [← hsource, List.splitOn_intercalate '\n' hlines hne]
    exact ⟨rfl, rfl⟩

end PocketPascal
