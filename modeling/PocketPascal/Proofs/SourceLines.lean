import Mathlib.Data.List.Chain
import Mathlib.Data.List.TakeWhile
import Mathlib.Tactic.Common
import PocketPascal.Lexer

/-! # The lines of the tokens of a source

Blank source lines yield no token at all. The tokens of every other line carry its number, an end of
line closes them, and the next token, if it is not the end of the file, stands on a later line.
-/

namespace PocketPascal

namespace Lexer

/-! ## No lexeme is a sentinel -/

theorem not_isSentinel_of_mem_keywords {k : Kind} (h : k ∈ Kind.keywords) :
    k.isSentinel = false := by
  revert k
  decide

theorem not_isSentinel_of_mem_singles {k : Kind} (h : k ∈ Kind.singles) : k.isSentinel = false := by
  revert k
  decide

theorem readName_not_isSentinel {limit : Int} {name : List Char} {k : Kind}
    (h : readName limit name = .lexeme k) : k.isSentinel = false := by
  unfold readName at h
  split at h
  · next kind hk =>
    cases h
    exact not_isSentinel_of_mem_keywords (List.mem_of_find?_eq_some hk)
  · split at h
    · cases h
    · cases h
      rfl

theorem markAt_not_isSentinel {c : Char} {rest : List Char} {k : Kind}
    (h : (markAt c rest).reading = .lexeme k) : k.isSentinel = false := by
  unfold markAt at h
  split at h
  · split at h <;> cases h <;> rfl
  split at h
  · split at h <;> cases h <;> rfl
  split at h
  · split at h <;> cases h
    rfl
  split at h
  · next kind hk =>
    cases h
    exact not_isSentinel_of_mem_singles (List.mem_of_find?_eq_some hk)
  · cases h

theorem pieceAt_not_isSentinel {limit : Int} {c : Char} {rest : List Char} {k : Kind}
    (h : (pieceAt limit c rest).reading = .lexeme k) : k.isSentinel = false := by
  unfold pieceAt lexemeAt at h
  split at h
  · cases h
  split at h
  · exact readName_not_isSentinel h
  split at h
  · cases h
    rfl
  · exact markAt_not_isSentinel h

theorem pieces_not_isSentinel {limit : Int} {cs : List Char} {p : Piece} {k : Kind}
    (hp : p ∈ pieces limit cs) (h : p.reading = .lexeme k) : k.isSentinel = false := by
  fun_induction pieces limit cs with
  | case1 => cases hp
  | case2 c rest piece ih =>
    rcases List.mem_cons.1 hp with rfl | hp
    · exact pieceAt_not_isSentinel h
    · exact ih hp

/-! ## Blank lines -/

theorem isBlank_of_tab (c : Char) :
    Text.isBlank (if c = '\t' then ' ' else c) = Text.isBlank c := by
  split
  · next h =>
    rw [h]
    decide
  · rfl

theorem trim_eq_nil_iff {cs : List Char} : Text.trim cs = [] ↔ ∀ c ∈ cs, Text.isBlank c = true := by
  rw [Text.trim, List.reverse_eq_nil_iff, List.dropWhile_eq_nil_iff]
  simp only [List.mem_reverse]
  constructor
  · intro h
    rw [← List.dropWhile_eq_nil_iff]
    by_contra hne
    have hhead := List.head_dropWhile_not Text.isBlank hne
    rw [h _ (List.head_mem hne)] at hhead
    exact absurd hhead (by decide)
  · exact fun h c hc => h c (List.dropWhile_suffix _ |>.mem hc)

/-- A line is cut into nothing just if it is blank. -/
theorem lineText_eq_nil_iff (line : List Char) : lineText line = [] ↔ line.all Text.isBlank := by
  rw [lineText, trim_eq_nil_iff, List.all_eq_true]
  simp only [List.mem_map, forall_exists_index, and_imp, forall_apply_eq_imp_iff₂, isBlank_of_tab]

/-- The numbers of the lines that are not blank, the first line having number `k`. -/
def nonBlankFrom (k : Nat) (lines : List (List Char)) : List Nat :=
  ((lines.zipIdx k).filter fun (line, _) => !line.all Text.isBlank).map Prod.snd

/-- The tokens of lines, the first one having number `k`, and of the end of the file after them. -/
def tokensFrom (limit : Int) (k : Nat) (lines : List (List Char)) : List Token :=
  ((lines.zipIdx k).flatMap (fun (line, number) => lineEvents limit number line) ++
    [Event.sentinel .endOfFile]).filterMap Event.token?

/-- The tokens of one line without the end of the line. -/
def lexemesOn (limit : Int) (k : Nat) (line : List Char) : List Token :=
  (textEvents limit k (lineText line)).filterMap Event.token?

theorem lexemesOn_line {limit : Int} {k : Nat} {line : List Char} {t : Token}
    (h : t ∈ lexemesOn limit k line) : t.line = k ∧ t.kind.isSentinel = false := by
  rw [lexemesOn, textEvents, List.filterMap_cons_none rfl, List.filterMap_map] at h
  obtain ⟨⟨cs, reading⟩, hp, ht⟩ := List.mem_filterMap.1 h
  cases reading with
  | lexeme kind =>
    obtain rfl : _ = t := Option.some.inj ht
    exact ⟨rfl, pieces_not_isSentinel hp rfl⟩
  | space => exact absurd ht (by simp [Event.token?])
  | rejected fault => exact absurd ht (by simp [Event.token?])

theorem nonBlankFrom_cons (k : Nat) (line : List Char) (lines : List (List Char)) :
    nonBlankFrom k (line :: lines) =
      (if line.all Text.isBlank then [] else [k]) ++ nonBlankFrom (k + 1) lines := by
  rw [nonBlankFrom, nonBlankFrom, List.zipIdx_cons]
  by_cases h : line.all Text.isBlank <;> simp [h]

theorem tokensFrom_cons (limit : Int) (k : Nat) (line : List Char) (lines : List (List Char)) :
    tokensFrom limit k (line :: lines) =
      (if line.all Text.isBlank then [] else lexemesOn limit k line ++ [.endOfLine k]) ++
        tokensFrom limit (k + 1) lines := by
  have hline : (lineEvents limit k line).filterMap Event.token? =
      if line.all Text.isBlank then [] else lexemesOn limit k line ++ [.endOfLine k] := by
    rw [lineEvents, List.filterMap_cons_none rfl]
    by_cases h : lineText line = []
    · rw [if_pos ((lineText_eq_nil_iff line).1 h)]
      simp [h]
    · rw [if_neg (mt (lineText_eq_nil_iff line).2 h)]
      simp [h, lexemesOn, Event.token?]
  rw [tokensFrom, tokensFrom, List.zipIdx_cons, List.flatMap_cons, List.append_assoc,
    List.filterMap_append, hline]

/-! ## How tokens follow one another -/

/-- A token `b` right after a token `a`: on the same line, on a later line, or the end of the file
after the end of line `last`. -/
inductive Next (last : Int) : Token → Token → Prop where
  | onLine {a b : Token} (ha : a.kind ≠ .endOfLine) (hb : b.kind ≠ .endOfFile)
      (h : b.line = a.line) : Next last a b
  | onLaterLine {a b : Token} (ha : a.kind = .endOfLine) (hb : b.kind ≠ .endOfFile)
      (h : a.line < b.line) : Next last a b
  | atEnd {a : Token} (ha : a.kind = .endOfLine) (h : a.line = last) : Next last a .endOfFile

/-- Tokens as a source yields them, `first` and `last` being the first and the last of its lines
that are not blank. -/
structure Numbered (first last : Int) (ts : List Token) : Prop where
  chain : ts.IsChain (Next last)
  bound : ∀ t ∈ ts, t = .endOfFile ∨ (t.kind ≠ .endOfFile ∧ 1 ≤ first ∧ first ≤ t.line)
  ends : ts.getLast? = some .endOfFile
  head : (ts = [.endOfFile] ∧ first = 0 ∧ last = 0) ∨
    ∃ t rest, ts = t :: rest ∧ t.kind ≠ .endOfFile ∧ t.line = first

/-- The tokens of a line stand before its end and after one another. -/
theorem isChain_lexemesOn {limit last : Int} {k : Nat} {line : List Char} {rest : List Token}
    (h : (Token.endOfLine k :: rest).IsChain (Next last)) :
    (lexemesOn limit k line ++ .endOfLine k :: rest).IsChain (Next last) := by
  have hmem : ∀ t ∈ lexemesOn limit k line, t.line = k ∧ t.kind.isSentinel = false :=
    fun t ht => lexemesOn_line ht
  generalize lexemesOn limit k line = ts at hmem ⊢
  induction ts with
  | nil => exact h
  | cons t ts ih =>
    obtain ⟨hline, hkind⟩ := hmem t List.mem_cons_self
    have hend : t.kind ≠ .endOfLine := fun hk => absurd hkind (by rw [hk]; decide)
    have ih := ih fun u hu => hmem u (List.mem_cons_of_mem _ hu)
    cases ts with
    | nil =>
      exact List.isChain_cons_cons.2 ⟨.onLine hend (by simp [Token.endOfLine]) hline.symm, ih⟩
    | cons u us =>
      obtain ⟨huline, hukind⟩ := hmem u (by simp)
      have hfile : u.kind ≠ .endOfFile := fun hk => absurd hukind (by rw [hk]; decide)
      exact List.isChain_cons_cons.2 ⟨.onLine hend hfile (huline.trans hline.symm), ih⟩

/-- Every line that is not blank starts a stretch of tokens of its own. What `d` stands for is the
last such line before line `k`. -/
theorem tokensFrom_numbered (limit : Int) (lines : List (List Char)) (k d : Nat) (hd : d < k) :
    (tokensFrom limit k lines).IsChain (Next ((nonBlankFrom k lines).getLastD d)) ∧
      (∀ t ∈ tokensFrom limit k lines, t = .endOfFile ∨
        (t.kind ≠ .endOfFile ∧ k ≤ (nonBlankFrom k lines).headD 0 ∧
          (nonBlankFrom k lines).headD 0 ≤ t.line)) ∧
      ((tokensFrom limit k lines = [.endOfFile] ∧ nonBlankFrom k lines = []) ∨
        ∃ t rest, tokensFrom limit k lines = t :: rest ∧ t.kind ≠ .endOfFile ∧
          t.line = (nonBlankFrom k lines).headD 0 ∧ k ≤ (nonBlankFrom k lines).headD 0) := by
  induction lines generalizing k d with
  | nil => exact ⟨.singleton _, by simp [tokensFrom, Event.token?], Or.inl ⟨rfl, rfl⟩⟩
  | cons line lines ih =>
    rw [tokensFrom_cons, nonBlankFrom_cons]
    by_cases hblank : line.all Text.isBlank
    · obtain ⟨hchain, hbound, hhead⟩ := ih (k + 1) d (by omega)
      rw [if_pos hblank, if_pos hblank, List.nil_append, List.nil_append]
      refine ⟨hchain, fun t ht => ?_, ?_⟩
      · rcases hbound t ht with rfl | ⟨hkind, hk, hline⟩
        · exact Or.inl rfl
        · exact Or.inr ⟨hkind, by omega, hline⟩
      · rcases hhead with h | ⟨t, rest, ht, hkind, hline, hk⟩
        · exact Or.inl h
        · exact Or.inr ⟨t, rest, ht, hkind, hline, by omega⟩
    · obtain ⟨hchain, hbound, hhead⟩ := ih (k + 1) k (by omega)
      rw [if_neg hblank, if_neg hblank, List.singleton_append, List.append_assoc,
        List.singleton_append, List.getLastD_cons, List.headD_cons]
      -- line `k` is the last one before the rest
      have hnext : (Token.endOfLine k :: tokensFrom limit (k + 1) lines).IsChain
          (Next ((nonBlankFrom (k + 1) lines).getLastD k)) := by
        rcases hhead with ⟨ht, hnone⟩ | ⟨t, rest, ht, hkind, hline, hk⟩
        · rw [ht, hnone]
          exact List.isChain_cons_cons.2 ⟨.atEnd rfl rfl, .singleton _⟩
        · rw [ht] at hchain ⊢
          refine List.isChain_cons_cons.2 ⟨.onLaterLine rfl hkind ?_, hchain⟩
          rw [hline]
          simp only [Token.endOfLine]
          omega
      refine ⟨isChain_lexemesOn hnext, fun t ht => ?_, Or.inr ?_⟩
      · rcases List.mem_append.1 ht with ht | ht
        · obtain ⟨hline, hkind⟩ := lexemesOn_line ht
          exact Or.inr ⟨fun hk => absurd hkind (by rw [hk]; decide), le_refl _, by omega⟩
        rcases List.mem_cons.1 ht with rfl | ht
        · exact Or.inr ⟨by simp [Token.endOfLine], le_refl _, Int.le_refl _⟩
        rcases hbound t ht with rfl | ⟨hkind, hk, hline⟩
        · exact Or.inl rfl
        · exact Or.inr ⟨hkind, le_refl _, by omega⟩
      · cases hts : lexemesOn limit k line with
        | nil => exact ⟨_, _, rfl, by simp [Token.endOfLine], rfl, le_refl _⟩
        | cons t ts =>
          obtain ⟨hline, hkind⟩ := lexemesOn_line (hts ▸ List.mem_cons_self)
          exact ⟨t, _, rfl, fun hk => absurd hkind (by rw [hk]; decide), hline, le_refl _⟩

end Lexer

/-- The numbers of the source lines that are not blank. -/
def nonBlankLines (source : String) : List Nat :=
  Lexer.nonBlankFrom 1 (Text.sourceLines source.toList)

/-- The first source line that is not blank, or 0. -/
def firstLine (source : String) : Nat :=
  (nonBlankLines source).headD 0

/-- The last source line that is not blank, or 0. -/
def lastLine (source : String) : Nat :=
  (nonBlankLines source).getLastD 0

/-- The tokens of a source are numbered by its lines. -/
theorem tokenize_numbered (limit : Int) (source : String) :
    Lexer.Numbered (firstLine source) (lastLine source) (tokenize limit source).1 := by
  have htokens : (tokenize limit source).1 =
      Lexer.tokensFrom limit 1 (Text.sourceLines source.toList) := rfl
  obtain ⟨hchain, hbound, hhead⟩ :=
    Lexer.tokensFrom_numbered limit (Text.sourceLines source.toList) 1 0 Nat.zero_lt_one
  rw [htokens]
  refine ⟨hchain, fun t ht => ?_, ?_, ?_⟩
  · rcases hbound t ht with rfl | ⟨hkind, hk, hline⟩
    · exact Or.inl rfl
    · exact Or.inr ⟨hkind, by exact_mod_cast hk, hline⟩
  · simp [Lexer.tokensFrom, Lexer.Event.token?]
  · rcases hhead with ⟨ht, hnone⟩ | ⟨t, rest, ht, hkind, hline, -⟩
    · refine Or.inl ⟨ht, ?_⟩
      rw [firstLine, lastLine, nonBlankLines, hnone]
      exact ⟨rfl, rfl⟩
    · exact Or.inr ⟨t, rest, ht, hkind, hline⟩

end PocketPascal
