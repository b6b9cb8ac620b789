import Mathlib.Tactic.Common
import PocketPascal.Ledger.Reader
import PocketPascal.Ledger.Record

/-! # Ledgers are read back

A token whose text is one word is recorded on a line of its own, from which its text and its kind
are read back. So a ledger of such tokens is read without a warning, and only their lines are lost.
-/

namespace PocketPascal

namespace Text

/-! ## Words -/

theorem words_append_blank {b : Char} (hb : isBlank b = true) (cs ds : List Char) :
    words (cs ++ b :: ds) = words cs ++ words ds := by
  rw [words, List.splitOnP_append_cons cs ds hb, List.filter_append]
  rfl

theorem words_cons_blank {b : Char} (hb : isBlank b = true) (cs : List Char) :
    words (b :: cs) = words cs :=
  words_append_blank hb [] cs

/-- A text that is one word. -/
structure IsWord (cs : List Char) : Prop where
  ne_nil : cs ≠ []
  not_blank : ∀ c ∈ cs, isBlank c = false

theorem isWord_iff {cs : List Char} : IsWord cs ↔ cs ≠ [] ∧ cs.any isBlank = false := by
  simp only [List.any_eq_false, Bool.not_eq_true]
  exact ⟨fun h => ⟨h.ne_nil, h.not_blank⟩, fun h => ⟨h.1, h.2⟩⟩

instance (cs : List Char) : Decidable (IsWord cs) :=
  decidable_of_iff _ isWord_iff.symm

theorem IsWord.words_eq {cs : List Char} (h : IsWord cs) : words cs = [cs] := by
  rw [words, List.splitOnP_eq_singleton h.not_blank]
  simp [h.ne_nil]

/-! ## Record lines -/

theorem joinReturns_eq_self {cs : List Char} (h : '\r' ∉ cs) : joinReturns cs = cs := by
  induction cs with
  | nil => rfl
  | cons c cs ih =>
    rw [List.mem_cons, not_or] at h
    rw [joinReturns, if_neg (fun hr => h.1 hr.1.symm), ih h.2]

theorem isBlank_of_isLineBoundary {c : Char} (h : isLineBoundary c = true) : isBlank c = true := by
  simp only [isLineBoundary, isBlank, Bool.or_eq_true, Bool.and_eq_true, decide_eq_true_eq,
    beq_iff_eq] at *
  omega

/-- Lines that are ended by line feeds are cut there, and an empty one is left at the end. -/
theorem splitOnP_lines {p : Char → Bool} (hp : p '\n' = true) {lines : List (List Char)}
    (h : ∀ line ∈ lines, ∀ c ∈ line, p c = false) :
    (lines.flatMap (· ++ ['\n'])).splitOnP p = lines ++ [[]] := by
  induction lines with
  | nil => rfl
  | cons line lines ih =>
    obtain ⟨hline, hlines⟩ := List.forall_mem_cons.1 h
    rw [List.flatMap_cons, List.append_assoc, List.singleton_append,
      List.splitOnP_append_cons_of_forall_mem hline '\n' hp, ih hlines]
    rfl

/-- The only line boundaries that end lines are line feeds. -/
theorem return_not_mem_lines {lines : List (List Char)}
    (h : ∀ line ∈ lines, ∀ c ∈ line, isLineBoundary c = false) :
    '\r' ∉ lines.flatMap (· ++ ['\n']) := by
  rw [List.mem_flatMap]
  rintro ⟨line, hline, hmem⟩
  rcases List.mem_append.1 hmem with hmem | hmem
  · exact absurd (h line hline _ hmem) (by decide)
  · exact absurd hmem (by decide)

/-- Lines that are ended by line feeds are read back one by one. -/
theorem recordLines_of_lines {lines : List (List Char)}
    (h : ∀ line ∈ lines, ∀ c ∈ line, isLineBoundary c = false) :
    recordLines (lines.flatMap (· ++ ['\n'])) = lines := by
  simp only [recordLines, joinReturns_eq_self (return_not_mem_lines h), splitOnP_lines rfl h,
    List.getLast?_concat, if_true, List.dropLast_concat]

end Text

namespace Ledger

/-! ## Fields -/

theorem toList_joinFields (a b : String) :
    (joinFields [a, b]).toList = a.toList ++ ' ' :: b.toList := by
  simp [joinFields]

theorem toList_render (records : List String) :
    (render records).toList = (records.map String.toList).flatMap (· ++ ['\n']) := by
  rw [render, String.toList_join, List.flatMap_map, List.flatMap_map]
  congr 1
  funext r
  rw [String.toList_append]
  rfl

theorem mem_flushRight {width : Nat} {text : String} {c : Char}
    (h : c ∈ (flushRight ' ' width text).toList) : c = ' ' ∨ c ∈ text.toList := by
  rw [flushRight, String.toList_ofList, List.leftpad, List.mem_append] at h
  exact h.imp List.eq_of_mem_replicate id

/-- The spaces before a name do not count. -/
theorem words_flushRight (width : Nat) (text : String) :
    Text.words (flushRight ' ' width text).toList = Text.words text.toList := by
  rw [flushRight, String.toList_ofList, List.leftpad]
  generalize width - text.toList.length = n
  induction n with
  | zero => rfl
  | succ n ih =>
    rw [List.replicate_succ, List.cons_append, Text.words_cons_blank rfl, ih]

/-- How the code of a kind is written. -/
def codeField (k : Kind) : String :=
  flushRight '0' 2 (toString k.code)

theorem isWord_codeField (k : Kind) : Text.IsWord (codeField k).toList := by
  cases k <;> decide +kernel

theorem readNumeral?_codeField (k : Kind) :
    Text.readNumeral? (codeField k).toList = some k.code := by
  cases k <;> decide +kernel

/-! ## Records -/

theorem toList_tokenRecord (t : Token) :
    (tokenRecord t).toList =
      (flushRight ' ' fieldWidth t.text).toList ++ ' ' :: (codeField t.kind).toList :=
  toList_joinFields _ _

/-- A token whose text is one word is read back from its record, without its line. -/
theorem readRecord?_tokenRecord {t : Token} (h : Text.IsWord t.text.toList) :
    readRecord? (tokenRecord t).toList = some { t with line := 0 } := by
  have hwords : Text.words (tokenRecord t).toList = [t.text.toList, (codeField t.kind).toList] := by
    rw [toList_tokenRecord, Text.words_append_blank rfl, words_flushRight, h.words_eq,
      (isWord_codeField t.kind).words_eq]
    rfl
  simp only [readRecord?, hwords, readNumeral?_codeField, Option.bind_some, Kind.ofCode?_code,
    String.ofList_toList]

/-- A record fills one line. -/
theorem tokenRecord_not_isLineBoundary {t : Token} (h : Text.IsWord t.text.toList) :
    ∀ c ∈ (tokenRecord t).toList, Text.isLineBoundary c = false := by
  intro c hc
  rw [← Bool.not_eq_true]
  intro hboundary
  have hblank := Text.isBlank_of_isLineBoundary hboundary
  rw [toList_tokenRecord, List.mem_append, List.mem_cons] at hc
  have hspace : c ≠ ' ' := by
    rintro rfl
    exact absurd hboundary (by decide)
  rcases hc with hc | rfl | hc
  · rcases mem_flushRight hc with rfl | hc
    · exact hspace rfl
    · exact absurd hblank (by rw [h.not_blank c hc]; decide)
  · exact hspace rfl
  · exact absurd hblank (by rw [(isWord_codeField t.kind).not_blank c hc]; decide)

theorem return_not_mem_render {ts : List Token} (h : ∀ t ∈ ts, Text.IsWord t.text.toList) :
    '\r' ∉ (render (ts.map tokenRecord)).toList := by
  rw [toList_render]
  refine Text.return_not_mem_lines ?_
  rw [List.map_map, List.forall_mem_map]
  exact fun t ht => tokenRecord_not_isLineBoundary (h t ht)

/-- A ledger of tokens that are words is read without a warning, and yields the tokens without their
lines. -/
theorem read_render_tokenRecord {ts : List Token} (h : ∀ t ∈ ts, Text.IsWord t.text.toList) :
    read (render (ts.map tokenRecord)) = (ts.map fun t => { t with line := 0 }, []) := by
  have hlines : Text.recordLines (render (ts.map tokenRecord)).toList =
      ts.map fun t => (tokenRecord t).toList := by
    rw [toList_render, List.map_map]
    refine Text.recordLines_of_lines ?_
    rw [List.forall_mem_map]
    exact fun t ht => tokenRecord_not_isLineBoundary (h t ht)
  rw [read, readLines, hlines]
  clear hlines
  generalize 1 = k
  induction ts generalizing k with
  | nil => rfl
  | cons t ts ih =>
    obtain ⟨ht, hts⟩ := List.forall_mem_cons.1 h
    have hline : readLine (tokenRecord t).toList = .token { t with line := 0 } := by
      rw [readLine, readRecord?_tokenRecord ht]
    have ih := Prod.mk.inj (ih hts (k + 1))
    rw [List.map_cons, List.zipIdx_cons, List.map_cons, List.filterMap_cons, List.filterMap_cons,
      hline]
    exact Prod.ext (congrArg (_ :: ·) ih.1) ih.2

end Ledger

end PocketPascal
