import Mathlib.Data.Nat.Digits.Defs
import PocketPascal.Proofs.LedgerRoundTrip
import PocketPascal.Proofs.MaximalMunch

/-! # The format of a token ledger

What a token ledger records, said without a reader. A text is cut into lines at the line boundaries
of Unicode; a line records a token if it is two fields with blanks around them, the second of which
is a numeral that writes the code of a kind. Every line is such a record, or blank, or warned of, so
the tokens, the warnings and the blank lines together are as many as the lines.
-/

namespace PocketPascal

namespace Text

/-! ## Lines -/

/-- What ends a line before `rest`. A carriage return and the line feed behind it end one line
together. -/
inductive EndsLine : List Char → List Char → Prop where
  | pair {rest : List Char} : EndsLine ['\r', '\n'] rest
  | boundary {c : Char} {rest : List Char} (hc : isLineBoundary c = true)
      (hpair : c = '\r' → rest.head? ≠ some '\n') : EndsLine [c] rest

/-- A text consists of lines. Each of them is ended, but the last one need not be unless it is
empty. -/
inductive Lined : List Char → List (List Char) → Prop where
  | done : Lined [] []
  | last {line : List Char} (hne : line ≠ [])
      (hline : ∀ c ∈ line, isLineBoundary c = false) : Lined line [line]
  | next {line ending rest : List Char} {lines : List (List Char)}
      (hline : ∀ c ∈ line, isLineBoundary c = false) (hend : EndsLine ending rest)
      (h : Lined rest lines) : Lined (line ++ (ending ++ rest)) (line :: lines)

section Lines

variable {line ending rest : List Char} {lines : List (List Char)}

theorem return_not_mem (h : ∀ c ∈ line, isLineBoundary c = false) : '\r' ∉ line :=
  fun hmem => absurd (h _ hmem) (by decide)

theorem joinReturns_append (h : '\r' ∉ line) (rest : List Char) :
    joinReturns (line ++ rest) = line ++ joinReturns rest := by
  induction line with
  | nil => rfl
  | cons c line ih =>
    rw [List.mem_cons, not_or] at h
    rw [List.cons_append, joinReturns, if_neg (fun hr => h.1 hr.1.symm), ih h.2, List.cons_append]

/-- Of what ends a line, one line boundary is left. -/
theorem EndsLine.joinReturns_eq (h : EndsLine ending rest) :
    ∃ c, isLineBoundary c = true ∧ joinReturns (ending ++ rest) = c :: joinReturns rest := by
  cases h with
  | pair =>
    refine ⟨'\n', by decide, ?_⟩
    rw [List.cons_append, List.singleton_append, joinReturns, if_pos ⟨rfl, rfl⟩, joinReturns,
      if_neg (by simp)]
  | @boundary c _ hc hpair =>
    refine ⟨c, hc, ?_⟩
    rw [List.singleton_append, joinReturns, if_neg (fun hr => hpair hr.1 hr.2)]

theorem recordLines_of_last (hne : line ≠ []) (h : ∀ c ∈ line, isLineBoundary c = false) :
    recordLines line = [line] := by
  simp only [recordLines, joinReturns_eq_self (return_not_mem h), List.splitOnP_eq_singleton h,
    List.getLast?_singleton, Option.some.injEq, if_neg hne]

theorem recordLines_of_next (hline : ∀ c ∈ line, isLineBoundary c = false)
    (hend : EndsLine ending rest) :
    recordLines (line ++ (ending ++ rest)) = line :: recordLines rest := by
  obtain ⟨c, hc, hjoin⟩ := hend.joinReturns_eq
  have hpieces : (joinReturns (line ++ (ending ++ rest))).splitOnP isLineBoundary =
      line :: (joinReturns rest).splitOnP isLineBoundary := by
    rw [joinReturns_append (return_not_mem hline), hjoin,
      List.splitOnP_append_cons_of_forall_mem hline c hc]
  have hne := List.splitOnP_ne_nil isLineBoundary (joinReturns rest)
  simp only [recordLines, hpieces]
  generalize (joinReturns rest).splitOnP isLineBoundary = pieces at hne ⊢
  obtain ⟨piece, pieces, rfl⟩ := List.exists_cons_of_ne_nil hne
  rw [List.getLast?_cons_cons, List.dropLast_cons_of_ne_nil hne]
  split <;> rfl

/-- A line boundary ends a line by itself, or with the line feed behind it. -/
theorem exists_endsLine {c : Char} (hc : isLineBoundary c = true) (cs : List Char) :
    ∃ ending rest, c :: cs = ending ++ rest ∧ EndsLine ending rest := by
  by_cases hpair : c = '\r' ∧ cs.head? = some '\n'
  · obtain ⟨rfl, hhead⟩ := hpair
    obtain ⟨rest, rfl⟩ := List.head?_eq_some_iff.1 hhead
    exact ⟨['\r', '\n'], rest, rfl, .pair⟩
  · exact ⟨[c], cs, rfl, .boundary hc fun hr hhead => hpair ⟨hr, hhead⟩⟩

/-- Every text consists of the lines that it is cut into. -/
theorem lined_recordLines (cs : List Char) : Lined cs (recordLines cs) := by
  induction h : cs.length using Nat.strong_induction_on generalizing cs with
  | _ n ih =>
    -- the first line goes up to the first line boundary
    let line := cs.takeWhile fun c => !isLineBoundary c
    have hline : ∀ c ∈ line, isLineBoundary c = false := fun c hc => by
      simpa using List.mem_takeWhile_imp hc
    have hcs : cs = line ++ cs.dropWhile fun c => !isLineBoundary c :=
      List.takeWhile_append_dropWhile.symm
    cases hrest : cs.dropWhile fun c => !isLineBoundary c with
    | nil =>
      rw [hrest, List.append_nil] at hcs
      rw [hcs]
      by_cases hne : line = []
      · rw [hne]
        exact .done
      · rw [recordLines_of_last hne hline]
        exact .last hne hline
    | cons c after =>
      have hc : isLineBoundary c = true := by
        have hhead := List.head?_dropWhile_not (fun c => !isLineBoundary c) cs
        rw [hrest] at hhead
        simpa using hhead
      obtain ⟨ending, rest, hafter, hend⟩ := exists_endsLine hc after
      rw [hrest, hafter] at hcs
      rw [hcs, recordLines_of_next hline hend]
      refine .next hline hend (ih rest.length ?_ rest rfl)
      rw [← h, hcs, List.length_append, List.length_append]
      cases hend <;> simp only [List.length_cons, List.length_nil] <;> omega

/-- The lines of a text are those that it consists of. -/
theorem recordLines_eq_iff {cs : List Char} : recordLines cs = lines ↔ Lined cs lines := by
  constructor
  · rintro rfl
    exact lined_recordLines cs
  · intro h
    induction h with
    | done => rfl
    | last hne hline => exact recordLines_of_last hne hline
    | next hline hend _ ih => rw [recordLines_of_next hline hend, ih]

end Lines

/-! ## Fields -/

section Words

variable {before cs rest w : List Char} {ws : List (List Char)}

theorem words_blanks_append (h : ∀ c ∈ before, isBlank c = true) (cs : List Char) :
    words (before ++ cs) = words cs := by
  induction before with
  | nil => rfl
  | cons c before ih =>
    obtain ⟨hc, hbefore⟩ := List.forall_mem_cons.1 h
    rw [List.cons_append, words_cons_blank hc, ih hbefore]

theorem words_of_blanks (h : ∀ c ∈ cs, isBlank c = true) : words cs = [] := by
  rw [← List.append_nil cs, words_blanks_append h]
  rfl

/-- A word goes up to the next blank. -/
theorem words_append_of_head (hw : IsWord w) (h : ∀ c ∈ rest.head?, isBlank c = true) :
    words (w ++ rest) = w :: words rest := by
  cases rest with
  | nil =>
    rw [List.append_nil, hw.words_eq]
    rfl
  | cons c rest =>
    have hc := h c rfl
    rw [words_append_blank hc, words_cons_blank hc, hw.words_eq, List.singleton_append]

/-- A text without words is blank, and any other one begins with its first word, up to blanks. -/
theorem blanks_or_word (cs : List Char) : (∀ c ∈ cs, isBlank c = true) ∨
    ∃ before w rest, cs = before ++ (w ++ rest) ∧ (∀ c ∈ before, isBlank c = true) ∧ IsWord w ∧
      ∀ c ∈ rest.head?, isBlank c = true := by
  have hcs : cs = cs.takeWhile isBlank ++ cs.dropWhile isBlank :=
    List.takeWhile_append_dropWhile.symm
  have hbefore : ∀ c ∈ cs.takeWhile isBlank, isBlank c = true := fun c hc =>
    List.mem_takeWhile_imp hc
  cases hfront : cs.dropWhile isBlank with
  | nil =>
    rw [hfront, List.append_nil] at hcs
    exact Or.inl (hcs ▸ hbefore)
  | cons c after =>
    have hc : isBlank c = false := by
      have hhead := List.head?_dropWhile_not isBlank cs
      rw [hfront] at hhead
      simpa using hhead
    have hword : IsWord (c :: after.takeWhile fun c => !isBlank c) := by
      refine ⟨List.cons_ne_nil _ _, List.forall_mem_cons.2 ⟨hc, fun d hd => ?_⟩⟩
      simpa using List.mem_takeWhile_imp hd
    refine Or.inr ⟨cs.takeWhile isBlank, _, after.dropWhile fun c => !isBlank c, ?_, hbefore,
      hword, fun d hd => ?_⟩
    · rw [List.cons_append, List.takeWhile_append_dropWhile, ← hfront]
      exact hcs
    · have hhead := List.head?_dropWhile_not (fun c => !isBlank c) after
      rw [Option.mem_def.1 hd] at hhead
      simpa using hhead

theorem words_eq_nil_iff : words cs = [] ↔ ∀ c ∈ cs, isBlank c = true := by
  refine ⟨fun h => (blanks_or_word cs).resolve_right ?_, words_of_blanks⟩
  rintro ⟨before, w, rest, rfl, hbefore, hw, hrest⟩
  rw [words_blanks_append hbefore, words_append_of_head hw hrest] at h
  cases h

theorem words_eq_cons_iff : words cs = w :: ws ↔
    ∃ before rest, cs = before ++ (w ++ rest) ∧ (∀ c ∈ before, isBlank c = true) ∧ IsWord w ∧
      (∀ c ∈ rest.head?, isBlank c = true) ∧ words rest = ws := by
  constructor
  · intro h
    rcases blanks_or_word cs with hblank | ⟨before, w', rest, rfl, hbefore, hw', hrest⟩
    · rw [words_of_blanks hblank] at h
      cases h
    · rw [words_blanks_append hbefore, words_append_of_head hw' hrest] at h
      cases h
      exact ⟨before, rest, rfl, hbefore, hw', hrest, rfl⟩
  · rintro ⟨before, rest, rfl, hbefore, hw, hrest, rfl⟩
    rw [words_blanks_append hbefore, words_append_of_head hw hrest]

end Words

/-- A line consists of two fields with blanks between them, and maybe before and after them. -/
structure Fields (line value code : List Char) : Prop where
  value_isWord : IsWord value
  code_isWord : IsWord code
  layout : ∃ before gap after, line = before ++ (value ++ (gap ++ (code ++ after))) ∧ gap ≠ [] ∧
    ∀ c ∈ before ++ gap ++ after, isBlank c = true

theorem words_eq_pair_iff {line value code : List Char} :
    words line = [value, code] ↔ Fields line value code := by
  constructor
  · intro h
    obtain ⟨before, rest, rfl, hbefore, hvalue, hrest, h⟩ := words_eq_cons_iff.1 h
    obtain ⟨gap, after, rfl, hgap, hcode, -, h⟩ := words_eq_cons_iff.1 h
    refine ⟨hvalue, hcode, before, gap, after, rfl, ?_, ?_⟩
    · rintro rfl
      -- the code would be read on from the value
      obtain ⟨c, code, rfl⟩ := List.exists_cons_of_ne_nil hcode.ne_nil
      exact absurd (hrest c rfl) (by rw [hcode.not_blank c List.mem_cons_self]; decide)
    · rw [List.forall_mem_append, List.forall_mem_append]
      exact ⟨⟨hbefore, hgap⟩, words_eq_nil_iff.1 h⟩
  · rintro ⟨hvalue, hcode, before, gap, after, rfl, hne, hblank⟩
    rw [List.forall_mem_append, List.forall_mem_append] at hblank
    obtain ⟨⟨hbefore, hgap⟩, hafter⟩ := hblank
    obtain ⟨c, gap, rfl⟩ := List.exists_cons_of_ne_nil hne
    have hc := hgap c List.mem_cons_self
    rw [words_blanks_append hbefore, words_append_of_head hvalue (by simpa using hc),
      words_blanks_append hgap, words_append_of_head hcode, words_of_blanks hafter]
    exact fun d hd => hafter d (List.mem_of_mem_head? hd)

/-! ## Numerals -/

/-- Decimal digits of any script, at least one and not too many, write a number. -/
structure Denotes (digits : List Char) (n : Nat) : Prop where
  ne_nil : digits ≠ []
  length_le : digits.length ≤ maxDigits
  value : ∃ ds, digits.mapM digitValue? = some ds ∧ n = Nat.ofDigits 10 ds.reverse

theorem ofDigits_eq (ds : List Nat) : ofDigits ds = Nat.ofDigits 10 ds.reverse := by
  rw [Nat.ofDigits_eq_foldr, List.foldr_reverse, ofDigits]
  simp only [Nat.cast_id, Nat.add_comm]

theorem readNumeral?_eq_some_iff {cs : List Char} {n : Nat} :
    readNumeral? cs = some n ↔ Denotes cs n := by
  rw [readNumeral?]
  split
  · next hrefused =>
    refine ⟨fun h => (by cases h), fun h => ?_⟩
    rw [Bool.or_eq_true, List.isEmpty_iff, decide_eq_true_eq] at hrefused
    exact (hrefused.elim h.ne_nil (Nat.not_lt.2 h.length_le)).elim
  · next haccepted =>
    rw [Bool.or_eq_true, List.isEmpty_iff, decide_eq_true_eq, not_or, Nat.not_lt] at haccepted
    simp only [Option.map_eq_some_iff, ofDigits_eq]
    constructor
    · rintro ⟨ds, hds, rfl⟩
      exact ⟨haccepted.1, haccepted.2, ds, hds, rfl⟩
    · rintro ⟨-, -, ds, hds, rfl⟩
      exact ⟨ds, hds, rfl⟩

end Text

namespace Ledger

/-! ## Records -/

/-- A line records a token: two fields, the first of which is its text, and the second writes the
code of its kind. It does not say on which line the token stood. -/
structure Records (line : List Char) (t : Token) : Prop where
  fields : ∃ code n, Text.Fields line t.text.toList code ∧ Text.Denotes code n ∧ 1 ≤ n ∧ n ≤ 25 ∧
    t.kind.code = n
  line_eq : t.line = 0

section Records

variable {line : List Char} {t : Token}

theorem code_bounds (k : Kind) : 1 ≤ k.code ∧ k.code ≤ 25 := by
  cases k <;> decide

theorem readRecord?_eq_some_iff : readRecord? line = some t ↔ Records line t := by
  constructor
  · intro h
    rw [readRecord?] at h
    split at h
    · next value code hwords =>
      split at h
      · next kind hkind =>
        cases h
        obtain ⟨n, hn, hcode⟩ := Option.bind_eq_some_iff.1 hkind
        have hcode := Kind.code_of_ofCode? hcode
        obtain ⟨hlow, hhigh⟩ := code_bounds kind
        refine ⟨⟨code, n, ?_, Text.readNumeral?_eq_some_iff.1 hn, ?_, ?_, hcode⟩, rfl⟩
        · rw [String.toList_ofList]
          exact Text.words_eq_pair_iff.1 hwords
        · exact hcode ▸ hlow
        · exact hcode ▸ hhigh
      · cases h
    · cases h
  · rintro ⟨⟨code, n, hfields, hnumeral, -, -, rfl⟩, hline⟩
    simp only [readRecord?, Text.words_eq_pair_iff.2 hfields,
      Text.readNumeral?_eq_some_iff.2 hnumeral, Option.bind_some, Kind.ofCode?_code,
      String.ofList_toList, ← hline]

/-- A line that records a token is not blank. -/
theorem Records.not_blank (h : Records line t) : ¬ ∀ c ∈ line, Text.isBlank c = true := by
  intro hblank
  obtain ⟨code, -, hfields, -⟩ := h.fields
  have hwords := Text.words_eq_pair_iff.2 hfields
  rw [Text.words_of_blanks hblank] at hwords
  cases hwords

theorem readLine_of_records (h : Records line t) : readLine line = .token t := by
  rw [readLine, readRecord?_eq_some_iff.2 h]

theorem readRecord?_of_none (h : ∀ t, ¬ Records line t) : readRecord? line = none :=
  Option.eq_none_iff_forall_ne_some.2 fun t ht => h t (readRecord?_eq_some_iff.1 ht)

theorem readLine_of_blank (h : ∀ c ∈ line, Text.isBlank c = true) : readLine line = .blank := by
  rw [readLine, readRecord?_of_none fun t ht => ht.not_blank h]
  exact if_pos (List.all_eq_true.2 h)

theorem readLine_of_malformed (h : ∀ t, ¬ Records line t)
    (hblank : ¬ ∀ c ∈ line, Text.isBlank c = true) : readLine line = .malformed := by
  rw [readLine, readRecord?_of_none h]
  exact if_neg (mt List.all_eq_true.1 hblank)

end Records

/-! ## Whole ledgers -/

/-- What lines, the first one having number `k`, yield: a record its token, a blank line nothing,
and any other line a warning. -/
inductive Accounts : Nat → List (List Char) → List Token → List Warning → Prop where
  | done {k : Nat} : Accounts k [] [] []
  | token {k : Nat} {line : List Char} {lines : List (List Char)} {t : Token} {ts : List Token}
      {ws : List Warning} (hline : Records line t) (h : Accounts (k + 1) lines ts ws) :
      Accounts k (line :: lines) (t :: ts) ws
  | blank {k : Nat} {line : List Char} {lines : List (List Char)} {ts : List Token}
      {ws : List Warning} (hline : ∀ c ∈ line, Text.isBlank c = true)
      (h : Accounts (k + 1) lines ts ws) : Accounts k (line :: lines) ts ws
  | warning {k : Nat} {line : List Char} {lines : List (List Char)} {ts : List Token}
      {ws : List Warning} (hno : ∀ t, ¬ Records line t)
      (hblank : ¬ ∀ c ∈ line, Text.isBlank c = true) (h : Accounts (k + 1) lines ts ws) :
      Accounts k (line :: lines) ts ({ number := k, line := String.ofList line } :: ws)

section Accounts

variable {k : Nat} {lines : List (List Char)} {ts : List Token} {ws : List Warning}

/-- The token that a line of a ledger yields. -/
def LineReading.token? : LineReading → Option Token
  | token t => some t
  | _ => none

/-- The warning that a line of a ledger yields. -/
def warning? (line : List Char) (number : Nat) : LineReading → Option Warning
  | .malformed => some { number, line := String.ofList line }
  | _ => none

/-- What lines are read as, the first one having number `k`. -/
def readFrom (k : Nat) (lines : List (List Char)) : List Token × List Warning :=
  let read := (lines.zipIdx k).map fun line => (line, readLine line.1)
  (read.filterMap fun (_, r) => r.token?, read.filterMap fun ((line, n), r) => warning? line n r)

theorem read_eq_readFrom (text : String) : read text = readFrom 1 (Text.recordLines text.toList) :=
  rfl

theorem readFrom_cons (k : Nat) (line : List Char) (lines : List (List Char)) :
    readFrom k (line :: lines) =
      ((readLine line).token?.toList ++ (readFrom (k + 1) lines).1,
        (warning? line k (readLine line)).toList ++ (readFrom (k + 1) lines).2) := by
  simp only [readFrom, List.zipIdx_cons, List.map_cons, List.filterMap_cons]
  cases readLine line <;> rfl

/-- What lines are read as is what they yield. -/
theorem readFrom_eq_iff : readFrom k lines = (ts, ws) ↔ Accounts k lines ts ws := by
  constructor
  · intro h
    induction lines generalizing k ts ws with
    | nil =>
      cases h
      exact .done
    | cons line lines ih =>
      rw [readFrom_cons] at h
      by_cases hrecord : ∃ t, Records line t
      · obtain ⟨t, ht⟩ := hrecord
        rw [readLine_of_records ht] at h
        cases h
        exact .token ht (ih rfl)
      have hno := not_exists.1 hrecord
      by_cases hblank : ∀ c ∈ line, Text.isBlank c = true
      · rw [readLine_of_blank hblank] at h
        cases h
        exact .blank hblank (ih rfl)
      · rw [readLine_of_malformed hno hblank] at h
        cases h
        exact .warning hno hblank (ih rfl)
  · intro h
    induction h with
    | done => rfl
    | token hline _ ih =>
      rw [readFrom_cons, readLine_of_records hline, ih]
      rfl
    | blank hline _ ih =>
      rw [readFrom_cons, readLine_of_blank hline, ih]
      rfl
    | warning hno hblank _ ih =>
      rw [readFrom_cons, readLine_of_malformed hno hblank, ih]
      rfl

/-- Every token is recorded by one of the lines. -/
theorem Accounts.exists_records (h : Accounts k lines ts ws) :
    ∀ t ∈ ts, ∃ line ∈ lines, Records line t := by
  induction h with
  | done => exact List.forall_mem_nil _
  | token hline _ ih =>
    refine List.forall_mem_cons.2 ⟨⟨_, List.mem_cons_self, hline⟩, fun t ht => ?_⟩
    obtain ⟨line, hmem, hline⟩ := ih t ht
    exact ⟨line, List.mem_cons_of_mem _ hmem, hline⟩
  | blank _ _ ih | warning _ _ _ ih =>
    intro t ht
    obtain ⟨line, hmem, hline⟩ := ih t ht
    exact ⟨line, List.mem_cons_of_mem _ hmem, hline⟩

/-- Every line is a record, warned of, or blank. -/
theorem Accounts.length_eq (h : Accounts k lines ts ws) :
    lines.length = ts.length + ws.length + lines.countP fun line => line.all Text.isBlank := by
  induction h with
  | done => rfl
  | @token _ line _ _ _ _ hline _ ih =>
    have hall : line.all Text.isBlank = false :=
      Bool.eq_false_iff.2 (mt List.all_eq_true.1 hline.not_blank)
    simp only [List.countP_cons, List.length_cons, hall, ih, Bool.false_eq_true, if_false]
    omega
  | @blank _ line _ _ _ hline _ ih =>
    have hall : line.all Text.isBlank = true := List.all_eq_true.2 hline
    simp only [List.countP_cons, List.length_cons, hall, ih, if_true]
    omega
  | @warning _ line _ _ _ _ hblank _ ih =>
    have hall : line.all Text.isBlank = false := Bool.eq_false_iff.2 (mt List.all_eq_true.1 hblank)
    simp only [List.countP_cons, List.length_cons, hall, ih, Bool.false_eq_true, if_false]
    omega

end Accounts

/-- A ledger is read as what the lines of its text yield, and as nothing else. These lines are the
only ones that the text consists of, and each is a record, warned of, or blank. -/
theorem read_accounts (text : String) :
    ∃ lines, (∀ lines', Text.Lined text.toList lines' ↔ lines' = lines) ∧
      (∀ ts ws, read text = (ts, ws) ↔ Accounts 1 lines ts ws) ∧
      lines.length = (read text).1.length + (read text).2.length +
        lines.countP fun line => line.all Text.isBlank := by
  refine ⟨Text.recordLines text.toList, fun lines' => ?_, fun ts ws => ?_, ?_⟩
  · rw [← Text.recordLines_eq_iff, eq_comm]
  · rw [read_eq_readFrom, readFrom_eq_iff]
  · exact (readFrom_eq_iff.1 rfl : Accounts 1 (Text.recordLines text.toList) _ _).length_eq

end Ledger

end PocketPascal
