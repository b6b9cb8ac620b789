import PocketPascal.Proofs.MaximalMunch
import PocketPascal.Proofs.RecordFields
import PocketPascal.Proofs.Wording

/-! # Errors are read back from their records

What is said about an error quotes a piece of a source line, or the text of a token, between words
of its own. So it stays on one line, and as it never closes with a bracket, it cannot be taken for
the message of a fatal error. From the record of an error its line, its message and whether it is
fatal are told; only its category is lost.
-/

namespace PocketPascal

namespace Text

/-! ## Texts on one line -/

/-- A text that holds no line feed. -/
def Unbroken (cs : List Char) : Prop :=
  '\n' ∉ cs

instance (cs : List Char) : Decidable (Unbroken cs) :=
  inferInstanceAs (Decidable (¬ _))

@[simp] theorem unbroken_append {cs ds : List Char} :
    Unbroken (cs ++ ds) ↔ Unbroken cs ∧ Unbroken ds := by
  simp [Unbroken]

@[simp] theorem unbroken_cons {c : Char} {cs : List Char} :
    Unbroken (c :: cs) ↔ c ≠ '\n' ∧ Unbroken cs := by
  simp [Unbroken, eq_comm]

theorem IsWord.unbroken {cs : List Char} (h : IsWord cs) : Unbroken cs :=
  fun hmem => absurd (h.not_blank _ hmem) (by decide)

@[simp] theorem unbroken_toString (i : Int) : Unbroken (toString i).toList :=
  (isWord_toString i).unbroken

/-- No number holds a colon. -/
theorem ne_colon_of_mem_toString {i : Int} : ∀ c ∈ (toString i).toList, c ≠ ':' := by
  have hdigits : ∀ n : Nat, ∀ c ∈ n.repr.toList, c ≠ ':' := by
    rintro n c hc rfl
    rw [Nat.repr_eq_ofList_toDigits, String.toList_ofList] at hc
    exact absurd (Nat.isDigit_of_mem_toDigits (by decide) (by decide) hc) (by decide)
  rw [Int.toString_eq_repr, Int.repr_eq_if]
  split
  · exact hdigits _
  · rw [String.toList_append]
    exact List.forall_mem_append.2 ⟨by simp, hdigits _⟩

end Text

open Text (Unbroken)

/-! ## Messages -/

/-- A message as all that are ever said: on one line, and not closed by a bracket. -/
structure IsLegible (message : String) : Prop where
  unbroken : Unbroken message.toList
  last : message.toList.getLast? ≠ some ']'

theorem isLegible_iff {message : String} :
    IsLegible message ↔ Unbroken message.toList ∧ message.toList.getLast? ≠ some ']' :=
  ⟨fun h => ⟨h.unbroken, h.last⟩, fun h => ⟨h.1, h.2⟩⟩

instance (message : String) : Decidable (IsLegible message) :=
  decidable_of_iff _ isLegible_iff.symm

theorem unbroken_toList_append {a b : String} (ha : Unbroken a.toList) (hb : Unbroken b.toList) :
    Unbroken (a ++ b).toList := by
  rw [String.toList_append]
  exact Text.unbroken_append.2 ⟨ha, hb⟩

/-- It does not matter what a message begins with, as long as that breaks no line. -/
theorem IsLegible.append {before after : String} (hbefore : Unbroken before.toList)
    (hafter : IsLegible after) (hne : after.toList ≠ []) : IsLegible (before ++ after) where
  unbroken := unbroken_toList_append hbefore hafter.unbroken
  last := by
    rw [String.toList_append, List.getLast?_append_of_ne_nil _ hne]
    exact hafter.last

theorem IsLegible.quoting {before quoted after : String} (hbefore : Unbroken before.toList)
    (hquoted : Unbroken quoted.toList) (hafter : IsLegible after) (hne : after.toList ≠ []) :
    IsLegible (before ++ quoted ++ after) :=
  .append (unbroken_toList_append hbefore hquoted) hafter hne

theorem Kind.unbroken_description (k : Kind) : Unbroken k.description.toList := by
  cases k <;> decide +kernel

namespace Parser

theorem Problem.isLegible {p : Problem} (h : ∀ w ∈ p.quoted?, Unbroken w.toList) :
    IsLegible p.message := by
  have hexpect (k : Kind) : Unbroken ("Expect " ++ k.description ++ ", but got '").toList :=
    unbroken_toList_append (unbroken_toList_append (by decide +kernel) k.unbroken_description)
      (by decide +kernel)
  cases p with
  | unmatchedParen => exact of_decide_eq_true (by decide +kernel)
  | unexpected wanted found =>
    exact .quoting (hexpect wanted) (h _ rfl) (by decide +kernel) (by decide +kernel)
  | _ => exact .quoting (by decide +kernel) (h _ rfl) (by decide +kernel) (by decide +kernel)

theorem Abort.isLegible {reason : Abort} (h : ∀ w ∈ reason.quoted?, Unbroken w.toList) :
    IsLegible reason.message := by
  cases reason with
  | notAStatement found =>
    have hquoted : Unbroken ("Expect executions, but got '" ++ found ++ "'. ").toList :=
      unbroken_toList_append (unbroken_toList_append (by decide +kernel) (h _ rfl))
        (by decide +kernel)
    exact .append hquoted (by decide +kernel) (by decide +kernel)
  | tooNested limit =>
    exact .quoting (by decide +kernel) (Text.unbroken_toString limit) (by decide +kernel)
      (by decide +kernel)
  | exhausted => exact of_decide_eq_true (by decide +kernel)

end Parser

namespace Lexer

theorem Rejects.isLegible {limit : Int} {text rest : List Char} {message : String}
    (h : Rejects limit text message rest) (htext : Unbroken text) : IsLegible message := by
  cases h with
  | overlong =>
    have hname : Unbroken ("Identifier '" ++ String.ofList text).toList :=
      unbroken_toList_append (by decide +kernel) (by rwa [String.toList_ofList])
    exact .quoting (unbroken_toList_append hname (by decide +kernel))
      (Text.unbroken_toString limit) (by decide +kernel) (by decide +kernel)
  | colon | lastColon => exact of_decide_eq_true (by decide +kernel)
  | @invalid a =>
    have hquoted : Unbroken (toString a).toList := by
      rwa [show (toString a).toList = [a] from String.toList_singleton a]
    exact .quoting (by decide +kernel) hquoted (by decide +kernel) (by decide +kernel)

theorem Cut.isLegible {limit : Int} {number : Nat} {cs : List Char} {ts : List Token}
    {ds : List Diagnostic} (h : Cut limit number cs ts ds) (hcs : Unbroken cs) :
    ∀ d ∈ ds, IsLegible d.message := by
  induction h with
  | done => exact List.forall_mem_nil _
  | space _ ih => exact ih fun hmem => hcs (List.mem_cons_of_mem _ hmem)
  | lexeme _ _ ih => exact ih (Text.unbroken_append.1 hcs).2
  | error hm _ ih =>
    obtain ⟨htext, hrest⟩ := Text.unbroken_append.1 hcs
    exact List.forall_mem_cons.2 ⟨hm.isLegible htext, ih hrest⟩

theorem Strips.unbroken {line text : List Char} (h : Strips line text) (hline : Unbroken line) :
    Unbroken text := by
  obtain ⟨before, after, hcut, -, -⟩ := h.cut
  have hmap : Unbroken (line.map fun c => if c = '\t' then ' ' else c) := by
    intro hmem
    obtain ⟨c, hc, hc'⟩ := List.mem_map.1 hmem
    split at hc'
    · exact absurd hc' (by decide)
    · exact hline (hc' ▸ hc)
  rw [hcut, Text.unbroken_append, Text.unbroken_append] at hmap
  exact hmap.1.2

theorem LexesFrom.isLegible {limit : Int} {k : Nat} {lines : List (List Char)} {ts : List Token}
    {ds : List Diagnostic} (h : LexesFrom limit k lines ts ds)
    (hlines : ∀ line ∈ lines, Unbroken line) : ∀ d ∈ ds, IsLegible d.message := by
  induction h with
  | done => exact List.forall_mem_nil _
  | blank _ _ ih => exact ih (List.forall_mem_cons.1 hlines).2
  | line hline _ hcut _ ih =>
    obtain ⟨hunbroken, hrest⟩ := List.forall_mem_cons.1 hlines
    exact List.forall_mem_append.2 ⟨hcut.isLegible (hline.unbroken hunbroken), ih hrest⟩

end Lexer

/-- What is rejected stands on a source line, and so does what is said about it. -/
theorem isLegible_of_mem_tokenize {limit : Int} {source : String} {d : Diagnostic}
    (h : d ∈ (tokenize limit source).2) : IsLegible d.message := by
  obtain ⟨lines, -, hlines, -, hlexes⟩ := (tokenize_eq_iff_lexes limit source _ _).1 rfl
  exact hlexes.isLegible hlines d h

/-- A parse quotes texts of tokens, and so it says nothing that breaks a line if these do not. -/
theorem isLegible_of_mem_parse {n : Parser.Nesting} {tokens : List Token}
    (htokens : ∀ t ∈ tokens, Unbroken t.text.toList) {d : Diagnostic}
    (h : d ∈ (parse n tokens).errors) : IsLegible d.message := by
  have hfile : Unbroken Token.endOfFile.text.toList := by decide
  rcases Parser.quotes_parse (W := fun w => Unbroken w.toList) hfile htokens d h with
    ⟨p, hp, -, hmessage⟩ | ⟨reason, line, hreason, rfl⟩
  · exact hmessage ▸ p.isLegible hp
  · exact reason.isLegible hreason

/-! ## Records -/

namespace Ledger

/-- What a record of an error begins with. -/
def lineMark : List Char :=
  "Line ".toList

/-- How fatal errors are marked. -/
def fatalMark : List Char :=
  " [FATAL]".toList

/-- A message without the mark of fatal errors, and whether it had one. -/
def unmark (said : List Char) : String × Bool :=
  if fatalMark <:+ said then (String.ofList (said.take (said.length - fatalMark.length)), true)
  else (String.ofList said, false)

/-- The line and the message of the error that a line records, and whether it is fatal. -/
def readError? (line : List Char) : Option (Int × String × Bool) :=
  let number := (line.drop lineMark.length).takeWhile (· ≠ ':')
  (String.ofList number).toInt?.map fun n =>
    (n, unmark ((line.drop lineMark.length).drop (number.length + 2)))

theorem unmark_append (said : List Char) :
    unmark (said ++ fatalMark) = (String.ofList said, true) := by
  rw [unmark, if_pos (List.suffix_append _ _), List.length_append, Nat.add_sub_cancel,
    List.take_left]

theorem unmark_of_last {said : List Char} (h : said.getLast? ≠ some ']') :
    unmark said = (String.ofList said, false) := by
  rw [unmark, if_neg]
  rintro ⟨before, rfl⟩
  refine h ((List.getLast?_append_of_ne_nil before (by decide +kernel)).trans ?_)
  decide +kernel

/-- Behind the number stand a colon and a space, and then what is said. -/
theorem readError?_append {number : List Char} (h : ∀ c ∈ number, c ≠ ':') (said : List Char) :
    readError? (lineMark ++ (number ++ ':' :: ' ' :: said)) =
      (String.ofList number).toInt?.map fun n => (n, unmark said) := by
  have hnumber : (number ++ ':' :: ' ' :: said).takeWhile (· ≠ ':') = number := by
    rw [List.takeWhile_append_of_pos (by simpa using h), List.takeWhile_cons_of_neg (by simp),
      List.append_nil]
  rw [readError?, List.drop_left, hnumber, ← List.drop_drop, List.drop_left]
  rfl

theorem toList_errorRecord (d : Diagnostic) :
    (errorRecord d).toList = lineMark ++ ((toString d.line).toList ++
      ':' :: ' ' :: (d.message.toList ++ if d.fatal then fatalMark else [])) := by
  have hrecord : errorRecord d = "Line " ++ toString d.line ++ ": " ++ d.message ++
    if d.fatal then " [FATAL]" else "" := rfl
  have hcolon : ": ".toList = [':', ' '] := by decide +kernel
  rw [hrecord]
  simp only [String.toList_append, List.append_assoc, apply_ite String.toList, hcolon]
  rfl

theorem readError?_errorRecord {d : Diagnostic} (h : IsLegible d.message) :
    readError? (errorRecord d).toList = some (d.line, d.message, d.fatal) := by
  have hunmark : unmark (d.message.toList ++ if d.fatal then fatalMark else []) =
      (d.message, d.fatal) := by
    cases d.fatal with
    | true => rw [if_pos rfl, unmark_append, String.ofList_toList]
    | false =>
      rw [if_neg (by decide), List.append_nil, unmark_of_last h.last, String.ofList_toList]
  rw [toList_errorRecord, readError?_append Text.ne_colon_of_mem_toString, hunmark,
    String.ofList_toList, Text.toInt?_toString]
  rfl

end Ledger

end PocketPascal
