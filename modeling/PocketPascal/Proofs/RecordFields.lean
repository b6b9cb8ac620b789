import Mathlib
import PocketPascal.Proofs.LedgerRoundTrip

/-! # Variables and procedures are read back from their records

A record is cut into its fields at the blanks between them, so each field has to be a word. Numbers
are words however they are signed and however long they are, and from the words of a record the
variable or the procedure is put together again.
-/

namespace PocketPascal

namespace Text

/-! ## Numbers -/

theorem not_isBlank_of_isDigit {c : Char} (h : c.isDigit = true) : isBlank c = false := by
  have hbounds : 48 ≤ c.toNat ∧ c.toNat ≤ 57 := by
    simpa [Char.isDigit, UInt32.le_iff_toNat_le] using h
  rw [← Bool.not_eq_true, isBlank]
  simp only [Bool.or_eq_true, Bool.and_eq_true, decide_eq_true_eq, beq_iff_eq]
  omega

theorem isWord_repr (n : Nat) : IsWord n.repr.toList := by
  rw [Nat.repr_eq_ofList_toDigits, String.toList_ofList]
  refine ⟨Nat.toDigits_ne_nil, fun c hc => ?_⟩
  exact not_isBlank_of_isDigit (Nat.isDigit_of_mem_toDigits (by decide) (by decide) hc)

theorem isWord_toString (i : Int) : IsWord (toString i).toList := by
  rw [Int.toString_eq_repr, Int.repr_eq_if]
  split
  · exact isWord_repr _
  · rw [String.toList_append]
    have hsign : ∀ c ∈ "-".toList, isBlank c = false := by simp [isBlank]
    exact ⟨by simp, List.forall_mem_append.2 ⟨hsign, (isWord_repr _).not_blank⟩⟩

theorem toInt?_toString (i : Int) : (toString i).toInt? = some i := by
  rw [Int.toString_eq_repr]
  exact Int.toInt?_repr i

end Text

namespace Ledger

/-! ## Fields -/

theorem toList_joinFields_cons_cons (f f' : String) (fields : List String) :
    (joinFields (f :: f' :: fields)).toList =
      f.toList ++ ' ' :: (joinFields (f' :: fields)).toList := by
  simp [joinFields]

/-- The words of a record are those of its fields. -/
theorem words_joinFields (fields : List String) :
    Text.words (joinFields fields).toList = fields.flatMap fun f => Text.words f.toList := by
  induction fields with
  | nil => rfl
  | cons f fields ih =>
    cases fields with
    | nil => simp [joinFields]
    | cons f' fields =>
      rw [toList_joinFields_cons_cons, Text.words_append_blank rfl, ih]
      rfl

theorem words_name {name : String} (h : Text.IsWord name.toList) :
    Text.words (flushRight ' ' fieldWidth name).toList = [name.toList] := by
  rw [words_flushRight, h.words_eq]

theorem words_number (i : Int) : Text.words (toString i).toList = [(toString i).toList] :=
  (Text.isWord_toString i).words_eq

end Ledger

/-! ## Variables -/

/-- A variable whose name, owner and type are words. -/
structure Variable.IsWorded (v : Variable) : Prop where
  name : Text.IsWord v.name.toList
  owner : Text.IsWord v.owner.toList
  type : Text.IsWord v.type.toList

theorem VariableKind.read_code (k : VariableKind) :
    (toString k.code).toNat?.bind VariableKind.ofCode? = some k := by
  rw [show toString k.code = k.code.repr from rfl, Nat.toNat?_repr]
  cases k <;> rfl

namespace Ledger

/-- The variable that a line records: six words. -/
def readVariable? (line : List Char) : Option Variable :=
  match (Text.words line).map String.ofList with
  | [name, owner, kind, type, level, address] => do
    let kind ← kind.toNat?.bind VariableKind.ofCode?
    let level ← level.toInt?
    let address ← address.toInt?
    return { name, owner, kind, level, address, type }
  | _ => none

theorem words_variableRecord {v : Variable} (h : v.IsWorded) :
    Text.words (variableRecord v).toList =
      [v.name, v.owner, toString v.kind.code, v.type, toString v.level, toString v.address].map
        String.toList := by
  have hkind : Text.words (toString v.kind.code).toList = [(toString v.kind.code).toList] :=
    (Text.isWord_repr v.kind.code).words_eq
  rw [variableRecord, words_joinFields]
  simp only [List.flatMap_cons, List.flatMap_nil, words_name h.name, words_name h.owner, hkind,
    h.type.words_eq, words_number]
  rfl

theorem readVariable?_variableRecord {v : Variable} (h : v.IsWorded) :
    readVariable? (variableRecord v).toList = some v := by
  simp only [readVariable?, words_variableRecord h, List.map_cons, List.map_nil,
    String.ofList_toList, VariableKind.read_code, Text.toInt?_toString, Option.bind_eq_bind,
    Option.bind_some, Option.pure_def]

end Ledger

/-! ## Procedures -/

/-- A procedure whose name and type are words. -/
structure Procedure.IsWorded (p : Procedure) : Prop where
  name : Text.IsWord p.name.toList
  type : Text.IsWord p.type.toList

namespace Ledger

/-- The procedure that a line records: five words. -/
def readProcedure? (line : List Char) : Option Procedure :=
  match (Text.words line).map String.ofList with
  | [name, type, level, first, last] => do
    let level ← level.toInt?
    let first ← first.toInt?
    let last ← last.toInt?
    return { name, level, first, last, type }
  | _ => none

theorem words_procedureRecord {p : Procedure} (h : p.IsWorded) :
    Text.words (procedureRecord p).toList =
      [p.name, p.type, toString p.level, toString p.first, toString p.last].map
        String.toList := by
  rw [procedureRecord, words_joinFields]
  simp only [List.flatMap_cons, List.flatMap_nil, words_name h.name, h.type.words_eq, words_number]
  rfl

theorem readProcedure?_procedureRecord {p : Procedure} (h : p.IsWorded) :
    readProcedure? (procedureRecord p).toList = some p := by
  simp only [readProcedure?, words_procedureRecord h, List.map_cons, List.map_nil,
    String.ofList_toList, Text.toInt?_toString, Option.bind_eq_bind, Option.bind_some,
    Option.pure_def]

end Ledger

end PocketPascal
