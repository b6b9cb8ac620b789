import PocketPascal.Text.Raw

/-! # Masked texts

An analysis reads proper texts. In a text with surrogates it meets stand-ins for them: private
characters that occur nowhere in the text. It treats them like any other character that has no
meaning in a program, so the surrogates can be put back into what comes of it.
-/

namespace PocketPascal

/-- A text that can be analysed, and how its surrogates are put back into what comes of it. -/
structure MaskedText where
  text : String
  restore : RawText → RawText

namespace MaskedText

/-- A proper text needs no mask. -/
def ofString (text : String) : MaskedText :=
  { text, restore := id }

/-- The first stand-in of a block; every block has one for each surrogate. -/
def firstOf (block : Nat) : Nat :=
  0xF0000 + 0x800 * block

/-- A code point with a stand-in for a surrogate. -/
def maskPoint (block : Nat) : CodePoint → Char
  | .char c => c
  | .surrogate n => Char.ofNat (firstOf block + n)

/-- The code point that a stand-in stands for; any other code point is left as it is. -/
def restorePoint (block : Nat) (p : CodePoint) : CodePoint :=
  let first := firstOf block
  if h : first ≤ p.number ∧ p.number < first + 0x800 then
    .surrogate ⟨p.number - first, by omega⟩
  else p

/-- A block whose stand-ins do not occur in a text. -/
def freeBlock (t : RawText) : Nat :=
  ((List.range 64).find? fun block => t.points.all fun p => restorePoint block p == p).getD 0

/-- A text, masked if that is needed. -/
def ofRaw (t : RawText) : MaskedText :=
  match t.toString? with
  | some text => ofString text
  | none =>
    let block := freeBlock t
    { text := String.ofList (t.points.map (maskPoint block))
      restore := fun s => ⟨s.points.map (restorePoint block)⟩ }

@[simp] theorem ofRaw_ofString (s : String) : ofRaw (RawText.ofString s) = ofString s := by
  simp [ofRaw]

end MaskedText

end PocketPascal
