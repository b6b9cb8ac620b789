/-! # Raw texts

Texts as a settings file can spell them: besides characters they may hold surrogates that stand
alone, which no proper text does. Settings, paths and what is quoted are raw texts.
-/

namespace PocketPascal

/-- A code point: a character, or a surrogate that stands alone, counted from the first one. -/
inductive CodePoint where
  | char (c : Char)
  | surrogate (n : Fin 0x800)
  deriving DecidableEq

namespace CodePoint

/-- The number of a code point. -/
def number : CodePoint → Nat
  | char c => c.toNat
  | surrogate n => 0xD800 + n

/-- The code point that a 16-bit unit is by itself. -/
def ofUnit (n : Nat) : CodePoint :=
  if h : 0xD800 ≤ n ∧ n < 0xE000 then surrogate ⟨n - 0xD800, by omega⟩ else char (Char.ofNat n)

/-- The character that a code point is. -/
def char? : CodePoint → Option Char
  | char c => some c
  | surrogate _ => none

/-- How many bytes a code point takes in the name of a file. The surrogates U+DC80 to U+DCFF stand
for single bytes that belong to no character; the other ones have no bytes. -/
def nameSize? : CodePoint → Option Nat
  | char c => some c.utf8Size
  | surrogate n => if 0x480 ≤ n.val ∧ n.val < 0x500 then some 1 else none

/-- Adds a 16-bit unit to the code points before it, latest first: the two surrogates of a pair
become one character. -/
def addUnit (before : List CodePoint) (unit : Nat) : List CodePoint :=
  match before, ofUnit unit with
  | surrogate high :: rest, surrogate low =>
    if high.val < 0x400 ∧ 0x400 ≤ low.val then
      char (Char.ofNat (0x10000 + high.val * 0x400 + (low.val - 0x400))) :: rest
    else surrogate low :: before
  | _, p => p :: before

end CodePoint

/-- A text of code points. -/
structure RawText where
  points : List CodePoint
  deriving DecidableEq

namespace RawText

/-- A proper text as a raw one. -/
def ofString (s : String) : RawText :=
  ⟨s.toList.map .char⟩

instance : Coe String RawText := ⟨ofString⟩

/-- The proper text that a raw one is. -/
def toString? (t : RawText) : Option String :=
  (t.points.mapM CodePoint.char?).map String.ofList

theorem mapM_char? (cs : List Char) : cs.mapM (CodePoint.char? ∘ CodePoint.char) = some cs := by
  induction cs with
  | nil => rfl
  | cons c rest ih => simp [CodePoint.char?, ih]

@[simp] theorem toString?_ofString (s : String) : (ofString s).toString? = some s := by
  simp [toString?, ofString, mapM_char?]

theorem ofString_injective {s t : String} (h : ofString s = ofString t) : s = t := by
  simpa using congrArg toString? h

/-- Whether a text has no code points. -/
def isEmpty (t : RawText) : Bool :=
  t.points.isEmpty

/-- Whether a character stands in a text. -/
def contains (t : RawText) (c : Char) : Bool :=
  t.points.contains (.char c)

/-- How many bytes a text takes in the name of a file, if it can stand there. -/
def nameSize? (t : RawText) : Option Nat :=
  (t.points.mapM CodePoint.nameSize?).map fun sizes => sizes.foldl (· + ·) 0

end RawText

end PocketPascal
