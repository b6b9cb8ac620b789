import PocketPascal.Json.Value
import PocketPascal.Text.Digit

/-! # Tokens of a settings file

Punctuation and scalar values. The first text that is no token ends the list.
-/

namespace PocketPascal.Json

/-- A token of a settings file. A whole number of too many digits is told apart from other numbers,
and a text that is no token from everything else. -/
inductive Token where
  | openArray | closeArray | openObject | closeObject | comma | colon
  | scalar (v : Value)
  | oversized
  | invalid

/-- The characters that may stand between tokens. -/
def isSpace (c : Char) : Bool :=
  c == ' ' || c == '\t' || c == '\n' || c == '\r'

/-- The digits of numbers. -/
def isDigit (c : Char) : Bool :=
  '0' ≤ c && c ≤ '9'

/-- The value of a hexadecimal digit. -/
def hexValue? (c : Char) : Option Nat :=
  if isDigit c then some (c.toNat - '0'.toNat)
  else if 'a' ≤ c && c ≤ 'f' then some (c.toNat - 'a'.toNat + 10)
  else if 'A' ≤ c && c ≤ 'F' then some (c.toNat - 'A'.toNat + 10)
  else none

/-- The number that four hexadecimal digits write. -/
def hexUnit? (a b c d : Char) : Option Nat :=
  ([a, b, c, d].mapM hexValue?).map (·.foldl (fun n v => 16 * n + v) 0)

/-- The character that stands for itself after a backslash, or that a letter after one names. -/
def escaped? (c : Char) : Option Char :=
  if c = '"' ∨ c = '\\' ∨ c = '/' then some c
  else if c = 'b' then some '\x08'
  else if c = 'f' then some '\x0c'
  else if c = 'n' then some '\n'
  else if c = 'r' then some '\r'
  else if c = 't' then some '\t'
  else none

/-- Reads a string after its opening quote; answers the string and what follows its closing quote.
Control characters have to be escaped. The code points read before are given, latest first. -/
def readString (done : List CodePoint) : List Char → Option (RawText × List Char)
  | [] => none
  | '"' :: rest => some (⟨done.reverse⟩, rest)
  | '\\' :: 'u' :: a :: b :: c :: d :: rest =>
    match hexUnit? a b c d with
    | some n => readString (CodePoint.addUnit done n) rest
    | none => none
  | '\\' :: e :: rest =>
    match escaped? e with
    | some c => readString (.char c :: done) rest
    | none => none
  | c :: rest =>
    if c = '\\' ∨ c.toNat < 0x20 then none else readString (.char c :: done) rest

/-- The whole part of a number: a zero alone, or digits that do not start with one. -/
def wholePart? : List Char → Option (List Char × List Char)
  | '0' :: rest => some (['0'], rest)
  | c :: rest =>
    if isDigit c then some (c :: rest.takeWhile isDigit, rest.dropWhile isDigit) else none
  | [] => none

/-- The fraction of a number, empty if there is none. -/
def fraction : List Char → List Char × List Char
  | '.' :: c :: rest =>
    if isDigit c then ('.' :: c :: rest.takeWhile isDigit, rest.dropWhile isDigit)
    else ([], '.' :: c :: rest)
  | cs => ([], cs)

/-- The digits of an exponent, after its letter and sign. -/
def exponentDigits (lead : List Char) (cs rest : List Char) : List Char × List Char :=
  let ds := rest.takeWhile isDigit
  if ds.isEmpty then ([], cs) else (lead ++ ds, rest.dropWhile isDigit)

/-- The exponent of a number, empty if there is none. -/
def exponent (cs : List Char) : List Char × List Char :=
  match cs with
  | e :: sign :: rest =>
    if e = 'e' ∨ e = 'E' then
      if sign = '+' ∨ sign = '-' then exponentDigits [e, sign] cs rest
      else exponentDigits [e] cs (sign :: rest)
    else ([], cs)
  | _ => ([], cs)

/-- The token that the parts of a number make. -/
def numberToken (negative : Bool) (whole frac expo : List Char) : Token :=
  if frac.isEmpty && expo.isEmpty then
    match Text.readNumeral? whole with
    | some n => .scalar (.int (if negative then -n else n))
    | none => .oversized
  else
    .scalar (.float (String.ofList ((if negative then ['-'] else []) ++ whole ++ frac ++ expo)))

/-- Reads a number. -/
def readNumber? (negative : Bool) (cs : List Char) : Option (Token × List Char) :=
  (wholePart? cs).map fun (whole, rest) =>
    let (frac, rest) := fraction rest
    let (expo, rest) := exponent rest
    (numberToken negative whole frac expo, rest)

/-- The words that stand for values. -/
def wordValues : List (String × Value) :=
  [("null", .null), ("true", .bool true), ("false", .bool false), ("NaN", .float "NaN"),
   ("Infinity", .float "Infinity"), ("-Infinity", .float "-Infinity")]

/-- Reads a word that stands for a value. -/
def readWord? (cs : List Char) : Option (Token × List Char) :=
  (wordValues.find? fun w => w.1.toList.isPrefixOf cs).map fun w =>
    (.scalar w.2, cs.drop w.1.length)

/-- Reads the token at the head of a text that starts with no space. -/
def readToken? (c : Char) (rest : List Char) : Option (Token × List Char) :=
  if c = '[' then some (.openArray, rest)
  else if c = ']' then some (.closeArray, rest)
  else if c = '\x7b' then some (.openObject, rest)
  else if c = '\x7d' then some (.closeObject, rest)
  else if c = ',' then some (.comma, rest)
  else if c = ':' then some (.colon, rest)
  else if c = '"' then (readString [] rest).map fun (s, rest) => (.scalar (.string s), rest)
  else
    (readWord? (c :: rest)).or <|
      if c = '-' then readNumber? true rest else readNumber? false (c :: rest)

/-- The tokens of a text, up to the first text that is none. -/
def tokens (cs : List Char) : List Token :=
  go cs.length cs
where
  /-- Reads at most `fuel` characters; every token and space takes one. -/
  go : Nat → List Char → List Token
    | _, [] => []
    | 0, _ :: _ => [.invalid]
    | fuel + 1, c :: rest =>
      if isSpace c then go fuel rest
      else match readToken? c rest with
        | some (t, rest) => t :: go fuel rest
        | none => [.invalid]

end PocketPascal.Json
