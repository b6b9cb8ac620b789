import PocketPascal.Text.Printable
import PocketPascal.Text.Raw

/-! # Quoted text

A text between quotes on one line: quotes, backslashes and characters that are not printable are
escaped.
-/

namespace PocketPascal.Text

/-- The lower-case hexadecimal digits of a number, filled up with zeros to a width. -/
def hexDigits (width n : Nat) : List Char :=
  let ds := Nat.toDigits 16 n
  List.replicate (width - ds.length) '0' ++ ds

/-- How one character is written between the given quotes. -/
def escapeChar (quote c : Char) : List Char :=
  if c = quote ∨ c = '\\' then ['\\', c]
  else if c = '\n' then ['\\', 'n']
  else if c = '\r' then ['\\', 'r']
  else if c = '\t' then ['\\', 't']
  else if isPrintable c then [c]
  else if c.toNat < 0x100 then '\\' :: 'x' :: hexDigits 2 c.toNat
  else if c.toNat < 0x10000 then '\\' :: 'u' :: hexDigits 4 c.toNat
  else '\\' :: 'U' :: hexDigits 8 c.toNat

/-- How a surrogate that stands alone is written. -/
def escapeSurrogate (n : Fin 0x800) : List Char :=
  '\\' :: 'u' :: hexDigits 4 (CodePoint.surrogate n).number

/-- How one code point is written between the given quotes. -/
def escapePoint (quote : Char) : CodePoint → List Char
  | .char c => escapeChar quote c
  | .surrogate n => escapeSurrogate n

/-- Single quotes are used unless the text holds a single quote and no double one. -/
def quoteFor (text : RawText) : Char :=
  if text.contains '\x27' && !text.contains '"' then '"' else '\x27'

/-- A text in quotes. -/
def quoted (text : RawText) : String :=
  let quote := quoteFor text
  String.ofList (quote :: text.points.flatMap (escapePoint quote) ++ [quote])

/-- A text as it is, but with surrogates escaped. -/
def shown (text : RawText) : String :=
  String.ofList <| text.points.flatMap fun
    | .char c => [c]
    | .surrogate n => escapeSurrogate n

end PocketPascal.Text
