import PocketPascal.Token
import PocketPascal.Text.Blank
import PocketPascal.Text.Digit
import PocketPascal.Text.Lines
import PocketPascal.Text.Quoted

/-! # Reading token ledgers

Every line of a token ledger is a record, or blank, or passed over with a warning.
-/

namespace PocketPascal.Ledger

/-- The token that a line records: two words, the second the number of a kind. -/
def readRecord? (line : List Char) : Option Token :=
  match Text.words line with
  | [value, code] =>
    match (Text.readNumeral? code).bind Kind.ofCode? with
    | some kind => some { kind, text := String.ofList value }
    | none => none
  | _ => none

/-- What a line of a token ledger is. -/
inductive LineReading where
  | token (t : Token)
  | blank
  | malformed
  deriving DecidableEq

/-- Tells what a line is. -/
def readLine (line : List Char) : LineReading :=
  match readRecord? line with
  | some t => .token t
  | none => if line.all Text.isBlank then .blank else .malformed

/-- A line that is neither a record nor blank. -/
structure Warning where
  number : Nat
  line : RawText
  deriving DecidableEq

/-- What is said about a line that is passed over. -/
def Warning.message (w : Warning) : String :=
  s!"Skipping malformed token record on line {w.number}: {Text.quoted w.line}"

/-- The lines of a ledger with their numbers, counted from 1, and what they are. -/
def readLines (text : String) : List ((List Char × Nat) × LineReading) :=
  ((Text.recordLines text.toList).zipIdx 1).map fun line => (line, readLine line.1)

/-- The tokens that a ledger records, and a warning for every line passed over. -/
def read (text : String) : List Token × List Warning :=
  let lines := readLines text
  (lines.filterMap fun (_, r) =>
      match r with
      | .token t => some t
      | _ => none,
    lines.filterMap fun ((line, number), r) =>
      match r with
      | .malformed => some { number, line := String.ofList line }
      | _ => none)

end PocketPascal.Ledger
