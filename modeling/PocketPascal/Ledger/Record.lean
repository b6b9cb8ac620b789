import PocketPascal.Diagnostic
import PocketPascal.Symbols

/-! # Ledger records

The lines that ledgers consist of: one record a line, its fields separated by spaces, names set
flush right in a field of their own width.
-/

namespace PocketPascal.Ledger

/-- The width of names. -/
def fieldWidth : Nat := 16

/-- A text filled up with a character on its left to a width; a longer one is left as it is. -/
def flushRight (fill : Char) (width : Nat) (text : String) : String :=
  String.ofList (text.toList.leftpad width fill)

/-- The fields of a record on one line. -/
def joinFields (fields : List String) : String :=
  String.intercalate " " fields

/-- A token: its text and its two-digit code. -/
def tokenRecord (t : Token) : String :=
  joinFields [flushRight ' ' fieldWidth t.text, flushRight '0' 2 (toString t.kind.code)]

/-- A variable: its name, owner, kind, type, level and address. -/
def variableRecord (v : Variable) : String :=
  joinFields [flushRight ' ' fieldWidth v.name, flushRight ' ' fieldWidth v.owner,
    toString v.kind.code, v.type, toString v.level, toString v.address]

/-- A procedure: its name, type, level, and first and last address. -/
def procedureRecord (p : Procedure) : String :=
  joinFields [flushRight ' ' fieldWidth p.name, p.type, toString p.level, toString p.first,
    toString p.last]

/-- A diagnostic as users read it. -/
def errorRecord (d : Diagnostic) : String :=
  d.render

/-- The text of a ledger: every record ends its line. -/
def render (records : List String) : String :=
  String.join (records.map (· ++ "\n"))

end PocketPascal.Ledger
