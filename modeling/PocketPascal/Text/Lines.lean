/-! # Lines

Two notions of a line: source lines end at a line feed only, record lines end at any line boundary
of Unicode.
-/

namespace PocketPascal.Text

/-- A carriage return that stands right before a line feed belongs to it and is dropped; the one
before such a pair stays. -/
def joinReturns : List Char → List Char
  | [] => []
  | c :: rest =>
    if c = '\r' ∧ rest.head? = some '\n' then joinReturns rest else c :: joinReturns rest

/-- The text of a file as it is read: all three spellings of a line end become a line feed. -/
def normalizeNewlines (cs : List Char) : List Char :=
  (joinReturns cs).map fun c => if c = '\r' then '\n' else c

/-- The lines of a source text, cut at line feeds. -/
def sourceLines (cs : List Char) : List (List Char) :=
  cs.splitOn '\n'

/-- The characters that end a record line. -/
def isLineBoundary (c : Char) : Bool :=
  let n := c.toNat
  (0x0A ≤ n && n ≤ 0x0D) || (0x1C ≤ n && n ≤ 0x1E) || n == 0x85 || n == 0x2028 || n == 0x2029

/-- The lines of a text of records; the boundary after the last one is optional. -/
def recordLines (cs : List Char) : List (List Char) :=
  let pieces := (joinReturns cs).splitOnP isLineBoundary
  if pieces.getLast? = some [] then pieces.dropLast else pieces

end PocketPascal.Text
