import PocketPascal.Lexer.Piece
import PocketPascal.Text.Blank
import PocketPascal.Text.Lines

/-! # Events of a lexical analysis

Everything that happens while a source is read, in order. Reading on demand is cutting the list of
events short, so a partial analysis is a beginning of the full one.
-/

namespace PocketPascal.Lexer

/-- One thing that happens while a source is read. -/
inductive Event where
  /-- A source line is reached, blank or not. -/
  | line (number : Nat)
  /-- A text is put under the read head. -/
  | text (cs : List Char)
  /-- A piece of that text, standing on the given line, is passed. -/
  | piece (line : Nat) (piece : Piece)
  /-- A sentinel follows the tokens of a line or of the source. -/
  | sentinel (token : Token)
  deriving DecidableEq

namespace Event

/-- The token that an event yields. -/
def token? : Event → Option Token
  | piece n ⟨cs, .lexeme kind⟩ => some { kind, text := String.ofList cs, line := n }
  | sentinel t => some t
  | _ => none

/-- The diagnostic that an event yields. -/
def error? : Event → Option Diagnostic
  | piece n ⟨_, .rejected fault⟩ => some (fault.on n)
  | _ => none

/-- The events up to and including the one that yields the `n`-th token; all of them if there are
fewer tokens. -/
def demand : Nat → List Event → List Event
  | 0, _ => []
  | _ + 1, [] => []
  | n + 1, e :: rest => e :: if e.token?.isSome then demand n rest else demand (n + 1) rest

end Event

/-- The text of a source line that is cut into pieces: tabs count as spaces, and the blanks at both
ends do not count at all. -/
def lineText (line : List Char) : List Char :=
  Text.trim (line.map fun c => if c = '\t' then ' ' else c)

/-- Reading one text that stands on the given line. -/
def textEvents (limit : Int) (line : Nat) (cs : List Char) : List Event :=
  .text cs :: (pieces limit cs).map (.piece line)

/-- Reading one source line: a blank one yields nothing, any other its tokens and a sentinel. -/
def lineEvents (limit : Int) (number : Nat) (line : List Char) : List Event :=
  let cs := lineText line
  .line number ::
    if cs.isEmpty then [] else textEvents limit number cs ++ [.sentinel (.endOfLine number)]

/-- Reading a whole source. -/
def sourceEvents (limit : Int) (source : String) : List Event :=
  ((Text.sourceLines source.toList).zipIdx 1).flatMap (fun (line, number) =>
    lineEvents limit number line) ++ [.sentinel .endOfFile]

end PocketPascal.Lexer
