import PocketPascal.Token
import PocketPascal.Diagnostic

/-! # Pieces of a line

A line is cut from left to right into pieces: single spaces, lexemes of greatest length, and texts
that are no lexeme. The piece at the head of a text is fixed by its first characters alone.
-/

namespace PocketPascal.Lexer

/-- The letters of identifiers and keywords, those of ASCII only. -/
def isLetter (c : Char) : Bool :=
  ('a' ≤ c && c ≤ 'z') || ('A' ≤ c && c ≤ 'Z')

/-- The digits of identifiers and constants, those of ASCII only. -/
def isDigit (c : Char) : Bool :=
  '0' ≤ c && c ≤ '9'

/-- The characters that continue an identifier or keyword. -/
def isNameChar (c : Char) : Bool :=
  isLetter c || isDigit c

/-- Why a text is no lexeme. -/
inductive Fault where
  | overlong (name : String) (limit : Int)
  | misusedColon
  | invalid (c : Char)
  deriving DecidableEq

namespace Fault

/-- What is said about a rejected text. -/
def message : Fault → String
  | overlong name limit => s!"Identifier '{name}' exceeds {limit} characters"
  | misusedColon => "Misused colon"
  | invalid c => s!"Invalid character '{c}'"

/-- The diagnostic of a text rejected on a line. -/
def on (fault : Fault) (line : Int) : Diagnostic :=
  { category := .lexical, line, message := fault.message }

end Fault

/-- What a piece of a line is taken for. -/
inductive Reading where
  | space
  | lexeme (kind : Kind)
  | rejected (fault : Fault)
  deriving DecidableEq

/-- A stretch of a line and what it is taken for. -/
structure Piece where
  text : List Char
  reading : Reading
  deriving DecidableEq

/-- The keyword that a name spells, in capital or small letters. -/
def keyword? (name : List Char) : Option Kind :=
  Kind.keywords.find? fun k => k.spelling? == some (String.ofList (name.map Char.toLower))

/-- A name is a keyword, whatever its length, or an identifier of at most `limit` characters. -/
def readName (limit : Int) (name : List Char) : Reading :=
  match keyword? name with
  | some kind => .lexeme kind
  | none =>
    if limit < name.length then .rejected (.overlong (String.ofList name) limit)
    else .lexeme .identifier

/-- The operator or punctuation mark that one character is by itself. -/
def single? (c : Char) : Option Kind :=
  Kind.singles.find? fun k => k.spelling? == some (String.singleton c)

/-- The operator, punctuation mark or rejected text at the head of a text. A colon without its
equals sign takes the character after it along. -/
def markAt (c : Char) (rest : List Char) : Piece :=
  if c = '<' then
    match rest.head? with
    | some '=' => ⟨['<', '='], .lexeme .atMost⟩
    | some '>' => ⟨['<', '>'], .lexeme .notEqual⟩
    | _ => ⟨['<'], .lexeme .less⟩
  else if c = '>' then
    match rest.head? with
    | some '=' => ⟨['>', '='], .lexeme .atLeast⟩
    | _ => ⟨['>'], .lexeme .greater⟩
  else if c = ':' then
    match rest.head? with
    | some '=' => ⟨[':', '='], .lexeme .assign⟩
    | some d => ⟨[':', d], .rejected .misusedColon⟩
    | none => ⟨[':'], .rejected .misusedColon⟩
  else
    match single? c with
    | some kind => ⟨[c], .lexeme kind⟩
    | none => ⟨[c], .rejected (.invalid c)⟩

/-- The lexeme or rejected text at the head of a text; a space is rejected too. -/
def lexemeAt (limit : Int) (c : Char) (rest : List Char) : Piece :=
  if isLetter c then
    let name := c :: rest.takeWhile isNameChar
    ⟨name, readName limit name⟩
  else if isDigit c then
    ⟨c :: rest.takeWhile isDigit, .lexeme .constant⟩
  else
    markAt c rest

/-- The piece at the head of a text. -/
def pieceAt (limit : Int) (c : Char) (rest : List Char) : Piece :=
  if c = ' ' then ⟨[' '], .space⟩ else lexemeAt limit c rest

/-- All pieces of a text, in order. -/
def pieces (limit : Int) : List Char → List Piece
  | [] => []
  | c :: rest =>
    let piece := pieceAt limit c rest
    piece :: pieces limit (rest.drop (piece.text.length - 1))
termination_by cs => cs.length
decreasing_by
  simp only [List.length_drop, List.length_cons]
  omega

end PocketPascal.Lexer
