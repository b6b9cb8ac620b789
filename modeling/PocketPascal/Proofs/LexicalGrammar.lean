import PocketPascal.Lexer.Piece
import PocketPascal.Text.Blank

/-! # The lexical grammar

What the tokens and errors of a source are, said without a scanner. A source is cut into lines at
its line feeds; a line that is more than blanks is cut into spaces, lexemes and texts that are no
lexeme. What a lexeme is depends on the characters after it as far as it has to be the longest one
that begins there.
-/

namespace PocketPascal.Lexer

/-! ## Lexemes -/

/-- A letter, and then letters and digits. -/
def IsName (text : List Char) : Prop :=
  ∃ c cs, text = c :: cs ∧ isLetter c = true ∧ ∀ d ∈ cs, isNameChar d = true

/-- One digit or more. -/
def IsNumeral (text : List Char) : Prop :=
  text ≠ [] ∧ ∀ c ∈ text, isDigit c = true

/-- A run of characters of a class goes no further than to the beginning of `rest`. -/
def EndsBefore (rest : List Char) (p : Char → Bool) : Prop :=
  ∀ c ∈ rest.head?, p c = false

/-- A text is the spelling of a kind. -/
def Spells (text : List Char) (k : Kind) : Prop :=
  k.spelling? = some (String.ofList text)

/-- A name spells a keyword, in capital or small letters. -/
def SpellsKeyword (name : List Char) (k : Kind) : Prop :=
  k ∈ Kind.keywords ∧ Spells (name.map Char.toLower) k

/-- The operators of two characters. -/
def pairs : List Kind := [.notEqual, .atMost, .atLeast, .assign]

/-- The operators and punctuation marks of one character. -/
def marks : List Kind := .less :: .greater :: Kind.singles

/-- The lexeme `text` of kind `k` stands before `rest`. -/
inductive Munches (limit : Int) : List Char → Kind → List Char → Prop where
  | keyword {name rest : List Char} {k : Kind} (hname : IsName name)
      (hend : EndsBefore rest isNameChar) (hk : SpellsKeyword name k) : Munches limit name k rest
  | identifier {name rest : List Char} (hname : IsName name)
      (hend : EndsBefore rest isNameChar) (hk : ∀ k, ¬ SpellsKeyword name k)
      (hlimit : name.length ≤ limit) : Munches limit name .identifier rest
  | constant {digits rest : List Char} (hdigits : IsNumeral digits)
      (hend : EndsBefore rest isDigit) : Munches limit digits .constant rest
  | pair {a b : Char} {rest : List Char} {k : Kind} (hk : k ∈ pairs) (hab : Spells [a, b] k) :
      Munches limit [a, b] k rest
  | mark {a : Char} {rest : List Char} {k : Kind} (hk : k ∈ marks) (ha : Spells [a] k)
      (hpair : ∀ b ∈ rest.head?, ∀ k' ∈ pairs, ¬ Spells [a, b] k') : Munches limit [a] k rest

/-- The text before `rest` is no lexeme, and this is what is said about it. A colon takes the next
character with it, whatever that is. -/
inductive Rejects (limit : Int) : List Char → String → List Char → Prop where
  | overlong {name rest : List Char} (hname : IsName name) (hend : EndsBefore rest isNameChar)
      (hk : ∀ k, ¬ SpellsKeyword name k) (hlimit : limit < name.length) :
      Rejects limit name s!"Identifier '{String.ofList name}' exceeds {limit} characters" rest
  | colon {a : Char} {rest : List Char} (ha : a ≠ '=') : Rejects limit [':', a] "Misused colon" rest
  | lastColon : Rejects limit [':'] "Misused colon" []
  | invalid {a : Char} {rest : List Char} (hspace : a ≠ ' ') (hcolon : a ≠ ':')
      (hname : isNameChar a = false) (hmark : ∀ k ∈ marks, ¬ Spells [a] k) :
      Rejects limit [a] s!"Invalid character '{a}'" rest

/-! ## Lines -/

/-- A text on the line with a number is cut into single spaces, lexemes and rejected texts, which
yield nothing, the tokens and the errors, in order. -/
inductive Cut (limit : Int) (number : Nat) :
    List Char → List Token → List Diagnostic → Prop where
  | done : Cut limit number [] [] []
  | space {rest : List Char} {ts : List Token} {ds : List Diagnostic}
      (h : Cut limit number rest ts ds) : Cut limit number (' ' :: rest) ts ds
  | lexeme {text rest : List Char} {k : Kind} {ts : List Token} {ds : List Diagnostic}
      (hk : Munches limit text k rest) (h : Cut limit number rest ts ds) :
      Cut limit number (text ++ rest)
        ({ kind := k, text := String.ofList text, line := number } :: ts) ds
  | error {text rest : List Char} {message : String} {ts : List Token} {ds : List Diagnostic}
      (hm : Rejects limit text message rest) (h : Cut limit number rest ts ds) :
      Cut limit number (text ++ rest) ts
        ({ category := .lexical, line := number, message } :: ds)

/-- The blanks at both ends of a line are taken off, and its tabs count as spaces. -/
structure Strips (line text : List Char) : Prop where
  cut : ∃ before after, line.map (fun c => if c = '\t' then ' ' else c) = before ++ text ++ after ∧
    (∀ c ∈ before, Text.isBlank c = true) ∧ ∀ c ∈ after, Text.isBlank c = true
  head : ∀ c ∈ text.head?, Text.isBlank c = false
  last : ∀ c ∈ text.getLast?, Text.isBlank c = false

/-- The tokens and errors of lines, the first one having number `k`. A line of blanks yields
nothing, any other one its tokens and an end of the line. -/
inductive LexesFrom (limit : Int) :
    Nat → List (List Char) → List Token → List Diagnostic → Prop where
  | done {k : Nat} : LexesFrom limit k [] [.endOfFile] []
  | blank {k : Nat} {line : List Char} {lines : List (List Char)} {ts : List Token}
      {ds : List Diagnostic} (hline : Strips line []) (h : LexesFrom limit (k + 1) lines ts ds) :
      LexesFrom limit k (line :: lines) ts ds
  | line {k : Nat} {line text : List Char} {lines : List (List Char)} {ts ts' : List Token}
      {ds ds' : List Diagnostic} (hline : Strips line text) (htext : text ≠ [])
      (hcut : Cut limit k text ts ds) (h : LexesFrom limit (k + 1) lines ts' ds') :
      LexesFrom limit k (line :: lines) (ts ++ .endOfLine k :: ts') (ds ++ ds')

/-- The tokens and errors of a source, whose lines are what stands between its line feeds. -/
def Lexes (limit : Int) (source : String) (ts : List Token) (ds : List Diagnostic) : Prop :=
  ∃ lines : List (List Char), lines ≠ [] ∧ (∀ line ∈ lines, '\n' ∉ line) ∧
    ['\n'].intercalate lines = source.toList ∧ LexesFrom limit 1 lines ts ds

end PocketPascal.Lexer
