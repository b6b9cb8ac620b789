import PocketPascal.Token.Kind

/-! # Tokens

A lexeme is a kind with a text; a token is a lexeme with the source line it stands on.
-/

namespace PocketPascal

/-- A kind together with the text it was written with. -/
structure Lexeme where
  kind : Kind
  text : String
  deriving DecidableEq

/-- A lexeme on a source line; line 0 is an unknown line. -/
structure Token extends Lexeme where
  line : Int := 0
  deriving DecidableEq

namespace Token

/-- The sentinel that closes a source line. -/
def endOfLine (line : Int) : Token :=
  { kind := .endOfLine, text := "EOLN", line }

/-- The sentinel that closes a token stream. -/
def endOfFile : Token :=
  { kind := .endOfFile, text := "EOF" }

/-- Two tokens are alike if they are the same lexeme, wherever they stand. -/
def alike (a b : Token) : Bool :=
  a.toLexeme == b.toLexeme

/-- A token in listings. -/
def listing (t : Token) : String :=
  s!"Token({t.kind.name}, {t.text})"

end Token

end PocketPascal
