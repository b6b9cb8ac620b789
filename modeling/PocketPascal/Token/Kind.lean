/-! # Kinds of tokens

The twenty-five kinds of tokens, their spellings, and the codes under which ledgers record them.
-/

namespace PocketPascal

/-- What a token is. Keywords come first, the two sentinels last. -/
inductive Kind where
  | beginKey | endKey | integerKey | ifKey | thenKey | elseKey | functionKey | readKey | writeKey
  | identifier | constant
  | equal | notEqual | atMost | less | atLeast | greater
  | minus | times | assign | leftParen | rightParen | semicolon
  | endOfLine | endOfFile
  deriving DecidableEq

namespace Kind

/-- All kinds in the order of their codes. -/
def all : List Kind :=
  [beginKey, endKey, integerKey, ifKey, thenKey, elseKey, functionKey, readKey, writeKey,
   identifier, constant, equal, notEqual, atMost, less, atLeast, greater,
   minus, times, assign, leftParen, rightParen, semicolon, endOfLine, endOfFile]

/-- The code of a kind in ledgers, from 1 to 25. -/
def code : Kind → Nat
  | beginKey => 1
  | endKey => 2
  | integerKey => 3
  | ifKey => 4
  | thenKey => 5
  | elseKey => 6
  | functionKey => 7
  | readKey => 8
  | writeKey => 9
  | identifier => 10
  | constant => 11
  | equal => 12
  | notEqual => 13
  | atMost => 14
  | less => 15
  | atLeast => 16
  | greater => 17
  | minus => 18
  | times => 19
  | assign => 20
  | leftParen => 21
  | rightParen => 22
  | semicolon => 23
  | endOfLine => 24
  | endOfFile => 25

/-- The kind with a given code. -/
def ofCode? (n : Nat) : Option Kind :=
  all.find? fun k => k.code == n

/-- The name of a kind in listings. -/
def name : Kind → String
  | beginKey => "BEGIN"
  | endKey => "END"
  | integerKey => "INTEGER"
  | ifKey => "IF"
  | thenKey => "THEN"
  | elseKey => "ELSE"
  | functionKey => "FUNCTION"
  | readKey => "READ"
  | writeKey => "WRITE"
  | identifier => "IDENTIFIER"
  | constant => "CONSTANT"
  | equal => "EQUAL"
  | notEqual => "NOT_EQUAL"
  | atMost => "LESS_THAN_OR_EQUAL"
  | less => "LESS_THAN"
  | atLeast => "GREATER_THAN_OR_EQUAL"
  | greater => "GREATER_THAN"
  | minus => "SUBTRACT"
  | times => "MULTIPLY"
  | assign => "ASSIGN"
  | leftParen => "LEFT_PARENTHESES"
  | rightParen => "RIGHT_PARENTHESES"
  | semicolon => "SEMICOLON"
  | endOfLine => "END_OF_LINE"
  | endOfFile => "END_OF_FILE"

/-- The one spelling of a keyword, operator or punctuation mark; sentinels have a fixed label, and
identifiers and constants no fixed spelling. -/
def spelling? : Kind → Option String
  | beginKey => some "begin"
  | endKey => some "end"
  | integerKey => some "integer"
  | ifKey => some "if"
  | thenKey => some "then"
  | elseKey => some "else"
  | functionKey => some "function"
  | readKey => some "read"
  | writeKey => some "write"
  | identifier => none
  | constant => none
  | equal => some "="
  | notEqual => some "<>"
  | atMost => some "<="
  | less => some "<"
  | atLeast => some ">="
  | greater => some ">"
  | minus => some "-"
  | times => some "*"
  | assign => some ":="
  | leftParen => some "("
  | rightParen => some ")"
  | semicolon => some ";"
  | endOfLine => some "EOLN"
  | endOfFile => some "EOF"

/-- The kinds that keywords have. -/
def keywords : List Kind :=
  [beginKey, endKey, integerKey, ifKey, thenKey, elseKey, functionKey, readKey, writeKey]

/-- The kinds whose spelling is one character that starts no other operator. -/
def singles : List Kind :=
  [equal, minus, times, leftParen, rightParen, semicolon]

/-- Whether a kind may stand between the two sides of a comparison. -/
def isRelational : Kind → Bool
  | equal | notEqual | atMost | less | atLeast | greater => true
  | _ => false

/-- Whether a kind is one of the two sentinels. -/
def isSentinel : Kind → Bool
  | endOfLine | endOfFile => true
  | _ => false

/-- How diagnostics name a kind they expect: a fixed spelling in quotes, else a word. -/
def description (k : Kind) : String :=
  match k.spelling? with
  | some text => if k.isSentinel then text else s!"'{text}'"
  | none => if k = constant then "constant" else "identifier"

theorem ofCode?_code (k : Kind) : ofCode? k.code = some k := by
  cases k <;> rfl

theorem code_of_ofCode? {n : Nat} {k : Kind} (h : ofCode? n = some k) : k.code = n := by
  simpa using List.find?_some h

end Kind

end PocketPascal
