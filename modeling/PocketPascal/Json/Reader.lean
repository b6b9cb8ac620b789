import PocketPascal.Json.Token

/-! # Reading a settings file

Tokens are put together by a machine with a stack of the arrays and objects that are open, and what
may come next at its top.
-/

namespace PocketPascal.Json

/-- What may hold other values. -/
inductive Container where
  | array | object
  deriving DecidableEq

/-- Why a text is no value: it is malformed, or something in it exceeds what can be read. -/
inductive ReadError where
  | malformed
  | numberTooLong
  /-- A container stands inside too many others. -/
  | nestedTooDeep (c : Container)
  deriving DecidableEq

/-- The most arrays and objects that may be open at the same time. -/
def nestingCapacity : Nat := 980

/-- An open array or object with what it holds so far, latest first; an object also has the key of
the member that is read. -/
inductive Frame where
  | array (items : List Value)
  | object (members : List (RawText × Value))
  | member (members : List (RawText × Value)) (key : RawText)

/-- What may come next. -/
inductive Expected where
  /-- A value. -/
  | value
  /-- A value or the end of an empty array. -/
  | valueOrClose
  /-- A key. -/
  | key
  /-- A key or the end of an empty object. -/
  | keyOrClose
  /-- The colon after a key. -/
  | colon
  /-- A comma or the end of the innermost array or object, or the end of the text. -/
  | separator
  deriving DecidableEq

/-- The machine between two tokens; `result` is the value that was completed outside of all arrays
and objects. -/
structure Machine where
  stack : List Frame := []
  expected : Expected := .value
  result : Option Value := none

namespace Machine

/-- Puts a completed value where it belongs. -/
def complete (m : Machine) (v : Value) : Machine :=
  match m.stack with
  | [] => { m with expected := .separator, result := some v }
  | .array items :: rest => { m with stack := .array (v :: items) :: rest, expected := .separator }
  | .member members key :: rest =>
    { m with stack := .object ((key, v) :: members) :: rest, expected := .separator }
  | .object _ :: _ => m

/-- Opens an array or object. -/
def openContainer (m : Machine) (c : Container) : Except ReadError Machine :=
  if nestingCapacity ≤ m.stack.length then .error (.nestedTooDeep c)
  else match c with
    | .array => .ok { m with stack := .array [] :: m.stack, expected := .valueOrClose }
    | .object => .ok { m with stack := .object [] :: m.stack, expected := .keyOrClose }

/-- Takes a token where a value may stand. -/
def value (m : Machine) : Token → Except ReadError Machine
  | .scalar v => .ok (m.complete v)
  | .oversized => .error .numberTooLong
  | .openArray => m.openContainer .array
  | .openObject => m.openContainer .object
  | _ => .error .malformed

/-- Takes a token where a key may stand. -/
def key (m : Machine) : Token → Except ReadError Machine
  | .scalar (.string s) =>
    match m.stack with
    | .object members :: rest =>
      .ok { m with stack := .member members s :: rest, expected := .colon }
    | _ => .error .malformed
  | _ => .error .malformed

/-- Closes the innermost array. -/
def closeArray (m : Machine) : Except ReadError Machine :=
  match m.stack with
  | .array items :: rest => .ok ({ m with stack := rest }.complete (.array items.reverse))
  | _ => .error .malformed

/-- Closes the innermost object. -/
def closeObject (m : Machine) : Except ReadError Machine :=
  match m.stack with
  | .object members :: rest =>
    .ok ({ m with stack := rest }.complete (.object (memberList members.reverse)))
  | _ => .error .malformed

/-- Goes on to the next item of the innermost array or object. -/
def comma (m : Machine) : Except ReadError Machine :=
  match m.stack with
  | .array _ :: _ => .ok { m with expected := .value }
  | .object _ :: _ => .ok { m with expected := .key }
  | _ => .error .malformed

/-- Takes a token. -/
def take (m : Machine) (t : Token) : Except ReadError Machine :=
  match m.expected, t with
  | .value, t => m.value t
  | .valueOrClose, .closeArray => m.closeArray
  | .valueOrClose, t => m.value t
  | .key, t => m.key t
  | .keyOrClose, .closeObject => m.closeObject
  | .keyOrClose, t => m.key t
  | .colon, .colon => .ok { m with expected := .value }
  | .separator, .comma => m.comma
  | .separator, .closeArray => m.closeArray
  | .separator, .closeObject => m.closeObject
  | _, _ => .error .malformed

end Machine

/-- Reads a text as one value. -/
def read (text : String) : Except ReadError Value :=
  match (tokens text.toList).foldlM Machine.take {} with
  | .error e => .error e
  | .ok m =>
    match m.stack, m.result with
    | [], some v => .ok v
    | _, _ => .error .malformed

end PocketPascal.Json
