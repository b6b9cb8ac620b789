import PocketPascal.Text.Raw

/-! # Values of a settings file

Numbers are whole or not by the way they are written, and the members of an object keep their order.
-/

namespace PocketPascal.Json

/-- A value with its members in order. A number with a fraction or an exponent keeps its text. -/
inductive Value where
  | null
  | bool (b : Bool)
  | int (n : Int)
  | float (text : String)
  | string (s : RawText)
  | array (items : List Value)
  | object (members : List (RawText × Value))

namespace Value

/-- The name of a value's type. -/
def typeName : Value → String
  | null => "NoneType"
  | bool _ => "bool"
  | int _ => "int"
  | float _ => "float"
  | string _ => "str"
  | array _ => "list"
  | object _ => "dict"

/-- Whether a value is `null`. -/
def isNull : Value → Bool
  | null => true
  | _ => false

end Value

/-- Sets a member: a key that is there already keeps its place and gets the new value. -/
def setMember {α : Type} (members : List (RawText × α)) (key : RawText) (value : α) :
    List (RawText × α) :=
  if members.any (·.1 == key) then
    members.map fun m => if m.1 == key then (key, value) else m
  else members ++ [(key, value)]

/-- The members of an object as written, each key once. -/
def memberList {α : Type} (written : List (RawText × α)) : List (RawText × α) :=
  written.foldl (fun members m => setMember members m.1 m.2) []

end PocketPascal.Json
