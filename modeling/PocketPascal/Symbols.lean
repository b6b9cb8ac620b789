import PocketPascal.Token

/-! # Symbols

The variables and procedures that a program declares, in the order of their declarations, and how a
name is looked up from a level.
-/

namespace PocketPascal

/-- The owner of what the program body declares. -/
def mainProcedure : String := "main"

/-- The type of all variables and of the results of all procedures. -/
def valueType : String := "integer"

/-- A variable is declared in a body or is the parameter of one. -/
inductive VariableKind where
  | localVariable | parameter
  deriving DecidableEq

namespace VariableKind

/-- The code of a kind in ledgers. -/
def code : VariableKind → Nat
  | localVariable => 0
  | parameter => 1

/-- The kind with a given code. -/
def ofCode? : Nat → Option VariableKind
  | 0 => some localVariable
  | 1 => some parameter
  | _ => none

end VariableKind

/-- A variable or parameter, the procedure that owns it, and the address of its storage. -/
structure Variable where
  name : String
  owner : String
  kind : VariableKind
  level : Int
  address : Int
  type : String := valueType
  deriving DecidableEq

/-- A procedure whose body is at `level`, with the addresses of the first and the last variable
declared directly in it; both are -1 as long as there is none. -/
structure Procedure where
  name : String
  level : Int
  first : Int := -1
  last : Int := -1
  type : String := valueType
  deriving DecidableEq

/-- Extends the address range of a procedure to a new variable. -/
def Procedure.claim (p : Procedure) (address : Int) : Procedure :=
  { p with first := if p.first = -1 then address else p.first, last := address }

/-- The declarations accepted so far. -/
structure SymbolTable where
  vars : List Variable := []
  procs : List Procedure := []
  deriving DecidableEq

namespace SymbolTable

/-- The address of the next variable; addresses count the variables. -/
def nextAddress (t : SymbolTable) : Nat :=
  t.vars.length

/-- The variables declared from a position on; a negative position counts from the end. -/
def variablesSince (t : SymbolTable) (since : Int) : List Variable :=
  t.vars.drop (if since < 0 then (t.vars.length + since).toNat else since.toNat)

/-- A variable of the same name, owner, kind and level among those declared since a position. -/
def duplicateVariable? (t : SymbolTable) (name owner : String) (kind : VariableKind) (level : Int)
    (since : Int) : Option Variable :=
  (t.variablesSince since).find? fun v =>
    v.name == name && v.owner == owner && v.kind == kind && v.level == level

/-- A procedure of the same name and level. -/
def duplicateProcedure? (t : SymbolTable) (name : String) (level : Int) : Option Procedure :=
  t.procs.find? fun p => p.name == name && p.level == level

/-- The variable that the next declaration makes. -/
def nextVariable (t : SymbolTable) (name owner : String) (kind : VariableKind) (level : Int) :
    Variable :=
  { name, owner, kind, level, address := t.nextAddress }

/-- Adds a variable at the next address, whether or not there is one like it. -/
def addVariable (t : SymbolTable) (name owner : String) (kind : VariableKind) (level : Int) :
    Variable × SymbolTable :=
  let v := t.nextVariable name owner kind level
  (v, { t with vars := t.vars ++ [v] })

/-- Adds a variable unless there is one like it since the given position. -/
def declareVariable (t : SymbolTable) (name owner : String) (kind : VariableKind) (level : Int)
    (since : Int) : Option Variable × SymbolTable :=
  match t.duplicateVariable? name owner kind level since with
  | some _ => (none, t)
  | none =>
    let (v, t') := t.addVariable name owner kind level
    (some v, t')

/-- Adds a procedure whose body is at `level`, unless there is one like it. -/
def declareProcedure (t : SymbolTable) (name : String) (level : Int) :
    Option Procedure × SymbolTable :=
  match t.duplicateProcedure? name level with
  | some _ => (none, t)
  | none =>
    let p : Procedure := { name, level }
    (some p, { t with procs := t.procs ++ [p] })

/-- Lets the procedure at a position of the table claim an address. -/
def claim (t : SymbolTable) (index : Nat) (address : Int) : SymbolTable :=
  { t with procs := t.procs.modify index fun p => p.claim address }

/-- What a variable name means at a level: the latest declaration that is not deeper. -/
def findVariable? (t : SymbolTable) (name : String) (level : Int) : Option Variable :=
  t.vars.reverse.find? fun v => v.name == name && v.level ≤ level

/-- What a procedure name means at a level: the latest declaration whose body is at most one level
deeper. -/
def findProcedure? (t : SymbolTable) (name : String) (level : Int) : Option Procedure :=
  t.procs.reverse.find? fun p => p.name == name && p.level ≤ level + 1

end SymbolTable

end PocketPascal
