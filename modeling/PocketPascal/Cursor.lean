/-! # Cursors

A read head that moves forward over a list, one item of lookahead at a time.
-/

namespace PocketPascal

/-- A list cut at a read head: the items passed, last one first, and the items ahead. -/
structure Cursor (α : Type) where
  passed : List α
  ahead : List α
  deriving DecidableEq

namespace Cursor

variable {α : Type}

/-- A read head before the first item. -/
def ofList (items : List α) : Cursor α :=
  ⟨[], items⟩

/-- All items, in order; no movement changes them. -/
def toList (c : Cursor α) : List α :=
  c.passed.reverse ++ c.ahead

/-- The items passed, in order. -/
def consumed (c : Cursor α) : List α :=
  c.passed.reverse

/-- The number of items passed. -/
def position (c : Cursor α) : Nat :=
  c.passed.length

/-- The item under the read head. -/
def peek? (c : Cursor α) : Option α :=
  c.ahead.head?

/-- Whether an item is left. -/
def isOpen (c : Cursor α) : Bool :=
  !c.ahead.isEmpty

/-- Moves past one item, or stays at the end. -/
def advance (c : Cursor α) : Cursor α :=
  match c.ahead with
  | [] => c
  | a :: rest => ⟨a :: c.passed, rest⟩

/-- Moves past several items, or to the end. -/
def skip (n : Nat) (c : Cursor α) : Cursor α :=
  ⟨(c.ahead.take n).reverse ++ c.passed, c.ahead.drop n⟩

/-- The end of the list was reached although an item was asked for. -/
structure PastEnd where
  position : Nat
  deriving DecidableEq

/-- What reading past the end says. -/
def PastEnd.message (e : PastEnd) : String :=
  s!"CursorError: Attempted to read past end of sequence at position=<{e.position}>"

/-- The item under the read head, which has to exist. -/
def current (c : Cursor α) : Except PastEnd α :=
  match c.ahead with
  | [] => .error ⟨c.position⟩
  | a :: _ => .ok a

/-- Takes the item under the read head and moves past it. -/
def consume (c : Cursor α) : Except PastEnd (α × Cursor α) :=
  match c.ahead with
  | [] => .error ⟨c.position⟩
  | a :: _ => .ok (a, c.advance)

@[simp] theorem toList_ofList (items : List α) : (ofList items).toList = items := rfl

@[simp] theorem toList_advance (c : Cursor α) : c.advance.toList = c.toList := by
  rcases c with ⟨passed, _ | ⟨a, rest⟩⟩ <;> simp [advance, toList]

@[simp] theorem toList_skip (n : Nat) (c : Cursor α) : (c.skip n).toList = c.toList := by
  simp [skip, toList]

end Cursor

end PocketPascal
