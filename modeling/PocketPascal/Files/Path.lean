import PocketPascal.Text.Raw

/-! # Paths

Paths in normal form: no empty parts and no parts that stay in place. Parts that lead upwards are
kept, since what they lead to depends on the files.
-/

namespace PocketPascal

/-- Where a path starts. Exactly two leading slashes are a start of their own. -/
inductive PathRoot where
  | relative | slash | doubleSlash
  deriving DecidableEq

/-- How a start is written. -/
def PathRoot.text : PathRoot → RawText
  | relative => ""
  | slash => "/"
  | doubleSlash => "//"

/-- A path in normal form. -/
structure Path where
  root : PathRoot := .relative
  parts : List RawText := []
  deriving DecidableEq

namespace Path

/-- The start of a path as it is written. -/
def rootOf (text : RawText) : PathRoot :=
  match (text.points.takeWhile (· == .char '/')).length with
  | 0 => .relative
  | 2 => .doubleSlash
  | _ => .slash

/-- The parts of a path as it is written. -/
def pieces (text : RawText) : List RawText :=
  (text.points.splitOn (.char '/')).map .mk

/-- Whether a part of a written path leads anywhere. -/
def isStep (part : RawText) : Bool :=
  part != "" && part != "."

/-- The normal form of a path as it is written. -/
def ofText (text : RawText) : Path :=
  { root := rootOf text, parts := (pieces text).filter isStep }

/-- The written form of a path; a path that leads nowhere is a dot. -/
def text (p : Path) : RawText :=
  if p.root = .relative ∧ p.parts = [] then "."
  else ⟨p.root.text.points ++ List.intercalate [.char '/'] (p.parts.map RawText.points)⟩

/-- The path of `q` as seen from `p`. -/
def join (p q : Path) : Path :=
  if q.root = .relative then { p with parts := p.parts ++ q.parts } else q

/-- The path without its last part. -/
def parent (p : Path) : Path :=
  { p with parts := p.parts.dropLast }

end Path

end PocketPascal
