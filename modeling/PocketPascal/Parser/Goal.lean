import PocketPascal.Token.Kind

/-! # Goals of a parse

What a predictive parser still has to find: constructs of the grammar, single tokens, the rests of
constructs that repeat, and the ends of scopes and of nesting. Every goal has a weight; a goal that
is resolved without passing a token is replaced by goals that weigh less together.
-/

namespace PocketPascal.Parser

/-- The constructs of the grammar. -/
inductive Construct where
  | program | body | declarations | declaration | variableDeclaration | procedureDeclaration
  | parameterDeclaration | procedureBody
  | statements | statement | readStatement | writeStatement | assignment | conditional | relation
  | expression | term | factor | call | argument | reference | procedureName
  deriving DecidableEq

/-- Something that a parser still has to find or to close. -/
inductive Goal where
  | construct (c : Construct)
  /-- One token of a kind. -/
  | token (kind : Kind)
  /-- The parenthesis that closes an open one. -/
  | closeParen
  /-- What is declared after the type. -/
  | declared
  /-- The name of a procedure, which opens a scope. -/
  | procedureHead
  /-- The end of a procedure's scope. -/
  | endScope
  /-- The end of a procedure's body. -/
  | endBody
  /-- The end of a statement or expression. -/
  | endNesting
  /-- Further statements after semicolons. -/
  | moreStatements
  /-- Further terms after minus signs. -/
  | moreTerms
  /-- Further factors after multiplication signs. -/
  | moreFactors
  deriving DecidableEq

namespace Goal

/-- How much work a construct stands for as long as no token is passed. -/
def constructWeight : Construct → Nat
  | .program => 20
  | .body => 18
  | .declarations => 1
  | .declaration => 32
  | .variableDeclaration => 1
  | .procedureDeclaration => 28
  | .parameterDeclaration => 1
  | .procedureBody => 20
  | .statements => 14
  | .statement => 12
  | .readStatement => 5
  | .writeStatement => 5
  | .assignment => 10
  | .conditional => 43
  | .relation => 1
  | .expression => 7
  | .term => 4
  | .factor => 2
  | .call => 12
  | .argument => 10
  | .reference => 1
  | .procedureName => 1

/-- How much work a goal stands for as long as no token is passed. -/
def weight : Goal → Nat
  | construct c => constructWeight c
  | declared => 30
  | _ => 1

/-- The weight of several goals. -/
def totalWeight : List Goal → Nat
  | [] => 0
  | g :: rest => g.weight + totalWeight rest

/-- Passing a token makes up for this much weight, more than any goal is replaced by. -/
def tokenWeight : Nat := 64

/-- Whether a goal ends a nesting that is counted. -/
def endsNesting : Goal → Bool
  | endBody | endNesting => true
  | _ => false

theorem totalWeight_append (gs hs : List Goal) :
    totalWeight (gs ++ hs) = totalWeight gs + totalWeight hs := by
  induction gs with
  | nil => simp [totalWeight]
  | cons g gs ih => simp [totalWeight, ih, Nat.add_assoc]

end Goal

end PocketPascal.Parser
