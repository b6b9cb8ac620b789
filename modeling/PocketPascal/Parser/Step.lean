import PocketPascal.Parser.Goal
import PocketPascal.Parser.State

/-! # One step of a parse

How each goal is resolved: one look at the lookahead, and at the symbol table where the lookahead is
a name, decides what replaces the goal.
-/

namespace PocketPascal.Parser

/-- How deep a parse may nest: beyond `limit` the program is refused, beyond the capacity the
analysis itself gives up. No capacity is no such bound. -/
structure Nesting where
  limit : Int
  capacity : Option Nat := some 256
  deriving DecidableEq

/-- What a step of a parse comes to: goals in place of the one resolved, or the end of the parse
with its reason and line. -/
inductive Move where
  | go (goals : List Goal) (s : State)
  | halt (reason : Abort) (line : Int) (s : State)
  deriving DecidableEq

/-- Why nothing may be nested in what is `depth` deep already. -/
def Nesting.refusal? (n : Nesting) (depth : Nat) : Option Abort :=
  if n.limit < depth + 1 then some (.tooNested n.limit)
  else if n.capacity.any (· < depth + 1) then some .exhausted
  else none

/-- Enters a nesting if it is not too deep; a refused one stays counted. -/
def nested (n : Nesting) (s : State) (enter : State → Move) : Move :=
  let s' := { s with depth := s.depth + 1 }
  match n.refusal? s.depth with
  | some reason => .halt reason s.line s'
  | none => enter s'

/-- The goals of a conditional after its first keyword. -/
def conditionalGoals : List Goal :=
  [.construct .expression, .construct .relation, .construct .expression, .token .thenKey,
   .construct .statement, .token .elseKey, .construct .statement]

/-- Names a procedure: declares it if the lookahead can be a name, and opens its scope in any case,
owned by whatever the lookahead is. -/
def nameProcedure (s : State) : State :=
  let owner := s.lookahead.text
  let declared := if s.sees .identifier then s.registerProcedure owner else (none, s)
  (declared.2.expect .identifier).2.openScope owner declared.1

/-- Resolves a statement. A token that starts none ends the parse on the line it stands on. -/
def statementMove (n : Nesting) (s : State) : Move :=
  nested n s fun inner =>
    match s.lookahead.kind with
    | .readKey => .go [.construct .readStatement, .endNesting] inner
    | .writeKey => .go [.construct .writeStatement, .endNesting] inner
    | .identifier => .go [.construct .assignment, .endNesting] inner
    | .ifKey => .go (conditionalGoals ++ [.endNesting]) inner.consume.2
    | _ =>
      let (token, s') := s.consume
      .halt (.notAStatement token.text) s.line s'

/-- Resolves the target of an assignment: a variable before a procedure, whose result it sets. -/
def assignmentMove (s : State) : Move :=
  let name := s.lookahead.text
  let value := [.token .assign, .construct .expression]
  if s.knowsVariable name then .go (.construct .reference :: value) s
  else if s.knowsProcedure name then .go (.construct .procedureName :: value) s
  else .go value (s.complain (.undefinedName name)).consume.2

/-- Resolves a factor: a name is a variable before it is a procedure that is called. An undefined
name is passed together with an argument that follows it. -/
def factorMove (s : State) : Move :=
  let found := s.lookahead.text
  if s.sees .constant then .go [] s.consume.2
  else if !s.sees .identifier then .go [] (s.complain (.notAFactor found))
  else if s.knowsVariable found then .go [.construct .reference] s
  else if s.knowsProcedure found then .go [.construct .argument] s.consume.2
  else
    let s := (s.complain (.undefinedName found)).consume.2
    .go (if s.sees .leftParen then [.construct .argument] else []) s

/-- Resolves a construct of the grammar. -/
def constructMove (n : Nesting) (c : Construct) (s : State) : Move :=
  match c with
  | .program => .go [.construct .body, .token .endOfFile] s
  | .body =>
    .go [.token .beginKey, .construct .declarations, .construct .statements, .token .endKey] s
  | .declarations =>
    if s.sees .integerKey then .go [.declared, .construct .declarations] s.consume.2 else .go [] s
  | .declaration => .go [.token .integerKey, .declared] s
  | .variableDeclaration =>
    let s' := if s.sees .identifier then s.registerVariable s.lookahead.text else s
    .go [] (s'.expect .identifier).2
  | .procedureDeclaration =>
    .go [.token .functionKey, .procedureHead, .token .leftParen, .construct .parameterDeclaration,
      .closeParen, .token .semicolon, .construct .procedureBody, .endScope] s
  | .parameterDeclaration =>
    let s' := if s.sees .identifier then s.registerParameter s.lookahead.text else s
    .go [] (s'.expect .identifier).2
  | .procedureBody =>
    nested n s fun s =>
      let s := { s with level := s.level + 1 }
      .go [.construct .body, .endBody] (s.note (.entered s.scope.owner s.level))
  | .statements =>
    .go (if s.atBlockEnd then [.moreStatements] else [.construct .statement, .moreStatements]) s
  | .statement => statementMove n s
  | .readStatement =>
    .go [.token .readKey, .token .leftParen, .construct .reference, .closeParen] s
  | .writeStatement =>
    .go [.token .writeKey, .token .leftParen, .construct .reference, .closeParen] s
  | .assignment => assignmentMove s
  | .conditional => .go (.token .ifKey :: conditionalGoals) s
  | .relation =>
    let s' :=
      if s.lookahead.kind.isRelational then s else s.complain (.notAnOperator s.lookahead.text)
    .go [] s'.consume.2
  | .expression =>
    nested n s fun s => .go [.construct .term, .moreTerms, .endNesting] s
  | .term => .go [.construct .factor, .moreFactors] s
  | .factor => factorMove s
  | .call => .go [.construct .procedureName, .construct .argument] s
  | .argument => .go [.token .leftParen, .construct .expression, .closeParen] s
  | .reference =>
    let name := s.lookahead.text
    let s' :=
      if s.sees .identifier && !s.knowsVariable name then s.complain (.undefinedVariable name)
      else s
    .go [] (s'.expect .identifier).2
  | .procedureName => .go [] (s.expect .identifier).2

/-- Resolves a goal. -/
def step (n : Nesting) (g : Goal) (s : State) : Move :=
  match g with
  | .construct c => constructMove n c s
  | .token kind => .go [] (s.expect kind).2
  | .closeParen => .go [] s.expectClose.2
  | .declared =>
    if s.sees .identifier then .go [.construct .variableDeclaration, .token .semicolon] s
    else if s.sees .functionKey then .go [.construct .procedureDeclaration, .token .semicolon] s
    else
      let s := s.complain (.notAVariableName s.lookahead.text)
      .go [.token .semicolon] (if s.sees .semicolon then s else s.consume.2)
  | .procedureHead => .go [] (nameProcedure s)
  | .endScope => .go [] s.closeScope
  | .endBody =>
    let s' := { s with level := s.level - 1, depth := s.depth - 1 }
    .go [] (s'.note (.left s.scope.owner s.level))
  | .endNesting => .go [] { s with depth := s.depth - 1 }
  | .moreStatements =>
    if s.sees .semicolon then
      let s := s.consume.2
      .go (if s.atBlockEnd then [] else [.construct .statement, .moreStatements]) s
    else .go [] s
  | .moreTerms =>
    if s.sees .minus then .go [.construct .term, .moreTerms] s.consume.2 else .go [] s
  | .moreFactors =>
    if s.sees .times then .go [.construct .factor, .moreFactors] s.consume.2 else .go [] s

end PocketPascal.Parser
