import PocketPascal.Proofs.Grammar
import PocketPascal.Proofs.Layout

/-! # Parses without complaints

A complaint is never taken back, and none is passed over before one is recorded. So a parse that
ends without errors has taken only steps that complain about nothing. Such a step depends on what
the grammar knows of a state alone; here these steps are told apart from all others, and a parse
without errors is the same as a run of them.
-/

namespace PocketPascal

namespace Parser

/-- The kind of the first lexeme, or of the end of file if there is none. -/
def headKind (ls : List Lexeme) : Kind :=
  (ls.head?.getD Token.endOfFile.toLexeme).kind

namespace View

/-- The first lexeme ahead, or an end of file. -/
def head (v : View) : Lexeme :=
  v.unread.head?.getD Token.endOfFile.toLexeme

/-- Whether the first lexeme is of a kind. -/
def sees (v : View) (kind : Kind) : Bool :=
  v.head.kind == kind

/-- The first lexeme is passed. -/
def pass (v : View) : View :=
  { v with unread := v.unread.tail }

/-- A lexeme of a kind is passed. -/
def take (v : View) (kind : Kind) : Option View :=
  if v.sees kind then some v.pass else none

/-- One nesting is entered, if it is admitted. -/
def nest (v : View) (n : Nesting) : Option View :=
  if n.Admits v.depth then some { v with depth := v.depth + 1 } else none

/-- The place of the declarations that are read. -/
def place (v : View) : Place :=
  { depth := v.depth, level := v.level, scope := v.scope }

/-- Whether the statements of a body are over. -/
def atBlockEnd (v : View) : Bool :=
  v.sees .endKey || v.sees .endOfFile

/-- The goals of a statement, and where they start; a conditional is past its first keyword. -/
def statementStep (v : View) : Option (List Goal × View) :=
  match v.head.kind with
  | .readKey => some ([.construct .readStatement, .endNesting], v)
  | .writeKey => some ([.construct .writeStatement, .endNesting], v)
  | .identifier => some ([.construct .assignment, .endNesting], v)
  | .ifKey => some (conditionalGoals ++ [.endNesting], v.pass)
  | _ => none

/-- The goals of a factor. -/
def factorStep (v : View) : Option (List Goal × View) :=
  if v.sees .constant then some ([], v.pass)
  else if !v.sees .identifier then none
  else if v.symbols.HasVariable v.head.text v.level then some ([.construct .reference], v)
  else if v.symbols.HasProcedure v.head.text v.level then some ([.construct .argument], v.pass)
  else none

/-- A step that complains about nothing, for a construct of the grammar. -/
def constructStep (n : Nesting) (c : Construct) (v : View) : Option (List Goal × View) :=
  match c with
  | .program => some ([.construct .body, .token .endOfFile], v)
  | .body =>
    some ([.token .beginKey, .construct .declarations, .construct .statements, .token .endKey], v)
  | .declarations =>
    if v.sees .integerKey then some ([.declared, .construct .declarations], v.pass)
    else some ([], v)
  | .declaration => some ([.token .integerKey, .declared], v)
  | .variableDeclaration =>
    if v.symbols.HasLocal v.scope v.head.text v.level then none
    else (v.take .identifier).map fun v' =>
      ([], { v' with
        symbols := v.symbols.withVariable v.scope v.head.text .localVariable v.level })
  | .procedureDeclaration =>
    some ([.token .functionKey, .procedureHead, .token .leftParen, .construct .parameterDeclaration,
      .closeParen, .token .semicolon, .construct .procedureBody, .endScope], v)
  | .parameterDeclaration =>
    (v.take .identifier).map fun v' =>
      ([], { v' with
        symbols := v.symbols.withVariable v.scope v.head.text .parameter (v.level + 1) })
  | .procedureBody =>
    (v.nest n).map fun v' => ([.construct .body, .endBody], { v' with level := v.level + 1 })
  | .statements =>
    some (if v.atBlockEnd then [.moreStatements] else [.construct .statement, .moreStatements], v)
  | .statement => (v.nest n).bind statementStep
  | .readStatement =>
    some ([.token .readKey, .token .leftParen, .construct .reference, .closeParen], v)
  | .writeStatement =>
    some ([.token .writeKey, .token .leftParen, .construct .reference, .closeParen], v)
  | .assignment =>
    if v.symbols.HasVariable v.head.text v.level then
      some ([.construct .reference, .token .assign, .construct .expression], v)
    else if v.symbols.HasProcedure v.head.text v.level then
      some ([.construct .procedureName, .token .assign, .construct .expression], v)
    else none
  | .conditional => some (.token .ifKey :: conditionalGoals, v)
  | .relation => if v.head.kind.isRelational then some ([], v.pass) else none
  | .expression =>
    (v.nest n).map fun v' => ([.construct .term, .moreTerms, .endNesting], v')
  | .term => some ([.construct .factor, .moreFactors], v)
  | .factor => v.factorStep
  | .call => some ([.construct .procedureName, .construct .argument], v)
  | .argument => some ([.token .leftParen, .construct .expression, .closeParen], v)
  | .reference =>
    if v.symbols.HasVariable v.head.text v.level then (v.take .identifier).map fun v' => ([], v')
    else none
  | .procedureName => (v.take .identifier).map fun v' => ([], v')

/-- A step that complains about nothing: the goals that replace a goal, and what the grammar knows
then. -/
def step (n : Nesting) (g : Goal) (v : View) : Option (List Goal × View) :=
  match g with
  | .construct c => v.constructStep n c
  | .token kind => (v.take kind).map fun v' => ([], v')
  | .closeParen => (v.take .rightParen).map fun v' => ([], v')
  | .declared =>
    if v.sees .identifier then some ([.construct .variableDeclaration, .token .semicolon], v)
    else if v.sees .functionKey then
      some ([.construct .procedureDeclaration, .token .semicolon], v)
    else none
  | .procedureHead =>
    if v.symbols.HasBody v.head.text (v.level + 1) then none
    else (v.take .identifier).map fun v' =>
      ([], { v' with
        scope := (v.place.inner v.symbols v.head.text).scope
        enclosing := v.scope :: v.enclosing
        symbols := v.symbols.withProcedure v.head.text (v.level + 1) })
  | .endScope =>
    match v.enclosing with
    | [] => some ([], v)
    | outer :: rest => some ([], { v with scope := outer, enclosing := rest })
  | .endBody => some ([], { v with level := v.level - 1, depth := v.depth - 1 })
  | .endNesting => some ([], { v with depth := v.depth - 1 })
  | .moreStatements =>
    if v.sees .semicolon then
      some (if v.pass.atBlockEnd then [] else [.construct .statement, .moreStatements], v.pass)
    else some ([], v)
  | .moreTerms =>
    if v.sees .minus then some ([.construct .term, .moreTerms], v.pass) else some ([], v)
  | .moreFactors =>
    if v.sees .times then some ([.construct .factor, .moreFactors], v.pass) else some ([], v)

end View

/-! ## What the lookups say -/

end Parser

namespace SymbolTable

theorem isSome_findVariable? (t : SymbolTable) (name : String) (level : Int) :
    (t.findVariable? name level).isSome = true ↔ t.HasVariable name level := by
  simp [findVariable?, HasVariable]

theorem isSome_findProcedure? (t : SymbolTable) (name : String) (level : Int) :
    (t.findProcedure? name level).isSome = true ↔ t.HasProcedure name level := by
  simp [findProcedure?, HasProcedure]

theorem duplicateProcedure?_eq_none (t : SymbolTable) (name : String) (level : Int) :
    t.duplicateProcedure? name level = none ↔ ¬ t.HasBody name level := by
  simp [duplicateProcedure?, HasBody]

theorem duplicateVariable?_eq_none (t : SymbolTable) (scope : Parser.Scope) (name : String)
    (level : Int) :
    t.duplicateVariable? name scope.owner .localVariable level scope.start = none ↔
      ¬ t.HasLocal scope name level := by
  have hstart : ¬ (scope.start : Int) < 0 := by omega
  simp [duplicateVariable?, variablesSince, hstart, HasLocal, and_assoc]

end SymbolTable

namespace Parser

theorem Nesting.refusal?_eq_none (n : Nesting) {depth : Nat} :
    n.refusal? depth = none ↔ n.Admits depth := by
  rw [Nesting.refusal?, Nesting.Admits]
  split
  · next hlimit =>
    constructor
    · simp
    · intro h
      exact absurd h.1 (Int.not_le.2 hlimit)
  · next hlimit =>
    cases n.capacity with
    | none => simp [Int.not_lt.1 hlimit]
    | some c => simp [Int.not_lt.1 hlimit]

/-! ## Complaints stay -/

/-- Something has been recorded. -/
theorem complained_invariant : Invariant fun s => s.errors ≠ [] := by
  refine .of_readsAs ?_ ?_ ?_
  · intro s s' hr h
    rw [hr.errors]
    exact h
  · intro s h
    rw [State.errors_consume]
    exact h
  · intro s h c m
    rw [State.errors_report]
    split
    · simp
    · exact h

namespace State

variable {s : State}

/-- The first complaint of all is recorded. -/
theorem Proper.errors_report_ne_nil (h : s.Proper) (c : Category) (m : String) :
    (s.report c m).errors ≠ [] := by
  rw [errors_report]
  split
  · simp
  · next ha => exact h.recorded (by simpa using ha)

theorem lookahead_eq_view_head (h : s.Settled) : s.lookahead.toLexeme = s.view.head :=
  lookahead_eq_head h

theorem text_eq_view (h : s.Settled) : s.lookahead.text = s.view.head.text :=
  congrArg Lexeme.text (lookahead_eq_view_head h)

theorem kind_eq_view (h : s.Settled) : s.lookahead.kind = s.view.head.kind :=
  congrArg Lexeme.kind (lookahead_eq_view_head h)

theorem sees_eq_view (h : s.Settled) (k : Kind) : s.sees k = s.view.sees k := by
  rw [sees, View.sees, kind_eq_view h]

theorem atBlockEnd_eq_view (h : s.Settled) : s.atBlockEnd = s.view.atBlockEnd := by
  rw [atBlockEnd, View.atBlockEnd, sees_eq_view h, sees_eq_view h]

theorem knowsVariable_iff (s : State) (name : String) :
    s.knowsVariable name = true ↔ s.view.symbols.HasVariable name s.view.level :=
  s.symbols.isSome_findVariable? name s.level

theorem knowsProcedure_iff (s : State) (name : String) :
    s.knowsProcedure name = true ↔ s.view.symbols.HasProcedure name s.view.level :=
  s.symbols.isSome_findProcedure? name s.level

/-- A local that is new is declared. -/
theorem registerVariable_of_new {name : String}
    (h : ¬ s.symbols.HasLocal s.scope name s.level) :
    s.registerVariable name =
      { s with symbols := s.symbols.withVariable s.scope name .localVariable s.level } := by
  rw [registerVariable, SymbolTable.declareVariable,
    (s.symbols.duplicateVariable?_eq_none s.scope name s.level).2 h]
  simp only [SymbolTable.addVariable, claim, SymbolTable.withVariable]
  cases s.scope.record <;> rfl

/-- A local that is there already is complained about. -/
theorem registerVariable_of_old {name : String} (h : s.symbols.HasLocal s.scope name s.level) :
    s.registerVariable name = s.complain (.redeclaredVariable name) := by
  cases hd : s.symbols.duplicateVariable? name s.scope.owner .localVariable s.level
      s.scope.start with
  | none => exact absurd h ((s.symbols.duplicateVariable?_eq_none s.scope name s.level).1 hd)
  | some v => rw [registerVariable, SymbolTable.declareVariable, hd]

theorem registerParameter_eq (s : State) (name : String) :
    s.registerParameter name =
      { s with symbols := s.symbols.withVariable s.scope name .parameter (s.level + 1) } := by
  rw [registerParameter]
  simp only [SymbolTable.addVariable, claim, SymbolTable.withVariable]
  cases s.scope.record <;> rfl

theorem registerProcedure_of_new {name : String} (h : ¬ s.symbols.HasBody name (s.level + 1)) :
    s.registerProcedure name =
      (some s.symbols.procs.length,
        { s with symbols := s.symbols.withProcedure name (s.level + 1) }) := by
  rw [registerProcedure, SymbolTable.declareProcedure,
    (s.symbols.duplicateProcedure?_eq_none name (s.level + 1)).2 h]
  rfl

theorem registerProcedure_of_old {name : String} (h : s.symbols.HasBody name (s.level + 1)) :
    s.registerProcedure name = (none, s.complain (.redeclaredProcedure name)) := by
  cases hd : s.symbols.duplicateProcedure? name (s.level + 1) with
  | none => exact absurd h ((s.symbols.duplicateProcedure?_eq_none name (s.level + 1)).1 hd)
  | some p => rw [registerProcedure, SymbolTable.declareProcedure, hd]

theorem expect_of_sees {k : Kind} (h : s.sees k = true) : s.expect k = s.consume := by
  rw [expect, expectOr, if_pos h]

theorem view_consume_eq_pass (s : State) : s.consume.2.view = s.view.pass :=
  view_consume s

end State

/-! ## Steps without complaints -/

/-- What a move comes to for the grammar if nothing has been complained about. -/
def Move.clean : Move → Option (List Goal × View)
  | .go goals s => if s.errors = [] then some (goals, s.view) else none
  | .halt .. => none

namespace Move

variable {s : State} {goals : List Goal}

theorem clean_go (h : s.errors = []) : (Move.go goals s).clean = some (goals, s.view) := by
  rw [clean, if_pos h]

theorem clean_of_errors (h : s.errors ≠ []) : (Move.go goals s).clean = none := by
  rw [clean, if_neg h]

theorem clean_consume (h : s.errors = []) :
    (Move.go goals s.consume.2).clean = some (goals, s.view.pass) := by
  rw [clean_go (by rw [State.errors_consume, h]), State.view_consume_eq_pass]

/-- A token that is expected is passed, and any other one is complained about. -/
theorem clean_expectOr (hs : s.Proper) (h : s.errors = []) (k : Kind) (m : String) :
    (Move.go goals (s.expectOr k m).2).clean = (s.view.take k).map fun v => (goals, v) := by
  rw [State.expectOr, View.take, State.sees_eq_view hs.settled]
  split
  · exact clean_consume h
  · exact clean_of_errors (complained_invariant.consume (hs.errors_report_ne_nil .grammar m))

theorem clean_expect (hs : s.Proper) (h : s.errors = []) (k : Kind) :
    (Move.go goals (s.expect k).2).clean = (s.view.take k).map fun v => (goals, v) :=
  clean_expectOr hs h k _

/-- A complaint before a token that is expected is still there after it. -/
theorem clean_expect_of_errors (h : s.errors ≠ []) (k : Kind) :
    (Move.go goals (s.expect k).2).clean = none :=
  clean_of_errors (State.expect_related (R := fun x _ => x.errors ≠ [])
    complained_invariant.consume complained_invariant.report rfl h k)

/-- A name is passed after its declaration. -/
theorem clean_expect_declared (h : s.errors = []) {k : Kind} (hk : s.sees k = true)
    (symbols : SymbolTable) :
    (Move.go goals (State.expect { s with symbols } k).2).clean =
      some (goals, { s.view.pass with symbols }) := by
  rw [State.expect_of_sees (s := { s with symbols }) hk]
  exact clean_consume (s := { s with symbols }) h

/-- A nesting that is refused ends the parse. -/
theorem clean_nested {n : Nesting} {enter : State → Move} {f : View → Option (List Goal × View)}
    (hf : (enter (s.atDepth (s.depth + 1))).clean = f { s.view with depth := s.depth + 1 }) :
    (nested n s enter).clean = (s.view.nest n).bind f := by
  have hview : s.view.depth = s.depth := rfl
  rw [nested, View.nest, hview]
  by_cases hd : n.Admits s.depth
  · rw [if_pos hd, n.refusal?_eq_none.2 hd]
    exact hf
  · rw [if_neg hd]
    cases hr : n.refusal? s.depth with
    | none => exact absurd (n.refusal?_eq_none.1 hr) hd
    | some reason => rfl

end Move

section Step

variable {s : State}

theorem clean_statementMove (hs : s.Proper) (h : s.errors = []) (n : Nesting) :
    (statementMove n s).clean =
      (s.view.nest n).bind View.statementStep := by
  refine Move.clean_nested ?_
  -- the nesting does not change what is looked at
  have hkind : ({ s.view with depth := s.depth + 1 } : View).head.kind = s.lookahead.kind :=
    (State.kind_eq_view hs.settled).symm
  rw [View.statementStep, hkind]
  cases s.lookahead.kind with
  | readKey => exact Move.clean_go h
  | writeKey => exact Move.clean_go h
  | identifier => exact Move.clean_go h
  | ifKey => exact Move.clean_consume (s := s.atDepth (s.depth + 1)) h
  | _ => rfl

theorem clean_assignmentMove (hs : s.Proper) (h : s.errors = []) (n : Nesting) :
    (assignmentMove s).clean = s.view.constructStep n .assignment := by
  rw [assignmentMove, View.constructStep, State.text_eq_view hs.settled]
  simp only [State.knowsVariable_iff, State.knowsProcedure_iff]
  split
  · exact Move.clean_go h
  split
  · exact Move.clean_go h
  · exact Move.clean_of_errors (complained_invariant.consume (hs.errors_report_ne_nil _ _))

theorem clean_factorMove (hs : s.Proper) (h : s.errors = []) :
    (factorMove s).clean = s.view.factorStep := by
  rw [factorMove, View.factorStep, State.text_eq_view hs.settled]
  simp only [State.knowsVariable_iff, State.knowsProcedure_iff, State.sees_eq_view hs.settled]
  split
  · exact Move.clean_consume h
  split
  · exact Move.clean_of_errors (hs.errors_report_ne_nil _ _)
  split
  · exact Move.clean_go h
  split
  · exact Move.clean_consume h
  · exact Move.clean_of_errors (complained_invariant.consume (hs.errors_report_ne_nil _ _))

theorem clean_variableDeclaration (hs : s.Proper) (h : s.errors = []) (n : Nesting) :
    (constructMove n .variableDeclaration s).clean =
      s.view.constructStep n .variableDeclaration := by
  have htext := State.text_eq_view hs.settled
  rw [constructMove, View.constructStep, ← htext]
  by_cases hx : s.sees .identifier
  · simp only [hx, if_true]
    have hview : s.view.sees .identifier = true := by rwa [← State.sees_eq_view hs.settled]
    split
    · next hold =>
      rw [State.registerVariable_of_old hold]
      exact Move.clean_expect_of_errors (hs.errors_report_ne_nil _ _) _
    · next hnew =>
      rw [State.registerVariable_of_new hnew, View.take, if_pos hview]
      exact Move.clean_expect_declared h hx _
  · have hview : ¬ s.view.sees .identifier = true := by rwa [← State.sees_eq_view hs.settled]
    simp only [if_neg hx]
    rw [Move.clean_expect hs h, View.take, if_neg hview]
    split <;> rfl

theorem clean_parameterDeclaration (hs : s.Proper) (h : s.errors = []) (n : Nesting) :
    (constructMove n .parameterDeclaration s).clean =
      s.view.constructStep n .parameterDeclaration := by
  have htext := State.text_eq_view hs.settled
  rw [constructMove, View.constructStep, ← htext]
  by_cases hx : s.sees .identifier
  · have hview : s.view.sees .identifier = true := by rwa [← State.sees_eq_view hs.settled]
    simp only [hx, if_true]
    rw [State.registerParameter_eq, View.take, if_pos hview]
    exact Move.clean_expect_declared h hx _
  · have hview : ¬ s.view.sees .identifier = true := by rwa [← State.sees_eq_view hs.settled]
    simp only [if_neg hx]
    rw [Move.clean_expect hs h, View.take, if_neg hview]
    rfl

theorem clean_reference (hs : s.Proper) (h : s.errors = []) (n : Nesting) :
    (constructMove n .reference s).clean =
      s.view.constructStep n .reference := by
  have htext := State.text_eq_view hs.settled
  rw [constructMove, View.constructStep, ← htext]
  by_cases hx : s.sees .identifier
  · by_cases hvar : s.knowsVariable s.lookahead.text
    · rw [if_pos ((State.knowsVariable_iff s _).1 hvar)]
      simp only [hx, hvar, Bool.not_true, Bool.and_false, Bool.false_eq_true, if_false]
      exact Move.clean_expect hs h _
    · rw [if_neg (mt (State.knowsVariable_iff s _).2 hvar)]
      simp only [hx, hvar, Bool.not_false, Bool.and_true, if_true]
      exact Move.clean_expect_of_errors (hs.errors_report_ne_nil _ _) _
  · have hview : ¬ s.view.sees .identifier = true := by rwa [← State.sees_eq_view hs.settled]
    simp only [hx, Bool.false_and, Bool.false_eq_true, if_false]
    rw [Move.clean_expect hs h, View.take, if_neg hview]
    split <;> rfl

theorem clean_procedureHead (hs : s.Proper) (h : s.errors = []) (n : Nesting) :
    (Move.go [] (nameProcedure s)).clean = s.view.step n .procedureHead := by
  have htext := State.text_eq_view hs.settled
  rw [nameProcedure, View.step, ← htext]
  by_cases hx : s.sees .identifier
  · have hview : s.view.sees .identifier = true := by rwa [← State.sees_eq_view hs.settled]
    simp only [hx, if_true]
    -- a name that is taken is complained about before it is passed
    split
    · next hold =>
      rw [State.registerProcedure_of_old hold]
      exact Move.clean_of_errors (State.expect_related (R := fun x _ => x.errors ≠ [])
        complained_invariant.consume complained_invariant.report rfl
        (hs.errors_report_ne_nil _ _) .identifier)
    · next hnew =>
      rw [State.registerProcedure_of_new hnew, View.take, if_pos hview]
      have hexpect := State.expect_of_sees (k := .identifier)
        (s := { s with symbols := s.symbols.withProcedure s.lookahead.text (s.level + 1) }) hx
      dsimp only
      rw [hexpect, Move.clean_go]
      · rw [State.view_openScope, State.view_consume]
        rfl
      · exact (State.errors_consume _).trans h
  · have hview : ¬ s.view.sees .identifier = true := by rwa [← State.sees_eq_view hs.settled]
    simp only [if_neg hx]
    rw [View.take, if_neg hview, State.expect, State.expectOr, if_neg hx]
    have hcomplained := complained_invariant.consume (hs.errors_report_ne_nil .grammar
      (Problem.unexpected .identifier s.lookahead.text).message)
    rw [Move.clean_of_errors]
    · split <;> rfl
    · exact hcomplained

theorem clean_constructMove (hs : s.Proper) (h : s.errors = []) (n : Nesting) (c : Construct) :
    (constructMove n c s).clean = s.view.constructStep n c := by
  cases c with
  | declarations =>
    rw [constructMove, View.constructStep, State.sees_eq_view hs.settled]
    split
    · exact Move.clean_consume h
    · exact Move.clean_go h
  | variableDeclaration => exact clean_variableDeclaration hs h n
  | parameterDeclaration => exact clean_parameterDeclaration hs h n
  | procedureBody =>
    rw [constructMove, View.constructStep, Option.map_eq_bind]
    exact Move.clean_nested (Move.clean_go h)
  | statements =>
    rw [constructMove, View.constructStep, State.atBlockEnd_eq_view hs.settled]
    exact Move.clean_go h
  | statement => exact clean_statementMove hs h n
  | assignment => exact clean_assignmentMove hs h n
  | relation =>
    rw [constructMove, View.constructStep, State.kind_eq_view hs.settled]
    by_cases hr : s.view.head.kind.isRelational
    · simp only [hr, if_true]
      exact Move.clean_consume h
    · simp only [hr]
      exact Move.clean_of_errors (complained_invariant.consume (hs.errors_report_ne_nil _ _))
  | expression =>
    rw [constructMove, View.constructStep, Option.map_eq_bind]
    exact Move.clean_nested (Move.clean_go h)
  | factor => exact clean_factorMove hs h
  | reference => exact clean_reference hs h n
  | procedureName => exact Move.clean_expect hs h _
  | _ => exact Move.clean_go h

/-- A step takes a state in which nothing is wrong to another one exactly as the grammar allows. -/
theorem clean_step (hs : s.Proper) (h : s.errors = []) (n : Nesting) (g : Goal) :
    (step n g s).clean = s.view.step n g := by
  cases g with
  | construct c => exact clean_constructMove hs h n c
  | token kind => exact Move.clean_expect hs h kind
  | closeParen => exact Move.clean_expectOr hs h _ _
  | declared =>
    rw [step, View.step, State.sees_eq_view hs.settled, State.sees_eq_view hs.settled]
    split
    · exact Move.clean_go h
    split
    · exact Move.clean_go h
    · have hwrong := hs.errors_report_ne_nil (Problem.notAVariableName s.lookahead.text).category
        (Problem.notAVariableName s.lookahead.text).message
      refine Move.clean_of_errors ?_
      split
      · exact hwrong
      · exact complained_invariant.consume hwrong
  | procedureHead => exact clean_procedureHead hs h n
  | endScope =>
    rw [step, View.step, Move.clean_go]
    · rw [State.view_closeScope]
      cases s.view.enclosing <;> rfl
    · unfold State.closeScope
      split <;> exact h
  | endBody => exact Move.clean_go h
  | endNesting => exact Move.clean_go h
  | moreStatements =>
    rw [step, View.step, State.sees_eq_view hs.settled]
    split
    · dsimp only
      rw [State.atBlockEnd_eq_view (State.settled_consume s), State.view_consume_eq_pass]
      exact Move.clean_consume h
    · exact Move.clean_go h
  | moreTerms =>
    rw [step, View.step, State.sees_eq_view hs.settled]
    split
    · exact Move.clean_consume h
    · exact Move.clean_go h
  | moreFactors =>
    rw [step, View.step, State.sees_eq_view hs.settled]
    split
    · exact Move.clean_consume h
    · exact Move.clean_go h

end Step

/-! ## Runs without complaints -/

/-- Goals that can be resolved without a complaint, and what the grammar knows before and after. -/
inductive Accepts (n : Nesting) : List Goal → View → View → Prop where
  | done (v : View) : Accepts n [] v v
  | next {g : Goal} {goals rest : List Goal} {v v₁ v' : View}
      (hstep : v.step n g = some (goals, v₁)) (h : Accepts n (goals ++ rest) v₁ v') :
      Accepts n (g :: rest) v v'

theorem accepts_nil {n : Nesting} {v v' : View} : Accepts n [] v v' ↔ v' = v := by
  constructor
  · rintro ⟨⟩
    rfl
  · rintro rfl
    exact .done _

theorem accepts_cons {n : Nesting} {g : Goal} {rest : List Goal} {v v' : View} :
    Accepts n (g :: rest) v v' ↔
      ∃ goals v₁, v.step n g = some (goals, v₁) ∧ Accepts n (goals ++ rest) v₁ v' := by
  constructor
  · rintro (_ | ⟨hstep, h⟩)
    exact ⟨_, _, hstep, h⟩
  · rintro ⟨goals, v₁, hstep, h⟩
    exact .next hstep h

/-- What is resolved without an error is resolved without a complaint, and the other way round. -/
theorem accepts_iff {n : Nesting} {goals : List Goal} {s : State} (hs : s.Proper)
    (h : s.errors = []) (v' : View) :
    Accepts n goals s.view v' ↔
      ∃ s', resolve n goals s = .finished s' ∧ s'.errors = [] ∧
        s'.view = v' := by
  -- along the resolution, as long as nothing has been complained about
  fun_induction resolve n goals s with
  | case1 s =>
    rw [accepts_nil]
    constructor
    · rintro rfl
      exact ⟨s, rfl, h, rfl⟩
    · rintro ⟨s', hs', -, rfl⟩
      rw [Outcome.finished.inj hs']
  | case2 s g rest goals' s₁ hstep ih =>
    have hclean := clean_step hs h n g
    rw [hstep] at hclean
    rw [accepts_cons, ← hclean]
    by_cases h₁ : s₁.errors = []
    · rw [Move.clean_go h₁, ← ih (proper_invariant.of_step hs hstep) h₁]
      constructor
      · rintro ⟨goals, v₁, hgo, hacc⟩
        cases hgo
        exact hacc
      · exact fun hacc => ⟨_, _, rfl, hacc⟩
    · rw [Move.clean_of_errors h₁]
      constructor
      · rintro ⟨goals, v₁, hgo, -⟩
        cases hgo
      · -- what is complained about in this step is still there in the end
        rintro ⟨s', hr, herrors, -⟩
        rcases complained_invariant.resolve h₁ n (goals' ++ rest) with
          ⟨s₂, hr₂, h₂⟩ | ⟨reason, found, s₂, hr₂, -⟩
        · rw [hr] at hr₂
          exact absurd (Outcome.finished.inj hr₂ ▸ herrors) h₂
        · rw [hr] at hr₂
          cases hr₂
  | case3 s g rest reason line s₁ hstep =>
    have hclean := clean_step hs h n g
    rw [hstep] at hclean
    rw [accepts_cons, ← hclean]
    constructor
    · rintro ⟨goals, v₁, hgo, -⟩
      cases hgo
    · rintro ⟨s', hr, -⟩
      cases hr

end Parser

end PocketPascal
