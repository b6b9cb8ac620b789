import PocketPascal.Parser.Step

/-! # The grammar

What a well-formed program is, said without a parser: derivations of lexemes from the phrases of
the grammar, at a place that tells how deep and in whose body a phrase stands. Statements and
expressions are read against the declarations made so far; declarations add to them. The table that
a derivation ends with is what the program declares.
-/

namespace PocketPascal

namespace SymbolTable

/-- A variable of this name can be meant at a level. -/
def HasVariable (t : SymbolTable) (name : String) (level : Int) : Prop :=
  ∃ v ∈ t.vars, v.name = name ∧ v.level ≤ level

/-- A procedure of this name can be meant at a level; its body is at most one level deeper. -/
def HasProcedure (t : SymbolTable) (name : String) (level : Int) : Prop :=
  ∃ p ∈ t.procs, p.name = name ∧ p.level ≤ level + 1

/-- A procedure of this name has its body at a level. -/
def HasBody (t : SymbolTable) (name : String) (level : Int) : Prop :=
  ∃ p ∈ t.procs, p.name = name ∧ p.level = level

/-- A local of this name was declared at a level since a scope was opened. -/
def HasLocal (t : SymbolTable) (scope : Parser.Scope) (name : String) (level : Int) : Prop :=
  ∃ v ∈ t.vars.drop scope.start,
    v.name = name ∧ v.owner = scope.owner ∧ v.kind = .localVariable ∧ v.level = level

instance (t : SymbolTable) (name : String) (level : Int) : Decidable (t.HasVariable name level) :=
  inferInstanceAs (Decidable (∃ v ∈ t.vars, v.name = name ∧ v.level ≤ level))

instance (t : SymbolTable) (name : String) (level : Int) : Decidable (t.HasProcedure name level) :=
  inferInstanceAs (Decidable (∃ p ∈ t.procs, p.name = name ∧ p.level ≤ level + 1))

instance (t : SymbolTable) (name : String) (level : Int) : Decidable (t.HasBody name level) :=
  inferInstanceAs (Decidable (∃ p ∈ t.procs, p.name = name ∧ p.level = level))

instance (t : SymbolTable) (scope : Parser.Scope) (name : String) (level : Int) :
    Decidable (t.HasLocal scope name level) :=
  inferInstanceAs (Decidable (∃ v ∈ t.vars.drop scope.start,
    v.name = name ∧ v.owner = scope.owner ∧ v.kind = .localVariable ∧ v.level = level))

/-- One variable more, at the next address, which the procedure of the scope claims. -/
def withVariable (t : SymbolTable) (scope : Parser.Scope) (name : String) (kind : VariableKind)
    (level : Int) : SymbolTable where
  vars := t.vars ++ [{ name, owner := scope.owner, kind, level, address := t.vars.length }]
  procs :=
    match scope.record with
    | some index => t.procs.modify index fun p => p.claim t.vars.length
    | none => t.procs

/-- One procedure more, which has claimed no address yet. -/
def withProcedure (t : SymbolTable) (name : String) (level : Int) : SymbolTable :=
  { t with procs := t.procs ++ [{ name, level }] }

end SymbolTable

namespace Parser

/-- What is `depth` deep may go one deeper: the limit is not reached, nor the capacity if there is
one. -/
def Nesting.Admits (n : Nesting) (depth : Nat) : Prop :=
  depth + 1 ≤ n.limit ∧ ∀ c ∈ n.capacity, depth + 1 ≤ c

instance (n : Nesting) (depth : Nat) : Decidable (n.Admits depth) :=
  inferInstanceAs (Decidable (depth + 1 ≤ n.limit ∧ ∀ c ∈ n.capacity, depth + 1 ≤ c))

/-- The phrases that declare nothing. What repeats is its first item and the rest of them. -/
inductive Phrase where
  | statements | moreStatements | statement | read | write | assignment | condition
  | expression | moreTerms | term | moreFactors | factor | argument

/-- The lexemes that can stand for a phrase, `depth` deep in a body at `level` where `t` is
declared. Every statement and every expression goes one deeper, as far as that is admitted. -/
inductive Derives (n : Nesting) (level : Int) (t : SymbolTable) :
    Phrase → Nat → List Lexeme → Prop where
  | noStatements {depth : Nat} : Derives n level t .statements depth []
  | statements {depth : Nat} {w w' : List Lexeme} (first : Derives n level t .statement depth w)
      (more : Derives n level t .moreStatements depth w') :
      Derives n level t .statements depth (w ++ w')
  | lastStatement {depth : Nat} : Derives n level t .moreStatements depth []
  | lastSemicolon {depth : Nat} {a : Lexeme} (ha : a.kind = .semicolon) :
      Derives n level t .moreStatements depth [a]
  | nextStatement {depth : Nat} {a : Lexeme} {w w' : List Lexeme} (ha : a.kind = .semicolon)
      (next : Derives n level t .statement depth w)
      (more : Derives n level t .moreStatements depth w') :
      Derives n level t .moreStatements depth (a :: (w ++ w'))
  | statement {depth : Nat} {form : Phrase} {w : List Lexeme}
      (hform : form = .read ∨ form = .write ∨ form = .assignment ∨ form = .condition)
      (hlimit : n.Admits depth) (h : Derives n level t form (depth + 1) w) :
      Derives n level t .statement depth w
  | read {depth : Nat} {a l x r : Lexeme} (ha : a.kind = .readKey) (hl : l.kind = .leftParen)
      (hx : x.kind = .identifier) (hvar : t.HasVariable x.text level) (hr : r.kind = .rightParen) :
      Derives n level t .read depth [a, l, x, r]
  | write {depth : Nat} {a l x r : Lexeme} (ha : a.kind = .writeKey) (hl : l.kind = .leftParen)
      (hx : x.kind = .identifier) (hvar : t.HasVariable x.text level) (hr : r.kind = .rightParen) :
      Derives n level t .write depth [a, l, x, r]
  | assignment {depth : Nat} {x a : Lexeme} {w : List Lexeme} (hx : x.kind = .identifier)
      (htarget : t.HasVariable x.text level ∨ t.HasProcedure x.text level) (ha : a.kind = .assign)
      (value : Derives n level t .expression depth w) :
      Derives n level t .assignment depth (x :: a :: w)
  | condition {depth : Nat} {i o a e : Lexeme} {w₁ w₂ w₃ w₄ : List Lexeme} (hi : i.kind = .ifKey)
      (left : Derives n level t .expression depth w₁) (ho : o.kind.isRelational = true)
      (right : Derives n level t .expression depth w₂) (ha : a.kind = .thenKey)
      (yes : Derives n level t .statement depth w₃) (he : e.kind = .elseKey)
      (no : Derives n level t .statement depth w₄) :
      Derives n level t .condition depth (i :: (w₁ ++ o :: (w₂ ++ a :: (w₃ ++ e :: w₄))))
  | expression {depth : Nat} {w w' : List Lexeme} (hlimit : n.Admits depth)
      (first : Derives n level t .term (depth + 1) w)
      (more : Derives n level t .moreTerms (depth + 1) w') :
      Derives n level t .expression depth (w ++ w')
  | lastTerm {depth : Nat} : Derives n level t .moreTerms depth []
  | nextTerm {depth : Nat} {a : Lexeme} {w w' : List Lexeme} (ha : a.kind = .minus)
      (next : Derives n level t .term depth w)
      (more : Derives n level t .moreTerms depth w') :
      Derives n level t .moreTerms depth (a :: (w ++ w'))
  | term {depth : Nat} {w w' : List Lexeme} (first : Derives n level t .factor depth w)
      (more : Derives n level t .moreFactors depth w') :
      Derives n level t .term depth (w ++ w')
  | lastFactor {depth : Nat} : Derives n level t .moreFactors depth []
  | nextFactor {depth : Nat} {a : Lexeme} {w w' : List Lexeme} (ha : a.kind = .times)
      (next : Derives n level t .factor depth w)
      (more : Derives n level t .moreFactors depth w') :
      Derives n level t .moreFactors depth (a :: (w ++ w'))
  | constant {depth : Nat} {a : Lexeme} (ha : a.kind = .constant) :
      Derives n level t .factor depth [a]
  | reference {depth : Nat} {x : Lexeme} (hx : x.kind = .identifier)
      (hvar : t.HasVariable x.text level) : Derives n level t .factor depth [x]
  | call {depth : Nat} {x : Lexeme} {w : List Lexeme} (hx : x.kind = .identifier)
      (hvar : ¬ t.HasVariable x.text level) (hproc : t.HasProcedure x.text level)
      (argument : Derives n level t .argument depth w) :
      Derives n level t .factor depth (x :: w)
  | argument {depth : Nat} {l r : Lexeme} {w : List Lexeme} (hl : l.kind = .leftParen)
      (value : Derives n level t .expression depth w) (hr : r.kind = .rightParen) :
      Derives n level t .argument depth (l :: (w ++ [r]))

/-- Where declarations stand: how deep, at which level, and in which scope. -/
structure Place where
  depth : Nat := 0
  level : Int := 1
  scope : Scope := .program

/-- The place of the body of a procedure that is declared at a place. -/
def Place.inner (p : Place) (t : SymbolTable) (name : String) : Place where
  depth := p.depth + 1
  level := p.level + 1
  scope := { owner := name, record := some t.procs.length, start := t.vars.length }

/-- The phrases that declare something. -/
inductive Block where
  | body | declarations | declaration | procedure

/-- The lexemes that can stand for a block at a place where `t` is declared before it, and what is
declared after it. -/
inductive Declares (n : Nesting) :
    Block → Place → SymbolTable → List Lexeme → SymbolTable → Prop where
  | body {p : Place} {t t' : SymbolTable} {b e : Lexeme} {w w' : List Lexeme}
      (hb : b.kind = .beginKey) (declarations : Declares n .declarations p t w t')
      (statements : Derives n p.level t' .statements p.depth w') (he : e.kind = .endKey) :
      Declares n .body p t (b :: (w ++ (w' ++ [e]))) t'
  | noDeclarations {p : Place} {t : SymbolTable} : Declares n .declarations p t [] t
  | nextDeclaration {p : Place} {t t₁ t₂ : SymbolTable} {w w' : List Lexeme}
      (next : Declares n .declaration p t w t₁)
      (more : Declares n .declarations p t₁ w' t₂) :
      Declares n .declarations p t (w ++ w') t₂
  | newVariable {p : Place} {t : SymbolTable} {i x s : Lexeme} (hi : i.kind = .integerKey)
      (hx : x.kind = .identifier) (hnew : ¬ t.HasLocal p.scope x.text p.level)
      (hs : s.kind = .semicolon) :
      Declares n .declaration p t [i, x, s] (t.withVariable p.scope x.text .localVariable p.level)
  | newProcedure {p : Place} {t t' : SymbolTable} {i s : Lexeme} {w : List Lexeme}
      (hi : i.kind = .integerKey) (procedure : Declares n .procedure p t w t')
      (hs : s.kind = .semicolon) : Declares n .declaration p t (i :: (w ++ [s])) t'
  | procedure {p : Place} {t t' : SymbolTable} {f x l y r s : Lexeme} {w : List Lexeme}
      (hf : f.kind = .functionKey) (hx : x.kind = .identifier)
      (hnew : ¬ t.HasBody x.text (p.level + 1)) (hl : l.kind = .leftParen)
      (hy : y.kind = .identifier) (hr : r.kind = .rightParen) (hs : s.kind = .semicolon)
      (hlimit : n.Admits p.depth)
      (body : Declares n .body (p.inner t x.text)
        ((t.withProcedure x.text (p.level + 1)).withVariable (p.inner t x.text).scope y.text
          .parameter (p.level + 1)) w t') :
      Declares n .procedure p t (f :: x :: l :: y :: r :: s :: w) t'

/-- A program at the start of some lexemes: `w` are its lexemes, with the end of file that closes it
unless the lexemes end with it, and `t` is what it declares. -/
inductive ProgramIn (n : Nesting) : List Lexeme → List Lexeme → SymbolTable → Prop where
  | toLast {w : List Lexeme} {t : SymbolTable} (body : Declares n .body {} {} w t) :
      ProgramIn n w w t
  | toEndOfFile {w rest : List Lexeme} {e : Lexeme} {t : SymbolTable}
      (body : Declares n .body {} {} w t) (he : e.kind = .endOfFile) :
      ProgramIn n (w ++ e :: rest) (w ++ [e]) t

end Parser

end PocketPascal
