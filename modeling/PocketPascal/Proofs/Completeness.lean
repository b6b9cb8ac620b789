import PocketPascal.Proofs.Soundness

/-! # What is derived is accepted

A run without complaints follows a derivation: where the grammar leaves open whether a phrase goes
on, the next lexeme decides, and no phrase may be followed by a lexeme that it could go on with.
-/

namespace PocketPascal.Parser

namespace Phrase

/-- The goal that reads a phrase. -/
def goal : Phrase → Goal
  | statements => .construct .statements
  | moreStatements => .moreStatements
  | statement => .construct .statement
  | read => .construct .readStatement
  | write => .construct .writeStatement
  | assignment => .construct .assignment
  | condition => .construct .conditional
  | expression => .construct .expression
  | moreTerms => .moreTerms
  | term => .construct .term
  | moreFactors => .moreFactors
  | factor => .construct .factor
  | argument => .construct .argument

/-- The kinds that may follow a phrase: what it could go on with may not. -/
def Follow : Phrase → Kind → Prop
  | statements, k | moreStatements, k => k = .endKey
  | statement, k | assignment, k | condition, k | expression, k | moreTerms, k =>
    k ≠ .minus ∧ k ≠ .times
  | term, k | moreFactors, k => k ≠ .times
  | read, _ | write, _ | factor, _ | argument, _ => True

/-- The kind that a form of statements starts with. -/
def start : Phrase → Kind
  | read => .readKey
  | write => .writeKey
  | condition => .ifKey
  | _ => .identifier

end Phrase

/-! ## First lexemes -/

section Heads

variable {n : Nesting} {level : Int} {t : SymbolTable} {depth : Nat} {w rest : List Lexeme}

theorem headKind_cons (a : Lexeme) (w : List Lexeme) : headKind (a :: w) = a.kind := rfl

/-- The form of a statement shows in its first lexeme. -/
theorem headKind_form {form : Phrase}
    (hform : form = .read ∨ form = .write ∨ form = .assignment ∨ form = .condition)
    (h : Derives n level t form depth w) (rest : List Lexeme) :
    headKind (w ++ rest) = form.start := by
  rcases hform with rfl | rfl | rfl | rfl
  · cases h with
    | read ha => exact ha
  · cases h with
    | write ha => exact ha
  · cases h with
    | assignment hx => exact hx
  · cases h with
    | condition hi => exact hi

theorem headKind_statement (h : Derives n level t .statement depth w) (rest : List Lexeme) :
    headKind (w ++ rest) ≠ .endKey ∧ headKind (w ++ rest) ≠ .endOfFile := by
  cases h with
  | statement hform _ h =>
    rw [headKind_form hform h]
    rcases hform with rfl | rfl | rfl | rfl <;> decide

/-- After a statement comes a semicolon or the end of the block. -/
theorem follow_moreStatements (h : Derives n level t .moreStatements depth w)
    (hend : headKind rest = .endKey) : Phrase.statement.Follow (headKind (w ++ rest)) := by
  have hkind : headKind (w ++ rest) = .semicolon ∨ headKind (w ++ rest) = .endKey := by
    cases h with
    | lastStatement => exact Or.inr hend
    | lastSemicolon ha => exact Or.inl ha
    | nextStatement ha => exact Or.inl ha
  rcases hkind with hkind | hkind <;> rw [hkind] <;> exact ⟨by decide, by decide⟩

/-- After a term comes a minus sign or what follows the expression. -/
theorem follow_moreTerms (h : Derives n level t .moreTerms depth w)
    (hf : headKind rest ≠ .times) : Phrase.term.Follow (headKind (w ++ rest)) := by
  cases h with
  | lastTerm => exact hf
  | nextTerm ha =>
    intro h
    cases ha.symm.trans h

theorem isRelational_follow {k : Kind} (h : k.isRelational = true) : k ≠ .minus ∧ k ≠ .times := by
  constructor <;> rintro rfl <;> exact absurd h (by decide)

end Heads

/-! ## One goal after the other -/

section Goals

variable {n : Nesting} {v v' : View} {goals : List Goal} {a : Lexeme} {rest : List Lexeme}

theorem View.sees_iff {k : Kind} : v.sees k = true ↔ headKind v.unread = k := by
  simp [View.sees, View.head, headKind]

theorem View.atBlockEnd_iff :
    v.atBlockEnd = true ↔ headKind v.unread = .endKey ∨ headKind v.unread = .endOfFile := by
  rw [View.atBlockEnd, Bool.or_eq_true, View.sees_iff, View.sees_iff]

theorem View.take_of_head {k : Kind} (hv : v.unread = a :: rest) (ha : a.kind = k) :
    v.take k = some { v with unread := rest } := by
  rw [View.take, View.sees, View.head_eq hv, if_pos (by simpa using ha), View.pass_eq hv]

/-- A goal that nothing replaces. -/
theorem accepts_resolved {g : Goal} {u : View} (hstep : v.step n g = some ([], u))
    (h : Accepts n goals u v') : Accepts n (g :: goals) v v' :=
  .next hstep h

/-- A goal that takes one lexeme of a kind. -/
theorem accepts_take {g : Goal} {k : Kind}
    (hg : v.step n g = (v.take k).map fun u => ([], u)) (hv : v.unread = a :: rest)
    (ha : a.kind = k) (h : Accepts n goals { v with unread := rest } v') :
    Accepts n (g :: goals) v v' := by
  refine accepts_resolved ?_ h
  rw [hg, View.take_of_head hv ha]
  rfl

theorem accepts_token {k : Kind} (hv : v.unread = a :: rest) (ha : a.kind = k)
    (h : Accepts n goals { v with unread := rest } v') :
    Accepts n (.token k :: goals) v v' :=
  accepts_take rfl hv ha h

theorem accepts_closeParen (hv : v.unread = a :: rest) (ha : a.kind = .rightParen)
    (h : Accepts n goals { v with unread := rest } v') :
    Accepts n (.closeParen :: goals) v v' :=
  accepts_take rfl hv ha h

theorem accepts_reference (hv : v.unread = a :: rest) (ha : a.kind = .identifier)
    (hvar : v.symbols.HasVariable a.text v.level)
    (h : Accepts n goals { v with unread := rest } v') :
    Accepts n (.construct .reference :: goals) v v' := by
  refine accepts_take ?_ hv ha h
  rw [View.step, View.constructStep, View.head_eq hv, if_pos hvar]

theorem accepts_relation (hv : v.unread = a :: rest) (ha : a.kind.isRelational = true)
    (h : Accepts n goals { v with unread := rest } v') :
    Accepts n (.construct .relation :: goals) v v' := by
  refine accepts_resolved ?_ h
  rw [View.step, View.constructStep, View.head_eq hv, if_pos ha, View.pass_eq hv]

/-- What reads and writes have in common. -/
theorem accepts_access {g : Goal} {k : Kind} {l x r : Lexeme}
    (hg : v.step n g =
      some ([.token k, .token .leftParen, .construct .reference, .closeParen], v))
    (hv : v.unread = a :: l :: x :: r :: rest) (ha : a.kind = k) (hl : l.kind = .leftParen)
    (hx : x.kind = .identifier) (hvar : v.symbols.HasVariable x.text v.level)
    (hr : r.kind = .rightParen) (h : Accepts n goals { v with unread := rest } v') :
    Accepts n (g :: goals) v v' := by
  refine .next hg (accepts_token hv ha ?_)
  refine accepts_token (v := { v with unread := l :: x :: r :: rest }) rfl hl ?_
  refine accepts_reference (v := { v with unread := x :: r :: rest }) rfl hx hvar ?_
  exact accepts_closeParen (v := { v with unread := r :: rest }) rfl hr h

/-- An assignment reads its target as a variable if it can, and as a procedure otherwise. -/
theorem accepts_assignment (hv : v.unread = a :: rest) (ha : a.kind = .identifier)
    (htarget : v.symbols.HasVariable a.text v.level ∨ v.symbols.HasProcedure a.text v.level)
    (h : Accepts n (.token .assign :: .construct .expression :: goals)
      { v with unread := rest } v') :
    Accepts n (.construct .assignment :: goals) v v' := by
  by_cases hvar : v.symbols.HasVariable a.text v.level
  · have hstep : v.step n (.construct .assignment) =
        some ([.construct .reference, .token .assign, .construct .expression], v) := by
      rw [View.step, View.constructStep, View.head_eq hv, if_pos hvar]
    exact .next hstep (accepts_reference hv ha hvar h)
  · have hstep : v.step n (.construct .assignment) =
        some ([.construct .procedureName, .token .assign, .construct .expression], v) := by
      rw [View.step, View.constructStep, View.head_eq hv, if_neg hvar,
        if_pos (htarget.resolve_left hvar)]
    exact .next hstep (accepts_take rfl hv ha h)

/-- A conditional that is read with its first keyword is read after it. -/
theorem accepts_conditionalGoals (hi : headKind v.unread = .ifKey)
    (h : Accepts n (.construct .conditional :: goals) v v') :
    Accepts n (conditionalGoals ++ goals) v.pass v' := by
  -- two steps are undone: the one into the goals, and the one past the keyword
  obtain ⟨goals', v₁, hstep, h⟩ := accepts_cons.1 h
  cases hstep
  obtain ⟨goals', v₁, hstep, h⟩ := accepts_cons.1 h
  rw [View.step, View.take, if_pos (View.sees_iff.2 hi)] at hstep
  cases hstep
  exact h

/-- A statement is read where its form is read one deeper. -/
theorem accepts_statement {form : Phrase}
    (hform : form = .read ∨ form = .write ∨ form = .assignment ∨ form = .condition)
    (hhead : headKind v.unread = form.start) (hlimit : n.Admits v.depth)
    (h : Accepts n (form.goal :: .endNesting :: goals) { v with depth := v.depth + 1 } v') :
    Accepts n (.construct .statement :: goals) v v' := by
  have hnest : v.step n (.construct .statement) =
      ({ v with depth := v.depth + 1 } : View).statementStep := by
    rw [View.step, View.constructStep, View.nest_eq_some.2 ⟨hlimit, rfl⟩]
    rfl
  have hkind : ({ v with depth := v.depth + 1 } : View).head.kind = form.start := hhead
  rw [View.statementStep, hkind] at hnest
  rcases hform with rfl | rfl | rfl | rfl
  · exact .next hnest h
  · exact .next hnest h
  · exact .next hnest h
  · refine .next hnest ?_
    rw [List.append_assoc]
    exact accepts_conditionalGoals (v := { v with depth := v.depth + 1 }) hhead h

/-- Where no separator is seen, there is no further item. -/
theorem accepts_stop {g : Goal} {k : Kind} {items : List Goal}
    (hg : v.step n g = if v.sees k then some (items, v.pass) else some ([], v))
    (hstop : headKind v.unread ≠ k) (h : Accepts n goals v v') :
    Accepts n (g :: goals) v v' := by
  refine accepts_resolved ?_ h
  rw [hg, if_neg (mt View.sees_iff.1 hstop)]

/-- Where the separator is seen, a further item follows it. -/
theorem accepts_more {g : Goal} {k : Kind} {items : List Goal}
    (hg : v.step n g = if v.sees k then some (items, v.pass) else some ([], v))
    (hv : v.unread = a :: rest) (ha : a.kind = k)
    (h : Accepts n (items ++ goals) { v with unread := rest } v') :
    Accepts n (g :: goals) v v' := by
  have hsees : v.sees k = true := View.sees_iff.2 (by rw [hv]; exact ha)
  rw [if_pos hsees, View.pass_eq hv] at hg
  exact .next hg h

/-- A semicolon before the end of a block separates nothing. -/
theorem accepts_lastSemicolon (hv : v.unread = a :: rest) (ha : a.kind = .semicolon)
    (hend : headKind rest = .endKey) (h : Accepts n goals { v with unread := rest } v') :
    Accepts n (.moreStatements :: goals) v v' := by
  refine accepts_more rfl hv ha ?_
  rw [View.pass_eq hv, if_pos (View.atBlockEnd_iff.2 (Or.inl hend))]
  exact h

theorem accepts_nextStatement (hv : v.unread = a :: rest) (ha : a.kind = .semicolon)
    (hgo : headKind rest ≠ .endKey ∧ headKind rest ≠ .endOfFile)
    (h : Accepts n (.construct .statement :: .moreStatements :: goals)
      { v with unread := rest } v') :
    Accepts n (.moreStatements :: goals) v v' := by
  refine accepts_more rfl hv ha ?_
  rw [View.pass_eq hv, if_neg (mt View.atBlockEnd_iff.1 (not_or.2 hgo))]
  exact h

theorem accepts_statements (hgo : headKind v.unread ≠ .endKey ∧ headKind v.unread ≠ .endOfFile)
    (h : Accepts n (.construct .statement :: .moreStatements :: goals) v v') :
    Accepts n (.construct .statements :: goals) v v' := by
  have hstep : v.step n (.construct .statements) =
      some ([.construct .statement, .moreStatements], v) := by
    rw [View.step, View.constructStep, if_neg (mt View.atBlockEnd_iff.1 (not_or.2 hgo))]
  exact .next hstep h

theorem accepts_noStatements (hend : headKind v.unread = .endKey) (h : Accepts n goals v v') :
    Accepts n (.construct .statements :: goals) v v' := by
  have hstep : v.step n (.construct .statements) = some ([.moreStatements], v) := by
    rw [View.step, View.constructStep, if_pos (View.atBlockEnd_iff.2 (Or.inl hend))]
  exact .next hstep (accepts_stop rfl (by simp [hend]) h)

/-- An expression is read where its terms are read one deeper. -/
theorem accepts_expression (hlimit : n.Admits v.depth)
    (h : Accepts n (.construct .term :: .moreTerms :: .endNesting :: goals)
      { v with depth := v.depth + 1 } v') :
    Accepts n (.construct .expression :: goals) v v' := by
  have hstep : v.step n (.construct .expression) =
      some ([.construct .term, .moreTerms, .endNesting], { v with depth := v.depth + 1 }) := by
    rw [View.step, View.constructStep, View.nest_eq_some.2 ⟨hlimit, rfl⟩]
    rfl
  exact .next hstep h

theorem accepts_constant (hv : v.unread = a :: rest) (ha : a.kind = .constant)
    (h : Accepts n goals { v with unread := rest } v') :
    Accepts n (.construct .factor :: goals) v v' := by
  have hsees : v.sees .constant = true := View.sees_iff.2 (by rw [hv]; exact ha)
  refine accepts_resolved ?_ h
  rw [View.step, View.constructStep, View.factorStep, if_pos hsees, View.pass_eq hv]

/-- A factor that starts with a name is a variable if it can be one, and a call otherwise. -/
theorem factorStep_name (hv : v.unread = a :: rest) (ha : a.kind = .identifier) :
    v.step n (.construct .factor) =
      if v.symbols.HasVariable a.text v.level then some ([.construct .reference], v)
      else if v.symbols.HasProcedure a.text v.level then
        some ([.construct .argument], { v with unread := rest })
      else none := by
  have hsees : v.sees .identifier = true := View.sees_iff.2 (by rw [hv]; exact ha)
  have hconstant : ¬ v.sees .constant = true := by
    rw [View.sees_iff, hv, headKind_cons, ha]
    decide
  rw [View.step, View.constructStep, View.factorStep, if_neg hconstant, hsees, View.head_eq hv,
    View.pass_eq hv]
  rfl

theorem accepts_variable (hv : v.unread = a :: rest) (ha : a.kind = .identifier)
    (hvar : v.symbols.HasVariable a.text v.level)
    (h : Accepts n goals { v with unread := rest } v') :
    Accepts n (.construct .factor :: goals) v v' := by
  have hstep : v.step n (.construct .factor) = some ([.construct .reference], v) := by
    rw [factorStep_name hv ha, if_pos hvar]
  exact .next hstep (accepts_reference hv ha hvar h)

theorem accepts_call (hv : v.unread = a :: rest) (ha : a.kind = .identifier)
    (hvar : ¬ v.symbols.HasVariable a.text v.level)
    (hproc : v.symbols.HasProcedure a.text v.level)
    (h : Accepts n (.construct .argument :: goals) { v with unread := rest } v') :
    Accepts n (.construct .factor :: goals) v v' := by
  have hstep : v.step n (.construct .factor) =
      some ([.construct .argument], { v with unread := rest }) := by
    rw [factorStep_name hv ha, if_neg hvar, if_pos hproc]
  exact .next hstep h

theorem accepts_argument {l r : Lexeme} {w : List Lexeme} (hv : v.unread = l :: (w ++ r :: rest))
    (hl : l.kind = .leftParen) (hr : r.kind = .rightParen)
    (hvalue : ∀ {goals : List Goal}, Accepts n goals { v with unread := r :: rest } v' →
      Accepts n (.construct .expression :: goals) { v with unread := w ++ r :: rest } v')
    (h : Accepts n goals { v with unread := rest } v') :
    Accepts n (.construct .argument :: goals) v v' := by
  have hstep : v.step n (.construct .argument) =
      some ([.token .leftParen, .construct .expression, .closeParen], v) := rfl
  refine .next hstep (accepts_token hv hl (hvalue ?_))
  exact accepts_closeParen (v := { v with unread := r :: rest }) rfl hr h

end Goals

/-! ## Phrases -/

/-- A phrase that is derived, and that what follows cannot be part of, is read. -/
theorem Derives.accepts {n : Nesting} {v : View} {ph : Phrase} {depth : Nat} {w : List Lexeme}
    (h : Derives n v.level v.symbols ph depth w) {rest : List Lexeme} {goals : List Goal}
    {v' : View} (hf : ph.Follow (headKind rest))
    (hrest : Accepts n goals { v with unread := rest, depth } v') :
    Accepts n (ph.goal :: goals) { v with unread := w ++ rest, depth } v' := by
  -- on the derivation; what follows a part of a phrase is the rest of the phrase
  induction h generalizing rest goals with
  | noStatements => exact accepts_noStatements hf hrest
  | statements hw hw' first more =>
    rw [List.append_assoc]
    exact accepts_statements (headKind_statement hw _)
      (first (follow_moreStatements hw' hf) (more hf hrest))
  | lastStatement =>
    have hend : headKind rest = .endKey := hf
    have hsemicolon : headKind rest ≠ .semicolon := by simp [hend]
    exact accepts_stop rfl hsemicolon hrest
  | lastSemicolon ha => exact accepts_lastSemicolon rfl ha hf hrest
  | nextStatement ha hw hw' next more =>
    rw [List.cons_append, List.append_assoc]
    exact accepts_nextStatement rfl ha (headKind_statement hw _)
      (next (follow_moreStatements hw' hf) (more hf hrest))
  | statement hform hlimit hw ih =>
    refine accepts_statement hform (headKind_form hform hw _) hlimit (ih ?_ ?_)
    · rcases hform with rfl | rfl | rfl | rfl
      · trivial
      · trivial
      · exact hf
      · exact hf
    · exact accepts_resolved rfl hrest
  | read ha hl hx hvar hr => exact accepts_access rfl rfl ha hl hx hvar hr hrest
  | write ha hl hx hvar hr => exact accepts_access rfl rfl ha hl hx hvar hr hrest
  | assignment hx htarget ha _ value =>
    refine accepts_assignment rfl hx htarget (accepts_token rfl ha ?_)
    exact value hf hrest
  | condition hi _ ho _ ha _ he _ left right yes no =>
    simp only [List.cons_append, List.append_assoc]
    refine .next rfl (accepts_token rfl hi ?_)
    -- the operator and the keywords end what stands before them
    refine left (isRelational_follow ho) (accepts_relation rfl ho ?_)
    refine right ?_ (accepts_token rfl ha ?_)
    · rw [headKind_cons, ha]
      exact ⟨by decide, by decide⟩
    refine yes ?_ (accepts_token rfl he (no hf hrest))
    rw [headKind_cons, he]
    exact ⟨by decide, by decide⟩
  | expression hlimit _ hw' first more =>
    rw [List.append_assoc]
    exact accepts_expression hlimit
      (first (follow_moreTerms hw' hf.2) (more hf (accepts_resolved rfl hrest)))
  | lastTerm => exact accepts_stop rfl hf.1 hrest
  | nextTerm ha _ hw' next more =>
    rw [List.cons_append, List.append_assoc]
    exact accepts_more rfl rfl ha (next (follow_moreTerms hw' hf.2) (more hf hrest))
  | term _ _ first more =>
    rw [List.append_assoc]
    exact .next rfl (first trivial (more hf hrest))
  | lastFactor => exact accepts_stop rfl hf hrest
  | nextFactor ha _ _ next more =>
    rw [List.cons_append, List.append_assoc]
    exact accepts_more rfl rfl ha (next trivial (more hf hrest))
  | constant ha => exact accepts_constant rfl ha hrest
  | reference hx hvar =>
    exact accepts_variable rfl hx hvar hrest
  | call hx hvar hproc _ argument =>
    exact accepts_call rfl hx hvar hproc (argument trivial hrest)
  | argument hl _ hr value =>
    rw [List.cons_append, List.append_assoc]
    refine accepts_argument rfl hl hr (fun h => value ?_ h) hrest
    rw [headKind_cons, hr]
    exact ⟨by decide, by decide⟩

/-! ## Declarations -/

section Declarations

variable {n : Nesting} {v v' : View} {goals : List Goal} {a : Lexeme} {rest : List Lexeme}

theorem accepts_variableDeclaration (hv : v.unread = a :: rest) (ha : a.kind = .identifier)
    (hnew : ¬ v.symbols.HasLocal v.scope a.text v.level)
    (h : Accepts n goals { v with
      unread := rest
      symbols := v.symbols.withVariable v.scope a.text .localVariable v.level } v') :
    Accepts n (.construct .variableDeclaration :: goals) v v' := by
  refine accepts_resolved ?_ h
  rw [View.step, View.constructStep, View.head_eq hv, if_neg hnew, View.take_of_head hv ha]
  rfl

theorem accepts_parameterDeclaration (hv : v.unread = a :: rest) (ha : a.kind = .identifier)
    (h : Accepts n goals { v with
      unread := rest
      symbols := v.symbols.withVariable v.scope a.text .parameter (v.level + 1) } v') :
    Accepts n (.construct .parameterDeclaration :: goals) v v' := by
  refine accepts_resolved ?_ h
  rw [View.step, View.constructStep, View.head_eq hv, View.take_of_head hv ha]
  rfl

theorem accepts_procedureHead (hv : v.unread = a :: rest) (ha : a.kind = .identifier)
    (hnew : ¬ v.symbols.HasBody a.text (v.level + 1))
    (h : Accepts n goals { v with
      unread := rest
      scope := (v.place.inner v.symbols a.text).scope
      enclosing := v.scope :: v.enclosing
      symbols := v.symbols.withProcedure a.text (v.level + 1) } v') :
    Accepts n (.procedureHead :: goals) v v' := by
  refine accepts_resolved ?_ h
  rw [View.step, View.head_eq hv, if_neg hnew, View.take_of_head hv ha]
  rfl

/-- A body is read where it is read one deeper and one level further in. -/
theorem accepts_procedureBody (hlimit : n.Admits v.depth)
    (h : Accepts n (.construct .body :: .endBody :: goals)
      { v with depth := v.depth + 1, level := v.level + 1 } v') :
    Accepts n (.construct .procedureBody :: goals) v v' := by
  have hstep : v.step n (.construct .procedureBody) =
      some ([.construct .body, .endBody],
        { v with depth := v.depth + 1, level := v.level + 1 }) := by
    rw [View.step, View.constructStep, View.nest_eq_some.2 ⟨hlimit, rfl⟩]
    rfl
  exact .next hstep h

theorem accepts_declared_variable (hv : headKind v.unread = .identifier)
    (h : Accepts n (.construct .variableDeclaration :: .token .semicolon :: goals) v v') :
    Accepts n (.declared :: goals) v v' := by
  have hstep : v.step n .declared =
      some ([.construct .variableDeclaration, .token .semicolon], v) := by
    rw [View.step, if_pos (View.sees_iff.2 hv)]
  exact .next hstep h

theorem accepts_declared_procedure (hv : headKind v.unread = .functionKey)
    (h : Accepts n (.construct .procedureDeclaration :: .token .semicolon :: goals) v v') :
    Accepts n (.declared :: goals) v v' := by
  have hname : ¬ v.sees .identifier = true := by
    rw [View.sees_iff, hv]
    decide
  have hstep : v.step n .declared =
      some ([.construct .procedureDeclaration, .token .semicolon], v) := by
    rw [View.step, if_neg hname, if_pos (View.sees_iff.2 hv)]
  exact .next hstep h

/-- A declaration that is read with the type is read after it. -/
theorem accepts_declared (hi : headKind v.unread = .integerKey)
    (h : Accepts n (.construct .declaration :: goals) v v') :
    Accepts n (.declared :: goals) v.pass v' := by
  obtain ⟨goals', v₁, hstep, h⟩ := accepts_cons.1 h
  cases hstep
  obtain ⟨goals', v₁, hstep, h⟩ := accepts_cons.1 h
  rw [View.step, View.take, if_pos (View.sees_iff.2 hi)] at hstep
  cases hstep
  exact h

theorem accepts_declarations (hi : headKind v.unread = .integerKey)
    (h : Accepts n (.construct .declaration :: .construct .declarations :: goals) v v') :
    Accepts n (.construct .declarations :: goals) v v' := by
  have hstep : v.step n (.construct .declarations) =
      some ([.declared, .construct .declarations], v.pass) := by
    rw [View.step, View.constructStep, if_pos (View.sees_iff.2 hi)]
  exact .next hstep (accepts_declared hi h)

end Declarations

/-- What the grammar knows at a place. -/
def Place.view (p : Place) (enclosing : List Scope) (t : SymbolTable) (unread : List Lexeme) :
    View :=
  { unread, depth := p.depth, level := p.level, scope := p.scope, enclosing, symbols := t }

namespace Block

/-- The goal that reads a block. -/
def goal : Block → Goal
  | body => .construct .body
  | declarations => .construct .declarations
  | declaration => .construct .declaration
  | procedure => .construct .procedureDeclaration

/-- The kinds that may follow a block: no further declaration follows declarations. -/
def Follow : Block → Kind → Prop
  | declarations, k => k ≠ .integerKey
  | _, _ => True

end Block

section Heads

variable {n : Nesting} {level : Int} {t t' : SymbolTable} {depth : Nat} {p : Place}
  {w : List Lexeme}

theorem headKind_declaration (h : Declares n .declaration p t w t') (rest : List Lexeme) :
    headKind (w ++ rest) = .integerKey := by
  cases h with
  | newVariable hi => exact hi
  | newProcedure hi => exact hi

theorem headKind_procedure (h : Declares n .procedure p t w t') (rest : List Lexeme) :
    headKind (w ++ rest) = .functionKey := by
  cases h with
  | procedure hf => exact hf

/-- No statement starts like a declaration. -/
theorem follow_declarations (h : Derives n level t .statements depth w) {rest : List Lexeme}
    (hend : headKind rest = .endKey) : Block.declarations.Follow (headKind (w ++ rest)) := by
  cases h with
  | noStatements =>
    intro h
    cases hend.symm.trans h
  | statements first _ =>
    cases first with
    | statement hform _ h =>
      rw [List.append_assoc, headKind_form hform h]
      rcases hform with rfl | rfl | rfl | rfl <;> intro h <;> cases h

end Heads

/-- After a body its scope is left, and with it the nesting and the level of the body. -/
theorem accepts_leave {n : Nesting} {p : Place} {enclosing : List Scope} {t t' : SymbolTable}
    {name : String} {rest : List Lexeme} {goals : List Goal} {v' : View}
    (h : Accepts n goals (p.view enclosing t' rest) v') :
    Accepts n (.endBody :: .endScope :: goals)
      ((p.inner t name).view (p.scope :: enclosing) t' rest) v' := by
  have hlevel : p.level + 1 - 1 = p.level := by omega
  have hbody : ((p.inner t name).view (p.scope :: enclosing) t' rest).step n .endBody =
      some ([], { p.view (p.scope :: enclosing) t' rest with
        scope := (p.inner t name).scope }) := by
    simp [View.step, Place.view, Place.inner, hlevel]
  exact accepts_resolved hbody (accepts_resolved rfl h)

/-- A block that is derived is read, unless what follows could be part of it. -/
theorem Declares.accepts {n : Nesting} {block : Block} {p : Place} {t t' : SymbolTable}
    {w : List Lexeme} (h : Declares n block p t w t') {enclosing : List Scope}
    {rest : List Lexeme} {goals : List Goal} {v' : View} (hf : block.Follow (headKind rest))
    (hrest : Accepts n goals (p.view enclosing t' rest) v') :
    Accepts n (block.goal :: goals) (p.view enclosing t (w ++ rest)) v' := by
  -- on the derivation, in whatever scopes the block stands
  induction h generalizing enclosing rest goals v' with
  | @body p t t' b e w w' hb _ statements he declarations =>
    simp only [List.cons_append, List.append_assoc, List.nil_append]
    refine .next rfl (accepts_token rfl hb ?_)
    refine declarations (follow_declarations statements he) ?_
    -- the statements are read against what the declarations have made of the table
    have hclose : Accepts n (.token .endKey :: goals) (p.view enclosing t' (e :: rest)) v' :=
      accepts_token rfl he hrest
    exact Derives.accepts (v := p.view enclosing t' (w' ++ e :: rest)) statements he hclose
  | noDeclarations => exact accepts_stop rfl hf hrest
  | nextDeclaration hw _ next more =>
    rw [List.append_assoc]
    exact accepts_declarations (headKind_declaration hw _) (next trivial (more hf hrest))
  | newVariable hi hx hnew hs =>
    refine .next rfl (accepts_token rfl hi ?_)
    refine accepts_declared_variable hx (accepts_variableDeclaration rfl hx hnew ?_)
    exact accepts_token rfl hs hrest
  | newProcedure hi hw hs procedure =>
    simp only [List.cons_append, List.append_assoc, List.nil_append]
    refine .next rfl (accepts_token rfl hi ?_)
    refine accepts_declared_procedure (headKind_procedure hw _) (procedure trivial ?_)
    exact accepts_token rfl hs hrest
  | procedure hfun hx hnew hl hy hr hs hlimit _ body =>
    refine .next rfl (accepts_token rfl hfun (accepts_procedureHead rfl hx hnew ?_))
    refine accepts_token rfl hl (accepts_parameterDeclaration rfl hy ?_)
    refine accepts_closeParen rfl hr (accepts_token rfl hs (accepts_procedureBody hlimit ?_))
    exact body trivial (accepts_leave hrest)

end PocketPascal.Parser
