import PocketPascal.Proofs.Recognition

/-! # What is accepted is derived

Every goal stands for a phrase of the grammar, for a block, or for the one step that resolves it.
A step without complaints leads to goals that together make up what the resolved one stands for, so
a run of them reads a derivation.
-/

namespace PocketPascal.Parser

namespace View

variable {v v' : View}

/-- A phrase is read off what is ahead. -/
def Says (n : Nesting) (ph : Phrase) (v v' : View) : Prop :=
  ∃ w rest, v.unread = w ++ rest ∧ Derives n v.level v.symbols ph v.depth w ∧
    v' = { v with unread := rest }

/-- A block is read off what is ahead, and what it declares is added. -/
def Builds (n : Nesting) (block : Block) (v v' : View) : Prop :=
  ∃ w rest t, v.unread = w ++ rest ∧ Declares n block v.place v.symbols w t ∧
    v' = { v with unread := rest, symbols := t }

/-- Only what is there can be passed, unless it is the end of file. -/
theorem of_take {k : Kind} (h : v.take k = some v') (hk : k ≠ .endOfFile) :
    ∃ a rest, v.unread = a :: rest ∧ a.kind = k ∧ v' = { v with unread := rest } := by
  rw [take, sees, head] at h
  split at h
  · next hsees =>
    obtain rfl := Option.some.inj h
    cases hv : v.unread with
    | nil =>
      rw [hv] at hsees
      exact absurd (eq_of_beq hsees).symm hk
    | cons a rest =>
      rw [hv] at hsees
      exact ⟨a, rest, rfl, eq_of_beq hsees, by rw [pass, hv]; rfl⟩
  · cases h

end View

/-- What a goal stands for: a phrase or a block that is read, or the one step that resolves it. What
is declared after the type makes a declaration together with the type. -/
def Goal.Meets (n : Nesting) (g : Goal) (v v' : View) : Prop :=
  match g with
  | .construct .program => ∃ u, v.Builds n .body u ∧ u.take .endOfFile = some v'
  | .construct .body => v.Builds n .body v'
  | .construct .declarations => v.Builds n .declarations v'
  | .construct .declaration => v.Builds n .declaration v'
  | .declared => ∀ i : Lexeme, i.kind = .integerKey →
      ({ v with unread := i :: v.unread } : View).Builds n .declaration
        v'
  | .construct .procedureDeclaration => v.Builds n .procedure v'
  | .construct .procedureBody => n.Admits v.depth ∧
      ∃ u, ({ v with depth := v.depth + 1, level := v.level + 1 } : View).Builds n .body u ∧
        v' = { u with depth := v.depth, level := v.level }
  | .construct .statements => v.Says n .statements v'
  | .construct .statement => v.Says n .statement v'
  | .construct .readStatement => v.Says n .read v'
  | .construct .writeStatement => v.Says n .write v'
  | .construct .assignment => v.Says n .assignment v'
  | .construct .conditional => v.Says n .condition v'
  | .construct .expression => v.Says n .expression v'
  | .construct .term => v.Says n .term v'
  | .construct .factor => v.Says n .factor v'
  | .construct .argument => v.Says n .argument v'
  | .construct .call => ∃ x rest, v.unread = x :: rest ∧ x.kind = .identifier ∧
      ({ v with unread := rest } : View).Says n .argument v'
  | .moreStatements => v.Says n .moreStatements v'
  | .moreTerms => v.Says n .moreTerms v'
  | .moreFactors => v.Says n .moreFactors v'
  | _ => v.step n g = some ([], v')

/-- What some goals stand for one after the other. -/
def MeetsAll (n : Nesting) : List Goal → View → View → Prop
  | [], v, v' => v' = v
  | g :: goals, v, v' => ∃ u, g.Meets n v u ∧ MeetsAll n goals u v'

theorem meetsAll_append {n : Nesting} {goals goals' : List Goal} {v v' : View} :
    MeetsAll n (goals ++ goals') v v' ↔
      ∃ u, MeetsAll n goals v u ∧ MeetsAll n goals' u v' := by
  induction goals generalizing v with
  | nil => simp [MeetsAll]
  | cons g goals ih =>
    simp only [List.cons_append, MeetsAll, ih]
    constructor
    · rintro ⟨u, hg, u', hgoals, h⟩
      exact ⟨u', ⟨u, hg, hgoals⟩, h⟩
    · rintro ⟨u', ⟨u, hg, hgoals⟩, h⟩
      exact ⟨u, hg, u', hgoals, h⟩

/-! ## Single tokens -/

section Tokens

variable {n : Nesting} {v v' : View}

theorem View.head_eq {a : Lexeme} {rest : List Lexeme} (h : v.unread = a :: rest) : v.head = a := by
  rw [View.head, h]
  rfl

theorem View.pass_eq {a : Lexeme} {rest : List Lexeme} (h : v.unread = a :: rest) :
    v.pass = { v with unread := rest } := by
  rw [View.pass, h]
  rfl

/-- A lexeme that is seen is there, unless it is the end of file. -/
theorem View.unread_of_sees {k : Kind} (h : v.sees k = true) (hk : k ≠ .endOfFile) :
    ∃ a rest, v.unread = a :: rest ∧ a.kind = k ∧ v.pass = { v with unread := rest } := by
  have htake : v.take k = some v.pass := by rw [View.take, if_pos h]
  exact View.of_take htake hk

theorem meets_token {k : Kind} : (Goal.token k).Meets n v v' ↔ v.take k = some v' := by
  simp [Goal.Meets, View.step]

theorem Goal.Meets.token {k : Kind} (h : (Goal.token k).Meets n v v') (hk : k ≠ .endOfFile) :
    ∃ a rest, v.unread = a :: rest ∧ a.kind = k ∧ v' = { v with unread := rest } :=
  View.of_take (meets_token.1 h) hk

theorem Goal.Meets.closeParen (h : Goal.closeParen.Meets n v v') :
    ∃ a rest, v.unread = a :: rest ∧ a.kind = .rightParen ∧ v' = { v with unread := rest } :=
  View.of_take (k := .rightParen) (by simpa [Goal.Meets, View.step] using h) (by simp)

theorem Goal.Meets.procedureName (h : (Goal.construct .procedureName).Meets n v v') :
    ∃ x rest, v.unread = x :: rest ∧ x.kind = .identifier ∧ v' = { v with unread := rest } :=
  View.of_take (k := .identifier) (by simpa [Goal.Meets, View.step, View.constructStep] using h)
    (by simp)

theorem Goal.Meets.reference (h : (Goal.construct .reference).Meets n v v') :
    ∃ x rest, v.unread = x :: rest ∧ x.kind = .identifier ∧
      v.symbols.HasVariable x.text v.level ∧ v' = { v with unread := rest } := by
  have hstep : v.constructStep n .reference = some ([], v') := h
  rw [View.constructStep] at hstep
  split at hstep
  · next hvar =>
    have htake : v.take .identifier = some v' := by simpa using hstep
    obtain ⟨x, rest, hv, hx, hv'⟩ := View.of_take htake (by simp)
    rw [View.head_eq hv] at hvar
    exact ⟨x, rest, hv, hx, hvar, hv'⟩
  · cases hstep

theorem Goal.Meets.relation (h : (Goal.construct .relation).Meets n v v') :
    ∃ o rest, v.unread = o :: rest ∧ o.kind.isRelational = true ∧
      v' = { v with unread := rest } := by
  have hstep : v.constructStep n .relation = some ([], v') := h
  rw [View.constructStep] at hstep
  split at hstep
  · next ho =>
    cases hv : v.unread with
    | nil =>
      rw [View.head, hv] at ho
      exact absurd ho (by decide)
    | cons o rest =>
      rw [View.head_eq hv] at ho
      rw [View.pass_eq hv] at hstep
      cases hstep
      exact ⟨o, rest, rfl, ho, rfl⟩
  · cases hstep

theorem Goal.Meets.endNesting (h : Goal.endNesting.Meets n v v') :
    v' = { v with depth := v.depth - 1 } := by
  have hstep : v.step n .endNesting = some ([], v') := h
  cases hstep
  rfl

theorem View.nest_eq_some : v.nest n = some v' ↔
    n.Admits v.depth ∧ v' = { v with depth := v.depth + 1 } := by
  rw [View.nest]
  split
  · next hd =>
    constructor
    · rintro ⟨⟩
      exact ⟨hd, rfl⟩
    · rintro ⟨-, rfl⟩
      rfl
  · next hd =>
    constructor
    · rintro ⟨⟩
    · exact fun h => absurd h.1 hd

end Tokens

/-! ## Repetitions -/

section Repetitions

variable {n : Nesting} {v u v' : View} {first more whole : Phrase}

/-- A first item and the rest of them. -/
theorem View.Says.append (h : v.Says n first u) (h' : u.Says n more v')
    (derives : ∀ {w w' : List Lexeme}, Derives n v.level v.symbols first v.depth w →
      Derives n v.level v.symbols more v.depth w' →
      Derives n v.level v.symbols whole v.depth (w ++ w')) : v.Says n whole v' := by
  obtain ⟨w, rest, hv, hw, rfl⟩ := h
  obtain ⟨w', rest, rfl, hw', rfl⟩ := h'
  exact ⟨w ++ w', rest, by rw [hv, List.append_assoc], derives hw hw', rfl⟩

/-- A separator, the next item, and the rest of them. -/
theorem View.Says.next {a : Lexeme} {rest : List Lexeme} (hv : v.unread = a :: rest)
    (h : ({ v with unread := rest } : View).Says n first u) (h' : u.Says n more v')
    (derives : ∀ {w w' : List Lexeme}, Derives n v.level v.symbols first v.depth w →
      Derives n v.level v.symbols more v.depth w' →
      Derives n v.level v.symbols whole v.depth (a :: (w ++ w'))) : v.Says n whole v' := by
  obtain ⟨w, rest, rfl, hw, rfl⟩ := h
  obtain ⟨w', rest, rfl, hw', rfl⟩ := h'
  refine ⟨a :: (w ++ w'), rest, ?_, derives hw hw', rfl⟩
  rw [hv, List.cons_append, List.append_assoc]

/-- Nothing is left to be said. -/
theorem View.says_nothing (derives : Derives n v.level v.symbols whole v.depth []) :
    v.Says n whole v :=
  ⟨[], v.unread, rfl, derives, rfl⟩

end Repetitions

/-! ## Statements -/

section Statements

variable {n : Nesting} {v v' : View}

/-- What reads and writes have in common: a variable in parentheses after a keyword. -/
theorem says_access {form : Phrase} {k : Kind}
    (h : MeetsAll n [.token k, .token .leftParen, .construct .reference, .closeParen] v v')
    (hk : k ≠ .endOfFile)
    (derives : ∀ {a l x r : Lexeme}, a.kind = k → l.kind = .leftParen → x.kind = .identifier →
      v.symbols.HasVariable x.text v.level → r.kind = .rightParen →
      Derives n v.level v.symbols form v.depth [a, l, x, r]) : v.Says n form v' := by
  obtain ⟨_, h₁, _, h₂, _, h₃, _, h₄, rfl⟩ := h
  obtain ⟨a, rest, hv, ha, rfl⟩ := h₁.token hk
  obtain ⟨l, rest, rfl, hl, rfl⟩ := h₂.token (by simp)
  obtain ⟨x, rest, rfl, hx, hvar, rfl⟩ := h₃.reference
  obtain ⟨r, rest, rfl, hr, rfl⟩ := h₄.closeParen
  exact ⟨[a, l, x, r], rest, hv, derives ha hl hx hvar hr, rfl⟩

/-- The value after a target that has been passed. -/
theorem says_assignment {x : Lexeme} {rest : List Lexeme} (hv : v.unread = x :: rest)
    (hx : x.kind = .identifier)
    (htarget : v.symbols.HasVariable x.text v.level ∨ v.symbols.HasProcedure x.text v.level)
    (h : MeetsAll n [.token .assign, .construct .expression] { v with unread := rest } v') :
    v.Says n .assignment v' := by
  obtain ⟨_, h₁, _, h₂, rfl⟩ := h
  obtain ⟨a, rest, rfl, ha, rfl⟩ := h₁.token (by simp)
  obtain ⟨w, rest, rfl, hvalue, rfl⟩ := h₂
  exact ⟨x :: a :: w, rest, hv, .assignment hx htarget ha hvalue, rfl⟩

theorem assignment_of_step {goals : List Goal} {v₁ : View}
    (hstep : v.step n (.construct .assignment) = some (goals, v₁))
    (h : MeetsAll n goals v₁ v') : v.Says n .assignment v' := by
  rw [View.step, View.constructStep] at hstep
  split at hstep
  · cases hstep
    obtain ⟨_, h₁, h⟩ := h
    obtain ⟨x, rest, hv, hx, hvar, rfl⟩ := h₁.reference
    exact says_assignment hv hx (Or.inl hvar) h
  split at hstep
  · next hproc =>
    cases hstep
    obtain ⟨_, h₁, h⟩ := h
    obtain ⟨x, rest, hv, hx, rfl⟩ := h₁.procedureName
    rw [View.head_eq hv] at hproc
    exact says_assignment hv hx (Or.inr hproc) h
  · cases hstep

/-- A conditional after its first keyword. -/
theorem says_condition {i : Lexeme} {rest : List Lexeme} (hv : v.unread = i :: rest)
    (hi : i.kind = .ifKey) (h : MeetsAll n conditionalGoals { v with unread := rest } v') :
    v.Says n .condition v' := by
  obtain ⟨_, h₁, _, h₂, _, h₃, _, h₄, _, h₅, _, h₆, _, h₇, rfl⟩ := h
  obtain ⟨w₁, rest, rfl, left, rfl⟩ := h₁
  obtain ⟨o, rest, rfl, ho, rfl⟩ := h₂.relation
  obtain ⟨w₂, rest, rfl, right, rfl⟩ := h₃
  obtain ⟨a, rest, rfl, ha, rfl⟩ := h₄.token (by simp)
  obtain ⟨w₃, rest, rfl, yes, rfl⟩ := h₅
  obtain ⟨e, rest, rfl, he, rfl⟩ := h₆.token (by simp)
  obtain ⟨w₄, rest, rfl, no, rfl⟩ := h₇
  refine ⟨_, rest, ?_, .condition hi left ho right ha yes he no, rfl⟩
  rw [hv]
  simp

/-- What is read one deeper, up to the end of the nesting, is a statement of its form. -/
theorem says_statement {form : Phrase}
    (hform : form = .read ∨ form = .write ∨ form = .assignment ∨ form = .condition)
    (hlimit : n.Admits v.depth) {u : View}
    (h : ({ v with depth := v.depth + 1 } : View).Says n form u)
    (hend : MeetsAll n [.endNesting] u v') : v.Says n .statement v' := by
  obtain ⟨w, rest, hv, hw, rfl⟩ := h
  obtain ⟨_, h₁, rfl⟩ := hend
  obtain rfl := h₁.endNesting
  exact ⟨w, rest, hv, .statement hform hlimit hw, rfl⟩

theorem statement_of_step {goals : List Goal} {v₁ : View}
    (hstep : v.step n (.construct .statement) = some (goals, v₁))
    (h : MeetsAll n goals v₁ v') : v.Says n .statement v' := by
  rw [View.step, View.constructStep, Option.bind_eq_some_iff] at hstep
  obtain ⟨u, hu, hstep⟩ := hstep
  obtain ⟨hlimit, rfl⟩ := View.nest_eq_some.1 hu
  unfold View.statementStep at hstep
  split at hstep
  · cases hstep
    obtain ⟨_, h₁, h⟩ := h
    exact says_statement (by simp) hlimit h₁ h
  · cases hstep
    obtain ⟨_, h₁, h⟩ := h
    exact says_statement (by simp) hlimit h₁ h
  · cases hstep
    obtain ⟨_, h₁, h⟩ := h
    exact says_statement (by simp) hlimit h₁ h
  · next hi =>
    cases hstep
    have hsees : ({ v with depth := v.depth + 1 } : View).sees .ifKey = true := by
      simpa [View.sees] using hi
    obtain ⟨i, rest, hv, hi, hpass⟩ := View.unread_of_sees hsees (by simp)
    obtain ⟨u, hu, hend⟩ := meetsAll_append.1 h
    rw [hpass] at hu
    exact says_statement (by simp) hlimit (says_condition hv hi hu) hend
  · cases hstep

theorem statements_of_step {goals : List Goal} {v₁ : View}
    (hstep : v.step n (.construct .statements) = some (goals, v₁))
    (h : MeetsAll n goals v₁ v') : v.Says n .statements v' := by
  rw [View.step, View.constructStep] at hstep
  split at hstep
  · next hend =>
    -- no semicolon is seen at the end of a block, so nothing is read
    cases hstep
    obtain ⟨_, ⟨w, rest, hv, hmore, rfl⟩, rfl⟩ := h
    cases hmore with
    | lastStatement => exact ⟨[], rest, hv, .noStatements, rfl⟩
    | lastSemicolon ha =>
      rw [View.atBlockEnd, View.sees, View.sees, View.head_eq hv, ha] at hend
      exact absurd hend (by decide)
    | nextStatement ha =>
      rw [View.atBlockEnd, View.sees, View.sees, View.head_eq hv, ha] at hend
      exact absurd hend (by decide)
  · cases hstep
    obtain ⟨_, first, _, more, rfl⟩ := h
    exact first.append more .statements

theorem moreStatements_of_step {goals : List Goal} {v₁ : View}
    (hstep : v.step n .moreStatements = some (goals, v₁))
    (h : MeetsAll n goals v₁ v') : v.Says n .moreStatements v' := by
  rw [View.step] at hstep
  split at hstep
  · next hsees =>
    obtain ⟨a, rest, hv, ha, hpass⟩ := View.unread_of_sees hsees (by simp)
    rw [hpass] at hstep
    split at hstep
    · cases hstep
      obtain rfl := h
      exact ⟨[a], rest, hv, .lastSemicolon ha, rfl⟩
    · cases hstep
      obtain ⟨_, next, _, more, rfl⟩ := h
      exact .next hv next more (.nextStatement ha)
  · cases hstep
    obtain rfl := h
    exact View.says_nothing .lastStatement

end Statements

/-! ## Expressions -/

section Expressions

variable {n : Nesting} {v v' : View}

theorem says_argument (h : MeetsAll n
    [.token .leftParen, .construct .expression, .closeParen] v v') : v.Says n .argument v' := by
  obtain ⟨_, h₁, _, h₂, _, h₃, rfl⟩ := h
  obtain ⟨l, rest, hv, hl, rfl⟩ := h₁.token (by simp)
  obtain ⟨w, rest, rfl, value, rfl⟩ := h₂
  obtain ⟨r, rest, rfl, hr, rfl⟩ := h₃.closeParen
  refine ⟨l :: (w ++ [r]), rest, ?_, .argument hl value hr, rfl⟩
  rw [hv]
  simp

theorem says_term (h : MeetsAll n [.construct .factor, .moreFactors] v v') :
    v.Says n .term v' := by
  obtain ⟨_, first, _, more, rfl⟩ := h
  exact first.append more .term

theorem expression_of_step {goals : List Goal} {v₁ : View}
    (hstep : v.step n (.construct .expression) = some (goals, v₁))
    (h : MeetsAll n goals v₁ v') : v.Says n .expression v' := by
  rw [View.step, View.constructStep, Option.map_eq_some_iff] at hstep
  obtain ⟨u, hu, hstep⟩ := hstep
  obtain ⟨hlimit, rfl⟩ := View.nest_eq_some.1 hu
  cases hstep
  obtain ⟨_, ⟨w, rest, hv, first, rfl⟩, _, ⟨w', rest, rfl, more, rfl⟩, _, h₃, rfl⟩ := h
  obtain rfl := h₃.endNesting
  refine ⟨w ++ w', rest, ?_, .expression hlimit first more, rfl⟩
  rw [List.append_assoc]
  exact hv

/-- What the repetitions of terms and factors have in common: a separator decides whether there is
one more item. -/
theorem says_more {g item : Goal} {first more : Phrase} {k : Kind} {goals : List Goal} {v₁ : View}
    (hstep : v.step n g = some (goals, v₁)) (h : MeetsAll n goals v₁ v')
    (hg : v.step n g = if v.sees k then some ([item, g], v.pass) else some ([], v))
    (hitem : ∀ {u u' : View}, item.Meets n u u' → u.Says n first u')
    (hmore : ∀ {u u' : View}, g.Meets n u u' → u.Says n more u')
    (last : Derives n v.level v.symbols more v.depth [])
    (next : ∀ {a : Lexeme} {w w' : List Lexeme}, a.kind = k →
      Derives n v.level v.symbols first v.depth w →
      Derives n v.level v.symbols more v.depth w' →
      Derives n v.level v.symbols more v.depth (a :: (w ++ w')))
    (hk : k ≠ .endOfFile) : v.Says n more v' := by
  rw [hg] at hstep
  split at hstep
  · next hsees =>
    obtain ⟨a, rest, hv, ha, hpass⟩ := View.unread_of_sees hsees hk
    rw [hpass] at hstep
    cases hstep
    obtain ⟨_, h₁, _, h₂, rfl⟩ := h
    exact .next hv (hitem h₁) (hmore h₂) (next ha)
  · cases hstep
    obtain rfl := h
    exact View.says_nothing last

theorem factor_of_step {goals : List Goal} {v₁ : View}
    (hstep : v.step n (.construct .factor) = some (goals, v₁))
    (h : MeetsAll n goals v₁ v') : v.Says n .factor v' := by
  rw [View.step, View.constructStep, View.factorStep] at hstep
  split at hstep
  · next hsees =>
    obtain ⟨a, rest, hv, ha, hpass⟩ := View.unread_of_sees hsees (by simp)
    rw [hpass] at hstep
    cases hstep
    obtain rfl := h
    exact ⟨[a], rest, hv, .constant ha, rfl⟩
  split at hstep
  · cases hstep
  next hsees =>
  -- a name: the table tells a variable from a call
  obtain ⟨x, rest, hv, hx, hpass⟩ := View.unread_of_sees (k := .identifier) (by simpa using hsees)
    (by simp)
  rw [View.head_eq hv, hpass] at hstep
  split at hstep
  · next hvar =>
    cases hstep
    obtain ⟨_, h₁, rfl⟩ := h
    obtain ⟨x, rest, hv, hx, hvar, rfl⟩ := h₁.reference
    exact ⟨[x], rest, hv, .reference hx hvar, rfl⟩
  split at hstep
  · next hvar hproc =>
    cases hstep
    obtain ⟨_, ⟨w, rest, rfl, argument, rfl⟩, rfl⟩ := h
    exact ⟨x :: w, rest, hv, .call hx hvar hproc argument, rfl⟩
  · cases hstep

end Expressions

/-! ## Declarations -/

section Declarations

variable {n : Nesting} {v v' : View} {goals : List Goal} {v₁ : View}

theorem Goal.Meets.variableDeclaration (h : (Goal.construct .variableDeclaration).Meets n v v') :
    ∃ x rest, v.unread = x :: rest ∧ x.kind = .identifier ∧
      ¬ v.symbols.HasLocal v.scope x.text v.level ∧
      v' = { v with
        unread := rest
        symbols := v.symbols.withVariable v.scope x.text .localVariable v.level } := by
  have hstep : v.constructStep n .variableDeclaration = some ([], v') := h
  rw [View.constructStep] at hstep
  split at hstep
  · cases hstep
  · next hnew =>
    obtain ⟨u, hu, hstep⟩ := Option.map_eq_some_iff.1 hstep
    obtain ⟨x, rest, hv, hx, rfl⟩ := View.of_take hu (by simp)
    rw [View.head_eq hv] at hnew hstep
    cases hstep
    exact ⟨x, rest, hv, hx, hnew, rfl⟩

theorem Goal.Meets.parameterDeclaration
    (h : (Goal.construct .parameterDeclaration).Meets n v v') :
    ∃ y rest, v.unread = y :: rest ∧ y.kind = .identifier ∧
      v' = { v with
        unread := rest
        symbols := v.symbols.withVariable v.scope y.text .parameter (v.level + 1) } := by
  have hstep : v.constructStep n .parameterDeclaration = some ([], v') := h
  obtain ⟨u, hu, hstep⟩ := Option.map_eq_some_iff.1 hstep
  obtain ⟨y, rest, hv, hy, rfl⟩ := View.of_take hu (by simp)
  rw [View.head_eq hv] at hstep
  cases hstep
  exact ⟨y, rest, hv, hy, rfl⟩

theorem Goal.Meets.procedureHead (h : Goal.procedureHead.Meets n v v') :
    ∃ x rest, v.unread = x :: rest ∧ x.kind = .identifier ∧
      ¬ v.symbols.HasBody x.text (v.level + 1) ∧
      v' = { v with
        unread := rest
        scope := (v.place.inner v.symbols x.text).scope
        enclosing := v.scope :: v.enclosing
        symbols := v.symbols.withProcedure x.text (v.level + 1) } := by
  have hstep : v.step n .procedureHead = some ([], v') := h
  rw [View.step] at hstep
  split at hstep
  · cases hstep
  · next hnew =>
    obtain ⟨u, hu, hstep⟩ := Option.map_eq_some_iff.1 hstep
    obtain ⟨x, rest, hv, hx, rfl⟩ := View.of_take hu (by simp)
    rw [View.head_eq hv] at hnew hstep
    cases hstep
    exact ⟨x, rest, hv, hx, hnew, rfl⟩

theorem Goal.Meets.endScope {outer : Scope} {enclosing : List Scope}
    (h : Goal.endScope.Meets n v v') (hv : v.enclosing = outer :: enclosing) :
    v' = { v with scope := outer, enclosing } := by
  have hstep : v.step n .endScope = some ([], v') := h
  rw [View.step, hv] at hstep
  cases hstep
  rfl

theorem Goal.Meets.endBody (h : Goal.endBody.Meets n v v') :
    v' = { v with level := v.level - 1, depth := v.depth - 1 } := by
  have hstep : v.step n .endBody = some ([], v') := h
  cases hstep
  rfl

theorem builds_body (h : MeetsAll n
    [.token .beginKey, .construct .declarations, .construct .statements, .token .endKey] v v') :
    v.Builds n .body v' := by
  obtain ⟨_, h₁, _, h₂, _, h₃, _, h₄, rfl⟩ := h
  obtain ⟨b, rest, hv, hb, rfl⟩ := h₁.token (by simp)
  obtain ⟨w, rest, t, rfl, declarations, rfl⟩ := h₂
  obtain ⟨w', rest, rfl, statements, rfl⟩ := h₃
  obtain ⟨e, rest, rfl, he, rfl⟩ := h₄.token (by simp)
  refine ⟨_, rest, t, ?_, .body hb declarations statements he, rfl⟩
  rw [hv]
  simp

theorem declarations_of_step (hstep : v.step n (.construct .declarations) = some (goals, v₁))
    (h : MeetsAll n goals v₁ v') : v.Builds n .declarations v' := by
  rw [View.step, View.constructStep] at hstep
  split at hstep
  · next hsees =>
    obtain ⟨i, rest, hv, hi, hpass⟩ := View.unread_of_sees hsees (by simp)
    rw [hpass] at hstep
    cases hstep
    obtain ⟨_, h₁, _, h₂, rfl⟩ := h
    -- the type has been passed already, and belongs to the declaration
    obtain ⟨w, rest', t, hw, next, rfl⟩ := h₁ i hi
    obtain ⟨w', rest', t', rfl, more, rfl⟩ := h₂
    refine ⟨w ++ w', rest', t', ?_, .nextDeclaration next more, rfl⟩
    rw [hv, List.append_assoc]
    exact hw
  · cases hstep
    obtain rfl := h
    exact ⟨[], v'.unread, v'.symbols, rfl, .noDeclarations, rfl⟩

theorem builds_declaration (h : MeetsAll n [.token .integerKey, .declared] v v') :
    v.Builds n .declaration v' := by
  obtain ⟨_, h₁, _, h₂, rfl⟩ := h
  obtain ⟨i, rest, hv, hi, rfl⟩ := h₁.token (by simp)
  obtain ⟨w, rest', t, hw, declaration, rfl⟩ := h₂ i hi
  exact ⟨w, rest', t, hv.trans hw, declaration, rfl⟩

theorem declared_of_step (hstep : v.step n .declared = some (goals, v₁))
    (h : MeetsAll n goals v₁ v') : Goal.declared.Meets n v v' := by
  intro i hi
  rw [View.step] at hstep
  split at hstep
  · cases hstep
    obtain ⟨_, h₁, _, h₂, rfl⟩ := h
    obtain ⟨x, rest, hv, hx, hnew, rfl⟩ := h₁.variableDeclaration
    obtain ⟨s, rest, rfl, hs, rfl⟩ := h₂.token (by simp)
    exact ⟨[i, x, s], rest, _, by rw [hv]; rfl, .newVariable hi hx hnew hs, rfl⟩
  split at hstep
  · cases hstep
    obtain ⟨_, ⟨w, rest, t, hv, procedure, rfl⟩, _, h₂, rfl⟩ := h
    obtain ⟨s, rest, rfl, hs, rfl⟩ := h₂.token (by simp)
    refine ⟨i :: (w ++ [s]), rest, t, ?_, .newProcedure hi procedure hs, rfl⟩
    rw [hv]
    simp
  · cases hstep

theorem procedureBody_of_step
    (hstep : v.step n (.construct .procedureBody) = some (goals, v₁))
    (h : MeetsAll n goals v₁ v') : (Goal.construct .procedureBody).Meets n v v' := by
  rw [View.step, View.constructStep, Option.map_eq_some_iff] at hstep
  obtain ⟨u, hu, hstep⟩ := hstep
  obtain ⟨hlimit, rfl⟩ := View.nest_eq_some.1 hu
  cases hstep
  obtain ⟨_, body, _, h₂, rfl⟩ := h
  obtain rfl := h₂.endBody
  refine ⟨hlimit, _, body, ?_⟩
  -- a body leaves depth and level as they are
  obtain ⟨w, rest, t, -, -, rfl⟩ := body
  simp

theorem builds_procedure (h : MeetsAll n
    [.token .functionKey, .procedureHead, .token .leftParen, .construct .parameterDeclaration,
      .closeParen, .token .semicolon, .construct .procedureBody, .endScope] v v') :
    v.Builds n .procedure v' := by
  obtain ⟨_, h₁, _, h₂, _, h₃, _, h₄, _, h₅, _, h₆, _, ⟨hlimit, _, h₇, rfl⟩, _, h₈, rfl⟩ := h
  obtain ⟨f, rest, hv, hf, rfl⟩ := h₁.token (by simp)
  obtain ⟨x, rest, rfl, hx, hnew, rfl⟩ := h₂.procedureHead
  obtain ⟨l, rest, rfl, hl, rfl⟩ := h₃.token (by simp)
  obtain ⟨y, rest, rfl, hy, rfl⟩ := h₄.parameterDeclaration
  obtain ⟨r, rest, rfl, hr, rfl⟩ := h₅.closeParen
  obtain ⟨s, rest, rfl, hs, rfl⟩ := h₆.token (by simp)
  obtain ⟨w, rest, t, rfl, body, rfl⟩ := h₇
  obtain rfl := h₈.endScope rfl
  exact ⟨f :: x :: l :: y :: r :: s :: w, rest, t, hv,
    .procedure hf hx hnew hl hy hr hs hlimit body, rfl⟩

end Declarations

/-! ## Runs -/

theorem eq_nil_of_map {x : Option View} {f : View → View} {goals : List Goal}
    {v₁ : View} (h : (x.map fun u => (([] : List Goal), f u)) = some (goals, v₁)) :
    goals = [] := by
  obtain ⟨u, -, h⟩ := Option.map_eq_some_iff.1 h
  exact (Prod.mk.inj h).1.symm

/-- A goal that nothing replaces is resolved by the one step. -/
theorem step_of_nil {n : Nesting} {g : Goal} {goals : List Goal} {v v₁ v' : View}
    (hstep : v.step n g = some (goals, v₁)) (hnil : goals = [])
    (h : MeetsAll n goals v₁ v') : v.step n g = some ([], v') := by
  rw [hnil] at hstep h
  rw [hstep, show v' = v₁ from h]

/-- What the goals that replace a construct stand for together is what the construct stands for. -/
theorem meets_of_constructStep {n : Nesting} {c : Construct} {goals : List Goal} {v v₁ v' : View}
    (hstep : v.step n (.construct c) = some (goals, v₁)) (h : MeetsAll n goals v₁ v') :
    (Goal.construct c).Meets n v v' := by
  -- constructs that stand for a phrase or a block first, then those that nothing replaces
  cases c with
  | program =>
    cases hstep
    obtain ⟨u, body, _, hend, rfl⟩ := h
    exact ⟨u, body, meets_token.1 hend⟩
  | body =>
    cases hstep
    exact builds_body h
  | declarations => exact declarations_of_step hstep h
  | declaration =>
    cases hstep
    exact builds_declaration h
  | procedureDeclaration =>
    cases hstep
    exact builds_procedure h
  | procedureBody => exact procedureBody_of_step hstep h
  | statements => exact statements_of_step hstep h
  | statement => exact statement_of_step hstep h
  | readStatement =>
    cases hstep
    exact says_access h (by simp) .read
  | writeStatement =>
    cases hstep
    exact says_access h (by simp) .write
  | assignment => exact assignment_of_step hstep h
  | conditional =>
    cases hstep
    obtain ⟨_, h₁, h⟩ := h
    obtain ⟨i, rest, hv, hi, rfl⟩ := h₁.token (by simp)
    exact says_condition hv hi h
  | expression => exact expression_of_step hstep h
  | term =>
    cases hstep
    exact says_term h
  | factor => exact factor_of_step hstep h
  | call =>
    cases hstep
    obtain ⟨u, h₁, _, argument, rfl⟩ := h
    obtain ⟨x, rest, hv, hx, rfl⟩ := h₁.procedureName
    exact ⟨x, rest, hv, hx, argument⟩
  | argument =>
    cases hstep
    exact says_argument h
  | variableDeclaration =>
    refine step_of_nil hstep ?_ h
    rw [View.step, View.constructStep] at hstep
    split at hstep
    · cases hstep
    · exact eq_nil_of_map hstep
  | parameterDeclaration => exact step_of_nil hstep (eq_nil_of_map hstep) h
  | relation =>
    refine step_of_nil hstep ?_ h
    rw [View.step, View.constructStep] at hstep
    split at hstep
    · exact (Prod.mk.inj (Option.some.inj hstep)).1.symm
    · cases hstep
  | reference =>
    refine step_of_nil hstep ?_ h
    rw [View.step, View.constructStep] at hstep
    split at hstep
    · exact eq_nil_of_map hstep
    · cases hstep
  | procedureName => exact step_of_nil hstep (eq_nil_of_map hstep) h

/-- What the goals that replace a goal stand for together is what that one stands for. -/
theorem meets_of_step {n : Nesting} {g : Goal} {goals : List Goal} {v v₁ v' : View}
    (hstep : v.step n g = some (goals, v₁)) (h : MeetsAll n goals v₁ v') :
    g.Meets n v v' := by
  cases g with
  | construct c => exact meets_of_constructStep hstep h
  | declared => exact declared_of_step hstep h
  | moreStatements => exact moreStatements_of_step hstep h
  | moreTerms => exact says_more hstep h rfl id id .lastTerm .nextTerm (by simp)
  | moreFactors => exact says_more hstep h rfl id id .lastFactor .nextFactor (by simp)
  | token kind => exact step_of_nil hstep (eq_nil_of_map hstep) h
  | closeParen => exact step_of_nil hstep (eq_nil_of_map hstep) h
  | procedureHead =>
    refine step_of_nil hstep ?_ h
    rw [View.step] at hstep
    split at hstep
    · cases hstep
    · exact eq_nil_of_map hstep
  | endScope =>
    refine step_of_nil hstep ?_ h
    rw [View.step] at hstep
    split at hstep <;> exact (Prod.mk.inj (Option.some.inj hstep)).1.symm
  | endBody => exact step_of_nil hstep (Prod.mk.inj (Option.some.inj hstep)).1.symm h
  | endNesting => exact step_of_nil hstep (Prod.mk.inj (Option.some.inj hstep)).1.symm h

/-- What is resolved without a complaint is what the goals stand for. -/
theorem meetsAll_of_accepts {n : Nesting} {goals : List Goal} {v v' : View}
    (h : Accepts n goals v v') : MeetsAll n goals v v' := by
  induction h with
  | done v => rfl
  | next hstep _ ih =>
    obtain ⟨u, hgoals, hrest⟩ := meetsAll_append.1 ih
    exact ⟨u, meets_of_step hstep hgoals, hrest⟩

end PocketPascal.Parser
