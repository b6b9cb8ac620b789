import PocketPascal.Proofs.UniqueNames

/-! # What owners are named by

The owner of a variable is a text, and the same text may come from a name, from another token in the
place of one, or from the program body, whose owner is no token at all. Which of these it was is
seen from the run that declared the variable: the functions whose scopes are open there were each
named at a lexeme, and the innermost of these lexemes is the owner.
-/

namespace PocketPascal

/-- The owner of what is declared in the scope of a function that is named at a lexeme, or in the
program body. -/
def ownerOf (name? : Option Lexeme) : String :=
  (name?.map Lexeme.text).getD mainProcedure

namespace Parser

variable {n : Nesting} {tokens : List Token} {g : Goal} {goals : List Goal} {s s' : State}
  {names : List Lexeme} {name? : Option Lexeme} {i : Nat} {v : Variable}

/-- The lexemes that the functions whose scopes are open are named at, innermost first, once a goal
is resolved. -/
def Goal.namesAfter (g : Goal) (s : State) (names : List Lexeme) : List Lexeme :=
  match g with
  | .procedureHead => s.lookahead.toLexeme :: names
  | .endScope => names.tail
  | _ => names

/-- The parse of some tokens comes to goals in a state, where the functions whose scopes are open
were named at the given lexemes, innermost first. -/
inductive Within (n : Nesting) (tokens : List Token) : List Lexeme → List Goal → State → Prop where
  | start : Within n tokens [] [.construct .program] (State.ofTokens tokens).skipLineEnds
  | next {names : List Lexeme} {g : Goal} {rest goals : List Goal} {s s' : State}
      (h : Within n tokens names (g :: rest) s) (hstep : step n g s = .go goals s') :
      Within n tokens (g.namesAfter s names) (goals ++ rest) s'

/-- The variable at a position of the table is declared in the scope of the function that is named
at a lexeme, or in the program body. -/
def DeclaredIn (n : Nesting) (tokens : List Token) (name? : Option Lexeme) (i : Nat) : Prop :=
  ∃ names g rest s goals s', Within n tokens names (g :: rest) s ∧ step n g s = .go goals s' ∧
    s.symbols.vars.length = i ∧ s'.symbols.vars.length = i + 1 ∧ name? = names.head?

theorem Within.reaches (h : Within n tokens names goals s) : Reaches n tokens goals s := by
  induction h with
  | start => exact .here _ _
  | next _ hstep ih => exact ih.trans (.next hstep (.here _ _))

theorem exists_within_of_visits {goals' : List Goal} (h : Within n tokens names goals s)
    (hv : Visits n goals s goals' s') : ∃ names', Within n tokens names' goals' s' := by
  induction hv generalizing names with
  | here => exact ⟨names, h⟩
  | next hstep _ ih => exact ih (h.next hstep)

/-- Wherever a parse comes, some functions are open there. -/
theorem Reaches.exists_within (hr : Reaches n tokens goals s) :
    ∃ names, Within n tokens names goals s :=
  exists_within_of_visits .start hr

/-! ## The scopes that are open -/

theorem Goal.namesAfter_eq_self (s : State) (names : List Lexeme) (hname : g ≠ .procedureHead)
    (hend : g ≠ .endScope) : g.namesAfter s names = names := by
  unfold namesAfter
  split
  · exact absurd rfl hname
  · exact absurd rfl hend
  · rfl

/-- The owners of the scopes that are open are what their functions are named by, and around them is
the program. -/
theorem Within.owners (h : Within n tokens names goals s) :
    s.scopes.map Scope.owner = names.map Lexeme.text ++ [mainProcedure] := by
  induction h with
  | start =>
    rw [State.scopes_skipLineEnds]
    rfl
  | @next names g rest goals s s' _ hstep ih =>
    by_cases hname : g = .procedureHead
    · subst hname
      cases hstep
      obtain ⟨c, hscopes, howner⟩ := scopes_nameProcedure s
      rw [hscopes, List.map_cons, ih, howner]
      rfl
    by_cases hend : g = .endScope
    · subst hend
      cases hstep
      rw [State.scopes, List.map_cons] at ih
      rw [Goal.namesAfter, State.closeScope]
      cases names with
      | nil =>
        have houter : s.enclosing = [] := List.map_eq_nil_iff.1 (List.cons.inj ih).2
        rw [houter]
        exact ih
      | cons x names =>
        have houter := (List.cons.inj ih).2
        cases henclosing : s.enclosing with
        | nil => simp [henclosing] at houter
        | cons outer rest =>
          rw [henclosing] at houter
          exact houter
    · rw [scopes_eq_of_step hstep hname hend, Goal.namesAfter_eq_self s names hname hend, ih]

theorem Within.owner (h : Within n tokens names goals s) : s.scope.owner = ownerOf names.head? := by
  have howners := congrArg List.head? h.owners
  rw [State.scopes, List.map_cons, List.head?_cons] at howners
  cases names with
  | nil => exact Option.some.inj howners
  | cons x names => exact Option.some.inj howners

/-! ## What is declared in them -/

theorem Adds.owner {vs : List Variable} (h : Adds g s vs) : ∀ v ∈ vs, v.owner = s.scope.owner := by
  cases h with
  | none => exact List.forall_mem_nil _
  | newLocal | newParameter => exact List.forall_mem_singleton.2 rfl

/-- Every variable is declared somewhere on the way. -/
theorem Within.declaredIn (h : Within n tokens names goals s) :
    ∀ i < s.symbols.vars.length, ∃ name?, DeclaredIn n tokens name? i := by
  induction h with
  | start =>
    rw [State.symbols_skipLineEnds]
    exact fun i hi => absurd hi (Nat.not_lt_zero i)
  | @next names g rest goals s s' hw hstep ih =>
    intro i hi
    obtain ⟨vs, hadds, hvars⟩ := adds_of_step hstep
    by_cases hold : i < s.symbols.vars.length
    · exact ih i hold
    have hlength : s'.symbols.vars.length = i + 1 ∧ s.symbols.vars.length = i := by
      rw [hvars, List.length_append] at hi ⊢
      cases hadds <;> simp only [List.length_nil, List.length_singleton] at hi ⊢ <;> omega
    exact ⟨names.head?, names, g, rest, s, goals, s', hw, hstep, hlength.2, hlength.1, rfl⟩

/-- A variable is owned by what it is declared in. -/
theorem DeclaredIn.owner (h : DeclaredIn n tokens name? i)
    (hv : (PocketPascal.parse n tokens).vars[i]? = some v) : v.owner = ownerOf name? := by
  obtain ⟨names, g, rest, s, goals, s', hw, hstep, hlength, hlength', rfl⟩ := h
  obtain ⟨goals', t, hr, hvars, -⟩ := exists_reaches_result n tokens
  rw [hvars] at hv
  have hlt : i < t.symbols.vars.length := (List.getElem?_eq_some_iff.1 hv).1
  -- the parse does not end before the declaration, as the variable is there in the end
  have hvisits : Visits n (goals ++ rest) s' goals' t := by
    rcases hw.reaches.total hr with hbefore | hafter
    · cases hbefore with
      | here => omega
      | next hstep' hvisits =>
        cases hstep.symm.trans hstep'
        exact hvisits
    · have := hafter.vars_prefix.length_le
      omega
  obtain ⟨vs, hadds, hvars'⟩ := adds_of_step hstep
  obtain ⟨more, hmore⟩ := hvisits.vars_prefix
  have hmem : v ∈ vs := by
    rw [← hmore, hvars', List.append_assoc, List.getElem?_append_right (by omega), hlength,
      Nat.sub_self] at hv
    rw [hvars', List.length_append] at hlength'
    cases vs with
    | nil => simp at hlength'; omega
    | cons w ws =>
      obtain rfl : w = v := by simpa using hv
      exact List.mem_cons_self
  rw [hadds.owner v hmem, hw.owner]

end Parser

end PocketPascal
