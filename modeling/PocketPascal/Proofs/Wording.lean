import PocketPascal.Proofs.Ownership

/-! # Where the texts of a result come from

Names and owners are texts of tokens, and so is what a complaint quotes: whatever is wrong with a
program, a parse makes up no texts of its own but those of the program body and of the end of the
file. So what holds of these and of the texts of the tokens holds of every name, of every owner and
of everything that is quoted.
-/

namespace PocketPascal.Parser

variable {W : String → Prop} {n : Nesting} {tokens : List Token}

/-! ## Names and owners -/

/-- All that the grammar knows is spelled in words of a kind. -/
structure View.Spelled (W : String → Prop) (v : View) : Prop where
  unread : ∀ a ∈ v.unread, W a.text
  owners : ∀ c ∈ v.scope :: v.enclosing, W c.owner
  vars : ∀ x ∈ v.symbols.vars, W x.name ∧ W x.owner ∧ x.type = valueType
  procs : ∀ p ∈ v.symbols.procs, W p.name ∧ p.type = valueType

namespace View.Spelled

variable {v : View}

theorem head (h : v.Spelled W) (hfile : W Token.endOfFile.text) : W v.head.text := by
  rw [View.head]
  cases hunread : v.unread with
  | nil => exact hfile
  | cons a rest => exact h.unread a (hunread ▸ List.mem_cons_self)

theorem pass (h : v.Spelled W) : v.pass.Spelled W :=
  { h with unread := fun a ha => h.unread a (List.mem_of_mem_tail ha) }

theorem withVariable (h : v.Spelled W) {name : String} (hname : W name) (kind : VariableKind)
    (level : Int) :
    View.Spelled W { v with symbols := v.symbols.withVariable v.scope name kind level } where
  unread := h.unread
  owners := h.owners
  vars := SymbolTable.forall_vars_withVariable.2
    ⟨h.vars, hname, h.owners v.scope List.mem_cons_self, rfl⟩
  procs p' hp' := by
    obtain ⟨r, p, hp, rfl⟩ := SymbolTable.mem_procs_withVariable hp'
    have hold := h.procs p (List.mem_of_getElem? hp)
    split
    · exact hold
    · exact hold

theorem withProcedure (h : v.Spelled W) {name : String} (hname : W name) (level : Int) :
    View.Spelled W { v with symbols := v.symbols.withProcedure name level } where
  unread := h.unread
  owners := h.owners
  vars := h.vars
  procs := List.forall_mem_append.2 ⟨h.procs, List.forall_mem_singleton.2 ⟨hname, rfl⟩⟩

theorem openScope (h : v.Spelled W) {owner : String} (howner : W owner) (record : Option Nat) :
    (v.openScope owner record).Spelled W :=
  { h with owners := List.forall_mem_cons.2 ⟨howner, h.owners⟩ }

theorem closeScope (h : v.Spelled W) : v.closeScope.Spelled W := by
  unfold View.closeScope
  split
  · exact h
  · next outer rest henclosing =>
    refine { h with owners := fun c hc => h.owners c (List.mem_cons_of_mem _ ?_) }
    exact henclosing ▸ hc

end View.Spelled

/-- Declarations add words to what is spelled in words. -/
theorem spelled_kept (hfile : W Token.endOfFile.text) :
    Kept False fun _ v => View.Spelled W v where
  pass h := h.pass
  atDepth h _ := { h with }
  newVariable h _ _ := h.withVariable (h.head hfile) _ _
  newParameter h _ := h.withVariable (h.head hfile) _ _
  noParameter _ h := h
  newFunction h _ _ := (h.pass.withProcedure (h.head hfile) _).openScope (h.head hfile) _
  noFunction _ h _ := h.pass.openScope (h.head hfile) _
  enter h := { h with }
  leave h := { h with }
  close h := h.closeScope

/-- Names are texts of tokens, and owners are that or own the program body. -/
theorem spelled_parse (hfile : W Token.endOfFile.text) (hmain : W mainProcedure)
    (h : ∀ t ∈ tokens, W t.text) :
    (∀ x ∈ (parse n tokens).vars, W x.name ∧ W x.owner ∧ x.type = valueType) ∧
      ∀ p ∈ (parse n tokens).procs, W p.name ∧ p.type = valueType := by
  have hstart : View.Spelled W (State.ofTokens tokens).view :=
    { unread := by
        simp only [State.view, State.unread, State.ofTokens, Cursor.ofList, lexemes,
          List.forall_mem_map, List.mem_filter]
        exact fun t ht => h t ht.1
      owners := List.forall_mem_singleton.2 hmain
      vars := List.forall_mem_nil _
      procs := List.forall_mem_nil _ }
  obtain ⟨c, hend⟩ := ((spelled_kept hfile).parse hstart n).1
  exact ⟨(hend id).vars, (hend id).procs⟩

/-! ## Complaints -/

/-- The text that a problem quotes. -/
def Problem.quoted? : Problem → Option String
  | .unexpected _ found | .notAVariableName found | .notAnOperator found | .notAFactor found
  | .undefinedVariable found | .undefinedName found | .redeclaredVariable found
  | .redeclaredProcedure found => some found
  | .unmatchedParen => none

/-- The text that is quoted where a parse is given up. -/
def Abort.quoted? : Abort → Option String
  | .notAStatement found => some found
  | .tooNested _ | .exhausted => none

/-- The tokens ahead are words of a kind, and what has been recorded are problems that quote such
words. -/
structure State.Quotes (W : String → Prop) (s : State) : Prop where
  ahead : ∀ t ∈ s.cursor.ahead, W t.text
  errors : ∀ d ∈ s.errors, ∃ p : Problem, (∀ w ∈ p.quoted?, W w) ∧ d.category = p.category ∧
    d.message = p.message

/-- A move to a state that quotes words of a kind. -/
def Move.Quotes (W : String → Prop) : Move → Prop
  | .go _ s | .halt _ _ s => s.Quotes W

namespace State.Quotes

variable {s s' : State}

theorem lookahead (h : s.Quotes W) (hfile : W Token.endOfFile.text) : W s.lookahead.text := by
  rw [State.lookahead, Cursor.peek?]
  cases hahead : s.cursor.ahead with
  | nil => exact hfile
  | cons t rest => exact h.ahead t (hahead ▸ List.mem_cons_self)

theorem advance (h : s.Quotes W) : State.Quotes W { s with cursor := s.cursor.advance } := by
  refine ⟨fun t ht => h.ahead t ?_, h.errors⟩
  rw [Cursor.advance] at ht
  split at ht
  · exact ht
  · next a rest hahead => exact hahead ▸ List.mem_cons_of_mem _ ht

theorem crossLine (h : s.Quotes W) : s.crossLine.Quotes W :=
  ⟨h.advance.ahead, h.errors⟩

theorem skipLineEnds (h : s.Quotes W) : s.skipLineEnds.Quotes W :=
  skipLineEnds_keeps (fun _ _ h => h.crossLine) h

theorem consume (h : s.Quotes W) : s.consume.2.Quotes W :=
  consume_keeps (fun _ _ h => h.crossLine) (fun _ _ h => h.advance) h

theorem of_readsAs (h : s.Quotes W) (hr : s.ReadsAs s') : s'.Quotes W := by
  refine ⟨?_, ?_⟩
  · rw [hr.cursor]
    exact h.ahead
  · rw [hr.errors]
    exact h.errors

theorem complain (h : s.Quotes W) {p : Problem} (hp : ∀ w ∈ p.quoted?, W w) :
    (s.complain p).Quotes W := by
  unfold State.complain State.report
  split
  · refine ⟨h.ahead, List.forall_mem_append.2 ⟨h.errors, List.forall_mem_singleton.2 ?_⟩⟩
    exact ⟨p, hp, rfl, rfl⟩
  · exact ⟨h.ahead, h.errors⟩

/-- What is wrong with the lookahead quotes it. -/
theorem complain_lookahead (h : s.Quotes W) (hfile : W Token.endOfFile.text) {p : Problem}
    (hp : p.quoted? = some s.lookahead.text) : (s.complain p).Quotes W := by
  refine h.complain fun w hw => ?_
  cases hp.symm.trans hw
  exact h.lookahead hfile

theorem expect (h : s.Quotes W) (hfile : W Token.endOfFile.text) (k : Kind) :
    (s.expect k).2.Quotes W := by
  unfold State.expect State.expectOr
  split
  · exact h.consume
  · exact (h.complain_lookahead hfile (p := .unexpected k s.lookahead.text) rfl).consume

theorem expectClose (h : s.Quotes W) : s.expectClose.2.Quotes W := by
  unfold State.expectClose State.expectOr
  split
  · exact h.consume
  · exact (h.complain (p := .unmatchedParen) (fun _ hw => nomatch hw)).consume

theorem registerVariable (h : s.Quotes W) (hfile : W Token.endOfFile.text) :
    (s.registerVariable s.lookahead.text).Quotes W := by
  unfold State.registerVariable
  split
  · exact (h.of_readsAs (.declare s _)).of_readsAs (.claim _ _)
  · exact h.complain_lookahead hfile rfl

theorem registerParameter (h : s.Quotes W) (name : String) :
    (s.registerParameter name).Quotes W :=
  (h.of_readsAs (.declare s _)).of_readsAs (.claim _ _)

theorem registerProcedure (h : s.Quotes W) (hfile : W Token.endOfFile.text) :
    (s.registerProcedure s.lookahead.text).2.Quotes W := by
  unfold State.registerProcedure
  split
  · exact h.of_readsAs (.declare s _)
  · exact h.complain_lookahead hfile rfl

theorem nameProcedure (h : s.Quotes W) (hfile : W Token.endOfFile.text) :
    (nameProcedure s).Quotes W := by
  rw [Parser.nameProcedure]
  split
  · exact ((h.registerProcedure hfile).expect hfile _).of_readsAs (.openScope _ _ _)
  · exact (h.expect hfile _).of_readsAs (.openScope _ _ _)

theorem nested (h : s.Quotes W) {enter : State → Move}
    (henter : (s.atDepth (s.depth + 1)).Quotes W →
      (enter (s.atDepth (s.depth + 1))).Quotes W) : (nested n s enter).Quotes W := by
  have hdepth := h.of_readsAs (.atDepth s (s.depth + 1))
  unfold Parser.nested
  split
  · exact hdepth
  · exact henter hdepth

theorem statementMove (h : s.Quotes W) : (statementMove n s).Quotes W := by
  refine h.nested fun hinner => ?_
  split
  · exact hinner
  · exact hinner
  · exact hinner
  · exact hinner.consume
  · exact h.consume

theorem assignmentMove (h : s.Quotes W) (hfile : W Token.endOfFile.text) :
    (assignmentMove s).Quotes W := by
  simp only [Parser.assignmentMove]
  split
  · exact h
  split
  · exact h
  · exact (h.complain_lookahead hfile rfl).consume

theorem factorMove (h : s.Quotes W) (hfile : W Token.endOfFile.text) :
    (factorMove s).Quotes W := by
  simp only [Parser.factorMove]
  split
  · exact h.consume
  split
  · exact h.complain_lookahead hfile rfl
  split
  · exact h
  split
  · exact h.consume
  · exact (h.complain_lookahead hfile rfl).consume

theorem constructMove (h : s.Quotes W) (hfile : W Token.endOfFile.text) (c : Construct) :
    (constructMove n c s).Quotes W := by
  cases c with
  | declarations =>
    simp only [Parser.constructMove]
    split
    · exact h.consume
    · exact h
  | variableDeclaration =>
    simp only [Parser.constructMove]
    refine expect ?_ hfile _
    split
    · exact h.registerVariable hfile
    · exact h
  | parameterDeclaration =>
    simp only [Parser.constructMove]
    refine expect ?_ hfile _
    split
    · exact h.registerParameter _
    · exact h
  | procedureBody =>
    rw [Parser.constructMove]
    refine h.nested fun hinner => ?_
    exact hinner.of_readsAs (.enterBody _)
  | statement => exact h.statementMove
  | assignment => exact h.assignmentMove hfile
  | relation =>
    simp only [Parser.constructMove]
    refine consume ?_
    split
    · exact h
    · exact h.complain_lookahead hfile rfl
  | expression => exact h.nested fun hinner => hinner
  | factor => exact h.factorMove hfile
  | reference =>
    simp only [Parser.constructMove]
    refine expect ?_ hfile _
    split
    · exact h.complain_lookahead hfile rfl
    · exact h
  | procedureName => exact h.expect hfile _
  | _ => exact h

/-- Every step quotes the lookahead, if anything. -/
theorem step (h : s.Quotes W) (hfile : W Token.endOfFile.text) (g : Goal) :
    (step n g s).Quotes W := by
  cases g with
  | construct c => exact h.constructMove hfile c
  | token kind => exact h.expect hfile kind
  | closeParen => exact h.expectClose
  | declared =>
    simp only [Parser.step]
    split
    · exact h
    split
    · exact h
    · have hc : (s.complain (.notAVariableName s.lookahead.text)).Quotes W :=
        h.complain_lookahead hfile rfl
      dsimp only [Move.Quotes]
      split
      · exact hc
      · exact hc.consume
  | procedureHead => exact h.nameProcedure hfile
  | endScope => exact h.of_readsAs (.closeScope s)
  | endBody => exact h.of_readsAs (.leaveBody s)
  | endNesting => exact h.of_readsAs (.atDepth s _)
  | moreStatements | moreTerms | moreFactors =>
    simp only [Parser.step]
    split
    · exact h.consume
    · exact h

theorem of_visits (h : s.Quotes W) (hfile : W Token.endOfFile.text) {goals goals' : List Goal}
    (hv : Visits n goals s goals' s') : s'.Quotes W := by
  induction hv with
  | here => exact h
  | @next g _ _ _ s s₁ _ hstep _ ih =>
    have hmove := h.step (n := n) hfile g
    rw [hstep] at hmove
    exact ih hmove

end State.Quotes

/-- A parse is given up with nothing quoted, or with the text of a token. -/
theorem Halts.quotes {s s₁ : State} {g : Goal} {reason : Abort} (hhalts : Halts n s g reason s₁)
    (h : s.Quotes W) (hfile : W Token.endOfFile.text) : ∀ w ∈ reason.quoted?, W w := by
  cases hhalts with
  | refused _ hrefusal =>
    rcases Nesting.eq_of_refusal? hrefusal with rfl | rfl
    · exact fun _ hw => nomatch hw
    · exact fun _ hw => nomatch hw
  | notAStatement =>
    rintro w hw
    cases hw
    exact h.skipLineEnds.lookahead hfile

/-- What a parse says is a problem or the reason for giving up, and what it quotes is the text of a
token or of the end of the file. -/
theorem quotes_parse (hfile : W Token.endOfFile.text) (h : ∀ t ∈ tokens, W t.text) :
    ∀ d ∈ (parse n tokens).errors,
      (∃ p : Problem, (∀ w ∈ p.quoted?, W w) ∧ d.category = p.category ∧ d.message = p.message) ∨
        ∃ (reason : Abort) (line : Int), (∀ w ∈ reason.quoted?, W w) ∧ d = reason.on line := by
  have hstart : (State.ofTokens tokens).skipLineEnds.Quotes W :=
    State.Quotes.skipLineEnds ⟨h, List.forall_mem_nil _⟩
  intro d hd
  rw [PocketPascal.parse, State.parse, find] at hd
  cases hresolve : resolve n [.construct .program] (State.ofTokens tokens).skipLineEnds with
  | finished s =>
    rw [hresolve] at hd
    exact Or.inl ((hstart.of_visits hfile (visits_of_finished hresolve)).errors d hd)
  | aborted reason line s =>
    rw [hresolve] at hd
    obtain ⟨g, rest, found, s₂, hv, hhalt, rfl⟩ := visits_of_aborted hresolve
    have hfound := hstart.of_visits hfile hv
    rcases List.mem_append.1 hd with hd | hd
    · refine Or.inl (hfound.errors d ?_)
      rw [← (step_halt hhalt).2]
      exact hd
    · exact Or.inr ⟨reason, line, (halts_of_step hhalt).2.quotes hfound hfile,
        List.mem_singleton.1 hd⟩

end PocketPascal.Parser
