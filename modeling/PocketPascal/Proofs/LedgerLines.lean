import PocketPascal.Proofs.ErrorRecords
import PocketPascal.Proofs.LedgerFiles

/-! # The tables are read back from their ledgers

Whatever is analysed, a source or the tokens of a ledger, all names and owners that reach a table
are words, and no message breaks a line. So a ledger is one line for every record, and the tables of
an analysis, given up or not, are what its ledgers say.
-/

namespace PocketPascal

open Text (Unbroken)

/-- What there is to analyse: a source, or a token ledger. -/
inductive Input where
  | source (text : String)
  | ledger (text : String)

/-- The analysis of a source, or of the tokens that a ledger records. -/
def Input.analyze (l : Limits) : Input → Analysis
  | source text => PocketPascal.analyze l text
  | ledger text => analyzeTokens l (Ledger.read text).1

/-! ## Analyses are spelled in words -/

/-- An analysis whose tables hold words only, and whose messages stay on one line. -/
structure Analysis.IsWorded (a : Analysis) : Prop where
  tokens : ∀ t ∈ a.tokens, Text.IsWord t.text.toList
  cleaned : ∀ t ∈ a.cleaned, Text.IsWord t.text.toList
  vars : ∀ v ∈ a.vars, v.IsWorded
  procs : ∀ p ∈ a.procs, p.IsWorded
  errors : ∀ d ∈ a.errors, IsLegible d.message

/-- The tokens that a parse passes are among those it is given. -/
theorem mem_of_mem_tokens_parse {n : Parser.Nesting} {tokens : List Token} {t : Token}
    (h : t ∈ (parse n tokens).tokens) : t ∈ tokens := by
  have hlist : ((Parser.State.ofTokens tokens).parse n).cursor.toList = tokens :=
    Parser.State.toList_parse (.ofTokens tokens) n
  rw [← hlist, Cursor.toList]
  exact List.mem_append_left _ h

/-- What is analysed are words, so the analysis is spelled in words, however it ends. -/
theorem isWorded_ofParse (n : Parser.Nesting) {tokens : List Token} {errors : List Diagnostic}
    (htokens : ∀ t ∈ tokens, Text.IsWord t.text.toList)
    (herrors : ∀ d ∈ errors, IsLegible d.message) :
    (Analysis.ofParse tokens errors (parse n tokens)).IsWorded := by
  have htype : Text.IsWord valueType.toList := by decide +kernel
  obtain ⟨hvars, hprocs⟩ := Parser.spelled_parse (W := fun w => Text.IsWord w.toList) (n := n)
    (by decide +kernel) (by decide +kernel) htokens
  exact
    { tokens := htokens
      cleaned := fun t ht => htokens t (mem_of_mem_tokens_parse ht)
      vars := fun v hv =>
        have ⟨hname, howner, hv⟩ := hvars v hv
        ⟨hname, howner, hv ▸ htype⟩
      procs := fun p hp =>
        have ⟨hname, hp⟩ := hprocs p hp
        ⟨hname, hp ▸ htype⟩
      errors := List.forall_mem_append.2
        ⟨herrors, fun _ hd => isLegible_of_mem_parse (fun t ht => (htokens t ht).unbroken) hd⟩ }

theorem Input.isWorded_analyze (l : Limits) (input : Input) : (input.analyze l).IsWorded := by
  cases input with
  | source text =>
    exact isWorded_ofParse _ (fun _ ht => isWord_of_mem_tokenize ht)
      fun _ hd => isLegible_of_mem_tokenize hd
  | ledger text =>
    exact isWorded_ofParse _ (fun _ ht => (Ledger.isWord_of_mem_read ht).1) (List.forall_mem_nil _)

namespace Ledger

/-! ## One line a record -/

/-- The records of a ledger. -/
def records (a : Analysis) : Name → List String
  | .tokens => a.tokens.map tokenRecord
  | .cleaned => a.cleaned.map tokenRecord
  | .vars => a.vars.map variableRecord
  | .procs => a.procs.map procedureRecord
  | .errors => a.errors.map errorRecord

theorem content_eq (a : Analysis) (n : Name) : content a n = render (records a n) := by
  cases n <;> rfl

theorem unbroken_joinFields {fields : List String} (h : ∀ f ∈ fields, Unbroken f.toList) :
    Unbroken (joinFields fields).toList := by
  induction fields with
  | nil => decide
  | cons f fields ih =>
    obtain ⟨hf, hfields⟩ := List.forall_mem_cons.1 h
    cases fields with
    | nil => simpa [joinFields] using hf
    | cons f' fields =>
      rw [toList_joinFields_cons_cons, Text.unbroken_append, Text.unbroken_cons]
      exact ⟨hf, by decide, ih hfields⟩

theorem unbroken_flushRight (width : Nat) {text : String} (h : Unbroken text.toList) :
    Unbroken (flushRight ' ' width text).toList := by
  intro hmem
  rcases mem_flushRight hmem with hspace | hmem
  · exact absurd hspace (by decide)
  · exact h hmem

theorem unbroken_tokenRecord {t : Token} (h : Text.IsWord t.text.toList) :
    Unbroken (tokenRecord t).toList :=
  fun hmem => absurd (tokenRecord_not_isLineBoundary h _ hmem) (by decide)

theorem unbroken_variableRecord {v : Variable} (h : v.IsWorded) :
    Unbroken (variableRecord v).toList := by
  have hkind : Unbroken (toString v.kind.code).toList := (Text.isWord_repr _).unbroken
  refine unbroken_joinFields ?_
  simp only [List.forall_mem_cons]
  exact ⟨unbroken_flushRight _ h.name.unbroken, unbroken_flushRight _ h.owner.unbroken, hkind,
    h.type.unbroken, Text.unbroken_toString _, Text.unbroken_toString _, List.forall_mem_nil _⟩

theorem unbroken_procedureRecord {p : Procedure} (h : p.IsWorded) :
    Unbroken (procedureRecord p).toList := by
  refine unbroken_joinFields ?_
  simp only [List.forall_mem_cons]
  exact ⟨unbroken_flushRight _ h.name.unbroken, h.type.unbroken, Text.unbroken_toString _,
    Text.unbroken_toString _, Text.unbroken_toString _, List.forall_mem_nil _⟩

theorem unbroken_errorRecord {d : Diagnostic} (h : IsLegible d.message) :
    Unbroken (errorRecord d).toList := by
  have hmark : Unbroken (if d.fatal then fatalMark else []) := by
    cases d.fatal <;> decide +kernel
  simp only [toList_errorRecord, Text.unbroken_append, Text.unbroken_cons]
  exact ⟨by decide +kernel, Text.unbroken_toString _, by decide, by decide, h.unbroken, hmark⟩

theorem unbroken_of_mem_records {a : Analysis} (h : a.IsWorded) (n : Name) :
    ∀ r ∈ records a n, Unbroken r.toList := by
  cases n with
  | tokens => exact List.forall_mem_map.2 fun t ht => unbroken_tokenRecord (h.tokens t ht)
  | cleaned => exact List.forall_mem_map.2 fun t ht => unbroken_tokenRecord (h.cleaned t ht)
  | vars => exact List.forall_mem_map.2 fun v hv => unbroken_variableRecord (h.vars v hv)
  | procs => exact List.forall_mem_map.2 fun p hp => unbroken_procedureRecord (h.procs p hp)
  | errors => exact List.forall_mem_map.2 fun d hd => unbroken_errorRecord (h.errors d hd)

/-- A ledger is cut at its line feeds into its records, with nothing behind the last one. -/
theorem splitOn_content {a : Analysis} (h : a.IsWorded) (n : Name) :
    (content a n).toList.splitOn '\n' = (records a n).map String.toList ++ [[]] := by
  rw [content_eq, toList_render]
  refine Text.splitOnP_lines (p := (· == '\n')) rfl ?_
  rw [List.forall_mem_map]
  intro r hr c hc
  simpa using ne_of_mem_of_not_mem hc (unbroken_of_mem_records h n r hr)

/-! ## From the ledgers back to the tables -/

/-- What the lines of a ledger record, if every one of them is a record. -/
def readTable {α : Type} (read? : List Char → Option α) (text : String) : Option (List α) :=
  (text.toList.splitOn '\n').dropLast.mapM read?

theorem mapM_eq_some_of_forall {α β γ : Type} {xs : List α} {g : α → β} {f : α → γ}
    {read? : β → Option γ} (h : ∀ x ∈ xs, read? (g x) = some (f x)) :
    (xs.map g).mapM read? = some (xs.map f) := by
  induction xs with
  | nil => rfl
  | cons x xs ih =>
    obtain ⟨hx, hxs⟩ := List.forall_mem_cons.1 h
    rw [List.map_cons, List.mapM_cons, hx, ih hxs]
    rfl

/-- If each record is read back, then the whole ledger is. -/
theorem readTable_content {α β : Type} {a : Analysis} (h : a.IsWorded) {n : Name} {xs : List α}
    {record : α → String} (hrecords : records a n = xs.map record)
    {read? : List Char → Option β} {f : α → β}
    (hread : ∀ x ∈ xs, read? (record x).toList = some (f x)) :
    readTable read? (content a n) = some (xs.map f) := by
  rw [readTable, splitOn_content h, List.dropLast_concat, hrecords, List.map_map]
  exact mapM_eq_some_of_forall hread

theorem readTable_vars {a : Analysis} (h : a.IsWorded) :
    readTable readVariable? (content a .vars) = some a.vars := by
  have hread := readTable_content h (n := .vars) rfl (f := id)
    fun v hv => readVariable?_variableRecord (h.vars v hv)
  rwa [List.map_id] at hread

theorem readTable_procs {a : Analysis} (h : a.IsWorded) :
    readTable readProcedure? (content a .procs) = some a.procs := by
  have hread := readTable_content h (n := .procs) rfl (f := id)
    fun p hp => readProcedure?_procedureRecord (h.procs p hp)
  rwa [List.map_id] at hread

/-- What an error record tells of an error: all but its category. -/
def told (d : Diagnostic) : Int × String × Bool :=
  (d.line, d.message, d.fatal)

theorem readTable_errors {a : Analysis} (h : a.IsWorded) :
    readTable readError? (content a .errors) = some (a.errors.map told) :=
  readTable_content h (n := .errors) rfl fun d hd => readError?_errorRecord (h.errors d hd)

/-- However an analysis of a source or of a ledger ends, each of its ledgers is one line for every
record. The line of a variable has six fields and that of a procedure five, from which they are read
back, and the line of an error tells all but its category. So analyses with the same ledgers have
the same tables. -/
theorem tables_of_ledgers (l : Limits) (input : Input) :
    let r := input.analyze l
    (∀ n : Name, (content r n).toList.splitOn '\n' = (records r n).map String.toList ++ [[]]) ∧
      (∀ v ∈ r.vars, Text.words (variableRecord v).toList =
          [v.name, v.owner, toString v.kind.code, v.type, toString v.level,
            toString v.address].map String.toList ∧
        readVariable? (variableRecord v).toList = some v) ∧
      (∀ p ∈ r.procs, Text.words (procedureRecord p).toList =
          [p.name, p.type, toString p.level, toString p.first, toString p.last].map
            String.toList ∧
        readProcedure? (procedureRecord p).toList = some p) ∧
      (∀ d ∈ r.errors, '\n' ∉ d.message.toList ∧
        readError? (errorRecord d).toList = some (told d)) ∧
      ∀ (l' : Limits) (input' : Input), let r' := input'.analyze l'
        (content r' .vars = content r .vars → r'.vars = r.vars) ∧
          (content r' .procs = content r .procs → r'.procs = r.procs) ∧
          (content r' .errors = content r .errors → r'.errors.map told = r.errors.map told) := by
  intro r
  have hr : r.IsWorded := input.isWorded_analyze l
  refine ⟨fun n => splitOn_content hr n,
    fun v hv => ⟨words_variableRecord (hr.vars v hv), readVariable?_variableRecord (hr.vars v hv)⟩,
    fun p hp =>
      ⟨words_procedureRecord (hr.procs p hp), readProcedure?_procedureRecord (hr.procs p hp)⟩,
    fun d hd => ⟨(hr.errors d hd).unbroken, readError?_errorRecord (hr.errors d hd)⟩,
    fun l' input' => ?_⟩
  -- equal ledgers are read alike
  have hr' := input'.isWorded_analyze l'
  refine ⟨fun h => ?_, fun h => ?_, fun h => ?_⟩
  · exact Option.some.inj ((readTable_vars hr').symm.trans (h ▸ readTable_vars hr))
  · exact Option.some.inj ((readTable_procs hr').symm.trans (h ▸ readTable_procs hr))
  · exact Option.some.inj ((readTable_errors hr').symm.trans (h ▸ readTable_errors hr))

/-- A function without a name is owned by an operator, and its body is refused. On other lines the
same tokens make the same tables. -/
theorem tables_of_ledgers_of_nameless_function :
    let l : Limits := { nestingDepth := 0 }
    let r := Input.analyze l (.source "begin\n  integer function := (x);\n  ? begin")
    let input' := Input.source "begin integer function:=(x);begin"
    r.vars.map Variable.owner = [":="] ∧ aborted r.errors = true ∧
      (∀ v ∈ r.vars, readVariable? (variableRecord v).toList = some v) ∧
      content (input'.analyze l) .vars = content r .vars ∧ (input'.analyze l).vars = r.vars := by
  intro l r input'
  have h := tables_of_ledgers l (.source "begin\n  integer function := (x);\n  ? begin")
  have hvars : content (input'.analyze l) .vars = content r .vars := by decide +kernel
  exact ⟨by decide +kernel, by decide +kernel, fun v hv => (h.2.1 v hv).2, hvars,
    (h.2.2.2.2 l input').1 hvars⟩

end Ledger

end PocketPascal
