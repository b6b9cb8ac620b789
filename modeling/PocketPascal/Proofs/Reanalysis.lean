import Mathlib.Tactic.Common
import PocketPascal.Analysis
import PocketPascal.Ledger.Files
import PocketPascal.Proofs.Layout
import PocketPascal.Proofs.LedgerRoundTrip
import PocketPascal.Proofs.LineTracking
import PocketPascal.Proofs.MaximalMunch

/-! # Analysing a ledger again

A token ledger keeps the lexemes of a source, ends of lines included, but not the lines they stand
on. Two parses over the same lexemes record the same problems one by one, so all that is lost are
line numbers. These are told again by counting the ends of lines, as long as no blank line, which
leaves nothing behind, stands between two others or before them.
-/

namespace PocketPascal

/-! ## Every token of a source is a word -/

namespace Lexer

theorem isWord_of_spelling {k : Kind} {text : List Char} (h : Spells text k) :
    Text.IsWord text := by
  have hword : ∀ s ∈ k.spelling?, Text.IsWord s.toList := by
    intro s hs
    cases k <;> cases hs <;> decide +kernel
  simpa using hword _ h

theorem not_isBlank_of_isNameChar {c : Char} (h : isNameChar c = true) :
    Text.isBlank c = false := by
  have hnat : ∀ {a b : Char}, a ≤ b → a.toNat ≤ b.toNat := fun h => h
  rw [isNameChar, isLetter, isDigit] at h
  simp only [Bool.or_eq_true, Bool.and_eq_true, decide_eq_true_eq] at h
  have hbounds : 0x30 ≤ c.toNat ∧ c.toNat ≤ 0x7A := by
    rcases h with (⟨hlow, hhigh⟩ | ⟨hlow, hhigh⟩) | ⟨hlow, hhigh⟩
    all_goals
      have := hnat hlow
      have := hnat hhigh
      simp at *
      omega
  rw [← Bool.not_eq_true, Text.isBlank]
  simp only [Bool.or_eq_true, Bool.and_eq_true, decide_eq_true_eq, beq_iff_eq]
  omega

theorem IsName.isWord {name : List Char} (h : IsName name) : Text.IsWord name := by
  obtain ⟨c, cs, rfl, hc, hcs⟩ := h
  refine ⟨List.cons_ne_nil _ _, List.forall_mem_cons.2 ⟨?_, ?_⟩⟩
  · exact not_isBlank_of_isNameChar (by rw [isNameChar, hc, Bool.true_or])
  · exact fun d hd => not_isBlank_of_isNameChar (hcs d hd)

theorem Munches.isWord {limit : Int} {text rest : List Char} {k : Kind}
    (h : Munches limit text k rest) : Text.IsWord text := by
  cases h with
  | keyword hname | identifier hname => exact hname.isWord
  | constant hdigits =>
    refine ⟨hdigits.1, fun c hc => not_isBlank_of_isNameChar ?_⟩
    rw [isNameChar, hdigits.2 c hc, Bool.or_true]
  | pair _ hab => exact isWord_of_spelling hab
  | mark _ ha => exact isWord_of_spelling ha

theorem Cut.isWord {limit : Int} {number : Nat} {cs : List Char} {ts : List Token}
    {ds : List Diagnostic} (h : Cut limit number cs ts ds) :
    ∀ t ∈ ts, Text.IsWord t.text.toList := by
  induction h with
  | done => simp
  | space _ ih => exact ih
  | lexeme hk _ ih => exact List.forall_mem_cons.2 ⟨by simpa using hk.isWord, ih⟩
  | error _ _ ih => exact ih

theorem LexesFrom.isWord {limit : Int} {k : Nat} {lines : List (List Char)} {ts : List Token}
    {ds : List Diagnostic} (h : LexesFrom limit k lines ts ds) :
    ∀ t ∈ ts, Text.IsWord t.text.toList := by
  have hline : Text.IsWord "EOLN".toList := isWord_of_spelling (k := .endOfLine) (by rfl)
  have hfile : Text.IsWord "EOF".toList := isWord_of_spelling (k := .endOfFile) (by rfl)
  induction h with
  | done => exact List.forall_mem_singleton.2 hfile
  | blank _ _ ih => exact ih
  | line _ _ hcut _ ih =>
    exact List.forall_mem_append.2 ⟨hcut.isWord, List.forall_mem_cons.2 ⟨hline, ih⟩⟩

end Lexer

theorem isWord_of_mem_tokenize {limit : Int} {source : String} {t : Token}
    (h : t ∈ (tokenize limit source).1) : Text.IsWord t.text.toList :=
  (Lexer.lexesFrom_iff.2 ⟨rfl, rfl⟩ : Lexer.LexesFrom limit 1 _ (tokenize limit source).1 _).isWord
    t h

/-! ## Parses of the same lexemes -/

namespace Parser

/-- Two readings of the same lexemes, each with its line, are kept where tokens are passed, and what
`f` tells of a diagnostic does not depend on which of the lines it is on. -/
structure Parallel {β : Type} (T : List Token → Int → List Token → Int → Prop)
    (f : Diagnostic → β) : Prop where
  lexemes : ∀ {ts line ts' line'}, T ts line ts' line' →
    ts'.map Token.toLexeme = ts.map Token.toLexeme
  cross : ∀ {t ts line t' ts' line'}, t.kind = .endOfLine → T (t :: ts) line (t' :: ts') line' →
    T ts (State.nextLine line (front ts)) ts' (State.nextLine line' (front ts'))
  pass : ∀ {t ts line t' ts' line'}, t.kind ≠ .endOfLine → T (t :: ts) line (t' :: ts') line' →
    T ts line ts' line'
  report : ∀ {ts line ts' line'}, T ts line ts' line' → ∀ category message fatal,
    f { category, line := line', message, fatal } = f { category, line, message, fatal }

/-- Two states that have read the same lexemes and recorded the same as far as `f` tells. -/
structure State.InStep {β : Type} (T : List Token → Int → List Token → Int → Prop)
    (f : Diagnostic → β) (s s' : State) : Prop where
  view : s'.view = s.view
  track : T s.cursor.ahead s.line s'.cursor.ahead s'.line
  passed : s'.cursor.passed.map Token.toLexeme = s.cursor.passed.map Token.toLexeme
  armed : s'.armed = s.armed
  errors : s'.errors.map f = s.errors.map f

namespace State.InStep

variable {β : Type} {T : List Token → Int → List Token → Int → Prop} {f : Diagnostic → β}
  {s s' : State}

theorem ahead (par : Parallel T f) (h : s.InStep T f s') :
    s'.cursor.ahead.map Token.toLexeme = s.cursor.ahead.map Token.toLexeme :=
  par.lexemes h.track

/-- What is ahead in one state is ahead in the other. -/
theorem ahead_cons (par : Parallel T f) (h : s.InStep T f s') {t : Token} {rest : List Token}
    (hs : s.cursor.ahead = t :: rest) :
    ∃ t' rest', s'.cursor.ahead = t' :: rest' ∧ t'.toLexeme = t.toLexeme := by
  have hmap := h.ahead par
  rw [hs, List.map_cons, List.map_eq_cons_iff] at hmap
  obtain ⟨t', rest', hs', ht, -⟩ := hmap
  exact ⟨t', rest', hs', ht⟩

theorem ahead_nil (par : Parallel T f) (h : s.InStep T f s') (hs : s.cursor.ahead = []) :
    s'.cursor.ahead = [] := by
  simpa [hs] using h.ahead par

theorem lookahead (par : Parallel T f) (h : s.InStep T f s') :
    s'.lookahead.toLexeme = s.lookahead.toLexeme := by
  rw [lookahead_eq_front, lookahead_eq_front]
  cases hs : s.cursor.ahead with
  | nil => rw [h.ahead_nil par hs]
  | cons t rest =>
    obtain ⟨t', rest', hs', ht⟩ := h.ahead_cons par hs
    rw [hs']
    exact ht

/-- States that read as before are still in step if the grammar still cannot tell them apart. -/
theorem of_readsAs {t t' : State} (h : s.InStep T f s') (ht : s.ReadsAs t) (ht' : s'.ReadsAs t')
    (hview : t'.view = t.view) : t.InStep T f t' where
  view := hview
  track := by
    rw [ht.cursor, ht.line, ht'.cursor, ht'.line]
    exact h.track
  passed := by
    rw [ht.cursor, ht'.cursor]
    exact h.passed
  armed := by
    rw [ht.armed, ht'.armed]
    exact h.armed
  errors := by
    rw [ht.errors, ht'.errors]
    exact h.errors

theorem report (par : Parallel T f) (h : s.InStep T f s') (c : Category) (m : String) :
    (s.report c m).InStep T f (s'.report c m) where
  view := by rw [view_report, view_report, h.view]
  track := by
    rw [cursor_report, cursor_report, line_report, line_report]
    exact h.track
  passed := by
    rw [cursor_report, cursor_report]
    exact h.passed
  armed := by
    have harmed := h.armed
    unfold State.report
    cases ha : s.armed <;> rw [ha] at harmed <;> simp [harmed, ha, note]
  errors := by
    rw [errors_report, errors_report, h.armed]
    split
    · rw [List.map_append, List.map_append, h.errors, List.map_singleton, List.map_singleton,
        par.report h.track]
    · exact h.errors

/-- The tokens under the two read heads are passed. -/
theorem passed_advance (h : s.InStep T f s') {t t' : Token} {rest rest' : List Token}
    (hs : s.cursor.ahead = t :: rest) (hs' : s'.cursor.ahead = t' :: rest')
    (ht : t'.toLexeme = t.toLexeme) :
    s'.cursor.advance.passed.map Token.toLexeme = s.cursor.advance.passed.map Token.toLexeme := by
  rw [Cursor.advance, Cursor.advance, hs, hs']
  exact congrArg₂ List.cons ht h.passed

/-- Moving past the next token, which is no end of a line, or staying at the end. -/
theorem advance (par : Parallel T f) (h : s.InStep T f s') (hsettled : s.Settled) :
    State.InStep T f { s with cursor := s.cursor.advance }
      { s' with cursor := s'.cursor.advance } := by
  have hsettled' : s'.Settled := by
    rw [Settled, show s'.lookahead.kind = s.lookahead.kind from
      congrArg Lexeme.kind (h.lookahead par)]
    exact hsettled
  have hview : State.view { s' with cursor := s'.cursor.advance } =
      State.view { s with cursor := s.cursor.advance } := by
    rw [view_advance hsettled, view_advance hsettled']
    exact congrArg (fun v : View => { v with unread := v.unread.tail }) h.view
  cases hs : s.cursor.ahead with
  | nil =>
    have hself : s.cursor.advance = s.cursor := by rw [Cursor.advance, hs]
    have hself' : s'.cursor.advance = s'.cursor := by rw [Cursor.advance, h.ahead_nil par hs]
    rw [hself, hself']
    exact h
  | cons t rest =>
    obtain ⟨t', rest', hs', ht⟩ := h.ahead_cons par hs
    have hkind : t.kind ≠ .endOfLine := by
      simpa [Settled, State.lookahead, Cursor.peek?, hs] using hsettled
    have htrack := h.track
    rw [hs, hs'] at htrack
    refine ⟨hview, ?_, h.passed_advance hs hs' ht, h.armed, h.errors⟩
    rw [Cursor.advance, Cursor.advance, hs, hs']
    exact par.pass hkind htrack

theorem crossLine (par : Parallel T f) (h : s.InStep T f s') (hsees : s.sees .endOfLine) :
    s.crossLine.InStep T f s'.crossLine := by
  obtain ⟨t, rest, hs, hkind⟩ := Tracks.ahead_of_sees_endOfLine hsees
  obtain ⟨t', rest', hs', ht⟩ := h.ahead_cons par hs
  have hkind' : t'.kind = .endOfLine := (congrArg Lexeme.kind ht).trans hkind
  have hsees' : s'.sees .endOfLine = true := by simp [sees_of_ahead hs', hkind']
  have htrack := h.track
  rw [hs, hs'] at htrack
  refine ⟨?_, ?_, h.passed_advance hs hs' ht, rfl, h.errors⟩
  · rw [view_crossLine hsees, view_crossLine hsees', h.view]
  · rw [cursor_ahead_crossLine hs, cursor_ahead_crossLine hs', Tracks.line_crossLine hs,
      Tracks.line_crossLine hs']
    exact par.cross hkind htrack

theorem sees (par : Parallel T f) (h : s.InStep T f s') (k : Kind) : s'.sees k = s.sees k := by
  rw [State.sees, State.sees, show s'.lookahead.kind = s.lookahead.kind from
    congrArg Lexeme.kind (h.lookahead par)]

theorem skipLineEnds (par : Parallel T f) (h : s.InStep T f s') :
    s.skipLineEnds.InStep T f s'.skipLineEnds :=
  skipLineEnds_related (fun h => h.sees par _) (fun hsees h => h.crossLine par hsees) h

theorem consume (par : Parallel T f) (h : s.InStep T f s') :
    s.consume.2.InStep T f s'.consume.2 :=
  consume_related (fun h => h.sees par _) (fun hsees h => h.crossLine par hsees)
    (fun hsettled h => h.advance par hsettled) h

end State.InStep

/-- States that are in step stay in step. -/
theorem inStep_simulation {β : Type} {T : List Token → Int → List Token → Int → Prop}
    {f : Diagnostic → β} (par : Parallel T f) : Simulation (State.InStep T f) :=
  Unseen.simulation
    { view := fun h => h.view
      lookahead := fun h => h.lookahead par
      taken := fun h => congrArg Lexeme.text ((h.skipLineEnds par).lookahead par)
      readsAs := fun h => h.of_readsAs
      consume := fun h => h.consume par
      report := fun h => h.report par }

/-- Two parses of the same lexemes end alike. -/
theorem parse_parallel {β : Type} {T : List Token → Int → List Token → Int → Prop}
    {f : Diagnostic → β} (par : Parallel T f) (n : Nesting) {ts ts' : List Token}
    (h : T ts 1 ts' 1) :
    (parse n ts').tokens.map Token.toLexeme = (parse n ts).tokens.map Token.toLexeme ∧
      (parse n ts').vars = (parse n ts).vars ∧ (parse n ts').procs = (parse n ts).procs ∧
      (parse n ts').errors.map f = (parse n ts).errors.map f := by
  have hstart : (State.ofTokens ts).InStep T f (State.ofTokens ts') := by
    have hview : (State.ofTokens ts').view = (State.ofTokens ts).view := by
      have hunread : lexemes ts' = lexemes ts := by
        rw [lexemes_eq_filter, lexemes_eq_filter, par.lexemes h]
      rw [State.view, State.view, State.unread, State.unread]
      simp only [State.ofTokens, Cursor.ofList, hunread]
    exact ⟨hview, h, rfl, rfl, rfl⟩
  have hresult : ∀ {s s' : State}, s.InStep T f s' →
      s'.result.tokens.map Token.toLexeme = s.result.tokens.map Token.toLexeme ∧
        s'.result.vars = s.result.vars ∧ s'.result.procs = s.result.procs := by
    intro s s' hs
    have hsymbols := congrArg View.symbols hs.view
    refine ⟨?_, congrArg SymbolTable.vars hsymbols, congrArg SymbolTable.procs hsymbols⟩
    simp only [State.result, State.consumed, Cursor.consumed, List.map_reverse, hs.passed]
  rcases (inStep_simulation par).parse (hstart.skipLineEnds par) n with
    hs | ⟨reason, found, found', s₁, s₁', hp, hp', hf, -, -, hs⟩
  · obtain ⟨htokens, hvars, hprocs⟩ := hresult hs
    exact ⟨htokens, hvars, hprocs, hs.errors⟩
  · obtain ⟨htokens, hvars, hprocs⟩ := hresult hs
    rw [PocketPascal.parse, PocketPascal.parse, hp, hp', State.result_giveUp, State.result_giveUp]
    refine ⟨htokens, hvars, hprocs, ?_⟩
    simp only [State.result, List.map_append, hs.errors, List.map_singleton]
    exact congrArg (_ ++ [·]) (par.report hf.track _ _ _)

/-- The same lexemes, on whatever lines. -/
theorem parallel_unlined :
    Parallel (fun ts _ ts' _ => ts'.map Token.toLexeme = ts.map Token.toLexeme)
      Diagnostic.unlined where
  lexemes h := h
  cross _ h := (List.cons.inj h).2
  pass _ h := (List.cons.inj h).2
  report _ _ _ _ := rfl

/-! ## Lines that can be counted -/

/-- Behind every end of a line comes the next line, so that the lines need not be told. -/
def Counted : Int → List Token → Prop
  | _, [] => True
  | line, t :: rest =>
    if t.kind = .endOfLine then
      State.nextLine line (front rest) = line + 1 ∧ Counted (line + 1) rest
    else Counted line rest

theorem counted_append {line : Int} {ts us : List Token} (h : ∀ t ∈ ts, t.kind ≠ .endOfLine)
    (hus : Counted line us) : Counted line (ts ++ us) := by
  induction ts with
  | nil => exact hus
  | cons t ts ih =>
    obtain ⟨ht, hts⟩ := List.forall_mem_cons.1 h
    rw [List.cons_append, Counted, if_neg ht]
    exact ih hts

/-- Tokens on lines that can be counted, and the same lexemes without lines. -/
structure CountedAlike (ts : List Token) (line : Int) (ts' : List Token) (line' : Int) : Prop where
  lexemes : ts'.map Token.toLexeme = ts.map Token.toLexeme
  unknown : ∀ t ∈ ts', t.line = 0
  counted : Counted line ts
  line_eq : line' = line

theorem parallel_counted : Parallel CountedAlike id where
  lexemes h := h.lexemes
  cross {t ts line t' ts' line'} ht h := by
    have hunknown : ∀ u ∈ ts', u.line = 0 := (List.forall_mem_cons.1 h.unknown).2
    have hfront : (front ts').line = 0 := by
      cases ts' with
      | nil => rfl
      | cons u us => exact hunknown u List.mem_cons_self
    have hcounted := h.counted
    rw [Counted, if_pos ht] at hcounted
    obtain ⟨hnext, hrest⟩ := hcounted
    refine ⟨(List.cons.inj h.lexemes).2, hunknown, ?_, ?_⟩
    · rw [hnext]
      exact hrest
    · rw [hnext, State.nextLine, if_pos hfront, h.line_eq]
  pass {t ts line t' ts' line'} ht h := by
    have hcounted := h.counted
    rw [Counted, if_neg ht] at hcounted
    exact ⟨(List.cons.inj h.lexemes).2, (List.forall_mem_cons.1 h.unknown).2, hcounted, h.line_eq⟩
  report h _ _ _ := by rw [h.line_eq]

end Parser

namespace Lexer

/-- No blank line stands before one that is not blank. -/
def Gapless (lines : List (List Char)) : Prop :=
  lines.Pairwise fun a b => a.all Text.isBlank → b.all Text.isBlank

instance (lines : List (List Char)) : Decidable (Gapless lines) :=
  inferInstanceAs (Decidable (List.Pairwise _ lines))

theorem tokensFrom_of_blank (limit : Int) {lines : List (List Char)}
    (h : ∀ line ∈ lines, line.all Text.isBlank) (k : Nat) :
    tokensFrom limit k lines = [.endOfFile] := by
  induction lines generalizing k with
  | nil => rfl
  | cons line lines ih =>
    obtain ⟨hline, hlines⟩ := List.forall_mem_cons.1 h
    rw [tokensFrom_cons, if_pos hline, List.nil_append, ih hlines]

/-- Where there are no gaps, the first token stands on the first line, if it is not the end of the
file. -/
theorem front_tokensFrom (limit : Int) {lines : List (List Char)} (h : Gapless lines) (k : Nat) :
    (Parser.front (tokensFrom limit k lines)).line = 0 ∨
      (Parser.front (tokensFrom limit k lines)).line = k := by
  cases lines with
  | nil => exact Or.inl rfl
  | cons line lines =>
    by_cases hblank : line.all Text.isBlank
    · have hall : ∀ l ∈ line :: lines, l.all Text.isBlank :=
        List.forall_mem_cons.2 ⟨hblank, fun l hl => (List.pairwise_cons.1 h).1 l hl hblank⟩
      rw [tokensFrom_of_blank limit hall]
      exact Or.inl rfl
    · rw [tokensFrom_cons, if_neg hblank, List.append_assoc]
      right
      cases hts : lexemesOn limit k line with
      | nil => rfl
      | cons t ts => exact (lexemesOn_line (hts ▸ List.mem_cons_self)).1

/-- The lines of a source without gaps can be counted. -/
theorem counted_tokensFrom (limit : Int) {lines : List (List Char)} (h : Gapless lines) (k : Nat) :
    Parser.Counted k (tokensFrom limit k lines) := by
  induction lines generalizing k with
  | nil => trivial
  | cons line lines ih =>
    have hlines := (List.pairwise_cons.1 h).2
    by_cases hblank : line.all Text.isBlank
    · have hall : ∀ l ∈ line :: lines, l.all Text.isBlank :=
        List.forall_mem_cons.2 ⟨hblank, fun l hl => (List.pairwise_cons.1 h).1 l hl hblank⟩
      rw [tokensFrom_of_blank limit hall]
      trivial
    · rw [tokensFrom_cons, if_neg hblank, List.append_assoc]
      refine Parser.counted_append (fun t ht hend => ?_) ?_
      · exact absurd (lexemesOn_line ht).2 (by rw [hend]; decide)
      · have hend : (Token.endOfLine k).kind = .endOfLine := rfl
        rw [List.singleton_append, Parser.Counted, if_pos hend]
        refine ⟨?_, by exact_mod_cast ih hlines (k + 1)⟩
        rw [Parser.State.nextLine]
        rcases front_tokensFrom limit hlines (k + 1) with hfront | hfront
        · rw [if_pos hfront]
        · rw [hfront, if_neg (by omega)]
          exact Int.natCast_succ k

end Lexer

/-! ## From the ledger back to the tables -/

/-- A token ledger is read without a warning, and what it records is analysed as the source was: the
same tokens are passed, the same symbols are declared, and after the lexical errors the same
problems are found. They are on the same lines if no blank line stands before one that is not
blank. -/
theorem analyzeTokens_of_ledger (l : Limits) (source : String) :
    let r := analyze l source
    let ledger := Ledger.read (Ledger.content r .tokens)
    let r' := analyzeTokens l ledger.1
    ledger.2 = [] ∧
      r'.tokens.map Token.toLexeme = r.tokens.map Token.toLexeme ∧
      r'.cleaned.map Token.toLexeme = r.cleaned.map Token.toLexeme ∧
      r'.vars = r.vars ∧ r'.procs = r.procs ∧
      r'.errors.map Diagnostic.unlined =
        (r.errors.drop r.lexicalErrors.length).map Diagnostic.unlined ∧
      (Lexer.Gapless (Text.sourceLines source.toList) →
        r'.errors = r.errors.drop r.lexicalErrors.length) := by
  have htokens : (tokenize l.identifierLength source).1 =
      Lexer.tokensFrom l.identifierLength 1 (Text.sourceLines source.toList) := rfl
  have hanalyze : analyze l source =
      .ofParse (tokenize l.identifierLength source).1 (tokenize l.identifierLength source).2
        (parse l.nesting (tokenize l.identifierLength source).1) := rfl
  have hledger := Ledger.read_render_tokenRecord
    (fun t (ht : t ∈ (tokenize l.identifierLength source).1) => isWord_of_mem_tokenize ht)
  simp only [hanalyze, Ledger.content, analyzeTokens, Analysis.ofParse, hledger,
    List.drop_left, List.nil_append]
  generalize (tokenize l.identifierLength source).1 = ts at htokens ⊢
  have hlexemes : (ts.map fun t => { t with line := 0 }).map Token.toLexeme =
      ts.map Token.toLexeme := by
    rw [List.map_map]
    rfl
  obtain ⟨hcleaned, hvars, hprocs, herrors⟩ :=
    Parser.parse_parallel Parser.parallel_unlined l.nesting hlexemes
  refine ⟨trivial, hlexemes, hcleaned, hvars, hprocs, herrors, fun hgapless => ?_⟩
  have hcounted : Parser.CountedAlike ts 1 (ts.map fun t => { t with line := 0 }) 1 :=
    { lexemes := hlexemes
      unknown := by
        rw [List.forall_mem_map]
        exact fun _ _ => rfl
      counted := htokens ▸ Lexer.counted_tokensFrom l.identifierLength hgapless 1
      line_eq := rfl }
  simpa using (Parser.parse_parallel Parser.parallel_counted l.nesting hcounted).2.2.2

/-- Of the four errors of this source the ledger loses the one that is lexical. -/
theorem analyzeTokens_of_ledger_of_misread_name :
    let source := "begin\n  read(x;\n  ? y\nend\n\n"
    let r := analyze {} source
    Lexer.Gapless (Text.sourceLines source.toList) ∧ r.lexicalErrors.length = 1 ∧
      r.errors.length = 4 ∧
      (analyzeTokens {} (Ledger.read (Ledger.content r .tokens)).1).errors = r.errors.drop 1 := by
  intro source r
  have h := analyzeTokens_of_ledger {} source
  have hgapless : Lexer.Gapless (Text.sourceLines source.toList) := by decide +kernel
  have hlexical : r.lexicalErrors.length = 1 := by decide +kernel
  refine ⟨hgapless, hlexical, by decide +kernel, ?_⟩
  rw [← hlexical]
  exact h.2.2.2.2.2.2 hgapless

end PocketPascal
