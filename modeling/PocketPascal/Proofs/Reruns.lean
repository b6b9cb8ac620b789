import PocketPascal.CommandLine.Run
import PocketPascal.Files.Disk
import PocketPascal.Proofs.Reanalysis
import PocketPascal.Proofs.WrittenPaths

/-! # Runs on their own ledgers

A run on a token ledger writes that ledger again, and byte for byte the same. So however often it is
repeated, every run finds what the first one left: the same tokens are parsed to the same symbols,
and only the errors lose what the ledger does not keep, all of it in the first repetition.
-/

namespace PocketPascal

/-! ## What can be written -/

theorem RawText.eq_ofString_of_toString? {t : RawText} {s : String} (h : t.toString? = some s) :
    t = ofString s := by
  obtain ⟨points⟩ := t
  obtain ⟨cs, hcs, rfl⟩ := Option.map_eq_some_iff.1 h
  rw [ofString, String.toList_ofList]
  congr 1
  clear h
  induction points generalizing cs with
  | nil =>
    obtain rfl : cs = [] := by simpa using hcs.symm
    rfl
  | cons p points ih =>
    simp only [List.mapM_cons, Option.bind_eq_bind, Option.bind_eq_some_iff, Option.pure_def,
      Option.some.injEq] at hcs
    obtain ⟨c, hc, rest, hrest, rfl⟩ := hcs
    cases p with
    | char c' =>
      obtain rfl : c' = c := Option.some.inj hc
      rw [List.map_cons, ih rest hrest]
    | surrogate => cases hc

namespace MaskedText

theorem eq_char_of_restorePoint {block : Nat} {p : CodePoint} {c : Char}
    (h : restorePoint block p = .char c) : p = .char c := by
  simp only [restorePoint] at h
  split at h
  · cases h
  · exact h

theorem eq_of_map_restorePoint {block : Nat} {cs cs' : List Char}
    (h : cs.map (restorePoint block ∘ .char) = cs'.map .char) : cs' = cs := by
  induction cs generalizing cs' with
  | nil => simpa using h.symm
  | cons c cs ih =>
    obtain ⟨c', rest, rfl, hc, hrest⟩ := List.map_eq_cons_iff.1 h.symm
    obtain rfl := CodePoint.char.inj (eq_char_of_restorePoint hc.symm)
    rw [ih hrest.symm]

/-- Where a text can be written although it was masked, no surrogate was put back into it. -/
theorem eq_of_toString?_restore (t : RawText) {s s' : String}
    (h : ((ofRaw t).restore s).toString? = some s') : s' = s := by
  unfold ofRaw at h
  split at h
  · simpa [ofString] using h.symm
  · have hpoints := congrArg RawText.points (RawText.eq_ofString_of_toString? h)
    simp only [RawText.ofString, List.map_map] at hpoints
    exact String.toList_inj.1 (eq_of_map_restorePoint hpoints)

end MaskedText

namespace Ledger

variable {c : Settings} {raw : Name → RawText} {content : Name → String} {names : List Name}
  {d d' : Disk}

theorem Name.mem_all (n : Name) : n ∈ Name.all := by
  cases n <;> decide

/-- Files hold ledgers, and all others are as they were. -/
structure Written (c : Settings) (content : Name → String) (names : List Name) (d d' : Disk) :
    Prop where
  files : ∀ n ∈ names, d'.file? (path c n) = some (content n).toUTF8
  others : ∀ p, (∀ n ∈ names, p ≠ path c n) → d'.file? p = d.file? p

theorem writeEach_cons (d : Disk) (n : Name) (rest : List Name) :
    (writeEach (m := StateM Disk) c raw (n :: rest)).run d =
      match (raw n).toString? with
      | some s =>
        let r := (writeEach (m := StateM Disk) c raw rest).run (d.put (path c n) s.toUTF8)
        ((n :: r.1.1, r.1.2), r.2)
      | none => (([], .error .unencodable), d.put (path c n) .empty) := by
  simp only [writeEach, FileAccess.writeFile, Disk.writeText]
  cases (raw n).toString? with
  | none => rfl
  | some s => rfl

/-- Ledgers that have bytes are written to as many files if their paths differ. -/
theorem written_of_toString? (hpaths : (names.map (path c)).Nodup)
    (h : ∀ n ∈ names, (raw n).toString? = some (content n)) :
    ∃ d', (writeEach (m := StateM Disk) c raw names).run d = ((names, .ok ()), d') ∧
      Written c content names d d' := by
  induction names generalizing d with
  | nil => exact ⟨d, rfl, List.forall_mem_nil _, fun _ _ => rfl⟩
  | cons n names ih =>
    obtain ⟨hn, hnames⟩ := List.forall_mem_cons.1 h
    obtain ⟨hfresh, hpaths⟩ := List.nodup_cons.1 hpaths
    obtain ⟨d', hrun, hwritten⟩ := ih (d := d.put (path c n) (content n).toUTF8) hpaths hnames
    refine ⟨d', by rw [writeEach_cons, hn]; simp only [hrun], ?_, ?_⟩
    · refine List.forall_mem_cons.2 ⟨?_, hwritten.files⟩
      rw [hwritten.others, Disk.file?_put_self]
      exact fun n' hn' heq => hfresh (heq ▸ List.mem_map_of_mem hn')
    · intro p hp
      obtain ⟨hpn, hpnames⟩ := List.forall_mem_cons.1 hp
      rw [hwritten.others p hpnames, Disk.file?_put_of_ne _ hpn]

/-- Where all ledgers are written, all of them have bytes. -/
theorem toString?_of_writeEach
    (h : ((writeEach (m := StateM Disk) c raw names).run d).1.2 = .ok ()) :
    ∀ n ∈ names, ∃ s, (raw n).toString? = some s := by
  induction names generalizing d with
  | nil => exact List.forall_mem_nil _
  | cons n names ih =>
    rw [writeEach_cons] at h
    cases hn : (raw n).toString? with
    | none =>
      rw [hn] at h
      cases h
    | some s =>
      rw [hn] at h
      exact List.forall_mem_cons.2 ⟨⟨s, hn⟩, ih h⟩

/-! ## Ledgers of the same lexemes -/

theorem map_tokenRecord_congr {ts ts' : List Token}
    (h : ts'.map Token.toLexeme = ts.map Token.toLexeme) :
    ts'.map tokenRecord = ts.map tokenRecord := by
  have hrecord : tokenRecord = (fun a => tokenRecord { toLexeme := a }) ∘ Token.toLexeme := rfl
  rw [hrecord, ← List.map_map, ← List.map_map, h]

theorem render_eq_empty_iff {records : List String} : render records = "" ↔ records = [] := by
  cases records with
  | nil => exact ⟨fun _ => rfl, fun _ => rfl⟩
  | cons record records =>
    have hne : (render (record :: records)).toList ≠ [] := by simp [toList_render]
    refine ⟨fun h => absurd (congrArg String.toList h) hne, fun h => by cases h⟩

end Ledger

/-- The analysis of the tokens that the ledger of some tokens records. -/
def relearn (l : Limits) (tokens : List Token) : Analysis :=
  analyzeTokens l (tokens.map fun t => { t with line := 0 })

theorem map_toLexeme_unlined (tokens : List Token) :
    (tokens.map fun t => { t with line := 0 }).map Token.toLexeme = tokens.map Token.toLexeme := by
  rw [List.map_map]
  rfl

/-- All ledgers but that of the errors are the same again. -/
theorem content_relearn (l : Limits) (tokens : List Token) (lexicalErrors : List Diagnostic)
    {n : Ledger.Name} (hn : n ≠ .errors) :
    Ledger.content (relearn l tokens) n =
      Ledger.content (.ofParse tokens lexicalErrors (parse l.nesting tokens)) n := by
  have hlexemes := map_toLexeme_unlined tokens
  obtain ⟨hcleaned, hvars, hprocs, -⟩ :=
    Parser.parse_parallel Parser.parallel_unlined l.nesting hlexemes
  cases n with
  | tokens => exact congrArg Ledger.render (Ledger.map_tokenRecord_congr hlexemes)
  | cleaned => exact congrArg Ledger.render (Ledger.map_tokenRecord_congr hcleaned)
  | vars => exact congrArg (fun vs => Ledger.render (vs.map Ledger.variableRecord)) hvars
  | procs => exact congrArg (fun ps => Ledger.render (ps.map Ledger.procedureRecord)) hprocs
  | errors => exact absurd rfl hn

/-! ## The bytes of a ledger -/

theorem fromUTF8?_toUTF8 (s : String) : String.fromUTF8? s.toUTF8 = some s := by
  simp only [String.fromUTF8?, String.toUTF8_eq_toByteArray, dif_pos s.isValidUTF8]
  rfl

theorem decodeText?_toUTF8 {s : String} (h : '\r' ∉ s.toList) : decodeText? s.toUTF8 = some s := by
  have hnone : ∀ c ∈ s.toList, (if c = '\r' then '\n' else c) = c := by
    intro c hc
    rw [if_neg]
    rintro rfl
    exact h hc
  rw [decodeText?, fromUTF8?_toUTF8, Option.map_some, Text.normalizeNewlines,
    Text.joinReturns_eq_self h, List.map_congr_left hnone, List.map_id', String.ofList_toList]

/-- The bytes of a ledger of tokens that are words are read as they were written. -/
theorem decodeText?_render_tokenRecord {ts : List Token}
    (h : ∀ t ∈ ts, Text.IsWord t.text.toList) :
    decodeText? (Ledger.render (ts.map Ledger.tokenRecord)).toUTF8 =
      some (Ledger.render (ts.map Ledger.tokenRecord)) :=
  decodeText?_toUTF8 (Ledger.return_not_mem_render h)

/-! ## Runs on a disk -/

namespace CommandLine

open Ledger (path content)

/-- The report on a job that is done on a disk, and the disk afterwards. -/
def perform (c : Settings) (j : Job) (d : Disk) : Report × Disk :=
  (run (m := StateM Disk) c j).run d

/-- The disk after several jobs, one after the other. -/
def performAll (c : Settings) (jobs : List Job) (d : Disk) : Disk :=
  jobs.foldl (fun d j => (perform c j d).2) d

theorem performAll_nil (c : Settings) (d : Disk) : performAll c [] d = d := rfl

/-- A job is about a proper text, which it is given or finds in a file. -/
def Job.Gives (d : Disk) (j : Job) (s : String) : Prop :=
  if j.isText then j.source = s
  else ∃ bytes, d.file? (.ofText j.source) = some bytes ∧ decodeText? bytes = some s

/-- A job on the token ledger that runs with these settings leave. -/
structure Job.Rereads (c : Settings) (j : Job) : Prop where
  isText : j.isText = false
  fromTokens : j.fromTokens = true
  source : Path.ofText j.source = path c .tokens

variable {c : Settings} {j : Job} {d d' : Disk} {text : MaskedText} {a : Analysis}

/-- The text that a job is about, as a disk has it. -/
def Job.inputOn (d : Disk) (j : Job) : Except Failure MaskedText :=
  if j.isText then .ok (.ofRaw j.source)
  else match d.read j.source with
    | .error e => .error (.file e)
    | .ok bytes =>
      match decodeText? bytes with
      | none => .error .undecodable
      | some s => .ok (.ofString s)

theorem run_input (d : Disk) (j : Job) :
    (input (m := StateM Disk) j).run d = (j.inputOn d, d) := by
  simp only [input, Job.inputOn]
  cases j.isText with
  | true => rfl
  | false =>
    simp only [Bool.false_eq_true, if_false, Disk.run_bind, Disk.run_readFile]
    cases d.read j.source with
    | error e => rfl
    | ok bytes =>
      dsimp only
      cases decodeText? bytes with
      | none => rfl
      | some s => rfl

theorem run_writeAll (c : Settings) (raw : Ledger.Name → RawText) (d : Disk) :
    (Ledger.writeAll (m := StateM Disk) c raw).run d =
      (Ledger.writeEach (m := StateM Disk) c raw Ledger.Name.all).run d := by
  rw [Ledger.writeAll, FileAccess.makeDirectories, FileAccess.ensureDirectory]
  rfl

/-- Once there is an input, its analysis is written and reported. -/
theorem perform_of_input (h : j.inputOn d = .ok text) :
    perform c j d =
      let a := (study c.limits j.fromTokens text).1
      let w := (Ledger.writeEach (m := StateM Disk) c (fun n => text.restore (content a n))
        Ledger.Name.all).run d
      let log := (study c.limits j.fromTokens text).2 ++ writtenLog c w.1.1
      match w.1.2 with
      | .error e => ({ ending := .error (.file e), log }, w.2)
      | .ok _ =>
        ({ ending := .ok (if succeeded a.errors then .clean else .faulty)
           log := log ++ doneLog c a
           printed := if j.printErrors then a.errors.map Ledger.errorRecord else [] }, w.2) := by
  rw [perform, run, Disk.run_bind, run_input, h]
  simp only [Disk.run_bind, run_writeAll]
  generalize (Ledger.writeEach (m := StateM Disk) c _ Ledger.Name.all).run d = w
  obtain ⟨⟨written, ending⟩, d'⟩ := w
  cases ending with
  | error e => rfl
  | ok _ => rfl

theorem perform_of_error {e : Failure} (h : j.inputOn d = .error e) :
    perform c j d = ({ ending := .error e }, d) := by
  rw [perform, run, Disk.run_bind, run_input, h]
  rfl

/-- A job has been done: the ledgers of an analysis are written, and its errors are reported. -/
structure Done (c : Settings) (a : Analysis) (j : Job) (d : Disk) : Prop where
  written : Ledger.Written c (content a) Ledger.Name.all d (perform c j d).2
  ending : (perform c j d).1.ending = .ok (if succeeded a.errors then .clean else .faulty)
  printed : (perform c j d).1.printed =
    if j.printErrors then a.errors.map Ledger.errorRecord else []

/-- A job is done if there is an input and all that comes of it has bytes. -/
theorem done_of_input (hpaths : (Ledger.Name.all.map (path c)).Nodup)
    (hinput : j.inputOn d = .ok text) (ha : (study c.limits j.fromTokens text).1 = a)
    (hbytes : ∀ n, (text.restore (content a n)).toString? = some (content a n)) : Done c a j d := by
  obtain ⟨d', hwrite, hwritten⟩ := Ledger.written_of_toString? (d := d) hpaths fun n _ => hbytes n
  have hperform := perform_of_input (c := c) hinput
  simp only [ha, hwrite] at hperform
  exact ⟨by rw [hperform]; exact hwritten, by rw [hperform], by rw [hperform]⟩

theorem exists_ofRaw_of_input (h : j.inputOn d = .ok text) : ∃ t, text = .ofRaw t := by
  unfold Job.inputOn at h
  split at h
  · exact ⟨_, (Except.ok.inj h).symm⟩
  · split at h
    · cases h
    · split at h
      · cases h
      · next s _ => exact ⟨s, by rw [← Except.ok.inj h, MaskedText.ofRaw_ofString]⟩

theorem input_of_gives {s : String} (h : j.Gives d s) : j.inputOn d = .ok (.ofString s) := by
  rw [Job.inputOn]
  unfold Job.Gives at h
  split at h
  · next htext => rw [if_pos htext, h, MaskedText.ofRaw_ofString]
  · next htext =>
    obtain ⟨bytes, hfile, hdecode⟩ := h
    simp only [if_neg htext, Disk.read, hfile, hdecode]

/-- A job that ends without a failure is done. -/
theorem done_of_ending (hpaths : (Ledger.Name.all.map (path c)).Nodup) {status : Status}
    (h : (perform c j d).1.ending = .ok status) :
    ∃ text, j.inputOn d = .ok text ∧ Done c (study c.limits j.fromTokens text).1 j d := by
  cases hinput : j.inputOn d with
  | error e =>
    rw [perform_of_error hinput] at h
    cases h
  | ok text =>
    refine ⟨text, rfl, done_of_input hpaths hinput rfl fun n => ?_⟩
    obtain ⟨t, rfl⟩ := exists_ofRaw_of_input hinput
    rw [perform_of_input hinput] at h
    dsimp only at h
    split at h
    · cases h
    · next hwrite =>
      obtain ⟨s, hs⟩ := Ledger.toString?_of_writeEach hwrite n n.mem_all
      rw [hs, MaskedText.eq_of_toString?_restore t hs]

/-- The error file that a job leaves holds what it prints, and is empty where it ends well. -/
def Tells (c : Settings) (j : Job) (d : Disk) : Prop :=
  ∃ errors : String, (perform c j d).2.file? (path c .errors) = some errors.toUTF8 ∧
    (∃ status, (perform c j d).1.ending = .ok status ∧
      status.code = if errors = "" then 0 else 1) ∧
    Ledger.render (perform c j d).1.printed = if j.printErrors then errors else ""

theorem Done.file (h : Done c a j d) (n : Ledger.Name) :
    (perform c j d).2.file? (path c n) = some (content a n).toUTF8 :=
  h.written.files n n.mem_all

theorem Done.tells (h : Done c a j d) : Tells c j d := by
  refine ⟨content a .errors, h.file .errors, ⟨_, h.ending, ?_⟩, ?_⟩
  · have hempty : content a .errors = "" ↔ succeeded a.errors = true := by
      rw [content, Ledger.render_eq_empty_iff, succeeded]
      simp
    simp only [hempty]
    split <;> rfl
  · rw [h.printed]
    split <;> rfl

theorem Done.others (h : Done c a j d) {p : Path} (hp : ∀ n, p ≠ path c n) :
    (perform c j d).2.file? p = d.file? p :=
  h.written.others p fun n _ => hp n

/-! ## Runs on token ledgers -/

/-- A disk has the ledger of some tokens where runs with these settings leave it. -/
def Keeps (c : Settings) (tokens : List Token) (d : Disk) : Prop :=
  d.file? (path c .tokens) = some (Ledger.render (tokens.map Ledger.tokenRecord)).toUTF8

variable {tokens : List Token}

theorem input_of_rereads (hj : j.Rereads c) (hwords : ∀ t ∈ tokens, Text.IsWord t.text.toList)
    (h : Keeps c tokens d) :
    j.inputOn d = .ok (.ofString (Ledger.render (tokens.map Ledger.tokenRecord))) := by
  rw [Job.inputOn, hj.isText, Disk.read, hj.source, h]
  simp only [decodeText?_render_tokenRecord hwords]
  rfl

/-- A run on a token ledger leaves what it has learnt from it. -/
theorem done_of_rereads (hpaths : (Ledger.Name.all.map (path c)).Nodup)
    (hwords : ∀ t ∈ tokens, Text.IsWord t.text.toList) (hj : j.Rereads c) (h : Keeps c tokens d) :
    Done c (relearn c.limits tokens) j d := by
  refine done_of_input hpaths (input_of_rereads hj hwords h) ?_ fun n =>
    RawText.toString?_ofString _
  rw [study, if_pos hj.fromTokens]
  change analyzeTokens c.limits (Ledger.read _).1 = _
  simp only [MaskedText.ofString, Ledger.read_render_tokenRecord hwords, relearn]

/-- The ledger is still there afterwards. -/
theorem keeps_of_done (h : Done c (relearn c.limits tokens) j d) :
    Keeps c tokens (perform c j d).2 := by
  rw [Keeps, h.file, content_relearn c.limits tokens [] (by decide)]
  rfl

theorem performAll_rereads (hpaths : (Ledger.Name.all.map (path c)).Nodup)
    (hwords : ∀ t ∈ tokens, Text.IsWord t.text.toList) {jobs : List Job}
    (hjobs : ∀ j ∈ jobs, j.Rereads c) (h : Keeps c tokens d) :
    Keeps c tokens (performAll c jobs d) ∧
      ∀ p, (∀ n, p ≠ path c n) → (performAll c jobs d).file? p = d.file? p := by
  induction jobs generalizing d with
  | nil => exact ⟨h, fun _ _ => rfl⟩
  | cons j jobs ih =>
    obtain ⟨hj, hjobs⟩ := List.forall_mem_cons.1 hjobs
    have hdone := done_of_rereads hpaths hwords hj h
    obtain ⟨hkeeps, hothers⟩ := ih hjobs (keeps_of_done hdone)
    exact ⟨hkeeps, fun p hp => (hothers p hp).trans (hdone.others hp)⟩

/-- The path of the token ledger, as it is written, leads there again. -/
theorem rereads_path (c : Settings) (printErrors : Bool) :
    Job.Rereads c
      { source := (path c .tokens).text, fromTokens := true, printErrors := printErrors } where
  isText := rfl
  fromTokens := rfl
  source := ((Path.normal_ofText _).join (Path.normal_ofText _)).ofText_text

/-- A run that is done is repeated on its own token ledger with the same settings, any number of
times. All files but that of the errors stay as the run left them, that of the errors is the same
after every repetition, files other than the five stay as they were, and every run says what its
error file says. A run on a proper text is done. -/
theorem rereads_fixpoint (c : Settings) (hpaths : (Ledger.Name.all.map (path c)).Nodup) (d : Disk)
    (j : Job) (hj : j.fromTokens = false) :
    (∀ s, j.Gives d s → ∃ status, (perform c j d).1.ending = .ok status) ∧
      ∀ status, (perform c j d).1.ending = .ok status →
        Tells c j d ∧ (∀ p, (∀ n, p ≠ path c n) → (perform c j d).2.file? p = d.file? p) ∧
        ∃ errors, ∀ jobs again, (∀ j' ∈ jobs, Job.Rereads c j') → Job.Rereads c again →
          let d₁ := (perform c j d).2
          let d₂ := performAll c jobs d₁
          Tells c again d₂ ∧
            (∀ n, n ≠ .errors → ∃ bytes, d₁.file? (path c n) = some bytes ∧
              (perform c again d₂).2.file? (path c n) = some bytes) ∧
            (perform c again d₂).2.file? (path c .errors) = some errors ∧
            ∀ p, (∀ n, p ≠ path c n) → (perform c again d₂).2.file? p = d.file? p := by
  refine ⟨fun s hs => ?_, fun status hending => ?_⟩
  · exact ⟨_, (done_of_input hpaths (input_of_gives hs) rfl fun n =>
      RawText.toString?_ofString _).ending⟩
  obtain ⟨text, -, hdone⟩ := done_of_ending hpaths hending
  rw [hj] at hdone
  have hsource : (study c.limits false text).1 =
      .ofParse (tokenize c.limits.identifierLength text.text).1
        (tokenize c.limits.identifierLength text.text).2
        (parse c.limits.nesting (tokenize c.limits.identifierLength text.text).1) := rfl
  have hwords := fun t (ht : t ∈ (tokenize c.limits.identifierLength text.text).1) =>
    isWord_of_mem_tokenize ht
  rw [hsource] at hdone
  generalize (tokenize c.limits.identifierLength text.text).1 = tokens at hdone hwords
  generalize (tokenize c.limits.identifierLength text.text).2 = lexicalErrors at hdone
  have hkeeps : Keeps c tokens (perform c j d).2 := hdone.file .tokens
  refine ⟨hdone.tells, fun p => hdone.others,
    (content (relearn c.limits tokens) .errors).toUTF8, ?_⟩
  intro jobs again hjobs hagain d₁ d₂
  obtain ⟨hkeeps₂, hothers₂⟩ := performAll_rereads hpaths hwords hjobs hkeeps
  have hdone₂ := done_of_rereads hpaths hwords hagain hkeeps₂
  refine ⟨hdone₂.tells, fun n hn => ?_, hdone₂.file .errors, fun p hp => ?_⟩
  · refine ⟨_, hdone.file n, ?_⟩
    rw [← content_relearn c.limits tokens lexicalErrors hn]
    exact hdone₂.file n
  · exact (hdone₂.others hp).trans ((hothers₂ p hp).trans (hdone.others hp))

/-- The errors of this program are of three stages; those of the first one are lost when its ledger
is read, and then no more. -/
theorem rereads_fixpoint_of_misread_name :
    let c : Settings := {}
    let d : Disk := ⟨fun _ => none⟩
    let j : Job := { source := "begin\n  read(x;\n  ? y\nend\n\n", isText := true }
    let again : Job :=
      { source := (path c .tokens).text, fromTokens := true, printErrors := true }
    let d₁ := (perform c j d).2
    (Ledger.Name.all.map (path c)).Nodup ∧ j.fromTokens = false ∧ again.Rereads c ∧
      Tells c j d ∧ Tells c again (performAll c [again] d₁) ∧
      (perform c again (performAll c [again] d₁)).2.file? (path c .errors) =
        (perform c again d₁).2.file? (path c .errors) ∧
      ∃ bytes, d₁.file? (path c .procs) = some bytes ∧
        (perform c again (performAll c [again] d₁)).2.file? (path c .procs) = some bytes := by
  intro c d j again d₁
  have hpaths : (Ledger.Name.all.map (path c)).Nodup := by decide +kernel
  have hagain : again.Rereads c := rereads_path c true
  obtain ⟨hends, hfix⟩ := rereads_fixpoint c hpaths d j rfl
  obtain ⟨status, hending⟩ := hends "begin\n  read(x;\n  ? y\nend\n\n" rfl
  obtain ⟨htells, -, errors, hfix⟩ := hfix status hending
  obtain ⟨-, -, herrors, -⟩ := hfix [] again (List.forall_mem_nil _) hagain
  rw [performAll_nil] at herrors
  obtain ⟨htells₂, hfiles, herrors₂, -⟩ :=
    hfix [again] again (List.forall_mem_singleton.2 hagain) hagain
  exact ⟨hpaths, rfl, hagain, htells, htells₂, herrors₂.trans herrors.symm,
    hfiles .procs (by decide)⟩

end CommandLine

end PocketPascal
