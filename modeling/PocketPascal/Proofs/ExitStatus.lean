import PocketPascal.CommandLine.Run
import PocketPascal.Files.Tree

/-! # What becomes of files that cannot be read

A command line reads its settings and its input before it writes anything. What goes wrong until
then leaves the files as they are, but not everything that goes wrong ends in an exit status: only
failed accesses to files, malformed settings and refused ones do. Bytes that are no UTF-8, in the
settings as in the input, are among the failures that nothing catches.
-/

namespace PocketPascal

namespace FileTree

variable {t : FileTree}

/-- What comes after an action starts from its answer, on the tree that it leaves. -/
theorem run_bind {α β : Type} (x : StateM FileTree α) (f : α → StateM FileTree β) (t : FileTree) :
    (x >>= f).run t = (f (x.run t).1).run (x.run t).2 := rfl

theorem run_readFile (t : FileTree) (path : RawText) :
    (FileAccess.readFile (m := StateM FileTree) path).run t = (t.read path, t) := rfl

open CommandLine in
/-- The text of a file. -/
def readText (t : FileTree) (path : RawText) : Except Failure String :=
  match t.read path with
  | .error e => .error (.file e)
  | .ok bytes =>
    match decodeText? bytes with
    | none => .error .undecodable
    | some text => .ok text

end FileTree

namespace CommandLine

/-! ## What is caught -/

/-- How a command line ends that meets a failure: if a file cannot be accessed, it is unusable, and
other failures are not caught. -/
def Failure.ending : Failure → Except Failure Status
  | .file (.failed _ _) => .ok .unusable
  | e => .error e

/-- How a command line ends if its settings file holds no value. -/
def valueEnding : Json.ReadError → Except Failure Status
  | .malformed => .ok .unusable
  | .numberTooLong => .error .numberTooLong
  | .nestedTooDeep c => .error (.nestedTooDeep c)

/-- How a command line ends that gets no settings. -/
def SettingsError.ending : SettingsError → Except Failure Status
  | .refused _ => .ok .unusable
  | .failed e => .error e

/-- What keeps a command line from being carried out, and how it ends then. -/
inductive Obstacle (o : Options) (t : FileTree) : Except Failure Status → Prop where
  /-- The settings file cannot be read as text. -/
  | settingsText {path : String} {e : Failure} (hfile : o.config = some path) (hpath : path ≠ "")
      (htext : t.readText path = .error e) : Obstacle o t e.ending
  /-- Its text is no value. -/
  | settingsValue {path text : String} {e : Json.ReadError}
      (hfile : o.config = some path) (hpath : path ≠ "") (htext : t.readText path = .ok text)
      (hvalue : Json.read text = .error e) : Obstacle o t (valueEnding e)
  /-- The value is not one of settings. -/
  | refused {path text : String} {v : Json.Value} {r : Settings.Refusal}
      (hfile : o.config = some path) (hpath : path ≠ "") (htext : t.readText path = .ok text)
      (hvalue : Json.read text = .ok v) (hrefused : Settings.configure {} v = .error r) :
      Obstacle o t (.ok .unusable)
  /-- The output directory is given as nothing. -/
  | outDir {c : Settings}
      (hload : ((loadSettings (m := StateM FileTree) o.config).run t).1 = .ok c)
      (hnothing : o.outDir = some .nothing) : Obstacle o t (.ok .unusable)
  /-- The input cannot be read as text. -/
  | input {c : Settings} {e : Failure}
      (hsettings : ((settingsFor (m := StateM FileTree) o).run t).1 = .ok c)
      (hfile : o.isText = false) (htext : t.readText (o.job c).source = .error e) :
      Obstacle o t e.ending

variable {args : List String} {o : Options} {t : FileTree} {c : Settings}

/-! ## Reading changes nothing -/

theorem run_input_tree (j : Job) (t : FileTree) :
    (input (m := StateM FileTree) j).run t =
      (if j.isText then .ok (.ofRaw j.source) else (t.readText j.source).map .ofString, t) := by
  rw [input, FileTree.readText]
  cases j.isText with
  | true => rfl
  | false =>
    simp only [Bool.false_eq_true, if_false, FileTree.run_bind, FileTree.run_readFile]
    cases t.read j.source with
    | error e => rfl
    | ok bytes =>
      dsimp only
      cases decodeText? bytes with
      | none => rfl
      | some text => rfl

/-- Why there are no settings where their file cannot be read as text. -/
def Failure.settingsError : Failure → SettingsError
  | .file e => .ofFile e
  | e => .failed e

/-- Why there are no settings where the text of their file is no value. -/
def valueError : Json.ReadError → SettingsError
  | .malformed => .refused .malformed
  | .numberTooLong => .failed .numberTooLong
  | .nestedTooDeep c => .failed (.nestedTooDeep c)

theorem ending_settingsError (e : Failure) : e.settingsError.ending = e.ending := by
  cases e with
  | file e => cases e <;> rfl
  | _ => rfl

theorem ending_valueError (e : Json.ReadError) : (valueError e).ending = valueEnding e := by
  cases e <;> rfl

/-- What a settings file comes to. -/
def settingsIn (t : FileTree) (path : String) : Except SettingsError Settings :=
  match t.readText path with
  | .error e => .error e.settingsError
  | .ok text =>
    match Json.read text with
    | .error e => .error (valueError e)
    | .ok v => (Settings.configure {} v).mapError .refused

theorem run_loadSettings_of_file {path : String} (hpath : path ≠ "") (t : FileTree) :
    (loadSettings (m := StateM FileTree) (some path)).run t = (settingsIn t path, t) := by
  unfold loadSettings
  split
  · next h => cases h
  · next h => exact absurd (Option.some.inj h) hpath
  next path' _ h =>
  obtain rfl := Option.some.inj h
  rw [FileTree.run_bind, FileTree.run_readFile, settingsIn, FileTree.readText]
  cases t.read path with
  | error e => rfl
  | ok bytes =>
    dsimp only
    rw [Settings.ofBytes]
    cases decodeText? bytes with
    | none => rfl
    | some text =>
      dsimp only
      cases Json.read text with
      | error e => cases e <;> rfl
      | ok v =>
        dsimp only
        cases Settings.configure {} v <;> rfl

theorem loadSettings_tree (file : Option String) (t : FileTree) :
    ((loadSettings (m := StateM FileTree) file).run t).2 = t := by
  cases file with
  | none => rfl
  | some path =>
    by_cases hpath : path = ""
    · rw [hpath]
      rfl
    · rw [run_loadSettings_of_file hpath]

/-- The settings for options, once those of a file are there. -/
def Options.overlay (o : Options) (c : Settings) : Except SettingsError Settings :=
  (c.update (o.outDir.toList.map fun given =>
    (RawText.ofString (Settings.Field.key (.text .outputDir)), given.value))).mapError .refused

theorem run_settingsFor (o : Options) (t : FileTree) :
    (settingsFor (m := StateM FileTree) o).run t =
      (((loadSettings (m := StateM FileTree) o.config).run t).1.bind o.overlay, t) := by
  rw [settingsFor, FileTree.run_bind, loadSettings_tree]
  cases ((loadSettings (m := StateM FileTree) o.config).run t).1 with
  | error e => rfl
  | ok c => rfl

theorem execute_of_settings_error {e : SettingsError}
    (hargs : readArguments args = .ok (.run o))
    (h : ((settingsFor (m := StateM FileTree) o).run t).1 = .error e) :
    ((execute (m := StateM FileTree) args).run t).1.ending = e.ending ∧
      ((execute (m := StateM FileTree) args).run t).1.out = [] ∧
      ((execute (m := StateM FileTree) args).run t).2 = t := by
  have htree : ((settingsFor (m := StateM FileTree) o).run t).2 = t := by rw [run_settingsFor]
  rw [execute, hargs]
  dsimp only
  rw [FileTree.run_bind, h, htree]
  cases e with
  | refused r => exact ⟨rfl, rfl, rfl⟩
  | failed e => exact ⟨rfl, rfl, rfl⟩

theorem execute_of_settings (hargs : readArguments args = .ok (.run o))
    (h : ((settingsFor (m := StateM FileTree) o).run t).1 = .ok c) :
    (execute (m := StateM FileTree) args).run t =
      ((((run (m := StateM FileTree) c (o.job c)).run t).1.transcript o.verbose),
        ((run (m := StateM FileTree) c (o.job c)).run t).2) := by
  have htree : ((settingsFor (m := StateM FileTree) o).run t).2 = t := by rw [run_settingsFor]
  rw [execute, hargs]
  dsimp only
  rw [FileTree.run_bind, h, htree]
  rfl

theorem run_of_input_error {j : Job} {e : Failure}
    (h : ((input (m := StateM FileTree) j).run t).1 = .error e) :
    (run (m := StateM FileTree) c j).run t = ({ ending := .error e }, t) := by
  have htree : ((input (m := StateM FileTree) j).run t).2 = t := by rw [run_input_tree]
  rw [run, FileTree.run_bind, h, htree]
  rfl

theorem ending_transcript (r : Report) (verbose : Bool) :
    (r.transcript verbose).ending =
      match r.ending with
      | .error e => e.ending
      | .ok status => .ok status := by
  obtain ⟨ending, log, printed⟩ := r
  cases ending with
  | ok status => rfl
  | error e =>
    cases e with
    | file e => cases e <;> rfl
    | _ => rfl

theorem out_transcript (r : Report) (verbose : Bool) : (r.transcript verbose).out = r.printed := by
  obtain ⟨ending, log, printed⟩ := r
  cases ending with
  | ok status => rfl
  | error e =>
    cases e with
    | file e => cases e <;> rfl
    | _ => rfl

/-- Once there is an input, a run fails only in writing. -/
theorem exists_file_of_input {j : Job} {text : MaskedText} {e : Failure}
    (h : ((input (m := StateM FileTree) j).run t).1 = .ok text)
    (hending : ((run (m := StateM FileTree) c j).run t).1.ending = .error e) :
    ∃ e', e = .file e' := by
  rw [run, FileTree.run_bind, h] at hending
  simp only [FileTree.run_bind] at hending
  generalize (Ledger.writeAll (m := StateM FileTree) c _).run _ = w at hending
  obtain ⟨⟨written, ending⟩, t'⟩ := w
  cases ending with
  | error e' => exact ⟨e', (Except.error.inj hending).symm⟩
  | ok _ => cases hending

/-! ## Every obstacle, and every failure -/

/-- An obstacle ends a command line before anything is written. -/
theorem execute_of_obstacle {ending : Except Failure Status}
    (hargs : readArguments args = .ok (.run o)) (h : Obstacle o t ending) :
    ((execute (m := StateM FileTree) args).run t).1.ending = ending ∧
      ((execute (m := StateM FileTree) args).run t).1.out = [] ∧
      ((execute (m := StateM FileTree) args).run t).2 = t := by
  have hfile : ∀ {path e}, o.config = some path → path ≠ "" → settingsIn t path = .error e →
      ((settingsFor (m := StateM FileTree) o).run t).1 = .error e := by
    intro path e hconfig hpath he
    rw [run_settingsFor, hconfig, run_loadSettings_of_file hpath, he]
    rfl
  cases h with
  | settingsText hconfig hpath htext =>
    rw [← ending_settingsError]
    refine execute_of_settings_error hargs (hfile hconfig hpath ?_)
    rw [settingsIn, htext]
  | settingsValue hconfig hpath htext hvalue =>
    rw [← ending_valueError]
    refine execute_of_settings_error hargs (hfile hconfig hpath ?_)
    simp only [settingsIn, htext, hvalue]
  | @refused path text v r hconfig hpath htext hvalue hrefused =>
    refine execute_of_settings_error (e := .refused r) hargs (hfile hconfig hpath ?_)
    simp only [settingsIn, htext, hvalue, hrefused]
    rfl
  | @outDir c hload hnothing =>
    obtain ⟨r, hoverlay⟩ : ∃ r, o.overlay c = .error (.refused r) := by
      rw [Options.overlay, hnothing]
      exact ⟨_, rfl⟩
    refine execute_of_settings_error (e := .refused r) hargs ?_
    rw [run_settingsFor, hload]
    exact hoverlay
  | @input c e hsettings hfile htext =>
    have hinput : ((input (m := StateM FileTree) (o.job c)).run t).1 = .error e := by
      rw [run_input_tree, if_neg (by simp [Options.job, hfile]), htext]
      rfl
    rw [execute_of_settings hargs hsettings, run_of_input_error hinput]
    exact ⟨ending_transcript _ _, out_transcript _ _, rfl⟩

theorem overlay_ne_failed (o : Options) (c : Settings) (f : Failure) :
    o.overlay c ≠ .error (.failed f) := by
  rw [Options.overlay]
  cases c.update _ with
  | error r => exact fun h => by cases h
  | ok c' => exact fun h => by cases h

/-- Whatever keeps a settings file from giving settings is an obstacle. -/
theorem obstacle_of_settingsIn {path : String} {e : SettingsError} (hconfig : o.config = some path)
    (hpath : path ≠ "") (h : settingsIn t path = .error e) : Obstacle o t e.ending := by
  rw [settingsIn] at h
  cases htext : t.readText path with
  | error e' =>
    rw [htext] at h
    obtain rfl : e'.settingsError = e := Except.error.inj h
    rw [ending_settingsError]
    exact .settingsText hconfig hpath htext
  | ok text =>
    rw [htext] at h
    dsimp only at h
    cases hvalue : Json.read text with
    | error e' =>
      rw [hvalue] at h
      obtain rfl : valueError e' = e := Except.error.inj h
      rw [ending_valueError]
      exact .settingsValue hconfig hpath htext hvalue
    | ok v =>
      rw [hvalue] at h
      dsimp only at h
      cases hv : Settings.configure {} v with
      | ok c =>
        rw [hv] at h
        cases h
      | error r =>
        rw [hv] at h
        obtain rfl : .refused r = e := Except.error.inj h
        exact .refused hconfig hpath htext hvalue hv

/-- Where a failure keeps a command line from its settings, their file is an obstacle. -/
theorem obstacle_of_settings_failed {f : Failure}
    (h : ((settingsFor (m := StateM FileTree) o).run t).1 = .error (.failed f)) :
    Obstacle o t (.error f) := by
  rw [run_settingsFor] at h
  cases hload : ((loadSettings (m := StateM FileTree) o.config).run t).1 with
  | ok c =>
    rw [hload] at h
    exact absurd h (overlay_ne_failed o c f)
  | error e =>
    rw [hload] at h
    obtain rfl : e = .failed f := Except.error.inj h
    cases hconfig : o.config with
    | none =>
      rw [hconfig] at hload
      cases hload
    | some path =>
      rw [hconfig] at hload
      by_cases hpath : path = ""
      · rw [hpath] at hload
        cases hload
      rw [run_loadSettings_of_file hpath] at hload
      exact obstacle_of_settingsIn hconfig hpath hload

/-- Where a failure keeps a run from its input, that is an obstacle. -/
theorem obstacle_of_input_error {e : Failure}
    (hsettings : ((settingsFor (m := StateM FileTree) o).run t).1 = .ok c)
    (h : ((input (m := StateM FileTree) (o.job c)).run t).1 = .error e) :
    Obstacle o t e.ending := by
  rw [run_input_tree] at h
  dsimp only at h
  split at h
  · cases h
  · next hfile =>
    cases htext : t.readText (o.job c).source with
    | ok text =>
      rw [htext] at h
      cases h
    | error e' =>
      rw [htext] at h
      obtain rfl : e' = e := Except.error.inj h
      exact .input hsettings (by simpa [Options.job] using hfile) htext

/-- A failure that nothing catches is that of an obstacle, or a path cannot be written to. -/
theorem obstacle_of_failure {f : Failure} (hargs : readArguments args = .ok (.run o))
    (h : ((execute (m := StateM FileTree) args).run t).1.ending = .error f) :
    Obstacle o t (.error f) ∨ f = .file .nulInPath ∨ f = .file .unencodable := by
  cases hsettings : ((settingsFor (m := StateM FileTree) o).run t).1 with
  | error e =>
    rw [(execute_of_settings_error hargs hsettings).1] at h
    cases e with
    | refused r => cases h
    | failed e =>
      obtain rfl : e = f := Except.error.inj h
      exact Or.inl (obstacle_of_settings_failed hsettings)
  | ok c =>
    rw [execute_of_settings hargs hsettings, ending_transcript] at h
    cases hending : ((run (m := StateM FileTree) c (o.job c)).run t).1.ending with
    | ok status =>
      rw [hending] at h
      cases h
    | error e =>
      rw [hending] at h
      cases hinput : ((input (m := StateM FileTree) (o.job c)).run t).1 with
      | error e' =>
        rw [run_of_input_error hinput] at hending
        obtain rfl : e' = e := Except.error.inj hending
        have hobstacle := obstacle_of_input_error hsettings hinput
        rw [show e'.ending = .error f from h] at hobstacle
        exact Or.inl hobstacle
      | ok text =>
        obtain ⟨e', rfl⟩ := exists_file_of_input hinput hending
        cases e' with
        | failed cause path => cases h
        | nulInPath => exact Or.inr (Or.inl (Except.error.inj h).symm)
        | unencodable => exact Or.inr (Or.inr (Except.error.inj h).symm)

/-- Whatever is wrong with the settings file or the input file, it decides how a command line ends,
nothing is printed, and no file or directory is made or changed. A file that cannot be accessed,
malformed settings and refused ones make it unusable; bytes that are no text are not caught, and
neither are numbers and nestings that are too much for a reader of settings. Nothing else goes
uncaught, but for ledgers whose paths cannot be written to. -/
theorem execute_reads (hargs : readArguments args = .ok (.run o)) (t : FileTree) :
    (∀ ending, Obstacle o t ending →
      ((execute (m := StateM FileTree) args).run t).1.ending = ending ∧
        ((execute (m := StateM FileTree) args).run t).1.out = [] ∧
        ((execute (m := StateM FileTree) args).run t).2 = t) ∧
    ∀ f, ((execute (m := StateM FileTree) args).run t).1.ending = .error f →
      Obstacle o t (.error f) ∨ f = .file .nulInPath ∨ f = .file .unencodable :=
  ⟨fun _ => execute_of_obstacle hargs, fun _ => obstacle_of_failure hargs⟩

/-- Settings that end too soon make a command line unusable. -/
theorem execute_reads_of_malformed_settings :
    let t : FileTree := { entries := [(["s.json"], .file "\x7b".toUTF8)] }
    let r := (execute (m := StateM FileTree) ["-c", "s.json", "x.pas"]).run t
    readArguments ["-c", "s.json", "x.pas"] =
        .ok (.run { source := some "x.pas", config := some "s.json" }) ∧
      r.1.ending = .ok .unusable ∧ r.2 = t := by
  intro t r
  have hargs : readArguments ["-c", "s.json", "x.pas"] =
      .ok (.run { source := some "x.pas", config := some "s.json" }) := rfl
  have htext : t.readText "s.json" = .ok "\x7b" := rfl
  have hvalue : Json.read "\x7b" = .error .malformed := rfl
  obtain ⟨hending, -, htree⟩ :=
    (execute_reads hargs t).1 _ (.settingsValue rfl (by decide) htext hvalue)
  exact ⟨hargs, hending, htree⟩

/-- A byte that is no text, in an input file that is there, leaves a command line without a
status. -/
theorem execute_of_undecodable_input :
    let t : FileTree := { entries := [(["input.pas"], .file ⟨#[0xff]⟩)] }
    readArguments ["input.pas", "-p"] =
        .ok (.run { source := some "input.pas", printErrors := true }) ∧
      t.readText "input.pas" = .error .undecodable ∧
      ((execute (m := StateM FileTree) ["input.pas", "-p"]).run t).1.ending =
        .error .undecodable :=
  ⟨rfl, rfl, rfl⟩

end CommandLine

end PocketPascal
