import PocketPascal.Proofs.ExitStatus
import PocketPascal.Proofs.Overlays

/-! # Settings that are changed again and again

Settings start from the defaults, are overlaid with objects and replaced by what files hold, and a
change that is refused leaves them as they were. Whatever has become of them, an overlay does the
same to them: it succeeds for the same members, it is refused with the same words, and two of them
in a row are one. And the numbers among them never leave their ranges.
-/

namespace PocketPascal

namespace Json.Value

theorem isNull_iff {v : Value} : v.isNull = true ↔ v = .null := by
  cases v <;> simp [isNull]

instance (v : Value) : Decidable (v = .null) :=
  decidable_of_iff (v.isNull = true) isNull_iff

end Json.Value

theorem mapError_eq_ok {ε ε' α : Type} {x : Except ε α} {g : ε → ε'} {a : α} :
    x.mapError g = .ok a ↔ x = .ok a := by
  cases x <;> simp [Except.mapError]

namespace Settings

open CommandLine (SettingsError Options loadSettings settingsFor)

variable {c c' : Settings} {a : Assignment} {members : List (RawText × Json.Value)}

/-! ## Changes -/

/-- What can be done to settings. -/
inductive Change where
  /-- They are overlaid with a value. -/
  | configure (v : Json.Value)
  /-- They are overlaid with those of some members that are not `null`. -/
  | update (members : List (RawText × Json.Value))
  /-- They are replaced by those in a file, of which this is what reading it comes to. -/
  | load (file : Except FileError ByteArray)

/-- What a change comes to. -/
def attempt (c : Settings) : Change → Except SettingsError Settings
  | .configure v => (c.configure v).mapError .refused
  | .update members => (c.update members).mapError .refused
  | .load (.ok bytes) => (ofBytes bytes).mapError .ofLoad
  | .load (.error e) => .error (.ofFile e)

/-- Settings after a change, which may have been refused. -/
def after (c : Settings) (change : Change) : Settings :=
  match c.attempt change with
  | .ok c' => c'
  | .error _ => c

/-- Settings after some changes. -/
def afterAll (c : Settings) (changes : List Change) : Settings :=
  changes.foldl after c

theorem after_of_ok {change : Change} (h : c.attempt change = .ok c') : c.after change = c' := by
  rw [after, h]

theorem after_of_error {change : Change} {e : SettingsError} (h : c.attempt change = .error e) :
    c.after change = c := by
  rw [after, h]

/-- A file holds settings by being an overlay of the defaults. -/
theorem exists_configure_of_ofBytes {bytes : ByteArray} (h : ofBytes bytes = .ok c) :
    ∃ v, configure {} v = .ok c := by
  rw [ofBytes] at h
  split at h
  · cases h
  · split at h
    · cases h
    · cases h
    · cases h
    · next v _ => exact ⟨v, mapError_eq_ok.1 h⟩

/-! ## Ranges -/

/-- Every value is one that may be given to its setting. -/
def InRange (c : Settings) : Prop :=
  ∀ f : Field, Allowed f (c.value f)

theorem inRange_defaults : InRange {} := by
  rintro (⟨⟨⟩⟩ | ⟨⟨⟩⟩) n hn
  all_goals cases hn
  all_goals decide

theorem InRange.assign (h : c.InRange) (ha : Allowed a.field a.value) : (c.assign a).InRange := by
  intro f
  rw [value_assign]
  split
  · next hf => exact hf ▸ ha
  · exact h f

theorem InRange.foldl_assign {as : List Assignment} (h : c.InRange)
    (has : checks members = as.map .ok) : (as.foldl Settings.assign c).InRange := by
  induction members generalizing as c with
  | nil =>
    obtain rfl : as = [] := List.map_eq_nil_iff.1 has.symm
    exact h
  | cons m members ih =>
    obtain ⟨a, as, rfl, ha, has⟩ := checks_eq_cons has
    rw [List.foldl_cons]
    exact ih (h.assign (eq_of_check ha).2) has

theorem InRange.overlay (h : c.InRange) (hok : c.overlay members = .ok c') : c'.InRange := by
  obtain ⟨as, has, rfl⟩ := checks_of_overlay hok
  exact h.foldl_assign has

theorem InRange.configure {v : Json.Value} (h : c.InRange) (hok : c.configure v = .ok c') :
    c'.InRange := by
  cases v with
  | object members => exact h.overlay hok
  | _ => cases hok

/-- What a change comes to is in range again. -/
theorem InRange.attempt {change : Change} (h : c.InRange) (hok : c.attempt change = .ok c') :
    c'.InRange := by
  cases change with
  | configure v => exact h.configure (mapError_eq_ok.1 hok)
  | update members => exact h.overlay (mapError_eq_ok.1 hok)
  | load file =>
    cases file with
    | error e => cases hok
    | ok bytes =>
      -- The settings that were there before do not matter.
      obtain ⟨v, hv⟩ := exists_configure_of_ofBytes (mapError_eq_ok.1 hok)
      exact inRange_defaults.configure hv

theorem InRange.after (h : c.InRange) (change : Change) : (c.after change).InRange := by
  cases hattempt : c.attempt change with
  | ok c' => exact after_of_ok hattempt ▸ h.attempt hattempt
  | error e => exact (after_of_error hattempt).symm ▸ h

theorem InRange.afterAll (h : c.InRange) (changes : List Change) :
    (c.afterAll changes).InRange := by
  induction changes generalizing c with
  | nil => exact h
  | cons change changes ih => exact ih (h.after change)

/-! ## The settings of a command line -/

/-- To load a settings file that is named on a command line is to change settings. -/
theorem run_loadSettings_eq_attempt {path : String} (hpath : path ≠ "") (t : FileTree)
    (c : Settings) :
    ((loadSettings (m := StateM FileTree) (some path)).run t).1 =
      c.attempt (.load (t.read path)) := by
  unfold loadSettings
  split
  · next h => cases h
  · next h => exact absurd (Option.some.inj h) hpath
  next path' _ h =>
  obtain rfl := Option.some.inj h
  rw [FileTree.run_bind, FileTree.run_readFile]
  cases t.read path with
  | error e => rfl
  | ok bytes => rfl

theorem exists_afterAll_of_loadSettings {file : Option String} {t : FileTree}
    (h : ((loadSettings (m := StateM FileTree) file).run t).1 = .ok c) :
    ∃ changes, c = afterAll {} changes := by
  cases file with
  | none => exact ⟨[], (Except.ok.inj h).symm⟩
  | some path =>
    by_cases hpath : path = ""
    · subst hpath
      exact ⟨[], (Except.ok.inj h).symm⟩
    · rw [run_loadSettings_eq_attempt hpath t {}] at h
      exact ⟨[.load (t.read path)], (after_of_ok h).symm⟩

/-- A command line gets no settings but those that changes of the defaults lead to. -/
theorem exists_afterAll_of_settingsFor {o : Options} {t : FileTree}
    (h : ((settingsFor (m := StateM FileTree) o).run t).1 = .ok c) :
    ∃ changes, c = afterAll {} changes := by
  rw [CommandLine.run_settingsFor] at h
  dsimp only at h
  cases hload : ((loadSettings (m := StateM FileTree) o.config).run t).1 with
  | error e =>
    rw [hload] at h
    cases h
  | ok c₀ =>
    obtain ⟨changes, rfl⟩ := exists_afterAll_of_loadSettings hload
    obtain ⟨change, hchange⟩ : ∃ change, (afterAll {} changes).attempt change = .ok c := by
      rw [hload] at h
      exact ⟨.update (o.outDir.toList.map fun given =>
        (RawText.ofString (Field.key (.text .outputDir)), CommandLine.Given.value given)), h⟩
    refine ⟨changes ++ [change], ?_⟩
    rw [afterAll, List.foldl_concat]
    exact (after_of_ok hchange).symm

/-! ## Overlays of settings that have been changed -/

theorem update_eq (c : Settings) (members : List (RawText × Json.Value)) :
    c.update members = c.configure (.object (members.filter fun m => m.2 ≠ .null)) := by
  rw [update, configure]
  refine congrArg c.overlay (List.filter_congr fun m _ => ?_)
  by_cases hnull : m.2 = .null
  · rw [Json.Value.isNull_iff.2 hnull]
    simp [hnull]
  · rw [Bool.eq_false_iff.2 (mt Json.Value.isNull_iff.1 hnull)]
    simp [hnull]

/-- Whatever has been done to settings, an overlay of theirs succeeds exactly if each of its members
names a setting, has the type of that setting's value and is within its range; then it replaces the
values that are given, and no other ones. If not, it is refused with one objection to each member
that is not accepted, in their order, and nothing has changed. Members that are `null` are left out
of an update. Two overlays that succeed one after the other are a single one with the union of
their members, where the later value counts. And the numbers are always within their ranges. -/
theorem configure_exact_or_refused (changes : List Change) :
    let c := afterAll {} changes
    (∀ members : List (RawText × Json.Value), (members.map Prod.fst).Nodup →
      ((∃ c', c.configure (.object members) = .ok c') ↔ ∀ m ∈ members, c.Accepts m) ∧
      (∀ c', c.configure (.object members) = .ok c' → c.Overlaid members c') ∧
      (∀ r, c.configure (.object members) = .error r →
        c.after (.configure (.object members)) = c ∧
        ∃ texts, r.message = "Invalid configuration: " ++ String.intercalate "; " texts ∧
          c.Objections members texts) ∧
      c.update members = c.configure (.object (members.filter fun m => m.2 ≠ .null))) ∧
    (∀ first second : List (RawText × Json.Value),
      (first.map Prod.fst).Nodup → (second.map Prod.fst).Nodup →
      Json.IsUnion first second (Json.memberList (first ++ second)) ∧
      ∀ c₁ c₂, c.configure (.object first) = .ok c₁ → c₁.configure (.object second) = .ok c₂ →
        ∀ union, Json.IsUnion first second union → c.configure (.object union) = .ok c₂) ∧
    1 ≤ c.limits.identifierLength ∧ 1 ≤ c.limits.nestingDepth ∧ c.limits.nestingDepth ≤ 128 := by
  intro c
  have hrange : c.InRange := inRange_defaults.afterAll changes
  refine ⟨fun members hdistinct => ⟨exists_overlay_iff, ?_, ?_, update_eq c members⟩, ?_, ?_⟩
  · exact fun c' => overlaid_of_overlay hdistinct
  · intro r hr
    have hattempt : c.attempt (.configure (.object members)) = .error (.refused r) := by
      rw [attempt, hr]
      rfl
    exact ⟨after_of_error hattempt, objections_of_overlay hr⟩
  · intro first second hfirst hsecond
    refine ⟨Json.isUnion_memberList hfirst hsecond, fun c₁ c₂ h₁ h₂ union hunion => ?_⟩
    exact overlay_union hfirst hsecond h₁ h₂ hunion
  · obtain ⟨hlength, -⟩ := hrange (.number .identifierLength) _ rfl
    obtain ⟨hdepth, hceiling⟩ := hrange (.number .nestingDepth) _ rfl
    exact ⟨hlength, hdepth, hceiling rfl⟩

/-- Here the settings have been overlaid, could not be replaced by those of a file that is missing,
and have been updated. Four of the five members are bad, each in another way, and of two good
overlays the second one takes something back. -/
theorem configure_exact_or_refused_of_mixed_members :
    let changes : List Change := [.configure (.object [("max_nesting_depth", .int 128)]),
      .load (.error (.failed .missing "config.json")),
      .update [("output_dir", .string "build"), ("colour", .null)]]
    let c := afterAll {} changes
    let members : List (RawText × Json.Value) := [("colour", .string "blue"),
      ("max_identifier_length", .bool true), ("error_file", .string "errors.txt"),
      ("max_nesting_depth", .int 129), ("output_dir", .null)]
    let r : Refusal := .invalid [.unknown "colour", .wrongType (.number .identifierLength) "bool",
      .aboveCeiling .nestingDepth, .wrongType (.text .outputDir) "NoneType"]
    let first : List (RawText × Json.Value) :=
      [("max_nesting_depth", .int 1), ("output_dir", .string "")]
    let second : List (RawText × Json.Value) :=
      [("token_file", .string "t"), ("max_nesting_depth", .int 2)]
    let c₁ : Settings := { outputDir := "", limits := { nestingDepth := 1 } }
    let c₂ : Settings := { outputDir := "", tokenFile := "t", limits := { nestingDepth := 2 } }
    c = { outputDir := "build", limits := { nestingDepth := 128 } } ∧
      (members.map Prod.fst).Nodup ∧ c.configure (.object members) = .error r ∧
      (c.after (.configure (.object members)) = c ∧
        ∃ texts, r.message = "Invalid configuration: " ++ String.intercalate "; " texts ∧
          c.Objections members texts) ∧
      c.configure (.object first) = .ok c₁ ∧ c₁.configure (.object second) = .ok c₂ ∧
      c.configure (.object (Json.memberList (first ++ second))) = .ok c₂ := by
  intro changes c members r first second c₁ c₂
  have hmembers : (members.map Prod.fst).Nodup := by decide +kernel
  have hrefused : c.configure (.object members) = .error r := rfl
  have h₁ : c.configure (.object first) = .ok c₁ := rfl
  have h₂ : c₁.configure (.object second) = .ok c₂ := rfl
  obtain ⟨hmixed, hoverlays, -⟩ := configure_exact_or_refused changes
  obtain ⟨hunion, htwice⟩ := hoverlays first second (by decide +kernel) (by decide +kernel)
  exact ⟨rfl, hmembers, hrefused, (hmixed members hmembers).2.2.1 r hrefused, h₁, h₂,
    htwice c₁ c₂ h₁ h₂ _ hunion⟩

end Settings

end PocketPascal
