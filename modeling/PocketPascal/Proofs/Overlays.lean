import PocketPascal.Proofs.Members
import PocketPascal.Settings

/-! # What an overlay does

An overlay succeeds exactly if all its members are acceptable, and acceptable members replace the
values of the settings they name. Otherwise it is refused with one complaint about each member that
is not. What a member may be is said here by the settings as they are, key by key and type by type,
and not by the order in which members are checked.
-/

namespace PocketPascal

namespace Settings

/-! ## Values -/

/-- The value of a setting. -/
def value (c : Settings) : Field → Json.Value
  | .text .sourcePath => .string c.sourcePath
  | .text .outputDir => .string c.outputDir
  | .text .tokenFile => .string c.tokenFile
  | .text .cleanedFile => .string c.cleanedFile
  | .text .variableFile => .string c.variableFile
  | .text .procedureFile => .string c.procedureFile
  | .text .errorFile => .string c.errorFile
  | .number .identifierLength => .int c.limits.identifierLength
  | .number .nestingDepth => .int c.limits.nestingDepth

/-- Settings are nothing but their values. -/
theorem ext_value {c c' : Settings} (h : ∀ f, c.value f = c'.value f) : c = c' := by
  obtain ⟨s₁, s₂, s₃, s₄, s₅, s₆, s₇, ⟨n₁, n₂⟩⟩ := c
  obtain ⟨t₁, t₂, t₃, t₄, t₅, t₆, t₇, ⟨k₁, k₂⟩⟩ := c'
  obtain rfl := Json.Value.string.inj (h (.text .sourcePath))
  obtain rfl := Json.Value.string.inj (h (.text .outputDir))
  obtain rfl := Json.Value.string.inj (h (.text .tokenFile))
  obtain rfl := Json.Value.string.inj (h (.text .cleanedFile))
  obtain rfl := Json.Value.string.inj (h (.text .variableFile))
  obtain rfl := Json.Value.string.inj (h (.text .procedureFile))
  obtain rfl := Json.Value.string.inj (h (.text .errorFile))
  obtain rfl := Json.Value.int.inj (h (.number .identifierLength))
  obtain rfl := Json.Value.int.inj (h (.number .nestingDepth))
  rfl

/-- Every value has the type of its setting. -/
@[simp] theorem typeName_value (c : Settings) (f : Field) :
    (c.value f).typeName = f.typeName := by
  rcases f with ⟨⟨⟩⟩ | ⟨⟨⟩⟩ <;> rfl

namespace Assignment

/-- The setting that is changed. -/
def field : Assignment → Field
  | text f _ => .text f
  | number f _ => .number f

/-- Its new value. -/
def value : Assignment → Json.Value
  | text _ s => .string s
  | number _ n => .int n

end Assignment

theorem value_assign (c : Settings) (a : Assignment) (f : Field) :
    (c.assign a).value f = if f = a.field then a.value else c.value f := by
  rcases a with ⟨⟨⟩, s⟩ | ⟨⟨⟩, n⟩ <;> rcases f with ⟨⟨⟩⟩ | ⟨⟨⟩⟩ <;> rfl

/-- A value of the right type can be assigned. -/
theorem exists_assignment {f : Field} {v : Json.Value} (h : v.typeName = f.typeName) :
    ∃ a : Assignment, a.field = f ∧ a.value = v := by
  cases f with
  | text f =>
    cases v with
    | string s => exact ⟨.text f s, rfl, rfl⟩
    | _ => exact absurd h (by simp [Json.Value.typeName, Field.typeName])
  | number f =>
    cases v with
    | int n => exact ⟨.number f n, rfl, rfl⟩
    | _ => exact absurd h (by simp [Json.Value.typeName, Field.typeName])

/-! ## Keys -/

theorem Field.key_injective {f g : Field} (h : f.key = g.key) : f = g := by
  rcases f with ⟨⟨⟩⟩ | ⟨⟨⟩⟩ <;> rcases g with ⟨⟨⟩⟩ | ⟨⟨⟩⟩ <;>
    first | rfl | exact absurd h (by decide)

theorem Field.mem_all (f : Field) : f ∈ all := by
  rcases f with ⟨⟨⟩⟩ | ⟨⟨⟩⟩ <;> decide

@[simp] theorem ofString_key_inj {f g : Field} :
    RawText.ofString f.key = RawText.ofString g.key ↔ f = g :=
  ⟨fun h => Field.key_injective (RawText.ofString_injective h), fun h => h ▸ rfl⟩

@[simp] theorem ofKey?_key (f : Field) : Field.ofKey? (RawText.ofString f.key) = some f := by
  cases h : Field.ofKey? (RawText.ofString f.key) with
  | none =>
    have hne := List.find?_eq_none.1 h f f.mem_all
    exact absurd (beq_self_eq_true _) hne
  | some g =>
    have hkey : RawText.ofString g.key = RawText.ofString f.key := by
      simpa using List.find?_some h
    rw [ofString_key_inj.1 hkey]

theorem ofKey?_eq_none {key : RawText} (h : ∀ f : Field, key ≠ RawText.ofString f.key) :
    Field.ofKey? key = none :=
  List.find?_eq_none.2 fun f _ hkey => h f (by simpa using Eq.symm (beq_iff_eq.1 hkey))

/-! ## Members -/

/-- A number is positive, and a nesting depth not above the ceiling. -/
def Allowed (f : Field) (v : Json.Value) : Prop :=
  ∀ n, v = .int n → 1 ≤ n ∧ (f = .number .nestingDepth → n ≤ 128)

/-- A member names a setting, its value is of the type that the setting has now, and it is
allowed. -/
def Accepts (c : Settings) (m : RawText × Json.Value) : Prop :=
  ∃ f : Field, m.1 = RawText.ofString f.key ∧ m.2.typeName = (c.value f).typeName ∧ Allowed f m.2

/-- What is said against a member. -/
inductive Objection (c : Settings) : RawText × Json.Value → String → Prop where
  | unknown {key : RawText} {v : Json.Value} (h : ∀ f : Field, key ≠ RawText.ofString f.key) :
    Objection c (key, v) s!"unknown setting {Text.quoted key}"
  | wrongType {f : Field} {v : Json.Value} (h : v.typeName ≠ (c.value f).typeName) :
    Objection c (RawText.ofString f.key, v)
      s!"{Text.quoted f.key} must be {(c.value f).typeName}, got {v.typeName}"
  | notPositive {f : NumberField} {n : Int} (h : n < 1) :
    Objection c (RawText.ofString (Field.number f).key, .int n)
      s!"{Text.quoted (Field.number f).key} must be positive"
  | aboveCeiling {n : Int} (h : 128 < n) :
    Objection c (RawText.ofString (Field.number .nestingDepth).key, .int n)
      s!"{Text.quoted (Field.number .nestingDepth).key} must be at most 128"

/-- What is said against those of some members that are not accepted: one thing about each of them,
in order, and nothing about the others. -/
inductive Objections (c : Settings) : List (RawText × Json.Value) → List String → Prop where
  | nil : Objections c [] []
  | accepted {m : RawText × Json.Value} {members : List (RawText × Json.Value)}
      {texts : List String} (h : c.Accepts m) (rest : Objections c members texts) :
      Objections c (m :: members) texts
  | refused {m : RawText × Json.Value} {members : List (RawText × Json.Value)} {text : String}
      {texts : List String} (h : ¬ c.Accepts m) (ht : c.Objection m text)
      (rest : Objections c members texts) : Objections c (m :: members) (text :: texts)

variable {c c' : Settings} {f : Field} {key : RawText} {v : Json.Value} {a : Assignment}
  {m : RawText × Json.Value} {members : List (RawText × Json.Value)}

theorem accepts_key : c.Accepts (RawText.ofString f.key, v) ↔
    v.typeName = f.typeName ∧ Allowed f v := by
  constructor
  · rintro ⟨g, hkey, htype, hallowed⟩
    obtain rfl := ofString_key_inj.1 hkey
    exact ⟨htype.trans (typeName_value c f), hallowed⟩
  · rintro ⟨htype, hallowed⟩
    exact ⟨f, rfl, htype.trans (typeName_value c f).symm, hallowed⟩

/-! ## Checks -/

theorem check_eq_wrongType (h : v.typeName ≠ f.typeName) :
    check (RawText.ofString f.key) v = .error (.wrongType f v.typeName) := by
  rw [check.eq_def, ofKey?_key]
  cases f with
  | text f =>
    cases v with
    | string s => exact absurd rfl h
    | _ => rfl
  | number f =>
    cases v with
    | int n => exact absurd rfl h
    | _ => rfl

theorem check_number (f : NumberField) (n : Int) :
    check (RawText.ofString (Field.number f).key) (.int n) = checkNumber f n := by
  rw [check.eq_def, ofKey?_key]

theorem check_text (f : TextField) (s : RawText) :
    check (RawText.ofString (Field.text f).key) (.string s) = .ok (.text f s) := by
  rw [check.eq_def, ofKey?_key]

theorem checkNumber_cases (c : Settings) (f : NumberField) (n : Int) :
    checkNumber f n = .ok (.number f n) ∧ Allowed (.number f) (.int n) ∨
      ∃ p, checkNumber f n = .error p ∧ ¬ Allowed (.number f) (.int n) ∧
        c.Objection (RawText.ofString (Field.number f).key, .int n) p.message := by
  rw [checkNumber]
  split_ifs with hpositive hceiling
  · exact Or.inr ⟨_, rfl, fun h => absurd (h n rfl).1 (by omega), .notPositive hpositive⟩
  · obtain ⟨rfl, hn⟩ := hceiling
    have hlarge : 128 < n := hn
    exact Or.inr ⟨_, rfl, fun h => absurd ((h n rfl).2 rfl) (by omega), .aboveCeiling hlarge⟩
  · refine Or.inl ⟨rfl, fun k hk => ?_⟩
    obtain rfl := Json.Value.int.inj hk
    refine ⟨by omega, fun hf => ?_⟩
    obtain rfl := Field.number.inj hf
    exact Int.not_lt.1 fun hlt => hceiling ⟨rfl, hlt⟩

/-- A member passes its check and is accepted, or it fails and its problem is an objection to it. -/
theorem check_cases (c : Settings) (m : RawText × Json.Value) :
    (∃ a : Assignment, check m.1 m.2 = .ok a ∧ m = (RawText.ofString a.field.key, a.value) ∧
      Allowed a.field a.value ∧ c.Accepts m) ∨
    ∃ p, check m.1 m.2 = .error p ∧ ¬ c.Accepts m ∧ c.Objection m p.message := by
  -- The key comes first, then the type, and the range only if both are right.
  obtain ⟨key, v⟩ := m
  by_cases hkey : ∃ f : Field, key = RawText.ofString f.key
  case neg =>
    have hne : ∀ f : Field, key ≠ RawText.ofString f.key := not_exists.1 hkey
    refine Or.inr ⟨.unknown key, ?_, fun ⟨f, hf, _⟩ => hne f hf, .unknown hne⟩
    rw [check.eq_def, ofKey?_eq_none hne]
  obtain ⟨f, rfl⟩ := hkey
  by_cases htype : v.typeName = f.typeName
  case neg =>
    have hobjection : c.Objection (RawText.ofString f.key, v) _ :=
      .wrongType (by rwa [typeName_value])
    rw [typeName_value] at hobjection
    exact Or.inr ⟨_, check_eq_wrongType htype, fun h => htype (accepts_key.1 h).1, hobjection⟩
  obtain ⟨a, rfl, rfl⟩ := exists_assignment htype
  have haccepts : c.Accepts (RawText.ofString a.field.key, a.value) ↔ Allowed a.field a.value :=
    accepts_key.trans (and_iff_right htype)
  cases a with
  | text f s =>
    have hallowed : Allowed (.text f) (.string s) := fun n hn => by cases hn
    exact Or.inl ⟨_, check_text f s, rfl, hallowed, haccepts.2 hallowed⟩
  | number f n =>
    rcases checkNumber_cases c f n with ⟨hcheck, hallowed⟩ | ⟨p, hcheck, hnot, hobjection⟩
    · exact Or.inl ⟨_, (check_number f n).trans hcheck, rfl, hallowed, haccepts.2 hallowed⟩
    · exact Or.inr ⟨p, (check_number f n).trans hcheck, mt haccepts.1 hnot, hobjection⟩

theorem accepts_iff : c.Accepts m ↔ ∃ a, check m.1 m.2 = .ok a := by
  rcases check_cases c m with ⟨a, ha, -, -, haccepts⟩ | ⟨p, hp, hrefused, -⟩
  · exact iff_of_true haccepts ⟨a, ha⟩
  · refine iff_of_false hrefused ?_
    rintro ⟨a, ha⟩
    cases hp.symm.trans ha

/-- Whether a member is accepted does not depend on what the values are. -/
theorem accepts_congr (c c' : Settings) : c.Accepts m ↔ c'.Accepts m :=
  accepts_iff.trans accepts_iff.symm

/-- An assignment that passes a check is what the member says. -/
theorem eq_of_check (h : check m.1 m.2 = .ok a) :
    m = (RawText.ofString a.field.key, a.value) ∧ Allowed a.field a.value := by
  rcases check_cases {} m with ⟨a', ha', hm, hallowed, -⟩ | ⟨p, hp, -⟩
  · obtain rfl := Except.ok.inj (ha'.symm.trans h)
    exact ⟨hm, hallowed⟩
  · cases hp.symm.trans h

/-! ## Overlays -/

/-- The values are those that some members give, and the old ones where no member gives one. -/
def Overlaid (c : Settings) (members : List (RawText × Json.Value)) (c' : Settings) : Prop :=
  ∀ f : Field, c'.value f = (members.lookup (RawText.ofString f.key)).getD (c.value f)

/-- The checks of some members. -/
def checks (members : List (RawText × Json.Value)) : List (Except Problem Assignment) :=
  members.map fun m => check m.1 m.2

theorem overlay_of_checks {as : List Assignment} (h : checks members = as.map .ok) :
    c.overlay members = .ok (as.foldl assign c) := by
  have hproblems : (checks members).filterMap problem? = [] := by
    rw [h, List.filterMap_map]
    exact List.filterMap_eq_nil_iff.2 fun _ _ => rfl
  have hassignments : (checks members).filterMap assignment? = as := by
    rw [h, List.filterMap_map]
    exact List.filterMap_some
  rw [checks] at hproblems hassignments
  simp only [overlay, hproblems, hassignments]

/-- Where all members are accepted, all checks pass. -/
theorem exists_checks (h : ∀ m ∈ members, c.Accepts m) :
    ∃ as : List Assignment, checks members = as.map .ok := by
  induction members with
  | nil => exact ⟨[], rfl⟩
  | cons m members ih =>
    obtain ⟨hm, hmembers⟩ := List.forall_mem_cons.1 h
    obtain ⟨a, ha⟩ := accepts_iff.1 hm
    obtain ⟨as, has⟩ := ih hmembers
    exact ⟨a :: as, congrArg₂ List.cons ha has⟩

/-- The problems that are found are objections to just those members that are not accepted. -/
theorem objections_problems (c : Settings) (members : List (RawText × Json.Value)) :
    c.Objections members (((checks members).filterMap problem?).map Problem.message) := by
  induction members with
  | nil => exact .nil
  | cons m members ih =>
    rw [checks, List.map_cons]
    rcases check_cases c m with ⟨a, ha, -, -, haccepts⟩ | ⟨p, hp, hrefused, hobjection⟩
    · rw [List.filterMap_cons_none (by rw [ha]; rfl)]
      exact .accepted haccepts ih
    · rw [List.filterMap_cons_some (b := p) (by rw [hp]; rfl), List.map_cons]
      exact .refused hrefused hobjection ih

theorem Objections.eq_nil_iff {texts : List String} (h : c.Objections members texts) :
    texts = [] ↔ ∀ m ∈ members, c.Accepts m := by
  induction h with
  | nil => exact iff_of_true rfl (List.forall_mem_nil _)
  | accepted hm _ ih => exact ih.trans (List.forall_mem_cons.trans (and_iff_right hm)).symm
  | refused hm _ _ _ =>
    exact iff_of_false (List.cons_ne_nil _ _) fun h => hm (List.forall_mem_cons.1 h).1

/-- An overlay is refused for the problems of its members, or all of them have been accepted. -/
theorem overlay_cases (c : Settings) (members : List (RawText × Json.Value)) :
    (∃ as : List Assignment, (∀ m ∈ members, c.Accepts m) ∧ checks members = as.map .ok ∧
      c.overlay members = .ok (as.foldl assign c)) ∨
    ∃ problems, problems ≠ [] ∧ c.Objections members (problems.map Problem.message) ∧
      c.overlay members = .error (.invalid problems) := by
  have hobjections := objections_problems c members
  cases hproblems : (checks members).filterMap problem? with
  | nil =>
    rw [hproblems] at hobjections
    have haccepts := hobjections.eq_nil_iff.1 rfl
    obtain ⟨as, has⟩ := exists_checks haccepts
    exact Or.inl ⟨as, haccepts, has, overlay_of_checks has⟩
  | cons p problems =>
    rw [hproblems] at hobjections
    refine Or.inr ⟨p :: problems, List.cons_ne_nil _ _, hobjections, ?_⟩
    rw [checks] at hproblems
    simp only [overlay, hproblems]

/-- An overlay succeeds exactly if every member is accepted. -/
theorem exists_overlay_iff :
    (∃ c', c.overlay members = .ok c') ↔ ∀ m ∈ members, c.Accepts m := by
  rcases overlay_cases c members with ⟨as, haccepts, -, hok⟩ | ⟨problems, hne, hobjections, herror⟩
  · exact iff_of_true ⟨_, hok⟩ haccepts
  · refine iff_of_false ?_ fun h => hne (List.map_eq_nil_iff.1 (hobjections.eq_nil_iff.2 h))
    rintro ⟨c', hc'⟩
    cases herror.symm.trans hc'

/-- An overlay that does not succeed objects to its members. -/
theorem objections_of_overlay {r : Refusal} (h : c.overlay members = .error r) :
    ∃ texts, r.message = "Invalid configuration: " ++ String.intercalate "; " texts ∧
      c.Objections members texts := by
  rcases overlay_cases c members with ⟨as, -, -, hok⟩ | ⟨problems, -, hobjections, herror⟩
  · cases hok.symm.trans h
  · obtain rfl := Except.error.inj (herror.symm.trans h)
    exact ⟨_, rfl, hobjections⟩

example : (overlay {} [("max_identifier_length", .bool true), ("output_dir", .string "build"),
      ("max_nesting_depth", .int 129)]).mapError Refusal.message =
    .error ("Invalid configuration: \x27max_identifier_length\x27 must be int, got bool; " ++
      "\x27max_nesting_depth\x27 must be at most 128") := rfl

theorem checks_of_overlay (h : c.overlay members = .ok c') :
    ∃ as : List Assignment, checks members = as.map .ok ∧ c' = as.foldl assign c := by
  rcases overlay_cases c members with ⟨as, -, has, hok⟩ | ⟨problems, -, -, herror⟩
  · exact ⟨as, has, (Except.ok.inj (hok.symm.trans h)).symm⟩
  · cases herror.symm.trans h

theorem checks_eq_cons {as : List Assignment} (h : checks (m :: members) = as.map .ok) :
    ∃ a as', as = a :: as' ∧ check m.1 m.2 = .ok a ∧ checks members = as'.map .ok := by
  obtain ⟨a, as', rfl, ha, has⟩ := List.map_eq_cons_iff.1 h.symm
  exact ⟨a, as', rfl, ha.symm, has.symm⟩

theorem overlaid_foldl_assign {as : List Assignment} (hdistinct : (members.map Prod.fst).Nodup)
    (h : checks members = as.map .ok) : c.Overlaid members (as.foldl assign c) := by
  intro f
  induction members generalizing as c with
  | nil =>
    obtain rfl : as = [] := List.map_eq_nil_iff.1 h.symm
    rfl
  | cons m members ih =>
    obtain ⟨a, as, rfl, ha, has⟩ := checks_eq_cons h
    obtain ⟨rfl, -⟩ := eq_of_check ha
    obtain ⟨hfresh, hdistinct⟩ := List.nodup_cons.1 hdistinct
    rw [List.foldl_cons, ih hdistinct has, value_assign, Json.lookup_cons_eq]
    by_cases hf : f = a.field
    · -- The key does not come again, so no later assignment undoes this one.
      rw [if_pos hf, if_pos (ofString_key_inj.2 hf), hf, Json.lookup_eq_none_iff.2 hfresh]
      rfl
    · rw [if_neg hf, if_neg (mt ofString_key_inj.1 hf)]

/-- An overlay that succeeds replaces the values that its members give, and no other ones. -/
theorem overlaid_of_overlay (hdistinct : (members.map Prod.fst).Nodup)
    (h : c.overlay members = .ok c') : c.Overlaid members c' := by
  obtain ⟨as, has, rfl⟩ := checks_of_overlay h
  exact overlaid_foldl_assign hdistinct has

/-- Two overlays in a row are one overlay with a union of their members. -/
theorem overlay_union {first second union : List (RawText × Json.Value)} {c₁ c₂ : Settings}
    (hfirst : (first.map Prod.fst).Nodup) (hsecond : (second.map Prod.fst).Nodup)
    (h₁ : c.overlay first = .ok c₁) (h₂ : c₁.overlay second = .ok c₂)
    (hunion : Json.IsUnion first second union) : c.overlay union = .ok c₂ := by
  have haccepts : ∀ m ∈ union, c.Accepts m := by
    intro m hm
    rcases hunion.mem hm with hm | hm
    · exact exists_overlay_iff.1 ⟨c₁, h₁⟩ m hm
    · exact (accepts_congr c₁ c).1 (exists_overlay_iff.1 ⟨c₂, h₂⟩ m hm)
  obtain ⟨c', hc'⟩ := exists_overlay_iff.2 haccepts
  -- Both are known by their values only: those of the last member with a key, or the old ones.
  obtain rfl : c' = c₂ := by
    refine ext_value fun f => ?_
    rw [overlaid_of_overlay hunion.distinct hc' f, overlaid_of_overlay hsecond h₂ f,
      overlaid_of_overlay hfirst h₁ f, hunion.lookup]
    exact Option.getD_or
  exact hc'

end Settings

end PocketPascal
