import Mathlib.Data.List.Nodup
import PocketPascal.Json.Value

/-! # Members of objects

What an object says of a key is looked up among its members. To set a member is to change what is
said of its key, so members that are written after those of an object replace them where they have
the same keys, and an object that is read holds every key once.
-/

namespace PocketPascal.Json

variable {α : Type} {members first second : List (RawText × α)} {k : RawText} {v : α}
  {m : RawText × α}

/-! ## Looking up -/

theorem lookup_cons_eq (m : RawText × α) (members : List (RawText × α)) (k : RawText) :
    (m :: members).lookup k = if k = m.1 then some m.2 else members.lookup k := by
  rw [List.lookup_cons]
  by_cases h : k = m.1
  · rw [if_pos h, beq_iff_eq.2 h]
  · rw [if_neg h, beq_eq_false_iff_ne.2 h]

theorem lookup_eq_none_iff : members.lookup k = none ↔ k ∉ members.map Prod.fst := by
  rw [List.lookup_eq_none_iff, List.mem_map]
  constructor
  · rintro h ⟨m, hm, rfl⟩
    exact bne_iff_ne.1 (h m hm) rfl
  · exact fun h m hm => bne_iff_ne.2 fun hk => h ⟨m, hm, hk.symm⟩

theorem lookup_of_mem (hdistinct : (members.map Prod.fst).Nodup) (h : m ∈ members) :
    members.lookup m.1 = some m.2 := by
  induction members with
  | nil => cases h
  | cons m' members ih =>
    obtain ⟨hfresh, hdistinct⟩ := List.nodup_cons.1 hdistinct
    rw [lookup_cons_eq]
    rcases List.mem_cons.1 h with rfl | h
    · exact if_pos rfl
    · have hne : m.1 ≠ m'.1 := fun hkey => hfresh (hkey ▸ List.mem_map_of_mem h)
      rw [if_neg hne, ih hdistinct h]

theorem mem_of_lookup (h : members.lookup k = some v) : (k, v) ∈ members := by
  obtain ⟨before, behind, rfl, -⟩ := List.lookup_eq_some_iff.1 h
  exact List.mem_append_right _ List.mem_cons_self

/-! ## Setting members -/

/-- A member replaced where its key stands. -/
def replaceMember (members : List (RawText × α)) (key : RawText) (v : α) : List (RawText × α) :=
  members.map fun m => if m.1 == key then (key, v) else m

theorem setMember_eq (members : List (RawText × α)) (key : RawText) (v : α) :
    setMember members key v =
      if key ∈ members.map Prod.fst then replaceMember members key v
      else members ++ [(key, v)] := by
  rw [setMember, replaceMember]
  congr 1
  simp

theorem map_fst_replaceMember (members : List (RawText × α)) (key : RawText) (v : α) :
    (replaceMember members key v).map Prod.fst = members.map Prod.fst := by
  rw [replaceMember, List.map_map]
  refine List.map_congr_left fun m _ => ?_
  by_cases h : m.1 = key
  · simp [h]
  · simp [h]

theorem lookup_replaceMember (members : List (RawText × α)) (key : RawText) (v : α) (k : RawText) :
    (replaceMember members key v).lookup k =
      if k = key then (members.lookup k).map fun _ => v else members.lookup k := by
  induction members with
  | nil => rw [replaceMember, List.map_nil, List.lookup_nil, Option.map_none, ite_self]
  | cons m members ih =>
    have hcons : replaceMember (m :: members) key v =
        (if m.1 == key then (key, v) else m) :: replaceMember members key v := rfl
    rw [hcons, lookup_cons_eq, lookup_cons_eq, ih]
    by_cases hm : m.1 = key
    · by_cases hk : k = key <;> simp [hm, hk]
    · by_cases hk : k = key
      · simp [hm, hk, Ne.symm hm]
      · simp [hm, hk]

theorem lookup_setMember (members : List (RawText × α)) (key : RawText) (v : α) (k : RawText) :
    (setMember members key v).lookup k = if k = key then some v else members.lookup k := by
  rw [setMember_eq]
  split
  · next h =>
    obtain ⟨u, hu⟩ := Option.ne_none_iff_exists'.1 fun hnone => lookup_eq_none_iff.1 hnone h
    rw [lookup_replaceMember]
    by_cases hk : k = key
    · rw [if_pos hk, if_pos hk, hk, hu, Option.map_some]
    · rw [if_neg hk, if_neg hk]
  · next h =>
    rw [List.lookup_append, lookup_cons_eq, List.lookup_nil]
    by_cases hk : k = key
    · rw [if_pos hk, if_pos hk, hk, lookup_eq_none_iff.2 h, Option.none_or]
    · rw [if_neg hk, if_neg hk, Option.or_none]

theorem nodup_setMember (h : (members.map Prod.fst).Nodup) (key : RawText) (v : α) :
    ((setMember members key v).map Prod.fst).Nodup := by
  rw [setMember_eq]
  split
  · rwa [map_fst_replaceMember]
  · next hkey =>
    rw [List.map_append, List.map_singleton, ← List.concat_eq_append]
    exact h.concat hkey

/-! ## Unions -/

/-- Members are those of two objects, of which the second one decides where both have a key. -/
structure IsUnion (first second union : List (RawText × α)) : Prop where
  distinct : (union.map Prod.fst).Nodup
  lookup : ∀ k, union.lookup k = (second.lookup k).or (first.lookup k)

theorem lookup_foldl_setMember (hdistinct : (second.map Prod.fst).Nodup)
    (members : List (RawText × α)) (k : RawText) :
    (second.foldl (fun members m => setMember members m.1 m.2) members).lookup k =
      (second.lookup k).or (members.lookup k) := by
  induction second generalizing members with
  | nil => rfl
  | cons m second ih =>
    obtain ⟨hfresh, hdistinct⟩ := List.nodup_cons.1 hdistinct
    rw [List.foldl_cons, ih hdistinct, lookup_setMember, lookup_cons_eq]
    by_cases hk : k = m.1
    · rw [if_pos hk, if_pos hk, hk, lookup_eq_none_iff.2 hfresh, Option.none_or, Option.some_or]
    · rw [if_neg hk, if_neg hk]

theorem nodup_foldl_setMember (second : List (RawText × α)) (h : (members.map Prod.fst).Nodup) :
    ((second.foldl (fun members m => setMember members m.1 m.2) members).map Prod.fst).Nodup := by
  induction second generalizing members with
  | nil => exact h
  | cons m second ih => exact ih (nodup_setMember h m.1 m.2)

/-- An object that is written as the members of one and then those of another is read as a
union. -/
theorem isUnion_memberList (hfirst : (first.map Prod.fst).Nodup)
    (hsecond : (second.map Prod.fst).Nodup) :
    IsUnion first second (memberList (first ++ second)) where
  distinct := nodup_foldl_setMember (first ++ second) List.nodup_nil
  lookup k := by
    rw [memberList, List.foldl_append, lookup_foldl_setMember hsecond,
      lookup_foldl_setMember hfirst, List.lookup_nil, Option.or_none]

/-- A member of a union is one of its parts. -/
theorem IsUnion.mem {union : List (RawText × α)} (h : IsUnion first second union)
    (hm : m ∈ union) : m ∈ first ∨ m ∈ second := by
  have hlookup := lookup_of_mem h.distinct hm
  rw [h.lookup, Option.or_eq_some_iff] at hlookup
  rcases hlookup with hsecond | ⟨-, hfirst⟩
  · exact Or.inr (mem_of_lookup hsecond)
  · exact Or.inl (mem_of_lookup hfirst)

end PocketPascal.Json
