import PocketPascal.Files.Path
import PocketPascal.Proofs.MaximalMunch

/-! # Paths are read back

A path in normal form has parts that lead somewhere and hold no slash. So it is cut at its slashes
into these parts again, and a path that was written for one run names the same file in the next.
-/

namespace PocketPascal.Path

/-- Every part of a path leads somewhere and holds no slash. -/
def Normal (p : Path) : Prop :=
  ∀ part ∈ p.parts, isStep part = true ∧ .char '/' ∉ part.points

theorem normal_ofText (text : RawText) : (ofText text).Normal := by
  intro part hpart
  obtain ⟨hpiece, hstep⟩ := List.mem_filter.1 hpart
  obtain ⟨points, hpoints, rfl⟩ := List.mem_map.1 hpiece
  have hcut : points ∈ text.points.splitOnP (· == .char '/') := hpoints
  exact ⟨hstep, fun hslash => absurd (Text.of_mem_splitOnP hcut _ hslash) (by simp)⟩

theorem Normal.join {p q : Path} (hp : p.Normal) (hq : q.Normal) : (p.join q).Normal := by
  unfold Path.join
  split
  · exact List.forall_mem_append.2 ⟨hp, hq⟩
  · exact hq

/-! ## Slashes at the start -/

theorem pieces_slash (points : List CodePoint) :
    pieces ⟨.char '/' :: points⟩ = ⟨[]⟩ :: pieces ⟨points⟩ := by
  simp [pieces, List.splitOn_cons_eq_if_modifyHead]

theorem filter_pieces_slash (points : List CodePoint) :
    (pieces ⟨.char '/' :: points⟩).filter isStep = (pieces ⟨points⟩).filter isStep := by
  rw [pieces_slash, List.filter_cons_of_neg (by decide)]

/-- However a path starts, its parts are cut from what comes after that. -/
theorem filter_pieces_root (root : PathRoot) (points : List CodePoint) :
    (pieces ⟨root.text.points ++ points⟩).filter isStep = (pieces ⟨points⟩).filter isStep := by
  cases root with
  | relative => rfl
  | slash => exact filter_pieces_slash points
  | doubleSlash => exact (filter_pieces_slash _).trans (filter_pieces_slash points)

theorem rootOf_append (root : PathRoot) {points : List CodePoint}
    (h : points.head? ≠ some (.char '/')) : rootOf ⟨root.text.points ++ points⟩ = root := by
  have hrest : points.takeWhile (· == .char '/') = [] := by
    cases points with
    | nil => rfl
    | cons p points =>
      have hp : p ≠ .char '/' := by simpa using h
      simp [hp]
  cases root with
  | relative => simp [rootOf, PathRoot.text, RawText.ofString, hrest]
  | slash => simp [rootOf, PathRoot.text, RawText.ofString, hrest]
  | doubleSlash => simp [rootOf, PathRoot.text, RawText.ofString, hrest]

/-! ## Parts -/

/-- The parts of a path with slashes between them. -/
def joined (parts : List RawText) : List CodePoint :=
  List.intercalate [.char '/'] (parts.map RawText.points)

theorem Normal.filter_pieces_joined {p : Path} (h : p.Normal) :
    (pieces ⟨joined p.parts⟩).filter isStep = p.parts := by
  by_cases hparts : p.parts = []
  · rw [hparts]
    decide
  have hsplit : (joined p.parts).splitOn (.char '/') = p.parts.map RawText.points := by
    refine List.splitOn_intercalate _ ?_ (by simpa using hparts)
    rw [List.forall_mem_map]
    exact fun part hpart => (h part hpart).2
  have hpieces : pieces ⟨joined p.parts⟩ = p.parts := by
    rw [pieces, hsplit, List.map_map]
    exact List.map_id _
  rw [hpieces, List.filter_eq_self]
  exact fun part hpart => (h part hpart).1

theorem Normal.head?_joined {p : Path} (h : p.Normal) :
    (joined p.parts).head? ≠ some (.char '/') := by
  cases hparts : p.parts with
  | nil => simp [joined]
  | cons part parts =>
    obtain ⟨hstep, hslash⟩ := h part (hparts ▸ List.mem_cons_self)
    obtain ⟨points⟩ := part
    cases points with
    | nil => exact absurd hstep (by decide)
    | cons c points =>
      have hhead : (joined (⟨c :: points⟩ :: parts)).head? = some c := by
        cases parts <;> simp [joined, List.intercalate]
      rw [hhead]
      rintro hc
      exact hslash (Option.some.inj hc ▸ List.mem_cons_self)

/-- A path in normal form is read back from how it is written. -/
theorem Normal.ofText_text {p : Path} (h : p.Normal) : ofText p.text = p := by
  unfold text
  split
  · next hempty =>
    obtain ⟨root, parts⟩ := p
    obtain ⟨rfl, rfl⟩ := hempty
    decide
  · rw [← joined, ofText, rootOf_append p.root h.head?_joined, filter_pieces_root,
      h.filter_pieces_joined]

end PocketPascal.Path
