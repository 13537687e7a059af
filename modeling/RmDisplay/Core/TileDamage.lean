import RmDisplay.Core.Damage

/-!
# Two scans for damage

`tileDamage` looks at every tile of the grid, `tileDamageRegions` only at the
tiles that meet some region.  Both keep exactly the tiles that show a
difference, in the order of the grid.
-/

namespace RmDisplay.Core

open Foundation Protocol

/-- The range `0 .. limit` in steps. -/
def steps (limit step : Nat) : List Nat :=
  (List.range (Grid.tileCount limit step)).map (· * step)

def tileDamage (previous current : PixelSurface) (tile : Nat) :
    SurfaceRes (List Rect) :=
  if !previous.sameShape current || tile == 0 then
    .ok (fullDamage current.width current.height)
  else
    (steps current.height tile).foldlM (fun damage y =>
      (steps current.width tile).foldlM (fun damage x => do
        let rect : Rect :=
          ⟨x, y, min tile (current.width - x), min tile (current.height - y)⟩
        let changed ← changedIn previous current rect
        return if changed then damage ++ [rect] else damage) damage) []

section

variable {previous current : PixelSurface} {tile : Nat}

private theorem foldlM_changed {rects : List Rect} (damage : List Rect)
    {changed : Rect → Bool}
    (computed : ∀ rect ∈ rects,
      changedIn previous current rect = .ok (changed rect)) :
    rects.foldlM (fun damage rect => do
      let isChanged ← changedIn previous current rect
      return if isChanged then damage ++ [rect] else damage) damage =
      .ok (damage ++ rects.filter changed) := by
  induction rects generalizing damage with
  | nil => simp
  | cons rect rects induction =>
      obtain ⟨first, others⟩ := List.forall_mem_cons.mp computed
      rw [List.foldlM_cons, first, Res.ok_bind, Res.pure_eq, Res.ok_bind,
        induction _ others, List.filter_cons]
      cases changed rect <;> simp

theorem tileDamage_grid (sameShape : previous.shape = current.shape)
    (someTile : 0 < tile) :
    tileDamage previous current tile =
      (gridTiles current.width current.height tile).foldlM (fun damage rect => do
        let changed ← changedIn previous current rect
        return if changed then damage ++ [rect] else damage) [] := by
  have isTile : (tile == 0) = false := by
    rw [beq_eq_false_iff_ne]
    omega
  rw [tileDamage, PixelSurface.sameShape_iff.mpr sameShape, isTile]
  simp only [Bool.not_true, Bool.or_self, Bool.false_eq_true, if_false, steps]
  rw [gridTiles, Res.foldlM_flatMap, List.foldlM_map]
  simp only [List.foldlM_map]

open Classical in
/-- The damage of the whole surface is made of the tiles that show a
difference. -/
theorem tileDamage_eq (sameShape : previous.shape = current.shape)
    (someTile : 0 < tile) :
    tileDamage previous current tile =
      .ok ((gridTiles current.width current.height tile).filter fun rect =>
        decide (Differs previous current rect)) := by
  rw [tileDamage_grid sameShape someTile]
  apply foldlM_changed []
  intro rect member
  obtain ⟨changed, computed, spec⟩ :=
    changedIn_spec sameShape (gridTiles_inside someTile rect member)
  rw [computed]
  exact congrArg _ (Bool.eq_iff_iff.mpr (spec.trans decide_eq_true_iff.symm))

theorem Differs.meets {rects : List Rect} {rect : Rect}
    (differs : Differs previous current rect)
    (inGrid : rect.Inside current.width current.height)
    (covers : ∀ p : Place, p.1 < current.width → p.2 < current.height →
      previous.picture p ≠ current.picture p → p ∈ region rects) :
    Meets rects rect := by
  obtain ⟨p, covered, differ⟩ := differs
  rw [mem_region, covered_singleton] at covered
  have bounds := inGrid.bounds covered
  exact ⟨p, covers p bounds.1 bounds.2 differ, covered⟩

open Classical in
/-- Tiled damage is exact: the tiles that meet some region and show a
difference, in the order of the grid, whatever the order of the regions; and
the two scans agree where the regions cover every difference. -/
theorem tileDamageRegions_exact (regions : List Rect)
    (sameShape : previous.shape = current.shape) (someTile : 1 ≤ tile)
    (inside : ∀ rect ∈ regions, rect.Inside current.width current.height) :
    ∃ damage, tileDamageRegions previous current tile regions = .ok damage ∧
      damage = (gridTiles current.width current.height tile).filter
        (fun rect => decide
          (Meets regions rect ∧ Differs previous current rect)) ∧
      (∀ rect ∈ damage, rect.Inside current.width current.height) ∧
      damage.Pairwise Rect.Apart ∧
      (∀ p ∈ region regions, previous.picture p ≠ current.picture p →
        p ∈ region damage) ∧
      (∀ others : List Rect, (∀ rect, rect ∈ others ↔ rect ∈ regions) →
        tileDamageRegions previous current tile others = .ok damage) ∧
      ((∀ p : Place, p.1 < current.width → p.2 < current.height →
          previous.picture p ≠ current.picture p → p ∈ region regions) →
        tileDamage previous current tile = .ok damage) := by
  obtain ⟨damage, computed, tilesInside, covers, _⟩ :=
    tileDamageRegions_spec regions sameShape someTile inside
  have kept := Res.ok.inj (computed.symm.trans
    (tileDamageRegions_eq regions sameShape someTile inside))
  refine ⟨damage, computed, kept, tilesInside,
    tileDamageRegions_apart computed, covers, ?_, ?_⟩
  · intro others same
    have meets (rect : Rect) : Meets others rect ↔ Meets regions rect := by
      unfold Meets
      simp only [mem_region, Covered, same]
    rw [tileDamageRegions_eq others sameShape someTile
      fun rect member => inside rect ((same rect).mp member), kept]
    simp only [meets]
  · intro covered
    rw [tileDamage_eq sameShape someTile, kept]
    apply congrArg
    apply List.filter_congr
    intro rect member
    apply decide_eq_decide.mpr
    constructor
    · intro differs
      exact ⟨differs.meets (gridTiles_inside someTile rect member) covered,
        differs⟩
    · exact And.right

/-- Three columns of two pixels, of which the last one is given. -/
def edgeSurface (last : UInt8) : PixelSurface where
  width := 3
  height := 2
  format := .gray8
  pixels := [0, 0, 0, 0, 0, last]
  packed := ⟨by decide, by decide, by decide, 1, rfl, rfl⟩

theorem tileDamageRegions_edge : ∃ damage,
    tileDamageRegions (edgeSurface 0) (edgeSurface 9) 2 [⟨1, 0, 2, 2⟩] =
      .ok damage ∧
    damage.Pairwise Rect.Apart ∧ damage = [⟨2, 0, 1, 2⟩] := by
  obtain ⟨damage, computed, _, _, apart, _⟩ := @tileDamageRegions_exact
    (edgeSurface 0) (edgeSurface 9) 2 [⟨1, 0, 2, 2⟩] rfl (by decide) (by
      intro rect member
      rw [List.mem_singleton.mp member]
      exact ⟨by decide, by decide, by decide, by decide⟩)
  refine ⟨damage, computed, apart, ?_⟩
  have edge : tileDamageRegions (edgeSurface 0) (edgeSurface 9) 2
      [⟨1, 0, 2, 2⟩] = .ok [⟨2, 0, 1, 2⟩] := rfl
  exact Res.ok.inj (computed.symm.trans edge)

end

end RmDisplay.Core
