import RmDisplay.Core.Damage

/-!
# United damage as a set of tiles

`mergeTiledDamage` is a union on the tiles of the grid: it does not see the
order of the rectangles or how they are split into two lists, and what it
returns is united already.
-/

namespace RmDisplay.Core

open Foundation Protocol

section

variable {width height tile : Nat}

theorem tiles_counted (tile : Nat) (small : width * height ≤ u32Max) :
    Bounded.checkedMul u32Max (Grid.tileCount width (max tile 1))
        (Grid.tileCount height (max tile 1)) =
      some (Grid.tileCount width (max tile 1) *
        Grid.tileCount height (max tile 1)) := by
  have someTile : 0 < max tile 1 := by omega
  have fits := Nat.le_trans
    (Nat.mul_le_mul (@tileCount_le width _ someTile)
      (@tileCount_le height _ someTile)) small
  exact Bounded.checkedMul_eq_some.mpr ⟨rfl, fits⟩

theorem meets_tiles {tiles : List Rect} {rect : Rect} (someTile : 0 < tile)
    (inGrid : ∀ other ∈ tiles, other ∈ gridTiles width height tile)
    (member : rect ∈ gridTiles width height tile) :
    Meets tiles rect ↔ rect ∈ tiles := by
  constructor
  · rintro ⟨p, ⟨other, isTile, inOther⟩, inRect⟩
    obtain ⟨index, _, rfl⟩ := mem_gridTiles.mp member
    obtain ⟨otherIndex, _, rfl⟩ := mem_gridTiles.mp (inGrid _ isTile)
    have same : index = otherIndex :=
      (tileOf_of_covers someTile inRect).symm.trans
        (tileOf_of_covers someTile inOther)
    rw [same]
    exact isTile
  · intro isTile
    obtain ⟨wide, high, _, _⟩ := gridTiles_inside someTile rect member
    have covers : rect.Covers rect.x rect.y := ⟨by omega, by omega⟩
    exact ⟨(rect.x, rect.y), ⟨rect, isTile, covers⟩, covers⟩

open Classical in
/-- United damage is the tiles of the grid that meet some rectangle, each once
and in the order of the grid, whatever the rectangles are and however they are
listed; and uniting it again changes nothing. -/
theorem mergeTiledDamage_exact (tile : Nat) (existing damage : List Rect)
    (small : width * height ≤ u32Max) :
    ∃ merged, mergeTiledDamage width height tile existing damage =
        .ok merged ∧
      merged = (gridTiles width height (max tile 1)).filter
        (fun rect => decide (Meets (existing ++ damage) rect)) ∧
      (∀ rect ∈ merged, rect.Inside width height) ∧
      merged.Pairwise Rect.Apart ∧
      (∀ p : Place, p.1 < width → p.2 < height →
        p ∈ region (existing ++ damage) → p ∈ region merged) ∧
      (∀ others more : List Rect,
        (∀ rect, rect ∈ others ++ more ↔ rect ∈ existing ++ damage) →
        mergeTiledDamage width height tile others more = .ok merged) ∧
      mergeTiledDamage width height tile merged [] = .ok merged ∧
      mergeTiledDamage width height tile [] merged = .ok merged ∧
      mergeTiledDamage width height tile merged merged = .ok merged := by
  have someTile : 0 < max tile 1 := by omega
  have counted := tiles_counted tile small
  -- lists that meet the same tiles are united alike
  have united (others more : List Rect)
      (same : ∀ rect ∈ gridTiles width height (max tile 1),
        Meets (others ++ more) rect ↔ Meets (existing ++ damage) rect) :
      mergeTiledDamage width height tile others more =
        .ok ((gridTiles width height (max tile 1)).filter
          fun rect => decide (Meets (existing ++ damage) rect)) := by
    rw [mergeTiledDamage_eq others more counted]
    apply congrArg
    apply List.filter_congr
    intro rect member
    exact decide_eq_decide.mpr (same rect member)
  generalize isMerged : (gridTiles width height (max tile 1)).filter
    (fun rect => decide (Meets (existing ++ damage) rect)) = merged at united
  have mem_merged {rect : Rect} : rect ∈ merged ↔
      rect ∈ gridTiles width height (max tile 1) ∧
        Meets (existing ++ damage) rect := by
    rw [← isMerged, List.mem_filter, decide_eq_true_iff]
  have again (tiles : List Rect) (same : ∀ rect, rect ∈ tiles ↔ rect ∈ merged) :
      ∀ rect ∈ gridTiles width height (max tile 1),
        Meets tiles rect ↔ Meets (existing ++ damage) rect := by
    intro rect member
    have inGrid : ∀ other ∈ tiles,
        other ∈ gridTiles width height (max tile 1) := fun other isTile =>
      (mem_merged.mp ((same other).mp isTile)).1
    rw [meets_tiles someTile inGrid member, same, mem_merged]
    exact and_iff_right member
  refine ⟨merged, united existing damage fun _ _ => Iff.rfl, rfl, ?_,
    ?_, ?_, ?_, ?_, ?_, ?_⟩
  · intro rect member
    exact gridTiles_inside someTile rect (mem_merged.mp member).1
  · rw [← isMerged]
    exact (gridTiles_apart someTile).filter _
  · intro p wide high covered
    have inTile := tileRect_covers someTile ⟨wide, high⟩
    exact ⟨_, mem_merged.mpr
      ⟨mem_gridTiles.mpr ⟨_, tileOf_lt someTile ⟨wide, high⟩, rfl⟩,
        p, covered, inTile⟩, inTile⟩
  · intro others more same
    apply united
    intro rect _
    simp only [Meets, mem_region, Covered, same]
  · apply united
    apply again
    simp
  · apply united
    apply again
    simp
  · apply united
    apply again
    simp

end

/-- Most of the rectangle lies beyond the surface. -/
theorem mergeTiledDamage_corner : ∃ merged,
    mergeTiledDamage 5 2 2 [⟨3, 1, 9, 9⟩] [] = .ok merged ∧
      mergeTiledDamage 5 2 2 merged merged = .ok merged := by
  obtain ⟨merged, united, _, _, _, _, _, _, _, again⟩ :=
    @mergeTiledDamage_exact 5 2 2 [⟨3, 1, 9, 9⟩] [] (by decide)
  exact ⟨merged, united, again⟩

end RmDisplay.Core
