import RmDisplay.Core.SurfaceSpec

/-!
# The cells of a plane

A plane has a luma and a coverage for every place.  A patch writes the cells of
its rectangle and no others.
-/

namespace RmDisplay.Core

open Foundation Protocol Foundation.Picture

/-- Luma and coverage of every place; nothing beyond a row or a plane. -/
abbrev Cells := Place → Option UInt8 × Option UInt8

namespace Planes

/-- The cells of planes with rows of the given width. -/
def cells (self : Planes) (width : Nat) : Cells := fun p =>
  if p.1 < width then
    (self.luma[p.2 * width + p.1]?, self.alpha[p.2 * width + p.1]?)
  else (none, none)

theorem cells_inRow {self : Planes} {width : Nat} {p : Place}
    (inRow : p.1 < width) : self.cells width p =
      (self.luma[p.2 * width + p.1]?, self.alpha[p.2 * width + p.1]?) :=
  if_pos inRow

private theorem index_between {width x y count : Nat} {p : Place}
    (inRow : p.1 < width) (fits : x + count ≤ width) :
    (y * width + x ≤ p.2 * width + p.1 ∧
        p.2 * width + p.1 < y * width + x + count) ↔
      p ∈ PixelSurface.rowRegion x y count := by
  constructor
  · rintro ⟨lower, upper⟩
    rcases Nat.lt_trichotomy p.2 y with above | same | below
    · have rows := Nat.mul_le_mul_right width above
      rw [Nat.succ_mul] at rows
      omega
    · rw [same] at lower upper
      exact ⟨same, by omega, by omega⟩
    · have rows := Nat.mul_le_mul_right width below
      rw [Nat.succ_mul] at rows
      omega
  · rintro ⟨same, lower, upper⟩
    rw [same]
    omega

/-- Overwriting a part of a row paints its cells. -/
theorem overwrite_paints {self : Planes} {width x y count : Nat}
    {luma alpha : Bytes} (source : Cells)
    (lengths : luma.length = count ∧ alpha.length = count)
    (inRow : x + count ≤ width)
    (fits : y * width + x + count ≤ self.luma.length)
    (brings : ∀ offset < count,
      source (x + offset, y) = (luma[offset]?, alpha[offset]?)) :
    ∃ after, self.overwrite (y * width + x) luma alpha = some after ∧
      after.luma.length = self.luma.length ∧
      after.cells width = paint (PixelSurface.rowRegion x y count) source
        (self.cells width) := by
  obtain ⟨newLuma, lumaWritten⟩ : ∃ newLuma, Buffer.overwrite self.luma
      (y * width + x) luma = some newLuma :=
    ⟨_, Buffer.overwrite_fits _ _ _ (by rw [lengths.1]; exact fits)⟩
  obtain ⟨newAlpha, alphaWritten⟩ : ∃ newAlpha, Buffer.overwrite self.alpha
      (y * width + x) alpha = some newAlpha :=
    ⟨_, Buffer.overwrite_fits _ _ _ (by
      rw [lengths.2, ← self.sameLength]
      exact fits)⟩
  have stored : ∃ after, self.overwrite (y * width + x) luma alpha =
      some after ∧ after.luma = newLuma ∧ after.alpha = newAlpha := by
    unfold overwrite
    split
    · rename_i isLuma isAlpha
      rw [lumaWritten] at isLuma
      rw [alphaWritten] at isAlpha
      cases isLuma
      cases isAlpha
      exact ⟨_, rfl, rfl, rfl⟩
    · rename_i missing
      exact absurd alphaWritten (missing _ _ lumaWritten)
  obtain ⟨after, isAfter, rfl, rfl⟩ := stored
  refine ⟨after, isAfter, Buffer.length_of_overwrite lumaWritten, ?_⟩
  funext p
  by_cases column : p.1 < width
  · rw [cells_inRow column, Buffer.getElem?_of_overwrite lumaWritten,
      Buffer.getElem?_of_overwrite alphaWritten, lengths.1, lengths.2]
    by_cases inPart : p ∈ PixelSurface.rowRegion x y count
    · have between := (index_between column inRow).mpr inPart
      have painted := @paint_of_mem _ _ _ source (self.cells width) p inPart
      obtain ⟨isRow, lower, upper⟩ := inPart
      have brought := brings (p.1 - x) (by omega)
      have isPlace : (x + (p.1 - x), y) = p :=
        Prod.ext (by simp only; omega) isRow.symm
      rw [isPlace] at brought
      have offset : p.2 * width + p.1 - (y * width + x) = p.1 - x := by
        rw [isRow]
        omega
      rw [if_pos between, if_pos between, offset, painted, brought]
    · have outside := mt (index_between column inRow).mp inPart
      rw [if_neg outside, if_neg outside, paint_of_not_mem inPart,
        cells_inRow column]
  · rw [paint_of_not_mem]
    · unfold cells
      rw [if_neg column, if_neg column]
    · rintro ⟨_, _, upper⟩
      omega

theorem put_paints {self : Planes} {width x y : Nat} {luma alpha : UInt8}
    (inRow : x < width) (fits : y * width + x < self.luma.length) :
    ∃ after, self.put (y * width + x) luma alpha = some after ∧
      after.luma.length = self.luma.length ∧
      after.cells width = paint {(x, y)} (fun _ => (some luma, some alpha))
        (self.cells width) := by
  unfold put
  rw [if_pos fits]
  refine ⟨_, rfl, List.length_set, ?_⟩
  funext p
  by_cases column : p.1 < width
  · rw [cells_inRow column]
    by_cases same : p ∈ ({(x, y)} : Set Place)
    · rw [paint_of_mem same]
      cases same
      have alphaFits : y * width + x < self.alpha.length := by
        rw [← self.sameLength]
        exact fits
      simp only [List.getElem?_set_self fits,
        List.getElem?_set_self alphaFits]
    · have different : y * width + x ≠ p.2 * width + p.1 := by
        intro equal
        obtain ⟨sameColumn, sameRow⟩ := Grid.rowMajor_inj inRow column equal
        exact same (Prod.ext sameColumn.symm sameRow.symm)
      rw [paint_of_not_mem same, cells_inRow column]
      simp only [List.getElem?_set_ne different]
  · rw [paint_of_not_mem]
    · unfold cells
      rw [if_neg column, if_neg column]
    · rintro rfl
      exact column inRow

end Planes

namespace LocalOverlay

/-- The cells of a plane with rows of the given width. -/
def cells (self : LocalOverlay) (width : Nat) : Cells :=
  self.planes.cells width

end LocalOverlay

end RmDisplay.Core
