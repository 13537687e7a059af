import RmDisplay.Core.SurfacePicture

/-!
# Specifications of the plane edits

No edit changes the size of a plane.  A pen segment changes a plane only inside
the dirty rectangle it leaves behind, and that rectangle still covers what was
dirty before.
-/

namespace RmDisplay.Core

open Foundation Protocol

namespace Planes

theorem put_spec {self after : Planes} {index : Nat} {luma alpha : UInt8}
    (stored : self.put index luma alpha = some after) :
    after.luma.length = self.luma.length ∧
      ∀ other, other ≠ index →
        after.luma[other]? = self.luma[other]? ∧
          after.alpha[other]? = self.alpha[other]? := by
  unfold put at stored
  split at stored
  · cases stored
    refine ⟨List.length_set, fun other different => ?_⟩
    simp [different.symm]
  · cases stored

theorem length_overwrite {self after : Planes} {start : Nat}
    {luma alpha : Bytes} (stored : self.overwrite start luma alpha = some after) :
    after.luma.length = self.luma.length := by
  unfold overwrite at stored
  split at stored
  · rename_i newLuma newAlpha lumaWritten alphaWritten
    cases stored
    exact Buffer.length_of_overwrite lumaWritten
  · cases stored

end Planes

namespace LocalOverlay

@[simp] theorem len_clear (self : LocalOverlay) : self.clear.len = self.len :=
  rfl

@[simp] theorem len_takeDirty (self : LocalOverlay) :
    self.takeDirty.2.len = self.len := rfl

@[simp] theorem blended_takeDirty (self : LocalOverlay) :
    self.takeDirty.2.blended = self.blended := rfl

theorem replacePlanes_spec {self after : LocalOverlay} {luma alpha : Bytes}
    (replaced : self.replacePlanes luma alpha = .ok after) :
    after.len = self.len ∧ after.dirty = self.dirty := by
  unfold replacePlanes at replaced
  split at replaced
  · cases replaced
  · rename_i sizes
    cases replaced
    exact ⟨not_not.mp (not_or.mp sizes).1, rfl⟩

theorem patch_spec {self after : LocalOverlay} {width : Nat} {rect : Rect}
    {luma alpha : Bytes} (patched : self.patch width rect luma alpha = .ok after) :
    after.len = self.len ∧ after.dirty = self.dirty := by
  unfold patch at patched
  dsimp only at patched
  split at patched
  · cases patched
  · rw [Res.bind_eq_ok] at patched
    obtain ⟨planes, written, stored⟩ := patched
    cases stored
    refine ⟨?_, rfl⟩
    refine Res.foldlM_preserves
      (fun planes => planes.luma.length = self.len) rfl ?_ written
    intro planes row next _ sameLength stepped
    simp only [Res.bind_eq_ok] at stepped
    obtain ⟨lumaRow, _, alphaRow, _, stored⟩ := stepped
    cases found : planes.overwrite ((rect.y + row) * width + rect.x) lumaRow
        alphaRow with
    | none =>
        rw [found] at stored
        cases stored
    | some written =>
        rw [found] at stored
        cases stored
        rw [Planes.length_overwrite found, sameLength]

/-- Dividing the partial distance stays between the end points. -/
theorem partial_bounds (origin target : Nat) {step steps : Nat}
    (someSteps : 0 < steps) (within : step ≤ steps) :
    ((min origin target : Nat) : Int) ≤
        origin + (((target : Int) - origin) * step).tdiv steps ∧
      origin + (((target : Int) - origin) * step).tdiv steps ≤
        ((max origin target : Nat) : Int) := by
  have positive : (0 : Int) < steps := by exact_mod_cast someSteps
  have stepLe : (step : Int) ≤ steps := by exact_mod_cast within
  have stepNonneg : (0 : Int) ≤ step := Int.natCast_nonneg step
  have bounded (distance : Int) (nonneg : 0 ≤ distance) :
      0 ≤ (distance * step).tdiv steps ∧
        (distance * step).tdiv steps ≤ distance := by
    have product := Int.mul_nonneg nonneg stepNonneg
    refine ⟨Int.tdiv_nonneg product positive.le, ?_⟩
    rw [Int.tdiv_eq_ediv_of_nonneg product]
    have upper : distance * step ≤ distance * steps :=
      Int.mul_le_mul_of_nonneg_left stepLe nonneg
    calc distance * step / steps ≤ distance * steps / steps :=
          Int.ediv_le_ediv positive upper
      _ = distance := Int.mul_ediv_cancel _ (by omega)
  rcases Nat.le_total origin target with forward | backward
  · have := bounded ((target : Int) - origin) (by omega)
    rw [Nat.min_eq_left forward, Nat.max_eq_right forward]
    omega
  · have := bounded ((origin : Int) - target) (by omega)
    have flipped : ((target : Int) - origin) * step =
        -(((origin : Int) - target) * step) := by
      rw [← Int.neg_mul, Int.neg_sub]
    rw [Nat.min_eq_right backward, Nat.max_eq_left backward, flipped,
      Int.neg_tdiv]
    omega

theorem mem_coordinates {first last : Int} {value : Nat} :
    value ∈ coordinates first last ↔ first ≤ value ∧ (value : Int) ≤ last := by
  rw [coordinates, List.mem_range'_1]
  omega

/-- Both planes of `after` agree with `before` at every place of a row of the
given width outside the box. -/
def SameOutside (width : Nat) (box : Place → Prop) (before after : Planes) :
    Prop :=
  after.luma.length = before.luma.length ∧
    ∀ p : Place, p.1 < width → ¬ box p →
      after.luma[p.2 * width + p.1]? = before.luma[p.2 * width + p.1]? ∧
        after.alpha[p.2 * width + p.1]? = before.alpha[p.2 * width + p.1]?

/-- The box around a segment, clipped to the plane. -/
def segmentBox (width height : Nat) (origin target : Nat × Nat)
    (radius : Nat) (p : Place) : Prop :=
  (min origin.1 target.1 - radius ≤ p.1 ∧
      p.1 < min (max origin.1 target.1 + radius + 1) width) ∧
    (min origin.2 target.2 - radius ≤ p.2 ∧
      p.2 < min (max origin.2 target.2 + radius + 1) height)

private theorem inkDisc_sameOutside {width height : Nat}
    {origin target : Nat × Nat} {radius : Nat} {erase : Bool} {x y : Int}
    {start before after : Planes}
    (columns : ((min origin.1 target.1 : Nat) : Int) ≤ x ∧
      x ≤ ((max origin.1 target.1 : Nat) : Int))
    (rows : ((min origin.2 target.2 : Nat) : Int) ≤ y ∧
      y ≤ ((max origin.2 target.2 : Nat) : Int))
    (same : SameOutside width (segmentBox width height origin target radius)
      start before)
    (painted : inkDisc width height radius erase x y before = .ok after) :
    SameOutside width (segmentBox width height origin target radius)
      start after := by
  refine Res.foldlM_preserves _ same ?_ painted
  intro rowStart py rowAfter pyMember rowSame rowPainted
  refine Res.foldlM_preserves _ rowSame ?_ rowPainted
  intro planes px next pxMember ⟨sameLength, sameCells⟩ stepped
  simp only [Res.bind_eq_ok] at stepped
  obtain ⟨_, _, _, _, stepped⟩ := stepped
  split at stepped
  · cases stored : planes.put (py * width + px) 0 (if erase then 0 else 255) with
    | none =>
        rw [stored] at stepped
        cases stepped
    | some written =>
        rw [stored] at stepped
        cases stepped
        obtain ⟨keptLength, keptCells⟩ := Planes.put_spec stored
        refine ⟨keptLength.trans sameLength, ?_⟩
        intro p inRow outside
        have pyBounds := mem_coordinates.mp pyMember
        have pxBounds := mem_coordinates.mp pxMember
        have different : p.2 * width + p.1 ≠ py * width + px := by
          intro equal
          obtain ⟨sameColumn, sameRow⟩ :=
            Grid.rowMajor_inj inRow (by omega) equal
          apply outside
          rw [segmentBox, sameColumn, sameRow]
          omega
        obtain ⟨keptLuma, keptAlpha⟩ := keptCells _ different
        obtain ⟨sameLuma, sameAlpha⟩ := sameCells p inRow outside
        exact ⟨keptLuma.trans sameLuma, keptAlpha.trans sameAlpha⟩
  · cases stepped
    exact ⟨sameLength, sameCells⟩

/-- The dirty rectangle of a segment covers its box and what was dirty
before, and leaves the plane no more than that was. -/
theorem inkRect_spec {width height : Nat} {origin target : Nat × Nat}
    {radius : Nat} {old : Option Rect} {rect : Rect}
    (computed : inkRect width height origin target radius old = .ok rect) :
    (∀ p, segmentBox width height origin target radius p →
        rect.Covers p.1 p.2) ∧
      (∀ before, old = some before → ∀ p : Place, before.Covers p.1 p.2 →
        rect.Covers p.1 p.2) ∧
      ((∀ before, old = some before → before.x + before.width ≤ width ∧
          before.y + before.height ≤ height) →
        rect.x + rect.width ≤ width ∧ rect.y + rect.height ≤ height) := by
  simp only [inkRect, Res.bind_eq_ok] at computed
  obtain ⟨endX, endXSum, endY, endYSum, spanX, spanXDiff, spanY, spanYDiff,
    computed⟩ := computed
  have sumX : endX = max origin.1 target.1 + radius + 1 := by
    unfold Bounded.checkedAdd at endXSum
    split at endXSum
    · cases endXSum
      rfl
    · cases endXSum
  have sumY : endY = max origin.2 target.2 + radius + 1 := by
    unfold Bounded.checkedAdd at endYSum
    split at endYSum
    · cases endYSum
      rfl
    · cases endYSum
  have diffX : spanX = min endX width - (min origin.1 target.1 - radius) ∧
      min origin.1 target.1 - radius ≤ min endX width := by
    unfold Bounded.checkedSub at spanXDiff
    split at spanXDiff
    · rename_i fits
      cases spanXDiff
      exact ⟨rfl, fits⟩
    · cases spanXDiff
  have diffY : spanY = min endY height - (min origin.2 target.2 - radius) ∧
      min origin.2 target.2 - radius ≤ min endY height := by
    unfold Bounded.checkedSub at spanYDiff
    split at spanYDiff
    · rename_i fits
      cases spanYDiff
      exact ⟨rfl, fits⟩
    · cases spanYDiff
  clear endXSum endYSum spanXDiff spanYDiff
  cases old with
  | none =>
      cases computed
      refine ⟨?_, by simp, fun _ => ⟨?_, ?_⟩⟩
      · rintro p ⟨columns, rows⟩
        rw [← sumX] at columns
        rw [← sumY] at rows
        exact ⟨by simp only; omega, by simp only; omega⟩
      · simp only
        omega
      · simp only
        omega
  | some before =>
      cases computed
      refine ⟨?_, ?_, ?_⟩
      · rintro p ⟨columns, rows⟩
        rw [← sumX] at columns
        rw [← sumY] at rows
        exact ⟨by simp only; omega, by simp only; omega⟩
      · rintro _ ⟨⟩ p ⟨columns, rows⟩
        exact ⟨by simp only; omega, by simp only; omega⟩
      · intro fits
        have := fits before rfl
        simp only
        omega

/-- What a pen segment does to its plane. -/
theorem inkLine_spec {self after : LocalOverlay} {width : Nat}
    {origin target : Nat × Nat} {radius : Nat} {erase : Bool}
    (drawn : self.inkLine width origin target radius erase = .ok after) :
    ∃ rect, after.dirty = some rect ∧ after.len = self.len ∧
      (∀ before, self.dirty = some before → ∀ p : Place,
        before.Covers p.1 p.2 → rect.Covers p.1 p.2) ∧
      ((∀ before, self.dirty = some before → before.x + before.width ≤ width ∧
          before.y + before.height ≤ self.len / width) →
        rect.x + rect.width ≤ width ∧
          rect.y + rect.height ≤ self.len / width) ∧
      ∀ (format : PixelFormat) (picture : Pixels) (p : Place),
        p.1 < width → ¬ rect.Covers p.1 p.2 →
        after.blended width format picture p =
          self.blended width format picture p := by
  unfold inkLine at drawn
  split at drawn
  · cases drawn
  · simp only [Res.bind_eq_ok] at drawn
    obtain ⟨planes, painted, rect, computed, stored⟩ := drawn
    cases stored
    obtain ⟨coversBox, coversOld, fits⟩ := inkRect_spec computed
    have same : SameOutside width
        (segmentBox width (self.len / width) origin target radius)
        self.planes planes := by
      refine Res.foldlM_preserves
        (SameOutside width
          (segmentBox width (self.len / width) origin target radius)
          self.planes)
        ⟨rfl, fun _ _ _ => ⟨rfl, rfl⟩⟩ ?_ painted
      intro before step next member beforeSame stepped
      have within : step ≤ max (max ((target.1 : Int) - origin.1).natAbs
          ((target.2 : Int) - origin.2).natAbs) 1 := by
        rw [List.mem_range] at member
        omega
      simp only [Res.bind_eq_ok] at stepped
      obtain ⟨across, acrossFits, down, downFits, stepped⟩ := stepped
      rw [Bounded.signed_eq_some (Res.orPanic_eq_ok.mp acrossFits),
        Bounded.signed_eq_some (Res.orPanic_eq_ok.mp downFits)] at stepped
      exact inkDisc_sameOutside
        (partial_bounds origin.1 target.1 (by omega) within)
        (partial_bounds origin.2 target.2 (by omega) within) beforeSame stepped
    refine ⟨rect, rfl, same.1, coversOld, fits, ?_⟩
    intro format picture p inRow outside
    obtain ⟨sameLuma, sameAlpha⟩ :=
      same.2 p inRow fun inBox => outside (coversBox p inBox)
    simp only [blended, luma, alpha, List.getD_eq_getElem?_getD, sameLuma,
      sameAlpha]

theorem inkLine_covers {self after : LocalOverlay} {width : Nat}
    {origin target : Nat × Nat} {radius : Nat} {erase : Bool} {p : Place}
    (drawn : self.inkLine width origin target radius erase = .ok after)
    (isEnd : p = origin ∨ p = target)
    (onPlane : p.1 < width ∧ p.2 < self.len / width) :
    ∃ rect, after.dirty = some rect ∧ rect.Covers p.1 p.2 := by
  unfold inkLine at drawn
  split at drawn
  · cases drawn
  · simp only [Res.bind_eq_ok] at drawn
    obtain ⟨planes, painted, rect, computed, stored⟩ := drawn
    cases stored
    refine ⟨rect, rfl, (inkRect_spec computed).1 p ?_⟩
    rcases isEnd with rfl | rfl
    · exact ⟨by omega, by omega⟩
    · exact ⟨by omega, by omega⟩

end LocalOverlay

end RmDisplay.Core
