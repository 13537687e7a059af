import Mathlib.Algebra.Order.Ring.Abs
import RmDisplay.Core.OverlaySpec
import RmDisplay.Core.PlaneCells

/-!
# Ink on a plane

A stroke is drawn as discs around sampled centres, which follow the segment
from end to end without a gap.  Every place shows the last stroke whose discs
cover it, and the dirty rectangle covers everything that changed.
-/

namespace RmDisplay.Core

open Foundation Protocol Foundation.Picture LocalOverlay

structure Stroke where
  origin : Place
  target : Place
  radius : Nat
  erase : Bool
deriving DecidableEq, Repr

namespace Stroke

/-- How often the centre moves. -/
def steps (self : Stroke) : Nat :=
  max (max ((self.target.1 : Int) - self.origin.1).natAbs
    ((self.target.2 : Int) - self.origin.2).natAbs) 1

/-- Whole steps of a distance, rounded towards the origin. -/
def part (distance : Int) (step steps : Nat) : Int :=
  (distance * step).tdiv steps

/-- A sampled centre. -/
def centre (self : Stroke) (step : Nat) : Int × Int :=
  (self.origin.1 +
      part ((self.target.1 : Int) - self.origin.1) step self.steps,
    self.origin.2 +
      part ((self.target.2 : Int) - self.origin.2) step self.steps)

/-- The square of the distance of a place from a centre. -/
def distance (centre : Int × Int) (p : Place) : Int :=
  (p.1 - centre.1) ^ 2 + (p.2 - centre.2) ^ 2

/-- Some sampled disc covers the place. -/
def Covers (self : Stroke) (p : Place) : Prop :=
  ∃ step ∈ List.range (self.steps + 1),
    distance (self.centre step) p ≤ (self.radius : Int) ^ 2

instance (self : Stroke) (p : Place) : Decidable (self.Covers p) :=
  inferInstanceAs (Decidable (∃ step ∈ List.range _, _))

/-- The coverage a stroke leaves. -/
def ink (self : Stroke) : UInt8 := if self.erase then 0 else 255

theorem steps_pos (self : Stroke) : 0 < self.steps := by
  unfold steps
  omega

theorem part_neg (distance : Int) (step steps : Nat) :
    part (-distance) step steps = -part distance step steps := by
  rw [part, part, Int.neg_mul, Int.neg_tdiv]

private theorem part_succ {distance : Int} {step steps : Nat}
    (nonneg : 0 ≤ distance) (short : distance ≤ steps)
    (someSteps : 0 < steps) :
    part distance step steps ≤ part distance (step + 1) steps ∧
      part distance (step + 1) steps ≤ part distance step steps + 1 := by
  have positive : (0 : Int) < steps := by omega
  have before : 0 ≤ distance * (step : Int) :=
    Int.mul_nonneg nonneg (Int.natCast_nonneg step)
  have after : 0 ≤ distance * ((step + 1 : Nat) : Int) :=
    Int.mul_nonneg nonneg (Int.natCast_nonneg _)
  have sum : distance * ((step + 1 : Nat) : Int) =
      distance * step + distance := by
    rw [Int.natCast_add, Int.natCast_one, Int.mul_add, Int.mul_one]
  rw [part, part, Int.tdiv_eq_ediv_of_nonneg before,
    Int.tdiv_eq_ediv_of_nonneg after, sum]
  constructor
  · exact Int.ediv_le_ediv positive (by omega)
  · calc (distance * step + distance) / (steps : Int)
        ≤ (distance * step + steps) / (steps : Int) :=
          Int.ediv_le_ediv positive (by omega)
      _ = distance * step / steps + 1 := by
          rw [Int.add_ediv_of_dvd_right (Int.dvd_refl _),
            Int.ediv_self (by omega)]

theorem part_step {distance : Int} {step steps : Nat}
    (short : distance.natAbs ≤ steps) (someSteps : 0 < steps) :
    (part distance (step + 1) steps - part distance step steps).natAbs ≤
      1 := by
  rcases Int.le_total 0 distance with forward | backward
  · have := @part_succ distance step steps forward (by omega) someSteps
    omega
  · have moved := @part_succ (-distance) step steps (by omega) (by omega)
      someSteps
    rw [part_neg, part_neg] at moved
    omega

theorem centre_spec (self : Stroke) :
    self.centre 0 = ((self.origin.1 : Int), (self.origin.2 : Int)) ∧
      self.centre self.steps =
        ((self.target.1 : Int), (self.target.2 : Int)) ∧
      ∀ step,
        ((self.centre (step + 1)).1 - (self.centre step).1).natAbs ≤ 1 ∧
          ((self.centre (step + 1)).2 - (self.centre step).2).natAbs ≤ 1 := by
  have positive := self.steps_pos
  have whole (distance : Int) :
      part distance self.steps self.steps = distance :=
    Int.mul_tdiv_cancel _ (by omega)
  have start (distance : Int) : part distance 0 self.steps = 0 := by
    rw [part, Int.natCast_zero, Int.mul_zero, Int.zero_tdiv]
  refine ⟨?_, ?_, ?_⟩
  · simp only [centre, start, Int.add_zero]
  · simp only [centre, whole]
    refine Prod.ext ?_ ?_ <;> simp only <;> omega
  · intro step
    have columns := @part_step ((self.target.1 : Int) - self.origin.1) step
      self.steps (by unfold steps; omega) positive
    have rows := @part_step ((self.target.2 : Int) - self.origin.2) step
      self.steps (by unfold steps; omega) positive
    simp only [centre]
    omega

/-- The numbers of a stroke on a surface fit their words: its sums are unsigned
and its squares signed. -/
structure Drawable (stroke : Stroke) (width height : Nat) : Prop where
  originInside : stroke.origin.1 < width ∧ stroke.origin.2 < height
  targetInside : stroke.target.1 < width ∧ stroke.target.2 < height
  sums : max stroke.origin.1 stroke.target.1 + stroke.radius + 1 ≤ u32Max ∧
    max stroke.origin.2 stroke.target.2 + stroke.radius + 1 ≤ u32Max
  extent : (stroke.steps : Int) ^ 2 < 2 ^ 63
  reach : (stroke.radius : Int) ^ 2 < 2 ^ 63
  distances : ∀ step ≤ stroke.steps, ∀ p : Place, p.1 < width → p.2 < height →
    ((p.1 : Int) - (stroke.centre step).1).natAbs ≤ stroke.radius →
    ((p.2 : Int) - (stroke.centre step).2).natAbs ≤ stroke.radius →
    distance (stroke.centre step) p < 2 ^ 63

theorem distance_nonneg (centre : Int × Int) (p : Place) :
    0 ≤ distance centre p :=
  add_nonneg (sq_nonneg _) (sq_nonneg _)

theorem box_of_distance {centre : Int × Int} {radius : Nat} {p : Place}
    (near : distance centre p ≤ (radius : Int) ^ 2) :
    ((p.1 : Int) - centre.1).natAbs ≤ radius ∧
      ((p.2 : Int) - centre.2).natAbs ≤ radius := by
  have columns := sq_nonneg ((p.1 : Int) - centre.1)
  have rows := sq_nonneg ((p.2 : Int) - centre.2)
  have nonneg : (0 : Int) ≤ radius := Int.natCast_nonneg radius
  unfold distance at near
  have horizontal := abs_le_of_sq_le_sq
    (show ((p.1 : Int) - centre.1) ^ 2 ≤ (radius : Int) ^ 2 by omega) nonneg
  have vertical := abs_le_of_sq_le_sq
    (show ((p.2 : Int) - centre.2) ^ 2 ≤ (radius : Int) ^ 2 by omega) nonneg
  rw [Int.abs_eq_natAbs] at horizontal vertical
  omega

/-- The cell a stroke leaves. -/
def cell (erase : Bool) : Option UInt8 × Option UInt8 :=
  (some 0, some (if erase then 0 else 255))

/-- The places of a disc in one row of the plane. -/
def discRow (width radius : Nat) (centre : Int × Int) (row : Nat) :
    Set Place :=
  {p | p.2 = row ∧ p.1 < width ∧ distance centre p ≤ (radius : Int) ^ 2}

private theorem discRow_paints {planes : Planes} {width height radius : Nat}
    {erase : Bool} {centre : Int × Int} {row : Nat}
    (sized : planes.luma.length = width * height)
    (reach : (radius : Int) ^ 2 < 2 ^ 63) (inPlane : row < height)
    (distances : ∀ p : Place, p.1 < width → p.2 = row →
      ((p.1 : Int) - centre.1).natAbs ≤ radius →
      distance centre p < 2 ^ 63) :
    ∃ after, (coordinates (centre.1 - radius)
          (min (centre.1 + radius) (width - 1))).foldlM
        (fun planes (px : Nat) => do
          let distance ← Res.orPanic
            (Bounded.signed ((px - centre.1) ^ 2 + (row - centre.2) ^ 2))
          let reach ← Res.orPanic (Bounded.signed ((radius : Int) ^ 2))
          if distance ≤ reach then
            Res.orPanic (planes.put (row * width + px) 0
              (if erase then 0 else 255))
          else .ok planes) planes = (.ok after : SurfaceRes Planes) ∧
      after.luma.length = width * height ∧
      after.cells width = paint (discRow width radius centre row)
        (fun _ => cell erase) (planes.cells width) := by
  have reached := Bounded.signed_eq
    (show -2 ^ 63 ≤ (radius : Int) ^ 2 by
      have := sq_nonneg (radius : Int)
      omega) reach
  have union : discRow width radius centre row =
      {p | ∃ px ∈ coordinates (centre.1 - radius)
          (min (centre.1 + radius) (width - 1)),
        p ∈ {p : Place | p = (px, row) ∧
          distance centre p ≤ (radius : Int) ^ 2}} := by
    ext p
    constructor
    · rintro ⟨isRow, inRow, near⟩
      have box := box_of_distance near
      exact ⟨p.1, mem_coordinates.mpr (by omega), Prod.ext rfl isRow, near⟩
    · rintro ⟨px, member, rfl, near⟩
      have := mem_coordinates.mp member
      exact ⟨rfl, by simp only; omega, near⟩
  rw [union]
  refine foldlM_paint (fun planes : Planes => planes.cells width)
    (fun planes => planes.luma.length = width * height) _ _ _ _ sized ?_
  intro done px rest state split length _
  have member : px ∈ coordinates (centre.1 - radius)
      (min (centre.1 + radius) (width - 1)) := by simp [split]
  have bounds := mem_coordinates.mp member
  have inRow : px < width := by omega
  have measured := Bounded.signed_eq
    (show -2 ^ 63 ≤ distance centre (px, row) by
      have := distance_nonneg centre (px, row)
      omega)
    (distances (px, row) inRow rfl (by simp only; omega))
  simp only [distance] at measured
  rw [measured, reached, Res.orPanic_some, Res.ok_bind, Res.orPanic_some,
    Res.ok_bind]
  by_cases near : distance centre (px, row) ≤ (radius : Int) ^ 2
  · have fits : row * width + px < state.luma.length := by
      have rows := Nat.mul_le_mul_right width
        (show row + 1 ≤ height from inPlane)
      rw [Nat.add_one_mul, Nat.mul_comm height] at rows
      omega
    obtain ⟨after, stored, same, painted⟩ := @Planes.put_paints state width
      px row 0 (if erase then 0 else 255) inRow fits
    have here : {p : Place | p = (px, row) ∧
        distance centre p ≤ (radius : Int) ^ 2} = {(px, row)} := by
      ext p
      constructor
      · exact And.left
      · rintro rfl
        exact ⟨rfl, near⟩
    refine ⟨after, ?_, same.trans length, ?_⟩
    · simp only [distance] at near
      rw [if_pos near, stored, Res.orPanic_some]
    · rw [here]
      exact painted
  · refine ⟨state, if_neg near, length, ?_⟩
    have nowhere : {p : Place | p = (px, row) ∧
        distance centre p ≤ (radius : Int) ^ 2} = ∅ := by
      rw [Set.eq_empty_iff_forall_notMem]
      rintro p ⟨rfl, isNear⟩
      exact near isNear
    rw [nowhere, paint_empty]

theorem inkDisc_paints {planes : Planes} {width height radius : Nat}
    {erase : Bool} {centre : Int × Int}
    (sized : planes.luma.length = width * height)
    (reach : (radius : Int) ^ 2 < 2 ^ 63)
    (distances : ∀ p : Place, p.1 < width → p.2 < height →
      ((p.1 : Int) - centre.1).natAbs ≤ radius →
      ((p.2 : Int) - centre.2).natAbs ≤ radius →
      distance centre p < 2 ^ 63) :
    ∃ after, inkDisc width height radius erase centre.1 centre.2
        planes = .ok after ∧
      after.luma.length = width * height ∧
      after.cells width = paint {p | (p.1 < width ∧ p.2 < height) ∧
          distance centre p ≤ (radius : Int) ^ 2}
        (fun _ => cell erase) (planes.cells width) := by
  have union : {p : Place | (p.1 < width ∧ p.2 < height) ∧
        distance centre p ≤ (radius : Int) ^ 2} =
      {p | ∃ py ∈ coordinates (centre.2 - radius)
          (min (centre.2 + radius) (height - 1)),
        p ∈ discRow width radius centre py} := by
    ext p
    constructor
    · rintro ⟨⟨inRow, inPlane⟩, near⟩
      have box := box_of_distance near
      exact ⟨p.2, mem_coordinates.mpr (by omega), rfl, inRow, near⟩
    · rintro ⟨py, member, rfl, inRow, near⟩
      have := mem_coordinates.mp member
      exact ⟨⟨inRow, by omega⟩, near⟩
  rw [union]
  refine foldlM_paint (fun planes : Planes => planes.cells width)
    (fun planes => planes.luma.length = width * height) _ _ _ _ sized ?_
  intro done py rest state split length _
  have member : py ∈ coordinates (centre.2 - radius)
      (min (centre.2 + radius) (height - 1)) := by simp [split]
  have bounds := mem_coordinates.mp member
  exact discRow_paints length reach (by omega) fun p inRow isRow close =>
    distances p inRow (by omega) close (by omega)

theorem drawable_of_small {self : Stroke} {width height : Nat}
    (originInside : self.origin.1 < width ∧ self.origin.2 < height)
    (targetInside : self.target.1 < width ∧ self.target.2 < height)
    (narrow : width ≤ 2 ^ 31) (short : height ≤ 2 ^ 31)
    (small : self.radius < 2 ^ 31) : self.Drawable width height := by
  have below (value : Nat) (isBelow : value < 2 ^ 31) :
      (value : Int) ^ 2 ≤ (2 ^ 31 - 1) ^ 2 := by
    have := pow_le_pow_left₀ (Int.natCast_nonneg value)
      (show (value : Int) ≤ 2 ^ 31 - 1 by omega) 2
    exact this
  refine ⟨originInside, targetInside, ?_, ?_, ?_, ?_⟩
  · unfold u32Max
    omega
  · have := below self.steps (by unfold steps; omega)
    omega
  · have := below self.radius small
    omega
  · intro step _ p _ _ columns rows
    have across := below _ (show _ < 2 ^ 31 from columns.trans_lt small)
    have down := below _ (show _ < 2 ^ 31 from rows.trans_lt small)
    rw [Int.natAbs_sq] at across down
    unfold distance
    omega

/-- The places of the plane a stroke covers. -/
def places (self : Stroke) (width height : Nat) : Set Place :=
  {p | (p.1 < width ∧ p.2 < height) ∧ self.Covers p}

theorem centre_between (self : Stroke) {step : Nat}
    (within : step ≤ self.steps) :
    (((min self.origin.1 self.target.1 : Nat) : Int) ≤ (self.centre step).1 ∧
        (self.centre step).1 ≤
          ((max self.origin.1 self.target.1 : Nat) : Int)) ∧
      ((min self.origin.2 self.target.2 : Nat) : Int) ≤ (self.centre step).2 ∧
        (self.centre step).2 ≤
          ((max self.origin.2 self.target.2 : Nat) : Int) :=
  ⟨partial_bounds _ _ self.steps_pos within,
    partial_bounds _ _ self.steps_pos within⟩

theorem box_of_places {self : Stroke} {width height : Nat} {p : Place}
    (covered : p ∈ self.places width height) :
    segmentBox width height self.origin self.target self.radius p := by
  obtain ⟨onPlane, step, member, near⟩ := covered
  rw [List.mem_range] at member
  have between := self.centre_between (show step ≤ self.steps by omega)
  have box := box_of_distance near
  exact ⟨by omega, by omega⟩

private theorem signed_part {distance : Int} {step steps : Nat}
    (short : distance.natAbs ≤ steps) (within : step ≤ steps)
    (extent : (steps : Int) ^ 2 < 2 ^ 63) :
    Bounded.signed (distance * step) = some (distance * step) := by
  have product := Nat.mul_le_mul short within
  have square : (steps : Int) ^ 2 = ((steps * steps : Nat) : Int) := by
    rw [sq, Int.natCast_mul]
  have size : (distance * step).natAbs = distance.natAbs * step := by
    rw [Int.natAbs_mul, Int.natAbs_natCast]
  apply Bounded.signed_eq
  · omega
  · omega

theorem discs_paint {self : Stroke} {planes : Planes} {width height : Nat}
    (sized : planes.luma.length = width * height)
    (drawable : self.Drawable width height) :
    ∃ after, (List.range (self.steps + 1)).foldlM
        (fun planes (step : Nat) => do
          let across ← Res.orPanic (Bounded.signed
            (((self.target.1 : Int) - self.origin.1) * step))
          let down ← Res.orPanic (Bounded.signed
            (((self.target.2 : Int) - self.origin.2) * step))
          inkDisc width height self.radius self.erase
            (self.origin.1 + across.tdiv self.steps)
            (self.origin.2 + down.tdiv self.steps) planes) planes =
        (.ok after : SurfaceRes Planes) ∧
      after.luma.length = width * height ∧
      after.cells width = paint (self.places width height)
        (fun _ => cell self.erase) (planes.cells width) := by
  have union : self.places width height =
      {p | ∃ step ∈ List.range (self.steps + 1),
        p ∈ {p : Place | (p.1 < width ∧ p.2 < height) ∧
          distance (self.centre step) p ≤ (self.radius : Int) ^ 2}} := by
    ext p
    constructor
    · rintro ⟨onPlane, step, member, near⟩
      exact ⟨step, member, onPlane, near⟩
    · rintro ⟨step, member, onPlane, near⟩
      exact ⟨onPlane, step, member, near⟩
  rw [union]
  refine foldlM_paint (fun planes : Planes => planes.cells width)
    (fun planes => planes.luma.length = width * height) _ _ _ _ sized ?_
  intro done step rest state split length _
  have member : step ∈ List.range (self.steps + 1) := by simp [split]
  rw [List.mem_range] at member
  have within : step ≤ self.steps := by omega
  rw [signed_part (by unfold steps; omega) within drawable.extent,
    signed_part (by unfold steps; omega) within drawable.extent,
    Res.orPanic_some, Res.ok_bind, Res.orPanic_some, Res.ok_bind]
  exact @inkDisc_paints state width height self.radius self.erase
    (self.centre step) length drawable.reach (drawable.distances step within)

private theorem inkRect_returns {self : Stroke} {width height : Nat}
    (drawable : self.Drawable width height) (old : Option Rect) :
    ∃ rect, inkRect width height self.origin self.target self.radius old =
      .ok rect := by
  obtain ⟨⟨originColumn, originRow⟩, ⟨targetColumn, targetRow⟩, sums⟩ :=
    drawable
  unfold inkRect
  dsimp only
  rw [Bounded.checkedAdd_eq_some.mpr ⟨rfl, sums.1⟩,
    Bounded.checkedAdd_eq_some.mpr ⟨rfl, sums.2⟩, Res.orPanic_some,
    Res.ok_bind, Res.orPanic_some, Res.ok_bind,
    Bounded.checkedSub_eq_some.mpr ⟨rfl, by omega⟩,
    Bounded.checkedSub_eq_some.mpr ⟨rfl, by omega⟩, Res.orPanic_some,
    Res.ok_bind, Res.orPanic_some, Res.ok_bind]
  cases old with
  | none => exact ⟨_, rfl⟩
  | some before => exact ⟨_, rfl⟩

end Stroke

/-- The bit of a pixel, the first one of a byte being its highest. -/
def coverageBit (bitmap : Bytes) (index : Nat) : Bool :=
  (bitmap.getD (index / 8) 0).toNat.testBit (7 - index % 8)

private theorem testBit_mask (left right : Fin 8) :
    ((0x80 : UInt8) >>> UInt8.ofNat left.val).toNat.testBit (7 - right.val) =
      decide (left = right) := by
  revert left right
  decide

private theorem coverageBit_set {bitmap : Bytes} {index : Nat}
    (fits : index / 8 < bitmap.length) (other : Nat) :
    coverageBit (bitmap.set (index / 8)
        (bitmap[index / 8] ||| 0x80 >>> UInt8.ofNat (index % 8))) other =
      (coverageBit bitmap other || decide (index = other)) := by
  have mask := testBit_mask ⟨index % 8, Nat.mod_lt _ (by omega)⟩
    ⟨other % 8, Nat.mod_lt _ (by omega)⟩
  simp only [Fin.mk.injEq] at mask
  unfold coverageBit
  simp only [List.getD_eq_getElem?_getD, List.getElem?_set]
  by_cases sameByte : index / 8 = other / 8
  · rw [if_pos sameByte, if_pos fits, ← sameByte,
      List.getElem?_eq_getElem fits]
    simp only [Option.getD_some, UInt8.toNat_or, Nat.testBit_or, mask]
    congr 1
    rw [decide_eq_decide]
    omega
  · rw [if_neg sameByte]
    have different : index ≠ other := by
      rintro rfl
      exact sameByte rfl
    simp only [different, decide_false, Bool.or_false]

/-- The bitmap has a bit for every covered pixel and no others, also past the
last pixel. -/
theorem LocalOverlay.coverageBitmap_spec (self : LocalOverlay) :
    ∃ bitmap, self.coverageBitmap = .ok bitmap ∧
      bitmap.length = (self.len + 7) / 8 ∧
      ∀ index, coverageBit bitmap index = true ↔
        ∃ alpha, self.alpha[index]? = some alpha ∧ alpha ≠ 0 := by
  have sameLength : self.len = self.alpha.length := self.planes.sameLength
  rw [sameLength]
  have loop : ∃ bitmap, self.coverageBitmap = .ok bitmap ∧
      (bitmap.length = (self.alpha.length + 7) / 8 ∧
        ∀ index, coverageBit bitmap index = true ↔
          index < self.alpha.zipIdx.length ∧
            ∃ alpha, self.alpha[index]? = some alpha ∧ alpha ≠ 0) := by
    refine Res.foldlM_ok
      (fun done bitmap => bitmap.length = (self.alpha.length + 7) / 8 ∧
        ∀ index, coverageBit bitmap index = true ↔ index < done.length ∧
          ∃ alpha, self.alpha[index]? = some alpha ∧ alpha ≠ 0)
      _ _ ⟨List.length_replicate, ?_⟩ ?_
    · intro index
      constructor
      · intro set
        unfold coverageBit at set
        rw [List.getD_eq_getElem?_getD, List.getElem?_replicate] at set
        split at set
        · cases Nat.zero_testBit _ ▸ set
        · cases Nat.zero_testBit _ ▸ set
      · rintro ⟨below, _⟩
        cases below
    · rintro done ⟨alpha, index⟩ rest bitmap split ⟨length, bits⟩
      have read : self.alpha[done.length]? = some alpha ∧
          index = done.length := by
        have found : self.alpha.zipIdx[done.length]? = some (alpha, index) := by
          rw [split]
          simp
        rw [List.getElem?_zipIdx, Option.map_eq_some_iff] at found
        obtain ⟨value, isValue, same⟩ := found
        cases same
        exact ⟨isValue, Nat.zero_add _⟩
      obtain ⟨isAlpha, rfl⟩ := read
      have below := (List.getElem?_eq_some_iff.mp isAlpha).1
      have more (position : Nat) :
          position < (done ++ [(alpha, done.length)]).length ↔
            position < done.length ∨ done.length = position := by
        rw [List.length_append, List.length_singleton]
        omega
      dsimp only
      by_cases covered : alpha ≠ 0
      · have fits : done.length / 8 < bitmap.length := by omega
        rw [if_pos covered, List.getElem?_eq_getElem fits, Res.orPanic_some,
          Res.ok_bind, Buffer.put_eq _ fits, Res.orPanic_some]
        refine ⟨_, rfl, List.length_set.trans length, fun position => ?_⟩
        rw [coverageBit_set fits, Bool.or_eq_true, bits, decide_eq_true_eq,
          more]
        constructor
        · rintro (⟨earlier, isCovered⟩ | rfl)
          · exact ⟨.inl earlier, isCovered⟩
          · exact ⟨.inr rfl, alpha, isAlpha, covered⟩
        · rintro ⟨earlier | here, isCovered⟩
          · exact .inl ⟨earlier, isCovered⟩
          · exact .inr here
      · rw [if_neg covered]
        refine ⟨bitmap, rfl, length, fun position => ?_⟩
        rw [bits, more]
        constructor
        · rintro ⟨earlier, isCovered⟩
          exact ⟨.inl earlier, isCovered⟩
        · rintro ⟨earlier | rfl, other, isOther, isCovered⟩
          · exact ⟨earlier, other, isOther, isCovered⟩
          · cases isAlpha.symm.trans isOther
            exact absurd isCovered covered
  obtain ⟨bitmap, finished, length, bits⟩ := loop
  refine ⟨bitmap, finished, length, fun index => ?_⟩
  rw [bits, List.length_zipIdx]
  constructor
  · exact And.right
  · rintro ⟨alpha, isAlpha, covered⟩
    exact ⟨(List.getElem?_eq_some_iff.mp isAlpha).1, alpha, isAlpha, covered⟩

/-- What is to be redrawn lies on the plane. -/
def LocalOverlay.DirtyInside (self : LocalOverlay) (width height : Nat) :
    Prop :=
  ∀ rect, self.dirty = some rect → rect.Inside width height

/-- The place is to be redrawn. -/
def LocalOverlay.IsDirty (self : LocalOverlay) (p : Place) : Prop :=
  ∃ rect, self.dirty = some rect ∧ rect.Covers p.1 p.2

theorem LocalOverlay.dirtyInside_of_clean {self : LocalOverlay}
    {width height : Nat} (clean : self.dirty = none) :
    self.DirtyInside width height := by
  intro rect isRect
  cases clean.symm.trans isRect

/-- Drawing a stroke paints its places, and the dirty rectangle grows to cover
them. -/
theorem LocalOverlay.inkLine_draws {self : LocalOverlay} {stroke : Stroke}
    {width height : Nat} (sized : self.len = width * height)
    (dirty : self.DirtyInside width height)
    (drawable : stroke.Drawable width height) :
    ∃ after rect, self.inkLine width stroke.origin stroke.target
        stroke.radius stroke.erase = .ok after ∧
      after.len = width * height ∧ after.dirty = some rect ∧
      rect.Inside width height ∧
      (∀ before, self.dirty = some before → ∀ p : Place,
        before.Covers p.1 p.2 → rect.Covers p.1 p.2) ∧
      (∀ p ∈ stroke.places width height, rect.Covers p.1 p.2) ∧
      after.cells width = paint (stroke.places width height)
        (fun _ => Stroke.cell stroke.erase) (self.cells width) := by
  have originInside := drawable.originInside
  have rows : self.len / width = height := by
    rw [sized, Nat.mul_div_cancel_left _ (by omega)]
  obtain ⟨planes, finished, length, painted⟩ :=
    stroke.discs_paint sized drawable
  obtain ⟨rect, computed⟩ := stroke.inkRect_returns drawable self.dirty
  obtain ⟨coversBox, coversOld, fits⟩ := inkRect_spec computed
  have inside := fits fun before isOld => by
    have := dirty before isOld
    exact ⟨this.right, this.bottom⟩
  have atOrigin := coversBox stroke.origin ⟨by omega, by omega⟩
  obtain ⟨⟨_, _⟩, _, _⟩ := atOrigin
  refine ⟨⟨planes, false, some rect, by simp⟩, rect, ?_, length, rfl,
    ⟨by omega, by omega, inside.1, inside.2⟩, coversOld,
    fun p covered => coversBox p (Stroke.box_of_places covered), painted⟩
  rw [inkLine, if_neg (by omega)]
  dsimp only
  rw [rows]
  exact Res.bind_eq_ok.mpr
    ⟨planes, finished, Res.bind_eq_ok.mpr ⟨rect, computed, rfl⟩⟩

/-- The overlays of a size that their operations can make. -/
inductive LocalOverlay.Made (width height : Nat) : LocalOverlay → Prop
  | transparent {overlay : LocalOverlay}
      (made : LocalOverlay.newTransparent width height = .ok overlay) :
      Made width height overlay
  | clear {overlay : LocalOverlay} (earlier : Made width height overlay) :
      Made width height overlay.clear
  | takeDirty {overlay : LocalOverlay} (earlier : Made width height overlay) :
      Made width height overlay.takeDirty.2
  | replacePlanes {overlay after : LocalOverlay} {luma alpha : Bytes}
      (earlier : Made width height overlay)
      (replaced : overlay.replacePlanes luma alpha = .ok after) :
      Made width height after
  | patch {overlay after : LocalOverlay} {rect : Rect} {luma alpha : Bytes}
      (earlier : Made width height overlay)
      (patched : overlay.patch width rect luma alpha = .ok after) :
      Made width height after
  | inkLine {overlay after : LocalOverlay} {stroke : Stroke}
      (earlier : Made width height overlay)
      (drawable : stroke.Drawable width height)
      (drawn : overlay.inkLine width stroke.origin stroke.target
        stroke.radius stroke.erase = .ok after) :
      Made width height after

/-- The operations keep the size, and the dirty rectangle on the plane. -/
theorem LocalOverlay.Made.spec {width height : Nat} {overlay : LocalOverlay}
    (made : Made width height overlay) :
    overlay.len = width * height ∧ overlay.DirtyInside width height := by
  induction made with
  | transparent made =>
      unfold newTransparent at made
      rw [Res.bind_eq_ok] at made
      obtain ⟨len, isLen, stored⟩ := made
      cases stored
      refine ⟨?_, dirtyInside_of_clean rfl⟩
      exact List.length_replicate.trans (pixelLen_eq_ok.mp isLen).2.1
  | clear _ induction => exact ⟨induction.1, dirtyInside_of_clean rfl⟩
  | takeDirty _ induction => exact ⟨induction.1, dirtyInside_of_clean rfl⟩
  | replacePlanes _ replaced induction =>
      obtain ⟨sameLen, sameDirty⟩ := replacePlanes_spec replaced
      refine ⟨sameLen.trans induction.1, ?_⟩
      rw [DirtyInside, sameDirty]
      exact induction.2
  | patch _ patched induction =>
      obtain ⟨sameLen, sameDirty⟩ := patch_spec patched
      refine ⟨sameLen.trans induction.1, ?_⟩
      rw [DirtyInside, sameDirty]
      exact induction.2
  | inkLine _ drawable drawn induction =>
      obtain ⟨after, rect, drawn', length, isDirty, inside, _⟩ :=
        inkLine_draws induction.1 induction.2 drawable
      cases drawn.symm.trans drawn'
      refine ⟨length, fun other isOther => ?_⟩
      cases isDirty.symm.trans isOther
      exact inside

/-- A call that draws or fetches what is to be redrawn. -/
inductive InkCall
  | inkLine (stroke : Stroke)
  | takeDirty
deriving DecidableEq, Repr

def InkCall.run (width : Nat) (overlay : LocalOverlay) :
    InkCall → SurfaceRes LocalOverlay
  | .inkLine stroke => overlay.inkLine width stroke.origin stroke.target
      stroke.radius stroke.erase
  | .takeDirty => .ok overlay.takeDirty.2

/-- All calls in turn. -/
def inkCalls (width : Nat) (overlay : LocalOverlay) (calls : List InkCall) :
    SurfaceRes LocalOverlay :=
  calls.foldlM (InkCall.run width) overlay

/-- The last stroke of the calls that covers the place. -/
def lastStroke (p : Place) (calls : List InkCall) : Option Stroke :=
  calls.foldl (fun last call =>
    match call with
    | .inkLine stroke => if stroke.Covers p then some stroke else last
    | .takeDirty => last) none

theorem lastStroke_append (p : Place) (calls : List InkCall)
    (call : InkCall) : lastStroke p (calls ++ [call]) =
      match call with
      | .inkLine stroke =>
          if stroke.Covers p then some stroke else lastStroke p calls
      | .takeDirty => lastStroke p calls := by
  unfold lastStroke
  rw [List.foldl_append]
  rfl

/-- The strokes of the calls can be drawn. -/
def AllDrawable (width height : Nat) (calls : List InkCall) : Prop :=
  ∀ stroke, .inkLine stroke ∈ calls → stroke.Drawable width height

/-- The cells a call leaves. -/
noncomputable def InkCall.drawn (width height : Nat) (before : Cells) :
    InkCall → Cells
  | .inkLine stroke => paint (stroke.places width height)
      (fun _ => Stroke.cell stroke.erase) before
  | .takeDirty => before

theorem InkCall.run_spec {width height : Nat} {overlay : LocalOverlay}
    {call : InkCall} (sized : overlay.len = width * height)
    (dirty : overlay.DirtyInside width height)
    (drawable : AllDrawable width height [call]) :
    ∃ after, call.run width overlay = .ok after ∧
      after.len = width * height ∧ after.DirtyInside width height ∧
      after.cells width = call.drawn width height (overlay.cells width) := by
  cases call with
  | inkLine stroke =>
      obtain ⟨after, rect, drawn, length, isDirty, inside, _, _, painted⟩ :=
        overlay.inkLine_draws sized dirty
          (drawable stroke (List.mem_singleton_self _))
      refine ⟨after, drawn, length, fun other isOther => ?_, painted⟩
      cases isDirty.symm.trans isOther
      exact inside
  | takeDirty =>
      exact ⟨_, rfl, sized, LocalOverlay.dirtyInside_of_clean rfl, rfl⟩

theorem inkCalls_cells {width height : Nat} {start : LocalOverlay}
    {calls : List InkCall} (sized : start.len = width * height)
    (dirty : start.DirtyInside width height)
    (drawable : AllDrawable width height calls) :
    ∃ last, inkCalls width start calls = .ok last ∧
      (last.len = width * height ∧ last.DirtyInside width height) ∧
      ∀ p : Place, p.1 < width → p.2 < height →
        last.cells width p = match lastStroke p calls with
          | some stroke => Stroke.cell stroke.erase
          | none => start.cells width p := by
  refine Res.foldlM_ok (fun done overlay =>
    (overlay.len = width * height ∧ overlay.DirtyInside width height) ∧
      ∀ p : Place, p.1 < width → p.2 < height →
        overlay.cells width p = match lastStroke p done with
          | some stroke => Stroke.cell stroke.erase
          | none => start.cells width p)
    calls start ⟨⟨sized, dirty⟩, fun _ _ _ => rfl⟩ ?_
  rintro done call rest overlay split ⟨⟨size, inside⟩, shown⟩
  obtain ⟨after, ran, length, isInside, cells⟩ := @InkCall.run_spec width
    height overlay call size inside fun stroke member => by
      apply drawable stroke
      rw [split]
      exact List.mem_append_right _ (List.mem_cons.mpr
        (.inl (List.mem_singleton.mp member)))
  refine ⟨after, ran, ⟨length, isInside⟩, fun p inRow inPlane => ?_⟩
  rw [cells, lastStroke_append]
  cases call with
  | inkLine stroke =>
      dsimp only [InkCall.drawn]
      by_cases covers : stroke.Covers p
      · have covered : p ∈ stroke.places width height :=
          ⟨⟨inRow, inPlane⟩, covers⟩
        rw [if_pos covers, paint_of_mem covered]
      · have outside : p ∉ stroke.places width height :=
          fun covered => covers covered.2
        rw [if_neg covers, paint_of_not_mem outside]
        exact shown p inRow inPlane
  | takeDirty => exact shown p inRow inPlane

/-- Until it is fetched, the dirty rectangle keeps what it covered and covers
every change. -/
theorem inkCalls_dirty {width height : Nat} {start last : LocalOverlay}
    {calls : List InkCall} (sized : start.len = width * height)
    (dirty : start.DirtyInside width height)
    (drawable : AllDrawable width height calls)
    (kept : .takeDirty ∉ calls)
    (ran : inkCalls width start calls = .ok last) {p : Place}
    (touched : start.IsDirty p ∨
      last.cells width p ≠ start.cells width p) : last.IsDirty p := by
  have loop : ∃ final, inkCalls width start calls = .ok final ∧
      (final.len = width * height ∧ final.DirtyInside width height) ∧
      ∀ p : Place, (start.IsDirty p ∨
        final.cells width p ≠ start.cells width p) → final.IsDirty p := by
    refine Res.foldlM_ok
      (fun _ overlay =>
        (overlay.len = width * height ∧ overlay.DirtyInside width height) ∧
          ∀ p : Place, (start.IsDirty p ∨
            overlay.cells width p ≠ start.cells width p) → overlay.IsDirty p)
      calls start ⟨⟨sized, dirty⟩, ?_⟩ ?_
    · rintro p (isDirty | differ)
      · exact isDirty
      · exact absurd rfl differ
    rintro done call rest overlay split ⟨⟨size, inside⟩, covered⟩
    have member : call ∈ calls := by simp [split]
    cases call with
    | inkLine stroke =>
        obtain ⟨after, rect, drawn, length, isDirty, isInside, coversOld,
          coversNew, painted⟩ :=
          overlay.inkLine_draws size inside (drawable stroke member)
        refine ⟨after, drawn, ⟨length, fun other isOther => ?_⟩,
          fun p touched => ⟨rect, isDirty, ?_⟩⟩
        · cases isDirty.symm.trans isOther
          exact isInside
        · by_cases here : p ∈ stroke.places width height
          · exact coversNew p here
          · rw [painted, paint_of_not_mem here] at touched
            obtain ⟨before, isBefore, covers⟩ := covered p touched
            exact coversOld before isBefore p covers
    | takeDirty => exact absurd member kept
  obtain ⟨final, finished, _, outside⟩ := loop
  cases ran.symm.trans finished
  exact outside p touched

theorem inkCalls_append {width : Nat} {start between last : LocalOverlay}
    {past recent : List InkCall}
    (ranPast : inkCalls width start past = .ok between) :
    inkCalls width start (past ++ recent) = .ok last ↔
      inkCalls width between recent = .ok last := by
  unfold inkCalls at ranPast ⊢
  rw [List.foldlM_append, ranPast]
  rfl

/-- Ink on an overlay of any size.  Every call returns.  A place shows the last
stroke whose discs cover it, the discs of a stroke lead from end to end without
a gap, the dirty rectangle is a part of the plane that holds every change since
it was fetched last, and the bitmap and the transparency speak of the coverage
there is. -/
theorem inkCalls_exact {width height : Nat} {start : LocalOverlay}
    {calls : List InkCall} (made : LocalOverlay.Made width height start)
    (drawable : AllDrawable width height calls) :
    ∃ last, inkCalls width start calls = .ok last ∧
      (∀ p : Place, p.1 < width → p.2 < height →
        last.cells width p = match lastStroke p calls with
          | some stroke => (some 0, some (if stroke.erase then 0 else 255))
          | none => start.cells width p) ∧
      (∀ stroke, .inkLine stroke ∈ calls →
        stroke.centre 0 = ((stroke.origin.1 : Int), (stroke.origin.2 : Int)) ∧
        stroke.centre stroke.steps =
          ((stroke.target.1 : Int), (stroke.target.2 : Int)) ∧
        ∀ step,
          ((stroke.centre (step + 1)).1 - (stroke.centre step).1).natAbs ≤ 1 ∧
          ((stroke.centre (step + 1)).2 - (stroke.centre step).2).natAbs ≤
            1) ∧
      (∀ rect, last.takeDirty.1 = some rect → rect.Inside width height) ∧
      (∀ past some_ recent, calls = past ++ (some_ ++ recent) →
        .takeDirty ∉ some_ ++ recent →
        ∃ before after, inkCalls width start past = .ok before ∧
          inkCalls width start (past ++ some_) = .ok after ∧
          ∀ p : Place, after.cells width p ≠ before.cells width p →
            ∃ rect, last.takeDirty.1 = some rect ∧ rect.Covers p.1 p.2) ∧
      (∃ bitmap, last.coverageBitmap = .ok bitmap ∧
        bitmap.length = (width * height + 7) / 8 ∧
        ∀ index, coverageBit bitmap index = true ↔
          ∃ alpha, last.alpha[index]? = some alpha ∧ alpha ≠ 0) ∧
      (last.transparent = true → ∀ alpha ∈ last.alpha, alpha = 0) := by
  obtain ⟨sized, dirty⟩ := made.spec
  obtain ⟨last, finished, ⟨length, inside⟩, shown⟩ :=
    inkCalls_cells sized dirty drawable
  refine ⟨last, finished, shown, fun stroke _ => stroke.centre_spec, inside,
    ?_, ?_, last.clear_of_transparent⟩
  · rintro past some_ recent rfl kept
    have drawablePast : AllDrawable width height past := fun stroke member =>
      drawable stroke (List.mem_append_left _ member)
    have drawableSome : AllDrawable width height some_ :=
      fun stroke member => drawable stroke
        (List.mem_append_right _ (List.mem_append_left _ member))
    have drawableRecent : AllDrawable width height recent :=
      fun stroke member => drawable stroke
        (List.mem_append_right _ (List.mem_append_right _ member))
    obtain ⟨before, ranPast, ⟨beforeSized, beforeDirty⟩, _⟩ :=
      inkCalls_cells sized dirty drawablePast
    obtain ⟨after, ranSome, ⟨afterSized, afterDirty⟩, _⟩ :=
      inkCalls_cells beforeSized beforeDirty drawableSome
    have ranRecent := (inkCalls_append ranSome).mp
      ((inkCalls_append ranPast).mp finished)
    refine ⟨before, after, ranPast, (inkCalls_append ranPast).mpr ranSome,
      fun p changed => ?_⟩
    have isDirty := inkCalls_dirty beforeSized beforeDirty drawableSome
      (fun member => kept (List.mem_append_left _ member)) ranSome
      (.inr changed)
    exact inkCalls_dirty afterSized afterDirty drawableRecent
      (fun member => kept (List.mem_append_right _ member)) ranRecent
      (.inl isDirty)
  · rw [← length]
    exact last.coverageBitmap_spec

theorem inkCalls_dot :
    ∃ overlay, LocalOverlay.newTransparent 2 1 = .ok overlay ∧
      ∃ last, inkCalls 2 overlay
        [.inkLine ⟨(0, 0), (1, 0), 1, false⟩, .takeDirty] = .ok last ∧
        last.cells 2 (1, 0) = (some 0, some 255) := by
  refine ⟨_, rfl, ?_⟩
  obtain ⟨last, ran, shown, _⟩ := @inkCalls_exact 2 1 _
    [.inkLine ⟨(0, 0), (1, 0), 1, false⟩, .takeDirty] (.transparent rfl) (by
      intro stroke member
      rw [List.mem_cons] at member
      rcases member with same | other
      · cases same
        exact Stroke.drawable_of_small (by decide) (by decide) (by decide)
          (by decide) (by decide)
      · cases List.mem_singleton.mp other)
  refine ⟨last, ran, ?_⟩
  rw [shown (1, 0) (by decide) (by decide)]
  decide

/-- The square of a large radius fits no signed word. -/
theorem inkLine_huge_panics :
    ∃ overlay, LocalOverlay.newTransparent 1 1 = .ok overlay ∧
      0 + 3037000500 + 1 ≤ u32Max ∧
      inkCalls 1 overlay [.inkLine ⟨(0, 0), (0, 0), 3037000500, false⟩] =
        .panic := by
  refine ⟨_, rfl, by decide, ?_⟩
  decide

end RmDisplay.Core
