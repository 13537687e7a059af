import RmDisplay.Foundation.Integer
import RmDisplay.Foundation.Program

/-!
# Fitting an image to a target

An image is scaled to lie inside its target, or to cover it.  One dimension is
that of the target, the other keeps the aspect ratio and is narrowed to 32
bits.  Inside the target nothing is lost by that; a covering size is right
just where it fits.
-/

namespace RmDisplay.Cli

open Foundation

inductive FitMode where
  | contain | cover | stretch
deriving DecidableEq, Repr

/-- `value as u32`. -/
def asU32 (value : Nat) : Nat := value % (u32Max + 1)

def divCeil (value divisor : Nat) : Nat :=
  max ((value + divisor - 1) / divisor) 1

def containSize (sw sh tw th : Nat) : Nat × Nat :=
  if tw * sh ≤ th * sw then (tw, asU32 (max (sh * tw / sw) 1))
  else (asU32 (max (sw * th / sh) 1), th)

def coverSize (sw sh tw th : Nat) : Nat × Nat :=
  if th * sw ≤ tw * sh then (tw, asU32 (divCeil (sh * tw) sw))
  else (asU32 (divCeil (sw * th) sh), th)

/-- What fitting uses of the image library. -/
structure ImageOps (ι : Type) where
  width : ι → Nat
  height : ι → Nat
  resize : ι → Nat → Nat → ι
  fromPixel : Nat → Nat → UInt8 → ι
  overlay : ι → ι → Nat → Nat → ι
  crop : ι → Nat → Nat → Nat → Nat → ι

def fitGray8 {ι : Type} (ops : ImageOps ι) (source : ι) (width height : Nat) :
    FitMode → Res Empty ι
  | .stretch => .ok (ops.resize source width height)
  | .contain => do
      let (scaledWidth, scaledHeight) :=
        containSize (ops.width source) (ops.height source) width height
      let scaled := ops.resize source scaledWidth scaledHeight
      let canvas := ops.fromPixel width height 255
      let left ← Res.orPanic (Bounded.checkedSub width scaledWidth)
      let top ← Res.orPanic (Bounded.checkedSub height scaledHeight)
      return ops.overlay canvas scaled (left / 2) (top / 2)
  | .cover => do
      let (scaledWidth, scaledHeight) :=
        coverSize (ops.width source) (ops.height source) width height
      let scaled := ops.resize source scaledWidth scaledHeight
      let left ← Res.orPanic (Bounded.checkedSub scaledWidth width)
      let top ← Res.orPanic (Bounded.checkedSub scaledHeight height)
      return ops.crop scaled (left / 2) (top / 2) width height

/-- The whole number differs from the quotient by less than one. -/
def Near (whole value divisor : Nat) : Prop :=
  whole * divisor < value + divisor ∧ value < whole * divisor + divisor

/-- One dimension is that of the target, and the other one keeps the aspect
ratio to within a pixel. -/
def KeepsAspect (sw sh tw th : Nat) (size : Nat × Nat) : Prop :=
  size.1 = tw ∧ Near size.2 (sh * tw) sw ∨
    size.2 = th ∧ Near size.1 (sw * th) sh

structure Contained (sw sh tw th : Nat) (size : Nat × Nat) : Prop where
  positive : 0 < size.1 ∧ 0 < size.2
  within : size.1 ≤ tw ∧ size.2 ≤ th
  aspect : KeepsAspect sw sh tw th size

structure Covering (sw sh tw th : Nat) (size : Nat × Nat) : Prop where
  beyond : tw ≤ size.1 ∧ th ≤ size.2
  aspect : KeepsAspect sw sh tw th size

/-- Both ways to fit are as they should be, and drawing does not panic. -/
structure FitsSafely (sw sh tw th : Nat) : Prop where
  contained : Contained sw sh tw th (containSize sw sh tw th)
  covering : Covering sw sh tw th (coverSize sw sh tw th)
  centred : ∀ {ι : Type} (ops : ImageOps ι) (source : ι),
    ops.width source = sw → ops.height source = sh →
    ∃ picture, fitGray8 ops source tw th .contain = .ok picture
  cropped : ∀ {ι : Type} (ops : ImageOps ι) (source : ι),
    ops.width source = sw → ops.height source = sh →
    ∃ left top, left + tw ≤ (coverSize sw sh tw th).1 ∧
      top + th ≤ (coverSize sw sh tw th).2 ∧
      fitGray8 ops source tw th .cover =
        .ok (ops.crop (ops.resize source (coverSize sw sh tw th).1
          (coverSize sw sh tw th).2) left top tw th)

section

variable {sw sh tw th : Nat}

theorem asU32_eq {value : Nat} (fits : value ≤ u32Max) : asU32 value = value :=
  Nat.mod_eq_of_lt (Nat.lt_succ_of_le fits)

theorem near_floor {value divisor : Nat} (someValue : 0 < value)
    (someDivisor : 0 < divisor) :
    Near (max (value / divisor) 1) value divisor := by
  have whole := Nat.div_add_mod' value divisor
  have rest := Nat.mod_lt value someDivisor
  rcases Nat.le_total (value / divisor) 1 with small | large
  · rw [Nat.max_eq_right small, Near, Nat.one_mul]
    have atMost := Nat.mul_le_mul_right divisor small
    omega
  · rw [Nat.max_eq_left large, Near]
    omega

theorem near_divCeil {value divisor : Nat} (someValue : 0 < value)
    (someDivisor : 0 < divisor) :
    value ≤ divCeil value divisor * divisor ∧
      divCeil value divisor * divisor < value + divisor := by
  have whole := Nat.div_add_mod' (value + divisor - 1) divisor
  have rest := Nat.mod_lt (value + divisor - 1) someDivisor
  have positive : 1 ≤ (value + divisor - 1) / divisor :=
    (Nat.le_div_iff_mul_le someDivisor).mpr (by omega)
  rw [divCeil, Nat.max_eq_left positive]
  omega

/-- A rounded-up quotient is a word just if the value is at most so many times
the divisor. -/
theorem divCeil_le {value divisor bound : Nat} (someValue : 0 < value)
    (someDivisor : 0 < divisor) :
    divCeil value divisor ≤ bound ↔ value ≤ bound * divisor := by
  obtain ⟨lower, upper⟩ := near_divCeil someValue someDivisor
  constructor
  · intro within
    exact Nat.le_trans lower (Nat.mul_le_mul_right divisor within)
  · intro within
    by_contra beyond
    have next := Nat.mul_le_mul_right divisor
      (show bound + 1 ≤ divCeil value divisor by omega)
    rw [Nat.add_one_mul] at next
    omega

theorem containSize_contained (wide : 0 < sw) (high : 0 < sh)
    (targetWide : 0 < tw ∧ tw ≤ u32Max) (targetHigh : 0 < th ∧ th ≤ u32Max) :
    Contained sw sh tw th (containSize sw sh tw th) := by
  unfold containSize
  split
  · rename_i flat
    rw [Nat.mul_comm tw, Nat.mul_comm th] at flat
    have quotient : sh * tw / sw ≤ th := Nat.div_le_of_le_mul flat
    have within : max (sh * tw / sw) 1 ≤ th := Nat.max_le.mpr
      ⟨quotient, targetHigh.1⟩
    rw [asU32_eq (Nat.le_trans within targetHigh.2)]
    exact ⟨⟨targetWide.1, by simp only; omega⟩, ⟨Nat.le_refl tw, within⟩,
      .inl ⟨rfl, near_floor (Nat.mul_pos high targetWide.1) wide⟩⟩
  · rename_i tall
    rw [Nat.mul_comm tw, Nat.mul_comm th] at tall
    have quotient : sw * th / sh ≤ tw := Nat.div_le_of_le_mul (by omega)
    have within : max (sw * th / sh) 1 ≤ tw := Nat.max_le.mpr
      ⟨quotient, targetWide.1⟩
    rw [asU32_eq (Nat.le_trans within targetWide.2)]
    exact ⟨⟨by simp only; omega, targetHigh.1⟩, ⟨within, Nat.le_refl th⟩,
      .inr ⟨rfl, near_floor (Nat.mul_pos wide targetHigh.1) high⟩⟩

theorem coverSize_covering (wide : 0 < sw) (high : 0 < sh)
    (targetWide : 0 < tw) (targetHigh : 0 < th)
    (heightFits : tw * sh ≤ u32Max * sw)
    (widthFits : th * sw ≤ u32Max * sh) :
    Covering sw sh tw th (coverSize sw sh tw th) := by
  rw [Nat.mul_comm tw] at heightFits
  rw [Nat.mul_comm th] at widthFits
  unfold coverSize
  rw [Nat.mul_comm th, Nat.mul_comm tw]
  split
  · rename_i tall
    have someValue := Nat.mul_pos high targetWide
    rw [asU32_eq ((divCeil_le someValue wide).mpr heightFits)]
    obtain ⟨lower, upper⟩ := near_divCeil someValue wide
    refine ⟨⟨Nat.le_refl tw, ?_⟩, .inl ⟨rfl, upper, by simp only; omega⟩⟩
    apply Nat.le_of_mul_le_mul_right _ wide
    rw [Nat.mul_comm th]
    exact Nat.le_trans tall lower
  · rename_i flat
    have someValue := Nat.mul_pos wide targetHigh
    rw [asU32_eq ((divCeil_le someValue high).mpr widthFits)]
    obtain ⟨lower, upper⟩ := near_divCeil someValue high
    refine ⟨⟨?_, Nat.le_refl th⟩, .inr ⟨rfl, upper, by simp only; omega⟩⟩
    apply Nat.le_of_mul_le_mul_right _ high
    rw [Nat.mul_comm tw]
    exact Nat.le_trans (by omega) lower

theorem word_of_near {value divisor slack : Nat} (someValue : 0 < value)
    (someDivisor : 0 < divisor) (small : slack ≤ u32Max * divisor)
    (near : value < asU32 (divCeil value divisor) * divisor + slack) :
    value ≤ u32Max * divisor := by
  by_contra beyond
  have upper := (near_divCeil someValue someDivisor).2
  have large : u32Max + 1 ≤ divCeil value divisor := by
    by_contra fits
    exact beyond ((divCeil_le someValue someDivisor).mp (by omega))
  have lost : asU32 (divCeil value divisor) + (u32Max + 1) ≤
      divCeil value divisor := by
    have whole := Nat.div_add_mod' (divCeil value divisor) (u32Max + 1)
    have turns : 1 ≤ divCeil value divisor / (u32Max + 1) :=
      (Nat.le_div_iff_mul_le (by decide)).mpr (by omega)
    have product := Nat.mul_le_mul_right (u32Max + 1) turns
    unfold asU32
    omega
  have scaled := Nat.mul_le_mul_right divisor lost
  rw [Nat.add_mul, Nat.add_one_mul] at scaled
  omega

private theorem fits_of_aspect {sw sh tw th : Nat}
    (wide : 0 < sw ∧ sw ≤ u32Max) (high : 0 < sh ∧ sh ≤ u32Max)
    (targetWide : 0 < tw)
    (aspect : Near (asU32 (divCeil (sh * tw) sw)) (sh * tw) sw ∨
      asU32 (divCeil (sh * tw) sw) = th ∧ Near tw (sw * th) sh) :
    sh * tw ≤ u32Max * sw := by
  have atLeast : u32Max ≤ u32Max * sw := Nat.le_mul_of_pos_right _ wide.1
  have someValue := Nat.mul_pos high.1 targetWide
  rcases aspect with near | ⟨isHeight, near⟩
  · exact word_of_near someValue wide.1 (Nat.le_trans wide.2 atLeast) near.2
  · apply word_of_near someValue wide.1 (Nat.le_trans high.2 atLeast)
    rw [isHeight, Nat.mul_comm sh, Nat.mul_comm th]
    exact near.1

theorem fits_of_covering (wide : 0 < sw ∧ sw ≤ u32Max)
    (high : 0 < sh ∧ sh ≤ u32Max) (targetWide : 0 < tw ∧ tw ≤ u32Max)
    (targetHigh : 0 < th ∧ th ≤ u32Max)
    (aspect : KeepsAspect sw sh tw th (coverSize sw sh tw th)) :
    tw * sh ≤ u32Max * sw ∧ th * sw ≤ u32Max * sh := by
  have scaledWidth := Nat.mul_le_mul_right sh targetWide.2
  have scaledHeight := Nat.mul_le_mul_right sw targetHigh.2
  unfold coverSize at aspect
  split at aspect
  · have fits := fits_of_aspect wide high targetWide.1
      (aspect.imp And.right id)
    rw [Nat.mul_comm sh] at fits
    exact ⟨fits, by omega⟩
  · have fits := fits_of_aspect high wide targetHigh.1
      (aspect.symm.imp And.right id)
    rw [Nat.mul_comm sw] at fits
    exact ⟨by omega, fits⟩

/-- Fitting is safe exactly when a covering size of the image is a pair of
words. -/
theorem fitsSafely_iff (wide : 0 < sw ∧ sw ≤ u32Max)
    (high : 0 < sh ∧ sh ≤ u32Max) (targetWide : 0 < tw ∧ tw ≤ u32Max)
    (targetHigh : 0 < th ∧ th ≤ u32Max) :
    FitsSafely sw sh tw th ↔
      tw * sh ≤ u32Max * sw ∧ th * sw ≤ u32Max * sh := by
  constructor
  · intro safe
    exact fits_of_covering wide high targetWide targetHigh safe.covering.aspect
  · rintro ⟨heightFits, widthFits⟩
    have contained := containSize_contained wide.1 high.1 targetWide targetHigh
    have covering := coverSize_covering wide.1 high.1 targetWide.1 targetHigh.1
      heightFits widthFits
    refine ⟨contained, covering, ?_, ?_⟩
    · intro ι ops source sourceWidth sourceHeight
      simp only [fitGray8, sourceWidth, sourceHeight, Bounded.checkedSub,
        if_pos contained.within.1, if_pos contained.within.2,
        Res.orPanic_some, Res.ok_bind, Res.pure_eq]
      exact ⟨_, rfl⟩
    · intro ι ops source sourceWidth sourceHeight
      have beyond := covering.beyond
      refine ⟨((coverSize sw sh tw th).1 - tw) / 2,
        ((coverSize sw sh tw th).2 - th) / 2, by omega, by omega, ?_⟩
      simp only [fitGray8, sourceWidth, sourceHeight, Bounded.checkedSub,
        if_pos beyond.1, if_pos beyond.2, Res.orPanic_some, Res.ok_bind,
        Res.pure_eq]

/-- A narrow image over a wide target is 2 ^ 32 pixels high. -/
theorem not_fitsSafely_narrow : ¬ FitsSafely 1 65536 65536 1 := by
  intro safe
  exact absurd safe.covering.beyond.2 (by decide)

theorem fitsSafely_banner : FitsSafely 640 480 1404 1872 :=
  (fitsSafely_iff (by decide) (by decide) (by decide) (by decide)).mpr
    (by decide)

end

end RmDisplay.Cli
