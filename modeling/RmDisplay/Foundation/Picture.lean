import Mathlib.Data.Set.Piecewise
import RmDisplay.Foundation.Program

/-!
# Painting parts of a picture

A picture gives a value to every point.  Painting a region replaces the values
there and keeps the others.  The rules say how paintings compose, when one is
without effect, and that a loop whose turns paint their own regions paints the
union of them.
-/

namespace RmDisplay.Foundation

namespace Picture

open Classical in
/-- `target` with the values of `source` in `region`. -/
noncomputable def paint {ι P : Type} (region : Set ι) (source target : ι → P) :
    ι → P :=
  region.piecewise source target

variable {ι P : Type} {region other : Set ι} {source target : ι → P} {p : ι}

theorem paint_of_mem (inside : p ∈ region) :
    paint region source target p = source p := by
  classical exact Set.piecewise_eq_of_mem region source target inside

theorem paint_of_not_mem (outside : p ∉ region) :
    paint region source target p = target p := by
  classical exact Set.piecewise_eq_of_notMem region source target outside

@[simp] theorem paint_empty : paint ∅ source target = target :=
  funext fun p => paint_of_not_mem (Set.notMem_empty p)

@[simp] theorem paint_self : paint region target target = target := by
  classical exact Set.piecewise_same region target

/-- Painting one source twice paints the union. -/
theorem paint_paint :
    paint other source (paint region source target) =
      paint (region ∪ other) source target := by
  funext p
  by_cases inOther : p ∈ other
  · rw [paint_of_mem inOther, paint_of_mem (Set.mem_union_right _ inOther)]
  · rw [paint_of_not_mem inOther]
    by_cases inRegion : p ∈ region
    · rw [paint_of_mem inRegion, paint_of_mem (Set.mem_union_left _ inRegion)]
    · rw [paint_of_not_mem inRegion, paint_of_not_mem (by
        rintro (isIn | isIn)
        · exact inRegion isIn
        · exact inOther isIn)]

theorem paint_paint_of_subset {first second : ι → P} (covered : region ⊆ other) :
    paint other second (paint region first target) =
      paint other second target := by
  funext p
  by_cases inOther : p ∈ other
  · rw [paint_of_mem inOther, paint_of_mem inOther]
  · rw [paint_of_not_mem inOther, paint_of_not_mem inOther,
      paint_of_not_mem (fun isIn => inOther (covered isIn))]

theorem paint_eq_source (covers : ∀ p, source p ≠ target p → p ∈ region) :
    paint region source target = source := by
  funext p
  by_cases inside : p ∈ region
  · exact paint_of_mem inside
  · rw [paint_of_not_mem inside]
    by_contra differ
    exact inside (covers p fun same => differ same.symm)

/-- The pictures differ at most inside the region. -/
def AgreeOff (region : Set ι) (left right : ι → P) : Prop :=
  ∀ p ∉ region, left p = right p

namespace AgreeOff

variable {left middle right : ι → P}

theorem refl (region : Set ι) (picture : ι → P) :
    AgreeOff region picture picture := fun _ _ => rfl

theorem mono (agree : AgreeOff region left right) (wider : region ⊆ other) :
    AgreeOff other left right :=
  fun p outside => agree p fun inside => outside (wider inside)

theorem eq_of_empty (agree : AgreeOff ∅ left right) : left = right :=
  funext fun p => agree p (Set.notMem_empty p)

/-- Painting the view into a picture that differs from it in a region leaves
what was not painted. -/
theorem paint_source (agree : AgreeOff other target source) :
    AgreeOff (other \ region) (Picture.paint region source target) source := by
  intro p outside
  by_cases inside : p ∈ region
  · exact paint_of_mem inside
  · rw [paint_of_not_mem inside]
    exact agree p fun isIn => outside ⟨isIn, inside⟩

theorem paint_eq (agree : AgreeOff region source target) :
    Picture.paint region source target = source := by
  refine paint_eq_source fun p differ => ?_
  by_contra outside
  exact differ (agree p outside)

end AgreeOff

/-- A loop paints the union of the regions its turns paint.  A turn may rely
on everything outside the regions already painted being as it was. -/
theorem foldlM_paint {σ β ε : Type} {step : σ → β → Res ε σ}
    (view : σ → ι → P) (kept : σ → Prop) (part : β → Set ι) (source : ι → P)
    (items : List β) (start : σ) (atStart : kept start)
    (turn : ∀ (done : List β) (item : β) (rest : List β) (state : σ),
      items = done ++ item :: rest → kept state →
        (view state = paint {p | ∃ earlier ∈ done, p ∈ part earlier} source
          (view start)) →
        ∃ next, step state item = .ok next ∧ kept next ∧
          view next = paint (part item) source (view state)) :
    ∃ final, items.foldlM step start = .ok final ∧ kept final ∧
      view final = paint {p | ∃ item ∈ items, p ∈ part item} source
        (view start) := by
  obtain ⟨final, finished, holds⟩ := Res.foldlM_ok
    (fun done state => kept state ∧
      view state = paint {p | ∃ earlier ∈ done, p ∈ part earlier} source
        (view start)) items start
    ⟨atStart, by simp⟩ (by
      rintro done item rest state split ⟨keeps, painted⟩
      obtain ⟨next, stepped, keptNext, nextView⟩ :=
        turn done item rest state split keeps painted
      refine ⟨next, stepped, keptNext, ?_⟩
      rw [nextView, painted, paint_paint]
      congr 1
      ext p
      simp [or_and_right, exists_or])
  exact ⟨final, finished, holds.1, holds.2⟩

end Picture

end RmDisplay.Foundation
