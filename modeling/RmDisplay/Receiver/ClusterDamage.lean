import Mathlib.Data.List.MinMax
import Mathlib.Data.Prod.Lex
import RmDisplay.Foundation.Merging
import RmDisplay.Foundation.Ordering
import RmDisplay.Protocol.SemanticSpec

/-!
# Clusters of damage

A batch that is given to the panel has a limited number of regions.  Damage is
sorted, and rectangles are united with their neighbours where that adds no
pixels; then, while there are too many, where it adds the fewest.
-/

namespace RmDisplay.Receiver

open Foundation Protocol

def maxBatchRegions : Nat := 32

def sparseSwapCostPixels : Nat := 8192

def rectPixels (rects : List Rect) : Nat :=
  rects.foldl (fun total rect =>
    Bounded.saturatingAdd u64Max total (rect.width * rect.height)) 0

def useSparseDamage (regionCount submittedPixels unionPixels : Nat)
    (completeRefresh : Bool) : Bool :=
  !completeRefresh && decide (2 ≤ regionCount) &&
    decide (Bounded.saturatingAdd u64Max submittedPixels
      (Bounded.saturatingMul u64Max regionCount sparseSwapCostPixels) <
        unionPixels)

def unionPair (left right : Rect) : Rect :=
  let x := min left.x right.x
  let y := min left.y right.y
  let farX := max (Bounded.saturatingAdd u32Max left.x left.width)
    (Bounded.saturatingAdd u32Max right.x right.width)
  let farY := max (Bounded.saturatingAdd u32Max left.y left.height)
    (Bounded.saturatingAdd u32Max right.y right.height)
  ⟨x, y, farX - x, farY - y⟩

/-- The sides of a rectangle. -/
structure Sides where
  left : Nat
  top : Nat
  right : Nat
  bottom : Nat

namespace Sides

def rect (self : Sides) : Rect :=
  ⟨self.left, self.top, self.right - self.left, self.bottom - self.top⟩

/-- Sums of 32-bit words; past that bound the program panics. -/
def of (rect : Rect) : Res Empty Sides := do
  let right ← Res.orPanic (Bounded.checkedAdd u32Max rect.x rect.width)
  let bottom ← Res.orPanic (Bounded.checkedAdd u32Max rect.y rect.height)
  return ⟨rect.x, rect.y, right, bottom⟩

def grow (self : Sides) (rect : Rect) : Res Empty Sides := do
  let other ← of rect
  return ⟨min self.left other.left, min self.top other.top,
    max self.right other.right, max self.bottom other.bottom⟩

end Sides

def unionDamage (rects : List Rect) : Res Empty (Option Rect) :=
  match rects with
  | [] => .ok none
  | first :: rest => do
      let sides ← Sides.of first
      let sides ← rest.foldlM Sides.grow sides
      return some sides.rect

/-- Unite the rectangle with the last cluster where that adds no pixels. -/
def addCluster (clusters : List Rect) (rect : Rect) : List Rect :=
  match clusters.getLast? with
  | some last =>
      let combined := unionPair last rect
      if rectPixels [combined] ≤ Bounded.saturatingAdd u64Max
          (rectPixels [last]) (rectPixels [rect]) then
        clusters.dropLast ++ [combined]
      else clusters ++ [rect]
  | none => clusters ++ [rect]

/-- Every pair of neighbours with its number, its union and the pixels that
uniting it adds. -/
def neighbours (clusters : List Rect) : List (Nat × Rect × Nat) :=
  (clusters.zip clusters.tail).zipIdx.map fun ((left, right), index) =>
    let combined := unionPair left right
    (index, combined, rectPixels [combined] - rectPixels [left, right])

/-- Unite the neighbours that add the fewest pixels, the first ones of them. -/
def mergeCheapest (clusters : List Rect) : Option (List Rect) :=
  (List.argmin (·.2.2) (neighbours clusters)).map fun (index, combined, _) =>
    (clusters.set index combined).eraseIdx (index + 1)

def sortedDamage (rects : List Rect) : List Rect :=
  sortByKey (fun rect =>
    toLex (rect.y, toLex (rect.x, toLex (rect.height, rect.width)))) rects

theorem mergeCheapest_merges {clusters merged : List Rect}
    (cheapest : mergeCheapest clusters = some merged) :
    Merges unionPair clusters merged := by
  obtain ⟨⟨index, combined, added⟩, least, rfl⟩ :=
    Option.map_eq_some_iff.mp cheapest
  have member := List.argmin_mem least
  obtain ⟨⟨⟨left, right⟩, position⟩, isPair, same⟩ := List.mem_map.mp member
  cases same
  rw [List.mem_zipIdx_iff_getElem?, List.getElem?_zip_eq_some] at isPair
  obtain ⟨isLeft, isRight⟩ := isPair
  rw [List.getElem?_tail] at isRight
  exact .of_getElem? isLeft isRight

theorem mergeCheapest_isSome {clusters : List Rect}
    (several : 2 ≤ clusters.length) :
    ∃ merged, mergeCheapest clusters = some merged := by
  have pairs : neighbours clusters ≠ [] := by
    rw [← List.length_pos_iff, neighbours, List.length_map,
      List.length_zipIdx, List.length_zip, List.length_tail]
    omega
  cases least : List.argmin (·.2.2) (neighbours clusters) with
  | none => exact absurd (List.argmin_eq_none.mp least) pairs
  | some entry =>
      rw [mergeCheapest, least]
      exact ⟨_, rfl⟩

/-- There is a pair to unite as long as there is more than one cluster. -/
def mergeDown (limit : Nat) (clusters : List Rect) : Res Empty (List Rect) :=
  if limit < clusters.length then
    match cheapest : mergeCheapest clusters with
    | none => .panic
    | some merged =>
        have _shorter := (mergeCheapest_merges cheapest).length
        mergeDown limit merged
  else .ok clusters
termination_by clusters.length

def clusterDamage (rects : List Rect) (limit : Nat) : Res Empty (List Rect) :=
  if limit = 0 then .ok []
  else mergeDown limit ((sortedDamage rects).foldl addCluster [])

theorem addCluster_merging (clusters : List Rect) (rect : Rect) :
    Merging unionPair (clusters ++ [rect]) (addCluster clusters rect) := by
  unfold addCluster
  split
  · rename_i last isLast
    dsimp only
    split
    · obtain ⟨front, rfl⟩ := List.getLast?_eq_some_iff.mp isLast
      rw [List.dropLast_concat, List.append_assoc]
      exact .single (.pair front last rect [])
    · exact .refl
  · exact .refl

theorem foldl_addCluster_merging (rects clusters : List Rect) :
    Merging unionPair (clusters ++ rects) (rects.foldl addCluster clusters) := by
  induction rects generalizing clusters with
  | nil =>
      rw [List.append_nil]
      exact .refl
  | cons rect rects induction =>
      have first := (addCluster_merging clusters rect).append rects
      rw [List.append_assoc] at first
      exact first.trans (induction (addCluster clusters rect))

/-- The loop ends with few enough clusters. -/
theorem mergeDown_merging {limit : Nat} (someLimit : 0 < limit)
    (clusters : List Rect) :
    ∃ merged, mergeDown limit clusters = .ok merged ∧
      merged.length ≤ limit ∧ Merging unionPair clusters merged := by
  induction count : clusters.length using Nat.strongRecOn
    generalizing clusters with
  | ind count induction =>
      rw [mergeDown]
      split
      · rename_i tooMany
        obtain ⟨next, cheapest⟩ :=
          @mergeCheapest_isSome clusters (by omega)
        have merges := mergeCheapest_merges cheapest
        have length := merges.length
        obtain ⟨merged, computed, few, merging⟩ :=
          induction next.length (by omega) next rfl
        refine ⟨merged, ?_, few, merging.head merges⟩
        split
        · rename_i none
          rw [none] at cheapest
          cases cheapest
        · rename_i other same
          rw [same] at cheapest
          cases cheapest
          exact computed
      · rename_i few
        exact ⟨clusters, rfl, Nat.le_of_not_lt few, .refl⟩

/-- One rectangle lies within the other. -/
structure Within (inner outer : Rect) : Prop where
  left : outer.x ≤ inner.x
  top : outer.y ≤ inner.y
  right : inner.x + inner.width ≤ outer.x + outer.width
  bottom : inner.y + inner.height ≤ outer.y + outer.height

instance : Std.Refl Within :=
  ⟨fun _ => ⟨Nat.le_refl _, Nat.le_refl _, Nat.le_refl _, Nat.le_refl _⟩⟩

instance : IsTrans Rect Within :=
  ⟨fun _ _ _ first second => ⟨Nat.le_trans second.left first.left,
    Nat.le_trans second.top first.top, Nat.le_trans first.right second.right,
    Nat.le_trans first.bottom second.bottom⟩⟩

theorem Within.covers {inner outer : Rect} {x y : Nat}
    (within : Within inner outer) (covers : inner.Covers x y) :
    outer.Covers x y := by
  obtain ⟨left, top, right, bottom⟩ := within
  obtain ⟨⟨_, _⟩, _, _⟩ := covers
  refine ⟨⟨?_, ?_⟩, ?_, ?_⟩ <;> omega

/-- Clusters cover every pixel of the rectangles that lie within them. -/
theorem Holds.covered {clusters rects : List Rect} {x y : Nat}
    (holds : Holds Within clusters rects) (covers : Covered rects x y) :
    Covered clusters x y := by
  obtain ⟨rect, member, inRect⟩ := covers
  obtain ⟨cluster, isCluster, within⟩ := holds rect member
  exact ⟨cluster, isCluster, within.covers inRect⟩

section

variable {width height : Nat} {left right outer : Rect}

theorem unionPair_eq (wide : width ≤ u32Max) (high : height ≤ u32Max)
    (leftInside : left.Inside width height)
    (rightInside : right.Inside width height) :
    unionPair left right = ⟨min left.x right.x, min left.y right.y,
      max (left.x + left.width) (right.x + right.width) - min left.x right.x,
      max (left.y + left.height) (right.y + right.height) -
        min left.y right.y⟩ := by
  obtain ⟨_, _, leftRight, leftBottom⟩ := leftInside
  obtain ⟨_, _, rightRight, rightBottom⟩ := rightInside
  rw [unionPair]
  simp only [Bounded.saturatingAdd]
  rw [Nat.min_eq_left (Nat.le_trans leftRight wide),
    Nat.min_eq_left (Nat.le_trans rightRight wide),
    Nat.min_eq_left (Nat.le_trans leftBottom high),
    Nat.min_eq_left (Nat.le_trans rightBottom high)]

theorem unionPair_inside (wide : width ≤ u32Max) (high : height ≤ u32Max)
    (leftInside : left.Inside width height)
    (rightInside : right.Inside width height) :
    (unionPair left right).Inside width height := by
  rw [unionPair_eq wide high leftInside rightInside]
  obtain ⟨_, _, _, _⟩ := leftInside
  obtain ⟨_, _, _, _⟩ := rightInside
  refine ⟨?_, ?_, ?_, ?_⟩ <;> dsimp only <;> omega

theorem unionPair_upper (wide : width ≤ u32Max) (high : height ≤ u32Max)
    (leftInside : left.Inside width height)
    (rightInside : right.Inside width height) :
    Within left (unionPair left right) ∧
      Within right (unionPair left right) := by
  rw [unionPair_eq wide high leftInside rightInside]
  refine ⟨⟨?_, ?_, ?_, ?_⟩, ?_, ?_, ?_, ?_⟩ <;> dsimp only <;> omega

theorem unionPair_least (wide : width ≤ u32Max) (high : height ≤ u32Max)
    (leftInside : left.Inside width height)
    (rightInside : right.Inside width height)
    (leftWithin : Within left outer)
    (rightWithin : Within right outer) :
    Within (unionPair left right) outer := by
  rw [unionPair_eq wide high leftInside rightInside]
  obtain ⟨_, _, _, _⟩ := leftWithin
  obtain ⟨_, _, _, _⟩ := rightWithin
  refine ⟨?_, ?_, ?_, ?_⟩ <;> dsimp only <;> omega

/-- The sides are those of a rectangle of the surface. -/
structure Sides.Inside (sides : Sides) (width height : Nat) : Prop where
  wide : sides.left < sides.right
  high : sides.top < sides.bottom
  right : sides.right ≤ width
  bottom : sides.bottom ≤ height

theorem Sides.Inside.rect {sides : Sides}
    (inside : sides.Inside width height) :
    sides.rect.Inside width height := by
  obtain ⟨_, _, _, _⟩ := inside
  refine ⟨?_, ?_, ?_, ?_⟩ <;> dsimp only [Sides.rect] <;> omega

theorem Sides.of_inside {rect : Rect} (wide : width ≤ u32Max)
    (high : height ≤ u32Max) (inside : rect.Inside width height) :
    Sides.of rect = .ok ⟨rect.x, rect.y, rect.x + rect.width,
      rect.y + rect.height⟩ := by
  have right : Bounded.checkedAdd u32Max rect.x rect.width =
      some (rect.x + rect.width) :=
    Bounded.checkedAdd_eq_some.mpr ⟨rfl, Nat.le_trans inside.right wide⟩
  have bottom : Bounded.checkedAdd u32Max rect.y rect.height =
      some (rect.y + rect.height) :=
    Bounded.checkedAdd_eq_some.mpr ⟨rfl, Nat.le_trans inside.bottom high⟩
  rw [Sides.of, right, bottom]
  rfl

theorem Sides.grow_inside {sides : Sides} {rect : Rect}
    (wide : width ≤ u32Max) (high : height ≤ u32Max)
    (sidesInside : sides.Inside width height)
    (inside : rect.Inside width height) :
    ∃ grown, sides.grow rect = .ok grown ∧ grown.Inside width height ∧
      grown.rect = unionPair sides.rect rect := by
  refine ⟨_, by rw [Sides.grow, Sides.of_inside wide high inside]; rfl, ?_, ?_⟩
  · obtain ⟨_, _, _, _⟩ := inside
    obtain ⟨_, _, _, _⟩ := sidesInside
    refine ⟨?_, ?_, ?_, ?_⟩ <;> dsimp only <;> omega
  · rw [unionPair_eq wide high sidesInside.rect inside]
    obtain ⟨_, _, _, _⟩ := sidesInside
    simp only [Sides.rect]
    rw [Nat.add_sub_cancel' (by omega), Nat.add_sub_cancel' (by omega)]

/-- The loop over the damage computes its least upper bound. -/
theorem foldlM_grow {rects : List Rect} {sides : Sides}
    (wide : width ≤ u32Max) (high : height ≤ u32Max)
    (sidesInside : sides.Inside width height)
    (inside : ∀ rect ∈ rects, rect.Inside width height) :
    ∃ grown, rects.foldlM Sides.grow sides = .ok grown ∧
      grown.Inside width height ∧
      (∀ rect ∈ sides.rect :: rects, Within rect grown.rect) ∧
      ∀ outer, (∀ rect ∈ sides.rect :: rects, Within rect outer) →
        Within grown.rect outer := by
  induction rects generalizing sides with
  | nil =>
      refine ⟨sides, rfl, sidesInside, ?_, ?_⟩
      · intro rect member
        rw [List.mem_singleton.mp member]
        exact Std.Refl.refl _
      · intro outer all
        exact all sides.rect List.mem_cons_self
  | cons rect rects induction =>
      obtain ⟨first, others⟩ := List.forall_mem_cons.mp inside
      obtain ⟨next, computed, nextInside, same⟩ :=
        Sides.grow_inside wide high sidesInside first
      obtain ⟨grown, looped, grownInside, upper, least⟩ :=
        induction nextInside others
      have bounds := unionPair_upper wide high sidesInside.rect first
      rw [← same] at bounds
      obtain ⟨nextWithin, othersWithin⟩ := List.forall_mem_cons.mp upper
      refine ⟨grown, ?_, grownInside, ?_, ?_⟩
      · rw [List.foldlM_cons, computed]
        exact looped
      · intro other member
        rcases List.mem_cons.mp member with rfl | member
        · exact IsTrans.trans _ _ _ bounds.1 nextWithin
        · rcases List.mem_cons.mp member with rfl | later
          · exact IsTrans.trans _ _ _ bounds.2 nextWithin
          · exact othersWithin other later
      · intro outer all
        obtain ⟨sidesWithin, all⟩ := List.forall_mem_cons.mp all
        obtain ⟨rectWithin, all⟩ := List.forall_mem_cons.mp all
        refine least outer (List.forall_mem_cons.mpr ⟨?_, all⟩)
        rw [same]
        exact unionPair_least wide high sidesInside.rect first sidesWithin
          rectWithin

theorem unionDamage_spec {rects : List Rect} (wide : width ≤ u32Max)
    (high : height ≤ u32Max) (nonempty : rects ≠ [])
    (inside : ∀ rect ∈ rects, rect.Inside width height) :
    ∃ union, unionDamage rects = .ok (some union) ∧
      union.Inside width height ∧ (∀ rect ∈ rects, Within rect union) ∧
      ∀ outer, (∀ rect ∈ rects, Within rect outer) → Within union outer := by
  cases rects with
  | nil => exact absurd rfl nonempty
  | cons first rest =>
      obtain ⟨firstInside, restInside⟩ := List.forall_mem_cons.mp inside
      let sides : Sides := ⟨first.x, first.y, first.x + first.width,
        first.y + first.height⟩
      have sidesInside : sides.Inside width height := by
        obtain ⟨_, _, _, _⟩ := firstInside
        refine ⟨?_, ?_, ?_, ?_⟩ <;> dsimp only [sides] <;> omega
      have same : sides.rect = first := by
        simp [sides, Sides.rect]
      obtain ⟨grown, looped, grownInside, bounds⟩ :=
        foldlM_grow wide high sidesInside restInside
      rw [same] at bounds
      refine ⟨grown.rect, ?_, grownInside.rect, bounds⟩
      rw [unionDamage, Sides.of_inside wide high firstInside, Res.ok_bind,
        looped]
      rfl

/-- The pixels of the rectangles, each rectangle on its own. -/
def area (rects : List Rect) : Nat :=
  (rects.map fun rect => rect.width * rect.height).sum

theorem area_append (first second : List Rect) :
    area (first ++ second) = area first + area second := by
  simp [area]

theorem rectPixels_single {rect : Rect} (wide : width ≤ u32Max)
    (high : height ≤ u32Max) (inside : rect.Inside width height) :
    rectPixels [rect] = area [rect] := by
  obtain ⟨_, _, right, bottom⟩ := inside
  have product : rect.width * rect.height ≤ u32Max * u32Max :=
    Nat.mul_le_mul (by omega) (by omega)
  have small : u32Max * u32Max ≤ u64Max := by decide
  simp only [rectPixels, List.foldl_cons, List.foldl_nil,
    Bounded.saturatingAdd, Nat.zero_add, area, List.map_cons, List.map_nil,
    List.sum_cons, List.sum_nil, Nat.add_zero]
  exact Nat.min_eq_left (Nat.le_trans product small)

/-- Uniting with the last cluster adds no pixels. -/
theorem addCluster_area {clusters : List Rect} {rect : Rect}
    (wide : width ≤ u32Max) (high : height ≤ u32Max)
    (all : ∀ cluster ∈ clusters, cluster.Inside width height)
    (inside : rect.Inside width height) :
    area (addCluster clusters rect) ≤ area clusters + area [rect] := by
  unfold addCluster
  split
  · rename_i last isLast
    obtain ⟨front, rfl⟩ := List.getLast?_eq_some_iff.mp isLast
    have lastInside := all last (by simp)
    dsimp only
    split
    · rename_i saves
      rw [rectPixels_single wide high lastInside,
        rectPixels_single wide high inside, rectPixels_single wide high
          (unionPair_inside wide high lastInside inside)] at saves
      have saved := Nat.le_trans saves (Nat.min_le_left _ _)
      rw [List.dropLast_concat, area_append, area_append]
      omega
    · rw [area_append]
  · rw [area_append]

theorem foldl_addCluster_area {rects clusters : List Rect}
    (wide : width ≤ u32Max) (high : height ≤ u32Max)
    (all : ∀ cluster ∈ clusters, cluster.Inside width height)
    (inside : ∀ rect ∈ rects, rect.Inside width height) :
    area (rects.foldl addCluster clusters) ≤ area clusters + area rects := by
  induction rects generalizing clusters with
  | nil => exact Nat.le_add_right _ _
  | cons rect rects induction =>
      obtain ⟨first, others⟩ := List.forall_mem_cons.mp inside
      have kept := (addCluster_merging clusters rect).keeps
        (fun _ _ => unionPair_inside wide high) (by
          intro cluster member
          rcases List.mem_append.mp member with old | new
          · exact all cluster old
          · rw [List.mem_singleton.mp new]
            exact first)
      have next := addCluster_area wide high all first
      have rest := induction kept others
      have whole : area (rect :: rects) = area [rect] + area rects :=
        area_append [rect] rects
      rw [List.foldl_cons]
      omega

theorem area_sortedDamage (rects : List Rect) :
    area (sortedDamage rects) = area rects :=
  ((sortByKey_perm _ rects).map _).sum_nat

end

/-- The clusters before any are united for the sake of the limit. -/
def greedyClusters (rects : List Rect) : List Rect :=
  (sortedDamage rects).foldl addCluster []

/-- Few clusters that hold all of the damage, and lie within its union. -/
structure Clustered (damage : List Rect) (limit : Nat) (union : Rect)
    (clusters : List Rect) : Prop where
  nonempty : 1 ≤ clusters.length
  few : clusters.length ≤ limit
  within : ∀ cluster ∈ clusters, Within cluster union
  holds : Holds Within clusters damage
  covers : ∀ x y, Covered damage x y → Covered clusters x y

theorem clusterDamage_spec {width height limit : Nat} {damage : List Rect}
    {union : Rect} (wide : width ≤ u32Max) (high : height ≤ u32Max)
    (nonempty : damage ≠ [])
    (inside : ∀ rect ∈ damage, rect.Inside width height)
    (united : ∀ rect ∈ damage, Within rect union) (someLimit : 1 ≤ limit) :
    ∃ clusters, clusterDamage damage limit = .ok clusters ∧
      Clustered damage limit union clusters ∧
      area (greedyClusters damage) ≤ area damage ∧
      ((greedyClusters damage).length ≤ limit →
        clusters = greedyClusters damage) := by
  have sorted {rect : Rect} : rect ∈ sortedDamage damage ↔ rect ∈ damage :=
    mem_sortByKey
  have greedy : Merging unionPair (sortedDamage damage)
      (greedyClusters damage) := foldl_addCluster_merging _ []
  obtain ⟨clusters, computed, few, merged⟩ :=
    mergeDown_merging someLimit (greedyClusters damage)
  have merging := greedy.trans merged
  let good (rect : Rect) : Prop := rect.Inside width height ∧ Within rect union
  have kept (left right : Rect) (goodLeft : good left) (goodRight : good right) :
      good (unionPair left right) :=
    ⟨unionPair_inside wide high goodLeft.1 goodRight.1,
      unionPair_least wide high goodLeft.1 goodRight.1 goodLeft.2 goodRight.2⟩
  have upper (left right : Rect) (goodLeft : good left)
      (goodRight : good right) :=
    unionPair_upper wide high goodLeft.1 goodRight.1
  have all : ∀ rect ∈ sortedDamage damage, good rect := fun rect member =>
    ⟨inside rect (sorted.mp member), united rect (sorted.mp member)⟩
  have holds : Holds Within clusters damage := fun rect member =>
    Merging.holds merging kept upper all rect (sorted.mpr member)
  refine ⟨clusters, ?_, ⟨?_, few, ?_, holds, fun _ _ => Holds.covered holds⟩,
    ?_, ?_⟩
  · rw [clusterDamage, if_neg (by omega)]
    exact computed
  · apply List.length_pos_iff.mpr
    apply Merging.ne_nil merging
    intro empty
    obtain ⟨rect, member⟩ := List.exists_mem_of_ne_nil damage nonempty
    rw [← sorted, empty] at member
    cases member
  · intro cluster member
    exact (Merging.keeps merging kept all cluster member).2
  · have total := foldl_addCluster_area wide high (List.forall_mem_nil _)
      fun rect member => (all rect member).1
    rw [area_sortedDamage] at total
    exact Nat.le_trans total (Nat.le_of_eq (Nat.zero_add _))
  · intro fits
    rw [mergeDown, if_neg (Nat.not_lt.mpr fits)] at computed
    exact (Res.ok.inj computed).symm

end RmDisplay.Receiver
