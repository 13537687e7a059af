import Mathlib.Logic.Relation

/-!
# Merging neighbours

Two neighbours of a list are merged into one item, over and over.  If merging
gives an upper bound, every item of the beginning lies within one of the end.
-/

namespace RmDisplay.Foundation

variable {α : Type} {within : α → α → Prop} {join : α → α → α}
  {items middle clusters : List α}

/-- Every item lies within a cluster. -/
def Holds (within : α → α → Prop) (clusters items : List α) : Prop :=
  ∀ item ∈ items, ∃ cluster ∈ clusters, within item cluster

namespace Holds

theorem refl [Std.Refl within] (items : List α) : Holds within items items :=
  fun item member => ⟨item, member, Std.Refl.refl item⟩

theorem trans [IsTrans α within] (first : Holds within middle items)
    (second : Holds within clusters middle) : Holds within clusters items := by
  intro item member
  obtain ⟨between, isMiddle, inMiddle⟩ := first item member
  obtain ⟨cluster, isCluster, inCluster⟩ := second between isMiddle
  exact ⟨cluster, isCluster, IsTrans.trans _ _ _ inMiddle inCluster⟩

end Holds

/-- Two neighbours become one item. -/
inductive Merges (join : α → α → α) : List α → List α → Prop where
  | pair (before : List α) (left right : α) (after : List α) :
      Merges join (before ++ left :: right :: after)
        (before ++ join left right :: after)

namespace Merges

theorem length (merges : Merges join items clusters) :
    clusters.length + 1 = items.length := by
  cases merges
  simp
  omega

theorem append (merges : Merges join items clusters) (rest : List α) :
    Merges join (items ++ rest) (clusters ++ rest) := by
  cases merges with
  | pair before left right after =>
      have merged := @Merges.pair _ join before left right (after ++ rest)
      simpa using merged

theorem cons (merges : Merges join items clusters) (first : α) :
    Merges join (first :: items) (first :: clusters) := by
  cases merges with
  | pair before left right after => exact .pair (first :: before) left right after

theorem of_getElem? {index : Nat} {left right : α}
    (isLeft : items[index]? = some left)
    (isRight : items[index + 1]? = some right) :
    Merges join items
      ((items.set index (join left right)).eraseIdx (index + 1)) := by
  induction items generalizing index with
  | nil => cases isLeft
  | cons first items induction =>
      cases index with
      | zero =>
          cases isLeft
          cases items with
          | nil => cases isRight
          | cons second items =>
              cases isRight
              exact .pair [] left right items
      | succ index => exact (induction isLeft isRight).cons first

variable {good : α → Prop}

/-- What merging keeps of two items it keeps of all. -/
theorem keeps (merges : Merges join items clusters)
    (kept : ∀ left right, good left → good right → good (join left right))
    (all : ∀ item ∈ items, good item) : ∀ cluster ∈ clusters, good cluster := by
  cases merges with
  | pair before left right after =>
      intro cluster member
      simp only [List.mem_append, List.mem_cons] at all member
      rcases member with early | rfl | late
      · exact all cluster (.inl early)
      · exact kept left right (all left (by simp)) (all right (by simp))
      · exact all cluster (.inr (.inr (.inr late)))

theorem holds [Std.Refl within] (merges : Merges join items clusters)
    (upper : ∀ left right, good left → good right →
      within left (join left right) ∧ within right (join left right))
    (all : ∀ item ∈ items, good item) : Holds within clusters items := by
  cases merges with
  | pair before left right after =>
      have bounds := upper left right (all left (by simp)) (all right (by simp))
      intro item member
      simp only [List.mem_append, List.mem_cons] at member ⊢
      rcases member with early | rfl | rfl | late
      · exact ⟨item, .inl early, Std.Refl.refl item⟩
      · exact ⟨_, .inr (.inl rfl), bounds.1⟩
      · exact ⟨_, .inr (.inl rfl), bounds.2⟩
      · exact ⟨item, .inr (.inr late), Std.Refl.refl item⟩

end Merges

/-- Neighbours were merged any number of times. -/
abbrev Merging (join : α → α → α) : List α → List α → Prop :=
  Relation.ReflTransGen (Merges join)

namespace Merging

theorem append (merging : Merging join items clusters) (rest : List α) :
    Merging join (items ++ rest) (clusters ++ rest) := by
  induction merging with
  | refl => exact .refl
  | tail _ merges induction => exact induction.tail (merges.append rest)

theorem ne_nil (merging : Merging join items clusters) (some : items ≠ []) :
    clusters ≠ [] := by
  induction merging with
  | refl => exact some
  | tail _ merges _ =>
      cases merges
      simp

variable {good : α → Prop}

theorem keeps (merging : Merging join items clusters)
    (kept : ∀ left right, good left → good right → good (join left right))
    (all : ∀ item ∈ items, good item) : ∀ cluster ∈ clusters, good cluster := by
  induction merging with
  | refl => exact all
  | tail _ merges induction => exact merges.keeps kept induction

/-- Nothing falls out of the clusters. -/
theorem holds [Std.Refl within] [IsTrans α within]
    (merging : Merging join items clusters)
    (kept : ∀ left right, good left → good right → good (join left right))
    (upper : ∀ left right, good left → good right →
      within left (join left right) ∧ within right (join left right))
    (all : ∀ item ∈ items, good item) : Holds within clusters items := by
  induction merging with
  | refl => exact .refl items
  | tail merging merges induction =>
      exact induction.trans (merges.holds upper (Merging.keeps merging kept all))

end Merging

end RmDisplay.Foundation
