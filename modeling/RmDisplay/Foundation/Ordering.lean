import Mathlib.Data.List.Sort
import Mathlib.Data.List.TakeWhile
import Mathlib.Order.Defs.LinearOrder

/-!
# Sorting by a key

Sorting is stable: what is in order already keeps its order, also when other
items come between.  An ordered list is cut at a bound.  The first item of each
kind of an ordered list is the least of its kind, and the list of these depends
on nothing but the items that occur.
-/

namespace RmDisplay.Foundation

variable {α β κ : Type} [LinearOrder κ] {key : α → κ} {items more : List α}
  {bound : κ}

/-- The keys do not decrease. -/
def Ordered (key : α → κ) (items : List α) : Prop :=
  items.Pairwise fun first second => key first ≤ key second

/-- The items in the order of their keys. -/
def sortByKey (key : α → κ) (items : List α) : List α :=
  items.insertionSort fun first second => key first ≤ key second

theorem sortByKey_perm (key : α → κ) (items : List α) :
    (sortByKey key items).Perm items :=
  List.perm_insertionSort _ items

theorem mem_sortByKey {item : α} :
    item ∈ sortByKey key items ↔ item ∈ items :=
  (sortByKey_perm key items).mem_iff

section

private instance keyTotal (key : α → κ) :
    Std.Total fun first second => key first ≤ key second :=
  ⟨fun first second => le_total (key first) (key second)⟩

private instance keyTrans (key : α → κ) :
    IsTrans α fun first second => key first ≤ key second :=
  ⟨fun _ _ _ first second => le_trans first second⟩

theorem sortByKey_ordered (key : α → κ) (items : List α) :
    Ordered key (sortByKey key items) :=
  List.pairwise_insertionSort _ items

theorem filter_sortByKey {chosen : α → Bool}
    (ordered : Ordered key (items.filter chosen)) :
    (sortByKey key items).filter chosen = items.filter chosen := by
  have inside : (items.filter chosen).Sublist (sortByKey key items) :=
    List.sublist_insertionSort ordered List.filter_sublist
  have chosenInside := inside.filter chosen
  simp only [List.filter_filter, Bool.and_self] at chosenInside
  apply Eq.symm
  apply chosenInside.eq_of_length
  exact ((sortByKey_perm key items).filter chosen).length_eq.symm

theorem filterMap_sortByKey {part : α → Option β}
    (ordered : Ordered key (items.filter (part · |>.isSome))) :
    (sortByKey key items).filterMap part = items.filterMap part := by
  have parts (others : List α) : others.filterMap part =
      (others.filter (part · |>.isSome)).filterMap part := by
    rw [List.filterMap_filter]
    congr 1
    funext item
    cases part item <;> simp
  rw [parts, filter_sortByKey ordered, ← parts]

end

theorem Ordered.tail {item : α} (ordered : Ordered key (item :: items)) :
    Ordered key items :=
  (List.pairwise_cons.mp ordered).2

theorem Ordered.append (first : Ordered key items) (second : Ordered key more)
    (across : ∀ item ∈ items, ∀ later ∈ more, key item ≤ key later) :
    Ordered key (items ++ more) :=
  List.pairwise_append.mpr ⟨first, second, across⟩

theorem le_of_mem_takeWhile {item : α}
    (member : item ∈ items.takeWhile (key · ≤ bound)) : key item ≤ bound := by
  simpa using List.mem_takeWhile_imp member

/-- Everything after the cut is beyond the bound. -/
theorem Ordered.lt_of_mem_dropWhile (ordered : Ordered key items) {item : α}
    (member : item ∈ items.dropWhile (key · ≤ bound)) : bound < key item := by
  induction items with
  | nil => cases member
  | cons first rest induction =>
      rw [List.dropWhile_cons] at member
      split at member
      · exact induction ordered.tail member
      · rename_i beyond
        have firstBeyond : bound < key first := by simpa using beyond
        rcases List.mem_cons.mp member with rfl | later
        · exact firstBeyond
        · have after := (List.pairwise_cons.mp ordered).1 item later
          exact lt_of_lt_of_le firstBeyond after

section

variable {τ : Type} [DecidableEq τ] {kind : α → τ} {seen : List τ} {item : α}

/-- Keep the items of a kind that was not seen before. -/
def retainFirst (kind : α → τ) : List τ → List α → List α
  | _, [] => []
  | seen, item :: items =>
      if kind item ∈ seen then retainFirst kind seen items
      else item :: retainFirst kind (kind item :: seen) items

theorem retainFirst_sublist (seen : List τ) (items : List α) :
    (retainFirst kind seen items).Sublist items := by
  induction items generalizing seen with
  | nil => exact .slnil
  | cons item items induction =>
      rw [retainFirst]
      split
      · exact (induction seen).cons item
      · exact (induction _).cons_cons item

theorem kind_not_seen (member : item ∈ retainFirst kind seen items) :
    kind item ∉ seen := by
  induction items generalizing seen with
  | nil => cases member
  | cons first items induction =>
      rw [retainFirst] at member
      split at member
      · exact induction member
      · rename_i fresh
        rcases List.mem_cons.mp member with rfl | later
        · exact fresh
        · exact fun isSeen => induction later (List.mem_cons_of_mem _ isSeen)

theorem retainFirst_nodup (seen : List τ) (items : List α) :
    ((retainFirst kind seen items).map kind).Nodup := by
  induction items generalizing seen with
  | nil => exact .nil
  | cons item items induction =>
      rw [retainFirst]
      split
      · exact induction seen
      · rw [List.map_cons, List.nodup_cons]
        refine ⟨fun again => ?_, induction _⟩
        obtain ⟨other, member, same⟩ := List.mem_map.mp again
        exact kind_not_seen member (same ▸ List.mem_cons_self)

theorem exists_retainFirst (ordered : Ordered key items)
    (member : item ∈ items) (fresh : kind item ∉ seen) :
    ∃ kept ∈ retainFirst kind seen items, kind kept = kind item ∧
      key kept ≤ key item := by
  induction items generalizing seen with
  | nil => cases member
  | cons first items induction =>
      have before := (List.pairwise_cons.mp ordered).1
      rw [retainFirst]
      rcases List.mem_cons.mp member with rfl | later
      · rw [if_neg fresh]
        exact ⟨item, List.mem_cons_self, rfl, le_refl _⟩
      · split
        · exact induction ordered.tail later fresh
        · by_cases same : kind item = kind first
          · exact ⟨first, List.mem_cons_self, same.symm, before item later⟩
          · obtain ⟨kept, isKept, found⟩ := @induction (kind first :: seen)
              ordered.tail later (by simp [same, fresh])
            exact ⟨kept, List.mem_cons_of_mem _ isKept, found⟩

/-- The first item of each kind in the order of the keys. -/
def leastOfKinds (key : α → κ) (kind : α → τ) (items : List α) : List α :=
  retainFirst kind [] (sortByKey key items)

theorem leastOfKinds_ordered (key : α → κ) (kind : α → τ) (items : List α) :
    Ordered key (leastOfKinds key kind items) :=
  (sortByKey_ordered key items).sublist (retainFirst_sublist _ _)

theorem exists_leastOfKinds (key : α → κ) (kind : α → τ)
    (member : item ∈ items) :
    ∃ kept ∈ leastOfKinds key kind items, kind kept = kind item ∧
      key kept ≤ key item :=
  exists_retainFirst (sortByKey_ordered key items) (mem_sortByKey.mpr member)
    List.not_mem_nil

/-- Where the key tells items apart, what is kept is the least of each kind. -/
theorem mem_leastOfKinds
    (apart : ∀ left ∈ items, ∀ right ∈ items, key left = key right →
      left = right) :
    item ∈ leastOfKinds key kind items ↔ item ∈ items ∧
      ∀ other ∈ items, kind other = kind item → key item ≤ key other := by
  have occurs {kept : α} (member : kept ∈ leastOfKinds key kind items) :
      kept ∈ items :=
    mem_sortByKey.mp ((retainFirst_sublist _ _).subset member)
  constructor
  · intro member
    refine ⟨occurs member, fun other isItem same => ?_⟩
    obtain ⟨kept, isKept, sameKind, before⟩ :=
      exists_leastOfKinds key kind isItem
    have alike : kept = item :=
      List.inj_on_of_nodup_map (retainFirst_nodup _ _) isKept member
        (sameKind.trans same)
    exact alike ▸ before
  · rintro ⟨isItem, first⟩
    obtain ⟨kept, isKept, sameKind, before⟩ :=
      exists_leastOfKinds key kind isItem
    have alike : kept = item := apart kept (occurs isKept) item isItem
      (le_antisymm before (first kept (occurs isKept) sameKind))
    exact alike ▸ isKept

/-- The least of each kind do not depend on the order of the items or on how
often one occurs. -/
theorem leastOfKinds_congr
    (apart : ∀ left ∈ items, ∀ right ∈ items, key left = key right →
      left = right)
    (same : ∀ item, item ∈ more ↔ item ∈ items) :
    leastOfKinds key kind more = leastOfKinds key kind items := by
  have apartMore : ∀ left ∈ more, ∀ right ∈ more, key left = key right →
      left = right := fun left isLeft right isRight =>
    apart left ((same left).mp isLeft) right ((same right).mp isRight)
  have members (item : α) : item ∈ leastOfKinds key kind more ↔
      item ∈ leastOfKinds key kind items := by
    rw [mem_leastOfKinds apartMore, mem_leastOfKinds apart]
    simp only [same]
  apply List.Perm.eq_of_pairwise _ (leastOfKinds_ordered key kind more)
    (leastOfKinds_ordered key kind items)
  · apply (List.perm_ext_iff_of_nodup _ _).mpr members
    · exact (retainFirst_nodup _ _).of_map
    · exact (retainFirst_nodup _ _).of_map
  · intro left right isLeft isRight before after
    exact apart left (mem_leastOfKinds apart |>.mp ((members left).mp isLeft)).1
      right (mem_leastOfKinds apart |>.mp isRight).1 (le_antisymm before after)

end

end RmDisplay.Foundation
