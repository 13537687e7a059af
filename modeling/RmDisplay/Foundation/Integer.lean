import Mathlib.Algebra.BigOperators.Group.List.Basic
import Mathlib.Algebra.Order.Ring.Int

/-!
# Bounded machine arithmetic on natural numbers

Unsigned machine words are natural numbers.  The operations below make the
bound of a word explicit where a program asks for it: checked operations have
no result past the bound, saturating operations stop at it.
-/

namespace RmDisplay.Foundation

/-- Largest 16-bit word. -/
def u16Max : Nat := 2 ^ 16 - 1

/-- Largest 32-bit word. -/
def u32Max : Nat := 2 ^ 32 - 1

/-- Largest 64-bit word, also the largest index. -/
def u64Max : Nat := 2 ^ 64 - 1

namespace Bounded

/-- A result that a signed 64-bit word can hold. -/
def signed (value : Int) : Option Int :=
  if -2 ^ 63 ≤ value ∧ value < 2 ^ 63 then some value else none

theorem signed_eq {value : Int} (lower : -2 ^ 63 ≤ value)
    (upper : value < 2 ^ 63) : signed value = some value := by
  rw [signed, if_pos ⟨lower, upper⟩]

theorem signed_eq_some {value word : Int} (fits : signed value = some word) :
    word = value := by
  unfold signed at fits
  split at fits
  · cases fits
    rfl
  · cases fits

def checkedAdd (bound left right : Nat) : Option Nat :=
  if left + right ≤ bound then some (left + right) else none

def checkedMul (bound left right : Nat) : Option Nat :=
  if left * right ≤ bound then some (left * right) else none

def checkedSub (left right : Nat) : Option Nat :=
  if right ≤ left then some (left - right) else none

def saturatingAdd (bound left right : Nat) : Nat := min (left + right) bound

def saturatingMul (bound left right : Nat) : Nat := min (left * right) bound

/-- Add one and wrap around to zero past the bound. -/
def wrappingSucc (bound value : Nat) : Nat := (value + 1) % (bound + 1)

theorem checkedAdd_eq_some {bound left right total : Nat} :
    checkedAdd bound left right = some total ↔
      total = left + right ∧ left + right ≤ bound := by
  unfold checkedAdd
  split
  · rename_i fits
    simp [fits, eq_comm]
  · rename_i exceeds
    simp [exceeds]

theorem checkedMul_eq_some {bound left right total : Nat} :
    checkedMul bound left right = some total ↔
      total = left * right ∧ left * right ≤ bound := by
  unfold checkedMul
  split
  · rename_i fits
    simp [fits, eq_comm]
  · rename_i exceeds
    simp [exceeds]

theorem checkedSub_eq_some {left right rest : Nat} :
    checkedSub left right = some rest ↔ rest = left - right ∧ right ≤ left := by
  unfold checkedSub
  split
  · rename_i fits
    simp [fits, eq_comm]
  · rename_i below
    simp [below]

end Bounded

end RmDisplay.Foundation
