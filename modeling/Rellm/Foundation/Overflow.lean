import Mathlib.Algebra.Ring.Int.Defs

/-!
# Arithmetic that may overflow

A computed value as an integer of a fixed width, if it is one.
-/

namespace Rellm.Foundation

/-- An `i32` with a value, or none where it overflows. -/
def checked32 (value : Int) : Option Int32 :=
  if -2 ^ 31 ≤ value ∧ value < 2 ^ 31 then some (Int32.ofInt value) else none

/-- An `i64` with a value, or none where it overflows. -/
def checked64 (value : Int) : Option Int64 :=
  if -2 ^ 63 ≤ value ∧ value < 2 ^ 63 then some (Int64.ofInt value) else none

theorem checked64_toInt (number : Int64) : checked64 number.toInt = some number := by
  unfold checked64
  rw [if_pos ⟨number.le_toInt, number.toInt_lt⟩, Int64.ofInt_toInt]

theorem checked32_of_bounds (value : Int) (h : -2 ^ 31 ≤ value) (h' : value < 2 ^ 31) :
    ∃ number, checked32 value = some number ∧ number.toInt = value := by
  refine ⟨Int32.ofInt value, if_pos ⟨h, h'⟩, ?_⟩
  exact Int32.toInt_ofInt_of_le h h'

theorem checked64_of_bounds (value : Int) (h : -2 ^ 63 ≤ value) (h' : value < 2 ^ 63) :
    ∃ number, checked64 value = some number ∧ number.toInt = value := by
  refine ⟨Int64.ofInt value, if_pos ⟨h, h'⟩, ?_⟩
  exact Int64.toInt_ofInt_of_le h h'

theorem checked64_eq_none_iff {value : Int} :
    checked64 value = none ↔ ¬ (-2 ^ 63 ≤ value ∧ value < 2 ^ 63) := by
  unfold checked64
  split
  · rename_i h
    exact iff_of_false nofun (not_not.mpr h)
  · rename_i h
    exact iff_of_true rfl h

/-- A count without a sign keeps its value in a signed column exactly below half of its range. -/
theorem toInt_toInt32_eq_iff {value : UInt32} :
    value.toInt32.toInt = value.toNat ↔ value.toNat < 2147483648 := by
  have hlt := value.toNat_lt
  have hvalue : value.toInt32.toInt =
      if 2 * value.toNat < 4294967296 then (value.toNat : Int) else value.toNat - 4294967296 :=
    BitVec.toInt_eq_toNat_cond _
  rw [hvalue]
  split <;> omega

end Rellm.Foundation
