import Mathlib.Data.BitVec
import Mathlib.Tactic.NormNum
import Mathlib.Order.Compare

-- Binary floating-point numbers as bit patterns: a sign bit above a magnitude of `width` bits.
-- The magnitudes of numbers of one sign are ordered like the numbers themselves. Those above the
-- magnitude of infinity are NaNs.
namespace Ieee

structure Format where
  width    : Nat
  infinity : Nat

abbrev Format.Bits (f : Format) : Type :=
  BitVec (f.width + 1)

def binary32 : Format := { width := 31, infinity := 255 * 2 ^ 23 }

def binary64 : Format := { width := 63, infinity := 2047 * 2 ^ 52 }

namespace Format.Bits

variable {f : Format}

def magnitude (x : f.Bits) : Nat :=
  x.toNat % 2 ^ f.width

def isNaN (x : f.Bits) : Bool :=
  f.infinity < x.magnitude

def isZero (x : f.Bits) : Bool :=
  x.magnitude = 0

-- Orders numbers by value, so that the two zeros are equal.
def value (x : f.Bits) : Int :=
  if x.msb then -x.magnitude else x.magnitude

-- Orders bit patterns totally, so that -0.0 is directly below +0.0.
def rank (x : f.Bits) : Int :=
  if x.msb then -x.magnitude - 1 else x.magnitude

def compareTotal (x y : f.Bits) : Ordering :=
  compare x.rank y.rank

-- Compares by value, with all NaNs equal to each other and above every number.
def compareNanLast (x y : f.Bits) : Ordering :=
  match x.isNaN, y.isNaN with
  | true,  true  => .eq
  | true,  false => .gt
  | false, true  => .lt
  | false, false => compare x.value y.value

def ofMagnitude (negative : Bool) (m : Nat) : f.Bits :=
  BitVec.cons negative (BitVec.ofNat f.width m)

theorem magnitude_lt (x : f.Bits) : x.magnitude < 2 ^ f.width :=
  Nat.mod_lt _ (by positivity)

theorem magnitude_ofMagnitude {b : Bool} {m : Nat} (h : m < 2 ^ f.width) :
    (ofMagnitude b m : f.Bits).magnitude = m := by
  rw [magnitude, ← BitVec.toNat_setWidth, ofMagnitude, BitVec.setWidth_cons, BitVec.toNat_ofNat,
    Nat.mod_eq_of_lt h]

variable {x y : f.Bits}

theorem value_lt_iff (h : ¬y.isZero) : x.value < y.value ↔ x.rank < y.rank := by
  simp only [isZero, decide_eq_true_eq] at h
  simp only [value, rank]
  split <;> split <;> omega

theorem value_gt_iff (h : ¬y.isZero) : y.value < x.value ↔ y.rank < x.rank := by
  simp only [isZero, decide_eq_true_eq] at h
  simp only [value, rank]
  split <;> split <;> omega

theorem compare_value_eq (h : ¬y.isZero) : compare x.value y.value = compareTotal x y := by
  rw [compareTotal]
  rcases lt_trichotomy x.value y.value with hv | hv | hv
  · rw [compare_lt_iff_lt.mpr hv, compare_lt_iff_lt.mpr (value_lt_iff h |>.mp hv)]
  · have h₁ := (value_lt_iff (x := x) h).not.mp hv.not_lt
    have h₂ := (value_gt_iff (x := x) h).not.mp hv.not_gt
    rw [compare_eq_iff_eq.mpr hv, compare_eq_iff_eq.mpr (le_antisymm (not_lt.mp h₂) (not_lt.mp h₁))]
  · rw [compare_gt_iff_gt.mpr hv, compare_gt_iff_gt.mpr (value_gt_iff h |>.mp hv)]

-- The two orders only disagree about zeros and NaNs.
theorem compareNanLast_eq_compareTotal (hx : ¬x.isNaN) (hy : ¬y.isNaN) (hz : ¬y.isZero) :
    compareNanLast x y = compareTotal x y := by
  simp only [Bool.not_eq_true] at hx hy
  simp [compareNanLast, hx, hy, compare_value_eq hz]

-- NaN is equal to NaN, and above every number.
theorem compareNanLast_of_isNaN (hx : x.isNaN) :
    compareNanLast x y = if y.isNaN then .eq else .gt := by
  cases hy : y.isNaN <;> simp [compareNanLast, hx, hy]

end Format.Bits

-- The magnitude of a 64-bit number equal to the 32-bit number of magnitude `m`.
-- A normal number is rebiased, a subnormal one is normalised at its leading bit.
def widenMagnitude (m : Nat) : Nat :=
  if 255 * 2 ^ 23 ≤ m then
    2047 * 2 ^ 52 + (m - 255 * 2 ^ 23) * 2 ^ 29
  else if 2 ^ 23 ≤ m then
    m * 2 ^ 29 + (1023 - 127) * 2 ^ 52
  else if m = 0 then
    0
  else
    (m.log2 + 1023 - 149) * 2 ^ 52 + (m - 2 ^ m.log2) * 2 ^ (52 - m.log2)

theorem widenMagnitude_subnormal_bounds {m : Nat} (h₀ : m ≠ 0) (h : m < 2 ^ 23) :
    0 < widenMagnitude m ∧ widenMagnitude m < 2047 * 2 ^ 52 := by
  have hlo := Nat.log2_self_le h₀
  have hlog : m.log2 < 23 := (Nat.log2_lt h₀).mpr h
  have hhi : m < 2 ^ (m.log2 + 1) := Nat.lt_log2_self
  have hm : (m - 2 ^ m.log2) * 2 ^ (52 - m.log2) < 2 ^ 52 := by
    calc (m - 2 ^ m.log2) * 2 ^ (52 - m.log2)
      _ < 2 ^ m.log2 * 2 ^ (52 - m.log2) := by
        apply Nat.mul_lt_mul_of_pos_right _ (by positivity)
        rw [Nat.pow_succ] at hhi
        omega
      _ = 2 ^ 52 := by
        rw [← Nat.pow_add]
        congr 1
        omega
  have h₁ : ¬255 * 2 ^ 23 ≤ m := by omega
  have h₂ : ¬2 ^ 23 ≤ m := by omega
  simp only [widenMagnitude, h₁, h₂, h₀, if_false]
  omega

theorem widenMagnitude_cases (m : Nat) :
    m = 0 ∧ widenMagnitude m = 0 ∨
    (0 < m ∧ m < 2 ^ 23) ∧ 0 < widenMagnitude m ∧ widenMagnitude m < 2047 * 2 ^ 52 ∨
    (2 ^ 23 ≤ m ∧ m < 255 * 2 ^ 23) ∧ widenMagnitude m = m * 2 ^ 29 + (1023 - 127) * 2 ^ 52 ∨
    255 * 2 ^ 23 ≤ m ∧ widenMagnitude m = 2047 * 2 ^ 52 + (m - 255 * 2 ^ 23) * 2 ^ 29 := by
  by_cases h₀ : m = 0
  case pos => exact .inl ⟨h₀, by simp [h₀, widenMagnitude]⟩
  case neg =>
    by_cases h : m < 2 ^ 23
    case pos =>
      have hm : 0 < m ∧ m < 2 ^ 23 := ⟨Nat.pos_of_ne_zero h₀, h⟩
      exact .inr <| .inl ⟨hm, widenMagnitude_subnormal_bounds h₀ h⟩
    case neg =>
      simp only [widenMagnitude]
      repeat' split
      all_goals omega

theorem widenMagnitude_eq_zero_iff {m : Nat} : widenMagnitude m = 0 ↔ m = 0 := by
  have := widenMagnitude_cases m
  omega

theorem infinity_lt_widenMagnitude_iff {m : Nat} :
    binary64.infinity < widenMagnitude m ↔ binary32.infinity < m := by
  have := widenMagnitude_cases m
  simp only [binary64, binary32]
  omega

theorem widenMagnitude_lt {m : Nat} (hm : m < 2 ^ 31) : widenMagnitude m < 2 ^ 63 := by
  have := widenMagnitude_cases m
  omega

-- The cast from a 32-bit number to the 64-bit number of the same value.
def widen (x : binary32.Bits) : binary64.Bits :=
  .ofMagnitude x.msb (widenMagnitude x.magnitude)

theorem magnitude_widen (x : binary32.Bits) : (widen x).magnitude = widenMagnitude x.magnitude :=
  Format.Bits.magnitude_ofMagnitude <| widenMagnitude_lt x.magnitude_lt

@[simp]
theorem isNaN_widen (x : binary32.Bits) : (widen x).isNaN = x.isNaN := by
  simp [Format.Bits.isNaN, magnitude_widen, infinity_lt_widenMagnitude_iff]

@[simp]
theorem isZero_widen (x : binary32.Bits) : (widen x).isZero = x.isZero := by
  simp [Format.Bits.isZero, magnitude_widen, widenMagnitude_eq_zero_iff]

end Ieee
