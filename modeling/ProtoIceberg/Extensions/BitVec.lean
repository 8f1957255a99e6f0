import Mathlib.Algebra.Ring.Int.Defs

namespace BitVec

variable {n m : Nat}

-- Shifting in a second word makes room for it regardless of the sign extension.
theorem shiftLeft_signExtend_or (x : BitVec n) (y : BitVec m) :
    (x.signExtend (n + m) <<< m) ||| y.setWidth (n + m) = x ++ y := by
  ext i hi
  simp only [getElem_or, getElem_shiftLeft, getElem_setWidth,
    getElem_append, getElem_signExtend]
  by_cases h : i < m
  case pos => simp [h]
  case neg =>
    have h₁ : i - m < n := by omega
    have h₂ : m ≤ i := by omega
    simp [h, h₁, h₂]

-- The sign extension is wide enough for the shift to be a multiplication.
theorem toInt_shiftLeft_signExtend (x : BitVec n) :
    (x.signExtend (n + m) <<< m).toInt = 2 ^ m * x.toInt := by
  have h := shiftLeft_signExtend_or x 0#m
  simp only [setWidth_zero, or_zero] at h
  exact h ▸ toInt_append_zero

theorem toInt_shiftLeft_signExtend_or (hn : 0 < n) (x : BitVec n) (y : BitVec m) :
    ((x.signExtend (n + m) <<< m) ||| y.setWidth (n + m)).toInt = 2 ^ m * x.toInt + y.toNat := by
  rw [shiftLeft_signExtend_or, toInt_append]
  simp [Nat.ne_of_gt hn]

end BitVec
