import Mathlib.Algebra.Order.Field.Basic
import Mathlib.Algebra.Order.Ring.Cast
import Mathlib.Order.Monotone.Basic

-- The numbers with at most `width` digits in base `β`, the last `scale` of which follow the point.
structure FixedPoint (β width scale : Nat) where
  unscaled  : Int
  natAbs_lt : unscaled.natAbs < β ^ width

namespace FixedPoint

variable {β w s k : Nat}

-- A signed integer of `k + 1` bits that holds the largest number holds all of them.
theorem unscaled_mem (x : FixedPoint β w s) (h : β ^ w ≤ 2 ^ k) :
    -2 ^ k ≤ x.unscaled ∧ x.unscaled < 2 ^ k := by
  have hx : (x.unscaled.natAbs : Int) < 2 ^ k := mod_cast x.natAbs_lt.trans_le h
  omega

variable (K : Type) [Field K] [LinearOrder K] [IsStrictOrderedRing K]

def value (x : FixedPoint β w s) : K :=
  x.unscaled / (β : K) ^ s

variable {K}

-- Numbers of one scale are ordered by their unscaled integers.
theorem compare_value (hβ : 0 < β) (x y : FixedPoint β w s) :
    compare (x.value K) (y.value K) = compare x.unscaled y.unscaled := by
  have hs : 0 < (β : K) ^ s := pow_pos (mod_cast hβ) s
  have hm : StrictMono fun i : Int => (i : K) / (β : K) ^ s := Int.cast_strictMono.div_const hs
  calc
    compare (x.value K) (y.value K)
    _ = cmp (x.value K) (y.value K)   := (cmp_eq_compare ..).symm
    _ = cmp x.unscaled y.unscaled     := hm.cmp_map_eq ..
    _ = compare x.unscaled y.unscaled := cmp_eq_compare ..

end FixedPoint
