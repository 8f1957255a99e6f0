import Mathlib.Algebra.Order.Ring.Rat
import ProtoIceberg.Objects.Decimal

namespace ProtoIceberg

namespace Hugeint

theorem toInt_shiftLeft_upper (h : Hugeint) :
    (h.upper.toBitVec.signExtend 128 <<< 64).toInt = h.upper.toInt * 2 ^ 64 :=
  (@BitVec.toInt_shiftLeft_signExtend 64 64 h.upper.toBitVec).trans (Int.mul_comm ..)

theorem toInt_eq_words (h : Hugeint) : h.toInt = h.upper.toInt * 2 ^ 64 + h.lower.toNat := by
  rw [toInt, Int.mul_comm]

end Hugeint

namespace DecimalType

variable {t : DecimalType} {v w : Integral}

theorem convertValueToLiteral_value (t : DecimalType) (v : Integral) :
    convertValueToLiteral (t.value v) = some (.decimal v.get.toInt128 t.width t.scale) :=
  rfl

theorem compare_value : (t.value v).compare (t.value w) = some (compare v.toInt w.toInt) :=
  if_pos ⟨rfl, rfl⟩

theorem compare_literal :
    (Literal.decimal v.get.toInt128 t.width t.scale).compare
      (.decimal w.get.toInt128 t.width t.scale) = (t.value v).compare (t.value w) := by
  simp [Literal.compare, compare_value, Integral.toInt_toInt128]

end DecimalType

-- DuckDB's order of the values of a decimal type is the order of the numbers.
theorem Decimal.compare_stored {t : DecimalType} (d e : Decimal t) :
    (t.value d.stored).compare (t.value e.stored) = some (compare (d.value ℚ) (e.value ℚ)) := by
  have h : compare (d.value ℚ) (e.value ℚ) = compare d.unscaled e.unscaled :=
    FixedPoint.compare_value (by decide) d e
  rw [DecimalType.compare_value, h, d.toInt_stored, e.toInt_stored]

-- The unscaled integers of a type fit into its physical type, and whatever any of the physical types
-- holds is converted as is.
theorem decimal_constants_are_exact (t : DecimalType) :
    (∀ v : Integral, ∃ val128 : BitVec 128,
      convertValueToLiteral (t.value v) = some (.decimal val128 t.width t.scale) ∧
      (v.get.upper.toBitVec.signExtend 128 <<< 64).toInt = v.get.upper.toInt * 2 ^ 64 ∧
      val128.toInt = v.get.upper.toInt * 2 ^ 64 + v.get.lower.toNat ∧
      val128.toInt = v.toInt) ∧
    (∀ d : Decimal t, d.stored.physicalType = t.internalType ∧ d.stored.toInt = d.unscaled) ∧
    (∀ v w : Integral, ∃ l m,
      convertValueToLiteral (t.value v) = some l ∧ convertValueToLiteral (t.value w) = some m ∧
      l.compare m = (t.value v).compare (t.value w)) ∧
    ∀ d e : Decimal t,
      (t.value d.stored).compare (t.value e.stored) = some (compare (d.value ℚ) (e.value ℚ)) := by
  refine ⟨fun v => ?_, fun d => ?_, fun v w => ?_, Decimal.compare_stored⟩
  · have hw := v.get.toInt_toInt128.trans v.get.toInt_eq_words
    exact ⟨_, t.convertValueToLiteral_value v, v.get.toInt_shiftLeft_upper, hw, v.toInt_toInt128⟩
  · exact ⟨d.physicalType_stored, d.toInt_stored⟩
  · have hv := t.convertValueToLiteral_value v
    have hw := t.convertValueToLiteral_value w
    exact ⟨_, _, hv, hw, DecimalType.compare_literal⟩

example :
    convertValueToLiteral (.decimal 38 0 (.int128 { upper := -1, lower := 1 }))
      = some (.decimal (.ofInt 128 (-(2 ^ 64 - 1))) 38 0) := by decide

end ProtoIceberg
