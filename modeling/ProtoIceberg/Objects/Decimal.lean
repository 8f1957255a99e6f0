import ProtoIceberg.Extensions.FixedPoint
import ProtoIceberg.Objects.Value

namespace ProtoIceberg

-- The types in which DuckDB stores the unscaled integer of a decimal.
inductive PhysicalType
  | int16
  | int32
  | int64
  | int128
  deriving DecidableEq, Repr

def Integral.physicalType : Integral → PhysicalType
  | int16 _  => .int16
  | int32 _  => .int32
  | int64 _  => .int64
  | int128 _ => .int128

namespace PhysicalType

def bits : PhysicalType → Nat
  | int16  => 16
  | int32  => 32
  | int64  => 64
  | int128 => 128

-- The largest width of the decimals that are stored in this type.
def maxWidth : PhysicalType → Nat
  | int16  => 4
  | int32  => 9
  | int64  => 18
  | int128 => 38

def store : PhysicalType → Int → Integral
  | int16, i  => .int16 (.ofInt i)
  | int32, i  => .int32 (.ofInt i)
  | int64, i  => .int64 (.ofInt i)
  | int128, i => .int128 (.ofInt128 (.ofInt 128 i))

variable {p : PhysicalType} {i : Int}

theorem physicalType_store : (p.store i).physicalType = p := by
  cases p <;> rfl

theorem ten_pow_maxWidth_le (p : PhysicalType) : 10 ^ p.maxWidth ≤ 2 ^ (p.bits - 1) := by
  cases p <;> decide

theorem toInt_store (h : -2 ^ (p.bits - 1) ≤ i ∧ i < 2 ^ (p.bits - 1)) :
    (p.store i).toInt = i := by
  cases p
  case int16  => exact Int16.toInt_ofInt_of_le h.left h.right
  case int32  => exact Int32.toInt_ofInt_of_le h.left h.right
  case int64  => exact Int64.toInt_ofInt_of_le h.left h.right
  case int128 =>
    exact (Hugeint.toInt_ofInt128 _).trans <|
      BitVec.toInt_ofInt_eq_self (by decide) h.left h.right

end PhysicalType

-- The type `DECIMAL(width, scale)`.
structure DecimalType where
  width     : Nat
  scale     : Nat
  width_pos : 0 < width
  width_le  : width ≤ 38
  scale_le  : scale ≤ width

abbrev Decimal (t : DecimalType) :=
  FixedPoint 10 t.width t.scale

namespace DecimalType

def internalType (t : DecimalType) : PhysicalType :=
  if t.width ≤ 4 then .int16
  else if t.width ≤ 9 then .int32
  else if t.width ≤ 18 then .int64
  else .int128

theorem width_le_maxWidth (t : DecimalType) : t.width ≤ t.internalType.maxWidth := by
  have := t.width_le
  rw [internalType]
  split_ifs <;> assumption

-- The value of this type whose unscaled integer is stored as given.
def value (t : DecimalType) (stored : Integral) : Value :=
  .decimal t.width t.scale stored

end DecimalType

namespace Decimal

variable {t : DecimalType}

def stored (d : Decimal t) : Integral :=
  t.internalType.store d.unscaled

theorem physicalType_stored (d : Decimal t) : d.stored.physicalType = t.internalType :=
  PhysicalType.physicalType_store

theorem toInt_stored (d : Decimal t) : d.stored.toInt = d.unscaled := by
  apply PhysicalType.toInt_store
  apply d.unscaled_mem
  calc
    10 ^ t.width
    _ ≤ 10 ^ t.internalType.maxWidth  := Nat.pow_le_pow_right (by decide) t.width_le_maxWidth
    _ ≤ 2 ^ (t.internalType.bits - 1) := t.internalType.ten_pow_maxWidth_le

end Decimal

end ProtoIceberg
