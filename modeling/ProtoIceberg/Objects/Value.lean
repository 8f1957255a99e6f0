import Mathlib.Data.String.Basic
import ProtoIceberg.Extensions.BitVec
import ProtoIceberg.Extensions.Ieee
import ProtoIceberg.Objects.Schema

namespace ProtoIceberg

structure Hugeint where
  upper : Int64
  lower : UInt64
  deriving DecidableEq, Repr

namespace Hugeint

def toInt (h : Hugeint) : Int :=
  2 ^ 64 * h.upper.toInt + h.lower.toNat

def ofInt64 (v : Int64) : Hugeint :=
  { upper := if v < 0 then -1 else 0, lower := v.toUInt64 }

def ofInt128 (v : BitVec 128) : Hugeint :=
  { upper := .ofBitVec (v.extractLsb' 64 64), lower := .ofBitVec (v.extractLsb' 0 64) }

-- The 128-bit integer that `ConvertValueToLiteral` puts together from the two words.
def toInt128 (h : Hugeint) : BitVec 128 :=
  (h.upper.toBitVec.signExtend 128 <<< 64) ||| h.lower.toBitVec.setWidth 128

theorem toInt128_eq_append (h : Hugeint) :
    h.toInt128 = h.upper.toBitVec ++ h.lower.toBitVec :=
  BitVec.shiftLeft_signExtend_or h.upper.toBitVec h.lower.toBitVec

theorem toInt128_ofInt128 (v : BitVec 128) : (ofInt128 v).toInt128 = v := by
  rw [toInt128_eq_append, ofInt128]
  exact @BitVec.extractLsb'_append_extractLsb' 64 64 v

theorem toInt_toInt128 (h : Hugeint) : h.toInt128.toInt = h.toInt :=
  BitVec.toInt_shiftLeft_signExtend_or (by decide) h.upper.toBitVec h.lower.toBitVec

theorem toInt_ofInt64 (v : Int64) : (ofInt64 v).toInt = v.toInt := by
  have hs : v.toInt = if 2 * v.toBitVec.toNat < 2 ^ 64 then (v.toBitVec.toNat : Int)
      else v.toBitVec.toNat - (2 ^ 64 : Nat) := BitVec.toInt_eq_toNat_cond v.toBitVec
  have hl : v.toUInt64.toNat = v.toBitVec.toNat := rfl
  have hn : v < 0 ↔ v.toInt < 0 := Int64.lt_iff_toInt_lt
  simp only [toInt, ofInt64, hn, hl]
  have := v.toBitVec.isLt
  split <;> split at hs <;> simp <;> omega

end Hugeint

-- The unscaled integer of a decimal, in one of DuckDB's four physical widths.
inductive Integral
  | int16 (value : Int16)
  | int32 (value : Int32)
  | int64 (value : Int64)
  | int128 (value : Hugeint)
  deriving DecidableEq, Repr

namespace Integral

def toInt : Integral → Int
  | int16 v  => v.toInt
  | int32 v  => v.toInt
  | int64 v  => v.toInt
  | int128 v => v.toInt

def get : Integral → Hugeint
  | int16 v  => .ofInt64 v.toInt64
  | int32 v  => .ofInt64 v.toInt64
  | int64 v  => .ofInt64 v
  | int128 v => v

theorem toInt_get (v : Integral) : v.get.toInt = v.toInt := by
  cases v <;> simp [get, toInt, Hugeint.toInt_ofInt64]

end Integral

-- A DuckDB value together with its type. Values of the types that have no conversion to Iceberg
-- are in `other`, where `key` is their position in DuckDB's order of that type.
inductive Value
  | null (type : LogicalType)
  | boolean (value : Bool)
  | tinyint (value : Int8)
  | smallint (value : Int16)
  | integer (value : Int32)
  | bigint (value : Int64)
  | float (value : Ieee.binary32.Bits)
  | double (value : Ieee.binary64.Bits)
  | varchar (value : String)
  | date (days : Int32)
  | time (micros : Int64)
  | timestamp (micros : Int64)
  | timestampTz (micros : Int64)
  | decimal (width scale : Nat) (value : Integral)
  | other (type : LogicalType) (key : Nat)

inductive Literal
  | boolean (value : Bool)
  | int (value : Int32)
  | long (value : Int64)
  | float (value : Ieee.binary32.Bits)
  | double (value : Ieee.binary64.Bits)
  | string (value : String)
  | date (days : Int32)
  | time (micros : Int64)
  | timestamp (micros : Int64)
  | timestampTz (micros : Int64)
  | decimal (value : BitVec 128) (precision scale : Nat)
  deriving DecidableEq

-- DuckDB's order of the values of one type, in which the zeros of a floating-point type are equal and
-- NaN is above every number. NULL and values of different types have no order.
def Value.compare : Value → Value → Option Ordering
  | .boolean v, .boolean w             => some (Ord.compare v w)
  | .tinyint v, .tinyint w             => some (Ord.compare v.toInt w.toInt)
  | .smallint v, .smallint w           => some (Ord.compare v.toInt w.toInt)
  | .integer v, .integer w             => some (Ord.compare v.toInt w.toInt)
  | .bigint v, .bigint w               => some (Ord.compare v.toInt w.toInt)
  | .float v, .float w                 => some (v.compareNanLast w)
  | .double v, .double w               => some (v.compareNanLast w)
  | .varchar v, .varchar w             => some (Ord.compare v w)
  | .date v, .date w                   => some (Ord.compare v.toInt w.toInt)
  | .time v, .time w                   => some (Ord.compare v.toInt w.toInt)
  | .timestamp v, .timestamp w         => some (Ord.compare v.toInt w.toInt)
  | .timestampTz v, .timestampTz w     => some (Ord.compare v.toInt w.toInt)
  | .decimal p s v, .decimal p' s' w   =>
    if p = p' ∧ s = s' then some (Ord.compare v.toInt w.toInt) else none
  | .other _ k, .other _ k'            => some (Ord.compare k k')
  | _, _                               => none

-- Iceberg's order of the literals of one type, in which -0.0 is below +0.0.
def Literal.compare : Literal → Literal → Option Ordering
  | .boolean v, .boolean w             => some (Ord.compare v w)
  | .int v, .int w                     => some (Ord.compare v.toInt w.toInt)
  | .long v, .long w                   => some (Ord.compare v.toInt w.toInt)
  | .float v, .float w                 => some (v.compareTotal w)
  | .double v, .double w               => some (v.compareTotal w)
  | .string v, .string w               => some (Ord.compare v w)
  | .date v, .date w                   => some (Ord.compare v.toInt w.toInt)
  | .time v, .time w                   => some (Ord.compare v.toInt w.toInt)
  | .timestamp v, .timestamp w         => some (Ord.compare v.toInt w.toInt)
  | .timestampTz v, .timestampTz w     => some (Ord.compare v.toInt w.toInt)
  | .decimal v p s, .decimal w p' s'   =>
    if p = p' ∧ s = s' then some (Ord.compare v.toInt w.toInt) else none
  | _, _                               => none

-- A value stored in a data file. Iceberg sees it as a literal, unless it is of one of the types that
-- have no conversion, and DuckDB reads it as a value of the type that `mapIcebergType` yields.
inductive Datum
  | primitive (literal : Literal)
  | other (type : LogicalType) (key : Nat)

def Literal.toValue : Literal → Value
  | .boolean v     => .boolean v
  | .int v         => .integer v
  | .long v        => .bigint v
  | .float v       => .float v
  | .double v      => .double v
  | .string v      => .varchar v
  | .date v        => .date v
  | .time v        => .time v
  | .timestamp v   => .timestamp v
  | .timestampTz v => .timestampTz v
  | .decimal v p s => .decimal p s (.int128 (.ofInt128 v))

def Literal.isNaN : Literal → Bool
  | .float v  => v.isNaN
  | .double v => v.isNaN
  | _         => false

def Datum.toValue : Datum → Value
  | .primitive l => l.toValue
  | .other t k   => .other t k

def Datum.isNaN : Datum → Bool
  | .primitive l => l.isNaN
  | .other _ _   => false

def convertValueToLiteral : Value → Option Literal
  | .null _        => none
  | .boolean v     => some (.boolean v)
  | .tinyint v     => some (.int v.toInt32)
  | .smallint v    => some (.int v.toInt32)
  | .integer v     => some (.int v)
  | .bigint v      => some (.long v)
  | .float v       => some (.float v)
  | .double v      => some (.double v)
  | .varchar v     => some (.string v)
  | .date v        => some (.date v)
  | .time v        => some (.time v)
  | .timestamp v   => some (.timestamp v)
  | .timestampTz v => some (.timestampTz v)
  | .decimal w s v => some (.decimal v.get.toInt128 w s)
  | .other _ _     => none

-- `Value::GetValue<double>` of a floating-point value.
def Value.getDouble : Value → Option Ieee.binary64.Bits
  | .float v  => some (Ieee.widen v)
  | .double v => some v
  | _         => none

-- NaN and zero constants can not be pushed down: iceberg-cpp rejects NaN literals, and orders -0.0
-- before +0.0 where DuckDB treats them as equal.
def convertFilterConstant (value : Value) : Option Literal :=
  match value.getDouble with
  | some number => if number.isNaN || number.isZero then none else convertValueToLiteral value
  | none        => convertValueToLiteral value

theorem convertFilterConstant_eq_some_iff {c : Value} {lit : Literal} :
    convertFilterConstant c = some lit ↔
      (∀ x, c.getDouble = some x → ¬x.isNaN ∧ ¬x.isZero) ∧ convertValueToLiteral c = some lit := by
  rw [convertFilterConstant]
  split
  case h_1 number h => by_cases hn : number.isNaN <;> by_cases hz : number.isZero <;> simp [*]
  case h_2 h        => simp [h]

theorem Integral.toInt_toInt128 (v : Integral) : v.get.toInt128.toInt = v.toInt := by
  rw [Hugeint.toInt_toInt128, v.toInt_get]

theorem Hugeint.toInt_ofInt128 (v : BitVec 128) : (ofInt128 v).toInt = v.toInt := by
  rw [← toInt_toInt128, toInt128_ofInt128]

-- On the constants that are pushed down, DuckDB and Iceberg order a stored number alike. NaN is the
-- exception.
theorem Literal.compare_convertFilterConstant {l lit : Literal} {c : Value}
    (hc : convertFilterConstant c = some lit) (hn : ¬l.isNaN) :
    l.compare lit = l.toValue.compare c ∨ l.toValue.compare c = none := by
  have ⟨hd, hc⟩ := convertFilterConstant_eq_some_iff.mp hc
  cases c <;> simp only [convertValueToLiteral, Option.some.injEq, reduceCtorEq] at hc <;> subst hc
  case float w =>
    have ⟨hw, hz⟩ := hd _ rfl
    simp only [Ieee.isNaN_widen, Ieee.isZero_widen] at hw hz
    cases l <;> simp only [toValue, Value.compare, Literal.compare, or_true]
    case float v => exact .inl <| congrArg some (v.compareNanLast_eq_compareTotal hn hw hz).symm
  case double w =>
    have ⟨hw, hz⟩ := hd _ rfl
    cases l <;> simp only [toValue, Value.compare, Literal.compare, or_true]
    case double v => exact .inl <| congrArg some (v.compareNanLast_eq_compareTotal hn hw hz).symm
  case decimal p s w =>
    cases l <;> simp only [toValue, Value.compare, Literal.compare, or_true]
    case decimal v _ _ =>
      simp [Integral.toInt_toInt128, Integral.toInt, Hugeint.toInt_ofInt128]
  all_goals cases l <;> simp [toValue, Value.compare, Literal.compare]

theorem Datum.compare_convertFilterConstant {d : Datum} {lit : Literal} {c : Value} {o : Ordering}
    (hc : convertFilterConstant c = some lit) (hn : ¬d.isNaN) (h : d.toValue.compare c = some o) :
    ∃ l, d = .primitive l ∧ l.compare lit = some o := by
  cases d
  case primitive l =>
    have hl := Literal.compare_convertFilterConstant hc hn
    rw [show l.toValue.compare c = some o from h] at hl
    exact ⟨l, rfl, hl.resolve_right (nomatch ·)⟩
  case other t k =>
    have hc := (convertFilterConstant_eq_some_iff.mp hc).right
    cases c <;> simp [convertValueToLiteral] at hc <;> simp [toValue, Value.compare] at h

namespace Value

def isNaN (v : Value) : Bool :=
  v.getDouble.any (·.isNaN)

def isNumber (v : Value) : Bool :=
  v.getDouble.any (!·.isNaN)

theorem not_isNumber_of_isNaN {v : Value} (h : v.isNaN) : ¬v.isNumber := by
  cases hd : v.getDouble <;> simp_all [isNaN, isNumber]

theorem isNaN_toValue (l : Literal) : l.toValue.isNaN = l.isNaN := by
  cases l <;> simp [isNaN, Literal.isNaN, Literal.toValue, getDouble]

def isNonzeroNumber (v : Value) : Bool :=
  v.getDouble.any fun x => !x.isNaN && !x.isZero

-- Whether a value belongs to a column of the given floating-point type.
def Fits (t : IcebergType) : Value → Prop
  | .null _   => t = .float ∨ t = .double
  | .float _  => t = .float
  | .double _ => t = .double
  | _         => False

variable {t : IcebergType} {v c : Value}

-- DuckDB compares NaN with NaN as equal, and with every number as greater.
theorem Fits.compare_nan (hv : v.Fits t) (hc : c.Fits t) (hn : v.isNaN) :
    v.compare c = if c.isNaN then some .eq else if c.isNumber then some .gt else none := by
  cases v <;> try exact hv.elim
  case null type => simp [isNaN, getDouble] at hn
  case float x =>
    have hx : x.isNaN = true := by simpa [isNaN, getDouble] using hn
    cases c <;> try exact hc.elim
    case null    => rfl
    case double  => cases hv.symm.trans hc
    case float y =>
      simp only [compare, isNaN, isNumber, getDouble, Ieee.Format.Bits.compareNanLast_of_isNaN hx]
      cases hy : y.isNaN <;> simp [hy]
  case double x =>
    have hx : x.isNaN = true := by simpa [isNaN, getDouble] using hn
    cases c <;> try exact hc.elim
    case null     => rfl
    case float    => cases hv.symm.trans hc
    case double y =>
      simp only [compare, isNaN, isNumber, getDouble, Ieee.Format.Bits.compareNanLast_of_isNaN hx]
      cases hy : y.isNaN <;> simp [hy]

theorem Fits.isSome_convertFilterConstant (h : c.Fits t) :
    (convertFilterConstant c).isSome = c.isNonzeroNumber := by
  cases c <;> try exact h.elim
  case null => rfl
  case float x | double x =>
    simp only [convertFilterConstant, isNonzeroNumber, getDouble, Option.any_some]
    cases hn : Ieee.Format.Bits.isNaN _ <;> cases hz : Ieee.Format.Bits.isZero _ <;>
      simp [convertValueToLiteral]

end Value

theorem Literal.compare_eq_of_fits {t : IcebergType} {l lit : Literal} {c : Value} (h : c.Fits t)
    (hc : convertFilterConstant c = some lit) (hn : ¬l.isNaN) :
    l.compare lit = l.toValue.compare c := by
  cases Literal.compare_convertFilterConstant hc hn
  case inl hl => exact hl
  case inr hl =>
    have ⟨_, hc⟩ := convertFilterConstant_eq_some_iff.mp hc
    cases c <;> try exact h.elim
    case null => exact nomatch hc
    case float x | double x =>
      cases hc
      cases l <;> first | rfl | exact nomatch hl

end ProtoIceberg
