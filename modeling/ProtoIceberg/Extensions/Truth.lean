import Mathlib.Data.List.Basic

-- The truth values of three-valued logic, in which `unknown` stands for a comparison with NULL.
inductive Truth
  | false
  | unknown
  | true
  deriving DecidableEq, Repr

namespace Truth

def ofBool : Bool → Truth
  | .true  => .true
  | .false => .false

def and : Truth → Truth → Truth
  | .false, _  | _, .false     => .false
  | .unknown, _ | _, .unknown  => .unknown
  | .true, .true               => .true

def or : Truth → Truth → Truth
  | .true, _ | _, .true        => .true
  | .unknown, _ | _, .unknown  => .unknown
  | .false, .false             => .false

def all (ts : List Truth) : Truth :=
  ts.foldr and .true

def any (ts : List Truth) : Truth :=
  ts.foldr or .false

variable {t t₁ t₂ : Truth} {ts : List Truth} {b : Bool}

@[simp]
theorem ofBool_eq_true_iff : ofBool b = .true ↔ b = Bool.true := by
  cases b <;> simp [ofBool]

@[simp]
theorem and_eq_true_iff : t₁.and t₂ = .true ↔ t₁ = .true ∧ t₂ = .true := by
  cases t₁ <;> cases t₂ <;> simp [and]

@[simp]
theorem or_eq_true_iff : t₁.or t₂ = .true ↔ t₁ = .true ∨ t₂ = .true := by
  cases t₁ <;> cases t₂ <;> simp [or]

@[simp]
theorem all_eq_true_iff : all ts = .true ↔ ∀ t ∈ ts, t = .true := by
  induction ts
  case nil => simp [all]
  case cons t ts ih =>
    rw [List.forall_mem_cons, ← ih]
    exact and_eq_true_iff

@[simp]
theorem any_eq_true_iff : any ts = .true ↔ ∃ t ∈ ts, t = .true := by
  induction ts
  case nil => simp [any]
  case cons t ts ih =>
    rw [List.exists_mem_cons_iff, ← ih]
    exact or_eq_true_iff

end Truth
