import ProtoIceberg.Objects.Filter

namespace ProtoIceberg

-- The kinds of iceberg-cpp's expressions.
inductive Operation
  | true
  | false
  | isNull
  | notNull
  | lt
  | ltEq
  | gt
  | gtEq
  | eq
  | notEq
  | isIn
  | and
  | or
  deriving DecidableEq, Repr

-- The factories of `iceberg::Expressions` that the extension uses, for expressions of type `ε`.
class Expressions (ε : Type*) where
  alwaysTrue         : ε
  alwaysFalse        : ε
  isNull             : String → ε
  notNull            : String → ε
  equal              : String → Literal → ε
  notEqual           : String → Literal → ε
  lessThan           : String → Literal → ε
  lessThanOrEqual    : String → Literal → ε
  greaterThan        : String → Literal → ε
  greaterThanOrEqual : String → Literal → ε
  isIn               : String → List Literal → ε
  and                : ε → ε → ε
  or                 : ε → ε → ε
  op                 : ε → Operation

-- The columns of a row by name.
abbrev Environment := String → Option Datum

open Expressions in
-- What the factories mean for the truth of an expression. Comparisons are only specified for values
-- that have a literal of the constant's type, so nothing is said about comparisons with NULL.
structure Expressions.Semantics (ε : Type*) [Expressions ε] where
  eval             : ε → Environment → Bool
  eval_alwaysTrue  : eval alwaysTrue env = true
  eval_alwaysFalse : eval alwaysFalse env = false
  eval_and         : eval (and a b) env = (eval a env && eval b env)
  eval_or          : eval (or a b) env = (eval a env || eval b env)
  eval_isNull      : eval (isNull c) env = (env c).isNone
  eval_notNull     : eval (notNull c) env = (env c).isSome
  eval_equal :
    env c = some (.primitive v) → v.compare l = some o → eval (equal c l) env = o.isEq
  eval_notEqual :
    env c = some (.primitive v) → v.compare l = some o → eval (notEqual c l) env = o.isNe
  eval_lessThan :
    env c = some (.primitive v) → v.compare l = some o → eval (lessThan c l) env = o.isLT
  eval_lessThanOrEqual :
    env c = some (.primitive v) → v.compare l = some o → eval (lessThanOrEqual c l) env = o.isLE
  eval_greaterThan :
    env c = some (.primitive v) → v.compare l = some o → eval (greaterThan c l) env = o.isGT
  eval_greaterThanOrEqual :
    env c = some (.primitive v) → v.compare l = some o → eval (greaterThanOrEqual c l) env = o.isGE
  eval_isIn :
    env c = some (.primitive v) →
    eval (isIn c ls) env = ls.any fun l => (v.compare l).any Ordering.isEq

namespace Expressions.Semantics

variable {ε : Type*} [Expressions ε] (sem : Semantics ε) {env : Environment}

theorem eval_foldl_and {e : ε} {es : List ε} :
    sem.eval (es.foldl Expressions.and e) env = (sem.eval e env && es.all (sem.eval · env)) := by
  induction es generalizing e
  case nil          => simp
  case cons _ _ ih  => simp [ih, sem.eval_and, Bool.and_assoc]

theorem eval_foldl_or {e : ε} {es : List ε} :
    sem.eval (es.foldl Expressions.or e) env = (sem.eval e env || es.any (sem.eval · env)) := by
  induction es generalizing e
  case nil          => simp
  case cons _ _ ih  => simp [ih, sem.eval_or, Bool.or_assoc]

end Expressions.Semantics

-- Expressions as iceberg-cpp builds them: conjunctions and disjunctions fold constant operands away.
inductive Expression
  | true
  | false
  | predicate (op : Operation) (column : String) (literals : List Literal)
  | and (left right : Expression)
  | or (left right : Expression)
  deriving DecidableEq

namespace Expression

def makeAnd : Expression → Expression → Expression
  | .false, _ | _, .false => .false
  | .true, e | e, .true   => e
  | a, b                  => .and a b

def makeOr : Expression → Expression → Expression
  | .true, _ | _, .true   => .true
  | .false, e | e, .false => e
  | a, b                  => .or a b

instance : Expressions Expression where
  alwaysTrue             := .true
  alwaysFalse            := .false
  isNull c               := .predicate .isNull c []
  notNull c              := .predicate .notNull c []
  equal c l              := .predicate .eq c [l]
  notEqual c l           := .predicate .notEq c [l]
  lessThan c l           := .predicate .lt c [l]
  lessThanOrEqual c l    := .predicate .ltEq c [l]
  greaterThan c l        := .predicate .gt c [l]
  greaterThanOrEqual c l := .predicate .gtEq c [l]
  isIn c ls              := .predicate .isIn c ls
  and                    := makeAnd
  or                     := makeOr
  op
    | .true             => .true
    | .false            => .false
    | .predicate op _ _ => op
    | .and _ _          => .and
    | .or _ _           => .or

-- NULL differs from every literal.
def compares (v : Option Datum) (l : Literal) (p : Ordering → Bool) (null : Bool) : Bool :=
  match v with
  | some (.primitive v) => (v.compare l).any p
  | some (.other _ _)   => Bool.false
  | none                => null

def eval : Expression → Environment → Bool
  | .true, _                     => Bool.true
  | .false, _                    => Bool.false
  | .predicate .true _ _, _      => Bool.true
  | .predicate .isNull c _, env  => (env c).isNone
  | .predicate .notNull c _, env => (env c).isSome
  | .predicate .eq c ls, env     => ls.all (compares (env c) · Ordering.isEq Bool.false)
  | .predicate .notEq c ls, env  => ls.all (compares (env c) · Ordering.isNe Bool.true)
  | .predicate .lt c ls, env     => ls.all (compares (env c) · Ordering.isLT Bool.false)
  | .predicate .ltEq c ls, env   => ls.all (compares (env c) · Ordering.isLE Bool.false)
  | .predicate .gt c ls, env     => ls.all (compares (env c) · Ordering.isGT Bool.false)
  | .predicate .gtEq c ls, env   => ls.all (compares (env c) · Ordering.isGE Bool.false)
  | .predicate .isIn c ls, env   => ls.any (compares (env c) · Ordering.isEq Bool.false)
  | .predicate _ _ _, _          => Bool.false
  | .and a b, env                => a.eval env && b.eval env
  | .or a b, env                 => a.eval env || b.eval env

variable {env : Environment} {a b : Expression}

theorem eval_makeAnd : (makeAnd a b).eval env = (a.eval env && b.eval env) := by
  cases a <;> cases b <;> simp [makeAnd, eval]

theorem eval_makeOr : (makeOr a b).eval env = (a.eval env || b.eval env) := by
  cases a <;> cases b <;> simp [makeOr, eval]

theorem compares_primitive {v l : Literal} {o : Ordering} {p : Ordering → Bool} {null : Bool}
    (h : v.compare l = some o) : compares (some (.primitive v)) l p null = p o := by
  simp [compares, h]

def semantics : Expressions.Semantics Expression where
  eval                         := eval
  eval_alwaysTrue              := rfl
  eval_alwaysFalse             := rfl
  eval_and                     := eval_makeAnd
  eval_or                      := eval_makeOr
  eval_isNull                  := rfl
  eval_notNull                 := rfl
  eval_equal hc h              := by simp [eval, Expressions.equal, hc, compares_primitive h]
  eval_notEqual hc h           := by simp [eval, Expressions.notEqual, hc, compares_primitive h]
  eval_lessThan hc h           := by simp [eval, Expressions.lessThan, hc, compares_primitive h]
  eval_lessThanOrEqual hc h    := by
    simp [eval, Expressions.lessThanOrEqual, hc, compares_primitive h]
  eval_greaterThan hc h        := by simp [eval, Expressions.greaterThan, hc, compares_primitive h]
  eval_greaterThanOrEqual hc h := by
    simp [eval, Expressions.greaterThanOrEqual, hc, compares_primitive h]
  eval_isIn hc                 := by simp [eval, Expressions.isIn, hc, compares]

theorem eval_of_op_true {e : Expression} (h : Expressions.op e = .true) : semantics.eval e env := by
  cases e
  case true                => rfl
  case predicate op _ _    => cases h; rfl
  case false | and | or    => exact nomatch h

end Expression

end ProtoIceberg
