import Mathlib.Data.List.DropRight
import Mathlib.Order.Basic

-- A log of the changes to some value, in the order in which they were made.
structure Timeline.Entry (τ α : Type*) where
  time  : τ
  value : α
  deriving DecidableEq

abbrev Timeline (τ α : Type*) := List (Timeline.Entry τ α)

namespace Timeline

variable {τ α : Type*} {l l' l'' : Timeline τ α} {t : τ}

def latest (l : Timeline τ α) : Option α :=
  l.getLast?.map Entry.value

theorem latest_concat {e : Entry τ α} : latest (l ++ [e]) = some e.value := by
  simp [latest]

theorem latest_of_suffix (h : l' <:+ l) (hn : l' ≠ []) : latest l' = latest l := by
  have ⟨dropped, h⟩ := h
  rw [latest, latest, ← h, List.getLast?_append_of_ne_nil _ hn]

-- Forgets the entries up to the last one that satisfies the predicate.
def forget (p : α → Bool) (l : Timeline τ α) : Timeline τ α :=
  l.rtakeWhile fun e => !p e.value

theorem forget_suffix {p : α → Bool} : l.forget p <:+ l :=
  List.rtakeWhile_suffix _ _

theorem not_of_mem_forget {p : α → Bool} {e : Entry τ α} (h : e ∈ l.forget p) : ¬p e.value := by
  simpa using List.mem_rtakeWhile_imp h

-- An entry that is the last one is never forgotten on account of the earlier ones.
theorem latest_forget {p : α → Bool} (h : ∀ a ∈ l.latest, ¬p a) : (l.forget p).latest = l.latest := by
  cases l using List.reverseRecOn
  case nil => rfl
  case append_singleton l e _ =>
    have he : ¬p e.value := h _ latest_concat
    rw [forget, List.rtakeWhile_concat_pos _ _ _ (by simpa using he), latest_concat, latest_concat]

section

variable [LE τ] [DecidableLE τ]

-- The value of the last entry that is no later than `t`.
def asOf (l : Timeline τ α) (t : τ) : Option α :=
  latest (l.filter (·.time ≤ t))

-- What a log says about the time up to `t` is at most forgotten from the front.
def Evolves (t : τ) (l l' : Timeline τ α) : Prop :=
  l'.filter (·.time ≤ t) <:+ l.filter (·.time ≤ t)

theorem asOf_eq_latest (h : ∀ e ∈ l, e.time ≤ t) : l.asOf t = l.latest := by
  rw [asOf, List.filter_eq_self.mpr (by simpa using h)]

theorem asOf_concat {e : Entry τ α} (h : ¬e.time ≤ t) : asOf (l ++ [e]) t = l.asOf t := by
  simp [asOf, h]

namespace Evolves

theorem refl : Evolves t l l :=
  List.suffix_rfl

theorem trans (h : Evolves t l l') (h' : Evolves t l' l'') : Evolves t l l'' :=
  List.IsSuffix.trans h' h

theorem concat {e : Entry τ α} (h : ¬e.time ≤ t) : Evolves t l (l ++ [e]) := by
  simp [Evolves, h]

theorem forget {p : α → Bool} : Evolves t l (l.forget p) :=
  forget_suffix.filter _

-- Looking up the value at `t` later on yields the same value, unless it has been forgotten.
theorem asOf_eq_of_some {a : α} (h : Evolves t l l') (ha : l'.asOf t = some a) :
    l.asOf t = some a := by
  rw [← ha]
  refine latest_of_suffix h ?_ |>.symm
  intro hn
  rw [asOf, hn] at ha
  exact nomatch ha

end Evolves

end

end Timeline
