import Mathlib.Data.Fintype.Defs
import Mathlib.Logic.Function.Basic
import Mathlib.Order.RelClasses

-- Threads that take turns by means of locks. Where a thread is in its code tells which locks it holds
-- and which one it waits for.
structure Locking (π κ : Type*) where
  held  : π → List κ
  wants : π → Option κ

namespace Locking

variable {π κ τ ρ : Type*} (l : Locking π κ) {threads : τ → π} {t : τ} {p : π} {k : κ}

def Free (threads : τ → π) (k : κ) : Prop :=
  ∀ t, k ∉ l.held (threads t)

def MayGo (threads : τ → π) (t : τ) : Prop :=
  ∀ k ∈ l.wants (threads t), l.Free threads k

-- No lock is held twice.
def Exclusive (threads : τ → π) : Prop :=
  ∀ t t' k, k ∈ l.held (threads t) → k ∈ l.held (threads t') → t = t'

-- A step takes at most the lock that it has waited for.
def Step (p p' : π) : Prop :=
  ∀ k ∈ l.held p', k ∈ l.held p ∨ k ∈ l.wants p

-- A thread only waits for locks that come after all locks that it holds.
def Ordered [LT ρ] (rank : κ → ρ) : Prop :=
  ∀ p, ∀ k ∈ l.wants p, ∀ k' ∈ l.held p, rank k' < rank k

instance [DecidableEq κ] [Fintype τ] : Decidable (l.Free threads k) :=
  inferInstanceAs <| Decidable (∀ t, k ∉ l.held (threads t))

instance [DecidableEq κ] [Fintype τ] : Decidable (l.MayGo threads t) :=
  match h : l.wants (threads t) with
  | none   => isTrue (by simp [MayGo, h])
  | some k => decidable_of_iff (l.Free threads k) (by simp [MayGo, h])

variable {l}

theorem Exclusive.of_nothing_held (h : ∀ t, l.held (threads t) = []) : l.Exclusive threads := by
  intro t t' k hk
  simp [h] at hk

theorem Exclusive.update [DecidableEq τ] (h : l.Exclusive threads) (hgo : l.MayGo threads t)
    (hs : l.Step (threads t) p) : l.Exclusive (Function.update threads t p) := by
  -- Nobody else holds what the thread holds after the step.
  have other {t' : τ} {k : κ} (hne : t' ≠ t) (hk : k ∈ l.held p) : k ∉ l.held (threads t') := by
    intro hk'
    cases hs k hk
    case inl hold => exact hne (h t' t k hk' hold)
    case inr hw   => exact hgo k hw t' hk'
  intro t₁ t₂ k h₁ h₂
  by_cases e₁ : t₁ = t
  case pos =>
    by_cases e₂ : t₂ = t
    case pos => exact e₁.trans e₂.symm
    case neg =>
      rw [e₁, Function.update_self] at h₁
      rw [Function.update_of_ne e₂] at h₂
      exact absurd h₂ (other e₂ h₁)
  case neg =>
    rw [Function.update_of_ne e₁] at h₁
    by_cases e₂ : t₂ = t
    case pos =>
      rw [e₂, Function.update_self] at h₂
      exact absurd h₁ (other e₁ h₂)
    case neg =>
      rw [Function.update_of_ne e₂] at h₂
      exact h t₁ t₂ k h₁ h₂

-- Following the holders of the locks that threads wait for leads up the ranks, and so to a thread
-- that may go on.
theorem Ordered.exists_mayGo [Preorder ρ] [WellFoundedGT ρ] {rank : κ → ρ} (ho : l.Ordered rank)
    {busy : π → Prop} (hb : ∀ p, ∀ k ∈ l.held p, busy p) (ht : busy (threads t)) :
    ∃ t, busy (threads t) ∧ l.MayGo threads t := by
  have climb (r : ρ) : ∀ t k, busy (threads t) → k ∈ l.wants (threads t) → rank k = r →
      ∃ t, busy (threads t) ∧ l.MayGo threads t := by
    induction r using WellFoundedGT.induction
    case ind r ih =>
      intro t k ht hk hr
      by_cases hfree : l.Free threads k
      case pos => exact ⟨t, ht, fun k' hk' => Option.mem_unique hk hk' ▸ hfree⟩
      case neg =>
        obtain ⟨holder, hheld⟩ : ∃ t, k ∈ l.held (threads t) := by simpa [Free] using hfree
        have hbusy := hb _ k hheld
        cases hw : l.wants (threads holder)
        case none    => exact ⟨holder, hbusy, by simp [MayGo, hw]⟩
        case some k' => exact ih (rank k') (hr ▸ ho _ k' hw k hheld) holder k' hbusy hw rfl
  cases hw : l.wants (threads t)
  case none   => exact ⟨t, ht, by simp [MayGo, hw]⟩
  case some k => exact climb (rank k) t k ht hw rfl

end Locking
