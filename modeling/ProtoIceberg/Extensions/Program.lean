import Mathlib.Data.DFinsupp.WellFounded
import ProtoIceberg.Extensions.Locking
import ProtoIceberg.Extensions.Machine

-- Code that threads run on a shared state `σ`. A thread's step depends on the point `π` where it is and
-- on what the environment provides, and takes at most the lock that the thread has waited for.
structure Program (σ π ι ο κ : Type*) extends Locking π κ where
  step  : π → ι → σ → ο × π × σ
  takes : ∀ p i s, toLocking.Step p (step p i s).2.1

namespace Program

-- Where the threads are, and the state that they share.
structure Threads (σ π τ : Type*) where
  shared : σ
  points : τ → π

section

variable {σ π ι ο κ τ : Type*} (prog : Program σ π ι ο κ)

def shown (p : π) (i : ι) (s : σ) : ο :=
  (prog.step p i s).1

def point (p : π) (i : ι) (s : σ) : π :=
  (prog.step p i s).2.1

def effect (p : π) (i : ι) (s : σ) : σ :=
  (prog.step p i s).2.2

-- What is known at each point. A thread establishes what is known at its next point, and threads that
-- have no locks in common do not interfere with what the other ones know.
structure Outline (knows : π → σ → Prop) : Prop where
  step      : ∀ p i s, knows p s → knows (prog.point p i s) (prog.effect p i s)
  unharmed  : ∀ p q i s, knows p s → knows q s → (∀ k ∈ prog.held p, k ∉ prog.held q) →
    knows q (prog.effect p i s)

variable [DecidableEq τ]

def advance (c : Threads σ π τ) (t : τ) (i : ι) : Threads σ π τ where
  shared := prog.effect (c.points t) i c.shared
  points := Function.update c.points t (prog.point (c.points t) i c.shared)

variable [DecidableEq κ] [Fintype τ]

-- Any thread may go next, unless it waits for a lock that is held.
def machine (shared : σ) (idle : π) : Machine (Threads σ π τ) (τ × ι) (Option ο) where
  init := { shared, points := fun _ => idle }
  step c
    | (t, i) =>
      if prog.MayGo c.points t then
        (some (prog.shown (c.points t) i c.shared), prog.advance c t i)
      else
        (none, c)

end

variable {σ π ι ο κ τ : Type*} {prog : Program σ π ι ο κ} {shared : σ} {idle : π}
  [DecidableEq κ] [DecidableEq τ] [Fintype τ] {c : Threads σ π τ}

variable (prog) in
theorem next_cases (shared : σ) (idle : π) (c : Threads σ π τ) (t : τ) (i : ι) :
    let m := prog.machine shared idle
    prog.MayGo c.points t ∧ m.next c (t, i) = prog.advance c t i ∧
      m.out c (t, i) = some (prog.shown (c.points t) i c.shared) ∨
    ¬prog.MayGo c.points t ∧ m.next c (t, i) = c ∧ m.out c (t, i) = none := by
  dsimp only [machine, Machine.next, Machine.out]
  split
  case isTrue h  => exact .inl ⟨h, rfl, rfl⟩
  case isFalse h => exact .inr ⟨h, rfl, rfl⟩

theorem reachable_induction {P : Threads σ π τ → Prop} (hinit : P ⟨shared, fun _ => idle⟩)
    (hstep : ∀ c t i, P c → prog.MayGo c.points t → P (prog.advance c t i))
    (h : (prog.machine shared idle).Reachable c) : P c := by
  refine h.invariant (P := P) hinit ?_
  rintro c ⟨t, i⟩ hc
  cases next_cases prog shared idle c t i
  case inl hn =>
    rw [hn.right.left]
    exact hstep c t i hc hn.left
  case inr hn =>
    rw [hn.right.left]
    exact hc

theorem exclusive (hidle : prog.held idle = [])
    (h : (prog.machine shared idle).Reachable c) : prog.Exclusive c.points :=
  reachable_induction (P := fun c => prog.Exclusive c.points) (.of_nothing_held fun _ => hidle)
    (fun _ _ _ hx hgo => hx.update hgo (prog.takes _ _ _)) h

-- Whatever the interleaving, each thread can rely on what is known at its point.
theorem Outline.reachable {knows : π → σ → Prop} (ho : prog.Outline knows)
    (hidle : prog.held idle = []) (hstart : knows idle shared)
    (h : (prog.machine shared idle).Reachable c) (t : τ) :
    knows (c.points t) c.shared := by
  have hboth : prog.Exclusive c.points ∧ ∀ t, knows (c.points t) c.shared := by
    refine reachable_induction
      (P := fun c => prog.Exclusive c.points ∧ ∀ t, knows (c.points t) c.shared) ?_ ?_ h
    case refine_1 => exact ⟨.of_nothing_held fun _ => hidle, fun _ => hstart⟩
    case refine_2 =>
      intro c t i hc hgo
      refine ⟨hc.left.update hgo (prog.takes _ _ _), fun t' => ?_⟩
      dsimp only [advance]
      by_cases ht : t' = t
      case pos =>
        subst ht
        rw [Function.update_self]
        exact ho.step _ i _ (hc.right t')
      case neg =>
        rw [Function.update_of_ne ht]
        apply ho.unharmed _ _ i _ (hc.right t) (hc.right t')
        exact fun k hk hk' => ht (hc.left t' t k hk' hk)
  exact hboth.right t

-- Where locks are taken in order and every step of a busy thread gets it closer to its end, there is
-- always a schedule that brings all threads to their ends.
theorem exists_schedule {ρ α : Type*} [Preorder ρ] [WellFoundedGT ρ] [Preorder α] [WellFoundedLT α]
    {rank : κ → ρ} {busy : π → Prop} {remaining : π → α} (ho : prog.Ordered rank)
    (hb : ∀ p, ∀ k ∈ prog.held p, busy p) (i : ι)
    (hr : ∀ p s, busy p → remaining (prog.point p i s) < remaining p) (c : Threads σ π τ) :
    ∃ schedule : List τ, ∀ t,
      ¬busy (((prog.machine shared idle).run c (schedule.map (·, i))).points t) := by
  have go (f : τ → α) (c : Threads σ π τ) (hf : f = fun t => remaining (c.points t)) :
      ∃ schedule : List τ, ∀ t,
        ¬busy (((prog.machine shared idle).run c (schedule.map (·, i))).points t) := by
    induction f using WellFoundedLT.induction generalizing c
    case ind f ih =>
      by_cases hbusy : ∃ t, busy (c.points t)
      case neg => exact ⟨[], by simpa using hbusy⟩
      case pos =>
        obtain ⟨t, ht⟩ := hbusy
        obtain ⟨t, ht, hgo⟩ := ho.exists_mayGo hb ht
        have hlt : (fun t' => remaining ((prog.advance c t i).points t')) < f := by
          subst hf
          have hu : (fun t' => remaining ((prog.advance c t i).points t')) =
              Function.update (fun t' => remaining (c.points t')) t
                (remaining (prog.point (c.points t) i c.shared)) := by
            funext t'
            by_cases he : t' = t
            case pos => subst he; simp [advance]
            case neg => simp [advance, Function.update_of_ne he]
          rw [hu, update_lt_self_iff]
          exact hr _ _ ht
        obtain ⟨schedule, hs⟩ := ih _ hlt _ rfl
        refine ⟨t :: schedule, ?_⟩
        have hnext : (prog.machine shared idle).next c (t, i) = prog.advance c t i := by
          simp [machine, Machine.next, hgo]
        rw [List.map_cons, Machine.run_cons, hnext]
        exact hs
  exact go _ c rfl

end Program
