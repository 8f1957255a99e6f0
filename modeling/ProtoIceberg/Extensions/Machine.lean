import Mathlib.Data.List.Induction

-- A machine answers each input `i : ι` with an output `o : ο` and moves on to its next state.
-- Inputs that the environment chooses freely (answers of a server, say) are part of `ι`.
structure Machine (σ ι ο : Type*) where
  init : σ
  step : σ → ι → ο × σ

namespace Machine

variable {σ ι ο : Type*} (m : Machine σ ι ο)

def out (s : σ) (i : ι) : ο :=
  (m.step s i).1

def next (s : σ) (i : ι) : σ :=
  (m.step s i).2

def run (s : σ) (is : List ι) : σ :=
  is.foldl m.next s

def outs (s : σ) : List ι → List ο
  | []      => []
  | i :: is => m.out s i :: outs (m.next s i) is

def Reachable (s : σ) : Prop :=
  ∃ is, s = m.run m.init is

variable {m} {s : σ} {P : σ → Prop} {is : List ι}

@[simp]
theorem run_nil : m.run s [] = s :=
  rfl

@[simp]
theorem run_cons {i : ι} : m.run s (i :: is) = m.run (m.next s i) is :=
  rfl

theorem run_append {js : List ι} : m.run s (is ++ js) = m.run (m.run s is) js := by
  simp [run]

theorem run_concat {i : ι} : m.run s (is ++ [i]) = m.next (m.run s is) i := by
  simp [run_append]

theorem Reachable.init : m.Reachable m.init :=
  ⟨[], rfl⟩

theorem Reachable.run (h : m.Reachable s) (is : List ι) : m.Reachable (m.run s is) := by
  obtain ⟨js, rfl⟩ := h
  exact ⟨js ++ is, run_append.symm⟩

theorem Reachable.next (h : m.Reachable s) (i : ι) : m.Reachable (m.next s i) :=
  h.run [i]

-- What a single step preserves, given that its input satisfies `Q`, a whole run preserves.
theorem run_induction {Q : ι → Prop} (hstep : ∀ s i, Q i → P s → P (m.next s i))
    (hs : P s) (hi : ∀ i ∈ is, Q i) : P (m.run s is) := by
  induction is generalizing s
  case nil => exact hs
  case cons i is ih =>
    have hn := hstep s i (hi i (by simp)) hs
    exact ih hn fun j hj => hi j (by simp [hj])

-- What each step preserves, given where in the inputs it stands, the whole run preserves.
theorem run_prefix_induction (hs : P s)
    (hstep : ∀ pre i, pre ++ [i] <+: is → P (m.run s pre) → P (m.next (m.run s pre) i)) :
    P (m.run s is) := by
  induction is using List.reverseRecOn
  case nil => exact hs
  case append_singleton is i ih =>
    rw [run_concat]
    apply hstep is i List.prefix_rfl
    exact ih fun pre j hpre => hstep pre j <| hpre.trans <| List.prefix_append is [i]

theorem run_preserves (hstep : ∀ s i, P s → P (m.next s i)) (hs : P s) : P (m.run s is) :=
  run_induction (Q := fun _ => True) (fun s i _ => hstep s i) hs (by simp)

theorem Reachable.invariant (hinit : P m.init) (hstep : ∀ s i, P s → P (m.next s i))
    (h : m.Reachable s) : P s := by
  obtain ⟨is, rfl⟩ := h
  exact run_preserves hstep hinit

theorem outs_append {js : List ι} : m.outs s (is ++ js) = m.outs s is ++ m.outs (m.run s is) js := by
  induction is generalizing s
  case nil          => rfl
  case cons i is ih => simp [outs, ih]

-- An invariant that also speaks of the inputs and outputs so far.
theorem run_history_induction {P : List ι → σ → List ο → Prop} (hs : P [] s [])
    (hstep : ∀ is s os i, P is s os → P (is ++ [i]) (m.next s i) (os ++ [m.out s i])) :
    P is (m.run s is) (m.outs s is) := by
  induction is using List.reverseRecOn
  case nil => exact hs
  case append_singleton is i ih =>
    rw [run_concat, outs_append]
    exact hstep _ _ _ i ih

theorem run_outs_induction {P : σ → List ο → Prop} (hs : P s [])
    (hstep : ∀ s os i, P s os → P (m.next s i) (os ++ [m.out s i])) :
    P (m.run s is) (m.outs s is) :=
  run_history_induction (P := fun _ => P) hs fun _ => hstep

-- The inputs with the outputs that answer them.
def history (m : Machine σ ι ο) (s : σ) : List ι → List (ι × ο)
  | []      => []
  | i :: is => (i, m.out s i) :: history m (m.next s i) is

theorem history_append {js : List ι} :
    m.history s (is ++ js) = m.history s is ++ m.history (m.run s is) js := by
  induction is generalizing s
  case nil          => rfl
  case cons i is ih => simp [history, ih]

theorem run_trace_induction {P : σ → List (ι × ο) → Prop} (hs : P s [])
    (hstep : ∀ s h i, P s h → P (m.next s i) (h ++ [(i, m.out s i)])) :
    P (m.run s is) (m.history s is) := by
  induction is using List.reverseRecOn
  case nil => exact hs
  case append_singleton is i ih =>
    rw [run_concat, history_append]
    exact hstep _ _ i ih

-- Outputs that establish `P` and do not occur once `P` holds, occur at most once.
theorem countP_outs_le_one {p : ο → Bool} (hp : ∀ s i, p (m.out s i) → P (m.next s i))
    (hn : ∀ s i, P s → P (m.next s i) ∧ ¬p (m.out s i)) : (m.outs s is).countP p ≤ 1 := by
  have none_after {s : σ} {is : List ι} (hs : P s) : (m.outs s is).countP p = 0 := by
    induction is generalizing s
    case nil => rfl
    case cons i is ih =>
      have ⟨hnext, hout⟩ := hn s i hs
      rw [outs, List.countP_cons_of_neg hout, ih hnext]
  induction is generalizing s
  case nil => exact Nat.zero_le 1
  case cons i is ih =>
    by_cases hout : p (m.out s i)
    case pos => simp [outs, hout, none_after (hp s i hout)]
    case neg => simpa [outs, hout] using ih

end Machine
