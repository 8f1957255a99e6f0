import Mathlib.Logic.Function.Basic
import ProtoIceberg.Extensions.Machine

namespace Machine

variable {σ ι ο σ' ι' ο' κ α : Type*}

-- Machines side by side, of which each input is for one.
def product [DecidableEq κ] (ms : κ → Machine σ ι ο) : Machine (κ → σ) (κ × ι) ο where
  init k := (ms k).init
  step s
    | (k, i) => ((ms k).out (s k) i, Function.update s k ((ms k).next (s k) i))

section

variable [DecidableEq κ] {ms : κ → Machine σ ι ο} {s : κ → σ} {k : κ} {is : List (κ × ι)}

-- The inputs for one of the machines.
def inputs (k : κ) (is : List (κ × ι)) : List ι :=
  is.filterMap fun i => if i.1 = k then some i.2 else none

theorem out_product {i : ι} : (product ms).out s (k, i) = (ms k).out (s k) i :=
  rfl

theorem next_product_eq_update {i : ι} :
    (product ms).next s (k, i) = Function.update s k ((ms k).next (s k) i) :=
  rfl

theorem next_product {i : κ × ι} : (product ms).next s i k =
    if i.1 = k then (ms k).next (s k) i.2 else s k := by
  by_cases h : i.1 = k
  case pos =>
    subst h
    simp [product, next]
  case neg => simp [product, next, h, Function.update_of_ne (Ne.symm h)]

-- Each machine runs as if it were alone.
theorem run_product : (product ms).run s is k = (ms k).run (s k) (inputs k is) := by
  induction is generalizing s
  case nil => rfl
  case cons i is ih =>
    rw [run_cons, ih, next_product]
    by_cases h : i.1 = k <;> simp [h, inputs]

theorem run_product_map {js : List ι} {k' : κ} : (product ms).run s (js.map (k, ·)) k' =
    if k' = k then (ms k').run (s k') js else s k' := by
  induction js generalizing s
  case nil => simp
  case cons j js ih =>
    rw [List.map_cons, run_cons, ih, next_product]
    by_cases h : k' = k
    case pos => simp [h]
    case neg => simp [h, Ne.symm h]

theorem history_product_map {js : List ι} : (product ms).history s (js.map (k, ·)) =
    ((ms k).history (s k) js).map fun (i, o) => ((k, i), o) := by
  induction js generalizing s
  case nil => rfl
  case cons j js ih => simp [history, ih, next_product, out_product]

-- What one of the machines is asked and answers.
def answers (k : κ) (history : List ((κ × ι) × ο)) : List (ι × ο) :=
  history.filterMap fun ((k', i), o) => if k' = k then some (i, o) else none

theorem history_product :
    answers k ((product ms).history s is) = (ms k).history (s k) (inputs k is) := by
  induction is generalizing s
  case nil => rfl
  case cons i is ih =>
    obtain ⟨k', i⟩ := i
    have ih := @ih ((product ms).next s (k', i))
    rw [next_product] at ih
    by_cases h : k' = k
    case pos =>
      subst h
      simpa [history, answers, inputs, out_product] using ih
    case neg => simpa [history, answers, inputs, h] using ih

end

-- The inputs that a run's steps amount to for another machine.
def trace (m : Machine σ ι ο) (f : σ → ι → List ι') (s : σ) : List ι → List ι'
  | []      => []
  | i :: is => f s i ++ trace m f (m.next s i) is

-- A machine refines another one if each of its steps amounts to some steps of the other one.
structure Refines (m : Machine σ ι ο) (m' : Machine σ' ι' ο') (R : σ → σ' → Prop)
    (f : σ → ι → List ι') : Prop where
  init : R m.init m'.init
  next : ∀ {s s'} (i), R s s' → R (m.next s i) (m'.run s' (f s i))

variable {m : Machine σ ι ο} {m' : Machine σ' ι' ο'} {R : σ → σ' → Prop} {f : σ → ι → List ι'}
  {s : σ} {s' : σ'} {is : List ι}

namespace Refines

theorem run_of (h : Refines m m' R f) (hs : R s s') :
    R (m.run s is) (m'.run s' (m.trace f s is)) := by
  induction is generalizing s s'
  case nil => exact hs
  case cons i is ih =>
    rw [run_cons, trace, run_append]
    exact ih (h.next i hs)

theorem run (h : Refines m m' R f) (is : List ι) :
    R (m.run m.init is) (m'.run m'.init (m.trace f m.init is)) :=
  h.run_of h.init

-- Where each step shows the same as the steps that it amounts to, so do whole runs.
theorem history (h : Refines m m' R f) {show₁ : ο → List α} {show₂ : ι' × ο' → List α}
    (ho : ∀ {s s'} (i), R s s' → show₁ (m.out s i) = (m'.history s' (f s i)).flatMap show₂)
    (is : List ι) :
    (m.outs m.init is).flatMap show₁ =
      (m'.history m'.init (m.trace f m.init is)).flatMap show₂ := by
  have go {s : σ} {s' : σ'} (hs : R s s') :
      (m.outs s is).flatMap show₁ = (m'.history s' (m.trace f s is)).flatMap show₂ := by
    induction is generalizing s s'
    case nil => rfl
    case cons i is ih =>
      rw [Machine.outs, trace, history_append, List.flatMap_cons, List.flatMap_append, ho i hs,
        ih (h.next i hs)]
  exact go h.init

end Refines

-- A machine simulates another one if both answer alike and stay related.
structure Simulates (m : Machine σ ι ο) (m' : Machine σ' ι ο) (R : σ → σ' → Prop) : Prop where
  init : R m.init m'.init
  step : ∀ {s s'} (i), R s s' → m.out s i = m'.out s' i ∧ R (m.next s i) (m'.next s' i)

namespace Simulates

variable {m' : Machine σ' ι ο}

theorem run_of (h : Simulates m m' R) (hs : R s s') :
    m.history s is = m'.history s' is ∧ R (m.run s is) (m'.run s' is) := by
  induction is generalizing s s'
  case nil => exact ⟨rfl, hs⟩
  case cons i is ih =>
    obtain ⟨hout, hnext⟩ := h.step i hs
    obtain ⟨hhistory, hrun⟩ := ih hnext
    rw [Machine.history, Machine.history, hout, hhistory]
    exact ⟨rfl, hrun⟩

theorem history (h : Simulates m m' R) (is : List ι) :
    m.history m.init is = m'.history m'.init is :=
  (h.run_of h.init).left

theorem run (h : Simulates m m' R) (is : List ι) : R (m.run m.init is) (m'.run m'.init is) :=
  (h.run_of h.init).right

end Simulates

end Machine
