import Mathlib.Data.List.Forall2
import Mathlib.Data.List.Induction

namespace Except

variable {ε α β : Type}

-- The computation fails if and only if `bad` holds, and is `good` otherwise.
def FailsIff (bad : Prop) (good : α → Prop) : Except ε α → Prop
  | .error _ => bad
  | .ok a    => ¬bad ∧ good a

namespace FailsIff

variable {x : Except ε α} {f : α → Except ε β} {bad bad' : Prop} {good good' : α → Prop}
  {good'' : β → Prop} {a : α}

theorem ok (h : good a) : FailsIff False good (.ok a : Except ε α) :=
  ⟨id, h⟩

theorem error {e : ε} : FailsIff True good (.error e) :=
  trivial

theorem imp (h : x.FailsIff bad good) (hb : bad ↔ bad') (hg : ∀ a, x = .ok a → good a → good' a) :
    x.FailsIff bad' good' := by
  cases x
  case error => exact hb.mp h
  case ok a  => exact ⟨hb.not.mp h.left, hg a rfl h.right⟩

theorem bind (h : x.FailsIff bad good) (hf : ∀ a, good a → (f a).FailsIff bad' good'') :
    (x >>= f).FailsIff (bad ∨ bad') good'' := by
  cases x
  case error => exact Or.inl h
  case ok a  =>
    refine (hf a h.right).imp ?_ fun _ _ => id
    exact (or_iff_right h.left).symm

-- A continuation that does not fail.
theorem bind_ok (h : x.FailsIff bad good) (hf : ∀ a, good a → ∃ b, f a = .ok b ∧ good'' b) :
    (x >>= f).FailsIff bad good'' := by
  refine (h.bind fun a ha => ?_).imp (or_iff_left id) fun _ _ => id
  have ⟨b, hb, hg⟩ := hf a ha
  rw [hb]
  exact ok hg

theorem error_iff (h : x.FailsIff bad good) : (∃ e, x = .error e) ↔ bad := by
  cases x
  case error e => exact iff_of_true ⟨e, rfl⟩ h
  case ok a    => exact iff_of_false nofun h.left

theorem of_ok (h : x.FailsIff bad good) (hx : x = .ok a) : good a :=
  (hx ▸ h : FailsIff bad good (.ok a)).right

theorem not_of_ok (h : x.FailsIff bad good) (hx : x = .ok a) : ¬bad :=
  (hx ▸ h : FailsIff bad good (.ok a)).left

-- A traversal fails if one of its steps does.
theorem mapM {g : α → Except ε β} {xs : List α} {bad : α → Prop} {good : α → β → Prop}
    (h : ∀ x ∈ xs, (g x).FailsIff (bad x) (good x)) :
    (xs.mapM g).FailsIff (∃ x ∈ xs, bad x) (List.Forall₂ good xs) := by
  induction xs
  case nil => exact ⟨by simp, .nil⟩
  case cons x xs ih =>
    have hx : (g x).FailsIff (bad x) (good x) := h x List.mem_cons_self
    have hxs := ih fun y hy => h y (List.mem_cons_of_mem x hy)
    rw [List.mapM_cons]
    refine (hx.bind fun y hy => hxs.bind_ok fun ys hys => ?_).imp ?_ fun _ _ => id
    case refine_1 => exact ⟨_, rfl, .cons hy hys⟩
    case refine_2 => simp

-- A loop fails if one of its steps does, and keeps an invariant of the elements that it has seen.
theorem foldlM {step : β → α → Except ε β} {xs : List α} {b : β} {bad : α → Prop}
    (good : List α → β → Prop) (h₀ : good [] b)
    (h : ∀ xs x b, good xs b → (step b x).FailsIff (bad x) (good (xs ++ [x]))) :
    (xs.foldlM step b).FailsIff (∃ x ∈ xs, bad x) (good xs) := by
  induction xs using List.reverseRecOn
  case nil => exact ⟨by simp, h₀⟩
  case append_singleton xs x ih =>
    have hx b (hb : good xs b) : ([x].foldlM step b).FailsIff (bad x) (good (xs ++ [x])) := by
      simpa using h xs x b hb
    rw [List.foldlM_append]
    refine (ih.bind hx).imp ?_ fun _ _ => id
    simp [or_and_right, exists_or]

end FailsIff

end Except
