import Mathlib.Data.List.Basic

namespace List

variable {α β : Type*}

theorem mapM_eq_some_iff {f : α → Option β} {xs : List α} {ys : List β} :
    xs.mapM f = some ys ↔ xs.map f = ys.map some := by
  induction xs generalizing ys
  case nil => cases ys <;> simp
  case cons x xs ih =>
    cases hx : f x <;> cases hxs : xs.mapM f <;> cases ys <;> simp [hx, hxs, ← ih]

theorem mapM_eq_none_iff {f : α → Option β} {xs : List α} :
    xs.mapM f = none ↔ ∃ x ∈ xs, f x = none := by
  induction xs
  case nil => simp
  case cons x xs ih =>
    rw [exists_mem_cons_iff, ← ih]
    cases hx : f x <;> cases hxs : xs.mapM f <;> simp [hx, hxs]

theorem filterMap_cons_append {f : α → Option β} {x : α} {xs : List α} :
    (x :: xs).filterMap f = (f x).toList ++ xs.filterMap f := by
  cases h : f x <;> simp [h]

theorem filterMap_concat {f : α → Option β} {xs : List α} {x : α} :
    (xs ++ [x]).filterMap f = xs.filterMap f ++ (f x).toList := by
  rw [filterMap_append]
  cases h : f x <;> simp [h]

theorem forall_mem_concat {P : α → Prop} {xs : List α} {x : α} (h : ∀ y ∈ xs, P y) (hx : P x) :
    ∀ y ∈ xs ++ [x], P y :=
  List.forall_mem_append.mpr ⟨h, List.forall_mem_singleton.mpr hx⟩

theorem Pairwise.concat {R : α → α → Prop} {xs : List α} {x : α} (h : xs.Pairwise R)
    (hx : ∀ y ∈ xs, R y x) : (xs ++ [x]).Pairwise R :=
  List.pairwise_append.mpr
    ⟨h, List.pairwise_singleton .., fun y hy => List.forall_mem_singleton.mpr (hx y hy)⟩

-- Lists are split the same at the last occurrence of a separator.
theorem append_cons_inj_of_not_mem {x : α} {xs ys as bs : List α} (ha : x ∉ as) (hb : x ∉ bs)
    (h : xs ++ x :: as = ys ++ x :: bs) : xs = ys ∧ as = bs := by
  have split {as bs : List α} (ha : x ∉ as) (cs : List α) (h : x :: as = cs ++ x :: bs) :
      cs = [] := by
    cases cs
    case nil => rfl
    case cons c cs =>
      have ⟨_, has⟩ := List.cons_eq_cons.mp h
      exact absurd (has ▸ List.mem_append_right _ (List.mem_cons_self ..)) ha
  cases List.append_eq_append_iff.mp h
  case inl h =>
    have ⟨cs, hys, hcs⟩ := h
    cases split ha cs hcs
    exact ⟨by simpa using hys.symm, (List.cons_eq_cons.mp hcs).right⟩
  case inr h =>
    have ⟨cs, hxs, hcs⟩ := h
    cases split hb cs hcs
    exact ⟨by simpa using hxs, (List.cons_eq_cons.mp hcs).right.symm⟩

-- The value of the first key that satisfies `p`.
def valueOf (p : α → Bool) (xs : List (α × β)) : Option β :=
  (xs.find? (p ·.1)).map Prod.snd

-- The keys that have a value, with their values.
def present (xs : List (α × Option β)) : List (α × β) :=
  xs.filterMap fun (key, value) => value.map (key, ·)

theorem valueOf_eq_none {p : α → Bool} {xs : List (α × β)} (h : ∀ x ∈ xs, ¬p x.1) :
    xs.valueOf p = none := by
  rw [valueOf, List.find?_eq_none.mpr h, Option.map_none]

theorem valueOf_eq_some_iff {p : α → Bool} {xs : List (α × β)} {value : β}
    (h : xs.Pairwise fun a b => ¬(p a.1 ∧ p b.1)) :
    xs.valueOf p = some value ↔ ∃ key, (key, value) ∈ xs ∧ p key := by
  induction xs
  case nil => simp [valueOf]
  case cons x xs ih =>
    obtain ⟨key, value'⟩ := x
    rw [List.pairwise_cons] at h
    by_cases hp : p key
    case pos =>
      have hrest : ∀ key', (key', value) ∈ xs → ¬p key' := fun _ hmem hp' => h.left _ hmem ⟨hp, hp'⟩
      constructor
      case mp =>
        intro hv
        have hv : value' = value := by simpa [valueOf, hp] using hv
        exact ⟨key, hv ▸ mem_cons_self, hp⟩
      case mpr =>
        rintro ⟨key', hmem, hp'⟩
        cases List.mem_cons.mp hmem
        case inl he => simp [valueOf, hp, (Prod.mk.inj he).right]
        case inr hm => exact absurd hp' (hrest key' hm)
    case neg =>
      have ih := ih h.right
      rw [valueOf] at ih ⊢
      rw [List.find?_cons_of_neg (by exact hp), ih]
      refine exists_congr fun key' => and_congr_left fun hp' => ?_
      rw [List.mem_cons, or_iff_right]
      exact fun he => hp ((Prod.mk.inj he).left ▸ hp')

theorem valueOf_reverse {p : α → Bool} {xs : List (α × β)}
    (h : xs.Pairwise fun a b => ¬(p a.1 ∧ p b.1)) : xs.reverse.valueOf p = xs.valueOf p := by
  have hreverse : xs.reverse.Pairwise fun a b => ¬(p a.1 ∧ p b.1) :=
    List.pairwise_reverse.mpr <| h.imp fun hab => mt And.symm hab
  ext value
  rw [valueOf_eq_some_iff hreverse, valueOf_eq_some_iff h]
  simp only [mem_reverse]

theorem present_nil : present ([] : List (α × Option β)) = [] :=
  rfl

theorem present_cons {key : α} {value : Option β} {xs : List (α × Option β)} :
    present ((key, value) :: xs) = (value.map (key, ·)).toList ++ xs.present := by
  cases value <;> rfl

theorem mem_present_iff {xs : List (α × Option β)} {x : α × β} :
    x ∈ xs.present ↔ (x.1, some x.2) ∈ xs := by
  rw [present, List.mem_filterMap]
  constructor
  case mp =>
    intro ⟨⟨key, value⟩, hmem, h⟩
    have ⟨_, hvalue, h⟩ := Option.map_eq_some_iff.mp h
    exact h ▸ hvalue ▸ hmem
  case mpr => exact fun h => ⟨_, h, rfl⟩

theorem map_fst_present_sublist {xs : List (α × Option β)} :
    (xs.present.map Prod.fst).Sublist (xs.map Prod.fst) := by
  induction xs
  case nil => exact .slnil
  case cons x xs ih =>
    have ⟨key, value⟩ := x
    rw [present_cons]
    cases value
    case none   => exact ih.cons _
    case some _ => exact ih.cons_cons _

-- The value that is listed for a key is found if no other key satisfies `p`.
theorem valueOf_present_of_mem {p : α → Bool} {xs : List (α × Option β)} {key : α}
    {value : Option β} (h : (xs.map Prod.fst).Pairwise fun a b => ¬(p a ∧ p b))
    (hmem : (key, value) ∈ xs) (hp : p key) : xs.present.valueOf p = value := by
  induction xs
  case nil => exact nomatch hmem
  case cons x xs ih =>
    have ⟨key', value'⟩ := x
    have ⟨hx, hxs⟩ := List.pairwise_cons.mp h
    cases List.mem_cons.mp hmem
    case inr htail =>
      have hp' : ¬p key' := fun hp' => hx key (List.mem_map_of_mem htail) ⟨hp', hp⟩
      cases value' <;> simpa [present, valueOf, hp'] using ih hxs htail
    case inl he =>
      cases he
      cases value
      case some value => simp [present, valueOf, hp]
      case none =>
        have hnone : xs.present.valueOf p = none := by
          refine valueOf_eq_none fun y hy hpy => ?_
          exact hx y.1 (List.mem_map_of_mem (mem_present_iff.mp hy)) ⟨hp, hpy⟩
        simpa [present, valueOf] using hnone

-- Only the keys that are kept are found.
theorem lookup_filter_fst [BEq α] [LawfulBEq α] {p : α → Bool} {xs : List (α × β)} {key : α}
    (h : p key) : (xs.filter (p ·.1)).lookup key = xs.lookup key := by
  induction xs
  case nil => rfl
  case cons x xs ih =>
    have ⟨k, v⟩ := x
    by_cases hk : p k
    case pos => simp only [filter_cons, hk, if_true, lookup_cons, ih]
    case neg =>
      have hne : key ≠ k := fun he => hk (he ▸ h)
      simp [hk, lookup_cons, beq_false_of_ne hne, ih]

-- A key that occurs once has one value.
theorem map_snd_filter_fst [DecidableEq α] {xs : List (α × β)} {key : α} {value : Option β}
    (h : xs.Pairwise (·.1 ≠ ·.1)) (hvalue : ∀ v, (key, v) ∈ xs ↔ value = some v) :
    (xs.filter (·.1 = key)).map Prod.snd = value.toList := by
  induction xs generalizing value
  case nil =>
    cases value
    case none   => rfl
    case some v => exact nomatch (hvalue v).mpr rfl
  case cons x xs ih =>
    have ⟨k, v⟩ := x
    have ⟨hx, hxs⟩ := pairwise_cons.mp h
    by_cases hk : k = key
    case pos =>
      subst hk
      have hnone : xs.filter (·.1 = k) = [] := by
        rw [filter_eq_nil_iff]
        exact fun y hy => by simpa using (hx y hy).symm
      cases (hvalue v).mp mem_cons_self
      simp [hnone]
    case neg =>
      have htail (w : β) : (key, w) ∈ xs ↔ value = some w := by
        rw [← hvalue, mem_cons, or_iff_right]
        exact fun he => hk (congrArg Prod.fst he).symm
      simpa [hk] using ih hxs htail

-- Leaving out elements that do not matter to a search does not change what is found.
theorem filter_flatMap_filter {keep : α → Bool} {f : α → List β} {p : β → Bool} {xs : List α}
    (h : ∀ x ∈ xs, ¬keep x → ∀ y ∈ f x, ¬p y) :
    ((xs.filter keep).flatMap f).filter p = (xs.flatMap f).filter p := by
  induction xs
  case nil => rfl
  case cons x xs ih =>
    have ih := ih fun y hy => h y (mem_cons_of_mem x hy)
    rw [flatMap_cons, filter_append, ← ih]
    by_cases hx : keep x
    case pos => simp [hx]
    case neg =>
      have hnone : (f x).filter p = [] := filter_eq_nil_iff.mpr <| h x mem_cons_self hx
      simp [hx, hnone]

theorem filter_filter_of_forall {p q : α → Bool} {xs : List α} (h : ∀ x ∈ xs.filter p, q x) :
    (xs.filter q).filter p = xs.filter p := by
  rw [filter_filter]
  refine filter_congr fun x hx => ?_
  cases hp : p x
  case false => rfl
  case true  => exact h x (mem_filter.mpr ⟨hx, hp⟩)

end List
