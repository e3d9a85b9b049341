import Mathlib.Tactic

-- Two lists whose items are related one by one.

namespace List

variable {α β γ : Type} {P : α → β → Prop} {xs : List α} {ys : List β}

theorem exists_forall₂ (h : ∀ x ∈ xs, ∃ y, P x y) : ∃ ys, Forall₂ P xs ys := by
  induction xs
  case nil => exact ⟨[], .nil⟩
  case cons x xs ih =>
    rw [forall_mem_cons] at h
    have ⟨y, hy⟩ := h.left
    have ⟨ys, hys⟩ := ih h.right
    exact ⟨y :: ys, .cons hy hys⟩

namespace Forall₂

theorem mapIdx {f : Nat → β → α} (h : ∀ i, ∀ y ∈ ys, P (f i y) y) : Forall₂ P (ys.mapIdx f) ys := by
  induction ys generalizing f
  case nil => exact .nil
  case cons y ys ih =>
    rw [List.mapIdx_cons]
    exact .cons (h 0 y List.mem_cons_self) (ih fun i y hy => h (i + 1) y (List.mem_cons_of_mem _ hy))

theorem map_eq {f : α → γ} {g : β → γ} (h : Forall₂ (fun x y => f x = g y) xs ys) :
    xs.map f = ys.map g := by
  induction h
  case nil           => rfl
  case cons hxy _ ih => rw [map_cons, map_cons, hxy, ih]

theorem exists_getElem? {i : Nat} {x : α} (h : Forall₂ P xs ys) (hx : xs[i]? = some x) :
    ∃ y, ys[i]? = some y ∧ P x y := by
  induction h generalizing i
  case nil => contradiction
  case cons x' y _ _ hxy _ ih =>
    cases i
    case zero   => exact ⟨y, rfl, Option.some.inj hx ▸ hxy⟩
    case succ i => exact ih hx

theorem set {x : α} {y : β} (h : Forall₂ P xs ys) (i : Nat) (hxy : P x y) :
    Forall₂ P (xs.set i x) (ys.set i y) := by
  induction h generalizing i
  case nil => exact .nil
  case cons hp h ih =>
    cases i
    case zero   => exact .cons hxy h
    case succ i => exact .cons hp (ih i)

theorem sum_le {f : α → Nat} {g : β → Nat} (h : Forall₂ (fun x y => g y ≤ f x) xs ys) :
    (ys.map g).sum ≤ (xs.map f).sum := by
  induction h
  case nil           => exact Nat.le_refl 0
  case cons hxy _ ih => exact Nat.add_le_add hxy ih

end Forall₂

theorem length_flatMap_le {f g : α → List β} (h : ∀ x ∈ xs, (f x).length ≤ (g x).length) :
    (xs.flatMap f).length ≤ (xs.flatMap g).length := by
  induction xs
  case nil => exact Nat.le_refl _
  case cons x xs ih =>
    rw [forall_mem_cons] at h
    rw [flatMap_cons, flatMap_cons, length_append, length_append]
    exact Nat.add_le_add h.left (ih h.right)

-- Parts that are never longer are the same if they are the same put together.
theorem flatMap_eq_flatMap_iff {f g : α → List β} (h : ∀ x ∈ xs, (f x).length ≤ (g x).length) :
    xs.flatMap f = xs.flatMap g ↔ ∀ x ∈ xs, f x = g x := by
  refine ⟨fun he => ?_, fun he => flatMap_congr he⟩
  induction xs
  case nil => exact forall_mem_nil _
  case cons x xs ih =>
    rw [forall_mem_cons] at h ⊢
    rw [flatMap_cons, flatMap_cons] at he
    have hlen := congrArg length he
    have hle := length_flatMap_le h.right
    rw [length_append, length_append] at hlen
    have ⟨hx, hxs⟩ := append_inj he (by have := h.left; omega)
    exact ⟨hx, ih h.right hxs⟩

-- What holds after a loop held before it or was brought about by one of its rounds.
theorem foldl_iff {S α : Type} {f : S → α → S} {P : S → Prop} {Q : α → Prop}
    (h : ∀ s a, P (f s a) ↔ P s ∨ Q a) {l : List α} {s : S} :
    P (l.foldl f s) ↔ P s ∨ ∃ a ∈ l, Q a := by
  induction l generalizing s
  case nil => simp
  case cons a l ih => rw [foldl_cons, ih, h, or_assoc, exists_mem_cons_iff]

end List
