import Mathlib.Tactic

-- Sums over a family of which one component changes, and over the parts of a list.

namespace Finset

variable {ι α M : Type} [Fintype ι] [DecidableEq ι] [AddCommMonoid M]

theorem sum_update_add (g : α → M) (f : ι → α) (i : ι) (a : α) :
    (∑ j, g (Function.update f i a j)) + g (f i) = (∑ j, g (f j)) + g a := by
  have h : ∑ j ∈ univ.erase i, g (Function.update f i a j) = ∑ j ∈ univ.erase i, g (f j) :=
    sum_congr rfl fun j hj => by rw [Function.update_of_ne (ne_of_mem_erase hj)]
  rw [← add_sum_erase univ _ (mem_univ i), ← add_sum_erase univ (fun j => g (f j)) (mem_univ i), h,
    Function.update_self]
  abel

end Finset

namespace Multiset

variable {α β : Type}

theorem coe_flatMap (l : List α) (f : α → List β) :
    (l.flatMap f : Multiset β) = (l.map fun a => (f a : Multiset β)).sum := by
  induction l
  case nil         => rfl
  case cons a l ih => simp [← ih]

theorem coe_flatMap_finRange {k : Nat} (g : Fin k → α) (f : α → List β) :
    (((List.finRange k).map g).flatMap f : Multiset β) = ∑ i, (f (g i) : Multiset β) := by
  rw [coe_flatMap, Fin.sum_univ_def, List.map_map]
  rfl

end Multiset
