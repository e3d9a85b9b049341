import VldbArtifacts.Ramulator.Controller
import Mathlib.Data.List.MinMax

-- The request that a scheduler chooses from a queue.

namespace Ramulator

open DDR4

namespace Controller

variable {c : Controller} {q : List Request}

-- What a policy orders the requests by: those it favours come first, and older ones before younger ones.
def priority (c : Controller) (type : Scheduler.Type) (r : Request × Nat) : Bool ×ₗ Int :=
  toLex (!c.favours type r.1, r.1.arrive)

theorem compare_eq (type : Scheduler.Type) (a b : Request × Nat) :
    c.compare type a b = if c.priority type b < c.priority type a then b else a := by
  have hlt : c.priority type b < c.priority type a ↔ (!c.favours type b.1) < (!c.favours type a.1) ∨
      (!c.favours type b.1) = (!c.favours type a.1) ∧ b.1.arrive < a.1.arrive := Prod.Lex.toLex_lt_toLex
  have hle : (if a.1.arrive ≤ b.1.arrive then a else b) = if b.1.arrive < a.1.arrive then b else a := by
    simp only [← not_le, ite_not]
  simp only [hlt, compare]
  cases c.favours type a.1 <;> cases c.favours type b.1 <;> simp [hle]

-- The comparison of a whole list finds the first of the requests of the highest priority.
theorem foldl_compare (type : Scheduler.Type) (a : Request × Nat) (l : List (Request × Nat)) :
    (a :: l).argmin (c.priority type) = some (l.foldl (c.compare type) a) := by
  have hfold : ∀ a, l.foldl (List.argAux fun b a => c.priority type b < c.priority type a) (some a) =
      some (l.foldl (c.compare type) a) := by
    induction l
    case nil => exact fun _ => rfl
    case cons b l hi =>
      intro a
      rw [List.foldl_cons, List.foldl_cons, compare_eq, ← hi]
      congr 1
      simp only [List.argAux]
      split <;> rfl
  exact hfold a

theorem getHead_eq_argmin (h : c.scheduler.type ≠ .frfcfsPriorHit) :
    c.getHead q = q.zipIdx.argmin (c.priority c.scheduler.type) := by
  unfold getHead
  cases q.zipIdx
  case nil       => rfl
  case cons r rs => simp [h, foldl_compare]

theorem foldl_compare_mem (type : Scheduler.Type) (a : Request × Nat) (l : List (Request × Nat)) :
    l.foldl (c.compare type) a ∈ a :: l :=
  List.argmin_mem (foldl_compare type a l)

-- The scheduler chooses a request of the queue.
theorem getHead_eq_some {r : Request × Nat} (h : c.getHead q = some r) : q[r.2]? = some r.1 := by
  suffices hmem : r ∈ q.zipIdx by simpa [List.mem_zipIdx_iff_getElem?] using hmem
  unfold getHead at h
  split at h
  case h_1 => cases h
  case h_2 a l hq =>
    have hhead := foldl_compare_mem (c := c) c.scheduler.type a l
    rw [hq]
    simp only at h
    split_ifs at h
    case pos => cases h; exact hhead
    case pos => cases h; exact hhead
    case neg =>
      split at h
      case h_1 => cases h
      case h_2 b l' hf =>
        cases h
        have hmem := foldl_compare_mem (c := c) .frfcfs b l'
        rw [← hf] at hmem
        exact (List.mem_filter.mp hmem).1

end Controller

end Ramulator
