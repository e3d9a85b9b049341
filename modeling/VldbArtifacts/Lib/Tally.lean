import Mathlib.Tactic

-- Means that are kept with the number of their values, and without the sum.

@[ext]
structure Tally (K : Type) where
  count : Nat
  avg   : K

namespace Tally

variable {K : Type} [Field K] {t u : Tally K}

def empty : Tally K :=
  ⟨0, 0⟩

def total (t : Tally K) : K :=
  t.count * t.avg

-- One more value.
def push (t : Tally K) (x : K) : Tally K where
  count := t.count + 1
  avg   := t.avg + (x - t.avg) / (t.count + 1 : Nat)

-- The values of both.
def pool (t u : Tally K) : Tally K where
  count := t.count + u.count
  avg   := (t.avg * t.count + u.count * u.avg) / (t.count + u.count)

@[simp]
theorem count_empty : (empty : Tally K).count = 0 :=
  rfl

@[simp]
theorem total_empty : (empty : Tally K).total = 0 := by
  simp [total, empty]

variable [CharZero K]

theorem total_push (t : Tally K) (x : K) : (t.push x).total = t.total + x := by
  have h : ((t.count + 1 : Nat) : K) ≠ 0 := Nat.cast_ne_zero.mpr (Nat.succ_ne_zero _)
  simp only [total, push]
  rw [mul_add, mul_div_cancel₀ _ h]
  push_cast
  ring

theorem total_pool (h : t.count + u.count ≠ 0) : (t.pool u).total = t.total + u.total := by
  have h : (t.count : K) + u.count ≠ 0 := by exact_mod_cast h
  simp only [total, pool, Nat.cast_add]
  rw [mul_div_cancel₀ _ h]
  ring

theorem avg_eq (h : t.count ≠ 0) : t.avg = t.total / t.count := by
  have h : (t.count : K) ≠ 0 := Nat.cast_ne_zero.mpr h
  rw [total, mul_div_cancel_left₀ _ h]

-- The values of all, none of which is empty.
theorem foldl_pool (ts : List (Tally K)) (t : Tally K) (h : ∀ u ∈ ts, u.count ≠ 0) :
    (ts.foldl pool t).count = t.count + (ts.map count).sum ∧
      (ts.foldl pool t).total = t.total + (ts.map total).sum := by
  induction ts generalizing t
  case nil => simp
  case cons u ts hi =>
    have hu := h u (List.mem_cons_self ..)
    have ⟨hc, ht⟩ := hi (t.pool u) fun v hv => h v (List.mem_cons_of_mem _ hv)
    simp only [List.foldl_cons, List.map_cons, List.sum_cons]
    constructor
    case left  => rw [hc, ← Nat.add_assoc]; rfl
    case right => rw [ht, total_pool (by omega), add_assoc]

theorem foldl_pool_empty (ts : List (Tally K)) (h : ∀ u ∈ ts, u.count ≠ 0) :
    ts.foldl pool empty =
      ⟨(ts.map count).sum, (ts.map total).sum / ((ts.map count).sum : Nat)⟩ := by
  cases ts
  case nil => simp [empty]
  case cons t ts =>
    have ⟨hc, ht⟩ := foldl_pool (t :: ts) empty h
    have hpos := h t (List.mem_cons_self ..)
    rw [count_empty, Nat.zero_add] at hc
    rw [total_empty, zero_add] at ht
    refine Tally.ext hc ?_
    rw [avg_eq, ht, hc]
    rw [hc, List.map_cons, List.sum_cons]
    omega

end Tally
