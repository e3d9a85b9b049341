import Mathlib.Data.Fin.Basic
import Mathlib.Data.Int.ModEq
import Mathlib.Tactic

-- Queues of a fixed size that are filled in turn.

namespace RoundRobin

variable {m : Nat} [NeZero m] {size : Nat} {len : Fin m → Nat} {cur : Fin m} {k : Nat}

-- The queue `i` turns after `cur`.
def turn (cur : Fin m) (i : Nat) : Fin m :=
  Fin.ofNat m (cur + i)

theorem turn_zero : turn cur 0 = cur :=
  Fin.ext (Nat.mod_eq_of_lt cur.isLt)

theorem turn_succ (i : Nat) : turn (turn cur 1) i = turn cur (i + 1) := by
  apply Fin.ext
  simp only [turn, Fin.val_ofNat, Nat.mod_add_mod]
  congr 1
  omega

theorem turn_eq_self_iff (i : Nat) : turn cur i = cur ↔ m ∣ i := by
  rw [Fin.ext_iff, turn, Fin.val_ofNat]
  constructor
  case mp =>
    intro h
    apply (Nat.modEq_zero_iff_dvd).mp
    apply Nat.ModEq.add_left_cancel' cur.val
    exact h.trans (Nat.mod_eq_of_lt cur.isLt).symm
  case mpr =>
    rintro ⟨j, rfl⟩
    rw [Nat.add_mul_mod_self_left, Nat.mod_eq_of_lt cur.isLt]

-- Queues that hold `len` items have room for `k` more, the first of which goes to queue `cur`: the
-- `i`-th one finds the items that were there and one from each round before its own.
def HasRoom (size : Nat) (len : Fin m → Nat) (cur : Fin m) (k : Nat) : Prop :=
  ∀ i < k, len (turn cur i) + i / m < size

theorem HasRoom.mono {k' : Nat} (h : HasRoom size len cur k) (hk : k' ≤ k) : HasRoom size len cur k' :=
  fun i hi => h i (Nat.lt_of_lt_of_le hi hk)

theorem HasRoom.head (h : HasRoom size len cur (k + 1)) : len cur < size := by
  have := h 0 (Nat.succ_pos k)
  rwa [turn_zero, Nat.zero_div] at this

-- What a later item finds, seen from the queue after `cur`.
theorem found_succ (i : Nat) :
    Function.update len cur (len cur + 1) (turn cur (i + 1)) + i / m =
      len (turn cur (i + 1)) + (i + 1) / m := by
  rw [Nat.succ_div]
  by_cases hd : m ∣ i + 1
  case pos =>
    rw [(turn_eq_self_iff _).mpr hd, Function.update_self, if_pos hd]
    omega
  case neg =>
    rw [Function.update_of_ne (mt (turn_eq_self_iff _).mp hd), if_neg hd]
    rfl

-- The first item takes its place, the others go on with the next queue.
theorem hasRoom_succ : HasRoom size len cur (k + 1) ↔
    len cur < size ∧ HasRoom size (Function.update len cur (len cur + 1)) (turn cur 1) k := by
  constructor
  case mp =>
    intro h
    refine ⟨h.head, fun i hi => ?_⟩
    rw [turn_succ, found_succ]
    exact h (i + 1) (Nat.succ_lt_succ hi)
  case mpr =>
    rintro ⟨h₀, h⟩ i hi
    cases i
    case zero   => rwa [turn_zero, Nat.zero_div]
    case succ i =>
      rw [← found_succ, ← turn_succ]
      exact h i (Nat.lt_of_succ_lt_succ hi)

end RoundRobin
