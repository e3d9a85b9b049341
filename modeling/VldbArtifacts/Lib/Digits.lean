import Mathlib.Data.Nat.Digits.Defs
import Mathlib.Data.Nat.Log
import Mathlib.Tactic

-- The digits of a number as a text.

namespace Nat

variable {b n : Nat}

theorem exists_digits (hb : 1 < b) (n : Nat) :
    ∃ d ds, toDigits b n = (d :: ds).map digitChar ∧ (∀ x ∈ d :: ds, x < b) ∧
      (d :: ds).foldl (· * b + ·) 0 = n ∧ (n ≠ 0 → d ≠ 0) := by
  induction n using Nat.strongRecOn
  case ind n ih =>
    by_cases h : n < b
    case pos =>
      refine ⟨n, [], toDigits_of_lt_base h, ?_, ?_, id⟩
      · simpa using h
      · simp
    case neg =>
      have ⟨d, ds, hd, hlt, hval, hne⟩ := ih (n / b) (Nat.div_lt_self (by omega) hb)
      refine ⟨d, ds ++ [n % b], ?_, ?_, ?_, ?_⟩
      · rw [toDigits_of_base_le hb (Nat.le_of_not_lt h), hd, ← List.cons_append, List.map_append]
        rfl
      · intro x hx
        rw [← List.cons_append, List.mem_append, List.mem_singleton] at hx
        exact hx.elim (hlt x) (· ▸ Nat.mod_lt _ (by omega))
      · rw [← List.cons_append, List.foldl_append, hval]
        exact Nat.div_add_mod' n b
      · exact fun _ => hne (Nat.div_pos (Nat.le_of_not_lt h) (by omega)).ne'

theorem not_mem_toDigits {c : Char} (hb : 1 < b) (hb' : b ≤ 16) (hc : ∀ d < 16, digitChar d ≠ c) :
    c ∉ toDigits b n := by
  have ⟨d, ds, hd, hlt, _⟩ := exists_digits hb n
  rw [hd, List.mem_map]
  rintro ⟨x, hx, he⟩
  exact hc x (Nat.lt_of_lt_of_le (hlt x hx) hb') he

-- The last `k` digits, with zeros in front.
def padDigits (b : Nat) : Nat → Nat → List Char
  | 0,     _ => []
  | k + 1, n => padDigits b k (n / b) ++ [digitChar (n % b)]

theorem length_padDigits (b k n : Nat) : (padDigits b k n).length = k := by
  induction k generalizing n
  case zero      => rfl
  case succ k ih => rw [padDigits, List.length_append, ih, List.length_singleton]

theorem mul_pow_succ_add_divMod (q r k : Nat) (hb : 0 < b) :
    (q * b ^ (k + 1) + r) / b = q * b ^ k + r / b ∧ (q * b ^ (k + 1) + r) % b = r % b := by
  rw [Nat.pow_succ, ← Nat.mul_assoc, Nat.add_comm]
  constructor
  · rw [Nat.add_mul_div_right _ _ hb, Nat.add_comm]
  · rw [Nat.add_mul_mod_self_right]

theorem toDigits_mul_pow_add {q r k : Nat} (hb : 1 < b) (hq : 0 < q) (hr : r < b ^ k) :
    toDigits b (q * b ^ k + r) = toDigits b q ++ padDigits b k r := by
  induction k generalizing r
  case zero =>
    have : r = 0 := by simpa using hr
    simp [this, padDigits]
  case succ k ih =>
    have hb₀ : 0 < b := by omega
    have ⟨hdiv, hmod⟩ := mul_pow_succ_add_divMod q r k hb₀
    have hle : b ≤ q * b ^ (k + 1) + r :=
      calc b ≤ b ^ (k + 1)           := Nat.le_self_pow (by omega) b
        _    ≤ q * b ^ (k + 1)       := Nat.le_mul_of_pos_left _ hq
        _    ≤ q * b ^ (k + 1) + r   := Nat.le_add_right _ _
    have hr' : r / b < b ^ k := Nat.div_lt_of_lt_mul (Nat.pow_succ' ▸ hr)
    rw [toDigits_of_base_le hb hle, hdiv, hmod, ih hr', padDigits, List.append_assoc]

theorem padDigits_mul_pow_add {q r k : Nat} (hr : r < b ^ k) (j : Nat) :
    padDigits b (j + k) (q * b ^ k + r) = padDigits b j q ++ padDigits b k r := by
  induction k generalizing r
  case zero =>
    have : r = 0 := by simpa using hr
    simp [this, padDigits]
  case succ k ih =>
    have hb₀ : 0 < b := Nat.pos_of_ne_zero fun h => by simp [h] at hr
    have ⟨hdiv, hmod⟩ := mul_pow_succ_add_divMod q r k hb₀
    have hr' : r / b < b ^ k := Nat.div_lt_of_lt_mul (Nat.pow_succ' ▸ hr)
    rw [← Nat.add_assoc, padDigits, hdiv, hmod, ih hr', padDigits, List.append_assoc]

theorem not_mem_padDigits {c : Char} (hb : 1 < b) (hb' : b ≤ 16) (hc : ∀ d < 16, digitChar d ≠ c)
    (k n : Nat) : c ∉ padDigits b k n := by
  induction k generalizing n
  case zero => exact List.not_mem_nil
  case succ k ih =>
    rw [padDigits, List.mem_append, List.mem_singleton, not_or]
    exact ⟨ih _, (hc _ (by have := Nat.mod_lt n (by omega : b > 0); omega)).symm⟩

-- A number is split into its first digit and the rest. Only zero starts with a zero.
theorem exists_lead (hb : 1 < b) (n : Nat) :
    ∃ d k r, d < b ∧ r < b ^ k ∧ n = d * b ^ k + r ∧ (d = 0 → k = 0) := by
  by_cases hn : n = 0
  case pos => exact ⟨0, 0, 0, by omega, by simp, by simp [hn], fun _ => rfl⟩
  case neg =>
    have hpos : 0 < b ^ log b n := Nat.pow_pos (by omega)
    refine ⟨n / b ^ log b n, log b n, n % b ^ log b n, ?_, Nat.mod_lt _ hpos, ?_, ?_⟩
    · exact Nat.div_lt_of_lt_mul (Nat.pow_succ b _ ▸ lt_pow_succ_log_self hb n)
    · exact (Nat.div_add_mod' n _).symm
    · intro h
      have := Nat.div_pos (pow_log_le_self b hn) hpos
      omega

theorem toDigits_lead {d r k : Nat} (hb : 1 < b) (hd : d < b) (hr : r < b ^ k) (h₀ : d = 0 → k = 0) :
    toDigits b (d * b ^ k + r) = digitChar d :: padDigits b k r := by
  by_cases h : d = 0
  case pos =>
    obtain rfl := h₀ h
    have hr : r = 0 := by simpa using hr
    simp [h, hr, padDigits, toDigits_of_lt_base (by omega : 0 < b)]
  case neg => rw [toDigits_mul_pow_add hb (by omega) hr, toDigits_of_lt_base hd]; rfl

end Nat
