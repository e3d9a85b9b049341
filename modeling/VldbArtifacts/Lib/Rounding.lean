import Mathlib.Tactic
import Mathlib.Data.Int.Log

-- Rounding of rational numbers to the nearest number of a binary floating point format. There is no largest
-- number.

-- The nearest integer, and the even one of two.
def roundEven (q : ℚ) : ℤ :=
  if Int.fract q < 1 / 2 then ⌊q⌋
  else if 1 / 2 < Int.fract q then ⌊q⌋ + 1
  else if ⌊q⌋ % 2 = 0 then ⌊q⌋
  else ⌊q⌋ + 1

section roundEven

variable {q : ℚ} {k : ℤ}

theorem floor_le_roundEven (q : ℚ) : ⌊q⌋ ≤ roundEven q := by
  rw [roundEven]
  split_ifs <;> omega

theorem le_roundEven (h : k ≤ q) : k ≤ roundEven q :=
  (Int.le_floor.mpr h).trans (floor_le_roundEven q)

theorem roundEven_le (h : q ≤ k) : roundEven q ≤ k := by
  have hfloor : ⌊q⌋ ≤ k := by exact_mod_cast (Int.floor_le q).trans h
  have hsucc (hf : 1 / 2 ≤ Int.fract q) : ⌊q⌋ + 1 ≤ k := by
    apply Int.add_one_le_of_lt
    have : (⌊q⌋ : ℚ) < k := by linarith [Int.self_sub_floor q]
    exact_mod_cast this
  rw [roundEven]
  split_ifs with h₁ h₂
  case pos => exact hfloor
  case pos => exact hsucc h₂.le
  case pos => exact hfloor
  case neg => exact hsucc (not_lt.mp h₁)

theorem abs_roundEven_sub_le (q : ℚ) : |roundEven q - q| ≤ 1 / 2 := by
  have := Int.self_sub_floor q
  have := Int.fract_nonneg q
  have := Int.fract_lt_one q
  rw [roundEven, abs_le]
  split_ifs
  all_goals
    push_cast
    constructor <;> linarith

end roundEven

-- `precision` is the number of digits. No digit is below `2 ^ minExp`.
structure FloatFormat where
  precision : ℕ
  minExp    : ℤ
  pos       : 0 < precision

namespace FloatFormat

-- The numbers of type `double`.
def double : FloatFormat :=
  ⟨53, -1074, by norm_num⟩

variable {f : FloatFormat} {q y : ℚ}

-- The exponent of the last digit.
def lastExp (f : FloatFormat) (q : ℚ) : ℤ :=
  max (Int.log 2 q + 1 - f.precision) f.minExp

def round (f : FloatFormat) (q : ℚ) : ℚ :=
  roundEven (q / 2 ^ f.lastExp q) * 2 ^ f.lastExp q

-- The positive numbers of the format, and zero.
def Represents (f : FloatFormat) (y : ℚ) : Prop :=
  ∃ (m : ℕ) (e : ℤ), m ≤ 2 ^ f.precision ∧ f.minExp ≤ e ∧ y = m * 2 ^ e

theorem represents_natCast {n : ℕ} (h : n ≤ 2 ^ f.precision) (he : f.minExp ≤ 0) : f.Represents n :=
  ⟨n, 0, h, he, by simp⟩

theorem round_zero (f : FloatFormat) : f.round 0 = 0 := by
  simp [round, roundEven]

-- An integer multiple of the last place is not crossed.
theorem round_le_of_multiple {k : ℤ} (h : q ≤ k * 2 ^ f.lastExp q) : f.round q ≤ k * 2 ^ f.lastExp q := by
  rw [round]
  gcongr
  exact_mod_cast roundEven_le ((div_le_iff₀ (by positivity)).mpr h)

theorem le_round_of_multiple {k : ℤ} (h : k * 2 ^ f.lastExp q ≤ q) : k * 2 ^ f.lastExp q ≤ f.round q := by
  rw [round]
  gcongr
  exact_mod_cast le_roundEven ((le_div_iff₀ (by positivity)).mpr h)

theorem abs_round_sub_le (f : FloatFormat) (q : ℚ) : |f.round q - q| ≤ 2 ^ f.lastExp q / 2 := by
  have hpos : (0 : ℚ) < 2 ^ f.lastExp q := by positivity
  have hmul : f.round q - q =
      (roundEven (q / 2 ^ f.lastExp q) - q / 2 ^ f.lastExp q) * 2 ^ f.lastExp q := by
    rw [sub_mul, div_mul_cancel₀ _ hpos.ne', round]
  rw [hmul, abs_mul, abs_of_pos hpos]
  have := mul_le_mul_of_nonneg_right (abs_roundEven_sub_le (q / 2 ^ f.lastExp q)) hpos.le
  linarith

-- The place of the first digit, if the number is not too small for all digits.
theorem first_eq (h : f.minExp < f.lastExp q) :
    (2 : ℚ) ^ (f.precision - 1) * 2 ^ f.lastExp q = 2 ^ Int.log 2 q := by
  have hp := f.pos
  have hlog : f.lastExp q = Int.log 2 q + 1 - f.precision := by
    rw [lastExp] at h ⊢
    omega
  rw [← zpow_natCast, ← zpow_add₀ two_ne_zero, hlog, Nat.cast_sub hp]
  ring_nf

-- A number of the format is a multiple of the last place of `q`, or it is not above the first digit of `q`.
theorem Represents.multiple_or_le (hy : f.Represents y) (hq : 0 < q) :
    (∃ k : ℤ, y = k * 2 ^ f.lastExp q) ∨
      ∃ k : ℤ, y ≤ k * 2 ^ f.lastExp q ∧ k * 2 ^ f.lastExp q ≤ q := by
  obtain ⟨m, e, hm, he, hy⟩ := hy
  rcases le_or_gt (f.lastExp q) e with hle | hlt
  case inl =>
    refine .inl ⟨m * 2 ^ (e - f.lastExp q).toNat, ?_⟩
    have : (2 : ℚ) ^ e = 2 ^ (e - f.lastExp q).toNat * 2 ^ f.lastExp q := by
      rw [← zpow_natCast, ← zpow_add₀ two_ne_zero, Int.toNat_of_nonneg (by omega), sub_add_cancel]
    push_cast
    rw [hy, this, mul_assoc]
  case inr =>
    have hfirst := first_eq (he.trans_lt hlt)
    refine .inr ⟨2 ^ (f.precision - 1), ?_, ?_⟩
    case refine_1 =>
      have hexp : (2 : ℚ) ^ e ≤ 2 ^ (f.lastExp q - 1) := zpow_le_zpow_right₀ one_le_two (by omega)
      have hm : (m : ℚ) ≤ 2 ^ f.precision := by exact_mod_cast hm
      calc y
        _ = m * 2 ^ e := hy
        _ ≤ 2 ^ f.precision * 2 ^ (f.lastExp q - 1) := by gcongr
        _ = 2 ^ (f.precision - 1) * 2 ^ f.lastExp q := by
          rw [zpow_sub_one₀ two_ne_zero, ← pow_sub_one_mul f.pos.ne' 2]
          ring
        _ = _ := by push_cast; rfl
    case refine_2 =>
      push_cast
      rw [hfirst]
      exact_mod_cast Int.zpow_log_le_self one_lt_two hq

theorem round_le (hy : f.Represents y) (hq : 0 < q) (h : q ≤ y) : f.round q ≤ y := by
  rcases hy.multiple_or_le hq with ⟨k, rfl⟩ | ⟨k, hle, hge⟩
  case inl => exact round_le_of_multiple h
  case inr =>
    have := round_le_of_multiple (h.trans hle)
    linarith

theorem le_round (hy : f.Represents y) (hq : 0 < q) (h : y ≤ q) : y ≤ f.round q := by
  rcases hy.multiple_or_le hq with ⟨k, rfl⟩ | ⟨k, hle, hge⟩
  case inl => exact le_round_of_multiple h
  case inr => exact hle.trans (le_round_of_multiple hge)

-- The first digit of a number is kept.
theorem two_pow_log_le_round {n : ℕ} (h : n ≠ 0) (hexp : f.minExp ≤ 0) :
    (2 ^ Nat.log 2 n : ℚ) ≤ f.round n := by
  have hrep : f.Represents (2 ^ Nat.log 2 n) :=
    ⟨1, Nat.log 2 n, Nat.one_le_two_pow, hexp.trans (Int.natCast_nonneg _), by simp⟩
  apply le_round hrep (by positivity)
  exact_mod_cast Nat.pow_log_le_self 2 h

theorem round_nonneg (hq : 0 ≤ q) : 0 ≤ f.round q := by
  have := le_roundEven (q := q / 2 ^ f.lastExp q) (k := 0) (by rw [Int.cast_zero]; positivity)
  rw [round]
  positivity

-- The relative error of a number with all digits.
theorem abs_round_sub_le_mul (hq : (2 : ℚ) ^ (f.minExp + f.precision) ≤ q) :
    |f.round q - q| ≤ q / 2 ^ f.precision := by
  have hpos : 0 < q := lt_of_lt_of_le (by positivity) hq
  have hlog : f.minExp + f.precision ≤ Int.log 2 q := by
    apply (Int.zpow_le_iff_le_log one_lt_two hpos).mp
    exact_mod_cast hq
  have hlast : f.minExp < f.lastExp q := by
    rw [lastExp]
    omega
  have hfirst := first_eq hlast
  have hle : (2 : ℚ) ^ Int.log 2 q ≤ q := by exact_mod_cast Int.zpow_log_le_self one_lt_two hpos
  apply (abs_round_sub_le f q).trans
  rw [le_div_iff₀ (by positivity), ← pow_sub_one_mul f.pos.ne' 2]
  linarith

section div

variable {a b : ℕ}

theorem abs_round_div_sub_lt (hb : 0 < b) (hlt : a < 2 ^ f.precision)
    (hmin : (2 : ℚ) ^ (f.minExp + f.precision) ≤ a / b) : |f.round (a / b) - a / b| < 1 / b := by
  apply (abs_round_sub_le_mul hmin).trans_lt
  have ha : (a : ℚ) < 2 ^ f.precision := by exact_mod_cast hlt
  have hb : (0 : ℚ) < b := by exact_mod_cast hb
  rw [div_div, div_lt_div_iff₀ (by positivity) hb]
  nlinarith

theorem one_div_le_div (ha : 0 < a) : (1 / b : ℚ) ≤ a / b := by
  gcongr
  exact_mod_cast ha

-- A quotient of whole numbers with few digits is not rounded across a whole number.
theorem floor_round_div (hb : 0 < b) (hlt : a < 2 ^ f.precision) (hexp : f.minExp ≤ 0)
    (hmin : (2 : ℚ) ^ (f.minExp + f.precision) ≤ 1 / b) : ⌊f.round (a / b)⌋₊ = a / b := by
  rcases a.eq_zero_or_pos with rfl | ha
  case inl => simp [round_zero]
  case inr =>
    have hbpos : (0 : ℚ) < b := by exact_mod_cast hb
    have hq : (0 : ℚ) < a / b := by positivity
    have hle : ((a / b : ℕ) : ℚ) ≤ f.round (a / b) := by
      apply le_round (represents_natCast _ hexp) hq Nat.cast_div_le
      exact (Nat.div_le_self a b).trans hlt.le
    have herr := abs_lt.mp (abs_round_div_sub_lt hb hlt (hmin.trans (one_div_le_div ha)))
    have hnext : (a / b + 1 / b : ℚ) ≤ (a / b : ℕ) + 1 := by
      rw [← add_div, div_le_iff₀ hbpos]
      exact_mod_cast Nat.lt_mul_of_div_lt (Nat.lt_succ_self _) hb
    rw [Nat.floor_eq_iff (le_trans (Nat.cast_nonneg _) hle)]
    exact ⟨hle, by linarith⟩

theorem ceil_round_div (hb : 0 < b) (hlt : a < 2 ^ f.precision) (hexp : f.minExp ≤ 0)
    (hmin : (2 : ℚ) ^ (f.minExp + f.precision) ≤ 1 / b) : ⌈f.round (a / b)⌉₊ = ⌈(a / b : ℚ)⌉₊ := by
  rcases a.eq_zero_or_pos with rfl | ha
  case inl => simp [round_zero]
  case inr =>
    have hbpos : (0 : ℚ) < b := by exact_mod_cast hb
    have hq : (0 : ℚ) < a / b := by positivity
    have hceil : ⌈(a / b : ℚ)⌉₊ ≤ a := by
      rw [Nat.ceil_le, div_le_iff₀ hbpos]
      exact_mod_cast Nat.le_mul_of_pos_right a hb
    have herr := abs_lt.mp (abs_round_div_sub_lt hb hlt (hmin.trans (one_div_le_div ha)))
    rw [Nat.ceil_eq_iff (Nat.ceil_pos.mpr hq).ne']
    constructor
    case left =>
      -- The whole number below the quotient is at least `1 / b` away from it.
      have hprev : ((⌈(a / b : ℚ)⌉₊ - 1 : ℕ) : ℚ) < a / b := by
        apply Nat.lt_ceil.mp
        have := Nat.ceil_pos.mpr hq
        omega
      have : ((⌈(a / b : ℚ)⌉₊ - 1 : ℕ) + 1 / b : ℚ) ≤ a / b := by
        rw [lt_div_iff₀ hbpos] at hprev
        rw [le_div_iff₀ hbpos, add_mul, one_div_mul_cancel hbpos.ne']
        exact_mod_cast hprev
      linarith
    case right => exact round_le (represents_natCast (hceil.trans hlt.le) hexp) hq (Nat.le_ceil _)

end div

end FloatFormat
