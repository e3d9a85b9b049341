import Mathlib.Algebra.BigOperators.Group.List.Basic
import Mathlib.Tactic

-- A number as a record of bit fields, the lowest of which comes first.

namespace BitFields

variable {F : Type*} (w : F → Nat)

def get [DecidableEq F] : List F → Nat → F → Nat
  | [], _, _      => 0
  | f :: fs, n, g => if g = f then n % 2 ^ w f else get fs (n / 2 ^ w f) g

def put : List F → (F → Nat) → Nat
  | [], _      => 0
  | f :: fs, v => v f + 2 ^ w f * put fs v

def width (fs : List F) : Nat :=
  (fs.map w).sum

variable {w} {fs : List F} {f : F} {n : Nat} {v : F → Nat}

theorem width_cons : width w (f :: fs) = w f + width w fs := by
  simp [width]

theorem two_pow_width (w : F → Nat) (fs : List F) : 2 ^ width w fs = (fs.map fun f => 2 ^ w f).prod := by
  induction fs
  case nil => rfl
  case cons f fs ih => rw [width_cons, pow_add, ih, List.map_cons, List.prod_cons]

theorem put_congr {v' : F → Nat} (h : ∀ f ∈ fs, v f = v' f) : put w fs v = put w fs v' := by
  induction fs
  case nil => rfl
  case cons g fs ih =>
    rw [List.forall_mem_cons] at h
    rw [put, put, h.1, ih h.2]

theorem put_lt (hv : ∀ f ∈ fs, v f < 2 ^ w f) : put w fs v < 2 ^ width w fs := by
  induction fs
  case nil => simp [put, width]
  case cons g fs ih =>
    rw [List.forall_mem_cons] at hv
    have hrest : put w fs v + 1 ≤ 2 ^ width w fs := ih hv.2
    calc v g + 2 ^ w g * put w fs v
      _ < 2 ^ w g + 2 ^ w g * put w fs v  := by omega
      _ = 2 ^ w g * (put w fs v + 1)      := by ring
      _ ≤ 2 ^ w g * 2 ^ width w fs        := Nat.mul_le_mul_left _ hrest
      _ = 2 ^ width w (g :: fs)           := by rw [width_cons, pow_add]

variable [DecidableEq F]

theorem get_lt (hf : f ∈ fs) : get w fs n f < 2 ^ w f := by
  induction fs generalizing n
  case nil => cases hf
  case cons g fs ih =>
    rw [get]
    split
    case isTrue he  => exact he ▸ Nat.mod_lt _ (Nat.two_pow_pos _)
    case isFalse he => exact ih ((List.mem_cons.mp hf).resolve_left he)

theorem put_get (hfs : fs.Nodup) : put w fs (get w fs n) = n % 2 ^ width w fs := by
  induction fs generalizing n
  case nil => simp [put, width, Nat.mod_one]
  case cons g fs ih =>
    rw [List.nodup_cons] at hfs
    -- The fields after the first one are those of the rest of the number.
    have hrest : put w fs (get w (g :: fs) n) = put w fs (get w fs (n / 2 ^ w g)) := by
      apply put_congr
      intro f hf
      have hne : f ≠ g := fun he => hfs.1 (he ▸ hf)
      rw [get, if_neg hne]
    rw [put, hrest, ih hfs.2, get, if_pos rfl, width_cons, pow_add, Nat.mod_mul]

theorem get_put (hv : ∀ f ∈ fs, v f < 2 ^ w f) (hf : f ∈ fs) : get w fs (put w fs v) f = v f := by
  induction fs
  case nil => cases hf
  case cons g fs ih =>
    rw [List.forall_mem_cons] at hv
    rw [get, put]
    split
    case isTrue he  => rw [he, Nat.add_mul_mod_self_left, Nat.mod_eq_of_lt hv.1]
    case isFalse he =>
      rw [Nat.add_mul_div_left _ _ (Nat.two_pow_pos _), Nat.div_eq_of_lt hv.1, zero_add]
      exact ih hv.2 ((List.mem_cons.mp hf).resolve_left he)

theorem get_mod (hfs : fs.Nodup) (hf : f ∈ fs) : get w fs (n % 2 ^ width w fs) f = get w fs n f := by
  rw [← put_get hfs]
  exact get_put (fun g hg => get_lt hg) hf

-- Numbers with the same fields are the same, up to the bits above them.
theorem mod_eq_of_get_eq {m : Nat} (hfs : fs.Nodup) (h : ∀ f ∈ fs, get w fs m f = get w fs n f) :
    m % 2 ^ width w fs = n % 2 ^ width w fs := by
  rw [← put_get hfs, ← put_get hfs]
  exact put_congr h

end BitFields
