import Mathlib.Tactic

-- Merging streams whose items carry the time since the item before.

section Interleaves

variable {α : Type}

-- The list takes the items of all lists, those of each list in order.
inductive Interleaves : List (List α) → List α → Prop
  | done {xss} (h : ∀ xs ∈ xss, xs = []) : Interleaves xss []
  | take {xss ys i x xs} (hi : xss[i]? = some (x :: xs)) (h : Interleaves (xss.set i xs) ys) :
      Interleaves xss (x :: ys)

variable {xss : List (List α)} {ys : List α}

theorem flatten_perm_set {i : Nat} {x : α} {xs : List α} (h : xss[i]? = some (x :: xs)) :
    xss.flatten.Perm (x :: (xss.set i xs).flatten) := by
  induction xss generalizing i
  case nil => simp at h
  case cons zs xss ih =>
    cases i
    case zero =>
      obtain rfl : zs = x :: xs := by simpa using h
      exact .refl _
    case succ i =>
      have := (ih (by simpa using h)).append_left zs
      exact this.trans List.perm_middle

theorem Interleaves.perm (h : Interleaves xss ys) : ys.Perm xss.flatten := by
  induction h
  case done h       => rw [List.flatten_eq_nil_iff.mpr h]
  case take hi _ ih => exact (ih.cons _).trans (flatten_perm_set hi).symm

end Interleaves

namespace Timed

variable {β : Type}

-- The items with their times, when the clock starts at `t`.
def times (t : Nat) : List (Nat × β) → List (Nat × β)
  | []          => []
  | (g, b) :: s => (t + g, b) :: times (t + g) s

-- The stream after `g` units of time have passed.
def elapse (g : Nat) : List (Nat × β) → List (Nat × β)
  | []          => []
  | (h, b) :: s => (h - g, b) :: s

-- The item that is next in time is taken again and again.
inductive Merge : List (List (Nat × β)) → List (Nat × β) → Prop
  | done {ss} (h : ∀ s ∈ ss, s = []) : Merge ss []
  | step {ss s out i g b} (hi : ss[i]? = some ((g, b) :: s))
      (hmin : ∀ s ∈ ss, ∀ p ∈ s.head?, g ≤ p.1) (h : Merge ((ss.map (elapse g)).set i s) out) :
      Merge ss ((g, b) :: out)

variable {s : List (Nat × β)} {ss : List (List (Nat × β))} {out : List (Nat × β)}

theorem times_elapse {t g : Nat} (h : ∀ p ∈ s.head?, g ≤ p.1) :
    times (t + g) (elapse g s) = times t s := by
  cases s
  case nil => rfl
  case cons p s =>
    have : g ≤ p.1 := h p rfl
    have : t + g + (p.1 - g) = t + p.1 := by omega
    simp [elapse, times, this]

theorem length_elapse (g : Nat) (s : List (Nat × β)) : (elapse g s).length = s.length := by
  cases s <;> rfl

theorem length_flatten_step {i g : Nat} {p : Nat × β} (hi : ss[i]? = some (p :: s)) :
    ss.flatten.length = ((ss.map (elapse g)).set i s).flatten.length + 1 := by
  have hi' : (ss.map (elapse g))[i]? = some ((p.1 - g, p.2) :: s) := by
    rw [List.getElem?_map, hi]
    rfl
  have hmap : (ss.map (elapse g)).flatten.length = ss.flatten.length := by
    simp [List.length_flatten, Function.comp_def, length_elapse]
  rw [← hmap, (flatten_perm_set hi').length_eq, List.length_cons]

theorem Merge.interleaves (h : Merge ss out) (t : Nat) :
    Interleaves (ss.map (times t)) (times t out) := by
  induction h generalizing t
  case done h =>
    apply Interleaves.done
    intro xs hxs
    have ⟨s, hs, he⟩ := List.mem_map.mp hxs
    rw [← he, h s hs]
    rfl
  case step ss s out i g b hi hmin _ ih =>
    have hi' : (ss.map (times t))[i]? = some ((t + g, b) :: times (t + g) s) := by
      rw [List.getElem?_map, hi]
      rfl
    apply Interleaves.take hi'
    have hmap : (ss.map (elapse g)).map (times (t + g)) = ss.map (times t) := by
      rw [List.map_map]
      exact List.map_congr_left fun s hs => times_elapse (hmin s hs)
    have := ih (t + g)
    rwa [List.map_set, hmap] at this

end Timed
