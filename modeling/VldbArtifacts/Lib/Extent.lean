import Mathlib.Tactic

-- Half-open ranges of addresses, and lists of them that grow.

@[ext]
structure Extent where
  lo : Nat
  hi : Nat
  deriving DecidableEq, Repr

namespace Extent

variable {r s t : Extent} {rs : List Extent} {a : Nat}

def Contains (r : Extent) (a : Nat) : Prop :=
  r.lo ≤ a ∧ a < r.hi

instance (r : Extent) (a : Nat) : Decidable (r.Contains a) :=
  inferInstanceAs (Decidable (_ ∧ _))

-- They have an address in common.
def Overlaps (r s : Extent) : Prop :=
  max r.lo s.lo < min r.hi s.hi

instance (r s : Extent) : Decidable (r.Overlaps s) :=
  inferInstanceAs (Decidable (_ < _))

theorem overlaps_iff : r.Overlaps s ↔ ∃ a, r.Contains a ∧ s.Contains a := by
  constructor
  case mp =>
    intro h
    rw [Overlaps] at h
    exact ⟨max r.lo s.lo, ⟨by omega, by omega⟩, ⟨by omega, by omega⟩⟩
  case mpr =>
    rintro ⟨a, ⟨_, _⟩, _, _⟩
    rw [Overlaps]
    omega

theorem Overlaps.symm (h : r.Overlaps s) : s.Overlaps r := by
  rw [Overlaps] at h ⊢
  omega

def Apart (r s : Extent) : Prop :=
  ¬r.Overlaps s

instance (r s : Extent) : Decidable (r.Apart s) :=
  inferInstanceAs (Decidable (¬_))

instance : Std.Symm Apart :=
  ⟨fun _ _ h hs => h hs.symm⟩

-- The smallest range around both.
def hull (r s : Extent) : Extent :=
  ⟨min r.lo s.lo, max r.hi s.hi⟩

theorem Contains.hull_left (h : r.Contains a) (s : Extent) : (r.hull s).Contains a := by
  obtain ⟨_, _⟩ := h
  constructor
  case left  => exact (min_le_left ..).trans ‹_›
  case right => exact lt_of_lt_of_le ‹_› (le_max_left ..)

theorem Contains.hull_right (h : s.Contains a) (r : Extent) : (r.hull s).Contains a := by
  obtain ⟨_, _⟩ := h
  constructor
  case left  => exact (min_le_right ..).trans ‹_›
  case right => exact lt_of_lt_of_le ‹_› (le_max_right ..)

theorem Apart.of_hull (h : (r.hull s).Apart t) : r.Apart t ∧ s.Apart t := by
  constructor
  all_goals
    intro ho
    have ⟨a, ha, hat⟩ := overlaps_iff.mp ho
    apply h
    rw [overlaps_iff]
  case left  => exact ⟨a, ha.hull_left s, hat⟩
  case right => exact ⟨a, ha.hull_right r, hat⟩

-- The range becomes a part of the entry with the index, or an entry of its own.
def absorb (r : Extent) : Option Nat → List Extent → List Extent
  | none,   rs => rs ++ [r]
  | some i, rs => rs.modify i r.hull

-- What the range becomes a part of does not reach into the other entries.
def Clear (r : Extent) (rs : List Extent) : Option Nat → Prop
  | none   => ∀ t ∈ rs, r.Apart t
  | some i => ∀ s ∈ rs[i]?, ∀ t ∈ rs.eraseIdx i, (r.hull s).Apart t

instance (r : Extent) (rs : List Extent) : DecidablePred (r.Clear rs)
  | none   => inferInstanceAs (Decidable (∀ t ∈ rs, r.Apart t))
  | some i => inferInstanceAs (Decidable (∀ s ∈ rs[i]?, ∀ t ∈ rs.eraseIdx i, (r.hull s).Apart t))

-- The entry with an index, the entries before it and those behind it.
theorem exists_split {i : Nat} (h : i < rs.length) : ∃ before s behind, rs[i]? = some s ∧
    rs = before ++ s :: behind ∧ rs.eraseIdx i = before ++ behind ∧
    ∀ r : Extent, r.absorb (some i) rs = before ++ r.hull s :: behind := by
  refine ⟨rs.take i, rs[i], rs.drop (i + 1), List.getElem?_eq_getElem h, ?_, ?_, fun r => ?_⟩
  · rw [List.cons_getElem_drop_succ, List.take_append_drop]
  · exact List.eraseIdx_eq_take_drop_succ ..
  · exact List.modify_eq_take_cons_drop h

-- Entries never come apart again.
theorem pairwise_absorb_iff {i : Option Nat} (h : ∀ j ∈ i, j < rs.length) :
    (r.absorb i rs).Pairwise Apart ↔ rs.Pairwise Apart ∧ r.Clear rs i := by
  cases i
  case none =>
    rw [absorb, List.pairwise_append, Clear]
    simp only [List.pairwise_singleton, List.mem_singleton, forall_eq, true_and]
    exact and_congr_right fun _ => forall₂_congr fun t _ => ⟨symm, symm⟩
  case some i =>
    obtain ⟨before, s, behind, hs, hrs, her, hab⟩ := exists_split (h i rfl)
    rw [hab, List.pairwise_middle symm, List.pairwise_cons, Clear, hs, her, hrs,
      List.pairwise_middle symm, List.pairwise_cons]
    simp only [Option.mem_some_iff, forall_eq']
    constructor
    case mp =>
      rintro ⟨hh, hp⟩
      exact ⟨⟨fun t ht => (hh t ht).of_hull.right, hp⟩, hh⟩
    case mpr =>
      rintro ⟨⟨_, hp⟩, hh⟩
      exact ⟨hh, hp⟩

theorem contains_absorb {i : Option Nat} (h : ∀ j ∈ i, j < rs.length) (ha : r.Contains a) :
    ∃ t ∈ r.absorb i rs, t.Contains a := by
  cases i
  case none => exact ⟨r, List.mem_append_right _ (List.mem_singleton_self r), ha⟩
  case some i =>
    obtain ⟨before, s, behind, _, _, _, hab⟩ := exists_split (h i rfl)
    exact ⟨r.hull s, by simp [hab], ha.hull_left s⟩

theorem contains_absorb_of_mem (i : Option Nat) (hs : s ∈ rs) (ha : s.Contains a) (r : Extent) :
    ∃ t ∈ r.absorb i rs, t.Contains a := by
  cases i
  case none => exact ⟨s, List.mem_append_left _ hs, ha⟩
  case some i =>
    by_cases h : i < rs.length
    case pos =>
      obtain ⟨before, s', behind, _, hrs, _, hab⟩ := exists_split h
      rw [hab]
      rw [hrs, List.mem_append, List.mem_cons] at hs
      obtain hs | rfl | hs := hs
      case inl     => exact ⟨s, List.mem_append_left _ hs, ha⟩
      case inr.inl => exact ⟨r.hull s, by simp, ha.hull_right r⟩
      case inr.inr => exact ⟨s, by simp [hs], ha⟩
    case neg => exact ⟨s, by rwa [absorb, List.modify_eq_self (by omega)], ha⟩

-- A property of ranges that goes over to the smallest range around two of them.
theorem forall_mem_absorb {P : Extent → Prop} (hull : ∀ r s, P r → P s → P (r.hull s))
    {i : Option Nat} (hr : P r) (h : ∀ s ∈ rs, P s) : ∀ t ∈ r.absorb i rs, P t := by
  cases i
  case none => exact List.forall_mem_append.mpr ⟨h, List.forall_mem_singleton.mpr hr⟩
  case some i =>
    intro t ht
    obtain ⟨j, hj⟩ := List.getElem?_of_mem ht
    rw [absorb, List.getElem?_modify] at hj
    obtain ⟨s, hs, rfl⟩ := Option.map_eq_some_iff.mp hj
    have := h s (List.mem_of_getElem? hs)
    split
    case isTrue  => exact hull r s hr this
    case isFalse => exact this

end Extent
