import Mathlib.Tactic

-- Timing parameters between the commands of a device, and the two tables with which a simulator enforces
-- them: the earliest time at which each command may be issued next, and the times of its last issues.

namespace Timing

variable {C : Type}

-- When a command is issued for the `dist`-th time, `cmd` has to wait until `val` cycles after the first of
-- these issues.
structure Entry (C : Type) where
  cmd     : C
  dist    : Nat
  val     : Int
  sibling : Bool := false

-- A command that concerns a part of the device: it is issued to the part, or to a sibling of it.
inductive Event (C : Type)
  | target  (cmd : C) (clk : Int)
  | sibling (cmd : C) (clk : Int)

def Event.clk : Event C → Int
  | target _ clk  => clk
  | sibling _ clk => clk

-- The largest distance in a list of parameters.
def depth (entries : List (Entry C)) : Nat :=
  entries.foldl (fun d t => max d t.dist) 0

theorem foldl_max_dist (entries : List (Entry C)) (d : Nat) :
    d ≤ entries.foldl (fun d t => max d t.dist) d ∧
      ∀ t ∈ entries, t.dist ≤ entries.foldl (fun d t => max d t.dist) d := by
  induction entries generalizing d
  case nil => simp
  case cons e es hi =>
    obtain ⟨h₁, h₂⟩ := hi (max d e.dist)
    simp only [List.foldl_cons, List.forall_mem_cons]
    exact ⟨by omega, by omega, h₂⟩

theorem dist_le_depth {entries : List (Entry C)} {t : Entry C} (h : t ∈ entries) : t.dist ≤ depth entries :=
  (foldl_max_dist entries 0).2 t h

structure Clock (C : Type) where
  next : C → Int
  prev : C → List Int

namespace Clock

variable [DecidableEq C]

def init (table : C → List (Entry C)) : Clock C where
  next _ := -1
  prev c := List.replicate (depth (table c)) (-1)

def record (k : Clock C) (cmd : C) (clk : Int) : Clock C :=
  if (k.prev cmd).isEmpty then k
  else { k with prev := Function.update k.prev cmd (clk :: (k.prev cmd).dropLast) }

def delay (k : Clock C) (cmd : C) (future : Int) : Clock C :=
  { k with next := Function.update k.next cmd (max (k.next cmd) future) }

-- The loop over the parameters of a command; one without a future is passed over.
def delayAll (k : Clock C) (entries : List (Entry C)) (future : Entry C → Option Int) : Clock C :=
  entries.foldl (fun k t => (future t).elim k (k.delay t.cmd)) k

def target (k : Clock C) (entries : List (Entry C)) (cmd : C) (clk : Int) : Clock C :=
  let k := k.record cmd clk
  k.delayAll entries fun t =>
    let past := (k.prev cmd).getD (t.dist - 1) (-1)
    if t.sibling ∨ past < 0 then none else some (past + t.val)

def besides (k : Clock C) (entries : List (Entry C)) (clk : Int) : Clock C :=
  k.delayAll entries fun t => if t.sibling then some (clk + t.val) else none

def step (table : C → List (Entry C)) (k : Clock C) : Event C → Clock C
  | .target cmd clk  => k.target (table cmd) cmd clk
  | .sibling cmd clk => k.besides (table cmd) clk

-- The tables after the events of a history, the last of which comes first.
def after (table : C → List (Entry C)) : List (Event C) → Clock C
  | []      => init table
  | e :: es => (after table es).step table e

theorem delayAll_prev (k : Clock C) (entries : List (Entry C)) (future : Entry C → Option Int) :
    (k.delayAll entries future).prev = k.prev := by
  induction entries generalizing k
  case nil => rfl
  case cons t ts hi =>
    have h : ((future t).elim k (k.delay t.cmd)).prev = k.prev := by cases future t <;> rfl
    exact (hi _).trans h

theorem delayAll_next_le {k : Clock C} {entries : List (Entry C)} {future : Entry C → Option Int} {c : C} {x : Int} :
    (k.delayAll entries future).next c ≤ x ↔
      k.next c ≤ x ∧ ∀ t ∈ entries, t.cmd = c → ∀ f, future t = some f → f ≤ x := by
  induction entries generalizing k
  case nil => simp [delayAll]
  case cons t ts hi =>
    simp only [delayAll, List.foldl_cons, List.forall_mem_cons] at hi ⊢
    rw [hi]
    cases hf : future t
    case none => simp
    case some f =>
      by_cases hc : t.cmd = c
      case pos =>
        subst hc
        simp [delay, and_assoc]
      case neg => simp [delay, Function.update_of_ne (Ne.symm hc), hc]

end Clock

-- The times at which a command was issued, the last one first.
def issues [DecidableEq C] (c : C) (es : List (Event C)) : List Int :=
  es.filterMap fun
    | .target c' clk => if c' = c then some clk else none
    | .sibling _ _   => none

section Issues

variable [DecidableEq C]

theorem issues_nonneg {es : List (Event C)} (h : ∀ e ∈ es, 0 ≤ e.clk) {c : C} {k : Int} (hk : k ∈ issues c es) :
    0 ≤ k := by
  obtain ⟨e, he, hek⟩ := List.mem_filterMap.mp hk
  have := h e he
  cases e
  case sibling => simp at hek
  case target c' clk =>
    simp only [Option.ite_none_right_eq_some, Option.some.injEq] at hek
    exact hek.2 ▸ this

theorem issues_target_self (c : C) (clk : Int) (es : List (Event C)) :
    issues c (.target c clk :: es) = clk :: issues c es := by
  simp [issues]

theorem issues_target_of_ne {c c' : C} (h : c' ≠ c) (clk : Int) (es : List (Event C)) :
    issues c (.target c' clk :: es) = issues c es := by
  simp [issues, h]

theorem issues_sibling (c c' : C) (clk : Int) (es : List (Event C)) :
    issues c (.sibling c' clk :: es) = issues c es := by
  simp [issues]

end Issues

-- A command may be issued at a time: it keeps every parameter with regard to the whole history. A parameter
-- of distance `d` counts from each issue that was followed by `d - 1` more.
structure Allows [DecidableEq C] (table : C → List (Entry C)) (es : List (Event C)) (c : C) (clk : Int) : Prop where
  target  : ∀ c₀, ∀ t ∈ table c₀, t.cmd = c → t.sibling = false →
              ∀ k ∈ (issues c₀ es).drop (t.dist - 1), k + t.val ≤ clk
  sibling : ∀ c₀, ∀ t ∈ table c₀, t.cmd = c → t.sibling = true →
              ∀ k, .sibling c₀ k ∈ es → k + t.val ≤ clk

section Exact

variable [DecidableEq C] {table : C → List (Entry C)} {es : List (Event C)} {c : C} {x : Int}

theorem mem_drop_cons {α : Type} {a b : α} {l : List α} {i : Nat} :
    b ∈ (a :: l).drop i ↔ b ∈ l.drop i ∨ (a :: l)[i]? = some b := by
  cases i
  case zero => simp [or_comm, eq_comm]
  case succ i =>
    simp only [List.drop_succ_cons, List.getElem?_cons_succ]
    constructor
    case mp =>
      intro h
      obtain ⟨j, hj⟩ := List.mem_iff_getElem?.mp h
      rw [List.getElem?_drop] at hj
      cases j
      case zero => exact .inr hj
      case succ j => exact .inl (List.mem_iff_getElem?.mpr ⟨j, by rw [List.getElem?_drop, ← hj]; congr 1; omega⟩)
    case mpr =>
      rintro (h | h)
      case inl => exact (List.drop_sublist_drop_left l (by omega)).mem h
      case inr => exact List.mem_iff_getElem?.mpr ⟨0, by simpa using h⟩

theorem Allows.nil : Allows table [] c x where
  target  := by simp [issues]
  sibling := by simp

theorem allows_sibling_cons {c₀ : C} {clk : Int} :
    Allows table (.sibling c₀ clk :: es) c x ↔
      Allows table es c x ∧ ∀ t ∈ table c₀, t.cmd = c → t.sibling = true → clk + t.val ≤ x := by
  constructor
  case mp =>
    intro h
    refine ⟨⟨?_, fun c₁ t ht hc hs k hk => h.sibling c₁ t ht hc hs k (List.mem_cons_of_mem _ hk)⟩,
      fun t ht hc hs => h.sibling c₀ t ht hc hs clk List.mem_cons_self⟩
    intro c₁ t ht hc hs k hk
    exact h.target c₁ t ht hc hs k (by rwa [issues_sibling])
  case mpr =>
    rintro ⟨h, h₀⟩
    refine ⟨fun c₁ t ht hc hs k hk => h.target c₁ t ht hc hs k (by rwa [issues_sibling] at hk), ?_⟩
    intro c₁ t ht hc hs k hk
    rcases List.mem_cons.mp hk with hk | hk
    case inl => cases hk; exact h₀ t ht hc hs
    case inr => exact h.sibling c₁ t ht hc hs k hk

theorem allows_target_cons {c₀ : C} {clk : Int} :
    Allows table (.target c₀ clk :: es) c x ↔
      Allows table es c x ∧ ∀ t ∈ table c₀, t.cmd = c → t.sibling = false →
        ∀ k, (clk :: issues c₀ es)[t.dist - 1]? = some k → k + t.val ≤ x := by
  have hsib {c₁ : C} {k : Int} : Event.sibling c₁ k ∈ Event.target c₀ clk :: es ↔ Event.sibling c₁ k ∈ es := by simp
  constructor
  case mp =>
    intro h
    refine ⟨⟨?_, fun c₁ t ht hc hs k hk => h.sibling c₁ t ht hc hs k (hsib.mpr hk)⟩, ?_⟩
    case refine_1 =>
      intro c₁ t ht hc hs k hk
      apply h.target c₁ t ht hc hs k
      by_cases h₁ : c₀ = c₁
      case pos => rw [← h₁, issues_target_self]; exact mem_drop_cons.mpr (.inl (h₁ ▸ hk))
      case neg => rwa [issues_target_of_ne h₁]
    case refine_2 =>
      intro t ht hc hs k hk
      apply h.target c₀ t ht hc hs k
      rw [issues_target_self]
      exact mem_drop_cons.mpr (.inr hk)
  case mpr =>
    rintro ⟨h, h₀⟩
    refine ⟨?_, fun c₁ t ht hc hs k hk => h.sibling c₁ t ht hc hs k (hsib.mp hk)⟩
    intro c₁ t ht hc hs k hk
    by_cases h₁ : c₀ = c₁
    case neg => exact h.target c₁ t ht hc hs k (by rwa [issues_target_of_ne h₁] at hk)
    case pos =>
      subst h₁
      rw [issues_target_self] at hk
      rcases mem_drop_cons.mp hk with hk | hk
      case inl => exact h.target c₀ t ht hc hs k hk
      case inr => exact h₀ t ht hc hs k hk

namespace Clock

theorem record_prev_self (k : Clock C) (cmd : C) (clk : Int) :
    (k.record cmd clk).prev cmd = (clk :: k.prev cmd).take (k.prev cmd).length := by
  unfold record
  split
  case isTrue h => simp [List.isEmpty_iff.mp h]
  case isFalse h =>
    have hne : k.prev cmd ≠ [] := by simpa using h
    obtain ⟨n, hn⟩ := Nat.exists_eq_succ_of_ne_zero (List.length_pos_iff.mpr hne).ne'
    simp [hn, List.dropLast_eq_take]

theorem record_prev_of_ne {k : Clock C} {cmd c : C} (h : c ≠ cmd) (clk : Int) :
    (k.record cmd clk).prev c = k.prev c := by
  unfold record
  split
  case isTrue => rfl
  case isFalse => exact Function.update_of_ne h _ _

theorem record_next (k : Clock C) (cmd : C) (clk : Int) : (k.record cmd clk).next = k.next := by
  unfold record
  split <;> rfl

-- The history kept of a command is what was issued last, as far as it is kept.
theorem after_prev (table : C → List (Entry C)) (es : List (Event C)) (c : C) :
    (after table es).prev c =
      (issues c es ++ List.replicate (depth (table c)) (-1)).take (depth (table c)) := by
  induction es
  case nil => simp [after, init, issues]
  case cons e es hi =>
    cases e
    case sibling c' clk =>
      rw [issues_sibling, ← hi]
      exact congrFun (delayAll_prev _ _ _) c
    case target c' clk =>
      have h : (after table (.target c' clk :: es)).prev = ((after table es).record c' clk).prev :=
        delayAll_prev _ _ _
      rw [h]
      by_cases hc : c = c'
      case neg => rw [record_prev_of_ne hc, issues_target_of_ne (Ne.symm hc), hi]
      case pos =>
        subst hc
        have hlen : ((after table es).prev c).length = depth (table c) := by rw [hi]; simp
        rw [record_prev_self, issues_target_self, hlen, hi, List.cons_append]
        cases depth (table c)
        case zero   => rfl
        case succ n => simp [List.take_take]

theorem after_past {es : List (Event C)} (h : ∀ e ∈ es, 0 ≤ e.clk) {c : C} {t : Entry C} (ht : t ∈ table c)
    (hd : 1 ≤ t.dist) {k : Int} :
    (0 ≤ ((after table es).prev c).getD (t.dist - 1) (-1) ∧
        ((after table es).prev c).getD (t.dist - 1) (-1) = k) ↔
      (issues c es)[t.dist - 1]? = some k := by
  have hlt : t.dist - 1 < depth (table c) := by have := dist_le_depth ht; omega
  rw [after_prev, List.getD_eq_getElem?_getD, List.getElem?_take_of_lt hlt, List.getElem?_append]
  split
  case isTrue hi =>
    have h0 := issues_nonneg h (List.getElem_mem hi)
    simp only [List.getElem?_eq_getElem hi, Option.getD_some, Option.some.injEq, and_iff_right_iff_imp]
    exact fun _ => h0
  case isFalse hi =>
    have hle : (issues c es).length ≤ t.dist - 1 := Nat.le_of_not_lt hi
    have hr : t.dist - 1 - (issues c es).length < depth (table c) := by omega
    simp [hr, List.getElem?_eq_none hle]

-- The tables are exact: a command is held back as long as some parameter of the history holds it back.
theorem after_next_le (hd : ∀ c, ∀ t ∈ table c, 1 ≤ t.dist) (h : ∀ e ∈ es, 0 ≤ e.clk) (hx : -1 ≤ x) :
    (after table es).next c ≤ x ↔ Allows table es c x := by
  induction es
  case nil => exact ⟨fun _ => .nil, fun _ => hx⟩
  case cons e es hi =>
    have hi := hi fun e he => h e (List.mem_cons_of_mem _ he)
    cases e
    case sibling c₀ clk =>
      have hstep : (after table (.sibling c₀ clk :: es)).next c ≤ x ↔ _ := delayAll_next_le
      rw [hstep, allows_sibling_cons, hi]
      simp only [Option.ite_none_right_eq_some, Option.some.injEq, and_imp]
      refine and_congr_right fun _ => forall₃_congr fun t _ _ => ?_
      exact ⟨fun hf hs => hf _ hs rfl, fun hf f hs hv => hv ▸ hf hs⟩
    case target c₀ clk =>
      have hprev : ((after table es).record c₀ clk).prev c₀ = (after table (.target c₀ clk :: es)).prev c₀ :=
        (congrFun (delayAll_prev _ _ _) c₀).symm
      have hstep : (after table (.target c₀ clk :: es)).next c ≤ x ↔ _ := delayAll_next_le
      rw [hstep, allows_target_cons, record_next, hi]
      refine and_congr_right fun _ => forall₃_congr fun t ht _ => ?_
      rw [hprev]
      have hp {k : Int} := after_past h (k := k) ht (hd c₀ t ht)
      rw [issues_target_self] at hp
      constructor
      case mp =>
        intro hf hs k hk
        obtain ⟨h₀, hk⟩ := hp.mpr hk
        apply hf
        simp only [hs, Bool.false_eq_true, false_or, hk]
        exact if_neg (not_lt.mpr (hk ▸ h₀))
      case mpr =>
        intro hf f hfut
        simp only [Option.ite_none_left_eq_some, not_or, Bool.not_eq_true, not_lt, Option.some.injEq] at hfut
        obtain ⟨⟨hs, h₀⟩, rfl⟩ := hfut
        exact hf hs _ (hp.mp ⟨h₀, rfl⟩)

end Clock

end Exact

end Timing
