import Mathlib.Data.List.SplitBy
import Mathlib.Data.List.TakeWhile
import Mathlib.Logic.Relation
import Mathlib.Tactic

-- An arbiter that visits its ports in turn. What it lets through may hold the port, so that the next
-- item comes from the same one.

namespace Arbiter

variable {α : Type} {n d : Nat} {waiting : Nat → Prop}

-- An item that was let through, and how much the port is on hold after it.
structure Move (α : Type) where
  port : Nat
  item : α
  hold : Nat

structure State (α : Type) where
  port : Nat
  hold : Nat
  log  : List (Move α)

def next (n port : Nat) : Nat :=
  if port + 1 < n then port + 1 else 0

-- How many ports come before `d`.
def ahead (n port d : Nat) : Nat :=
  if port ≤ d then d - port else n + d - port

theorem ahead_lt {port : Nat} (hp : port < n) (hd : d < n) : ahead n port d < n := by
  grind [ahead]

theorem ahead_next {port : Nat} (hp : port < n) (hd : d < n) (hne : port ≠ d) :
    ahead n (next n port) d + 1 = ahead n port d := by
  grind [ahead, next]

theorem next_lt {port : Nat} (hp : port < n) : next n port < n := by
  grind [next]

-- A port at which something is waiting is not passed over.
inductive Step (n : Nat) (waiting : Nat → Prop) : State α → State α → Prop
  | skip {s} :
    s.hold = 0 →
    ¬waiting s.port →
    Step n waiting s { s with port := next n s.port }
  | move {s} (a : α) (hold : Nat) :
    Step n waiting s {
      port := if hold = 0 then next n s.port else s.port
      hold := hold
      log  := s.log ++ [⟨s.port, a, hold⟩] }

-- The moves between two moments at which nothing is on hold.
def groups (xs : List (Move α)) : List (List (Move α)) :=
  xs.splitBy fun x _ => x.hold ≠ 0

-- The last move leaves its port on hold.
def IsOpen (xs : List (Move α)) : Prop :=
  ∃ x ∈ xs.getLast?, x.hold ≠ 0

section Groups

variable {xs : List (Move α)} {x : Move α} {g : List (Move α)}

theorem isOpen_concat : IsOpen (xs ++ [x]) ↔ x.hold ≠ 0 := by
  simp [IsOpen]

theorem length_groups_concat_of_not_isOpen (h : ¬IsOpen xs) :
    (groups (xs ++ [x])).length = (groups xs).length + 1 := by
  have hl : ∀ y ∈ xs.getLast?, decide (y.hold ≠ 0) = false := by
    intro y hy
    simpa using fun h' => h ⟨y, hy, h'⟩
  rw [groups, List.splitBy_append_cons [] hl, List.length_append]
  rfl

theorem length_groups_concat_of_isOpen (h : IsOpen xs) :
    (groups (xs ++ [x])).length = (groups xs).length := by
  have ⟨y, hy, hy₀⟩ := h
  have hne : groups xs ≠ [] := by
    apply List.splitBy_ne_nil.mpr
    rintro rfl
    simp at hy
  have ⟨gs, g, hg⟩ := (List.eq_nil_or_concat (groups xs)).resolve_left hne
  have ⟨hflat, hnil, hchain, hcut⟩ := List.splitBy_eq_iff.mp (List.concat_eq_append ▸ hg)
  have hg₀ : g ≠ [] := fun h => hnil (by simp [h])
  have hlast : y ∈ g.getLast? := by
    rwa [hflat, List.flatten_concat, List.getLast?_append_of_ne_nil _ hg₀] at hy
  have hgroups : groups (xs ++ [x]) = gs ++ [g ++ [x]] := by
    apply List.splitBy_eq_iff.mpr
    refine ⟨?flat, ?nil, ?chain, ?cut⟩
    case flat => simp [hflat]
    case nil  => simpa [hg₀] using hnil
    case chain =>
      intro g' hg'
      rcases List.mem_append.mp hg' with h | h
      · exact hchain g' (by simp [h])
      · cases List.mem_singleton.mp h
        apply List.isChain_append.mpr
        refine ⟨hchain g (by simp), List.isChain_singleton _, ?_⟩
        intro z hz w hw
        cases Option.mem_unique hlast hz
        simpa using hy₀
    case cut =>
      rw [List.isChain_append] at hcut ⊢
      refine ⟨hcut.left, List.isChain_singleton _, ?_⟩
      intro z hz w hw
      cases Option.some.inj hw
      have ⟨hz₀, _, hr⟩ := hcut.right.right z hz g rfl
      exact ⟨hz₀, by simp, by simpa [List.head_append_of_ne_nil hg₀] using hr⟩
  rw [hgroups, hg]
  simp

theorem infix_of_mem_groups (h : g ∈ groups xs) : g <:+: xs := by
  have := List.infix_of_mem_flatten h
  rwa [groups, List.flatten_splitBy] at this

-- What holds between a move and the next one, and that there is a next one in the group.
theorem chain_of_mem_groups {R : Move α → Move α → Prop} (h : g ∈ groups xs) (hx : xs.IsChain R) :
    g.IsChain fun x y => x.hold ≠ 0 ∧ R x y := by
  have hg : g.IsChain fun x _ => x.hold ≠ 0 := by
    simpa using List.isChain_of_mem_splitBy h
  have hR := hx.infix (infix_of_mem_groups h)
  clear h
  induction hg
  case nil       => exact .nil
  case singleton => exact .singleton _
  case cons_cons h _ ih =>
    rw [List.isChain_cons_cons] at hR
    exact .cons_cons ⟨h, hR.left⟩ (ih hR.right)

-- All moves of a group are made at one port, if each of them is where the one before it holds.
theorem port_of_mem_groups (h : g ∈ groups xs)
    (hx : xs.IsChain fun x y => x.hold ≠ 0 → y.port = x.port) : ∃ p, ∀ x ∈ g, x.port = p := by
  have hg : (g.map Move.port).IsChain (· = ·) := by
    apply List.isChain_map_of_isChain Move.port _ (chain_of_mem_groups h hx)
    exact fun _ _ h => (h.right h.left).symm
  cases g
  case nil => exact ⟨0, by simp⟩
  case cons x g =>
    rw [List.map_cons, List.isChain_cons_eq_iff_eq_replicate] at hg
    exists x.port
    rw [List.forall_mem_cons]
    exact ⟨rfl, fun y hy => List.eq_of_mem_replicate (hg ▸ List.mem_map_of_mem hy)⟩

theorem length_add_hold_le {m : Nat} (hm : ∀ y ∈ x :: g, y.hold ≤ m)
    (hg : (x :: g).IsChain fun x y => x.hold ≠ 0 ∧ (y.hold = 0 ∨ x.hold < y.hold)) :
    g.length + x.hold ≤ m + 1 := by
  induction g generalizing x
  case nil =>
    have := hm x List.mem_cons_self
    simpa using Nat.le_succ_of_le this
  case cons y g ih =>
    rw [List.isChain_cons_cons] at hg
    rw [List.forall_mem_cons] at hm
    have := ih hm.right hg.right
    have := hm.left
    rw [List.length_cons]
    rcases hg.left.right with hy | hy
    case inr => omega
    case inl =>
      -- A move that leaves nothing on hold is the last one.
      cases g
      case nil      => simp; omega
      case cons z g => exact absurd hy (List.isChain_cons_cons.mp hg.right).left.left

-- The group ends when the hold cannot grow any more.
theorem length_of_mem_groups {m : Nat} (h : g ∈ groups xs) (hm : ∀ x ∈ xs, x.hold ≤ m)
    (hx : xs.IsChain fun x y => y.hold = 0 ∨ x.hold < y.hold) : g.length ≤ m + 1 := by
  have hg := chain_of_mem_groups h hx
  have hm' := fun x hx => hm x ((infix_of_mem_groups h).subset hx)
  cases g
  case nil => simp
  case cons x g =>
    have := length_add_hold_le hm' hg
    cases g
    case nil => simp
    case cons y g =>
      have := Nat.pos_of_ne_zero (List.isChain_cons_cons.mp hg).left.left
      simp only [List.length_cons] at *
      omega

end Groups

-- The moves that are new, up to the first one at port `d`.
def movesBefore (d : Nat) (s s' : State α) : List (Move α) :=
  (s'.log.drop s.log.length).takeWhile (·.port ≠ d)

-- The last move tells where the arbiter is.
structure Wf (n : Nat) (s : State α) : Prop where
  port  : 0 < n → s.port < n
  last  : ∀ x ∈ s.log.getLast?, x.hold = s.hold ∧ (x.hold ≠ 0 → s.port = x.port)
  chain : s.log.IsChain fun x y => x.hold ≠ 0 → y.port = x.port

theorem Step.wf {s s' : State α} (h : Step n waiting s s') (hs : Wf n s) : Wf n s' := by
  cases h
  case skip h₀ _ =>
    refine ⟨fun h => next_lt (hs.port h), fun x hx => ?_, hs.chain⟩
    have ⟨hx₀, _⟩ := hs.last x hx
    exact ⟨hx₀, fun h => absurd (hx₀.trans h₀) h⟩
  case move a hold =>
    refine ⟨?port, ?last, ?chain⟩
    case port =>
      intro hn
      dsimp only
      split
      case isTrue  => exact next_lt (hs.port hn)
      case isFalse => exact hs.port hn
    case last =>
      intro x hx
      cases Option.some.inj (List.getLast?_concat ▸ hx)
      exact ⟨rfl, fun h => if_neg h⟩
    case chain =>
      apply List.isChain_append.mpr
      refine ⟨hs.chain, List.isChain_singleton _, ?_⟩
      intro x hx y hy h
      cases Option.some.inj hy
      exact (hs.last x hx).right h

-- Something waits at port `d`. Either it was let through in the moves `xs`, or each group among them
-- has brought the arbiter closer to it. A group that is still open has not done so yet.
inductive Waits (n d : Nat) (s : State α) (xs : List (Move α)) : Prop
  | served {x : Move α} (mem : x ∈ xs) (port : x.port = d)
    (few : (groups (xs.takeWhile (·.port ≠ d))).length < n)
  | waiting (others : ∀ x ∈ xs, x.port ≠ d)
    (isOpen : IsOpen xs → (groups xs).length + ahead n s.port d ≤ n)
    (closed : ¬IsOpen xs → (groups xs).length + ahead n s.port d < n)

section Waits

variable {s s' : State α} {old xs : List (Move α)}

theorem takeWhile_port (h : ∀ x ∈ xs, x.port ≠ d) : xs.takeWhile (·.port ≠ d) = xs := by
  rw [List.takeWhile_eq_self_iff]
  simpa using h

theorem takeWhile_port_append {x : Move α} (hx : x ∈ xs) (hp : x.port = d) (ys : List (Move α)) :
    (xs ++ ys).takeWhile (·.port ≠ d) = xs.takeWhile (·.port ≠ d) := by
  rw [List.takeWhile_append, if_neg]
  intro h
  have := List.takeWhile_eq_self_iff.mp ((List.takeWhile_prefix _).eq_of_length h) x hx
  simp [hp] at this

-- A group that is open is at the port of the arbiter.
theorem Wf.of_isOpen (hs : Wf n s) (hlog : s.log = old ++ xs) (h : IsOpen xs) :
    s.hold ≠ 0 ∧ ∃ x ∈ xs, x.port = s.port := by
  have ⟨x, hx, hx₀⟩ := h
  have hlast : x ∈ s.log.getLast? := by
    rw [hlog, List.getLast?_append]
    simp [Option.mem_def.mp hx]
  have ⟨hh, hp⟩ := hs.last x hlast
  exact ⟨hh ▸ hx₀, x, List.mem_of_getLast? hx, (hp hx₀).symm⟩

theorem Waits.few_groups (h : Waits n d s xs) (hs : Wf n s) (hd : d < n) (hlog : s.log = old ++ xs) :
    (groups (xs.takeWhile (·.port ≠ d))).length < n := by
  cases h
  case served few => exact few
  case waiting others isOpen closed =>
    rw [takeWhile_port others]
    by_cases ho : IsOpen xs
    case neg => exact Nat.lt_of_le_of_lt (Nat.le_add_right _ _) (closed ho)
    case pos =>
      have ⟨_, x, hx, hp⟩ := hs.of_isOpen hlog ho
      have := ahead_next (hs.port (Nat.zero_lt_of_lt hd)) hd (hp ▸ others x hx)
      have := isOpen ho
      omega

theorem Waits.skip (h : Waits n d s xs) (hs : Wf n s) (hd : d < n) (hlog : s.log = old ++ xs)
    (h₀ : s.hold = 0) (hp : (∀ x ∈ xs, x.port ≠ d) → s.port ≠ d) :
    Waits n d { s with port := next n s.port } xs := by
  cases h
  case served x mem port few => exact .served mem port few
  case waiting others _ closed =>
    have ho : ¬IsOpen xs := fun ho => (hs.of_isOpen hlog ho).left h₀
    have := ahead_next (hs.port (Nat.zero_lt_of_lt hd)) hd (hp others)
    have := closed ho
    refine .waiting others (fun h => absurd h ho) fun _ => ?_
    dsimp only
    omega

theorem Waits.move (h : Waits n d s xs) (hs : Wf n s) (hd : d < n) (hlog : s.log = old ++ xs)
    (a : α) (hold : Nat) {s' : State α}
    (hport : s'.port = if hold = 0 then next n s.port else s.port) :
    Waits n d s' (xs ++ [⟨s.port, a, hold⟩]) := by
  have hfew := h.few_groups hs hd hlog
  cases h
  case served x mem port _ =>
    exact .served (List.mem_append_left _ mem) port (takeWhile_port_append mem port _ ▸ hfew)
  case waiting others isOpen closed =>
    by_cases hp : s.port = d
    case pos =>
      refine .served (List.mem_append_right _ (List.mem_singleton_self _)) hp ?_
      rw [takeWhile_port others] at hfew
      rw [List.takeWhile_append_of_pos (by simpa using others)]
      simpa [hp] using hfew
    case neg =>
      have hahead := ahead_next (hs.port (Nat.zero_lt_of_lt hd)) hd hp
      have hlen : (groups (xs ++ [⟨s.port, a, hold⟩])).length + ahead n s.port d ≤ n := by
        by_cases ho : IsOpen xs
        case pos =>
          rw [length_groups_concat_of_isOpen ho]
          exact isOpen ho
        case neg =>
          rw [length_groups_concat_of_not_isOpen ho]
          have := closed ho
          omega
      refine .waiting ?_ ?_ ?_
      · simpa [or_imp, forall_and, hp] using others
      · intro ho
        rwa [hport, if_neg (isOpen_concat.mp ho)]
      · intro ho
        rw [isOpen_concat, not_not] at ho
        rw [hport, if_pos ho]
        omega

-- As long as none of the moves after the first `k` is at port `d`, something is waiting there.
def StepFor (n d k : Nat) (s s' : State α) : Prop :=
  Step n (fun p => p = d ∧ ∀ x ∈ s.log.drop k, x.port ≠ d) s s'

theorem StepFor.waits (h : StepFor n d old.length s s') (hs : Wf n s) (hd : d < n)
    (hlog : s.log = old ++ xs) (hw : Waits n d s xs) : ∃ xs', s'.log = old ++ xs' ∧ Waits n d s' xs' := by
  cases h
  case skip h₀ hp =>
    rw [hlog, List.drop_left] at hp
    exact ⟨xs, hlog, hw.skip hs hd hlog h₀ fun hx h => hp ⟨h, hx⟩⟩
  case move a hold =>
    refine ⟨xs ++ [⟨s.port, a, hold⟩], ?_, hw.move hs hd hlog a hold rfl⟩
    rw [hlog, List.append_assoc]

theorem waits_of_steps (h : Relation.ReflTransGen (StepFor n d s.log.length) s s') (hs : Wf n s)
    (hd : d < n) : Wf n s' ∧ ∃ xs, s'.log = s.log ++ xs ∧ Waits n d s' xs := by
  induction h
  case refl =>
    refine ⟨hs, [], (List.append_nil _).symm, .waiting (by simp) (by simp [IsOpen]) fun _ => ?_⟩
    simpa [groups] using ahead_lt (hs.port (Nat.zero_lt_of_lt hd)) hd
  case tail h ih =>
    have ⟨hs', xs, hlog, hw⟩ := ih
    exact ⟨Step.wf h hs', h.waits hs' hd hlog hw⟩

-- What waits at a port is let through after at most one group from each of the other ports.
theorem few_groups_before (h : Relation.ReflTransGen (StepFor n d s.log.length) s s') (hs : Wf n s)
    (hd : d < n) : (groups (movesBefore d s s')).length < n := by
  have ⟨hs', xs, hlog, hw⟩ := waits_of_steps h hs hd
  have := hw.few_groups hs' hd hlog
  rwa [movesBefore, hlog, List.drop_left]

end Waits

end Arbiter
