import Mathlib.Tactic

-- A rooted tree is visited from any of its nodes with a stack. A node is put back below its children until they
-- are done, and its parent comes after it.

structure ParentTree (V : Type) where
  nodes        : Finset V
  children     : V → List V
  parent       : V → Option V
  rank         : V → Nat
  child_mem    : ∀ {v c}, v ∈ nodes → c ∈ children v → c ∈ nodes
  parent_child : ∀ {v c}, v ∈ nodes → c ∈ children v → parent c = some v
  rank_child   : ∀ {v c}, v ∈ nodes → c ∈ children v → rank c < rank v
  child_parent : ∀ {v p}, v ∈ nodes → parent v = some p → p ∈ nodes ∧ v ∈ children p
  root_unique  : ∀ {r r'}, r ∈ nodes → r' ∈ nodes → parent r = none → parent r' = none → r = r'

-- The top of the stack is its first item. `done` has the nodes in the order in which they were visited.
structure Climb (V : Type) where
  stack : List (Option V)
  done  : List V

namespace ParentTree

variable {V : Type} {t : ParentTree V}

-- The node and a child of it, for each of the children.
def push (v : V) (cs : List V) (stack : List (Option V)) : List (Option V) :=
  cs.foldl (fun stack c => some c :: some v :: stack) stack

theorem mem_push {v : V} {cs : List V} {stack : List (Option V)} {x : Option V} :
    x ∈ push v cs stack ↔ (∃ c ∈ cs, x = some c) ∨ (cs ≠ [] ∧ x = some v) ∨ x ∈ stack := by
  induction cs generalizing stack
  case nil => simp [push]
  case cons c cs ih =>
    change x ∈ push v cs (some c :: some v :: stack) ↔ _
    rw [ih]
    simp only [List.mem_cons, or_and_right, exists_or, exists_eq_left, ne_eq, reduceCtorEq,
      not_false_eq_true, true_and]
    generalize (∃ c ∈ cs, x = some c) = P
    tauto

theorem exists_push (v c : V) (cs : List V) (stack : List (Option V)) :
    ∃ c' ∈ c :: cs, ∃ stack', push v (c :: cs) stack = some c' :: stack' := by
  induction cs using List.reverseRecOn
  case nil => exact ⟨c, List.mem_cons_self, some v :: stack, rfl⟩
  case append_singleton cs c' _ =>
    refine ⟨c', by simp, some v :: push v (c :: cs) stack, ?_⟩
    rw [push, ← List.cons_append, List.foldl_append]
    rfl

-- What holds from the start at the node `m` on.
structure Reached (t : ParentTree V) (m : V) (s : Climb V) : Prop where
  nodup  : s.done.Nodup
  sub    : ∀ v ∈ s.done, v ∈ t.nodes
  mem    : ∀ v, some v ∈ s.stack → v ∈ t.nodes
  closed : ∀ v ∈ s.done, ∀ c ∈ t.children v, c ∈ s.done
  climbs : ∀ v ∈ s.done, ∀ p, t.parent v = some p → p ∈ s.done ∨ some p ∈ s.stack
  start  : m ∈ s.done ∨ some m ∈ s.stack

namespace Reached

variable {m v : V} {s : Climb V} {x : Option V} {stack : List (Option V)} {done : List V}

theorem init (h : m ∈ t.nodes) : t.Reached m ⟨[some m], []⟩ where
  nodup  := List.nodup_nil
  sub    := List.forall_mem_nil _
  mem    := by simpa using h
  closed := List.forall_mem_nil _
  climbs := List.forall_mem_nil _
  start  := .inr List.mem_cons_self

-- An item that is none of the nodes to be visited is dropped.
theorem drop (h : t.Reached m ⟨x :: stack, done⟩) (hx : ∀ v, x = some v → v ∈ done) :
    t.Reached m ⟨stack, done⟩ where
  nodup        := h.nodup
  sub          := h.sub
  mem v hv     := h.mem v (List.mem_cons_of_mem _ hv)
  closed       := h.closed
  climbs v hv p hp := by
    obtain hd | hs := h.climbs v hv p hp
    case inl => exact .inl hd
    case inr => exact (List.mem_cons.mp hs).imp (fun he => hx p he.symm) id
  start := by
    obtain hd | hs := h.start
    case inl => exact .inl hd
    case inr => exact (List.mem_cons.mp hs).imp (fun he => hx m he.symm) id

theorem visit (h : t.Reached m ⟨some v :: stack, done⟩) (hv : v ∉ done)
    (hc : ∀ c ∈ t.children v, c ∈ done) : t.Reached m ⟨t.parent v :: stack, done ++ [v]⟩ where
  nodup := List.concat_eq_append ▸ h.nodup.concat hv
  sub u hu := by
    obtain hu | hu := List.mem_append.mp hu
    case inl => exact h.sub u hu
    case inr => exact List.mem_singleton.mp hu ▸ h.mem v List.mem_cons_self
  mem u hu := by
    obtain hu | hu := List.mem_cons.mp hu
    case inl => exact (t.child_parent (h.mem v List.mem_cons_self) hu.symm).left
    case inr => exact h.mem u (List.mem_cons_of_mem _ hu)
  closed u hu c hcu := by
    obtain hu | hu := List.mem_append.mp hu
    case inl => exact List.mem_append_left _ (h.closed u hu c hcu)
    case inr => exact List.mem_append_left _ (hc c (List.mem_singleton.mp hu ▸ hcu))
  climbs u hu p hp := by
    obtain hu | hu := List.mem_append.mp hu
    case inl =>
      obtain hd | hs := h.climbs u hu p hp
      case inl => exact .inl (List.mem_append_left _ hd)
      case inr =>
        obtain he | hs := List.mem_cons.mp hs
        case inl => exact .inl (by simp [Option.some.inj he])
        case inr => exact .inr (List.mem_cons_of_mem _ hs)
    case inr =>
      rw [List.mem_singleton.mp hu] at hp
      exact .inr (hp ▸ List.mem_cons_self)
  start := by
    obtain hd | hs := h.start
    case inl => exact .inl (List.mem_append_left _ hd)
    case inr =>
      obtain he | hs := List.mem_cons.mp hs
      case inl => exact .inl (by simp [Option.some.inj he])
      case inr => exact .inr (List.mem_cons_of_mem _ hs)

theorem descend (h : t.Reached m ⟨some v :: stack, done⟩) {cs : List V} (hne : cs ≠ [])
    (hcs : ∀ c ∈ cs, c ∈ t.children v) : t.Reached m ⟨push v cs stack, done⟩ := by
  have hsub : ∀ x ∈ some v :: stack, x ∈ push v cs stack := by
    intro x hx
    rw [mem_push]
    obtain rfl | hx := List.mem_cons.mp hx
    case inl => exact .inr (.inl ⟨hne, rfl⟩)
    case inr => exact .inr (.inr hx)
  have hv := h.mem v List.mem_cons_self
  refine ⟨h.nodup, h.sub, ?_, h.closed, ?_, h.start.imp_right (hsub _)⟩
  · intro u hu
    obtain ⟨c, hc, he⟩ | ⟨_, he⟩ | hu := mem_push.mp hu
    case inl       => exact Option.some.inj he ▸ t.child_mem hv (hcs c hc)
    case inr.inl   => exact Option.some.inj he ▸ hv
    case inr.inr   => exact h.mem u (List.mem_cons_of_mem _ hu)
  · exact fun u hu p hp => (h.climbs u hu p hp).imp_right (hsub _)

end Reached

-- A property that a node passes on to its parent gets to the root.
theorem exists_root (t : ParentTree V) {P : V → Prop} (hP : ∀ v p, v ∈ t.nodes → P v → t.parent v = some p → P p)
    {v : V} (hv : v ∈ t.nodes) (hPv : P v) : ∃ r ∈ t.nodes, t.parent r = none ∧ P r := by
  induction hn : t.nodes.sup t.rank - t.rank v using Nat.strongRecOn generalizing v
  case ind n ih =>
    cases hp : t.parent v
    case none => exact ⟨v, hv, hp, hPv⟩
    case some p =>
      have ⟨hpm, hc⟩ := t.child_parent hv hp
      have hlt := t.rank_child hpm hc
      have hle := Finset.le_sup (f := t.rank) hpm
      exact ih _ (by omega) hpm (hP v p hv hPv hp) rfl

-- When the stack is empty, each node has been visited once.
theorem Reached.mem_done {m : V} {done : List V} (h : t.Reached m ⟨[], done⟩) (v : V) :
    v ∈ done ↔ v ∈ t.nodes := by
  refine ⟨h.sub v, fun hv => ?_⟩
  by_contra hn
  have hm : m ∈ done := h.start.resolve_right List.not_mem_nil
  have ⟨r, hr, hrn, hrd⟩ := t.exists_root (P := (· ∈ done))
    (fun u p _ hu hp => (h.climbs u hu p hp).resolve_right List.not_mem_nil) (h.sub m hm) hm
  have ⟨r', hr', hrn', hrd'⟩ := t.exists_root (P := (· ∉ done))
    (fun u p hum hu hp hd => hu (h.closed p hd u (t.child_parent hum hp).right)) hv hn
  exact hrd' (t.root_unique hr hr' hrn hrn' ▸ hrd)

variable [DecidableEq V]

def step (t : ParentTree V) : Climb V → Climb V
  | ⟨[], done⟩              => ⟨[], done⟩
  | ⟨none :: stack, done⟩   => ⟨stack, done⟩
  | ⟨some v :: stack, done⟩ =>
    if v ∈ done then
      ⟨stack, done⟩
    else
      match (t.children v).filter (· ∉ done) with
      | []      => ⟨t.parent v :: stack, done ++ [v]⟩
      | c :: cs => ⟨push v (c :: cs) stack, done⟩

namespace Reached

variable {m v : V} {s : Climb V}

theorem step (h : t.Reached m s) : t.Reached m (t.step s) := by
  match s with
  | ⟨[], done⟩            => exact h
  | ⟨none :: stack, done⟩ => exact h.drop nofun
  | ⟨some v :: stack, done⟩ =>
    rw [ParentTree.step]
    split
    case isTrue hv  => exact h.drop fun u he => Option.some.inj he ▸ hv
    case isFalse hv =>
      split
      case h_1 hcs =>
        apply h.visit hv
        intro c hc
        simpa using List.filter_eq_nil_iff.mp hcs c hc
      case h_2 c cs hcs =>
        apply h.descend (List.cons_ne_nil c cs)
        intro c' hc'
        exact List.mem_of_mem_filter (hcs ▸ hc')

theorem iterate (h : t.Reached m s) (k : Nat) : t.Reached m (t.step^[k] s) := by
  induction k generalizing s
  case zero      => exact h
  case succ k ih => exact ih h.step

end Reached

-- From a node that has not been visited, the next visit is one of a node below it.
theorem exists_visit {v : V} (hv : v ∈ t.nodes) (stack : List (Option V)) {done : List V} (hn : v ∉ done) :
    ∃ k w, w ∈ t.nodes ∧ w ∉ done ∧ (t.step^[k] ⟨some v :: stack, done⟩).done = done ++ [w] := by
  induction hr : t.rank v using Nat.strongRecOn generalizing v stack
  case ind n ih =>
    cases hcs : (t.children v).filter (· ∉ done)
    case nil =>
      refine ⟨1, v, hv, hn, ?_⟩
      simp only [Function.iterate_one, step, hn, if_false, hcs]
    case cons c cs =>
      have ⟨c', hc', stack', hs⟩ := exists_push v c cs stack
      have ⟨hmem, hcn⟩ := List.mem_filter.mp (hcs ▸ hc')
      have ⟨k, w, hw, hwn, hk⟩ := ih _ (hr ▸ t.rank_child hv hmem) (t.child_mem hv hmem) stack'
        (by simpa using hcn) rfl
      refine ⟨k + 1, w, hw, hwn, ?_⟩
      have hstep : t.step ⟨some v :: stack, done⟩ = ⟨some c' :: stack', done⟩ := by
        simp only [step, hn, if_false, hcs, hs]
      rw [Function.iterate_succ_apply, hstep, hk]

-- The visit comes to an end.
theorem Reached.exists_empty {m : V} {s : Climb V} (h : t.Reached m s) : ∃ k, (t.step^[k] s).stack = [] := by
  induction hu : (t.nodes.filter (· ∉ s.done)).card using Nat.strongRecOn generalizing s
  case ind n ih =>
    obtain ⟨stack, done⟩ := s
    induction stack
    case nil => exact ⟨0, rfl⟩
    case cons x stack ihs =>
      by_cases hx : ∀ v, x = some v → v ∈ done
      case pos =>
        have ⟨k, hk⟩ := ihs (h.drop hx) hu
        have hstep : t.step ⟨x :: stack, done⟩ = ⟨stack, done⟩ := by
          cases x
          case none   => rfl
          case some v => simp [ParentTree.step, hx v rfl]
        exact ⟨k + 1, by rw [Function.iterate_succ_apply, hstep, hk]⟩
      case neg =>
        push Not at hx
        have ⟨v, he, hv⟩ := hx
        subst he
        have ⟨k, w, hw, hwn, hk⟩ := exists_visit (h.mem v List.mem_cons_self) stack hv
        have hlt : (t.nodes.filter (· ∉ (t.step^[k] ⟨some v :: stack, done⟩).done)).card < n := by
          rw [hk, ← hu]
          apply Finset.card_lt_card
          rw [Finset.ssubset_iff_of_subset]
          · exact ⟨w, by simp [hw, hwn], by simp⟩
          · intro u hu
            simp_all
        have ⟨k', hk'⟩ := ih _ hlt (h.iterate k) rfl
        exact ⟨k' + k, by rw [Function.iterate_add_apply, hk']⟩

end ParentTree
