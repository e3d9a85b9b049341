import Mathlib.Tactic
import Mathlib.Logic.Relation

-- A depth-first traversal in which what is found below some nodes is kept, and what is found below other ones is
-- dropped, with one list of visited nodes for both.

namespace Traversal

variable {α : Type} {inputs : α → List α} {rank : α → Nat}

-- There is a path through inputs.
def Reaches (inputs : α → List α) : α → α → Prop :=
  Relation.ReflTransGen fun v u => u ∈ inputs v

-- The call for a node of which the result is dropped, with the nodes that are visited when it starts.
def dropCall (keep : Bool) (v : α) (visited : List α) : List (α × List α) :=
  if keep then [] else [(v, visited)]

-- A traversal from a list of nodes. It ends with the nodes that are kept, the calls of which the result is dropped
-- and the visited nodes. Behind its inputs a node has any list of nodes that are visited for nothing.
inductive Visits (inputs : α → List α) (rank : α → Nat) :
    List (Bool × α) → List α → List α → List (α × List α) → List α → Prop
  | done {s} : Visits inputs rank [] s [] [] s
  | seen {keep v goals s kept calls s'} (hv : v ∈ s) (rest : Visits inputs rank goals s kept calls s') :
    Visits inputs rank ((keep, v) :: goals) s kept (dropCall keep v s ++ calls) s'
  | new (keep) {v goals} {dropped : List α} {s kept calls s₁ kept' calls' s₂} (hv : v ∉ s)
    (hdropped : ∀ u ∈ dropped, rank u < rank v)
    (below : Visits inputs rank ((inputs v).map (true, ·) ++ dropped.map (false, ·)) (v :: s) kept calls s₁)
    (rest : Visits inputs rank goals s₁ kept' calls' s₂) :
    Visits inputs rank ((keep, v) :: goals) s ((if keep then v :: kept else []) ++ kept')
      (dropCall keep v s ++ calls ++ calls') s₂

namespace Visits

variable {goals goals' : List (Bool × α)} {s s' s₁ s₂ kept kept' : List α} {calls calls' : List (α × List α)}
  {v w q : α} {t stack : List α} {keep : Bool}

theorem append (h : Visits inputs rank goals s kept calls s₁) (h' : Visits inputs rank goals' s₁ kept' calls' s₂) :
    Visits inputs rank (goals ++ goals') s (kept ++ kept') (calls ++ calls') s₂ := by
  induction h
  case done => exact h'
  case seen hv _ ih =>
    rw [List.append_assoc]
    exact .seen hv (ih h')
  case new hv hdropped below _ _ ih =>
    rw [List.append_assoc, List.append_assoc _ _ calls']
    exact .new _ hv hdropped below (ih h')

-- The call for a node can be made for nothing.
theorem drop (h : Visits inputs rank [(true, v)] s kept calls s') :
    Visits inputs rank [(false, v)] s [] ((v, s) :: calls) s' := by
  cases h
  case seen hv rest =>
    cases rest
    exact .seen hv .done
  case new hdropped hv below rest =>
    cases rest
    have := Visits.new false hv hdropped below .done
    simpa [dropCall] using this

theorem subset (h : Visits inputs rank goals s kept calls s') : s ⊆ s' := by
  induction h
  case done => exact List.Subset.refl _
  case seen ih => exact ih
  case new ih ih' => exact List.Subset.trans (List.subset_cons_self ..) (List.Subset.trans ih ih')

theorem goal_mem (h : Visits inputs rank goals s kept calls s') : (keep, v) ∈ goals → v ∈ s' := by
  induction h
  case done => simp
  case seen hv rest ih =>
    intro hmem
    rcases List.mem_cons.mp hmem with heq | hmem
    case inl =>
      obtain ⟨_, rfl⟩ := Prod.mk.inj heq
      exact rest.subset hv
    case inr => exact ih hmem
  case new below rest _ ih =>
    intro hmem
    rcases List.mem_cons.mp hmem with heq | hmem
    case inl =>
      obtain ⟨_, rfl⟩ := Prod.mk.inj heq
      exact rest.subset (below.subset (List.mem_cons_self ..))
    case inr => exact ih hmem

theorem mem_of_mem_kept (h : Visits inputs rank goals s kept calls s') : w ∈ kept → w ∉ s ∧ w ∈ s' := by
  induction h
  case done => simp
  case seen ih => exact ih
  case new keep v _ _ s _ _ _ _ _ _ hv _ below rest ih ih' =>
    intro hw
    rcases List.mem_append.mp hw with hw | hw
    case inl =>
      cases keep
      case false => cases hw
      case true =>
        rcases List.mem_cons.mp hw with rfl | hw
        case inl => exact ⟨hv, rest.subset (below.subset (List.mem_cons_self ..))⟩
        case inr => exact ⟨fun h => (ih hw).left (List.mem_cons_of_mem _ h), rest.subset (ih hw).right⟩
    case inr => exact ⟨fun h => (ih' hw).left (below.subset (List.mem_cons_of_mem _ h)), (ih' hw).right⟩

theorem nodup (h : Visits inputs rank goals s kept calls s') : kept.Nodup := by
  induction h
  case done => exact List.nodup_nil
  case seen ih => exact ih
  case new keep v _ _ s _ _ _ _ _ _ _ _ below rest ih ih' =>
    cases keep
    case false => exact ih'
    case true =>
      rw [if_pos rfl, List.nodup_append']
      refine ⟨List.nodup_cons.mpr ⟨fun h => ?_, ih⟩, ih', fun w hw hw' => ?_⟩
      case refine_1 => exact (below.mem_of_mem_kept h).left (List.mem_cons_self ..)
      case refine_2 =>
        have hnot := (rest.mem_of_mem_kept hw').left
        rcases List.mem_cons.mp hw with rfl | hw
        case inl => exact hnot (below.subset (List.mem_cons_self ..))
        case inr => exact hnot (below.mem_of_mem_kept hw).right

theorem reaches_of_mem_kept (h : Visits inputs rank goals s kept calls s') :
    w ∈ kept → ∃ v, (true, v) ∈ goals ∧ Reaches inputs v w := by
  induction h
  case done => simp
  case seen ih =>
    intro hw
    obtain ⟨v, hv, hreach⟩ := ih hw
    exact ⟨v, List.mem_cons_of_mem _ hv, hreach⟩
  case new keep v _ dropped _ _ _ _ _ _ _ _ _ _ _ ih ih' =>
    intro hw
    rcases List.mem_append.mp hw with hw | hw
    case inl =>
      cases keep
      case false => cases hw
      case true =>
        refine ⟨v, List.mem_cons_self .., ?_⟩
        rcases List.mem_cons.mp hw with rfl | hw
        case inl => exact .refl
        case inr =>
          obtain ⟨u, hu, hreach⟩ := ih hw
          have hinput : u ∈ inputs v := by simpa using hu
          exact .head hinput hreach
    case inr =>
      obtain ⟨v, hv, hreach⟩ := ih' hw
      exact ⟨v, List.mem_cons_of_mem _ hv, hreach⟩

theorem eq_of_mem_dropCall (h : (q, t) ∈ dropCall keep v s) : keep = false ∧ q = v ∧ t = s := by
  cases keep
  case false => exact ⟨rfl, Prod.mk.inj (List.mem_singleton.mp h)⟩
  case true  => cases h

theorem subset_of_mem_calls (h : Visits inputs rank goals s kept calls s') : (q, t) ∈ calls → s ⊆ t := by
  induction h
  case done => simp
  case seen ih =>
    intro hmem
    rcases List.mem_append.mp hmem with hmem | hmem
    case inl => exact (eq_of_mem_dropCall hmem).right.right ▸ List.Subset.refl _
    case inr => exact ih hmem
  case new below _ ih ih' =>
    intro hmem
    rcases List.mem_append.mp hmem with hmem | hmem
    case inl =>
      rcases List.mem_append.mp hmem with hmem | hmem
      case inl => exact (eq_of_mem_dropCall hmem).right.right ▸ List.Subset.refl _
      case inr => exact List.Subset.trans (List.subset_cons_self ..) (ih hmem)
    case inr => exact fun w hw => ih' hmem (below.subset (List.mem_cons_of_mem _ hw))

-- A node is visited before, or kept, or reached first from a node of which the result is dropped.
theorem cases_of_mem (h : Visits inputs rank goals s kept calls s') :
    w ∈ s' → w ∈ s ∨ w ∈ kept ∨ ∃ call ∈ calls, w ∉ call.2 ∧ Reaches inputs call.1 w := by
  induction h
  case done => exact .inl
  case seen ih =>
    intro hw
    apply (ih hw).imp_right
    apply Or.imp_right
    rintro ⟨call, hcall, h⟩
    exact ⟨call, List.mem_append_right _ hcall, h⟩
  case new keep v _ _ s kept _ _ _ _ _ hv _ below rest ih ih' =>
    -- What is kept below `v` is dropped with `v`.
    have hkept (hws : w ∉ s) (hw : w ∈ v :: kept) (hreach : Reaches inputs v w) (calls) (kept') :
        w ∈ (if keep then v :: kept else []) ++ kept' ∨
          ∃ call ∈ dropCall keep v s ++ calls, w ∉ call.2 ∧ Reaches inputs call.1 w := by
      cases keep
      case false => exact .inr ⟨(v, s), List.mem_cons_self .., hws, hreach⟩
      case true  => exact .inl (List.mem_append_left _ hw)
    intro hw
    rcases ih' hw with hw | hw | ⟨call, hcall, h⟩
    case inr.inl => exact .inr (.inl (List.mem_append_right _ hw))
    case inr.inr => exact .inr (.inr ⟨call, List.mem_append_right _ hcall, h⟩)
    case inl =>
      by_cases hws : w ∈ s
      case pos => exact .inl hws
      case neg =>
        right
        rw [List.append_assoc]
        rcases ih hw with hw | hw | ⟨call, hcall, h⟩
        case inl =>
          obtain rfl := (List.mem_cons.mp hw).resolve_right hws
          exact hkept hws (List.mem_cons_self ..) .refl _ _
        case inr.inl =>
          obtain ⟨u, hu, hreach⟩ := below.reaches_of_mem_kept hw
          have hinput : u ∈ inputs v := by simpa using hu
          exact hkept hws (List.mem_cons_of_mem _ hw) (.head hinput hreach) _ _
        case inr.inr =>
          exact .inr ⟨call, List.mem_append_right _ (List.mem_append_left _ hcall), h⟩

-- The inputs of all visited nodes but those on the stack are visited.
def Closed (inputs : α → List α) (stack s : List α) : Prop :=
  ∀ v ∈ s, v ∉ stack → ∀ u ∈ inputs v, u ∈ s

-- A new node is on the stack until its inputs are visited.
theorem Closed.push (hs : Closed inputs stack s) : Closed inputs (v :: stack) (v :: s) := by
  intro x hx hstack u hu
  rw [List.mem_cons, not_or] at hstack
  exact List.mem_cons_of_mem _ (hs x ((List.mem_cons.mp hx).resolve_left hstack.left) hstack.right u hu)

theorem closed (h : Visits inputs rank goals s kept calls s') (hs : Closed inputs stack s) :
    Closed inputs stack s' := by
  induction h generalizing stack
  case done => exact hs
  case seen ih => exact ih hs
  case new v _ _ s _ _ s₁ _ _ _ hv _ below _ ih ih' =>
    apply ih'
    intro x hx hstack u hu
    by_cases hxv : x = v
    case pos =>
      subst hxv
      have hgoal : (true, u) ∈ (inputs x).map (true, ·) := List.mem_map_of_mem hu
      exact below.goal_mem (List.mem_append_left _ hgoal)
    case neg => exact ih hs.push x hx (by simp [hxv, hstack]) u hu

section rank

variable (hrank : ∀ v, ∀ u ∈ inputs v, rank u < rank v)
include hrank

theorem rank_le_of_reaches (h : Reaches inputs v w) : rank w ≤ rank v := by
  induction h
  case refl => exact le_refl _
  case tail hu ih => exact (hrank _ _ hu).le.trans ih

-- The nodes on the stack have larger ranks than what is below them, so that a path below does not meet them.
theorem mem_of_reaches (hs : Closed inputs stack s) (hv : v ∈ s) (hstack : ∀ x ∈ stack, rank v < rank x)
    (h : Reaches inputs v w) : w ∈ s := by
  induction h
  case refl => exact hv
  case tail u w hreach hw ih =>
    have hu : u ∉ stack := by
      intro hu
      have hle := rank_le_of_reaches hrank hreach
      have hlt := hstack u hu
      omega
    exact hs u ih hu w hw

-- What a dropped call reaches first is not kept.
theorem not_mem_kept (h : Visits inputs rank goals s kept calls s') (hs : Closed inputs stack s)
    (hstack : ∀ x ∈ stack, ∀ goal ∈ goals, rank goal.2 < rank x) (hcall : (q, t) ∈ calls)
    (hreach : Reaches inputs q w) (hw : w ∉ t) : w ∉ kept ∧ w ∈ s' := by
  induction h generalizing stack
  case done => cases hcall
  case seen keep v _ s _ _ _ hv _ ih =>
    rcases List.mem_append.mp hcall with hcall | hcall
    case inl =>
      obtain ⟨rfl, rfl, rfl⟩ := eq_of_mem_dropCall hcall
      exact absurd (mem_of_reaches hrank hs hv (fun x hx => hstack x hx _ (List.mem_cons_self ..)) hreach) hw
    case inr => exact ih hs (fun x hx goal hg => hstack x hx goal (List.mem_cons_of_mem _ hg)) hcall
  case new keep v goals dropped s kept _ s₁ kept' _ s₂ hv hdropped below rest ih ih' =>
    have hs₁ : Closed inputs stack s₁ := (Visits.new false hv hdropped below .done).closed hs
    have hv₁ : v ∈ s₁ := below.subset (List.mem_cons_self ..)
    have hlt : ∀ x ∈ stack, rank v < rank x := fun x hx => hstack x hx _ (List.mem_cons_self ..)
    -- What is visited when `v` is done is not kept any more.
    have hlater (hws : w ∈ s₁) : w ∉ kept' ∧ w ∈ s₂ :=
      ⟨fun h => (rest.mem_of_mem_kept h).left hws, rest.subset hws⟩
    rcases List.mem_append.mp hcall with hcall' | hrest
    case inl =>
      rcases List.mem_append.mp hcall' with hdrop | hbelow
      case inl =>
        obtain ⟨rfl, rfl, rfl⟩ := eq_of_mem_dropCall hdrop
        exact hlater (mem_of_reaches hrank hs₁ hv₁ hlt hreach)
      case inr =>
        have hstack' : ∀ x ∈ v :: stack,
            ∀ goal ∈ (inputs v).map (true, ·) ++ dropped.map (false, ·), rank goal.2 < rank x := by
          have hgoal : ∀ goal ∈ (inputs v).map (true, ·) ++ dropped.map (false, ·), rank goal.2 < rank v := by
            simp only [List.mem_append, List.mem_map]
            rintro _ (⟨u, hu, rfl⟩ | ⟨u, hu, rfl⟩)
            case inl => exact hrank v u hu
            case inr => exact hdropped u hu
          rw [List.forall_mem_cons]
          exact ⟨hgoal, fun x hx goal hg => (hgoal goal hg).trans (hlt x hx)⟩
        obtain ⟨hkept, hws⟩ := ih hs.push hstack' hbelow
        have hne : w ≠ v := by
          rintro rfl
          exact hw (below.subset_of_mem_calls hbelow (List.mem_cons_self ..))
        have hfirst : w ∉ if keep then v :: kept else [] := by cases keep <;> simp [hne, hkept]
        exact ⟨fun h => (List.mem_append.mp h).elim hfirst (hlater hws).left, (hlater hws).right⟩
    case inr =>
      have hgoals : ∀ x ∈ stack, ∀ goal ∈ goals, rank goal.2 < rank x :=
        fun x hx goal hg => hstack x hx goal (List.mem_cons_of_mem _ hg)
      obtain ⟨hkept', hws⟩ := ih' hs₁ hgoals hrest
      have hw₁ : w ∉ s₁ := fun h => hw (rest.subset_of_mem_calls hrest h)
      have hne : w ≠ v := fun h => hw₁ (h ▸ hv₁)
      have hkept : w ∉ kept := fun h => hw₁ (below.mem_of_mem_kept h).right
      have hfirst : w ∉ if keep then v :: kept else [] := by cases keep <;> simp [hne, hkept]
      exact ⟨fun h => (List.mem_append.mp h).elim hfirst hkept', hws⟩

-- All that is reached from the root is kept iff it is visited before each dropped call that reaches it.
theorem kept_iff (h : Visits inputs rank [(true, v)] [] kept calls s') :
    (∀ w, Reaches inputs v w → w ∈ kept) ↔
      ∀ call ∈ calls, ∀ w, Reaches inputs v w → Reaches inputs call.1 w → w ∈ call.2 := by
  have hnil : Closed inputs [] [] := fun _ hx => by cases hx
  constructor
  case mp =>
    intro hkept call hcall w hw hreach
    by_contra hnot
    exact (h.not_mem_kept hrank hnil (by simp) hcall hreach hnot).left (hkept w hw)
  case mpr =>
    intro hcalls w hw
    have hmem : w ∈ s' :=
      mem_of_reaches hrank (h.closed hnil) (h.goal_mem (List.mem_cons_self ..)) (by simp) hw
    rcases h.cases_of_mem hmem with hmem | hmem | ⟨call, hcall, hnot, hreach⟩
    case inl     => cases hmem
    case inr.inl => exact hmem
    case inr.inr => exact absurd (hcalls call hcall w hw hreach) hnot

end rank

end Visits

end Traversal
