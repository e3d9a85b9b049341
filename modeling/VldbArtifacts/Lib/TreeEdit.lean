import Mathlib.Tactic

-- The edit distance of ordered trees with labels: the least cost of removing, inserting and relabelling
-- nodes until one tree has become the other.

namespace TreeEdit

inductive Node (α : Type)
  | mk (label : α) (children : List (Node α))

structure Costs (α : Type) where
  insert : α → Int
  remove : α → Int
  update : α → α → Int

variable {α : Type}

mutual
def Node.size : Node α → Nat
  | .mk _ f => size f + 1

def size : List (Node α) → Nat
  | []     => 0
  | t :: f => t.size + size f
end

mutual
def Node.labels : Node α → List α
  | .mk a f => a :: labels f

def labels : List (Node α) → List α
  | []     => []
  | t :: f => t.labels ++ labels f
end

-- The recurrence at the first trees of two forests. Each step takes a node from one of them, so that the
-- number of nodes is enough fuel.
def forestDist (c : Costs α) : Nat → List (Node α) → List (Node α) → Int
  | 0,     _,             _             => 0
  | _ + 1, [],            []            => 0
  | n + 1, .mk a as :: f, []            => c.remove a + forestDist c n (as ++ f) []
  | n + 1, [],            .mk b bs :: g => c.insert b + forestDist c n [] (bs ++ g)
  | n + 1, .mk a as :: f, .mk b bs :: g =>
    min (c.remove a + forestDist c n (as ++ f) (.mk b bs :: g))
      (min (c.insert b + forestDist c n (.mk a as :: f) (bs ++ g))
        (c.update a b + forestDist c n as bs + forestDist c n f g))

def dist (c : Costs α) (s t : Node α) : Int :=
  forestDist c (size [s] + size [t]) [s] [t]

-- The forests can be mapped on each other at the given cost. Nodes that are mapped on each other keep
-- their order and their ancestors.
inductive Maps (c : Costs α) : List (Node α) → List (Node α) → Int → Prop
  | nil : Maps c [] [] 0
  | remove {as f g n} (a : α) : Maps c (as ++ f) g n → Maps c (.mk a as :: f) g (c.remove a + n)
  | insert {f bs g n} (b : α) : Maps c f (bs ++ g) n → Maps c f (.mk b bs :: g) (c.insert b + n)
  | update {as bs m f g n} (a b : α) : Maps c as bs m → Maps c f g n →
      Maps c (.mk a as :: f) (.mk b bs :: g) (c.update a b + m + n)

-- A single edit at any place. The new labels are those that the costs are a metric on.
inductive Edit (c : Costs α) (P : α → Prop) : List (Node α) → List (Node α) → Int → Prop
  | remove {as f} (a : α) : Edit c P (.mk a as :: f) (as ++ f) (c.remove a)
  | insert {bs g} (b : α) : P b → Edit c P (bs ++ g) (.mk b bs :: g) (c.insert b)
  | update {as f} (a b : α) : P b → Edit c P (.mk a as :: f) (.mk b as :: f) (c.update a b)
  | children {as bs f n} (a : α) : Edit c P as bs n → Edit c P (.mk a as :: f) (.mk a bs :: f) n
  | siblings {f g n} (t : Node α) : Edit c P f g n → Edit c P (t :: f) (t :: g) n

inductive Edits (c : Costs α) (P : α → Prop) : List (Node α) → List (Node α) → Int → Prop
  | refl (f) : Edits c P f f 0
  | step {f g h m n} : Edit c P f g m → Edits c P g h n → Edits c P f h (m + n)

-- Equal up to the equality of the labels.
inductive Same (r : α → α → Prop) : List (Node α) → List (Node α) → Prop
  | nil : Same r [] []
  | cons {a b as bs f g} : r a b → Same r as bs → Same r f g → Same r (.mk a as :: f) (.mk b bs :: g)

-- The costs of relabelling are a metric on the labels that satisfy `P`, with the absent node as one more
-- label.
structure Costs.IsMetric (c : Costs α) (P : α → Prop) (r : α → α → Prop) : Prop where
  insert_pos       : ∀ {a}, P a → 0 < c.insert a
  remove_eq        : ∀ {a}, P a → c.remove a = c.insert a
  insert_le        : ∀ {a b}, P a → P b → c.insert b ≤ c.insert a + c.update a b
  update_nonneg    : ∀ {a b}, P a → P b → 0 ≤ c.update a b
  update_eq_zero   : ∀ {a b}, P a → P b → (c.update a b = 0 ↔ r a b)
  update_comm      : ∀ {a b}, P a → P b → c.update a b = c.update b a
  update_triangle  : ∀ {a b d}, P a → P b → P d → c.update a d ≤ c.update a b + c.update b d

variable {β : Type} {c : Costs α} {P : α → Prop} {r : α → α → Prop} {a b : α}
variable {f f' g g' h as bs : List (Node α)} {m n : Int}

theorem size_mk_cons : size (.mk a as :: f) = size as + size f + 1 := by
  rw [size, Node.size, Nat.add_right_comm]

theorem size_append : size (f ++ g) = size f + size g := by
  induction f
  case nil         => exact (Nat.zero_add _).symm
  case cons t f ih => rw [List.cons_append, size, size, ih, Nat.add_assoc]

theorem labels_append : labels (f ++ g) = labels f ++ labels g := by
  induction f
  case nil         => rfl
  case cons t f ih => rw [List.cons_append, labels, labels, ih, List.append_assoc]

theorem forall_labels_mk_cons :
    (∀ b ∈ labels (.mk a as :: f), P b) ↔ P a ∧ (∀ b ∈ labels as, P b) ∧ ∀ b ∈ labels f, P b := by
  simp only [labels, Node.labels, List.forall_mem_append, List.forall_mem_cons, and_assoc]

theorem forall_labels_append :
    (∀ b ∈ labels (f ++ g), P b) ↔ (∀ b ∈ labels f, P b) ∧ ∀ b ∈ labels g, P b := by
  rw [labels_append, List.forall_mem_append]

theorem maps_forestDist {fuel : Nat} (hs : size f + size g ≤ fuel) :
    Maps c f g (forestDist c fuel f g) := by
  induction fuel generalizing f g
  case zero =>
    cases f
    case cons s f => cases s; simp [size_mk_cons] at hs
    case nil =>
      cases g
      case cons t g => cases t; simp [size_mk_cons] at hs
      case nil      => exact .nil
  case succ fuel ih =>
    cases f
    case nil =>
      cases g
      case nil => exact .nil
      case cons t g =>
        cases t
        case mk b bs =>
          rw [size_mk_cons] at hs
          exact .insert b (ih (by rw [size_append]; omega))
    case cons s f =>
      cases s
      case mk a as =>
        have hr (g) (hg : size (.mk a as :: f) + size g ≤ fuel + 1) :
            Maps c (.mk a as :: f) g (c.remove a + forestDist c fuel (as ++ f) g) := by
          rw [size_mk_cons] at hg
          exact .remove a (ih (by rw [size_append]; omega))
        cases g
        case nil => exact hr [] hs
        case cons t g =>
          cases t
          case mk b bs =>
            specialize hr _ hs
            have hi : Maps c (.mk a as :: f) (.mk b bs :: g) (c.insert b + forestDist c fuel
                (.mk a as :: f) (bs ++ g)) := by
              rw [size_mk_cons (a := b)] at hs
              exact .insert b (ih (by rw [size_append]; omega))
            have hu : Maps c (.mk a as :: f) (.mk b bs :: g)
                (c.update a b + forestDist c fuel as bs + forestDist c fuel f g) := by
              rw [size_mk_cons, size_mk_cons] at hs
              exact .update a b (ih (by omega)) (ih (by omega))
            rw [forestDist]
            exact min_rec' (Maps c _ _) hr (min_rec' (Maps c _ _) hi hu)

theorem Maps.forestDist_le (hm : Maps c f g n) {fuel : Nat} (hs : size f + size g ≤ fuel) :
    forestDist c fuel f g ≤ n := by
  induction hm generalizing fuel
  case nil => cases fuel <;> rfl
  case remove as f g n a hm ih =>
    rw [size_mk_cons] at hs
    obtain ⟨fuel, rfl⟩ : ∃ k, fuel = k + 1 := ⟨fuel - 1, by omega⟩
    have hle : forestDist c fuel (as ++ f) g ≤ n := ih (by rw [size_append]; omega)
    cases g
    case nil      => exact Int.add_le_add_left hle _
    case cons t g =>
      cases t
      case mk b bs => exact (min_le_left ..).trans (Int.add_le_add_left hle _)
  case insert f bs g n b hm ih =>
    rw [size_mk_cons] at hs
    obtain ⟨fuel, rfl⟩ : ∃ k, fuel = k + 1 := ⟨fuel - 1, by omega⟩
    have hle : forestDist c fuel f (bs ++ g) ≤ n := ih (by rw [size_append]; omega)
    cases f
    case nil      => exact Int.add_le_add_left hle _
    case cons s f =>
      cases s
      case mk a as =>
        exact (min_le_right ..).trans ((min_le_left ..).trans (Int.add_le_add_left hle _))
  case update as bs m f g n a b _ _ ih₁ ih₂ =>
    rw [size_mk_cons, size_mk_cons] at hs
    obtain ⟨fuel, rfl⟩ : ∃ k, fuel = k + 1 := ⟨fuel - 1, by omega⟩
    have h₁ : forestDist c fuel as bs ≤ m := ih₁ (by omega)
    have h₂ : forestDist c fuel f g ≤ n := ih₂ (by omega)
    apply (min_le_right ..).trans ((min_le_right ..).trans _)
    exact Int.add_le_add (Int.add_le_add_left h₁ _) h₂

theorem maps_dist (s t : Node α) : Maps c [s] [t] (dist c s t) :=
  maps_forestDist le_rfl

theorem Maps.dist_le {s t : Node α} (hm : Maps c [s] [t] n) : dist c s t ≤ n :=
  hm.forestDist_le le_rfl

theorem Maps.append (h₁ : Maps c f g m) (h₂ : Maps c f' g' n) :
    Maps c (f ++ f') (g ++ g') (m + n) := by
  induction h₁
  case nil => simpa using h₂
  case remove a _ ih =>
    rw [add_assoc, List.cons_append]
    exact .remove a (by simpa using ih)
  case insert b _ ih =>
    rw [add_assoc, List.cons_append]
    exact .insert b (by simpa using ih)
  case update a b h₁ _ _ ih =>
    rw [add_assoc, List.cons_append, List.cons_append]
    exact .update a b h₁ ih

theorem Same.refl (hr : ∀ a, r a a) : ∀ f, Same r f f
  | []            => .nil
  | .mk a as :: f => .cons (hr a) (refl hr as) (refl hr f)

namespace Maps

variable (hc : c.IsMetric P r)
include hc

theorem nonneg (hm : Maps c f g n) (hf : ∀ a ∈ labels f, P a) (hg : ∀ b ∈ labels g, P b) : 0 ≤ n := by
  induction hm
  case nil => exact le_rfl
  case remove ih =>
    rw [forall_labels_mk_cons] at hf
    have := hc.insert_pos hf.left
    have := ih (forall_labels_append.mpr hf.right) hg
    rw [hc.remove_eq hf.left]
    omega
  case insert ih =>
    rw [forall_labels_mk_cons] at hg
    have := hc.insert_pos hg.left
    have := ih hf (forall_labels_append.mpr hg.right)
    omega
  case update ih₁ ih₂ =>
    rw [forall_labels_mk_cons] at hf hg
    have := hc.update_nonneg hf.left hg.left
    have := ih₁ hf.right.left hg.right.left
    have := ih₂ hf.right.right hg.right.right
    omega

theorem symm (hm : Maps c f g n) (hf : ∀ a ∈ labels f, P a) (hg : ∀ b ∈ labels g, P b) :
    Maps c g f n := by
  induction hm
  case nil => exact .nil
  case remove a _ ih =>
    rw [forall_labels_mk_cons] at hf
    rw [hc.remove_eq hf.left]
    exact .insert a (ih (forall_labels_append.mpr hf.right) hg)
  case insert b _ ih =>
    rw [forall_labels_mk_cons] at hg
    rw [← hc.remove_eq hg.left]
    exact .remove b (ih hf (forall_labels_append.mpr hg.right))
  case update a b _ _ ih₁ ih₂ =>
    rw [forall_labels_mk_cons] at hf hg
    rw [hc.update_comm hf.left hg.left]
    exact .update b a (ih₁ hf.right.left hg.right.left) (ih₂ hf.right.right hg.right.right)

-- A mapping that costs nothing removes and inserts nothing.
theorem same (hm : Maps c f g n) (hn : n ≤ 0) (hf : ∀ a ∈ labels f, P a) (hg : ∀ b ∈ labels g, P b) :
    Same r f g := by
  induction hm
  case nil => exact .nil
  case remove hm _ =>
    rw [forall_labels_mk_cons] at hf
    have := hc.insert_pos hf.left
    have := hm.nonneg hc (forall_labels_append.mpr hf.right) hg
    rw [hc.remove_eq hf.left] at hn
    omega
  case insert hm _ =>
    rw [forall_labels_mk_cons] at hg
    have := hc.insert_pos hg.left
    have := hm.nonneg hc hf (forall_labels_append.mpr hg.right)
    omega
  case update h₁ h₂ ih₁ ih₂ =>
    rw [forall_labels_mk_cons] at hf hg
    have hu := hc.update_nonneg hf.left hg.left
    have h₁ := h₁.nonneg hc hf.right.left hg.right.left
    have h₂ := h₂.nonneg hc hf.right.right hg.right.right
    refine .cons ((hc.update_eq_zero hf.left hg.left).mp (by omega)) ?_ ?_
    · exact ih₁ (by omega) hf.right.left hg.right.left
    · exact ih₂ (by omega) hf.right.right hg.right.right

theorem of_same (hs : Same r f g) (hf : ∀ a ∈ labels f, P a) (hg : ∀ b ∈ labels g, P b) :
    Maps c f g 0 := by
  induction hs
  case nil => exact .nil
  case cons a b _ _ _ _ hr _ _ ih₁ ih₂ =>
    rw [forall_labels_mk_cons] at hf hg
    have h₁ := ih₁ hf.right.left hg.right.left
    have h₂ := ih₂ hf.right.right hg.right.right
    simpa only [(hc.update_eq_zero hf.left hg.left).mpr hr, add_zero] using h₁.update a b h₂

theorem refl (hf : ∀ a ∈ labels f, P a) (hr : ∀ a, r a a) : Maps c f f 0 :=
  of_same hc (.refl hr f) hf hf

-- The mappings are composed by induction on the number of nodes. A node of `g` that the first mapping
-- inserts is removed or relabelled by the second one.
theorem trans {fuel : Nat} (hs : size f + size g + size h ≤ fuel) (h₁ : Maps c f g m)
    (h₂ : Maps c g h n) (hf : ∀ a ∈ labels f, P a) (hg : ∀ b ∈ labels g, P b)
    (hh : ∀ d ∈ labels h, P d) : ∃ k ≤ m + n, Maps c f h k := by
  induction fuel generalizing f g h m n
  case zero =>
    cases h₁
    case nil => exact ⟨n, by omega, h₂⟩
    all_goals (rw [size_mk_cons] at hs; omega)
  case succ fuel ih =>
    cases h₁
    case nil => exact ⟨n, by omega, h₂⟩
    case remove as f m a h₁ =>
      rw [size_mk_cons] at hs
      rw [forall_labels_mk_cons] at hf
      obtain ⟨k, hk, hm⟩ := ih (by rw [size_append]; omega) h₁ h₂ (forall_labels_append.mpr hf.right) hg hh
      exact ⟨_, by omega, .remove a hm⟩
    case insert bs g m b h₁ =>
      cases h₂
      case insert ds h n d h₂ =>
        rw [size_mk_cons (a := d)] at hs
        rw [forall_labels_mk_cons] at hh
        obtain ⟨k, hk, hm⟩ := ih (by rw [size_append]; omega) (.insert b h₁) h₂ hf hg
          (forall_labels_append.mpr hh.right)
        exact ⟨_, by omega, .insert d hm⟩
      case remove n h₂ =>
        rw [size_mk_cons] at hs
        rw [forall_labels_mk_cons] at hg
        have := hc.insert_pos hg.left
        have := hc.remove_eq hg.left
        obtain ⟨k, hk, hm⟩ := ih (by rw [size_append]; omega) h₁ h₂ hf
          (forall_labels_append.mpr hg.right) hh
        exact ⟨k, by omega, hm⟩
      case update ds n₁ h n₂ d h₂ h₃ =>
        rw [size_mk_cons, size_mk_cons] at hs
        rw [forall_labels_mk_cons] at hg hh
        have := hc.insert_le hg.left hh.left
        obtain ⟨k, hk, hm⟩ := ih (by rw [size_append, size_append]; omega) h₁ (h₂.append h₃) hf
          (forall_labels_append.mpr hg.right) (forall_labels_append.mpr hh.right)
        exact ⟨_, by omega, .insert d hm⟩
    case update as bs m₁ f g m₂ a b h₁ h₁' =>
      cases h₂
      case insert ds h n d h₂ =>
        rw [size_mk_cons (a := d)] at hs
        rw [forall_labels_mk_cons] at hh
        obtain ⟨k, hk, hm⟩ := ih (by rw [size_append]; omega) (.update a b h₁ h₁') h₂ hf hg
          (forall_labels_append.mpr hh.right)
        exact ⟨_, by omega, .insert d hm⟩
      case remove n h₂ =>
        rw [size_mk_cons, size_mk_cons] at hs
        rw [forall_labels_mk_cons] at hf hg
        have := hc.insert_le hg.left hf.left
        have := hc.update_comm hf.left hg.left
        have := hc.remove_eq hf.left
        have := hc.remove_eq hg.left
        obtain ⟨k, hk, hm⟩ := ih (by rw [size_append, size_append]; omega) (h₁.append h₁') h₂
          (forall_labels_append.mpr hf.right) (forall_labels_append.mpr hg.right) hh
        exact ⟨_, by omega, .remove a hm⟩
      case update ds n₁ h n₂ d h₂ h₂' =>
        rw [size_mk_cons, size_mk_cons, size_mk_cons] at hs
        rw [forall_labels_mk_cons] at hf hg hh
        have := hc.update_triangle hf.left hg.left hh.left
        obtain ⟨k₁, hk₁, hm₁⟩ := ih (by omega) h₁ h₂ hf.right.left hg.right.left hh.right.left
        obtain ⟨k₂, hk₂, hm₂⟩ := ih (by omega) h₁' h₂' hf.right.right hg.right.right hh.right.right
        exact ⟨_, by omega, .update a d hm₁ hm₂⟩

end Maps

namespace Edits

theorem trans (h₁ : Edits c P f g m) (h₂ : Edits c P g h n) : Edits c P f h (m + n) := by
  induction h₁
  case refl => simpa using h₂
  case step he _ ih =>
    rw [add_assoc]
    exact .step he (ih h₂)

theorem children (a : α) (h : Edits c P as bs n) : Edits c P (.mk a as :: f) (.mk a bs :: f) n := by
  induction h
  case refl         => exact .refl _
  case step he _ ih => exact .step (.children a he) ih

theorem siblings (t : Node α) (h : Edits c P f g n) : Edits c P (t :: f) (t :: g) n := by
  induction h
  case refl         => exact .refl _
  case step he _ ih => exact .step (.siblings t he) ih

end Edits

-- A mapping is carried out one node after the other.
theorem Maps.edits (hm : Maps c f g n) (hg : ∀ b ∈ labels g, P b) : Edits c P f g n := by
  induction hm
  case nil => exact .refl []
  case remove a _ ih => exact .step (.remove a) (ih hg)
  case insert bs g n b _ ih =>
    rw [forall_labels_mk_cons] at hg
    have he := Edits.step (.insert b hg.left) (.refl (c := c) (P := P) (.mk b bs :: g))
    have := (ih (forall_labels_append.mpr hg.right)).trans he
    rwa [add_zero, add_comm] at this
  case update as bs m f g n a b _ _ ih₁ ih₂ =>
    rw [forall_labels_mk_cons] at hg
    have h₁ : Edits c P (.mk b as :: f) (.mk b bs :: f) m := (ih₁ hg.right.left).children b
    have h₂ : Edits c P (.mk b bs :: f) (.mk b bs :: g) n := (ih₂ hg.right.right).siblings _
    rw [add_assoc]
    exact .step (.update a b hg.left) (h₁.trans h₂)

theorem Edit.forall_labels (he : Edit c P f g n) (hf : ∀ a ∈ labels f, P a) : ∀ b ∈ labels g, P b := by
  induction he
  case remove a =>
    rw [forall_labels_mk_cons] at hf
    exact forall_labels_append.mpr hf.right
  case insert b hb => exact forall_labels_mk_cons.mpr ⟨hb, forall_labels_append.mp hf⟩
  case update a b hb =>
    rw [forall_labels_mk_cons] at hf
    exact forall_labels_mk_cons.mpr ⟨hb, hf.right⟩
  case children a _ ih =>
    rw [forall_labels_mk_cons] at hf
    exact forall_labels_mk_cons.mpr ⟨hf.left, ih hf.right.left, hf.right.right⟩
  case siblings t _ ih =>
    cases t
    case mk a as =>
      rw [forall_labels_mk_cons] at hf
      exact forall_labels_mk_cons.mpr ⟨hf.left, hf.right.left, ih hf.right.right⟩

section

variable (hc : c.IsMetric P r) (hr : ∀ a, r a a)
include hc hr

theorem Edit.maps (he : Edit c P f g n) (hf : ∀ a ∈ labels f, P a) : Maps c f g n := by
  induction he
  case remove as f a =>
    rw [forall_labels_mk_cons] at hf
    have := (Maps.refl hc (forall_labels_append.mpr hf.right) hr).remove a
    rwa [add_zero] at this
  case insert bs g b hb =>
    have := (Maps.refl hc hf hr).insert b
    rwa [add_zero] at this
  case update as f a b hb =>
    rw [forall_labels_mk_cons] at hf
    have := (Maps.refl hc hf.right.left hr).update a b (.refl hc hf.right.right hr)
    rwa [add_zero, add_zero] at this
  case children as bs f n a _ ih =>
    rw [forall_labels_mk_cons] at hf
    have := (ih hf.right.left).update a a (.refl hc hf.right.right hr)
    rwa [(hc.update_eq_zero hf.left hf.left).mpr (hr a), zero_add, add_zero] at this
  case siblings f g n t _ ih =>
    cases t
    case mk a as =>
      rw [forall_labels_mk_cons] at hf
      have := (Maps.refl hc hf.right.left hr).update a a (ih hf.right.right)
      rwa [(hc.update_eq_zero hf.left hf.left).mpr (hr a), zero_add, zero_add] at this

theorem Edits.maps (he : Edits c P f g n) (hf : ∀ a ∈ labels f, P a) :
    (∀ b ∈ labels g, P b) ∧ ∃ k ≤ n, Maps c f g k := by
  induction he
  case refl => exact ⟨hf, 0, le_rfl, .refl hc hf hr⟩
  case step he _ ih =>
    have hg := he.forall_labels hf
    obtain ⟨hh, k, hk, hm⟩ := ih hg
    obtain ⟨l, hl, hm⟩ := Maps.trans hc le_rfl (he.maps hc hr hf) hm hf hg hh
    exact ⟨hh, l, by omega, hm⟩

end

section

variable {s t : Node α} (hc : c.IsMetric P r)
  (hs : ∀ a ∈ labels [s], P a) (ht : ∀ b ∈ labels [t], P b)
include hc hs ht

theorem dist_comm : dist c s t = dist c t s :=
  le_antisymm ((maps_dist t s).symm hc ht hs).dist_le ((maps_dist s t).symm hc hs ht).dist_le

theorem dist_eq_zero_iff : dist c s t = 0 ↔ Same r [s] [t] := by
  constructor
  case mp  => exact fun h => (maps_dist s t).same hc h.le hs ht
  case mpr =>
    intro h
    exact le_antisymm (Maps.of_same hc h hs ht).dist_le ((maps_dist s t).nonneg hc hs ht)

-- The recurrence gives the least cost of all ways to edit one tree until it is the other one.
theorem dist_isLeast (hr : ∀ a, r a a) : IsLeast {n | Edits c P [s] [t] n} (dist c s t) := by
  constructor
  case left => exact (maps_dist s t).edits ht
  case right =>
    intro n he
    obtain ⟨-, k, hk, hm⟩ := he.maps hc hr hs
    exact hm.dist_le.trans hk

end

-- The costs from the distance `d` of two labels, where the label `e` stands for the absent node.
def simpleCosts (d : β → β → Int) (e : β) (i : α → β) : Costs α where
  insert b   := d e (i b)
  remove a   := d (i a) e
  update a b := d (i a) (i b)

structure MetricOn (Q : β → Prop) (r : β → β → Prop) (d : β → β → Int) : Prop where
  eq_zero_iff : ∀ {x y}, Q x → Q y → (d x y = 0 ↔ r x y)
  comm        : ∀ {x y}, Q x → Q y → d x y = d y x
  triangle    : ∀ {x y z}, Q x → Q y → Q z → d x z ≤ d x y + d y z

section

variable {Q : β → Prop} {q : β → β → Prop} {d : β → β → Int} {e : β} {i : α → β}

theorem MetricOn.nonneg {x y : β} (hd : MetricOn Q q d) (hq : q x x) (hx : Q x) (hy : Q y) : 0 ≤ d x y := by
  have h₁ := hd.triangle hx hy hx
  have h₂ := hd.comm hx hy
  have h₃ := (hd.eq_zero_iff hx hx).mpr hq
  omega

theorem MetricOn.isMetric (hd : MetricOn Q q d) (hq : ∀ x, q x x) (he : Q e) (hi : ∀ a, ¬q e (i a)) :
    (simpleCosts d e i).IsMetric (fun a => Q (i a)) fun a b => q (i a) (i b) where
  insert_pos {a} ha :=
    lt_of_le_of_ne (hd.nonneg (hq e) he ha) fun h => hi a ((hd.eq_zero_iff he ha).mp h.symm)
  remove_eq ha           := hd.comm ha he
  insert_le ha hb        := hd.triangle he ha hb
  update_nonneg ha hb    := hd.nonneg (hq _) ha hb
  update_eq_zero ha hb   := hd.eq_zero_iff ha hb
  update_comm ha hb      := hd.comm ha hb
  update_triangle        := hd.triangle

end

end TreeEdit
