import VldbArtifacts.Hyrise.TreeEditDistance

open TreeEdit (MetricOn)

namespace Hyrise

variable {V : Type}

namespace AccessCounts

variable {x y : AccessCounts V} {col : String} {v : V}

theorem get?_eq_some : x.get? col = some v ↔ (col, v) ∈ x.items :=
  Dict.get?_eq_some_iff x.nodup

theorem get?_eq_none (h : col ∉ x.keys) : x.get? col = none := by
  cases hv : x.get? col
  case none   => rfl
  case some v => exact absurd (List.mem_map_of_mem (get?_eq_some.mp hv)) h

theorem eq_iff [DecidableEq V] : x.eq y ↔ x.get? = y.get? := by
  rw [eq, Bool.and_eq_true, decide_eq_true_iff, List.all_eq_true]
  constructor
  case mp =>
    rintro ⟨hlen, hall⟩
    have hsub : x.items ⊆ y.items := fun p hp => get?_eq_some.mp (by simpa using hall p hp)
    have hperm : x.items.Perm y.items :=
      (List.subperm_of_subset x.nodup.of_map hsub).perm_of_length_le hlen.ge
    exact funext fun col => Dict.get?_perm hperm x.nodup col
  case mpr =>
    intro h
    refine ⟨(Dict.perm_of_get? x.nodup y.nodup (congrFun h)).length_eq, fun p hp => ?_⟩
    rw [← h, decide_eq_true_iff]
    exact get?_eq_some.mpr hp

-- The weight of a column, which is zero if it is not a key.
def weight (w : V → Int) (x : AccessCounts V) (col : String) : Int :=
  ((x.get? col).map w).getD 0

theorem weight_of_not_mem {w : V → Int} (h : col ∉ x.keys) : x.weight w col = 0 := by
  rw [weight, get?_eq_none h, Option.map_none, Option.getD_none]

theorem sum_weight (w : V → Int) {S : Finset String} (hS : ∀ col ∈ x.keys, col ∈ S) :
    (x.items.map fun p => w p.2).sum = ∑ col ∈ S, x.weight w col := by
  have hitems : (x.items.map fun p => w p.2) = x.keys.map (x.weight w) := by
    rw [keys, List.map_map]
    apply List.map_congr_left
    intro p hp
    rw [Function.comp_apply, weight, get?_eq_some.mpr hp, Option.map_some, Option.getD_some]
  rw [hitems, ← List.sum_toFinset (x.weight w) (l := x.keys) x.nodup]
  apply Finset.sum_subset
  case h  => exact fun col hcol => hS col (List.mem_toFinset.mp hcol)
  case hf => exact fun col _ hcol => weight_of_not_mem (mt List.mem_toFinset.mpr hcol)

end AccessCounts

namespace Label

-- What `==` looks at.
def view : Label V → Option (OpType × (String → Option V))
  | empty  => none
  | list l => some (l.optype, l.accessCounts.get?)

section

variable [DecidableEq V] {x y z : Label V}

theorem eq_iff : x.eq y ↔ x.view = y.view := by
  cases x <;> cases y <;> simp [eq, view, AccessCounts.eq_iff]

theorem eq_refl (x : Label V) : x.eq x :=
  eq_iff.mpr rfl

theorem eq_symm : x.eq y = y.eq x := by
  rw [Bool.eq_iff_iff, eq_iff, eq_iff, eq_comm]

theorem eq_left (h : x.eq y) : x.eq z = y.eq z := by
  rw [Bool.eq_iff_iff, eq_iff, eq_iff, eq_iff.mp h]

end

def keys : Label V → List String
  | empty  => []
  | list l => l.accessCounts.keys

def weight (w : V → Int) : Label V → String → Int
  | empty  => 0
  | list l => l.accessCounts.weight w

theorem weight_congr {w : V → Int} {x y : Label V} (h : x.view = y.view) : x.weight w = y.weight w := by
  cases x <;> cases y <;> simp [view] at h
  case empty.empty     => rfl
  case list.list l₁ l₂ => exact funext fun col => by simp only [weight, AccessCounts.weight, h]

-- No count of the label has a negative weight.
def NonNeg (w : V → Int) : Label V → Prop
  | empty  => True
  | list l => ∀ p ∈ l.accessCounts.items, 0 ≤ w p.2

end Label

-- The distance of two columns is that of their weights.
structure Weighs (w : V → Int) (total : AccessCounts V → Int) (both : V → V → Int) (one : V → Int) :
    Prop where
  total_eq : ∀ x, total x = (x.items.map fun p => w p.2).sum
  both_eq  : ∀ v v', both v v' = |w v - w v'|
  one_eq   : ∀ v, one v = w v

namespace Weighs

variable {w : V → Int} {total : AccessCounts V → Int} {both : V → V → Int} {one : V → Int}
variable (hw : Weighs w total both one) {x y z : Label V} {S : Finset String}
include hw

theorem columnDist_eq {x y : AccessCounts V} (hx : ∀ p ∈ x.items, 0 ≤ w p.2)
    (hy : ∀ p ∈ y.items, 0 ≤ w p.2) (col : String) :
    columnDist both one (x.get? col) (y.get? col) = |x.weight w col - y.weight w col| := by
  rw [AccessCounts.weight, AccessCounts.weight]
  cases hv : x.get? col <;> cases hv' : y.get? col
  case none.none    => rfl
  case none.some v' =>
    have := hy _ (AccessCounts.get?_eq_some.mp hv')
    simp [columnDist, hw.one_eq, abs_of_nonneg this]
  case some.none v  =>
    have := hx _ (AccessCounts.get?_eq_some.mp hv)
    simp [columnDist, hw.one_eq, abs_of_nonneg this]
  case some.some v v' => exact hw.both_eq v v'

theorem total_eq_sum {x : AccessCounts V} (hx : ∀ p ∈ x.items, 0 ≤ w p.2)
    (hS : ∀ col ∈ x.keys, col ∈ S) : total x = ∑ col ∈ S, |x.weight w col| := by
  rw [hw.total_eq, AccessCounts.sum_weight w hS]
  apply Finset.sum_congr rfl
  intro col _
  rw [AccessCounts.weight]
  cases hv : x.get? col
  case none   => rfl
  case some v => exact (abs_of_nonneg (hx _ (AccessCounts.get?_eq_some.mp hv))).symm

-- The sum may be taken over any set that has the columns of both labels.
theorem columnHammingDistBy_eq (hx : x.NonNeg w) (hy : y.NonNeg w) (hSx : ∀ col ∈ x.keys, col ∈ S)
    (hSy : ∀ col ∈ y.keys, col ∈ S) :
    columnHammingDistBy total both one x y = ∑ col ∈ S, |x.weight w col - y.weight w col| := by
  cases x <;> cases y
  case empty.empty  => simp [columnHammingDistBy, Label.weight]
  case empty.list y => simpa [columnHammingDistBy, Label.weight] using hw.total_eq_sum hy hSy
  case list.empty x => simpa [columnHammingDistBy, Label.weight] using hw.total_eq_sum hx hSx
  case list.list x y =>
    have hnodup : (x.accessCounts.keys ∪ y.accessCounts.keys).Nodup := .union _ y.accessCounts.nodup
    rw [columnHammingDistBy, List.map_congr_left fun col _ => hw.columnDist_eq hx hy col,
      ← List.sum_toFinset _ hnodup]
    apply Finset.sum_subset
    case h =>
      intro col hcol
      rw [List.mem_toFinset, List.mem_union_iff] at hcol
      exact hcol.elim (hSx col) (hSy col)
    case hf =>
      intro col _ hcol
      rw [List.mem_toFinset, List.mem_union_iff, not_or] at hcol
      rw [AccessCounts.weight_of_not_mem hcol.left, AccessCounts.weight_of_not_mem hcol.right]
      rfl

theorem columnHammingDistBy_triangle (hx : x.NonNeg w) (hy : y.NonNeg w) (hz : z.NonNeg w) :
    columnHammingDistBy total both one x z ≤
      columnHammingDistBy total both one x y + columnHammingDistBy total both one y z := by
  -- The three sums are taken over the columns of all three labels.
  have hSx (col) (h : col ∈ x.keys) : col ∈ (x.keys ++ (y.keys ++ z.keys)).toFinset := by simp [h]
  have hSy (col) (h : col ∈ y.keys) : col ∈ (x.keys ++ (y.keys ++ z.keys)).toFinset := by simp [h]
  have hSz (col) (h : col ∈ z.keys) : col ∈ (x.keys ++ (y.keys ++ z.keys)).toFinset := by simp [h]
  rw [hw.columnHammingDistBy_eq hx hz hSx hSz, hw.columnHammingDistBy_eq hx hy hSx hSy,
    hw.columnHammingDistBy_eq hy hz hSy hSz, ← Finset.sum_add_distrib]
  exact Finset.sum_le_sum fun col _ => abs_sub_le ..

theorem columnHammingDistBy_comm (hx : x.NonNeg w) (hy : y.NonNeg w) :
    columnHammingDistBy total both one x y = columnHammingDistBy total both one y x := by
  have hSx (col) (h : col ∈ x.keys) : col ∈ (x.keys ++ y.keys).toFinset := by simp [h]
  have hSy (col) (h : col ∈ y.keys) : col ∈ (x.keys ++ y.keys).toFinset := by simp [h]
  rw [hw.columnHammingDistBy_eq hx hy hSx hSy, hw.columnHammingDistBy_eq hy hx hSy hSx]
  exact Finset.sum_congr rfl fun col _ => abs_sub_comm ..

-- Equal labels have the same weights.
theorem columnHammingDistBy_eq_zero (hx : x.NonNeg w) (hy : y.NonNeg w) (h : x.view = y.view) :
    columnHammingDistBy total both one x y = 0 := by
  have hSx (col) (h : col ∈ x.keys) : col ∈ (x.keys ++ y.keys).toFinset := by simp [h]
  have hSy (col) (h : col ∈ y.keys) : col ∈ (x.keys ++ y.keys).toFinset := by simp [h]
  rw [hw.columnHammingDistBy_eq hx hy hSx hSy, Label.weight_congr h]
  exact Finset.sum_eq_zero fun col _ => by rw [sub_self, abs_zero]

theorem columnHammingDistBy_nonneg (hx : x.NonNeg w) (hy : y.NonNeg w) :
    0 ≤ columnHammingDistBy total both one x y := by
  have h₁ := hw.columnHammingDistBy_triangle hx hy hx
  have h₂ := hw.columnHammingDistBy_comm hx hy
  have h₃ := hw.columnHammingDistBy_eq_zero hx hx rfl
  omega

theorem nodeDistBy_metricOn [DecidableEq V] :
    MetricOn (Label.NonNeg w) (fun x y => x.eq y)
      fun x y => nodeDistBy (columnHammingDistBy total both one) (some x) (some y) where
  eq_zero_iff {x y} hx hy := by
    have := hw.columnHammingDistBy_nonneg hx hy
    rw [nodeDistBy, nodeTypeCost]
    split
    case isTrue h  => exact iff_of_true rfl h
    case isFalse h => exact iff_of_false (by omega) h
  comm {x y} hx hy := by
    rw [nodeDistBy, nodeDistBy, Label.eq_symm, hw.columnHammingDistBy_comm hx hy]
  triangle {x y z} hx hy hz := by
    have hxyz := hw.columnHammingDistBy_triangle hx hy hz
    have hxy := hw.columnHammingDistBy_nonneg hx hy
    have hyz := hw.columnHammingDistBy_nonneg hy hz
    rw [nodeDistBy, nodeDistBy, nodeDistBy, nodeTypeCost]
    by_cases h : x.eq y
    case pos =>
      have := hw.columnHammingDistBy_eq_zero hx hy (Label.eq_iff.mp h)
      rw [if_pos h, Label.eq_left h]
      split <;> omega
    case neg =>
      by_cases h' : y.eq z
      case pos =>
        have := hw.columnHammingDistBy_eq_zero hy hz (Label.eq_iff.mp h')
        rw [if_neg h, if_pos h']
        split <;> omega
      case neg =>
        rw [if_neg h, if_neg h']
        split <;> omega

end Weighs

-- The trees have the same shape and equal labels.
def TreeNode.Same [DecidableEq V] (t u : TreeNode V) : Prop :=
  TreeEdit.Same (fun l m => (Label.list l).eq (.list m)) [t] [u]

section

variable [DecidableEq V] {Q : Label V → Prop} {labelDist : Label V → Label V → Int} {t u : TreeNode V}
  (hd : MetricOn Q (fun x y => x.eq y) labelDist) (he : Q .empty)
include hd he

theorem simpleCosts_isMetric :
    (TreeEdit.simpleCosts labelDist .empty .list).IsMetric (fun l => Q (.list l))
      fun l m => (Label.list l).eq (.list m) :=
  hd.isMetric Label.eq_refl he fun _ => Bool.false_ne_true

variable (ht : ∀ l ∈ t.labels, Q (.list l)) (hu : ∀ l ∈ u.labels, Q (.list l))
include ht hu

theorem simpleDistance_comm : simpleDistance labelDist t u = simpleDistance labelDist u t := by
  apply TreeEdit.dist_comm (simpleCosts_isMetric hd he)
  case hs => simpa [TreeEdit.labels] using ht
  case ht => simpa [TreeEdit.labels] using hu

theorem simpleDistance_eq_zero_iff : simpleDistance labelDist t u = 0 ↔ t.Same u := by
  apply TreeEdit.dist_eq_zero_iff (simpleCosts_isMetric hd he)
  case hs => simpa [TreeEdit.labels] using ht
  case ht => simpa [TreeEdit.labels] using hu

-- What zss computes is the least cost of editing one tree until it is the other one.
theorem simpleDistance_isLeast :
    IsLeast {n | TreeEdit.Edits (TreeEdit.simpleCosts labelDist .empty .list)
      (fun l => Q (.list l)) [t] [u] n} (simpleDistance labelDist t u) := by
  apply TreeEdit.dist_isLeast (simpleCosts_isMetric hd he)
  case hs => simpa [TreeEdit.labels] using ht
  case ht => simpa [TreeEdit.labels] using hu
  case hr => exact fun _ => Label.eq_refl _

end

-- The edit distance of the trees `t` and `u`, from the costs of `nodeDist` and with new labels in `Q`.
def IsEditDistance (Q : Label V → Prop) (nodeDist : Option (Label V) → Option (Label V) → Int)
    (t u : TreeNode V) (d : Int) : Prop :=
  IsLeast {n | TreeEdit.Edits (TreeEdit.simpleCosts (fun x y => nodeDist (some x) (some y)) .empty .list)
    (fun l => Q (.list l)) [t] [u] n} d

theorem compareJsonTreesBy_meets [DecidableEq V] {Q : Label V → Prop}
    {dictToTree : PlanDict → Script (TreeNode V)} {nodeDist : Option (Label V) → Option (Label V) → Int}
    {p q : PlanDict} {t u : TreeNode V}
    (hd : MetricOn Q (fun x y => x.eq y) fun x y => nodeDist (some x) (some y)) (he : Q .empty)
    (hp : dictToTree p = .ok t) (hq : dictToTree q = .ok u)
    (ht : ∀ l ∈ t.labels, Q (.list l)) (hu : ∀ l ∈ u.labels, Q (.list l)) :
    ∃ d, compareJsonTreesBy dictToTree nodeDist p q = .ok d ∧
      compareJsonTreesBy dictToTree nodeDist q p = .ok d ∧
      IsEditDistance Q nodeDist t u d ∧ (d = 0 ↔ t.Same u) := by
  refine ⟨simpleDistance (fun x y => nodeDist (some x) (some y)) t u, ?_, ?_, ?_, ?_⟩
  · rw [compareJsonTreesBy, hp, hq]
    rfl
  · rw [compareJsonTreesBy, hp, hq, simpleDistance_comm hd he ht hu]
    rfl
  · exact simpleDistance_isLeast hd he ht hu
  · exact simpleDistance_eq_zero_iff hd he ht hu

theorem TreeEditDistance.weighs :
    Weighs (fun n => n) sumUpDcitAccesses (fun v w => |v - w|) fun v => v where
  total_eq _  := rfl
  both_eq _ _ := rfl
  one_eq _    := rfl

-- The second script gives every column the weight one.
theorem TreeEditDistance2.weighs : Weighs (fun _ => 1) numAccessedColumns (fun _ _ => 0) fun _ => 1 where
  total_eq x  := by simp [numAccessedColumns]
  both_eq _ _ := rfl
  one_eq _    := rfl

theorem TreeEditDistance.nodeDist_metricOn :
    MetricOn (Label.NonNeg fun n => n) (fun x y => x.eq y) fun x y => nodeDist (some x) (some y) :=
  weighs.nodeDistBy_metricOn

theorem TreeEditDistance2.nodeDist_metricOn :
    MetricOn (fun _ => True) (fun x y => x.eq y) fun x y => nodeDist (some x) (some y) := by
  have hx (x : Label Bool) : x.NonNeg fun _ => 1 := by
    cases x
    case empty  => exact trivial
    case list l => exact fun _ _ => Int.one_nonneg
  have hd := weighs.nodeDistBy_metricOn
  exact ⟨fun _ _ => hd.eq_zero_iff (hx _) (hx _), fun _ _ => hd.comm (hx _) (hx _),
    fun _ _ _ => hd.triangle (hx _) (hx _) (hx _)⟩

def leafPlan (name : String) (lcard : Option Int) (lists : List (String × List String)) : DictNode :=
  { nodeid := 0, name := some name, ignore := some false, lcard, rcard := none, lists }

-- A table and a scan of one column of it.
def tablePlan : PlanDict :=
  .mk (leafPlan "GetTable" none []) .null .null

def scanPlan : PlanDict :=
  .mk (leafPlan "TableScan" (some 5) [("columns", ["o_orderkey"])]) (.dict tablePlan) .null

def tableTree : TreeNode Int :=
  .mk ⟨.storedTable, .empty⟩ []

def scanTree : TreeNode Int :=
  .mk ⟨.predicate, AccessCounts.empty.set "o_orderkey" 5⟩ [tableTree]

end Hyrise
