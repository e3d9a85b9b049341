import VldbArtifacts.Lib.Except
import VldbArtifacts.Hyrise.Partition
import VldbArtifacts.Hyrise.Theorems.Trace

namespace Hyrise

variable {t : ColumnTable} {p : Nat} {col : String}

theorem decText_inj {m n : Nat} (h : decText m = decText n) : m = n := by
  rw [← Nat.ofDigitChars_toDigits (b := 10) (n := m) (by decide) (by decide),
    ← Nat.ofDigitChars_toDigits (b := 10) (n := n) (by decide) (by decide)]
  exact congrArg (Nat.ofDigitChars 10 · 0) h

-- The script gets the name of the column back.
theorem originalColName_partitionName (col : String) (i : Nat) :
    originalColName (partitionName col i) = col := by
  have hdec : (decText i).splitOn '_' = [decText i] :=
    List.splitOn_eq_singleton (not_mem_decText (by decide) i)
  rw [originalColName, partitionName, String.toList_ofList, List.splitOn_append_cons_self, hdec,
    List.dropLast_concat, List.intercalate_splitOn, String.ofList_toList]

theorem partitionName_inj {c d : String} {i j : Nat} (h : partitionName c i = partitionName d j) :
    c = d ∧ i = j := by
  have hcd : c = d := by
    rw [← originalColName_partitionName c i, h, originalColName_partitionName]
  subst hcd
  have := String.ofList_injective h
  exact ⟨rfl, decText_inj (List.cons.inj (List.append_cancel_left this)).right⟩

section named

variable {β : Type} {value : String → Nat → β} {cols : List String}

-- The entries of the partitions of the columns.
def named (p : Nat) (value : String → Nat → β) (cols : List String) : List (String × β) :=
  cols.flatMap fun col => (List.range p).map fun i => (partitionName col i, value col i)

theorem keys_named (p : Nat) (value : String → Nat → β) (cols : List String) :
    (named p value cols).map Prod.fst = cols.flatMap fun col => (List.range p).map (partitionName col) := by
  rw [named, List.map_flatMap]
  simp only [List.map_map]
  rfl

theorem nodup_keys_named (h : cols.Nodup) : ((named p value cols).map Prod.fst).Nodup := by
  rw [keys_named, List.nodup_flatMap]
  constructor
  case left =>
    intro col _
    exact List.nodup_range.map fun i j hij => (partitionName_inj hij).right
  case right =>
    apply h.imp
    intro c d hne name hc hd
    obtain ⟨i, _, hi⟩ := List.mem_map.mp hc
    obtain ⟨j, _, hj⟩ := List.mem_map.mp hd
    exact hne (partitionName_inj (hi.trans hj.symm)).left

theorem get?_named (h : cols.Nodup) (hcol : col ∈ cols) {i : Nat} (hi : i < p) :
    Dict.get? (partitionName col i) (named p value cols) = some (value col i) := by
  rw [Dict.get?_eq_some_iff (nodup_keys_named h)]
  exact List.mem_flatMap.mpr ⟨col, hcol, List.mem_map.mpr ⟨i, List.mem_range.mpr hi, rfl⟩⟩

theorem addUpTo_named [AddMonoid β] {sum : β} (h : cols.Nodup) (hcol : col ∈ cols) :
    AddUpTo p col (named p value cols) sum ↔ ((List.range p).map (value col)).sum = sum := by
  have hget : (List.range p).map (fun i => Dict.get? (partitionName col i) (named p value cols)) =
      ((List.range p).map (value col)).map some := by
    rw [List.map_map]
    exact List.map_congr_left fun i hi => get?_named h hcol (List.mem_range.mp hi)
  constructor
  case mp =>
    rintro ⟨values, hsum, hvalues⟩
    rw [hget] at hvalues
    rw [List.map_injective_iff.mpr (Option.some_injective _) hvalues, hsum]
  case mpr => exact fun hsum => ⟨_, hsum, hget⟩

-- The loops over the columns and over the partitions of a column.
theorem foldl_set_named (h : cols.Nodup) :
    cols.foldl (fun d col => (List.range p).foldl
      (fun d i => Dict.set (partitionName col i) (value col i) d) d) [] = named p value cols := by
  have hpairs : (cols.flatMap fun col => (List.range p).map (col, ·)).map
      (fun c => (partitionName c.1 c.2, value c.1 c.2)) = named p value cols := by
    rw [named, List.map_flatMap]
    simp only [List.map_map]
    rfl
  have hfold := Dict.foldl_set (d := []) (fun c : String × Nat => partitionName c.1 c.2)
    (fun c => value c.1 c.2) (cols.flatMap fun col => (List.range p).map (col, ·)) ?_
  case refine_1 =>
    rw [List.map_nil, List.nil_append]
    have hnodup : ((named p value cols).map Prod.fst).Nodup := nodup_keys_named h
    rwa [← hpairs, List.map_map] at hnodup
  rw [hpairs, List.nil_append, List.foldl_flatMap] at hfold
  rw [← hfold]
  simp only [List.foldl_map]

end named

section counts

variable {counts : SegmentCounts} {n per : Nat}

def segmentCount (counts : SegmentCounts) (col : String) (k : Nat) : Int :=
  (Dict.get? (col, k) counts).getD 0

theorem partitionCount_eq (counts : SegmentCounts) (col : String) (per i : Nat) :
    partitionCount counts col per i = ((partitionRange per i).map (segmentCount counts col)).sum := by
  rw [List.sum_eq_foldl, List.foldl_map, partitionCount]
  congr 1
  funext sum k
  rw [segmentCount]
  cases Dict.get? (col, k) counts <;> simp

-- The ranges of the partitions follow each other.
theorem sum_partitionCount (counts : SegmentCounts) (col : String) (per p : Nat) :
    ((List.range p).map (partitionCount counts col per)).sum =
      ((List.range (p * per)).map (segmentCount counts col)).sum := by
  induction p
  case zero => simp
  case succ p ih =>
    have happend : List.range ((p + 1) * per) = List.range (p * per) ++ partitionRange per p := by
      rw [List.range_eq_range', List.range_eq_range', partitionRange, Nat.add_mul, Nat.one_mul]
      simpa using (List.range'_append_1 (s := 0) (m := p * per) (n := per)).symm
    rw [List.range_succ, List.map_append, List.sum_append, ih, happend, List.map_append, List.sum_append]
    simp [partitionCount_eq]

theorem segmentCount_cons (counts : SegmentCounts) (col c : String) (k : Nat) (v : Int) :
    segmentCount (((c, k), v) :: counts) col =
      fun j => if c = col ∧ k = j then v else segmentCount counts col j := by
  funext j
  simp only [segmentCount, Dict.get?, Prod.mk.injEq]
  split <;> rfl

theorem sum_segmentCount (hnodup : (counts.map Prod.fst).Nodup)
    (hlt : ∀ e ∈ counts, e.1.1 = col → e.1.2 < n) :
    ((List.range n).map (segmentCount counts col)).sum =
      ((counts.filter (·.1.1 = col)).map Prod.snd).sum := by
  induction counts
  case nil =>
    have : segmentCount [] col = fun _ => 0 := rfl
    simp [this]
  case cons e counts ih =>
    obtain ⟨⟨c, k⟩, v⟩ := e
    rw [List.map_cons, List.nodup_cons] at hnodup
    rw [List.forall_mem_cons] at hlt
    have ih := ih hnodup.right hlt.right
    rw [segmentCount_cons]
    by_cases hc : c = col
    case neg => simpa [hc] using ih
    case pos =>
      -- The segment is not among the other entries, so that its count is added to theirs.
      subst hc
      have hnone : segmentCount counts c k = 0 := by
        have : Dict.get? (c, k) counts = none := by
          rw [Option.eq_none_iff_forall_ne_some]
          exact fun v hv => hnodup.left (Dict.mem_keys_iff.mpr ⟨v, hv⟩)
        rw [segmentCount, this, Option.getD_none]
      have hadd : (fun j => if c = c ∧ k = j then v else segmentCount counts c j) =
          fun j => (if k = j then v else 0) + segmentCount counts c j := by
        funext j
        by_cases hj : k = j
        case pos => simp [← hj, hnone]
        case neg => simp [hj]
      have hsum : ((List.range n).map fun j => if k = j then v else 0).sum = v := by
        change ∑ j ∈ Finset.range n, (if k = j then v else 0) = v
        rw [Finset.sum_ite_eq, if_pos (Finset.mem_range.mpr (hlt.left rfl))]
      rw [hadd, List.sum_map_add, hsum, ih]
      simp

-- Each segment is in one range, if the ranges reach far enough.
theorem existsUnique_mem_partitionRange (hn : 1 ≤ n) :
    (∀ k < n, ∃! i, i < p ∧ k ∈ partitionRange per i) ↔ n ≤ p * per := by
  simp only [partitionRange, List.mem_range'_1]
  constructor
  case mp =>
    intro h
    obtain ⟨i, ⟨hi, _, hlt⟩, _⟩ := h (n - 1) (by omega)
    have : (i + 1) * per ≤ p * per := Nat.mul_le_mul_right per hi
    rw [Nat.add_mul] at this
    omega
  case mpr =>
    intro h k hk
    have hpos : 0 < per := Nat.pos_of_ne_zero fun h₀ => by simp [h₀] at h; omega
    refine ⟨k / per, ⟨(Nat.div_lt_iff_lt_mul hpos).mpr (by omega), ?_, ?_⟩, ?_⟩
    case refine_1 => exact Nat.div_mul_le_self k per
    case refine_2 =>
      have := Nat.lt_div_mul_add hpos (a := k)
      omega
    case refine_3 =>
      rintro i ⟨_, hle, hlt⟩
      symm
      rw [Nat.div_eq_iff hpos]
      omega

end counts

section quotients

variable {a b n : Nat} {q : ℚ}

-- The float of the quotient, if it is not too large.
def quotient (a b : Nat) : ℚ :=
  FloatFormat.double.round (a / b)

theorem trueDiv_eq_ok (hb : 0 < b) : trueDiv a b = .ok q ↔ quotient a b < 2 ^ 1024 ∧ quotient a b = q := by
  have heq : trueDiv a b =
      if 2 ^ 1024 ≤ quotient a b then .error .arithmeticError else .ok (quotient a b) := by
    rw [trueDiv, if_neg hb.ne']
    rfl
  rw [heq]
  by_cases h : 2 ^ 1024 ≤ quotient a b
  case pos => simp only [if_pos h, not_lt.mpr h, reduceCtorEq, false_and]
  case neg => simp only [if_neg h, not_le.mp h, Except.ok.injEq, true_and]

theorem ceilsRight_iff (hb : 0 < b) :
    CeilsRight a b ↔ quotient a b < 2 ^ 1024 ∧ a ≤ b * ⌈quotient a b⌉₊ := by
  simp only [CeilsRight, trueDiv_eq_ok hb, and_assoc, exists_and_left, exists_eq_left']

theorem floorsRight_iff (hb : 0 < b) :
    FloorsRight a b ↔ quotient a b < 2 ^ 1024 ∧ ⌊quotient a b⌋₊ = a / b := by
  simp only [FloorsRight, trueDiv_eq_ok hb, and_assoc, exists_and_left, exists_eq_left']

theorem quotient_nonneg (a b : Nat) : 0 ≤ quotient a b :=
  FloatFormat.round_nonneg (by positivity)

theorem ceil_quotient_le_one (hb : 0 < b) (h : a ≤ b) : ⌈quotient a b⌉₊ ≤ 1 := by
  rcases a.eq_zero_or_pos with rfl | ha
  case inl => simp [quotient, FloatFormat.round_zero]
  case inr =>
    have hb : (0 : ℚ) < b := by exact_mod_cast hb
    rw [Nat.ceil_le]
    apply FloatFormat.round_le (FloatFormat.represents_natCast (by decide) (by decide)) (by positivity)
    rw [div_le_iff₀ hb, Nat.cast_one, one_mul]
    exact_mod_cast h

-- A partition has more than one segment if there are more segments than partitions.
theorem one_lt_ceil_quotient (hb : 0 < b) (h : a ≤ b * ⌈quotient a b⌉₊) : 1 < ⌈quotient a b⌉₊ ↔ b < a := by
  constructor
  case mp =>
    intro hlt
    by_contra hle
    exact Nat.not_lt.mpr (ceil_quotient_le_one hb (Nat.not_lt.mp hle)) hlt
  case mpr =>
    intro hlt
    by_contra hle
    have := Nat.mul_le_mul_left b (Nat.not_lt.mp hle)
    omega

-- The whole size is more than one of several partitions may have.
theorem lt_mul_floor_quotient_one (ha : 0 < a) (hb : 1 < b) : a < b * ⌊quotient a 1⌋₊ := by
  have hle : 2 ^ Nat.log 2 a ≤ ⌊quotient a 1⌋₊ := by
    apply Nat.le_floor
    rw [quotient, Nat.cast_one, div_one]
    exact_mod_cast FloatFormat.two_pow_log_le_round ha.ne' (by decide)
  have hlt : a < 2 ^ Nat.log 2 a * 2 := by
    rw [← Nat.pow_succ]
    exact Nat.lt_pow_succ_log_self one_lt_two a
  calc a
    _ < 2 ^ Nat.log 2 a * 2 := hlt
    _ ≤ ⌊quotient a 1⌋₊ * b := Nat.mul_le_mul hle hb
    _ = b * ⌊quotient a 1⌋₊ := Nat.mul_comm ..

section small

variable (ha : a < 2 ^ 53) (hb : 0 < b) (hb' : b < 2 ^ 53)
include ha hb

theorem quotient_lt : quotient a b < 2 ^ 1024 := by
  rcases a.eq_zero_or_pos with rfl | hpos
  case inl => simp [quotient, FloatFormat.round_zero]
  case inr =>
    have hrep : FloatFormat.double.Represents (2 ^ 53 : ℕ) :=
      FloatFormat.represents_natCast (le_refl _) (by decide)
    have hle : quotient a b ≤ (2 ^ 53 : ℕ) := by
      apply FloatFormat.round_le hrep (by positivity)
      rw [div_le_iff₀ (by positivity)]
      exact_mod_cast ha.le.trans (Nat.le_mul_of_pos_right _ hb)
    apply hle.trans_lt
    rw [Nat.cast_pow, Nat.cast_ofNat]
    exact pow_lt_pow_right₀ one_lt_two (by decide)

include hb'

theorem ceilsRight_and_floorsRight_of_lt : CeilsRight a b ∧ FloorsRight a b := by
  have hmin : (2 : ℚ) ^ (FloatFormat.double.minExp + FloatFormat.double.precision) ≤ 1 / b := by
    have hb' : (b : ℚ) ≤ 2 ^ 53 := by exact_mod_cast hb'.le
    calc (2 : ℚ) ^ (FloatFormat.double.minExp + FloatFormat.double.precision)
      _ ≤ 2 ^ (-53 : ℤ) := zpow_le_zpow_right₀ one_le_two (by decide)
      _ = 1 / 2 ^ 53 := by norm_num
      _ ≤ 1 / b := by gcongr
  rw [ceilsRight_iff hb, floorsRight_iff hb]
  refine ⟨⟨quotient_lt ha hb, ?_⟩, quotient_lt ha hb, ?_⟩
  case refine_1 =>
    rw [quotient, FloatFormat.ceil_round_div hb ha (by decide) hmin]
    have := Nat.le_ceil (a / b : ℚ)
    rw [div_le_iff₀ (by positivity), mul_comm] at this
    exact_mod_cast this
  case refine_2 => exact FloatFormat.floor_round_div hb ha (by decide) hmin

end small

end quotients

section table

theorem get?_map {β : Type} {cols : List String} (value : String → β) (h : col ∈ cols) :
    Dict.get? col (cols.map fun c => (c, value c)) = some (value col) := by
  induction cols
  case nil => cases h
  case cons c cols ih =>
    rw [List.map_cons, Dict.get?]
    by_cases hc : c = col
    case pos => rw [if_pos hc, hc]
    case neg => rw [if_neg hc, ih (List.mem_of_ne_of_mem (Ne.symm hc) h)]

-- The number of partitions that the size is divided by.
def numActualPartitions (n p : Nat) : Nat :=
  if 1 < ⌈quotient n p⌉₊ then p else 1

section steps

variable (hp : 0 < p) (hcol : col ∈ t.cols)
include hp hcol

theorem numSegPerPartition_eq_ok {per : Nat} : numSegPerPartition t.colSegments p col = .ok per ↔
    quotient (t.numSegments col) p < 2 ^ 1024 ∧ ⌈quotient (t.numSegments col) p⌉₊ = per := by
  have hget : lookUp t.colSegments col = .ok (t.numSegments col) := by
    rw [lookUp, ColumnTable.colSegments, get?_map _ hcol]
    rfl
  rw [numSegPerPartition, hget, Except.ok_bind]
  simp only [Except.bind_eq_ok, trueDiv_eq_ok hp, Except.pure_def, Except.ok.injEq, and_assoc,
    exists_and_left, exists_eq_left']

theorem partitionSize_eq_ok (i : Nat) {size : Nat} :
    partitionSize t.colSegments t.colSizes p (partitionName col i) = .ok size ↔
      quotient (t.numSegments col) p < 2 ^ 1024 ∧
        quotient (t.size col) (numActualPartitions (t.numSegments col) p) < 2 ^ 1024 ∧
        ⌊quotient (t.size col) (numActualPartitions (t.numSegments col) p)⌋₊ = size := by
  have hget : lookUp t.colSizes col = .ok (t.size col) := by
    rw [lookUp, ColumnTable.colSizes, get?_map _ hcol]
    rfl
  have hpos : 0 < numActualPartitions (t.numSegments col) p := by
    rw [numActualPartitions]
    split <;> omega
  rw [partitionSize, originalColName_partitionName]
  simp only [Except.bind_eq_ok, numSegPerPartition_eq_ok hp hcol, hget, Except.ok_bind, Except.pure_def,
    Except.ok.injEq, and_assoc, exists_and_left, exists_eq_left']
  change (_ ∧ ∃ q, trueDiv _ (numActualPartitions (t.numSegments col) p) = .ok q ∧ ⌊q⌋₊ = size) ↔ _
  simp only [trueDiv_eq_ok hpos, and_assoc, exists_and_left, exists_eq_left']

end steps

theorem partitionCounts_eq_ok (hp : 0 < p) (counts : SegmentCounts) {cols : List String} (hnodup : cols.Nodup)
    (hsub : cols ⊆ t.cols) {d : List (String × Int)} :
    partitionCounts t.colSegments p counts cols = .ok d ↔
      (∀ col ∈ cols, quotient (t.numSegments col) p < 2 ^ 1024) ∧
        named p (fun col => partitionCount counts col ⌈quotient (t.numSegments col) p⌉₊) cols = d := by
  have hrun (hlt : ∀ col ∈ cols, quotient (t.numSegments col) p < 2 ^ 1024) :
      partitionCounts t.colSegments p counts cols =
        .ok (named p (fun col => partitionCount counts col ⌈quotient (t.numSegments col) p⌉₊) cols) := by
    rw [← foldl_set_named hnodup]
    apply Except.foldlM_ok
    intro col hcol
    exact (numSegPerPartition_eq_ok hp (hsub hcol)).mpr ⟨hlt col hcol, rfl⟩
  constructor
  case mp =>
    intro h
    have hlt (col) (hcol : col ∈ cols) : quotient (t.numSegments col) p < 2 ^ 1024 := by
      obtain ⟨per, hper⟩ := Except.exists_of_foldlM h col hcol
      exact ((numSegPerPartition_eq_ok hp (hsub hcol)).mp hper).left
    exact ⟨hlt, Except.ok.inj ((hrun hlt).symm.trans h)⟩
  case mpr =>
    rintro ⟨hlt, rfl⟩
    exact hrun hlt

-- The size of each partition of a column.
def sizeOfPartition (t : ColumnTable) (p : Nat) (col : String) : Nat :=
  ⌊quotient (t.size col) (numActualPartitions (t.numSegments col) p)⌋₊

theorem mapM_partitionSize_eq_ok (hp : 0 < p) {value : String → Nat → Int} {cols : List String}
    (hsub : cols ⊆ t.cols) (hlt : ∀ col ∈ cols, quotient (t.numSegments col) p < 2 ^ 1024)
    {sizes : List (String × Nat)} :
    ((named p value cols).mapM fun e => do
      return (e.1, ← partitionSize t.colSegments t.colSizes p e.1)) = .ok sizes ↔
      (∀ col ∈ cols, quotient (t.size col) (numActualPartitions (t.numSegments col) p) < 2 ^ 1024) ∧
        named p (fun col _ => sizeOfPartition t p col) cols = sizes := by
  have hmap : (named p value cols).map (fun e => (e.1, sizeOfPartition t p (originalColName e.1))) =
      named p (fun col _ => sizeOfPartition t p col) cols := by
    rw [named, named, List.map_flatMap]
    simp only [List.map_map, Function.comp_def, originalColName_partitionName]
  have hrun (h : ∀ col ∈ cols, quotient (t.size col) (numActualPartitions (t.numSegments col) p) < 2 ^ 1024) :
      ((named p value cols).mapM fun e => do
        return (e.1, ← partitionSize t.colSegments t.colSizes p e.1)) =
        .ok (named p (fun col _ => sizeOfPartition t p col) cols) := by
    rw [← hmap]
    apply Except.mapM_ok
    intro e he
    obtain ⟨col, hcol, he⟩ := List.mem_flatMap.mp he
    obtain ⟨i, _, rfl⟩ := List.mem_map.mp he
    rw [(partitionSize_eq_ok hp (hsub hcol) i).mpr ⟨hlt col hcol, h col hcol, rfl⟩,
      originalColName_partitionName]
    rfl
  constructor
  case mp =>
    intro h
    have hsize (col) (hcol : col ∈ cols) :
        quotient (t.size col) (numActualPartitions (t.numSegments col) p) < 2 ^ 1024 := by
      have hmem : (partitionName col 0, value col 0) ∈ named p value cols :=
        List.mem_flatMap.mpr ⟨col, hcol, List.mem_map.mpr ⟨0, List.mem_range.mpr hp, rfl⟩⟩
      obtain ⟨e, he⟩ := Except.exists_of_mapM h _ hmem
      obtain ⟨size, hsize, _⟩ := Except.bind_eq_ok.mp he
      exact ((partitionSize_eq_ok hp (hsub hcol) 0).mp hsize).right.left
    exact ⟨hsize, Except.ok.inj ((hrun hsize).symm.trans h)⟩
  case mpr =>
    rintro ⟨hsize, rfl⟩
    exact hrun hsize

-- What the script computes, if no quotient is too large.
def partitionsOf (t : ColumnTable) (p : Nat) : Partitions where
  newPartitionCounts := named p (fun col =>
    partitionCount t.delta.counts col ⌈quotient (t.numSegments col) p⌉₊) t.accessedCols
  sizes := named p (fun col _ => sizeOfPartition t p col) t.accessedCols
  partitionTraceCounts := named p (fun col =>
    partitionCount t.segmentTraceCounts.counts col ⌈quotient (t.numSegments col) p⌉₊) t.cols

theorem makePartitions_eq_ok (hp : 0 < p) {r : Partitions} : t.makePartitions p = .ok r ↔
    (∀ col ∈ t.cols, quotient (t.numSegments col) p < 2 ^ 1024) ∧
      (∀ col ∈ t.accessedCols,
        quotient (t.size col) (numActualPartitions (t.numSegments col) p) < 2 ^ 1024) ∧
      partitionsOf t p = r := by
  have hcols : t.colSizes.map Prod.fst = t.cols := by
    rw [ColumnTable.colSizes, List.map_map]
    exact List.map_id t.cols
  rw [ColumnTable.makePartitions, makePartitions, hcols]
  simp only [Except.bind_eq_ok, partitionCounts_eq_ok hp _ t.accessed_nodup t.accessed_subset,
    partitionCounts_eq_ok hp _ t.cols_nodup (List.Subset.refl _), Except.pure_def, Except.ok.injEq]
  constructor
  case mp =>
    rintro ⟨_, ⟨hacc, rfl⟩, sizes, hsizes, _, ⟨hlt, rfl⟩, rfl⟩
    obtain ⟨hsize, rfl⟩ := (mapM_partitionSize_eq_ok hp t.accessed_subset hacc).mp hsizes
    exact ⟨hlt, hsize, rfl⟩
  case mpr =>
    rintro ⟨hlt, hsize, rfl⟩
    have hacc (col) (hcol : col ∈ t.accessedCols) := hlt col (t.accessed_subset hcol)
    exact ⟨_, ⟨hacc, rfl⟩, _, (mapM_partitionSize_eq_ok hp t.accessed_subset hacc).mpr ⟨hsize, rfl⟩, _,
      ⟨hlt, rfl⟩, rfl⟩

theorem addUpTo_total {numSegments : String → Nat} (counts : CountsOf numSegments) {cols : List String}
    {per : String → Nat} (hnodup : cols.Nodup) (hcol : col ∈ cols) (hle : numSegments col ≤ p * per col) :
    AddUpTo p col (named p (fun col => partitionCount counts.counts col (per col)) cols)
      (counts.total col) := by
  rw [addUpTo_named hnodup hcol, sum_partitionCount, sum_segmentCount counts.nodup, CountsOf.total]
  rintro e he rfl
  exact (counts.lt e he).trans_le hle

theorem conservesCounts_iff (hp : 0 < p)
    (hlt : ∀ col ∈ t.cols, quotient (t.numSegments col) p < 2 ^ 1024) :
    (partitionsOf t p).ConservesCounts t p ↔
      ∀ col ∈ t.cols, t.numSegments col ≤ p * ⌈quotient (t.numSegments col) p⌉₊ := by
  constructor
  case mp =>
    intro h col hcol
    obtain ⟨per, hper, hone⟩ := (h.left col hcol).left
    obtain ⟨_, rfl⟩ := (numSegPerPartition_eq_ok hp hcol).mp hper
    exact (existsUnique_mem_partitionRange (t.segments_pos col hcol)).mp hone
  case mpr =>
    intro h
    constructor
    case left =>
      intro col hcol
      refine ⟨⟨_, (numSegPerPartition_eq_ok hp hcol).mpr ⟨hlt col hcol, rfl⟩, ?_⟩, ?_⟩
      case refine_1 => exact (existsUnique_mem_partitionRange (t.segments_pos col hcol)).mpr (h col hcol)
      case refine_2 => exact addUpTo_total t.segmentTraceCounts t.cols_nodup hcol (h col hcol)
    case right =>
      intro col hcol
      exact addUpTo_total t.delta t.accessed_nodup hcol (h col (t.accessed_subset hcol))

theorem conservesSizes_iff : (partitionsOf t p).ConservesSizes t p ↔ ∀ col ∈ t.accessedCols,
    p * sizeOfPartition t p col ≤ t.size col ∧ t.size col < p * sizeOfPartition t p col + p := by
  apply forall₂_congr
  intro col hcol
  simp only [partitionsOf, addUpTo_named t.accessed_nodup hcol, List.map_const', List.length_range,
    List.sum_replicate, smul_eq_mul, exists_eq_left']

-- If there are not more segments than partitions, each partition gets the whole size.
theorem numActualPartitions_eq {n : Nat} (hp : 0 < p) (hle : n ≤ p * ⌈quotient n p⌉₊) :
    numActualPartitions n p = if p < n then p else 1 := by
  rw [numActualPartitions]
  simp only [one_lt_ceil_quotient hp hle]

theorem size_right_iff {n size : Nat} (hp : 0 < p) (hle : n ≤ p * ⌈quotient n p⌉₊) :
    (quotient size (numActualPartitions n p) < 2 ^ 1024 ∧
      p * ⌊quotient size (numActualPartitions n p)⌋₊ ≤ size ∧
      size < p * ⌊quotient size (numActualPartitions n p)⌋₊ + p) ↔
    (p = 1 ∨ p < n ∨ size = 0) ∧ FloorsRight size p := by
  rw [floorsRight_iff hp]
  by_cases h : p = 1 ∨ p < n
  case pos =>
    have hactual : numActualPartitions n p = p := by
      rw [numActualPartitions_eq hp hle]
      split <;> omega
    have hright : p = 1 ∨ p < n ∨ size = 0 := h.imp_right .inl
    rw [hactual, and_iff_right hright, eq_comm (b := size / p), Nat.div_eq_iff hp, mul_comm p]
    apply and_congr_right'
    omega
  case neg =>
    rw [not_or] at h
    have hactual : numActualPartitions n p = 1 := by
      rw [numActualPartitions_eq hp hle, if_neg h.right]
    rcases size.eq_zero_or_pos with rfl | hsize
    case inl => simp [quotient, FloatFormat.round_zero, hp]
    case inr =>
      have hlt := lt_mul_floor_quotient_one hsize (by omega : 1 < p)
      rw [hactual]
      constructor
      case mp  => exact fun ⟨_, hle, _⟩ => absurd hle (Nat.not_le.mpr hlt)
      case mpr => exact fun ⟨hor, _⟩ => by omega

end table

-- The counts are kept. The sizes are kept if the column has more segments than there are partitions, and else only
-- if there is one partition or nothing to divide: the script then divides by one, not by the number of partitions.
-- The quotients are floats, which does not matter for numbers below `2 ^ 53`.
theorem makePartitions_conserves_iff (t : ColumnTable) {p : Nat} (hp : 1 ≤ p) :
    ((∃ r, t.makePartitions p = .ok r ∧ r.ConservesCounts t p ∧ r.ConservesSizes t p) ↔
      (∀ col ∈ t.cols, CeilsRight (t.numSegments col) p) ∧
      ∀ col ∈ t.accessedCols,
        (p = 1 ∨ p < t.numSegments col ∨ t.size col = 0) ∧ FloorsRight (t.size col) p) ∧
    (p < 2 ^ 53 → (∀ col ∈ t.cols, t.numSegments col < 2 ^ 53 ∧ t.size col < 2 ^ 53) →
      (∀ col ∈ t.cols, CeilsRight (t.numSegments col) p) ∧
      ∀ col ∈ t.accessedCols, FloorsRight (t.size col) p) := by
  constructor
  case left =>
    constructor
    case mp =>
      rintro ⟨r, hr, hcounts, hsizes⟩
      obtain ⟨hlt, hltSize, rfl⟩ := (makePartitions_eq_ok hp).mp hr
      have hle := (conservesCounts_iff hp hlt).mp hcounts
      have hsize := conservesSizes_iff.mp hsizes
      constructor
      case left  => exact fun col hcol => (ceilsRight_iff hp).mpr ⟨hlt col hcol, hle col hcol⟩
      case right =>
        intro col hcol
        exact (size_right_iff hp (hle col (t.accessed_subset hcol))).mp ⟨hltSize col hcol, hsize col hcol⟩
    case mpr =>
      rintro ⟨hceil, hfloor⟩
      have hlt (col) (hcol : col ∈ t.cols) := ((ceilsRight_iff hp).mp (hceil col hcol)).left
      have hle (col) (hcol : col ∈ t.cols) := ((ceilsRight_iff hp).mp (hceil col hcol)).right
      have hsize (col) (hcol : col ∈ t.accessedCols) :=
        (size_right_iff hp (hle col (t.accessed_subset hcol))).mpr (hfloor col hcol)
      refine ⟨_, (makePartitions_eq_ok hp).mpr ⟨hlt, fun col hcol => (hsize col hcol).left, rfl⟩, ?_, ?_⟩
      case refine_1 => exact (conservesCounts_iff hp hlt).mpr hle
      case refine_2 => exact conservesSizes_iff.mpr fun col hcol => (hsize col hcol).right
  case right =>
    intro hp' hlt
    constructor
    case left =>
      intro col hcol
      exact (ceilsRight_and_floorsRight_of_lt (hlt col hcol).left hp hp').left
    case right =>
      intro col hcol
      exact (ceilsRight_and_floorsRight_of_lt (hlt col (t.accessed_subset hcol)).right hp hp').right

-- A table with one column.
def ColumnTable.ofColumn (col : String) (numSegments size : Nat) (pos : 1 ≤ numSegments)
    (delta segmentTraceCounts : CountsOf fun _ => numSegments) : ColumnTable where
  cols               := [col]
  accessedCols       := [col]
  numSegments        := fun _ => numSegments
  size               := fun _ => size
  delta              := delta
  segmentTraceCounts := segmentTraceCounts
  cols_nodup         := List.nodup_singleton col
  accessed_nodup     := List.nodup_singleton col
  accessed_subset    := List.Subset.refl _
  segments_pos       := fun _ _ => pos

-- The table `region` has five rows, so that its columns have one segment.
def ColumnTable.region : ColumnTable :=
  ofColumn "r_name" 1 39 (le_refl 1)
    ⟨[(("r_name", 0), 5)], List.nodup_singleton _, by simp⟩
    ⟨[(("r_name", 0), 3)], List.nodup_singleton _, by simp⟩

-- Each of the four partitions has the size of the column.
theorem makePartitions_region :
    (∃ r, ColumnTable.region.makePartitions 4 = .ok r ∧ AddUpTo 4 "r_name" r.newPartitionCounts 5 ∧
      AddUpTo 4 "r_name" r.sizes (4 * 39)) ∧
    ¬∃ r, ColumnTable.region.makePartitions 4 = .ok r ∧ r.ConservesCounts ColumnTable.region 4 ∧
      r.ConservesSizes ColumnTable.region 4 := by
  constructor
  case left =>
    refine ⟨⟨[("r_name_0", 5), ("r_name_1", 0), ("r_name_2", 0), ("r_name_3", 0)],
      [("r_name_0", 39), ("r_name_1", 39), ("r_name_2", 39), ("r_name_3", 39)],
      [("r_name_0", 3), ("r_name_1", 0), ("r_name_2", 0), ("r_name_3", 0)]⟩, by decide +kernel, ?_, ?_⟩
    case refine_1 => exact ⟨[5, 0, 0, 0], by decide +kernel, by decide +kernel⟩
    case refine_2 => exact ⟨[39, 39, 39, 39], by decide +kernel, by decide +kernel⟩
  case right =>
    rintro ⟨r, hr, _, hsizes⟩
    obtain ⟨_, _, rfl⟩ := (makePartitions_eq_ok (by decide)).mp hr
    have hle := (conservesSizes_iff.mp hsizes "r_name" (List.mem_singleton_self _)).left
    revert hle
    decide +kernel

def ColumnTable.nation : ColumnTable :=
  ofColumn "n_name" 5 202 (by decide)
    ⟨[(("n_name", 0), 5), (("n_name", 4), 2)], by decide, by simp⟩
    ⟨[(("n_name", 1), 3)], List.nodup_singleton _, by simp⟩

-- The first partition has three segments and the second one has two.
theorem makePartitions_nation :
    ∃ r, ColumnTable.nation.makePartitions 2 = .ok r ∧ r.ConservesCounts ColumnTable.nation 2 ∧
      r.ConservesSizes ColumnTable.nation 2 := by
  have hn (col) : ColumnTable.nation.numSegments col = 5 := rfl
  have hsize (col) : ColumnTable.nation.size col = 202 := rfl
  have h := makePartitions_conserves_iff ColumnTable.nation (p := 2) (by decide)
  obtain ⟨hceil, hfloor⟩ := h.right (by decide) fun col _ => by rw [hn, hsize]; decide
  exact h.left.mpr ⟨hceil, fun col hcol => ⟨.inr (.inl (by rw [hn]; decide)), hfloor col hcol⟩⟩

end Hyrise
