import VldbArtifacts.Hyrise.Theorems.LogicalPlan
import VldbArtifacts.Hyrise.Theorems.Segments

namespace Hyrise

variable {col : String} {exprs : List Expression}

-- The first column of details.dat, which has the same names as all_tpch_columns.dat.
def allTpchCols : List String :=
  Catalog.tpch.columns.map Column.name

theorem allTpchCols_lower :
    (allTpchCols.all fun col => col.toList.contains '_' &&
      col.toList.all fun c => isWordChar c && c.toLower == c) = true := by
  decide +kernel

theorem isVocabulary_allTpchCols : IsVocabulary allTpchCols := by
  have h := allTpchCols_lower
  simp only [List.all_eq_true, Bool.and_eq_true, List.contains_iff_mem, beq_iff_eq] at h
  exact ⟨fun col hcol => (h col hcol).left, fun col hcol c hc => ((h col hcol).right c hc).left,
    fun col hcol c hc => ((h col hcol).right c hc).right⟩

section parts

-- The name of a column is a letter or two for the table, an underscore, and the rest.
def nameParts (col : String) : List Char × List Char :=
  (col.toList.takeWhile (· ≠ '_'), (col.toList.dropWhile (· ≠ '_')).tail)

theorem nameParts_spec : ∀ col ∈ allTpchCols,
    col.toList = (nameParts col).1 ++ '_' :: (nameParts col).2 ∧ '_' ∉ (nameParts col).1 ∧
      '_' ∉ (nameParts col).2 := by
  decide +kernel

theorem nameParts_cases : ∀ col ∈ allTpchCols, ∀ col' ∈ allTpchCols,
    (nameParts col).1 <:+ (nameParts col').1 → (nameParts col).2 <+: (nameParts col').2 →
      col = col' ∨ col = "s_suppkey" ∧ col' = "ps_suppkey" ∨ col = "s_comment" ∧ col' = "ps_comment" := by
  decide +kernel

-- Only two names are parts of other ones.
theorem infix_cases {col' : String} (hcol : col ∈ allTpchCols) (hcol' : col' ∈ allTpchCols)
    (h : col.toList <:+: col'.toList) :
    col = col' ∨ col = "s_suppkey" ∧ col' = "ps_suppkey" ∨ col = "s_comment" ∧ col' = "ps_comment" := by
  obtain ⟨hname, _, _⟩ := nameParts_spec col hcol
  obtain ⟨hname', hpre, hpost⟩ := nameParts_spec col' hcol'
  obtain ⟨x, y, h⟩ := h
  rw [hname, hname'] at h
  simp only [List.append_assoc, List.cons_append] at h
  rw [← List.append_assoc] at h
  obtain ⟨hx, _, hy⟩ := (List.append_cons_inj_of_notMem hpre hpost).mp h.symm
  exact nameParts_cases col hcol col' hcol' ⟨x, hx.symm⟩ ⟨y, hy.symm⟩

end parts

theorem unshadowed_allTpchCols
    (hknown : ∀ e ∈ exprs, ∀ w ∈ words e.text, '_' ∈ w → ∃ col ∈ allTpchCols, col.toList = w) :
    Unshadowed allTpchCols exprs ↔
      (Mentions exprs "ps_suppkey" → Mentions exprs "s_suppkey") ∧
      (Mentions exprs "ps_comment" → Mentions exprs "s_comment") := by
  constructor
  case mp =>
    intro h
    have hpart (c c' : String) (hc : c ∈ allTpchCols) (hi : c.toList <:+: c'.toList) :
        Mentions exprs c' → Mentions exprs c := by
      rintro ⟨e, he, hw⟩
      exact h c hc ⟨e, he, _, hw, hi⟩
    exact ⟨hpart "s_suppkey" "ps_suppkey" (by decide +kernel) (by decide +kernel),
      hpart "s_comment" "ps_comment" (by decide +kernel) (by decide +kernel)⟩
  case mpr =>
    rintro ⟨hsuppkey, hcomment⟩ col hcol ⟨e, he, w, hw, hi⟩
    have hmem : '_' ∈ w := hi.subset (isVocabulary_allTpchCols.underscore col hcol)
    obtain ⟨col', hcol', rfl⟩ := hknown e he w hw hmem
    rcases infix_cases hcol hcol' hi with rfl | ⟨rfl, rfl⟩ | ⟨rfl, rfl⟩
    case inl     => exact ⟨e, he, hw⟩
    case inr.inl => exact hsuppkey ⟨e, he, hw⟩
    case inr.inr => exact hcomment ⟨e, he, hw⟩

-- The plain search of `preprocess_lqp_node` also finds a column inside a longer name, so that both scripts find
-- the same columns only if such a column is in the expressions anyway.
theorem planReaders_agree_iff (plan : LogicalPlan) :
    ((∃ out res, preprocessLqpNode allTpchCols plan.exported = .ok out ∧
        traverseLqpHelper allTpchCols plan.exported = .ok res ∧ plan.Agrees allTpchCols out res) ↔
      plan.Known ∧ ∀ op ∈ plan.unaryOps, op.IsRead → Unshadowed allTpchCols op.readExprs) ∧
    ∀ exprs : List Expression,
      (∀ e ∈ exprs, ∀ w ∈ words e.text, '_' ∈ w → ∃ col ∈ allTpchCols, col.toList = w) →
      (Unshadowed allTpchCols exprs ↔
        (Mentions exprs "ps_suppkey" → Mentions exprs "s_suppkey") ∧
        (Mentions exprs "ps_comment" → Mentions exprs "s_comment")) := by
  obtain ⟨res, hres, hiff⟩ := plan.traverse_exported isVocabulary_allTpchCols
  constructor
  case left =>
    rw [← hiff]
    constructor
    case mp =>
      rintro ⟨out, res', hout, hres', h⟩
      obtain ⟨hknown, rfl⟩ := LogicalPlan.preprocess_exported.mp hout
      obtain rfl := Except.ok.inj (hres.symm.trans hres')
      exact ⟨hknown, h⟩
    case mpr =>
      rintro ⟨hknown, h⟩
      exact ⟨_, res, LogicalPlan.preprocess_exported.mpr ⟨hknown, rfl⟩, hres, h⟩
  case right => exact fun exprs h => unshadowed_allTpchCols h

section aggregate

def isExpression (text : List Char) : Bool :=
  text.all (fun c => c != '[' && c != ']') &&
    (words text).all fun w => !w.contains '_' || w.all fun c => c.toLower == c

def Expression.ofText (text : List Char) (h : isExpression text = true) : Expression where
  text  := text
  plain := by
    rw [isExpression, Bool.and_eq_true] at h
    simpa using h.left
  lower := by
    rw [isExpression, Bool.and_eq_true] at h
    intro w hw hmem
    simpa [hmem] using List.all_eq_true.mp h.right w hw

def Expression.brand : Expression :=
  ofText "p_brand".toList (by decide +kernel)

def Expression.countSuppkey : Expression :=
  ofText "COUNT(DISTINCT ps_suppkey)".toList (by decide +kernel)

def Expression.joinSuppkey : Expression :=
  ofText "ps_suppkey = s_suppkey".toList (by decide +kernel)

def Card.partsupp : Card :=
  ⟨" 800,000.0 row(s) | 100.0% estd.".toList, 800000, by decide +kernel⟩

def LogicalPlan.partsupp : LogicalPlan :=
  leaf (.storedTable " Name: 'partsupp' pruned: 0/13 chunk(s), 3/5 column(s)".toList)

-- A part of query 16.
def LogicalPlan.suppliers : LogicalPlan :=
  unary (.aggregate [.brand] [.countSuppkey]) .partsupp .partsupp

-- The column `s_suppkey` is not in the description.
theorem planReaders_suppliers :
    LogicalPlan.suppliers.exported = .node
      "[Aggregate] GroupBy: [p_brand] Aggregates: [COUNT(DISTINCT ps_suppkey)]".toList
      (some " 800,000.0 row(s) | 100.0% estd.".toList) none LogicalPlan.partsupp.exported .missing ∧
    preprocessLqpNode allTpchCols LogicalPlan.suppliers.exported = .ok (.node
      (tempNode "AggregateHash" (some 800000) none [("grpby_nomod", ["p_brand"]), ("grpby_mod", []),
        ("grpby_expr", []), ("aggr_nomod", ["ps_suppkey", "s_suppkey"]), ("aggr_mod", []), ("aggr_expr", [])])
      (.node (tempNode "GetTable" none none []) .none .none) .none) ∧
    traverseLqpHelper allTpchCols LogicalPlan.suppliers.exported = .ok (.node "Aggregate".toList
      [("groupby_modified", []), ("groupby_unmodified", ["p_brand"]), ("aggregate_modified", []),
        ("aggregate_unmodified", ["ps_suppkey"]), ("any_column", []),
        ("aggr_columns", ["COUNT(DISTINCT ps_suppkey)"]), ("grby_columns", ["p_brand"])]
      (.node "StoredTable".toList [] .missing .missing) .missing) ∧
    ¬∃ out res, preprocessLqpNode allTpchCols LogicalPlan.suppliers.exported = .ok out ∧
      traverseLqpHelper allTpchCols LogicalPlan.suppliers.exported = .ok res ∧
      LogicalPlan.suppliers.Agrees allTpchCols out res := by
  refine ⟨by decide +kernel, by decide +kernel, by decide +kernel, ?_⟩
  rintro ⟨out, res, hout, hres, h⟩
  obtain ⟨_, rfl⟩ := LogicalPlan.preprocess_exported.mp hout
  obtain ⟨res', hres', hiff⟩ := LogicalPlan.suppliers.traverse_exported isVocabulary_allTpchCols
  obtain rfl := Except.ok.inj (hres.symm.trans hres')
  have hpart : IsPart [.brand, .countSuppkey] "s_suppkey" :=
    ⟨.countSuppkey, by simp, "ps_suppkey".toList, by decide +kernel, by decide +kernel⟩
  obtain ⟨e, he, hw⟩ := hiff.mp h _ (List.mem_singleton_self _) trivial "s_suppkey" (by decide +kernel) hpart
  revert hw
  rcases List.mem_cons.mp he with rfl | he
  case inl => decide +kernel
  case inr =>
    obtain rfl := List.mem_singleton.mp he
    decide +kernel

-- A predicate that has both names.
theorem planReaders_joinSuppkey :
    ∃ out res, preprocessLqpNode allTpchCols
        (LogicalPlan.unary (.predicate .joinSuppkey) .partsupp .partsupp).exported = .ok out ∧
      traverseLqpHelper allTpchCols
        (LogicalPlan.unary (.predicate .joinSuppkey) .partsupp .partsupp).exported = .ok res ∧
      (LogicalPlan.unary (.predicate .joinSuppkey) .partsupp .partsupp).Agrees allTpchCols out res := by
  have h := planReaders_agree_iff (.unary (.predicate .joinSuppkey) .partsupp .partsupp)
  apply h.left.mpr
  refine ⟨⟨by simp, by simp [LogicalPlan.partsupp, LogicalPlan.Known]⟩, ?_⟩
  intro op hop _
  obtain rfl := List.mem_singleton.mp hop
  have hnames : words Expression.joinSuppkey.text = ["ps_suppkey".toList, "s_suppkey".toList] := by
    decide +kernel
  have hknown : ∀ e ∈ [Expression.joinSuppkey], ∀ w ∈ words e.text, '_' ∈ w →
      ∃ col ∈ allTpchCols, col.toList = w := by
    simp only [List.forall_mem_singleton, hnames, List.forall_mem_cons]
    exact ⟨fun _ => ⟨"ps_suppkey", by decide +kernel, rfl⟩, fun _ => ⟨"s_suppkey", by decide +kernel, rfl⟩⟩
  apply (h.right _ hknown).mpr
  constructor
  case left => exact fun _ => ⟨.joinSuppkey, List.mem_singleton_self _, by simp [hnames]⟩
  case right =>
    rintro ⟨e, he, hw⟩
    obtain rfl := List.mem_singleton.mp he
    simp [hnames] at hw

end aggregate

section projection

variable {columns : List String}

-- No column is found in a single character.
theorem addColumns_singleton (h : ∀ col ∈ columns, 2 ≤ col.toList.length) (c : Char) (cs : List String) :
    addColumns columns (isIn [c]) cs = cs := by
  have hnot : ∀ col ∈ columns, isIn [c] col = false := by
    intro col hcol
    rw [Bool.eq_false_iff, Ne, isIn_iff]
    intro hi
    have hle : col.toList.length ≤ 1 := hi.length_le
    exact absurd ((h col hcol).trans hle) (by decide)
  rw [addColumns]
  induction columns
  case nil => rfl
  case cons col columns ih =>
    rw [List.forall_mem_cons] at h hnot
    rw [List.foldl_cons, hnot.left, Bool.false_and]
    exact ih h.right hnot.right

-- The loop over the description never finds a column.
theorem projectionLists_eq (h : ∀ col ∈ columns, 2 ≤ col.toList.length) (description : List Char) :
    projectionLists columns description = [("forward", []), ("noforward", [])] := by
  rw [projectionLists, List.foldl_fixed']
  intro c
  simp only [addColumns_singleton h, ite_self]

theorem projectionIsRight_iff (h : ∀ col ∈ columns, 2 ≤ col.toList.length) (exprs : List Expression)
    (card : Card) :
    ProjectionIsRight columns exprs (tempNode "Projection" (some card.rows) none
      ((LqpUnary.projection exprs).lists columns)) ↔ ∀ col ∈ columns, ¬Mentions exprs col := by
  have hlists : (LqpUnary.projection exprs).lists columns = [("forward", []), ("noforward", [])] :=
    projectionLists_eq h _
  rw [hlists]
  have hnoforward : listed ["noforward"] [("forward", []), ("noforward", [])] = [] := rfl
  have hforward : listed ["forward"] [("forward", []), ("noforward", [])] = [] := rfl
  constructor
  case mp =>
    rintro hright col hcol ⟨e, he, hw⟩
    cases hc : e.isComputed
    case true =>
      have := (hright.noforward col).mpr ⟨hcol, e, List.mem_filter.mpr ⟨he, hc⟩, hw⟩
      simp [tempNode, hnoforward] at this
    case false =>
      have := (hright.forward col).mpr ⟨hcol, e, List.mem_filter.mpr ⟨he, by simp [hc]⟩, hw⟩
      simp [tempNode, hforward] at this
  case mpr =>
    intro hno
    have hnot (p : Expression → Bool) (col : String) : ¬(col ∈ columns ∧ Mentions (exprs.filter p) col) := by
      rintro ⟨hcol, e, he, hw⟩
      exact hno col hcol ⟨e, (List.mem_filter.mp he).left, hw⟩
    constructor
    case noforward =>
      intro col
      simp only [tempNode, hnoforward, hnot, List.not_mem_nil]
    case forward =>
      intro col
      simp only [tempNode, hforward, hnot, List.not_mem_nil]
    case charges =>
      have hpopulate : populateNode (tempNode "Projection" (some card.rows) none
          [("forward", []), ("noforward", [])]) = .ok ⟨0, false, card.rows, 0, .projection [] []⟩ := by
        simp [populateNode, DictNode.optype, typeFromName, operator, DictNode.list, tempNode, Dict.get?]
      refine ⟨_, hpopulate, ?_⟩
      intro nodes counters
      exact ⟨counters, rfl, fun col hcol hm => absurd ⟨hcol, hm⟩ (hnot _ col)⟩

theorem projectionsAreRight_iff (h : ∀ col ∈ columns, 2 ≤ col.toList.length) (plan : LogicalPlan) :
    plan.ProjectionsAreRight columns (plan.preprocessed columns) ↔
      ∀ exprs, LqpUnary.projection exprs ∈ plan.unaryOps → ∀ col ∈ columns, ¬Mentions exprs col := by
  induction plan
  case drawn => exact iff_of_true trivial fun _ h => by cases h
  case leaf op => exact iff_of_true trivial fun _ h => by cases h
  case unary op card input ih =>
    rw [LogicalPlan.preprocessed, LogicalPlan.ProjectionsAreRight, ih, LogicalPlan.unaryOps]
    simp only [List.mem_cons, or_imp, forall_and]
    apply and_congr_left'
    apply forall_congr'
    intro exprs
    constructor
    case mp =>
      rintro hright rfl
      exact (projectionIsRight_iff h exprs card).mp (hright rfl)
    case mpr =>
      rintro hno rfl
      exact (projectionIsRight_iff h exprs card).mpr (hno rfl)
  case binary op lcard rcard l r ihl ihr =>
    rw [LogicalPlan.preprocessed, LogicalPlan.ProjectionsAreRight, ihl, ihr, LogicalPlan.unaryOps]
    simp only [List.mem_append, or_imp, forall_and]

end projection

theorem length_allTpchCols : ∀ col ∈ allTpchCols, 2 ≤ col.toList.length := by
  decide +kernel

-- The loop over the description is over its characters, so that `forward` and `noforward` are always empty. This is
-- right only if there is no column in the projection.
theorem projections_right_iff (plan : LogicalPlan) :
    (∃ out, preprocessLqpNode allTpchCols plan.exported = .ok out ∧
      plan.ProjectionsAreRight allTpchCols out) ↔
    plan.Known ∧ ∀ exprs, LqpUnary.projection exprs ∈ plan.unaryOps →
      ∀ col ∈ allTpchCols, ¬Mentions exprs col := by
  rw [← projectionsAreRight_iff length_allTpchCols]
  constructor
  case mp =>
    rintro ⟨out, hout, h⟩
    obtain ⟨hknown, rfl⟩ := LogicalPlan.preprocess_exported.mp hout
    exact ⟨hknown, h⟩
  case mpr =>
    rintro ⟨hknown, h⟩
    exact ⟨_, LogicalPlan.preprocess_exported.mpr ⟨hknown, rfl⟩, h⟩

def Expression.revenue : Expression :=
  ofText "l_extendedprice * (1 - l_discount)".toList (by decide +kernel)

def Expression.one : Expression :=
  ofText "1".toList (by decide +kernel)

def Card.lineitem : Card :=
  ⟨" 6,001,215.0 row(s) | 100.0% estd.".toList, 6001215, by decide +kernel⟩

def LogicalPlan.lineitem : LogicalPlan :=
  leaf (.storedTable " Name: 'lineitem' pruned: 0/92 chunk(s), 14/16 column(s)".toList)

def LogicalPlan.project (expr : Expression) : LogicalPlan :=
  unary (.projection [expr]) .lineitem .lineitem

-- The columns of the product are not found, and nothing is counted for them.
theorem projections_revenue :
    (LogicalPlan.project .revenue).exported = .node "[Projection] l_extendedprice * (1 - l_discount)".toList
      (some " 6,001,215.0 row(s) | 100.0% estd.".toList) none LogicalPlan.lineitem.exported .missing ∧
    preprocessLqpNode allTpchCols (LogicalPlan.project .revenue).exported = .ok (.node
      (tempNode "Projection" (some 6001215) none [("forward", []), ("noforward", [])])
      (.node (tempNode "GetTable" none none []) .none .none) .none) ∧
    ¬∃ out, preprocessLqpNode allTpchCols (LogicalPlan.project .revenue).exported = .ok out ∧
      (LogicalPlan.project .revenue).ProjectionsAreRight allTpchCols out := by
  refine ⟨by decide +kernel, by decide +kernel, ?_⟩
  rintro ⟨out, hout, h⟩
  obtain ⟨_, rfl⟩ := LogicalPlan.preprocess_exported.mp hout
  have := (projectionsAreRight_iff length_allTpchCols _).mp h _ (List.mem_singleton_self _)
  exact this "l_discount" (by decide +kernel) ⟨.revenue, List.mem_singleton_self _, by decide +kernel⟩

-- A projection without a column.
theorem projections_one :
    ∃ out, preprocessLqpNode allTpchCols (LogicalPlan.project .one).exported = .ok out ∧
      (LogicalPlan.project .one).ProjectionsAreRight allTpchCols out := by
  apply (projections_right_iff _).mpr
  refine ⟨⟨by simp, by simp [LogicalPlan.lineitem, LogicalPlan.Known]⟩, ?_⟩
  intro exprs hexprs col hcol
  obtain ⟨rfl⟩ := LqpUnary.projection.inj (List.mem_singleton.mp hexprs)
  rintro ⟨e, he, hw⟩
  obtain rfl := List.mem_singleton.mp he
  have hwords : words Expression.one.text = ["1".toList] := by decide +kernel
  rw [hwords, List.mem_singleton] at hw
  have := isVocabulary_allTpchCols.underscore col hcol
  simp [hw] at this

end Hyrise
