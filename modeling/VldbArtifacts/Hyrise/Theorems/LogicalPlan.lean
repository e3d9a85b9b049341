import VldbArtifacts.Hyrise.Theorems.PlanText

namespace Hyrise

variable {columns : List String} {col : String} {name rest : List Char}

section readers

-- The name that an operator gets in the preprocessed plan.
def LqpUnary.planName : LqpUnary → String
  | validate       => "Validate"
  | .alias _       => "Alias"
  | predicate _    => "TableScan"
  | aggregate _ _  => "AggregateHash"
  | projection _   => "Projection"
  | sort _         => "Sort"
  | other _        => ""

def LqpBinary.planName : LqpBinary → String
  | union _ => "Union"
  | join _  => "JoinHash"
  | other _ => ""

def exprsOf (exprs : List Expression) : List (List Char) :=
  (joinTexts exprs).splitOn ','

-- The lists of columns that are set for an operator.
def LqpUnary.lists (columns : List String) (op : LqpUnary) : ColumnLists :=
  match op with
  | predicate _  => predicateLists columns op.description
  | aggregate groupby aggregates =>
    aggregateColumnLists (exprColumns columns ((exprsOf groupby).map strip))
      (exprColumns columns ((exprsOf aggregates).map strip))
  | projection _ => projectionLists columns op.description
  | sort _       => sortLists columns op.description
  | _            => []

def LqpBinary.lists (columns : List String) (op : LqpBinary) : ColumnLists :=
  match op with
  | join _ => joinLists columns op.description
  | _      => []

theorem not_mem_joinTexts {c : Char} (hc : c = '[' ∨ c = ']') (exprs : List Expression) :
    c ∉ joinTexts exprs := by
  have hsep : c ∉ [',', ' '] := by rcases hc with rfl | rfl <;> decide
  have htext (e : Expression) : c ∉ e.text := by
    intro h
    have := e.plain c h
    rcases hc with rfl | rfl <;> simp at this
  rw [joinTexts]
  induction exprs
  case nil => simp
  case cons e exprs ih =>
    cases exprs
    case nil => simpa using htext e
    case cons e' exprs =>
      rw [List.map_cons, List.map_cons, List.intercalate_cons_cons, ← List.map_cons]
      simp only [List.mem_append, not_or]
      exact ⟨⟨htext e, hsep⟩, ih⟩

section brackets

variable (groupby aggregates : List Expression)

theorem splitOn_aggregate : (LqpUnary.aggregate groupby aggregates).description.splitOn '[' =
    [[], "Aggregate] GroupBy: ".toList, joinTexts groupby ++ "] Aggregates: ".toList,
      joinTexts aggregates ++ [']']] := by
  have hdesc : (LqpUnary.aggregate groupby aggregates).description =
      [] ++ '[' :: ("Aggregate] GroupBy: ".toList ++ '[' ::
        ((joinTexts groupby ++ "] Aggregates: ".toList) ++ '[' :: (joinTexts aggregates ++ [']']))) := by
    simp [LqpUnary.description, lqpDescription]
  have hgroupby := not_mem_joinTexts (.inl rfl) groupby
  have haggregates := not_mem_joinTexts (.inl rfl) aggregates
  rw [hdesc, List.splitOn_append_cons_self_of_not_mem (by simp),
    List.splitOn_append_cons_self_of_not_mem (by simp),
    List.splitOn_append_cons_self_of_not_mem (by simp [hgroupby]),
    List.splitOn_eq_singleton (by simp [haggregates])]

theorem takeWhile_joinTexts (exprs : List Expression) (rest : List Char) :
    (joinTexts exprs ++ ']' :: rest).takeWhile (· ≠ ']') = joinTexts exprs := by
  have hall : ∀ c ∈ joinTexts exprs, decide (c ≠ ']') = true := by
    intro c hc
    have := not_mem_joinTexts (.inr rfl) exprs
    simpa using fun h : c = ']' => this (h ▸ hc)
  rw [List.takeWhile_append_of_pos hall]
  simp

theorem bracketPart_groupby :
    bracketPart (LqpUnary.aggregate groupby aggregates).description 2 = .ok (joinTexts groupby) := by
  have := takeWhile_joinTexts groupby " Aggregates: ".toList
  rw [bracketPart, splitOn_aggregate]
  exact congrArg Except.ok this

theorem bracketPart_aggregates :
    bracketPart (LqpUnary.aggregate groupby aggregates).description 3 = .ok (joinTexts aggregates) := by
  rw [bracketPart, splitOn_aggregate]
  exact congrArg Except.ok (takeWhile_joinTexts aggregates [])

end brackets

theorem preprocess_unary {op : LqpUnary} (hop : ∀ o, op ≠ .other o) (card : Card) (input : Exported) :
    preprocessLqpNode columns (.node op.description (some card.text) none input .missing) = (do
      let lchild ← preprocessLqpNode columns input
      return .node (tempNode op.planName (some card.rows) none (op.lists columns)) lchild .none) := by
  cases op
  case other o => exact absurd rfl (hop o)
  case aggregate groupby aggregates =>
    have hlists : aggregateLists columns (LqpUnary.aggregate groupby aggregates).description =
        .ok ((LqpUnary.aggregate groupby aggregates).lists columns) := by
      rw [aggregateLists, bracketPart_groupby, bracketPart_aggregates]
      rfl
    have : preprocessLqpNode columns (.node (LqpUnary.aggregate groupby aggregates).description (some card.text)
        none input .missing) = (do
        let lchild ← preprocessLqpNode columns input
        let lcard ← cardRows (some card.text) true
        return .node (tempNode "AggregateHash" (some lcard) none
          (← aggregateLists columns (LqpUnary.aggregate groupby aggregates).description)) lchild .none) := by
      simp [preprocessLqpNode, LqpUnary.description, lqpDescription]
    simp [this, cardRows, card.reads, hlists, LqpUnary.planName]
  all_goals
    simp [preprocessLqpNode, LqpUnary.description, lqpDescription, cardRows, card.reads, LqpUnary.planName,
      LqpUnary.lists]

theorem preprocess_binary {op : LqpBinary} (hop : ∀ o, op ≠ .other o) (lcard rcard : Card) (l r : Exported) :
    preprocessLqpNode columns (.node op.description (some lcard.text) (some rcard.text) l r) = (do
      let lchild ← preprocessLqpNode columns l
      let rchild ← preprocessLqpNode columns r
      return .node (tempNode op.planName (some lcard.rows) (some rcard.rows) (op.lists columns))
        lchild rchild) := by
  cases op
  case other o => exact absurd rfl (hop o)
  all_goals
    simp [preprocessLqpNode, LqpBinary.description, lqpDescription, cardRows, lcard.reads, rcard.reads,
      LqpBinary.planName, LqpBinary.lists]

theorem preprocess_storedTable (rest : List Char) :
    preprocessLqpNode columns (.node (LqpLeaf.storedTable rest).description none none .missing .missing) =
      .ok (.node (tempNode "GetTable" none none []) .none .none) := by
  simp [preprocessLqpNode, LqpLeaf.description, lqpDescription]

-- Two headers are the same if they have the same name.
theorem isPrefixOf_lqpDescription (hname : ']' ∉ name) {header : List Char} (hheader : ']' ∉ header) :
    ('[' :: (header ++ [']'])).isPrefixOf (lqpDescription name rest) = true ↔ header = name := by
  rw [List.isPrefixOf_iff_prefix, lqpDescription, List.cons_prefix_cons, and_iff_right rfl]
  constructor
  case mp =>
    rintro ⟨rest', h⟩
    have := congrArg (List.splitOn ']') h
    rw [List.append_assoc, List.singleton_append, List.splitOn_append_cons_self_of_not_mem hheader,
      List.splitOn_append_cons_self_of_not_mem hname] at this
    exact (List.cons.inj this).left
  case mpr =>
    rintro rfl
    exact ⟨rest, by simp⟩

theorem OtherOp.not_startsWith (op : OtherOp) {header : List Char} (h : header ∈ lqpNames) {text : List Char}
    (ht : text = '[' :: (header ++ [']'])) : text.isPrefixOf op.description = false := by
  have hname : ']' ∉ op.name := fun h => (op.plain _ h).left rfl
  have hheader : ']' ∉ header := by
    revert h
    simp only [lqpNames, List.mem_cons, List.not_mem_nil, or_false]
    rintro (rfl | rfl | rfl | rfl | rfl | rfl | rfl | rfl | rfl) <;> simp
  rw [Bool.eq_false_iff, Ne, ht, OtherOp.description, isPrefixOf_lqpDescription hname hheader]
  rintro rfl
  exact op.unknown h

theorem preprocess_other (op : OtherOp) (leftCard rightCard : Option (List Char)) (l r : Exported) :
    preprocessLqpNode columns (.node op.description leftCard rightCard l r) = .error .exit := by
  have h (header text : String) (hm : header.toList ∈ lqpNames) (ht : text.toList = '[' :: (header.toList ++ [']'])) :
      text.toList.isPrefixOf op.description = false := op.not_startsWith hm ht
  have h1 := h "StoredTable" "[StoredTable]" (by simp [lqpNames]) (by simp)
  have h2 := h "Validate" "[Validate]" (by simp [lqpNames]) (by simp)
  have h3 := h "UnionNode" "[UnionNode]" (by simp [lqpNames]) (by simp)
  have h4 := h "Alias" "[Alias]" (by simp [lqpNames]) (by simp)
  have h5 := h "Predicate" "[Predicate]" (by simp [lqpNames]) (by simp)
  have h6 := h "Join" "[Join]" (by simp [lqpNames]) (by simp)
  have h7 := h "Aggregate" "[Aggregate]" (by simp [lqpNames]) (by simp)
  have h8 := h "Projection" "[Projection]" (by simp [lqpNames]) (by simp)
  have h9 := h "Sort" "[Sort]" (by simp [lqpNames]) (by simp)
  simp only [preprocessLqpNode, h1, h2, h3, h4, h5, h6, h7, h8, h9, Bool.false_eq_true, if_false]

-- The lists that the other script sets.
def LqpUnary.combined (columns : List String) (op : LqpUnary) : ColumnLists :=
  match op with
  | predicate _  => [("scan column", columns.filter (isWordIn op.description))]
  | aggregate groupby aggregates =>
    let g := (exprsOf groupby).foldl (CombinedAggregate.add columns false) ⟨[], [], []⟩
    let a := (exprsOf aggregates).foldl (CombinedAggregate.add columns true) ⟨[], [], []⟩
    [("groupby_modified", g.modified), ("groupby_unmodified", g.unmodified),
      ("aggregate_modified", a.modified), ("aggregate_unmodified", a.unmodified),
      ("any_column", a.anyColumn), ("aggr_columns", (exprsOf aggregates).map (String.ofList ∘ strip)),
      ("grby_columns", (exprsOf groupby).map (String.ofList ∘ strip))]
  | projection _ => combinedProjection columns op.description
  | _            => []

theorem bracketed_lqpDescription (h : ∀ c ∈ name, c ≠ ']' ∧ c ≠ '\n') :
    bracketed (lqpDescription name rest) = .ok name := by
  have hall : ∀ c ∈ name, decide (c ≠ ']') = true := fun c hc => by simpa using (h c hc).left
  have htake : (name ++ ']' :: rest).takeWhile (· ≠ ']') = name := by
    rw [List.takeWhile_append_of_pos hall]
    simp
  have hline : '\n' ∉ name := fun hm => (h _ hm).right rfl
  rw [lqpDescription, bracketed]
  simp only [htake]
  rw [if_pos ⟨trivial, by simp, hline⟩]
  rfl

theorem traverse_node (h : ∀ c ∈ name, c ≠ ']' ∧ c ≠ '\n') {lists : ColumnLists}
    (hlists : combinedLists columns name (lqpDescription name rest) = .ok lists)
    (leftCard rightCard : Option (List Char)) (l r : Exported) :
    ∃ ops, traverseLqpHelper columns (.node (lqpDescription name rest) leftCard rightCard l r) = (do
      return .node ops lists (← traverseLqpHelper columns l) (← traverseLqpHelper columns r)) := by
  rw [traverseLqpHelper, bracketed_lqpDescription h, Except.ok_bind, hlists]
  exact ⟨_, rfl⟩

theorem OtherOp.combinedLists_eq (op : OtherOp) (description : List Char) :
    combinedLists columns op.name description = .ok [] := by
  have h (name : String) (hm : name.toList ∈ lqpNames) : op.name ≠ name.toList :=
    fun heq => op.unknown (heq ▸ hm)
  rw [combinedLists, if_neg (h "Projection" (by simp [lqpNames])),
    if_neg (h "Aggregate" (by simp [lqpNames])), if_neg (h "Predicate" (by simp [lqpNames]))]
  rfl

theorem traverse_unary (op : LqpUnary) (leftCard rightCard : Option (List Char)) (l r : Exported) :
    ∃ ops, traverseLqpHelper columns (.node op.description leftCard rightCard l r) = (do
      return .node ops (op.combined columns) (← traverseLqpHelper columns l)
        (← traverseLqpHelper columns r)) := by
  cases op
  case other op => exact traverse_node op.plain (op.combinedLists_eq _) ..
  case aggregate groupby aggregates =>
    have hlists : combinedAggregate columns (LqpUnary.aggregate groupby aggregates).description =
        .ok ((LqpUnary.aggregate groupby aggregates).combined columns) := by
      rw [combinedAggregate, bracketPart_groupby, bracketPart_aggregates]
      rfl
    apply traverse_node (by simp)
    rw [combinedLists, if_neg (by simp), if_pos rfl]
    exact hlists
  all_goals
    apply traverse_node (by simp)
    simp [combinedLists, LqpUnary.combined, LqpUnary.description]

theorem traverse_binary (op : LqpBinary) (leftCard rightCard : Option (List Char)) (l r : Exported) :
    ∃ ops, traverseLqpHelper columns (.node op.description leftCard rightCard l r) = (do
      return .node ops [] (← traverseLqpHelper columns l) (← traverseLqpHelper columns r)) := by
  cases op
  case other op => exact traverse_node op.plain (op.combinedLists_eq _) ..
  all_goals
    apply traverse_node (by simp)
    simp [combinedLists]

theorem traverse_leaf (op : LqpLeaf) :
    ∃ ops, traverseLqpHelper columns (.node op.description none none .missing .missing) =
      .ok (.node ops [] .missing .missing) := by
  cases op
  case other op => exact traverse_node op.plain (op.combinedLists_eq _) ..
  case storedTable =>
    apply traverse_node (by simp)
    simp [combinedLists]

end readers

section columns

variable (hv : IsVocabulary columns)

theorem words_lqpDescription (name rest : List Char) :
    words (lqpDescription name rest) = words name ++ words rest := by
  rw [words, lqpDescription, List.wordsBy_cons (by decide), List.wordsBy_append_cons (by decide)]

theorem flatMap_words_exprsOf (exprs : List Expression) :
    (exprsOf exprs).flatMap words = exprs.flatMap (words ·.text) := by
  have hjoin : words (joinTexts exprs) = exprs.flatMap (words ·.text) := by
    rw [words, joinTexts, List.wordsBy_intercalate (by simp; decide) (by simp), List.flatMap_map]
  rw [← hjoin]
  exact List.flatMap_wordsBy_splitOn (by decide) _

theorem words_predicate (e : Expression) :
    words (LqpUnary.predicate e).description = "Predicate".toList :: words e.text := by
  have : words "Predicate".toList = ["Predicate".toList] := by
    exact List.wordsBy_word (by simp; decide) (by simp)
  rw [LqpUnary.description, words_lqpDescription, this]
  rfl

theorem Mentions.isPart {exprs : List Expression} (h : Mentions exprs col) : IsPart exprs col := by
  obtain ⟨e, he, hw⟩ := h
  exact ⟨e, he, _, hw, List.infix_rfl⟩

include hv

theorem exists_isIn_iff (hcol : col ∈ columns) (exprs : List Expression) :
    (∃ expr ∈ (exprsOf exprs).map strip, isIn expr col = true) ↔ IsPart exprs col := by
  have hmem (w : List Char) : w ∈ (exprsOf exprs).flatMap words ↔ ∃ e ∈ exprs, w ∈ words e.text := by
    rw [flatMap_words_exprsOf, List.mem_flatMap]
  simp only [List.mem_map, exists_exists_and_eq_and, hv.isIn_iff_words hcol, words_strip]
  constructor
  case mp =>
    rintro ⟨expr, he, w, hw, hi⟩
    obtain ⟨e, he, hw⟩ := (hmem w).mp (List.mem_flatMap.mpr ⟨expr, he, hw⟩)
    exact ⟨e, he, w, hw, hi⟩
  case mpr =>
    rintro ⟨e, he, w, hw, hi⟩
    obtain ⟨expr, he, hw⟩ := List.mem_flatMap.mp ((hmem w).mpr ⟨e, he, hw⟩)
    exact ⟨expr, he, w, hw, hi⟩

theorem exists_isWordIn_iff (hcol : col ∈ columns) (exprs : List Expression) :
    (∃ expr ∈ exprsOf exprs, isWordIn expr col = true) ↔ Mentions exprs col := by
  have hmem (w : List Char) : w ∈ (exprsOf exprs).flatMap words ↔ ∃ e ∈ exprs, w ∈ words e.text := by
    rw [flatMap_words_exprsOf, List.mem_flatMap]
  simp only [hv.isWordIn_iff_words hcol]
  constructor
  case mp =>
    rintro ⟨expr, he, w, hw, hlower⟩
    obtain ⟨e, he, hw⟩ := (hmem w).mp (List.mem_flatMap.mpr ⟨expr, he, hw⟩)
    exact ⟨e, he, hv.eq_of_map_toLower hcol (e.lower w hw) hlower ▸ hw⟩
  case mpr =>
    rintro ⟨e, he, hw⟩
    obtain ⟨expr, he, hw⟩ := List.mem_flatMap.mp ((hmem _).mpr ⟨e, he, hw⟩)
    exact ⟨expr, he, _, hw, hv.map_toLower hcol⟩

omit hv in
theorem listed_combinedKeys (gm gu am au any aggr grby : List String) :
    listed combinedKeys [("groupby_modified", gm), ("groupby_unmodified", gu), ("aggregate_modified", am),
      ("aggregate_unmodified", au), ("any_column", any), ("aggr_columns", aggr), ("grby_columns", grby)] =
    [] ++ (gm ++ (gu ++ (am ++ (au ++ (any ++ []))))) :=
  rfl

-- `preprocess_lqp_node` finds each column that is a part of a word.
theorem mem_lists {op : LqpUnary} (hop : op.IsRead) :
    col ∈ listed readKeys (op.lists columns) ↔ col ∈ columns ∧ IsPart op.readExprs col := by
  cases op
  case predicate e =>
    have hlisted : listed readKeys ((LqpUnary.predicate e).lists columns) =
        columns.filter (isIn (LqpUnary.predicate e).description) := by
      simp [listed, readKeys, LqpUnary.lists, predicateLists, Dict.get?]
    rw [hlisted, List.mem_filter]
    apply and_congr_right
    intro hcol
    rw [hv.isIn_iff_words hcol, words_predicate, List.exists_mem_cons_iff,
      or_iff_right (hv.not_infix_of_not_mem hcol (by simp))]
    simp [IsPart, LqpUnary.readExprs]
  case aggregate groupby aggregates =>
    have hlisted : col ∈ listed readKeys ((LqpUnary.aggregate groupby aggregates).lists columns) ↔
        (col ∈ (exprColumns columns ((exprsOf groupby).map strip)).nomod ∨
          col ∈ (exprColumns columns ((exprsOf groupby).map strip)).mod) ∨
        (col ∈ (exprColumns columns ((exprsOf aggregates).map strip)).nomod ∨
          col ∈ (exprColumns columns ((exprsOf aggregates).map strip)).mod) := by
      simp [listed, readKeys, LqpUnary.lists, aggregateColumnLists, Dict.get?, or_assoc]
    rw [hlisted, mem_exprColumns, mem_exprColumns, ← and_or_left]
    apply and_congr_right
    intro hcol
    rw [exists_isIn_iff hv hcol, exists_isIn_iff hv hcol]
    simp [IsPart, LqpUnary.readExprs, or_and_right, exists_or]
  all_goals exact hop.elim

-- `traverse_lqp_helper` finds each column that is a word.
theorem mem_combined {op : LqpUnary} (hop : op.IsRead) :
    col ∈ listed combinedKeys (op.combined columns) ↔ col ∈ columns ∧ Mentions op.readExprs col := by
  cases op
  case predicate e =>
    have hlisted : listed combinedKeys ((LqpUnary.predicate e).combined columns) =
        columns.filter (isWordIn (LqpUnary.predicate e).description) := by
      simp [listed, combinedKeys, LqpUnary.combined, Dict.get?]
    rw [hlisted, List.mem_filter]
    apply and_congr_right
    intro hcol
    rw [hv.isWordIn_iff_words hcol, words_predicate]
    constructor
    case mp =>
      rintro ⟨w, hw, hlower⟩
      refine ⟨e, List.mem_singleton_self e, ?_⟩
      rcases List.mem_cons.mp hw with rfl | hw
      case inl =>
        have := hv.eq_of_map_toLower hcol (by simp) hlower
        exact absurd (hv.underscore col hcol) (this ▸ by simp)
      case inr => exact hv.eq_of_map_toLower hcol (e.lower w hw) hlower ▸ hw
    case mpr =>
      rintro ⟨e', he, hw⟩
      obtain rfl := List.mem_singleton.mp he
      exact ⟨_, List.mem_cons_of_mem _ hw, hv.map_toLower hcol⟩
  case aggregate groupby aggregates =>
    generalize hg : (exprsOf groupby).foldl (CombinedAggregate.add columns false) ⟨[], [], []⟩ = g
    generalize ha : (exprsOf aggregates).foldl (CombinedAggregate.add columns true) ⟨[], [], []⟩ = a
    have hlisted : col ∈ listed combinedKeys ((LqpUnary.aggregate groupby aggregates).combined columns) ↔
        (col ∈ g.modified ∨ col ∈ g.unmodified) ∨
          (col ∈ a.modified ∨ col ∈ a.unmodified ∨ col ∈ a.anyColumn) := by
      rw [← hg, ← ha, LqpUnary.combined, listed_combinedKeys]
      simp only [List.nil_append, List.append_nil, List.mem_append, or_assoc]
    have hg' : col ∈ g.modified ∨ col ∈ g.unmodified ↔
        col ∈ columns ∧ ∃ expr ∈ exprsOf groupby, isWordIn expr col = true := by
      have hany : g.anyColumn = [] := by rw [← hg, anyColumn_groupby]
      have hmem : col ∈ g.modified ∨ col ∈ g.unmodified ∨ col ∈ g.anyColumn ↔
          col ∈ columns ∧ ∃ expr ∈ exprsOf groupby, isWordIn expr col = true := mem_combinedAggregate hg
      simpa [hany] using hmem
    rw [hlisted, hg', mem_combinedAggregate ha, ← and_or_left]
    apply and_congr_right
    intro hcol
    rw [exists_isWordIn_iff hv hcol, exists_isWordIn_iff hv hcol]
    simp [Mentions, LqpUnary.readExprs, or_and_right, exists_or]
  all_goals exact hop.elim

theorem sameColumns_iff {op : LqpUnary} (hop : op.IsRead) :
    SameColumns columns op.readExprs (op.lists columns) (op.combined columns) ↔
      Unshadowed columns op.readExprs := by
  simp only [SameColumns, mem_lists hv hop, mem_combined hv hop, and_true]
  constructor
  case mp =>
    intro h col hcol hpart
    exact ((h col).mp ⟨hcol, hpart⟩).right
  case mpr =>
    intro h col
    exact and_congr_right fun hcol => ⟨h col hcol, Mentions.isPart⟩

end columns

namespace LogicalPlan

variable {plan : LogicalPlan}

-- The plan that `preprocess_lqp_node` makes, if it knows all operators.
def preprocessed (columns : List String) : LogicalPlan → Plan
  | drawn  => .none
  | leaf _ => .node (tempNode "GetTable" none none []) .none .none
  | unary op card input =>
    .node (tempNode op.planName (some card.rows) none (op.lists columns)) (input.preprocessed columns) .none
  | binary op lcard rcard l r =>
    .node (tempNode op.planName (some lcard.rows) (some rcard.rows) (op.lists columns))
      (l.preprocessed columns) (r.preprocessed columns)

theorem preprocess_exported {out : Plan} : preprocessLqpNode columns plan.exported = .ok out ↔
    plan.Known ∧ plan.preprocessed columns = out := by
  induction plan generalizing out
  case drawn => simp [exported, preprocessLqpNode, Known, preprocessed]
  case leaf op =>
    cases op
    case storedTable rest => simp [exported, preprocess_storedTable, Known, preprocessed]
    case other op =>
      simp [exported, LqpLeaf.description, preprocess_other, Known]
  case unary op card input ih =>
    by_cases hop : ∃ o, op = .other o
    case pos =>
      obtain ⟨o, rfl⟩ := hop
      simp [exported, LqpUnary.description, preprocess_other, Known]
    case neg =>
      have hop : ∀ o, op ≠ .other o := fun o h => hop ⟨o, h⟩
      rw [exported, preprocess_unary hop]
      simp only [Except.bind_eq_ok, ih, Except.pure_def, Except.ok.injEq, Known, preprocessed, and_assoc,
        exists_and_left, exists_eq_left']
      simp [hop]
  case binary op lcard rcard l r ihl ihr =>
    by_cases hop : ∃ o, op = .other o
    case pos =>
      obtain ⟨o, rfl⟩ := hop
      simp [exported, LqpBinary.description, preprocess_other, Known]
    case neg =>
      have hop : ∀ o, op ≠ .other o := fun o h => hop ⟨o, h⟩
      rw [exported, preprocess_binary hop]
      simp only [Except.bind_eq_ok, ihl, ihr, Except.pure_def, Except.ok.injEq, Known, preprocessed, and_assoc,
        exists_and_left, exists_eq_left']
      simp [hop]

-- The other script reads every plan. It finds the same columns if no column is hidden in another name.
theorem traverse_exported (hv : IsVocabulary columns) (plan : LogicalPlan) :
    ∃ res, traverseLqpHelper columns plan.exported = .ok res ∧
      (plan.Agrees columns (plan.preprocessed columns) res ↔
        ∀ op ∈ plan.unaryOps, op.IsRead → Unshadowed columns op.readExprs) := by
  induction plan
  case drawn => exact ⟨_, rfl, iff_of_true trivial (List.forall_mem_nil _)⟩
  case leaf op =>
    obtain ⟨ops, h⟩ := @traverse_leaf columns op
    exact ⟨_, h, iff_of_true trivial (List.forall_mem_nil _)⟩
  case unary op card input ih =>
    obtain ⟨ops, h⟩ := @traverse_unary columns op (some card.text) none input.exported .missing
    obtain ⟨res, hres, hiff⟩ := ih
    refine ⟨.node ops (op.combined columns) res .missing, ?_, ?_⟩
    case refine_1 =>
      rw [exported, h, hres]
      rfl
    case refine_2 =>
      rw [preprocessed, Agrees, hiff, unaryOps, List.forall_mem_cons]
      exact and_congr_left' (forall_congr' fun hop => sameColumns_iff hv hop)
  case binary op lcard rcard l r ihl ihr =>
    obtain ⟨ops, h⟩ :=
      @traverse_binary columns op (some lcard.text) (some rcard.text) l.exported r.exported
    obtain ⟨resl, hl, hiffl⟩ := ihl
    obtain ⟨resr, hr, hiffr⟩ := ihr
    refine ⟨.node ops [] resl resr, ?_, ?_⟩
    case refine_1 =>
      rw [exported, h, hl, hr]
      rfl
    case refine_2 => rw [preprocessed, Agrees, hiffl, hiffr, unaryOps, List.forall_mem_append]

end LogicalPlan

end Hyrise
