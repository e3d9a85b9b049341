import VldbArtifacts.Lib.Except
import VldbArtifacts.Lib.Forall
import VldbArtifacts.Hyrise.LogicalPlan

namespace Hyrise

open CXL (isSpace)

variable {columns cs : List String} {found : String → Bool} {col : String} {s w ref expr : List Char}

theorem occursIn_iff {sub s : List Char} : occursIn sub s = true ↔ sub <:+: s := by
  simp only [occursIn, List.any_eq_true, List.mem_tails, List.isPrefixOf_iff_prefix,
    List.infix_iff_prefix_suffix, and_comm]

theorem isIn_iff : isIn expr col = true ↔ col.toList <:+: expr :=
  occursIn_iff

theorem mem_addColumns : col ∈ addColumns columns found cs ↔ col ∈ cs ∨ col ∈ columns ∧ found col = true := by
  have hadd (cs : List String) (c : String) :
      col ∈ (if found c && !cs.contains c then cs ++ [c] else cs) ↔ col ∈ cs ∨ col = c ∧ found col = true := by
    by_cases hc : c ∈ cs
    case pos =>
      have : col = c → col ∈ cs := fun h => h ▸ hc
      simp [hc]
      tauto
    case neg =>
      cases hf : found c
      case false =>
        have : ¬(col = c ∧ found col = true) := by rintro ⟨rfl, h⟩; simp [hf] at h
        simp [this]
      case true =>
        have : col = c ∧ found col = true ↔ col = c := and_iff_left_of_imp fun h => h ▸ hf
        simp [hc, this]
  rw [addColumns, List.foldl_iff (P := (col ∈ ·)) hadd]
  apply or_congr_right
  constructor
  case mp =>
    rintro ⟨_, hc, rfl, h⟩
    exact ⟨hc, h⟩
  case mpr =>
    rintro ⟨hc, h⟩
    exact ⟨col, hc, rfl, h⟩

theorem mem_exprColumns {exprs : List (List Char)} :
    col ∈ (exprColumns columns exprs).nomod ∨ col ∈ (exprColumns columns exprs).mod ↔
      col ∈ columns ∧ ∃ expr ∈ exprs, isIn expr col = true := by
  have hadd (x : ExprColumns) (expr : List Char) :
      col ∈ (x.add columns expr).nomod ∨ col ∈ (x.add columns expr).mod ↔
        (col ∈ x.nomod ∨ col ∈ x.mod) ∨ col ∈ columns ∧ isIn expr col = true := by
    rw [ExprColumns.add]
    split
    case isTrue  => rw [mem_addColumns, or_assoc]
    case isFalse => rw [mem_addColumns, or_right_comm]
  rw [exprColumns, List.foldl_iff (P := fun x : ExprColumns => col ∈ x.nomod ∨ col ∈ x.mod) hadd]
  simp [and_left_comm]

theorem mem_combinedAggregate {any : Bool} {exprs : List (List Char)} {x : CombinedAggregate}
    (hx : exprs.foldl (CombinedAggregate.add columns any) ⟨[], [], []⟩ = x) :
    col ∈ x.modified ∨ col ∈ x.unmodified ∨ col ∈ x.anyColumn ↔
      col ∈ columns ∧ ∃ expr ∈ exprs, isWordIn expr col = true := by
  have hadd (x : CombinedAggregate) (expr : List Char) :
      col ∈ (x.add columns any expr).modified ∨ col ∈ (x.add columns any expr).unmodified ∨
          col ∈ (x.add columns any expr).anyColumn ↔
        (col ∈ x.modified ∨ col ∈ x.unmodified ∨ col ∈ x.anyColumn) ∨
          col ∈ columns ∧ isWordIn expr col = true := by
    rw [CombinedAggregate.add]
    split
    case isTrue => rw [mem_addColumns, or_right_comm]
    case isFalse =>
      split <;> rw [mem_addColumns] <;> tauto
  rw [← hx, List.foldl_iff
    (P := fun x : CombinedAggregate => col ∈ x.modified ∨ col ∈ x.unmodified ∨ col ∈ x.anyColumn) hadd]
  simp [and_left_comm]

-- There is no branch for `ANY` in the loop over the group-by columns.
theorem anyColumn_groupby (exprs : List (List Char)) (x : CombinedAggregate) :
    (exprs.foldl (CombinedAggregate.add columns false) x).anyColumn = x.anyColumn := by
  induction exprs generalizing x
  case nil => rfl
  case cons expr exprs ih =>
    rw [List.foldl_cons, ih, CombinedAggregate.add, Bool.false_and]
    split <;> rfl

section words

-- A capital letter becomes another letter, and everything else stays.
theorem toLower_cases (c : Char) :
    c.toLower = c ∨ isWordChar c = true ∧ isWordChar c.toLower = true ∧ c ≠ '_' ∧ c.toLower ≠ '_' := by
  by_cases h : c.val ≥ 'A'.val ∧ c.val ≤ 'Z'.val
  case neg => exact .inl (dif_neg h)
  case pos =>
    have hnat : 65 ≤ c.toNat ∧ c.toNat ≤ 90 := h
    have hc : c = Char.ofNat c.toNat := (Char.ofNat_toNat c).symm
    right
    generalize c.toNat = n at hnat hc
    obtain ⟨hlo, hhi⟩ := hnat
    subst hc
    interval_cases n <;> decide

theorem isWordChar_toLower (c : Char) : isWordChar c.toLower = isWordChar c := by
  rcases toLower_cases c with h | ⟨h, h', _⟩
  case inl => rw [h]
  case inr => rw [h, h']

theorem toLower_eq_underscore {c : Char} : c.toLower = '_' ↔ c = '_' := by
  rcases toLower_cases c with h | ⟨_, _, h, h'⟩
  case inl => rw [h]
  case inr => simp [h, h']

theorem not_isWordChar_of_isSpace {c : Char} (h : isSpace c = true) : isWordChar c = false := by
  have hnat : c.toNat = 32 ∨ 9 ≤ c.toNat ∧ c.toNat ≤ 13 := by
    rw [isSpace, Bool.or_eq_true, Bool.and_eq_true] at h
    rcases h with h | ⟨hlo, hhi⟩
    case inl => exact .inl (by rw [of_decide_eq_true h]; rfl)
    case inr => exact .inr ⟨of_decide_eq_true hlo, of_decide_eq_true hhi⟩
  have hc : c = Char.ofNat c.toNat := (Char.ofNat_toNat c).symm
  generalize c.toNat = n at hnat hc
  subst hc
  rcases hnat with rfl | ⟨hlo, hhi⟩
  case inl => decide
  case inr => interval_cases n <;> decide

theorem words_strip (s : List Char) : words (strip s) = words s := by
  have hdrop (s : List Char) : words (s.dropWhile isSpace) = words s := by
    have hall : (s.takeWhile isSpace).all isSpace = true := List.all_takeWhile
    rw [List.all_eq_true] at hall
    have hsep := fun c hc => not_isWordChar_of_isSpace (hall c hc)
    rw [words, ← List.wordsBy_append_left hsep, List.takeWhile_append_dropWhile]
  have hrdrop (s : List Char) : words (s.rdropWhile isSpace) = words s := by
    have hsep : ∀ c ∈ s.rtakeWhile isSpace, isWordChar c = false :=
      fun c hc => not_isWordChar_of_isSpace (List.mem_rtakeWhile_imp hc)
    rw [words, ← List.wordsBy_append_right hsep, List.rdropWhile_append_rtakeWhile]
  rw [strip, hrdrop, hdrop]

theorem isWordBoundary_left {before after : Option Char} (h : after.any isWordChar = true) :
    isWordBoundary before after = true ↔ List.IsBoundary isWordChar before := by
  cases before <;> simp [isWordBoundary, h, List.IsBoundary]

theorem isWordBoundary_right {before after : Option Char} (h : before.any isWordChar = true) :
    isWordBoundary before after = true ↔ List.IsBoundary isWordChar after := by
  cases after <;> simp [isWordBoundary, h, List.IsBoundary]

section search

variable (href : ∀ c ∈ ref, isWordChar c = true) (hne : ref ≠ [])
include href

theorem isWordChar_of_map_toLower (h : w.map Char.toLower = ref.map Char.toLower) :
    ∀ c ∈ w, isWordChar c = true := by
  intro c hc
  have : c.toLower ∈ ref.map Char.toLower := h ▸ List.mem_map_of_mem hc
  obtain ⟨d, hd, heq⟩ := List.mem_map.mp this
  rw [← isWordChar_toLower, ← heq, isWordChar_toLower, href d hd]

include hne

theorem matchesWord_append {before : Option Char} {post : List Char}
    (h : w.map Char.toLower = ref.map Char.toLower) :
    matchesWord ref before (w ++ post) = true ↔
      List.IsBoundary isWordChar before ∧ List.IsBoundary isWordChar post.head? := by
  have hlen : ref.length = w.length := by simpa using (congrArg List.length h).symm
  have hword := isWordChar_of_map_toLower href h
  have hw : w ≠ [] := by
    rintro rfl
    exact hne (List.length_eq_zero_iff.mp hlen)
  have hhead : (w ++ post).head?.any isWordChar = true := by
    obtain ⟨c, w, rfl⟩ := List.exists_cons_of_ne_nil hw
    exact hword c (List.mem_cons_self ..)
  have hlast : (w.getLast?.or before).any isWordChar = true := by
    rw [List.getLast?_eq_some_getLast hw]
    exact hword _ (List.getLast_mem hw)
  rw [matchesWord, hlen, List.take_left, List.drop_left, h]
  simp only [beq_self_eq_true, Bool.and_true, Bool.and_eq_true, isWordBoundary_left hhead,
    isWordBoundary_right hlast]

theorem matchesWord_iff {before : Option Char} : matchesWord ref before s = true ↔
    List.IsBoundary isWordChar before ∧ ∃ w post, s = w ++ post ∧
      w.map Char.toLower = ref.map Char.toLower ∧ List.IsBoundary isWordChar post.head? := by
  constructor
  case mp =>
    intro h
    have hmap : (s.take ref.length).map Char.toLower = ref.map Char.toLower := by
      rw [matchesWord] at h
      simp only [Bool.and_eq_true, beq_iff_eq] at h
      exact h.left.right
    rw [← List.take_append_drop ref.length s] at h
    obtain ⟨hbefore, hpost⟩ := (matchesWord_append href hne hmap).mp h
    exact ⟨hbefore, _, _, (List.take_append_drop ref.length s).symm, hmap, hpost⟩
  case mpr =>
    rintro ⟨hbefore, w, post, rfl, hmap, hpost⟩
    exact (matchesWord_append href hne hmap).mpr ⟨hbefore, hpost⟩

theorem searchWord_iff_exists {before : Option Char} : searchWord ref before s = true ↔
    ∃ pre w post, s = pre ++ w ++ post ∧ w.map Char.toLower = ref.map Char.toLower ∧
      List.IsBoundary isWordChar (pre.getLast?.or before) ∧ List.IsBoundary isWordChar post.head? := by
  -- A match at the start has nothing before it.
  have hstart (before : Option Char) (s : List Char) : matchesWord ref before s = true ↔
      ∃ w post, s = w ++ post ∧ w.map Char.toLower = ref.map Char.toLower ∧
        List.IsBoundary isWordChar before ∧ List.IsBoundary isWordChar post.head? := by
    rw [matchesWord_iff href hne]
    exact ⟨fun ⟨hb, w, post, hs, hmap, hpost⟩ => ⟨w, post, hs, hmap, hb, hpost⟩,
      fun ⟨w, post, hs, hmap, hb, hpost⟩ => ⟨hb, w, post, hs, hmap, hpost⟩⟩
  induction s generalizing before
  case nil =>
    rw [searchWord, hstart]
    constructor
    case mp =>
      rintro ⟨w, post, hs, h⟩
      exact ⟨[], w, post, hs, h⟩
    case mpr =>
      rintro ⟨pre, w, post, hs, h⟩
      obtain rfl : pre = [] := by simp_all
      exact ⟨w, post, hs, h⟩
  case cons c s ih =>
    have hlast (pre : List Char) : (c :: pre).getLast?.or before = pre.getLast?.or (some c) := by
      rw [List.getLast?_cons]
      cases pre.getLast? <;> rfl
    rw [searchWord, Bool.or_eq_true, hstart]
    constructor
    case mp =>
      rintro (⟨w, post, hs, h⟩ | h)
      case inl => exact ⟨[], w, post, hs, h⟩
      case inr =>
        obtain ⟨pre, w, post, rfl, hmap, hb, hpost⟩ := ih.mp h
        exact ⟨c :: pre, w, post, rfl, hmap, hlast pre ▸ hb, hpost⟩
    case mpr =>
      rintro ⟨pre, w, post, hs, hmap, hb, hpost⟩
      cases pre
      case nil => exact .inl ⟨w, post, hs, hmap, hb, hpost⟩
      case cons d pre =>
        simp only [List.cons_append, List.cons.injEq] at hs
        obtain ⟨rfl, rfl⟩ := hs
        exact .inr (ih.mpr ⟨pre, w, post, rfl, hmap, hlast pre ▸ hb, hpost⟩)

-- The search finds the words of the text, in lower or upper case.
theorem searchWord_iff :
    searchWord ref none s = true ↔ ∃ w ∈ words s, w.map Char.toLower = ref.map Char.toLower := by
  rw [searchWord_iff_exists href hne]
  constructor
  case mp =>
    rintro ⟨pre, w, post, hs, hmap, hpre, hpost⟩
    have hw : w ≠ [] := by
      rintro rfl
      exact hne (List.map_eq_nil_iff.mp hmap.symm)
    rw [Option.or_none] at hpre
    exact ⟨w, List.mem_wordsBy_iff.mpr ⟨hw, isWordChar_of_map_toLower href hmap, pre, post, hs, hpre, hpost⟩, hmap⟩
  case mpr =>
    rintro ⟨w, hw, hmap⟩
    obtain ⟨_, _, pre, post, hs, hpre, hpost⟩ := List.mem_wordsBy_iff.mp hw
    exact ⟨pre, w, post, hs, hmap, by rwa [Option.or_none], hpost⟩

end search

end words

-- The names of columns are identifiers in lower case, and each has an underscore.
structure IsVocabulary (columns : List String) : Prop where
  underscore : ∀ col ∈ columns, '_' ∈ col.toList
  word       : ∀ col ∈ columns, ∀ c ∈ col.toList, isWordChar c = true
  lower      : ∀ col ∈ columns, ∀ c ∈ col.toList, c.toLower = c

namespace IsVocabulary

variable (hv : IsVocabulary columns) (hcol : col ∈ columns)
include hv hcol

theorem ne_nil : col.toList ≠ [] := by
  intro h
  have := hv.underscore col hcol
  simp [h] at this

theorem isIn_iff_words : isIn expr col = true ↔ ∃ w ∈ words expr, col.toList <:+: w := by
  rw [isIn_iff, List.infix_iff_exists_word (hv.word col hcol) (hv.ne_nil hcol)]

theorem map_toLower : col.toList.map Char.toLower = col.toList := by
  conv_rhs => rw [← List.map_id col.toList]
  exact List.map_congr_left (hv.lower col hcol)

theorem isWordIn_iff_words :
    isWordIn expr col = true ↔ ∃ w ∈ words expr, w.map Char.toLower = col.toList := by
  rw [isWordIn, searchWord_iff (hv.word col hcol) (hv.ne_nil hcol), hv.map_toLower hcol]

-- A word without an underscore does not name a column.
theorem not_infix_of_not_mem (h : '_' ∉ w) : ¬col.toList <:+: w :=
  fun hi => h (hi.subset (hv.underscore col hcol))

theorem eq_of_map_toLower (hlower : '_' ∈ w → ∀ c ∈ w, c.toLower = c)
    (h : w.map Char.toLower = col.toList) : w = col.toList := by
  have hmem : '_' ∈ w := by
    have := hv.underscore col hcol
    rw [← h, List.mem_map] at this
    obtain ⟨c, hc, heq⟩ := this
    exact toLower_eq_underscore.mp heq ▸ hc
  rw [← h]
  conv_lhs => rw [← List.map_id w]
  exact (List.map_congr_left (hlower hmem)).symm

end IsVocabulary

end Hyrise
