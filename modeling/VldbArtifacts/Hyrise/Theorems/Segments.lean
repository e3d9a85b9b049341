import VldbArtifacts.Lib.Except
import VldbArtifacts.Hyrise.Segments
import VldbArtifacts.Hyrise.Theorems.Remap

-- What `_seg` writes, `parse_mem_blk_file` reads back.

namespace Hyrise

open CXL

variable {n : Nat}

theorem trim_cons_blank {c : Char} (h : isBlank c) (s : List Char) : trim (c :: s) = trim s := by
  rw [trim, List.dropWhile_cons_of_pos h, trim]

theorem trim_eq_self {s : List Char} (h : ∀ c ∈ s, isBlank c = false) : trim s = s := by
  have hd : s.dropWhile isBlank = s := by
    cases s
    case nil      => rfl
    case cons c s => rw [List.dropWhile_cons_of_neg (by simp [h c])]
  have hr : s.rdropWhile isBlank = s := by
    rw [List.rdropWhile_eq_self_iff]
    intro hne
    simp [h _ (List.getLast_mem hne)]
  rw [trim, hd, hr]

theorem isBlank_digitChar : ∀ d < 16, isBlank d.digitChar = false := by
  decide

theorem trim_decText (n : Nat) : trim (decText n) = decText n := by
  apply trim_eq_self
  have ⟨d, ds, hd, hlt, _⟩ := Nat.exists_digits (by decide : 1 < 10) n
  rw [decText, hd]
  simp only [List.forall_mem_map]
  exact fun x hx => isBlank_digitChar x (Nat.lt_trans (hlt x hx) (by decide))

theorem trim_pointerText (addr : Nat) : trim (pointerText addr) = pointerText addr := by
  apply trim_eq_self
  have ⟨d, ds, hd, hlt, _⟩ := Nat.exists_digits (by decide : 1 < 16) addr
  rw [pointerText]
  split
  case isTrue => exact List.forall_mem_singleton.mpr rfl
  case isFalse =>
    rw [hexText, hd, List.forall_mem_cons, List.forall_mem_cons, List.forall_mem_map]
    exact ⟨by decide, by decide, fun x hx => isBlank_digitChar x (hlt x hx)⟩

theorem readDecimal_decText (n : Nat) : readDecimal (decText n) = some (false, n) := by
  have ⟨d, ds, hd, hlt, _, hr, hval⟩ := exists_toDigits (by decide : 1 < 10) (by decide) n
  have hspace : ∀ d < 10, isSpace d.digitChar = false := by decide
  have hsign : ∀ d < 10, d.digitChar ≠ '-' ∧ d.digitChar ≠ '+' := by decide
  have hs : (decText n).dropWhile isSpace = d.digitChar :: ds.map Nat.digitChar := by
    rw [decText, hd, List.dropWhile_cons_of_neg (by simp [hspace d hlt])]
  simp [readDecimal, hs, hsign d hlt, hr, hval]

theorem stoull10_decText (h : n < 2 ^ 64) : stoull10 (decText n) = .ok n := by
  rw [stoull10, readDecimal_decText]
  simp only [if_neg (Nat.not_le.mpr h), Bool.false_eq_true, if_false]

theorem stoiU8_decText (h : n < 256) : stoiU8 (decText n) = .ok (UInt8.ofNat n) := by
  have hle : ¬(n > 2 ^ 31 ∨ n = 2 ^ 31 ∧ ¬(false = true)) := by omega
  rw [stoiU8, readDecimal_decText]
  exact if_neg hle

theorem stoull16_pointerText (h : n < 2 ^ 64) : stoull16 (pointerText n) = .ok n := by
  rw [pointerText]
  split
  case isTrue h₀  => exact h₀ ▸ rfl
  case isFalse    => exact stoull16_hexText h

theorem not_mem_pointerText {c : Char} (hx : 'x' ≠ c) (hc : ∀ d < 16, Nat.digitChar d ≠ c)
    (addr : Nat) : c ∉ pointerText addr := by
  have h₀ : '0' ≠ c := hc 0 (by decide)
  rw [pointerText]
  split
  case isTrue  => simpa using h₀.symm
  case isFalse => exact not_mem_hexText hx hc addr

theorem field_of_split {delim : Char} {i : Nat} {s w : List Char} (h : (split delim s)[i]? = some w) :
    field delim i s = .ok w := by
  rw [field, h]

-- A range as an entry of the map.
def MemBlk.entry (s : MemBlk) (r : Range) : Sigma fun _ : Nat => HashTableValue :=
  ⟨r.start,
    { startAddr := r.start
      endAddr   := r.start + r.size
      tableId   := s.ids.1
      chunkId   := s.chunkId
      columnId  := s.ids.2 }⟩

def MemBlk.record (s : MemBlk) (rs : List Range) : MemBlk :=
  { s with addrTable := s.addrTable.insertAll (rs.map s.entry) }

-- The line is the one of the range, whatever was read before.
def Records (ln : List Char) (r : Range) : Prop :=
  ∀ details s, memBlkLine details s ln = .ok (s.record [r])

theorem foldlM_records {lns : List (List Char)} {rs : List Range} (h : List.Forall₂ Records lns rs)
    (details : ColumnDetails) (s : MemBlk) :
    lns.foldlM (memBlkLine details) s = .ok (s.record rs) := by
  induction h generalizing s
  case nil => rfl
  case cons h _ ih =>
    rw [List.foldlM_cons, h, Except.ok_bind, ih]
    rfl

section Range

variable {name : List Char} {i : Nat} {r : Range}

theorem not_mem_rangeLine {c : Char} (hn : c ∉ name) (hx : c ∉ ['x', ' ', '(', ')', ':'])
    (hc : ∀ d < 16, Nat.digitChar d ≠ c) : c ∉ rangeLine name i r := by
  simp only [List.mem_cons, not_or] at hx
  have hptr := not_mem_pointerText (Ne.symm hx.left) hc r.start
  simp [rangeLine, not_mem_decText hc, hptr, hn, hx]

-- The name tells the line from a header and from the lines in between.
def IsRangeName (name : List Char) : Prop :=
  (∀ c ∈ [':', '(', 'V', '-', '\n'], c ∉ name) ∧ ('T' ∉ name ∨ 'l' ∉ name)

theorem IsRangeName.not_mem {c : Char} (h : IsRangeName name)
    (hc : c ∈ [':', '(', 'V', '-', '\n']) : c ∉ name :=
  h.left c hc

theorem IsRangeName.find_eq_none (h : IsRangeName name) :
    find "Table".toList (rangeLine name i r) = none ∧ find "-----".toList (rangeLine name i r) = none ∧
      find "VEC".toList (rangeLine name i r) = none := by
  refine ⟨?table, ?dashes, ?vec⟩
  case table =>
    cases h.right
    case inl h =>
      exact Hyrise.find_eq_none (by decide : 'T' ∈ _) (not_mem_rangeLine h (by decide) (by decide))
    case inr h =>
      exact Hyrise.find_eq_none (by decide : 'l' ∈ _) (not_mem_rangeLine h (by decide) (by decide))
  case dashes =>
    exact Hyrise.find_eq_none (by decide : '-' ∈ _)
      (not_mem_rangeLine (h.not_mem (by decide)) (by decide) (by decide))
  case vec =>
    exact Hyrise.find_eq_none (by decide : 'V' ∈ _)
      (not_mem_rangeLine (h.not_mem (by decide)) (by decide) (by decide))

theorem IsRangeName.split_rangeLine (h : IsRangeName name) :
    split ':' (rangeLine name i r) =
      [name ++ ' ' :: (decText i ++ '(' :: (decText r.size ++ [')'])), ' ' :: pointerText r.start] := by
  have hc : ∀ d < 16, Nat.digitChar d ≠ ':' := by decide
  have hcut : rangeLine name i r =
      (name ++ ' ' :: (decText i ++ '(' :: (decText r.size ++ [')']))) ++
        ':' :: ' ' :: pointerText r.start := by
    simp [rangeLine]
  have hname : ':' ∉ name ++ ' ' :: (decText i ++ '(' :: (decText r.size ++ [')'])) := by
    simp [h.not_mem (c := ':') (by decide), not_mem_decText hc]
  have hptr : ':' ∉ ' ' :: pointerText r.start := by
    simp [not_mem_pointerText (by decide) hc]
  rw [hcut, split_append hname, split_singleton hptr (List.cons_ne_nil _ _)]

theorem IsRangeName.split_size (h : IsRangeName name) :
    split '(' (name ++ ' ' :: (decText i ++ '(' :: (decText r.size ++ [')']))) =
      [name ++ ' ' :: decText i, decText r.size ++ [')']] := by
  have hc : ∀ d < 16, Nat.digitChar d ≠ '(' := by decide
  have hcut : name ++ ' ' :: (decText i ++ '(' :: (decText r.size ++ [')'])) =
      (name ++ ' ' :: decText i) ++ '(' :: (decText r.size ++ [')']) := by
    simp
  have hname : '(' ∉ name ++ ' ' :: decText i := by
    simp [h.not_mem (c := '(') (by decide), not_mem_decText hc]
  have hsize : '(' ∉ decText r.size ++ [')'] := by
    simp [not_mem_decText hc]
  rw [hcut, split_append hname, split_singleton hsize (by simp)]

theorem split_decText_paren (n : Nat) : split ')' (decText n ++ [')']) = [decText n] := by
  rw [split_append (not_mem_decText (by decide) n)]
  rfl

theorem IsRangeName.records (h : IsRangeName name) (i : Nat) (r : Range) :
    Records (rangeLine name i r) r := by
  intro details s
  have ⟨htable, hdashes, hvec⟩ := h.find_eq_none (i := i) (r := r)
  have hlt : r.start < 2 ^ 64 := Nat.lt_of_le_of_lt (Nat.le_add_right _ _) r.fits
  have hlt' : r.size < 2 ^ 64 := Nat.lt_of_le_of_lt (Nat.le_add_left _ _) r.fits
  have hptr : field ':' 1 (rangeLine name i r) = .ok (' ' :: pointerText r.start) :=
    field_of_split (by rw [h.split_rangeLine]; rfl)
  have hname : field ':' 0 (rangeLine name i r) = .ok _ :=
    field_of_split (by rw [h.split_rangeLine]; rfl)
  have hrest := field_of_split (i := 1) (by rw [h.split_size (i := i) (r := r)]; rfl)
  have hsize := field_of_split (i := 0) (by rw [split_decText_paren r.size]; rfl)
  rw [memBlkLine, htable, hdashes, hvec]
  simp only [Option.isSome_none, Bool.false_eq_true, or_self, if_false, memBlkRange, hptr, hname,
    hrest, hsize, Except.ok_bind, trim_cons_blank (by decide : isBlank ' '), trim_pointerText,
    stoull16_pointerText hlt, stoull10_decText hlt', Nat.mod_eq_of_lt r.fits]
  rfl

theorem IsRangeName.not_mem_newline (h : IsRangeName name) : '\n' ∉ rangeLine name i r :=
  not_mem_rangeLine (h.not_mem (by decide)) (by decide) (by decide)

theorem DataType.isRangeName (t : DataType) : IsRangeName t.name := by
  cases t <;> exact ⟨by simp [name], by simp [name]⟩

theorem VectorType.isRangeName (t : VectorType) : IsRangeName t.name := by
  cases t <;> exact ⟨by simp [name], by simp [name]⟩

theorem isRangeName_string : IsRangeName "String".toList :=
  ⟨by simp, by simp⟩

end Range

theorem Dictionary.records (d : Dictionary) : List.Forall₂ Records d.lines d.ranges := by
  cases d
  case values type v => exact .cons (type.isRangeName.records 0 v.range) .nil
  case strings rs    => exact .mapIdx fun i r _ => isRangeName_string.records i r

theorem AttributeVector.records (v : AttributeVector) : Records v.line v.values.range :=
  v.type.isRangeName.records 0 v.values.range

theorem Dictionary.not_mem_lines (d : Dictionary) : ∀ ln ∈ d.lines, '\n' ∉ ln := by
  cases d
  case values type v => simpa [lines] using type.isRangeName.not_mem_newline
  case strings rs    =>
    intro ln hln
    have ⟨i, hi, he⟩ := List.mem_mapIdx.mp hln
    exact he ▸ isRangeName_string.not_mem_newline

def Column.entry (c : Column) : Sigma fun _ : List Char => UInt8 × UInt8 :=
  ⟨c.name.toList, c.ids⟩

namespace Catalog

variable {d : Catalog} {c : Column} {details : List Char}

theorem columnDetailsLine_line (hc : c ∈ d.columns) (m : ColumnDetails) :
    columnDetailsLine m c.line = .ok (m.insert c.name.toList c.ids) := by
  have hcomma : ∀ d < 16, Nat.digitChar d ≠ ',' := by decide
  have hs : split ',' c.line = [c.name.toList, decText c.tableId, decText c.columnId] := by
    rw [Column.line, split_append (d.plain c hc).left.left, split_append (not_mem_decText hcomma _),
      split_singleton (not_mem_decText hcomma _) Nat.toDigits_ne_nil]
  have ⟨htable, hcolumn⟩ := d.ids c hc
  simp only [columnDetailsLine, hs, stoiU8_decText htable, stoiU8_decText hcolumn, Except.ok_bind]
  rfl

theorem foldlM_columnDetailsLine {cs : List Column} (h : cs ⊆ d.columns) (m : ColumnDetails) :
    (cs.map Column.line).foldlM columnDetailsLine m = .ok (m.insertAll (cs.map Column.entry)) := by
  induction cs generalizing m
  case nil => rfl
  case cons c cs ih =>
    rw [List.cons_subset] at h
    rw [List.map_cons, List.foldlM_cons, columnDetailsLine_line h.left, Except.ok_bind, ih h.right]
    rfl

theorem nodup_entries (d : Catalog) : ((d.columns.map Column.entry).map Sigma.fst).Nodup := by
  have h := d.names.map fun _ _ h => String.toList_injective h
  simpa [Function.comp_def, Column.entry] using h

theorem isText_unlines (d : Catalog) : d.IsText (unlines (d.columns.map Column.line)) := by
  apply split_unlines
  simp only [List.forall_mem_map]
  intro c hc
  have hd : ∀ d < 16, Nat.digitChar d ≠ '\n' := by decide
  simp [Column.line, (d.plain c hc).left.right.right, not_mem_decText hd]

theorem exists_parseColumnDetails (h : d.IsText details) :
    ∃ m, parseColumnDetails details = .ok m ∧
      ∀ c ∈ d.columns, m.lookup c.name.toList = some c.ids := by
  exists AList.insertAll ∅ (d.columns.map Column.entry)
  constructor
  case left =>
    rw [parseColumnDetails, h, foldlM_columnDetailsLine (List.Subset.refl _)]
  case right =>
    intro c hc
    apply AList.mem_lookup_iff.mpr
    apply (AList.entries_insertAll_empty d.nodup_entries).mem_iff.mpr
    exact List.mem_map_of_mem hc

end Catalog

section Header

variable {tableName columnName : List Char} {chunkId : Nat}

theorem find_headerLine : (find "Table".toList (headerLine tableName chunkId columnName)).isSome := by
  delta headerLine
  simp [find]

theorem split_headerLine_colon (ht : Plain tableName) (hc : Plain columnName) :
    split ':' (headerLine tableName chunkId columnName) =
      ["Table".toList, ' ' :: (tableName ++ ", Chunk".toList),
        ' ' :: (decText chunkId ++ ", Column".toList), ' ' :: columnName] := by
  have hcut : headerLine tableName chunkId columnName =
      "Table".toList ++ ':' :: ((' ' :: (tableName ++ ", Chunk".toList)) ++
        ':' :: ((' ' :: (decText chunkId ++ ", Column".toList)) ++ ':' :: ' ' :: columnName)) := by
    delta headerLine
    simp
  have htable : ':' ∉ ' ' :: (tableName ++ ", Chunk".toList) := by
    simp [ht.right.left]
  have hchunk : ':' ∉ ' ' :: (decText chunkId ++ ", Column".toList) := by
    simp [not_mem_decText (by decide : ∀ d < 16, Nat.digitChar d ≠ ':')]
  have hcolumn : ':' ∉ ' ' :: columnName := by
    simp [hc.right.left]
  rw [hcut, split_append (by decide), split_append htable, split_append hchunk,
    split_singleton hcolumn (List.cons_ne_nil _ _)]

theorem split_headerLine_comma (ht : Plain tableName) (hc : Plain columnName) :
    split ',' (headerLine tableName chunkId columnName) =
      ["Table: ".toList ++ tableName, " Chunk: ".toList ++ decText chunkId,
        " Column: ".toList ++ columnName] := by
  have hcut : headerLine tableName chunkId columnName =
      ("Table: ".toList ++ tableName) ++ ',' :: ((" Chunk: ".toList ++ decText chunkId) ++
        ',' :: (" Column: ".toList ++ columnName)) := by
    delta headerLine
    simp
  have htable : ',' ∉ "Table: ".toList ++ tableName := by
    simp [ht.left]
  have hchunk : ',' ∉ " Chunk: ".toList ++ decText chunkId := by
    simp [not_mem_decText (by decide : ∀ d < 16, Nat.digitChar d ≠ ',')]
  have hcolumn : ',' ∉ " Column: ".toList ++ columnName := by
    simp [hc.left]
  rw [hcut, split_append htable, split_append hchunk, split_singleton hcolumn (by simp)]

theorem split_chunk (chunkId : Nat) :
    split ':' (" Chunk: ".toList ++ decText chunkId) = [" Chunk".toList, ' ' :: decText chunkId] := by
  have hcut : " Chunk: ".toList ++ decText chunkId =
      " Chunk".toList ++ ':' :: ' ' :: decText chunkId := by
    simp
  have hchunk : ':' ∉ ' ' :: decText chunkId := by
    simp [not_mem_decText (by decide : ∀ d < 16, Nat.digitChar d ≠ ':')]
  rw [hcut, split_append (by decide), split_singleton hchunk (List.cons_ne_nil _ _)]

theorem not_mem_headerLine (ht : Plain tableName) (hc : Plain columnName) :
    '\n' ∉ headerLine tableName chunkId columnName := by
  have hd := not_mem_decText (by decide : ∀ d < 16, Nat.digitChar d ≠ '\n') chunkId
  delta headerLine
  simp [ht.right.right, hc.right.right, hd]

theorem memBlkLine_headerLine (ht : Plain tableName) (hc : Plain columnName)
    (htrim : trim columnName = columnName) (hlt : chunkId < 2 ^ 32) {details : ColumnDetails}
    {ids : UInt8 × UInt8} (hids : details.lookup columnName = some ids) (s : MemBlk) :
    memBlkLine details s (headerLine tableName chunkId columnName) = .ok { s with ids, chunkId } := by
  have hcolumn : field ':' 3 (headerLine tableName chunkId columnName) = .ok (' ' :: columnName) :=
    field_of_split (by rw [split_headerLine_colon ht hc]; rfl)
  have hchunk : field ',' 1 (headerLine tableName chunkId columnName) = .ok _ :=
    field_of_split (by rw [split_headerLine_comma ht hc]; rfl)
  have hnumber := field_of_split (i := 1) (by rw [split_chunk chunkId]; rfl)
  have hlt' : chunkId < 2 ^ 64 := Nat.lt_trans hlt (by decide)
  rw [memBlkLine, if_pos find_headerLine]
  simp only [memBlkHeader, hcolumn, hchunk, hnumber, Except.ok_bind,
    trim_cons_blank (by decide : isBlank ' ') (decText _), trim_decText, stoull10_decText hlt']
  rw [trim_cons_blank (by decide), htrim, hids]
  rfl

end Header

namespace Segment

def entry (s : Segment) (r : Range) : Sigma fun _ : Nat => HashTableValue :=
  ⟨r.start,
    { startAddr := r.start
      endAddr   := r.start + r.size
      tableId   := s.column.ids.1
      chunkId   := s.chunkId
      columnId  := s.column.ids.2 }⟩

-- One entry for each of the ranges.
def entries (s : Segment) : List (Sigma fun _ : Nat => HashTableValue) :=
  s.ranges.map s.entry

variable {d : Catalog} {s : Segment}

theorem not_mem_lines (hs : s.column ∈ d.columns) : ∀ ln ∈ s.lines, '\n' ∉ ln := by
  have hheader : '\n' ∉ headerLine s.tableName s.chunkId s.column.name.toList :=
    not_mem_headerLine s.plain (d.plain _ hs).left
  have hvector : '\n' ∉ s.vector.line := s.vector.type.isRangeName.not_mem_newline
  simpa [lines, or_imp, forall_and, hheader, hvector] using s.dictionary.not_mem_lines

theorem foldlM_lines {details : ColumnDetails} (hs : s.column ∈ d.columns)
    (hd : details.lookup s.column.name.toList = some s.column.ids) (m : MemBlk) :
    ∃ m', s.lines.foldlM (memBlkLine details) m = .ok m' ∧
      m'.addrTable = m.addrTable.insertAll s.entries := by
  have ⟨hplain, htrim⟩ := d.plain _ hs
  have hheader := memBlkLine_headerLine s.plain hplain htrim s.chunk_lt hd m
  have hdashes : ∀ m, memBlkLine details m "-----".toList = .ok m := fun _ => rfl
  have hvec : ∀ m, memBlkLine details m "VEC".toList = .ok m := fun _ => rfl
  have hdict := foldlM_records s.dictionary.records details
  simp only [lines, List.cons_append, List.foldlM_cons, List.foldlM_append, hheader, hdashes, hvec,
    hdict, s.vector.records details, Except.ok_bind, List.foldlM_nil]
  exact ⟨_, rfl, by simp [MemBlk.record, entries, ranges, AList.insertAll_append]; rfl⟩

theorem foldlM_segments {details : ColumnDetails} {segments : List Segment}
    (hd : ∀ c ∈ d.columns, details.lookup c.name.toList = some c.ids)
    (hs : ∀ s ∈ segments, s.column ∈ d.columns) (m : MemBlk) :
    ∃ m', (segments.flatMap lines).foldlM (memBlkLine details) m = .ok m' ∧
      m'.addrTable = m.addrTable.insertAll (segments.flatMap entries) := by
  induction segments generalizing m
  case nil => exact ⟨m, rfl, rfl⟩
  case cons s segments ih =>
    rw [List.forall_mem_cons] at hs
    have ⟨m₁, h₁, ht₁⟩ := foldlM_lines hs.left (hd _ hs.left) m
    have ⟨m₂, h₂, ht₂⟩ := ih hs.right m₁
    exists m₂
    rw [List.flatMap_cons, List.foldlM_append, h₁, Except.ok_bind, List.flatMap_cons,
      AList.insertAll_append, ← ht₁]
    exact ⟨h₂, ht₂⟩

end Segment

theorem parseMemBlkFile_memBlkText (d : Catalog) {details : List Char} (hd : d.IsText details)
    {segments : List Segment} (hs : ∀ s ∈ segments, s.column ∈ d.columns)
    (hn : ((segments.flatMap Segment.ranges).map Range.start).Nodup) :
    ∃ addrTable, parseMemBlkFile details (memBlkText segments) = .ok addrTable ∧
      addrTable.entries.Perm (segments.flatMap Segment.entries) := by
  have ⟨m, hm, hlookup⟩ := d.exists_parseColumnDetails hd
  have ⟨s, hfold, htable⟩ := Segment.foldlM_segments hlookup hs {}
  have hlines : split '\n' (memBlkText segments) = segments.flatMap Segment.lines := by
    apply split_unlines
    simp only [List.mem_flatMap]
    rintro ln ⟨s, hs', hln⟩
    exact Segment.not_mem_lines (hs s hs') ln hln
  have hkeys : (segments.flatMap Segment.entries).map Sigma.fst =
      (segments.flatMap Segment.ranges).map Range.start := by
    simp [List.map_flatMap, Segment.entries, Segment.entry, Function.comp_def]
  exists s.addrTable
  constructor
  case left =>
    rw [parseMemBlkFile, hm, Except.ok_bind, hlines, hfold]
    rfl
  case right =>
    rw [htable]
    exact AList.entries_insertAll_empty (hkeys ▸ hn)

-- The columns of details.dat.
def Catalog.tpch : Catalog where
  columns :=
    [⟨"c_custkey", 0, 0⟩, ⟨"c_name", 0, 1⟩, ⟨"c_address", 0, 2⟩, ⟨"c_nationkey", 0, 3⟩,
     ⟨"c_phone", 0, 4⟩, ⟨"c_acctbal", 0, 5⟩, ⟨"c_mktsegment", 0, 6⟩, ⟨"c_comment", 0, 7⟩,
     ⟨"o_orderkey", 1, 0⟩, ⟨"o_custkey", 1, 1⟩, ⟨"o_orderstatus", 1, 2⟩, ⟨"o_totalprice", 1, 3⟩,
     ⟨"o_orderdate", 1, 4⟩, ⟨"o_orderpriority", 1, 5⟩, ⟨"o_clerk", 1, 6⟩,
     ⟨"o_shippriority", 1, 7⟩, ⟨"o_comment", 1, 8⟩, ⟨"l_orderkey", 2, 0⟩, ⟨"l_partkey", 2, 1⟩,
     ⟨"l_suppkey", 2, 2⟩, ⟨"l_linenumber", 2, 3⟩, ⟨"l_quantity", 2, 4⟩,
     ⟨"l_extendedprice", 2, 5⟩, ⟨"l_discount", 2, 6⟩, ⟨"l_tax", 2, 7⟩, ⟨"l_returnflag", 2, 8⟩,
     ⟨"l_linestatus", 2, 9⟩, ⟨"l_shipdate", 2, 10⟩, ⟨"l_commitdate", 2, 11⟩,
     ⟨"l_receiptdate", 2, 12⟩, ⟨"l_shipinstruct", 2, 13⟩, ⟨"l_shipmode", 2, 14⟩,
     ⟨"l_comment", 2, 15⟩, ⟨"p_partkey", 3, 0⟩, ⟨"p_name", 3, 1⟩, ⟨"p_mfgr", 3, 2⟩,
     ⟨"p_brand", 3, 3⟩, ⟨"p_type", 3, 4⟩, ⟨"p_size", 3, 5⟩, ⟨"p_container", 3, 6⟩,
     ⟨"p_retailprice", 3, 7⟩, ⟨"p_comment", 3, 8⟩, ⟨"ps_partkey", 4, 0⟩, ⟨"ps_suppkey", 4, 1⟩,
     ⟨"ps_availqty", 4, 2⟩, ⟨"ps_supplycost", 4, 3⟩, ⟨"ps_comment", 4, 4⟩, ⟨"s_suppkey", 5, 0⟩,
     ⟨"s_name", 5, 1⟩, ⟨"s_address", 5, 2⟩, ⟨"s_nationkey", 5, 3⟩, ⟨"s_phone", 5, 4⟩,
     ⟨"s_acctbal", 5, 5⟩, ⟨"s_comment", 5, 6⟩, ⟨"n_nationkey", 6, 0⟩, ⟨"n_name", 6, 1⟩,
     ⟨"n_regionkey", 6, 2⟩, ⟨"n_comment", 6, 3⟩, ⟨"r_regionkey", 7, 0⟩, ⟨"r_name", 7, 1⟩,
     ⟨"r_comment", 7, 2⟩]
  names := by decide +kernel
  plain := by decide +kernel
  ids   := by decide +kernel

-- The vector of the first segment is empty and has no memory.
def customerSegments : List Segment :=
  [{ tableName  := "customer".toList
     chunkId    := 0
     column     := ⟨"c_custkey", 0, 0⟩
     dictionary := .values .int ⟨0x7f3a10, 25, by decide⟩
     vector     := ⟨.uint8, ⟨0, 0, by decide⟩⟩
     plain      := by decide
     chunk_lt   := by decide },
   { tableName  := "customer".toList
     chunkId    := 17
     column     := ⟨"c_name", 0, 1⟩
     dictionary := .strings [⟨0x7f4000, 18, by decide⟩, ⟨0x7f4020, 0, by decide⟩]
     vector     := ⟨.uint16, ⟨0x7f5000, 65535, by decide⟩⟩
     plain      := by decide
     chunk_lt   := by decide }]

theorem parseMemBlkFile_customerSegments :
    ∃ addrTable, parseMemBlkFile (unlines (Catalog.tpch.columns.map Column.line))
        (memBlkText customerSegments) = .ok addrTable ∧
      addrTable.entries.Perm
        [⟨0x7f3a10, ⟨0x7f3a10, 0x7f3a74, 0, 0, 0⟩⟩, ⟨0, ⟨0, 0, 0, 0, 0⟩⟩,
          ⟨0x7f4000, ⟨0x7f4000, 0x7f4012, 0, 17, 1⟩⟩, ⟨0x7f4020, ⟨0x7f4020, 0x7f4020, 0, 17, 1⟩⟩,
          ⟨0x7f5000, ⟨0x7f5000, 0x814ffe, 0, 17, 1⟩⟩] := by
  apply parseMemBlkFile_memBlkText Catalog.tpch Catalog.tpch.isText_unlines
  · decide +kernel
  · decide +kernel

end Hyrise
