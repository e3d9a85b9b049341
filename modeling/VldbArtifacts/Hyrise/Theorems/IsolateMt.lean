import VldbArtifacts.Hyrise.IsolateMt
import VldbArtifacts.Hyrise.Theorems.Segments

-- The tag is that of the tightest block if there is one. If not, it is that of any segment.

namespace Hyrise

open CXL

variable {segments : List SegmentBlocks} {addr n : Nat}

section Encode

-- The parts of the packed number have no bit in common.
theorem encodeSgmt_eq {chunkId : Nat} (tableId colId : UInt8) (h : chunkId < 2 ^ 48) :
    encodeSgmt tableId chunkId colId = tableId.toNat * 2 ^ 56 + (chunkId * 2 ^ 8 + colId.toNat) := by
  have hc : colId.toNat < 2 ^ 8 := colId.toNat_lt
  have hlow : chunkId * 2 ^ 8 + colId.toNat < 2 ^ 56 := by omega
  have hmod : chunkId <<< 8 % 2 ^ 64 = chunkId <<< 8 := by
    rw [Nat.shiftLeft_eq]
    omega
  rw [encodeSgmt, hmod, Nat.or_assoc, ← Nat.shiftLeft_add_eq_or_of_lt hc, Nat.shiftLeft_eq chunkId,
    ← Nat.shiftLeft_add_eq_or_of_lt hlow, Nat.shiftLeft_eq]

theorem getSegDetails_encodeSgmt {chunkId : Nat} (tableId colId : UInt8) (h : chunkId < 2 ^ 48) :
    getSegDetails (encodeSgmt tableId chunkId colId) = ⟨tableId, chunkId, colId⟩ := by
  have hc : colId.toNat < 2 ^ 8 := colId.toNat_lt
  have ht : tableId.toNat < 2 ^ 8 := tableId.toNat_lt
  have hcol : ∀ m : Nat, m &&& 0xff = m % 2 ^ 8 := fun m => Nat.and_two_pow_sub_one_eq_mod m 8
  have hchunk : ∀ m : Nat, (m &&& 0x00ffffffffffff00) >>> 8 = m / 2 ^ 8 % 2 ^ 48 := by
    intro m
    rw [Nat.shiftRight_and_distrib, Nat.shiftRight_eq_div_pow]
    exact Nat.and_two_pow_sub_one_eq_mod _ 48
  have htable : ∀ m : Nat, (m &&& 0xff00000000000000) >>> 56 = m / 2 ^ 56 % 2 ^ 8 := by
    intro m
    rw [Nat.shiftRight_and_distrib, Nat.shiftRight_eq_div_pow]
    exact Nat.and_two_pow_sub_one_eq_mod _ 8
  rw [getSegDetails, hcol, hchunk, htable, encodeSgmt_eq tableId colId h]
  congr
  · rw [show (tableId.toNat * 2 ^ 56 + (chunkId * 2 ^ 8 + colId.toNat)) / 2 ^ 56 % 2 ^ 8 = tableId.toNat by
      omega]
    exact UInt8.ofNat_toNat
  · omega
  · rw [show (tableId.toNat * 2 ^ 56 + (chunkId * 2 ^ 8 + colId.toNat)) % 2 ^ 8 = colId.toNat by omega]
    exact UInt8.ofNat_toNat

end Encode

section Parse

-- Digits without `0x` in front.
theorem stoull16_toDigits (h : n < 2 ^ 64) : stoull16 (Nat.toDigits 16 n) = .ok n := by
  have ⟨d, ds, hd, hlt, _, hr, hval⟩ := exists_toDigits (by decide : 1 < 16) (Nat.le_refl 16) n
  have hspace : ∀ d < 16, isSpace d.digitChar = false := by decide
  have hsign : ∀ d < 16, d.digitChar ≠ '-' ∧ d.digitChar ≠ '+' := by decide
  have ⟨hminus, hplus⟩ := hsign d hlt
  have hspace := hspace d hlt
  rw [hd]
  -- Only a text of three characters can start with `0x`.
  rcases ds with _ | ⟨e, _ | ⟨f, ds⟩⟩
  all_goals simp only [List.map_nil, List.map_cons] at hr ⊢
  · simp [stoull16, hspace, hminus, hplus, hr, hval]
    exact h
  · simp [stoull16, hspace, hminus, hplus, hr, hval]
    exact h
  · by_cases h₀ : d.digitChar = '0'
    · rw [h₀] at hr hspace
      simp [stoull16, hspace, h₀, hr, hval]
      exact h
    · simp [stoull16, hspace, hminus, hplus, h₀, hr, hval]
      exact h

theorem not_mem_toDigits16 {c : Char} (hc : ∀ d < 16, Nat.digitChar d ≠ c) (n : Nat) :
    c ∉ Nat.toDigits 16 n :=
  Nat.not_mem_toDigits (by decide) (Nat.le_refl _) hc

namespace SegmentBlocks

variable {s : SegmentBlocks} {b : Extent}

theorem not_mem_header {c : Char} (hs : c ∉ ['S', ',']) (hc : ∀ d < 16, Nat.digitChar d ≠ c) : c ∉ s.header := by
  simp only [List.mem_cons, not_or] at hs
  simp [header, not_mem_decText hc, hs]

theorem not_mem_blkLine {c : Char} (hs : c ≠ ',') (hc : ∀ d < 16, Nat.digitChar d ≠ c) (i : Nat) (b : Extent) :
    c ∉ blkLine i b := by
  simp [blkLine, not_mem_decText hc, not_mem_toDigits16 hc, hs]

def encoded (s : SegmentBlocks) : Nat :=
  encodeSgmt (UInt8.ofNat s.tableId) s.chunkId (UInt8.ofNat s.columnId)

theorem addrBlocksLine_header (s : SegmentBlocks) (st : AddrBlocks) :
    addrBlocksLine st s.header = .ok { st with encodedSgmtInfo := s.encoded } := by
  have hcomma : ∀ d < 16, Nat.digitChar d ≠ ',' := by decide
  have hne : decText s.columnId ≠ [] := Nat.toDigits_ne_nil
  have hfind : find ['S'] s.header = some 0 := by simp [header, find]
  have hsplit : split ',' s.header =
      [['S'], decText s.tableId, decText s.chunkId, decText s.columnId] := by
    have : s.header = ['S'] ++ ',' :: (decText s.tableId ++ ',' :: (decText s.chunkId ++ ',' :: decText s.columnId)) :=
      rfl
    rw [this, split_append (by decide), split_append (not_mem_decText hcomma _),
      split_append (not_mem_decText hcomma _), split_singleton (not_mem_decText hcomma _) hne]
  have ht : s.tableId < 256 := Nat.lt_trans s.table_lt (by decide)
  have hk : s.columnId < 256 := Nat.lt_trans s.column_lt (by decide)
  have hc : s.chunkId < 2 ^ 64 := Nat.lt_trans s.chunk_lt (by decide)
  simp [addrBlocksLine, hfind, field, hsplit, stoiU8_decText ht, stoiU8_decText hk, stoull10_decText hc,
    encoded]

-- The line has the bounds of the block, whatever was read before.
def ReadsBlk (ln : List Char) (b : Extent) : Prop :=
  ∀ st : AddrBlocks, addrBlocksLine st ln = .ok { st with
    addrBlks     := st.addrBlks ++ [b]
    mappingIndex := st.mappingIndex ++ [st.encodedSgmtInfo] }

theorem readsBlk_blkLine (hb : b.lo < 2 ^ 64 ∧ b.hi < 2 ^ 64) (i : Nat) : ReadsBlk (blkLine i b) b := by
  intro st
  have hcomma : ∀ d < 16, Nat.digitChar d ≠ ',' := by decide
  have hne : Nat.toDigits 16 b.hi ≠ [] := Nat.toDigits_ne_nil
  have hfind : find ['S'] (blkLine i b) = none :=
    find_eq_none (List.mem_singleton_self _) (not_mem_blkLine (by decide) (by decide) i b)
  have hsplit : split ',' (blkLine i b) = [decText i, Nat.toDigits 16 b.lo, Nat.toDigits 16 b.hi] := by
    rw [blkLine, split_append (not_mem_decText hcomma _), split_append (not_mem_toDigits16 hcomma _),
      split_singleton (not_mem_toDigits16 hcomma _) hne]
  simp [addrBlocksLine, hfind, hsplit, stoull16_toDigits hb.left, stoull16_toDigits hb.right]

theorem foldlM_blks {lns : List (List Char)} {blks : List Extent} (h : List.Forall₂ ReadsBlk lns blks)
    (st : AddrBlocks) :
    lns.foldlM addrBlocksLine st = .ok { st with
      addrBlks     := st.addrBlks ++ blks
      mappingIndex := st.mappingIndex ++ blks.map fun _ => st.encodedSgmtInfo } := by
  induction h generalizing st
  case nil => simp
  case cons h _ ih =>
    rw [List.foldlM_cons, h, Except.ok_bind, ih]
    simp

theorem foldlM_lines (s : SegmentBlocks) (st : AddrBlocks) :
    s.lines.foldlM addrBlocksLine st = .ok
      ⟨st.addrBlks ++ s.blks, st.mappingIndex ++ s.blks.map fun _ => s.encoded, s.encoded⟩ := by
  rw [lines, List.foldlM_cons, addrBlocksLine_header, Except.ok_bind,
    foldlM_blks (.mapIdx fun i b hb => readsBlk_blkLine (s.blks_lt b hb) i)]

end SegmentBlocks

theorem foldlM_segments (segments : List SegmentBlocks) (st : AddrBlocks) :
    ∃ last, (segments.flatMap SegmentBlocks.lines).foldlM addrBlocksLine st = .ok
      ⟨st.addrBlks ++ (blocksOf segments).map Prod.snd,
        st.mappingIndex ++ (blocksOf segments).map (·.1.encoded), last⟩ := by
  induction segments generalizing st
  case nil => exact ⟨st.encodedSgmtInfo, by simp [blocksOf]⟩
  case cons s segments ih =>
    obtain ⟨last, h⟩ := ih ⟨st.addrBlks ++ s.blks, st.mappingIndex ++ s.blks.map fun _ => s.encoded, s.encoded⟩
    refine ⟨last, ?_⟩
    rw [List.flatMap_cons, List.foldlM_append, s.foldlM_lines, Except.ok_bind, h]
    simp [blocksOf, Function.comp_def]

theorem parseAddrBlocks_rangesText (encodedSgmtInfo : Nat) (segments : List SegmentBlocks) :
    ∃ last, parseAddrBlocks encodedSgmtInfo (rangesText segments) = .ok
      ⟨(blocksOf segments).map Prod.snd, (blocksOf segments).map (·.1.encoded), last⟩ := by
  have hnl : ∀ ln ∈ segments.flatMap SegmentBlocks.lines, '\n' ∉ ln := by
    intro ln hln
    obtain ⟨s, _, hln⟩ := List.mem_flatMap.mp hln
    obtain rfl | hln := List.mem_cons.mp hln
    case inl => exact SegmentBlocks.not_mem_header (by decide) (by decide)
    case inr =>
      obtain ⟨i, hi, rfl⟩ := List.mem_mapIdx.mp hln
      exact SegmentBlocks.not_mem_blkLine (by decide) (by decide) _ _
  rw [parseAddrBlocks, rangesText, split_unlines hnl]
  exact foldlM_segments segments ⟨[], [], encodedSgmtInfo⟩

end Parse

section Select

variable {blks : List Extent} {i j : Nat}

theorem mem_getBlkIdx (h : addr < 2 ^ 64) :
    i ∈ getBlkIdx addr blks 0 (2 ^ 64 - 1) ↔ ∃ b, blks[i]? = some b ∧ Covers b addr := by
  rw [getBlkIdx, if_neg (by omega), List.mem_map]
  constructor
  case mp =>
    rintro ⟨⟨b, _⟩, hp, rfl⟩
    obtain ⟨hm, hb⟩ := List.mem_filter.mp hp
    exact ⟨b, List.mem_zipIdx_iff_getElem?.mp hm, of_decide_eq_true hb⟩
  case mpr =>
    rintro ⟨b, hi, hb⟩
    exact ⟨(b, i), List.mem_filter.mpr ⟨List.mem_zipIdx_iff_getElem?.mpr hi, decide_eq_true hb⟩, rfl⟩

theorem getBlkIdx_sorted (addr : Nat) (blks : List Extent) :
    (getBlkIdx addr blks 0 (2 ^ 64 - 1)).Pairwise (· < ·) := by
  rw [getBlkIdx]
  split
  case isTrue  => exact .nil
  case isFalse =>
    have hs : ((blks.zipIdx.filter fun p => Covers p.1 addr).map Prod.snd).Sublist (List.range blks.length) := by
      have := (List.filter_sublist (p := fun p : Extent × Nat => Covers p.1 addr) (l := blks.zipIdx)).map Prod.snd
      rwa [List.zipIdx_map_snd, ← List.range_eq_range'] at this
    exact List.pairwise_lt_range.sublist hs

-- The running minimum is the first of the smallest.
theorem foldl_select (f : Nat → Nat) {is : List Nat} (h : (i :: is).Pairwise (· < ·)) :
    let m := is.foldl (fun m j => if f j < f m then j else m) i
    m ∈ i :: is ∧ ∀ j ∈ i :: is, f m ≤ f j ∧ (j < m → f m < f j) := by
  induction is using List.reverseRecOn
  case nil => simp
  case append_singleton is k ih =>
    rw [← List.cons_append, List.pairwise_append] at h
    obtain ⟨h, _, hk⟩ := h
    obtain ⟨hm, hmin⟩ := ih h
    rw [List.foldl_concat]
    generalize is.foldl (fun m j => if f j < f m then j else m) i = m at hm hmin
    have hmk : m < k := hk m hm k (List.mem_singleton_self k)
    simp only [← List.cons_append, List.forall_mem_append, List.forall_mem_singleton]
    split
    case isTrue hlt =>
      refine ⟨List.mem_append_right _ (List.mem_singleton_self k), fun j hj => ?_, by simp⟩
      have := (hmin j hj).left
      exact ⟨by omega, fun _ => by omega⟩
    case isFalse hge => exact ⟨List.mem_append_left _ hm, hmin, by omega, fun _ => by omega⟩

theorem selectIdx_cons (blks : List Extent) (stale i : Nat) (is : List Nat) :
    selectIdx blks stale (i :: is) =
      is.foldl (fun m j => if blkLength blks j < blkLength blks m then j else m) i := by
  cases is
  case nil => rfl
  case cons j is =>
    rw [selectIdx, List.foldl_cons, if_neg (Nat.lt_irrefl _)]
    exact List.cons_ne_nil j is

theorem selectIdx_getBlkIdx (h : addr < 2 ^ 64) (stale : Nat) (hc : ∃ b ∈ blks, Covers b addr) :
    ∃ b, blks[selectIdx blks stale (getBlkIdx addr blks 0 (2 ^ 64 - 1))]? = some b ∧ Covers b addr ∧
      ∀ j b', blks[j]? = some b' → Covers b' addr →
        blkLength blks (selectIdx blks stale (getBlkIdx addr blks 0 (2 ^ 64 - 1))) ≤ blkLength blks j ∧
        (j < selectIdx blks stale (getBlkIdx addr blks 0 (2 ^ 64 - 1)) →
          blkLength blks (selectIdx blks stale (getBlkIdx addr blks 0 (2 ^ 64 - 1))) < blkLength blks j) := by
  have hmem : ∀ j, j ∈ getBlkIdx addr blks 0 (2 ^ 64 - 1) ↔ ∃ b, blks[j]? = some b ∧ Covers b addr :=
    fun _ => mem_getBlkIdx h
  have hsorted := getBlkIdx_sorted addr blks
  obtain ⟨b, hb, hcov⟩ := hc
  obtain ⟨j, hj⟩ := List.getElem?_of_mem hb
  have hne := (hmem j).mpr ⟨b, hj, hcov⟩
  generalize getBlkIdx addr blks 0 (2 ^ 64 - 1) = is at hmem hsorted hne ⊢
  cases is
  case nil => exact absurd hne List.not_mem_nil
  case cons i is =>
    obtain ⟨hm, hmin⟩ := foldl_select (blkLength blks) hsorted
    rw [selectIdx_cons]
    obtain ⟨b, hb, hcov⟩ := (hmem _).mp hm
    exact ⟨b, hb, hcov, fun j b' hj hb' => hmin j ((hmem j).mpr ⟨b', hj, hb'⟩)⟩

theorem selectIdx_of_not_covers (h : addr < 2 ^ 64) (stale : Nat) (hc : ∀ b ∈ blks, ¬Covers b addr) :
    selectIdx blks stale (getBlkIdx addr blks 0 (2 ^ 64 - 1)) = stale := by
  have : getBlkIdx addr blks 0 (2 ^ 64 - 1) = [] := by
    rw [List.eq_nil_iff_forall_not_mem]
    intro i hi
    obtain ⟨b, hb, hcov⟩ := (mem_getBlkIdx h).mp hi
    exact hc b (List.mem_of_getElem? hb) hcov
  rw [this, selectIdx]

-- A block around an address does not end before it starts.
theorem blkLength_eq {b : Extent} (h : addr < 2 ^ 64) (hi : blks[i]? = some b) (hlt : b.hi < 2 ^ 64)
    (hc : Covers b addr) : blkLength blks i = b.hi - b.lo := by
  obtain ⟨_, _⟩ := hc
  rw [blkLength, hi]
  simp only [Option.map_some, Option.getD_some]
  omega

end Select

section Lines

variable {a : RoiAccess} {blks : List Extent} {index : List Nat}

theorem find_roiLine (a : RoiAccess) : find "Segment".toList a.line = none := by
  have hc : ∀ d < 16, Nat.digitChar d ≠ 'S' := by decide
  have ht : 'S' ∉ a.type.text := a.type.not_mem_text (by decide)
  have hs : 'S' ∉ a.line := by
    simp [RoiAccess.line, not_mem_decText hc, not_mem_hexText (by decide) hc, ht]
  exact find_eq_none (by simp) hs

theorem processLine_line (stale : Nat) (ha : a.addr < 2 ^ 64) (hg : a.gap < 2 ^ 64) :
    processLine stale blks index a.line =
      match index[selectIdx blks stale (getBlkIdx a.addr blks 0 (2 ^ 64 - 1))]? with
      | none             => .error .missingField
      | some encodedSgmt =>
        .ok (({ a.toAccess with addr := sgmtTag a.addr (getSegDetails encodedSgmt) } : Access).line ++ ['\n']) := by
  simp only [processLine, find_roiLine, field, split_roiLine, Option.isSome_none, Bool.false_eq_true, if_false,
    List.getElem?_cons_zero, List.getElem?_cons_succ, Except.ok_bind, stoull10_decText hg, stoull16_hexText ha]
  cases index[selectIdx blks stale (getBlkIdx a.addr blks 0 (2 ^ 64 - 1))]?
  case none   => rfl
  case some e => simp [Access.line, Access.words]

theorem SegmentBlocks.sgmtTag_encoded (s : SegmentBlocks) (addr : Nat) :
    sgmtTag addr (getSegDetails s.encoded) = s.tag addr := by
  have ht : (UInt8.ofNat s.tableId).toNat = s.tableId :=
    UInt8.toNat_ofNat_of_lt (Nat.lt_trans s.table_lt (by decide))
  have hc : (UInt8.ofNat s.columnId).toNat = s.columnId :=
    UInt8.toNat_ofNat_of_lt (Nat.lt_trans s.column_lt (by decide))
  rw [encoded, getSegDetails_encodeSgmt _ _ s.chunk_lt, sgmtTag, tag, ht, hc]

-- A line with an address in some block.
theorem exists_isolated (stale : Nat) (ha : a.addr < 2 ^ 64) (hg : a.gap < 2 ^ 64)
    (hc : ∃ b ∈ blocksOf segments, Covers b.2 a.addr) :
    ∃ a' : Access, processLine stale ((blocksOf segments).map Prod.snd)
        ((blocksOf segments).map (·.1.encoded)) a.line = .ok (a'.line ++ ['\n']) ∧
      IsIsolated segments a.toAccess a' := by
  obtain ⟨b, hb, hcov⟩ := hc
  obtain ⟨e, he, hcov, hmin⟩ := selectIdx_getBlkIdx ha stale ⟨b.2, List.mem_map_of_mem hb, hcov⟩
  have hlt : ∀ b ∈ blocksOf segments, b.2.hi < 2 ^ 64 := by
    intro b hb
    obtain ⟨s, _, hb⟩ := List.mem_flatMap.mp hb
    obtain ⟨e, he, rfl⟩ := List.mem_map.mp hb
    exact (s.blks_lt e he).right
  rw [processLine_line stale ha hg]
  generalize selectIdx ((blocksOf segments).map Prod.snd) stale (getBlkIdx a.addr _ 0 (2 ^ 64 - 1)) = i at he hmin ⊢
  have hlen := blkLength_eq ha he
  rw [List.getElem?_map] at he
  obtain ⟨b, hi, rfl⟩ := Option.map_eq_some_iff.mp he
  refine ⟨{ a.toAccess with addr := b.1.tag a.addr }, ?_, .inl ⟨i, b, ⟨hi, hcov, fun j b' hj hb' => ?_⟩, rfl⟩⟩
  · rw [List.getElem?_map, hi]
    simp only [Option.map_some, b.1.sgmtTag_encoded]
  · have hj' : ((blocksOf segments).map Prod.snd)[j]? = some b'.2 := by rw [List.getElem?_map, hj]; rfl
    have := hmin j b'.2 hj' hb'
    rwa [blkLength_eq ha hj' (hlt b' (List.mem_of_getElem? hj)) hb',
      hlen (hlt b (List.mem_of_getElem? hi)) hcov] at this

theorem flatten_accessLines (as : List Access) :
    (as.map fun a => a.line ++ ['\n']).flatten = unlines (as.map Access.line) := by
  rw [← flatten_lines, List.map_map]
  rfl

end Lines

-- Whatever is in the variables before they are written, the tags are right if there is a block around each address.
theorem isolateMt_isolates_iff (segments : List SegmentBlocks) (text : List Char) (as : List RoiAccess)
    (htext : split '\n' text = as.map RoiAccess.line)
    (has : ∀ a ∈ as, a.addr < 2 ^ 64 ∧ a.gap < 2 ^ 64) :
    (∀ x : Indeterminate, ∃ as' : List Access,
      isolateMt x (rangesText segments) text = .ok (unlines (as'.map Access.line)) ∧
      List.Forall₂ (IsIsolated segments) (as.map (·.toAccess)) as') ↔
    ∀ a ∈ as, ∃ b ∈ blocksOf segments, Covers b.2 a.addr := by
  have hrun : ∀ x : Indeterminate, isolateMt x (rangesText segments) text =
      (do return (← (as.map RoiAccess.line).zipIdx.mapM fun p => processLine (x.selectedIdx p.2)
        ((blocksOf segments).map Prod.snd) ((blocksOf segments).map (·.1.encoded)) p.1).flatten) := by
    intro x
    obtain ⟨last, h⟩ := parseAddrBlocks_rangesText x.encodedSgmtInfo segments
    rw [isolateMt, h, Except.ok_bind, processFile, htext]
  constructor
  case mp =>
    intro h a ha
    by_contra hc
    push Not at hc
    -- The index that is left over may be behind the end of the list.
    obtain ⟨as', h, _⟩ := h ⟨0, fun _ => (blocksOf segments).length⟩
    rw [hrun] at h
    obtain ⟨ys, hys, _⟩ := Except.bind_eq_ok.mp h
    obtain ⟨i, hi⟩ := List.getElem?_of_mem ha
    have hline : (as.map RoiAccess.line)[i]? = some a.line := by rw [List.getElem?_map, hi]; rfl
    obtain ⟨y, hy⟩ := Except.exists_of_mapM hys (a.line, i) (List.mem_zipIdx_iff_getElem?.mpr hline)
    have hstale := selectIdx_of_not_covers (has a ha).left (blocksOf segments).length
      (List.forall_mem_map.mpr hc)
    simp only [processLine_line _ (has a ha).left (has a ha).right, hstale] at hy
    rw [List.getElem?_eq_none (by simp)] at hy
    contradiction
  case mpr =>
    intro hc x
    have hex : ∀ p ∈ as.zipIdx, ∃ a' : Access, processLine (x.selectedIdx p.2)
        ((blocksOf segments).map Prod.snd) ((blocksOf segments).map (·.1.encoded)) p.1.line =
          .ok (a'.line ++ ['\n']) ∧ IsIsolated segments p.1.toAccess a' := by
      intro p hp
      have hmem := List.mem_of_getElem? (List.mem_zipIdx_iff_getElem?.mp hp)
      exact exists_isolated _ (has _ hmem).left (has _ hmem).right (hc _ hmem)
    obtain ⟨as', has'⟩ := List.exists_forall₂ hex
    refine ⟨as', ?_, ?_⟩
    · have hmap : List.Forall₂ (fun p y => processLine (x.selectedIdx p.2) ((blocksOf segments).map Prod.snd)
          ((blocksOf segments).map (·.1.encoded)) p.1 = .ok y) (as.map RoiAccess.line).zipIdx
          (as'.map fun a => a.line ++ ['\n']) := by
        rw [List.zipIdx_map, List.forall₂_map_left_iff, List.forall₂_map_right_iff]
        exact has'.imp fun p a' h => h.left
      rw [hrun, Except.mapM_forall₂ hmap, Except.ok_bind, flatten_accessLines]
      rfl
    · have := has'.imp fun p a' h => h.right
      rw [List.forall₂_map_left_iff]
      rw [← List.zipIdx_map_fst 0 as, List.forall₂_map_left_iff]
      exact this

def SegmentBlocks.outer : SegmentBlocks where
  tableId   := 3
  chunkId   := 1
  columnId  := 5
  blks      := [⟨0x7f0000001000, 0x7f0000003000⟩]
  table_lt  := by decide
  chunk_lt  := by decide
  column_lt := by decide
  blks_lt   := by decide

-- Its block is inside of the other one.
def SegmentBlocks.inner : SegmentBlocks where
  tableId   := 2
  chunkId   := 4
  columnId  := 7
  blks      := [⟨0x7f0000002000, 0x7f0000002040⟩]
  table_lt  := by decide
  chunk_lt  := by decide
  column_lt := by decide
  blks_lt   := by decide

-- The address is in no block. It is tagged with what is at the index that is left over, if there is something.
theorem isolateMt_foreign_tagged :
    (∀ b ∈ blocksOf [.outer, .inner], ¬Covers b.2 0x7f00deadbe00) ∧
    isolateMt ⟨0, fun _ => 1⟩ (rangesText [.outer, .inner]) "4,R,0x7f00deadbe00,8\n".toList =
      .ok "0xa277f00deadbe00 R 4\n".toList ∧
    isolateMt ⟨0, fun _ => 2⟩ (rangesText [.outer, .inner]) "4,R,0x7f00deadbe00,8\n".toList =
      .error .missingField := by
  decide +kernel

-- The second access is in both blocks.
theorem isolateMt_nested :
    (∀ b ∈ blocksOf [.outer, .inner], Covers b.2 0x7f0000002010) ∧
    ∀ x : Indeterminate, ∃ as' : List Access,
      isolateMt x (rangesText [.outer, .inner]) "4,R,0x7f0000001010,8\n7,W,0x7f0000002010,4\n".toList =
        .ok (unlines (as'.map Access.line)) ∧
      List.Forall₂ (IsIsolated [.outer, .inner]) [⟨0x7f0000001010, .R, 4⟩, ⟨0x7f0000002010, .W, 7⟩] as' := by
  constructor
  case left => decide +kernel
  case right =>
    have h := isolateMt_isolates_iff [.outer, .inner] "4,R,0x7f0000001010,8\n7,W,0x7f0000002010,4\n".toList
      [⟨⟨0x7f0000001010, .R, 4⟩, 8⟩, ⟨⟨0x7f0000002010, .W, 7⟩, 4⟩] (by decide +kernel) (by decide)
    exact h.mpr (by decide +kernel)

end Hyrise
