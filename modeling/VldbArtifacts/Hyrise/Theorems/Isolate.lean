import VldbArtifacts.Lib.Except
import VldbArtifacts.Hyrise.Isolate
import VldbArtifacts.Hyrise.Theorems.Trace

namespace Hyrise

open CXL

variable {v : Isolate} {l : Layout} {r r' : Block} {a : Access} {addr : Nat}

theorem lookup_addrTable (ranges : List Block) (k : Nat) :
    (addrTable ranges).lookup k = ranges.reverse.find? (·.startAddr = k) := by
  induction ranges using List.reverseRecOn
  case nil => rfl
  case append_singleton ranges r ih =>
    have : addrTable (ranges ++ [r]) = (addrTable ranges).insert r.startAddr r := by
      simp [addrTable]
    rw [this, List.reverse_append, List.reverse_singleton, List.singleton_append, List.find?_cons]
    by_cases h : r.startAddr = k
    case pos =>
      subst h
      simp
    case neg => simp [AList.lookup_insert_ne (Ne.symm h), ih, h]

namespace Layout

theorem unique (h : r ∈ l.ranges) (h' : r' ∈ l.ranges) (hc : r.Contains addr) (hc' : r'.Contains addr) :
    r = r' := by
  have : Std.Symm fun r r' : Block => r.Before r' ∨ r'.Before r := ⟨fun _ _ => Or.symm⟩
  by_contra hne
  have hd : r.Before r' ∨ r'.Before r := l.disjoint.forall h h' hne
  simp only [Block.Before, Block.Contains] at hd hc hc'
  omega

theorem contains_start (h : r ∈ l.ranges) : r.Contains r.startAddr :=
  ⟨Nat.le_refl _, l.nonempty r h⟩

theorem rangeOf?_eq_some (h : r ∈ l.ranges) (hc : r.Contains addr) : l.rangeOf? addr = some r := by
  have hsome : (l.rangeOf? addr).isSome := by
    rw [rangeOf?, List.find?_isSome]
    exact ⟨r, h, by simpa using hc⟩
  have ⟨r', hr'⟩ := Option.isSome_iff_exists.mp hsome
  have hc' : r'.Contains addr := by simpa using List.find?_some hr'
  rw [hr', l.unique (List.mem_of_find?_eq_some hr') h hc' hc]

theorem rangeOf?_eq_none (h : ∀ r ∈ l.ranges, ¬r.Contains addr) : l.rangeOf? addr = none := by
  simpa [rangeOf?] using h

theorem lookup_addrTable_iff {k : Nat} :
    (addrTable l.ranges).lookup k = some r ↔ r ∈ l.ranges ∧ r.startAddr = k := by
  rw [lookup_addrTable]
  constructor
  case mp =>
    intro h
    exact ⟨List.mem_reverse.mp (List.mem_of_find?_eq_some h), by simpa using List.find?_some h⟩
  case mpr =>
    rintro ⟨h, rfl⟩
    have hsome : (l.ranges.reverse.find? (·.startAddr = r.startAddr)).isSome := by
      rw [List.find?_isSome]
      exact ⟨r, List.mem_reverse.mpr h, by simp⟩
    have ⟨r', hr'⟩ := Option.isSome_iff_exists.mp hsome
    have hm : r' ∈ l.ranges := List.mem_reverse.mp (List.mem_of_find?_eq_some hr')
    have hs : r'.startAddr = r.startAddr := by simpa using List.find?_some hr'
    rw [hr', l.unique hm h (hs ▸ l.contains_start hm) (l.contains_start h)]

theorem mem_table {k : Nat} (h : k ∈ (lookupTable l.ranges)) :
    k = printedKey ∨ ∃ r ∈ l.ranges, r.startAddr = k := by
  apply (AList.mem_insertNew.mp h).imp_right
  intro h
  have ⟨r, hr⟩ := Option.isSome_iff_exists.mp (AList.lookup_isSome.mpr h)
  exact ⟨r, lookup_addrTable_iff.mp hr⟩

theorem lookup_table (h : r ∈ l.ranges) : (lookupTable l.ranges).lookup r.startAddr = some r := by
  have hr := lookup_addrTable_iff.mpr ⟨h, rfl⟩
  rw [lookupTable, AList.lookup_insertNew, if_neg, hr]
  rintro ⟨hk, hn⟩
  exact hn (hk ▸ AList.lookup_isSome.mp (hr ▸ rfl))

theorem lookup_table_printedKey (h : ∀ r ∈ l.ranges, r.startAddr ≠ printedKey) :
    (lookupTable l.ranges).lookup printedKey = some .zero := by
  rw [lookupTable, AList.lookup_insertNew, if_pos]
  refine ⟨rfl, fun hm => ?_⟩
  have ⟨r, hr⟩ := Option.isSome_iff_exists.mp (AList.lookup_isSome.mpr hm)
  have ⟨hm, hk⟩ := lookup_addrTable_iff.mp hr
  exact h r hm hk

theorem floor?_of_contains (h : r ∈ l.ranges) (hc : r.Contains addr)
    (hk : ¬(r.startAddr < printedKey ∧ printedKey ≤ addr)) : (lookupTable l.ranges).floor? addr = some r := by
  apply AList.floor?_eq_some (lookup_table h) hc.left
  intro k hm hle
  obtain rfl | ⟨r', hr', rfl⟩ := mem_table hm
  case inl => omega
  case inr =>
    -- A range that starts behind `r` and up to `addr` would overlap with `r`.
    by_contra hlt
    have hc' : r.Contains r'.startAddr := ⟨by omega, Nat.lt_of_le_of_lt hle hc.right⟩
    have := l.unique h hr' hc' (l.contains_start hr')
    exact hlt (this ▸ Nat.le_refl _)

theorem floor?_of_hides (h : r ∈ l.ranges) (hc : r.Contains addr) (hlt : r.startAddr < printedKey)
    (hle : printedKey ≤ addr) : (lookupTable l.ranges).floor? addr = some .zero := by
  have hr : r.Contains printedKey := ⟨hlt.le, Nat.lt_of_le_of_lt hle hc.right⟩
  have hne : ∀ r' ∈ l.ranges, r'.startAddr ≠ printedKey := by
    intro r' h' he
    have := l.unique h h' hr (he ▸ l.contains_start h')
    exact hlt.ne (this ▸ he)
  apply AList.floor?_eq_some (lookup_table_printedKey hne) hle
  intro k hm hk
  obtain rfl | ⟨r', hr', rfl⟩ := mem_table hm
  case inl => exact Nat.le_refl _
  case inr =>
    by_contra hlt'
    have hc' : r.Contains r'.startAddr := ⟨by omega, Nat.lt_of_le_of_lt hk hc.right⟩
    have := l.unique h hr' hc' (l.contains_start hr')
    exact hlt' (this ▸ hlt.le)

theorem floor?_table (h : (lookupTable l.ranges).floor? addr = some r) : r = .zero ∨ r ∈ l.ranges := by
  have ⟨k, hk⟩ := AList.floor?_mem h
  rw [lookupTable, AList.lookup_insertNew] at hk
  split at hk
  case isTrue  => exact .inl (Option.some.inj hk).symm
  case isFalse => exact .inr (lookup_addrTable_iff.mp hk).left

theorem searchAddrBlocks_table (l : Layout) (addr : Nat) :
    searchAddrBlocks addr (lookupTable l.ranges) =
      if l.Hides addr then .zero else (l.rangeOf? addr).getD .zero := by
  by_cases h : ∃ r ∈ l.ranges, r.Contains addr
  case pos =>
    have ⟨r, hr, hc⟩ := h
    split
    case isTrue hh =>
      have ⟨r, hr, hc, hlt, hle⟩ := hh
      rw [searchAddrBlocks, floor?_of_hides hr hc hlt hle]
      exact ite_self _
    case isFalse hh =>
      have hk : ¬(r.startAddr < printedKey ∧ printedKey ≤ addr) := fun hk => hh ⟨r, hr, hc, hk⟩
      rw [searchAddrBlocks, floor?_of_contains hr hc hk, rangeOf?_eq_some hr hc]
      exact if_pos hc
  case neg =>
    have hn : ∀ r ∈ l.ranges, ¬r.Contains addr := fun r hr hc => h ⟨r, hr, hc⟩
    rw [if_neg fun ⟨r, hr, hc, _⟩ => hn r hr hc, rangeOf?_eq_none hn, searchAddrBlocks]
    split
    case h_1 => rfl
    case h_2 r hr =>
      obtain rfl | hr := floor?_table hr
      case inl => exact ite_self _
      case inr => exact if_neg (hn r hr)

end Layout

theorem le_remap (v : Isolate) (addr : Nat) (h : Block) : v.base ≤ remap v addr h :=
  Nat.right_le_or.trans <| Nat.left_le_or.trans Nat.left_le_or

-- The parts of a tagged address have no bit in common.
theorem or_eq_add {b t c k : Nat} (ha : addr < 2 ^ 48) (hc : c < 16) (ht : (t + 1) * 2 ^ 52 ≤ 2 ^ k) :
    addr ||| b <<< k ||| t <<< 52 ||| c <<< 48 = b * 2 ^ k + (t * 2 ^ 52 + (c * 2 ^ 48 + addr)) := by
  have hsplit : addr ||| b <<< k ||| t <<< 52 ||| c <<< 48 =
      b <<< k ||| (t <<< 52 ||| (c <<< 48 ||| addr)) := by
    rw [Nat.or_comm addr, Nat.or_assoc, Nat.or_assoc, Nat.or_comm addr, Nat.or_assoc]
  have h₁ : c * 2 ^ 48 + addr < 2 ^ 52 := by omega
  have h₂ : t * 2 ^ 52 + (c * 2 ^ 48 + addr) < 2 ^ k :=
    calc t * 2 ^ 52 + (c * 2 ^ 48 + addr) < t * 2 ^ 52 + 2 ^ 52 := Nat.add_lt_add_left h₁ _
      _ = (t + 1) * 2 ^ 52                                      := (Nat.succ_mul t _).symm
      _ ≤ 2 ^ k                                                 := ht
  rw [hsplit, ← Nat.shiftLeft_add_eq_or_of_lt ha, Nat.shiftLeft_eq c,
    ← Nat.shiftLeft_add_eq_or_of_lt h₁, Nat.shiftLeft_eq t, ← Nat.shiftLeft_add_eq_or_of_lt h₂,
    Nat.shiftLeft_eq b]

theorem remap_eq (v : Isolate) (ha : addr < 2 ^ 48) (ht : r.tableId.toNat < 16 ^ (v.digits - 13))
    (hc : r.columnId.toNat < 16) :
    remap v addr r =
      10 * 16 ^ v.digits + ((r.tableId.toNat * 16 + r.columnId.toNat) * 16 ^ 12 + addr) := by
  have he : remap v addr r = 10 * 16 ^ v.digits +
      (r.tableId.toNat * 2 ^ 52 + (r.columnId.toNat * 2 ^ 48 + addr)) := by
    cases v
    case hash =>
      change _ < 16 at ht
      exact or_eq_add (b := 10) (k := 56) ha hc (by omega)
    case job =>
      change _ < 256 at ht
      exact or_eq_add (b := 10) (k := 60) ha hc (by omega)
  rw [he]
  omega

theorem remap_lt (h : addr < 2 ^ 64) : remap v addr r < 2 ^ 64 := by
  have hb : v.base < 2 ^ 64 := by cases v <;> decide
  have ht : r.tableId.toNat <<< 52 < 2 ^ 64 := by
    have := r.tableId.toNat_lt
    rw [Nat.shiftLeft_eq]
    omega
  have hc : r.columnId.toNat <<< 48 < 2 ^ 64 := by
    have := r.columnId.toNat_lt
    rw [Nat.shiftLeft_eq]
    omega
  exact Nat.or_lt_two_pow (Nat.or_lt_two_pow (Nat.or_lt_two_pow h hb) ht) hc

theorem Layout.remapIfFound_table (v : Isolate) (l : Layout) (a : Access) :
    remapIfFound v a.addr (searchAddrBlocks a.addr (lookupTable l.ranges)) = (l.isolated v a).addr := by
  rw [searchAddrBlocks_table, isolated, tagged]
  split
  case isTrue  => rfl
  case isFalse =>
    split
    case h_1 hn   => rw [hn]; rfl
    case h_2 r hr =>
      have := l.nonempty r (List.mem_of_find?_eq_some hr)
      rw [hr, Option.getD_some, remapIfFound, if_pos (.inr (by omega))]

theorem Layout.isolated_type (v : Isolate) (l : Layout) (a : Access) :
    (l.isolated v a).type = a.type ∧ (l.isolated v a).gap = a.gap := by
  rw [isolated, tagged]
  split
  case isTrue  => exact ⟨rfl, rfl⟩
  case isFalse => split <;> exact ⟨rfl, rfl⟩

theorem split_roiLine (a : RoiAccess) :
    split ',' a.line = [decText a.gap, a.type.text, hexText a.addr, decText a.size] := by
  have hc : ∀ d < 16, Nat.digitChar d ≠ ',' := by decide
  have hne : decText a.size ≠ [] := Nat.toDigits_ne_nil
  rw [RoiAccess.line, split_append (not_mem_decText hc _),
    split_append (a.type.not_mem_text (by decide)),
    split_append (not_mem_hexText (by decide) hc _), split_singleton (not_mem_decText hc _) hne]

theorem traceLine_line (v : Isolate) (m : AddrTable) {a : RoiAccess} (h : a.addr < 2 ^ 64) :
    traceLine v m a.line = .ok (a.toAccess.isolatedBy v m).line := by
  rw [traceLine, split_roiLine]
  simp only [stoull16_hexText h, bind, Except.bind]
  rfl

-- For any recorded ranges, also if they overlap.
theorem isolate_eq (v : Isolate) (ranges : List Block) {text : List Char} {as : List RoiAccess}
    (htext : split '\n' text = as.map RoiAccess.line) (haddr : ∀ a ∈ as, a.addr < 2 ^ 64) :
    isolate v ranges text =
      .ok (unlines (as.map fun a => (a.toAccess.isolatedBy v (lookupTable ranges)).line)) := by
  have : (as.map RoiAccess.line).mapM (traceLine v (lookupTable ranges)) =
      .ok (as.map fun a => (a.toAccess.isolatedBy v (lookupTable ranges)).line) := by
    rw [List.mapM_map]
    exact Except.mapM_ok fun a ha => traceLine_line v _ (haddr a ha)
  rw [isolate, parseTraceFile, htext, this]
  rfl

theorem Layout.isolatedBy_table (v : Isolate) (l : Layout) (a : Access) :
    a.isolatedBy v (lookupTable l.ranges) = l.isolated v a := by
  have ⟨ht, hg⟩ := l.isolated_type v a
  rw [Access.isolatedBy, l.remapIfFound_table v a, ← ht, ← hg]

-- What the program computes, with the entry for the printed key.
theorem Layout.isolate_eq (v : Isolate) (l : Layout) {text : List Char} {as : List RoiAccess}
    (htext : split '\n' text = as.map RoiAccess.line) (haddr : ∀ a ∈ as, a.addr < 2 ^ 48) :
    isolate v l.ranges text = .ok (unlines (as.map fun a => (l.isolated v a.toAccess).line)) := by
  rw [Hyrise.isolate_eq v l.ranges htext fun a ha => Nat.lt_trans (haddr a ha) (by decide)]
  simp only [l.isolatedBy_table]

theorem Layout.isolated_eq_tagged_iff (v : Isolate) (l : Layout) (h : a.addr < 2 ^ 48) :
    (l.isolated v a).addr = (l.tagged v a).addr ↔ ¬l.Hides a.addr := by
  constructor
  case mpr => exact fun hh => by rw [isolated, if_neg hh]
  case mp =>
    rintro he ⟨r, hr, hc, hk⟩
    rw [isolated, if_pos ⟨r, hr, hc, hk⟩, tagged, rangeOf?_eq_some hr hc] at he
    have hb : 2 ^ 48 ≤ v.base := by cases v <;> decide
    have := le_remap v a.addr r
    simp only at he
    omega

-- The lines are right unless the entry for the printed key hides the range of an access.
theorem isolate_eq_tagged_iff (v : Isolate) (l : Layout) (text : List Char) (as : List RoiAccess)
    (htext : split '\n' text = as.map RoiAccess.line) (haddr : ∀ a ∈ as, a.addr < 2 ^ 48) :
    isolate v l.ranges text = .ok (unlines (as.map fun a => (l.tagged v a.toAccess).line)) ↔
      ∀ a ∈ as, ¬l.Hides a.addr := by
  rw [l.isolate_eq v htext haddr]
  constructor
  case mp =>
    intro h a ha
    have h := Access.unlines_injective (as.map fun a => l.isolated v a.toAccess)
      (as.map fun a => l.tagged v a.toAccess) (by simpa [Function.comp_def] using h)
    rw [List.map_map, List.map_map, List.map_inj_left] at h
    exact (l.isolated_eq_tagged_iff v (haddr a ha)).mp (h a ha)
  case mpr =>
    intro h
    congr 2
    apply List.map_congr_left
    intro a ha
    rw [Layout.isolated, if_neg (h a ha)]

-- One range around the printed key.
def Layout.around : Layout where
  ranges   := [⟨0x7f61c3a6f600, 0x7f61c3a6f700, 1, 2⟩]
  nonempty := by decide
  below    := by decide
  disjoint := by decide

-- The access is in the range and keeps its address.
theorem isolate_around_untagged :
    Layout.around.rangeOf? 0x7f61c3a6f640 = some ⟨0x7f61c3a6f600, 0x7f61c3a6f700, 1, 2⟩ ∧
    ∀ v : Isolate,
      isolate v Layout.around.ranges "5,R,0x7f61c3a6f640,8\n".toList =
        .ok "0x7f61c3a6f640 R 5\n".toList ∧
      (Layout.around.tagged v ⟨0x7f61c3a6f640, .R, 5⟩).line ≠ "0x7f61c3a6f640 R 5".toList := by
  constructor
  case left => decide +kernel
  case right =>
    intro v
    cases v <;> decide +kernel

theorem isolate_around_tagged :
    isolate .hash Layout.around.ranges "3,W,0x7f61c3a6f610,4\n".toList =
      .ok "0xa127f61c3a6f610 W 3\n".toList := by
  have h := isolate_eq_tagged_iff .hash Layout.around "3,W,0x7f61c3a6f610,4\n".toList
    [⟨⟨0x7f61c3a6f610, .W, 3⟩, 4⟩] (by decide +kernel) (by decide)
  exact (h.mpr (by decide)).trans (by decide +kernel)

end Hyrise
