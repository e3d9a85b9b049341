import VldbArtifacts.Hyrise.Counter
import VldbArtifacts.Hyrise.Theorems.Remap

namespace Hyrise

open CXL

variable {l : Layout} {d : Details} {c c' : Column} {addr : Nat} {ds p : List Char}

theorem prefix_append_space (hp : ' ' ∉ p) (ws : List Char) : p <+: ds ++ ' ' :: ws ↔ p <+: ds := by
  constructor
  case mp =>
    intro h
    obtain h | ⟨rest, rfl⟩ := List.prefix_or_prefix_of_prefix h (List.prefix_append ds _)
    case inl => exact h
    case inr =>
      rw [List.prefix_append_right_inj] at h
      cases rest
      case nil       => simp
      case cons x xs => simp_all
  case mpr => exact (·.trans (List.prefix_append ds _))

theorem take_append_space_eq {w : Nat} {ws : List Char} (hp : ' ' ∉ p) (hw : p.length = w) :
    (ds ++ ' ' :: ws).take w = p ↔ p <+: ds := by
  rw [← prefix_append_space hp ws, List.prefix_iff_eq_take, hw, eq_comm]

theorem Access.line_eq (a : Access) :
    a.line = '0' :: 'x' :: (Nat.toDigits 16 a.addr ++ ' ' :: a.words) :=
  rfl

theorem marked_eq_some_iff : marked addr = some ds ↔
    ∃ x, (x = 'a' ∨ x = 'b') ∧ Nat.toDigits 16 addr = x :: ds := by
  unfold marked
  split
  case h_1 ds' h => simp [h]
  case h_2 ds' h => simp [h]
  case h_3 ha hb =>
    refine ⟨nofun, ?_⟩
    rintro ⟨x, rfl | rfl, h⟩
    case inl => exact absurd h (ha ds)
    case inr => exact absurd h (hb ds)

theorem marked_eq_none (h : marked addr = none) :
    ∃ x rest, x ≠ 'a' ∧ x ≠ 'b' ∧ Nat.toDigits 16 addr = x :: rest := by
  have ⟨e, es, he, _⟩ := exists_toDigits (by decide : 1 < 16) (Nat.le_refl 16) addr
  have hn : ∀ x, (x = 'a' ∨ x = 'b') → e.digitChar ≠ x := by
    rintro x hx rfl
    have := marked_eq_some_iff.mpr ⟨_, hx, he⟩
    rw [h] at this
    contradiction
  exact ⟨_, _, hn 'a' (.inl rfl), hn 'b' (.inr rfl), he⟩

-- The key that a line of the trace counts for.
def Access.key? (w : Nat) (a : Access) : Option (List Char) :=
  (marked a.addr).map fun ds => (ds ++ ' ' :: a.words).take w

theorem counted_insert {m : AList fun _ : List Char => Nat} {k key : List Char} {n : Nat} :
    counted (m.insert k n) key = if key = k then n else counted m key := by
  rw [counted]
  split
  case isTrue h  => rw [h, AList.lookup_insert]; rfl
  case isFalse h => rw [AList.lookup_insert_ne h]; rfl

theorem counted_countLine (w : Nat) (s : Counts) (a : Access) (key : List Char) :
    counted (countLine w s a.line).counter key =
      counted s.counter key + if a.key? w = some key then 1 else 0 := by
  cases h : marked a.addr
  case none =>
    have ⟨x, rest, ha, hb, he⟩ := marked_eq_none h
    simp [countLine, a.line_eq, he, ha, hb, Access.key?, h]
  case some ds =>
    have ⟨x, hx, he⟩ := marked_eq_some_iff.mp h
    have hx' : ['0', 'x', x] = ['0', 'x', 'a'] ∨ ['0', 'x', x] = ['0', 'x', 'b'] := by simpa using hx
    simp only [countLine, a.line_eq, he, List.cons_append, List.take_succ_cons, List.take_zero,
      if_pos hx', counted_insert, Access.key?, h, Option.map_some, Option.some.injEq,
      List.drop_succ_cons, List.drop_zero]
    by_cases hk : key = (ds ++ ' ' :: a.words).take w
    case pos => rw [if_pos hk, if_pos hk.symm, hk]
    case neg => rw [if_neg hk, if_neg (Ne.symm hk)]; rfl

theorem counted_foldl (w : Nat) (as : List Access) (s : Counts) (key : List Char) :
    counted ((as.map Access.line).foldl (countLine w) s).counter key =
      counted s.counter key + as.countP (·.key? w = some key) := by
  induction as generalizing s
  case nil => rfl
  case cons a as ih =>
    rw [List.map_cons, List.foldl_cons, ih, counted_countLine, List.countP_cons, Nat.add_assoc,
      Nat.add_comm (List.countP _ _)]
    simp

theorem lookup_loadTableDetails (columns : List Column) (key : List Char) :
    (loadTableDetails columns).lookup key =
      (columns.find? (searchKey · = key)).map (·.name) := by
  induction columns using List.reverseRecOn
  case nil => rfl
  case append_singleton columns c ih =>
    have : loadTableDetails (columns ++ [c]) =
        (loadTableDetails columns).insertNew (searchKey c) c.name := by
      simp [loadTableDetails]
    rw [this, AList.lookup_insertNew, List.find?_append]
    by_cases hk : searchKey c = key
    case neg =>
      rw [if_neg (hk ·.left.symm), ih]
      simp [hk]
    case pos =>
      have hn : key ∈ loadTableDetails columns ↔ (columns.find? (searchKey · = key)).isSome := by
        rw [← AList.lookup_isSome, ih, Option.isSome_map]
      cases hf : columns.find? (searchKey · = key)
      case none    => simp [hk, hn, hf]
      case some c' => simp [hk, hn, hf, ih]

theorem searchKey_inj (hc : c.columnId < 16) (hc' : c'.columnId < 16) (h : searchKey c = searchKey c') :
    (c.tableId, c.columnId) = (c'.tableId, c'.columnId) := by
  rw [searchKey, searchKey, Nat.toDigits_of_lt_base hc, Nat.toDigits_of_lt_base hc'] at h
  have ⟨ht, hcol⟩ := List.append_inj' h rfl
  have ht : c.tableId = c'.tableId := hexText_injective (by rw [hexText, hexText, ht])
  rw [ht, digitChar_inj _ hc _ hc' (List.head_eq_of_cons_eq hcol)]

namespace Details

theorem eq_of_ids (h : c ∈ d.columns) (h' : c' ∈ d.columns)
    (he : (c.tableId, c.columnId) = (c'.tableId, c'.columnId)) : c = c' :=
  List.inj_on_of_nodup_map d.ids h h' he

theorem eq_of_name (h : c ∈ d.columns) (h' : c' ∈ d.columns) (he : c.name = c'.name) : c = c' :=
  List.inj_on_of_nodup_map d.names h h' he

theorem exists_of_mem_keys {key : List Char} (h : key ∈ (loadTableDetails d.columns).keys) :
    ∃ c ∈ d.columns, searchKey c = key ∧ (loadTableDetails d.columns).lookup key = some c.name := by
  have ⟨name, hname⟩ := Option.isSome_iff_exists.mp (AList.lookup_isSome.mpr (AList.mem_keys.mpr h))
  rw [lookup_loadTableDetails] at hname ⊢
  have ⟨c, hc, _⟩ := Option.map_eq_some_iff.mp hname
  exact ⟨c, List.mem_of_find?_eq_some hc, by simpa using List.find?_some hc, by rw [hc]; rfl⟩

variable (hd : ∀ c ∈ d.columns, c.columnId < 16)

include hd

theorem eq_of_searchKey (h : c ∈ d.columns) (h' : c' ∈ d.columns) (he : searchKey c = searchKey c') :
    c = c' :=
  eq_of_ids h h' (searchKey_inj (hd c h) (hd c' h') he)

theorem lookup_searchKey (h : c ∈ d.columns) :
    (loadTableDetails d.columns).lookup (searchKey c) = some c.name := by
  have hsome : (d.columns.find? (searchKey · = searchKey c)).isSome := by
    rw [List.find?_isSome]
    exact ⟨c, h, by simp⟩
  have ⟨c', hc'⟩ := Option.isSome_iff_exists.mp hsome
  have hk : searchKey c' = searchKey c := by simpa using List.find?_some hc'
  have := eq_of_searchKey hd (List.mem_of_find?_eq_some hc') h hk
  rw [lookup_loadTableDetails, hc', this]
  rfl

-- The only row with the name of a column is that of its key.
theorem reported_countColumns (h : c ∈ d.columns) (w : Nat) (as : List Access) :
    reported (countColumns w d.columns (unlines (as.map Access.line))) c.name =
      some (as.countP (·.key? w = some (searchKey c))) := by
  have hl : split '\n' (unlines (as.map Access.line)) = as.map Access.line :=
    split_unlines (by simpa using fun a _ => a.not_mem_line)
  let s := (as.map Access.line).foldl (countLine w) (.init (loadTableDetails d.columns))
  have hcount : counted s.counter (searchKey c) = as.countP (·.key? w = some (searchKey c)) := by
    rw [counted_foldl]
    exact Nat.zero_add _
  have hf : ((loadTableDetails d.columns).keys.mergeSort (· ≤ ·)).find?
      (fun key => ((loadTableDetails d.columns).lookup key).getD "" = c.name) = some (searchKey c) := by
    have hl := lookup_searchKey hd h
    have hsome : (((loadTableDetails d.columns).keys.mergeSort (· ≤ ·)).find?
        (fun key => ((loadTableDetails d.columns).lookup key).getD "" = c.name)).isSome := by
      rw [List.find?_isSome]
      refine ⟨searchKey c, List.mem_mergeSort.mpr ?_, by simp [hl]⟩
      exact AList.mem_keys.mp (AList.lookup_isSome.mp (hl ▸ rfl))
    have ⟨key, hkey⟩ := Option.isSome_iff_exists.mp hsome
    have ⟨c', hc', hk, hl'⟩ := exists_of_mem_keys (List.mem_mergeSort.mp (List.mem_of_find?_eq_some hkey))
    have hname : c'.name = c.name := by simpa [hl'] using List.find?_some hkey
    rw [hkey, ← hk, eq_of_name hc' h hname]
  simp only [reported, countColumns, hl, List.find?_map, Function.comp_def, hf]
  exact congrArg some hcount

end Details

theorem marked_remap (v : Isolate) {r : Block} (ha : addr < 2 ^ 48)
    (ht : r.tableId.toNat < 16 ^ (v.digits - 13)) (hc : r.columnId.toNat < 16) :
    marked (remap v addr r) = some (Nat.padDigits 16 v.digits
      ((r.tableId.toNat * 16 + r.columnId.toNat) * 16 ^ 12 + addr)) := by
  have hlow : (r.tableId.toNat * 16 + r.columnId.toNat) * 16 ^ 12 + addr < 16 ^ v.digits := by
    cases v
    case hash =>
      change _ < 16 at ht
      change _ < 16 ^ 14
      omega
    case job =>
      change _ < 256 at ht
      change _ < 16 ^ 15
      omega
  rw [remap_eq v ha ht hc, marked_eq_some_iff]
  exact ⟨'a', .inl rfl, Nat.toDigits_lead (d := 10) (by decide) (by decide) hlow nofun⟩

theorem space_not_mem_searchKey (c : Column) : ' ' ∉ searchKey c := by
  have hc : ∀ d < 16, Nat.digitChar d ≠ ' ' := by decide
  have h (n : Nat) : ' ' ∉ Nat.toDigits 16 n := Nat.not_mem_toDigits (by decide) (Nat.le_refl _) hc
  simp [searchKey, h]

theorem searchKey_eq (ht : c.tableId < 16) (hc : c.columnId < 16) :
    searchKey c = [c.tableId.digitChar, c.columnId.digitChar] := by
  rw [searchKey, Nat.toDigits_of_lt_base ht, Nat.toDigits_of_lt_base hc]
  rfl

theorem key?_eq_some_iff {w : Nat} {a : Access} (hw : (searchKey c).length = w) :
    a.key? w = some (searchKey c) ↔ ∃ ds ∈ marked a.addr, searchKey c <+: ds := by
  rw [Access.key?, Option.map_eq_some_iff]
  simp only [take_append_space_eq (space_not_mem_searchKey c) hw, Option.mem_def]

theorem Layout.tagOf?_eq_ids_iff :
    l.tagOf? addr = some (c.tableId, c.columnId) ↔ l.InColumn c addr ∧ ¬l.Hides addr := by
  rw [tagOf?]
  split
  case isTrue h  => simp [h]
  case isFalse h => simp [h, InColumn, Block.IsOf]

theorem countP_add_countP {α : Type} {p q p' q' : α → Bool} {xs : List α}
    (h : ∀ x ∈ xs, (p x).toNat + (q x).toNat = (p' x).toNat + (q' x).toNat) :
    xs.countP p + xs.countP q = xs.countP p' + xs.countP q' := by
  induction xs
  case nil => rfl
  case cons x xs ih =>
    rw [List.forall_mem_cons] at h
    have ih := ih h.right
    have hx := h.left
    have hb (b : Bool) : (if b = true then 1 else 0) = b.toNat := by cases b <;> rfl
    simp only [List.countP_cons, hb]
    omega

section Bridge

variable (hl : ∀ r ∈ l.ranges, r.tableId.toNat < 16 ∧ r.columnId.toNat < 16)

include hl

theorem key?_isolated_iff (ht : c.tableId < 16) (hc : c.columnId < 16) {a : Access}
    (ha : a.addr < 2 ^ 48) :
    (l.isolated .hash a).key? 2 = some (searchKey c) ↔
      l.tagOf? a.addr = some (c.tableId, c.columnId) ∨ l.Strays c a.addr := by
  have hw : (searchKey c).length = 2 := by rw [searchKey_eq ht hc]; rfl
  rw [key?_eq_some_iff hw, Layout.Strays]
  cases htag : l.tagOf? a.addr
  case none => simp [l.tagOf?_eq_none .hash htag]
  case some ids =>
    have ⟨r, hr, hi, he⟩ := l.tagOf?_eq_some .hash htag
    have ⟨hrt, hrc⟩ := hl r hr
    have hm := marked_remap .hash ha (r := r) hrt hrc
    change marked _ = some (Nat.padDigits 16 14 _) at hm
    rw [padDigits_tag hrt hrc ha] at hm
    simp only [he, hm, Option.mem_def, Option.some.injEq, exists_eq_left', reduceCtorEq, false_and,
      or_false, ← hi]
    rw [searchKey_eq ht hc, digitChars_isPrefix hrt hrc ht hc, eq_comm]

-- What is counted for the column: the accesses with its tag and those that look as if they had it.
theorem countP_key? (ht : c.tableId < 16) (hc : c.columnId < 16) {as : List RoiAccess}
    (ha : ∀ a ∈ as, a.addr < 2 ^ 48) :
    (as.map fun a => l.isolated .hash a.toAccess).countP (·.key? 2 = some (searchKey c)) +
        as.countP (fun a => l.Misses c a.addr) =
      as.countP (fun a => l.InColumn c a.addr) + as.countP (fun a => l.Strays c a.addr) := by
  rw [List.countP_map]
  apply countP_add_countP
  intro a hmem
  have hk := key?_isolated_iff hl ht hc (ha a hmem)
  have hs : l.Strays c a.addr → ¬(l.InColumn c a.addr ∧ ¬l.Hides a.addr) := by
    intro hs hi
    rw [← Layout.tagOf?_eq_ids_iff, hs.left] at hi
    contradiction
  rw [Layout.tagOf?_eq_ids_iff] at hk
  simp only [Function.comp_apply, hk, Layout.Misses]
  by_cases hi : l.InColumn c a.addr <;> by_cases hh : l.Hides a.addr <;>
    by_cases hst : l.Strays c a.addr <;> simp_all

end Bridge

-- The counts are right if each column gets as many accesses too many as it gets too few.
theorem counterTraceBridge_exact_iff (l : Layout)
    (hl : ∀ r ∈ l.ranges, r.tableId.toNat < 16 ∧ r.columnId.toNat < 16) (d : Details)
    (hd : ∀ c ∈ d.columns, c.tableId < 16 ∧ c.columnId < 16) (text : List Char) (as : List RoiAccess)
    (htext : split '\n' text = as.map RoiAccess.line) (haddr : ∀ a ∈ as, a.addr < 2 ^ 48) :
    (∀ c ∈ d.columns, ∀ c' ∈ d.columns, searchKey c = searchKey c' → c = c') ∧
    ((∃ out, isolateHash l.ranges text = .ok out ∧ ∀ c ∈ d.columns,
        reported (counterTraceBridge d.columns out) c.name =
          some (as.countP fun a => l.InColumn c a.addr)) ↔
      ∀ c ∈ d.columns,
        as.countP (fun a => l.Strays c a.addr) = as.countP (fun a => l.Misses c a.addr)) := by
  have hcol : ∀ c ∈ d.columns, c.columnId < 16 := fun c hc => (hd c hc).right
  refine ⟨fun c hc c' hc' => d.eq_of_searchKey hcol hc hc', ?_⟩
  have hout := l.isolate_eq .hash htext haddr
  have hrep : ∀ c ∈ d.columns,
      (reported (counterTraceBridge d.columns
          (unlines (as.map fun a => (l.isolated .hash a.toAccess).line))) c.name =
        some (as.countP fun a => l.InColumn c a.addr) ↔
      as.countP (fun a => l.Strays c a.addr) = as.countP (fun a => l.Misses c a.addr)) := by
    intro c hc
    have hr := d.reported_countColumns hcol hc 2 (as.map fun a => l.isolated .hash a.toAccess)
    have hk := countP_key? hl (hd c hc).left (hd c hc).right haddr
    rw [List.map_map] at hr
    rw [counterTraceBridge]
    refine (Eq.congr_left hr).trans ?_
    rw [Option.some.injEq]
    omega
  constructor
  case mp =>
    rintro ⟨out, ho, h⟩ c hc
    obtain rfl := Except.ok.inj (hout.symm.trans ho)
    exact (hrep c hc).mp (h c hc)
  case mpr => exact fun h => ⟨_, hout, fun c hc => (hrep c hc).mpr (h c hc)⟩

-- One column with one range.
def Layout.low : Layout where
  ranges   := [⟨0x1000, 0x2000, 0, 0⟩]
  nonempty := by decide
  below    := by decide
  disjoint := by decide

def Details.custkey : Details where
  columns := [⟨"c_custkey", 0, 0⟩]
  names   := by decide
  ids     := by decide

-- An address in no range is counted because its digits are those of a tag.
theorem counterTraceBridge_stray :
    Layout.low.rangeOf? 0xa00123 = none ∧
    isolateHash Layout.low.ranges "5,R,0xa00123,8\n".toList = .ok "0xa00123 R 5\n".toList ∧
    reported (counterTraceBridge Details.custkey.columns "0xa00123 R 5\n".toList) "c_custkey" =
      some 1 := by
  decide +kernel

theorem counterTraceBridge_low :
    ∃ out, isolateHash Layout.low.ranges "5,R,0x1040,8\n7,W,0x40,8\n".toList = .ok out ∧
      ∀ c ∈ Details.custkey.columns, reported (counterTraceBridge Details.custkey.columns out) c.name =
        some ([(⟨⟨0x1040, .R, 5⟩, 8⟩ : RoiAccess), ⟨⟨0x40, .W, 7⟩, 8⟩].countP
          fun a => Layout.low.InColumn c a.addr) :=
  (counterTraceBridge_exact_iff Layout.low (by decide) Details.custkey (by decide)
    "5,R,0x1040,8\n7,W,0x40,8\n".toList [⟨⟨0x1040, .R, 5⟩, 8⟩, ⟨⟨0x40, .W, 7⟩, 8⟩]
    (by decide +kernel) (by decide)).right.mpr (by decide +kernel)

end Hyrise
