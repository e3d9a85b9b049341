import VldbArtifacts.Lib.Forall
import VldbArtifacts.Hyrise.Remap
import VldbArtifacts.Hyrise.Theorems.Isolate

namespace Hyrise

open CXL

variable {c : Char} {s t rest : List Char}

theorem blanketReplace_of_not_mem (h : 'x' ∉ s) : blanketReplace s = s := by
  fun_induction blanketReplace s
  case case1 => simp at h
  case case2 ih => rw [ih (List.not_mem_of_not_mem_cons h)]
  case case3 => rfl

theorem blanketReplace_append (s t : List Char) :
    blanketReplace (s ++ '\n' :: t) = blanketReplace s ++ '\n' :: blanketReplace t := by
  fun_induction blanketReplace s
  case case1 cs ih => simp [blanketReplace, ih]
  case case2 c cs hne ih =>
    rw [List.cons_append, blanketReplace, ih, List.cons_append]
    -- The newline does not complete a match.
    rintro cs' rfl h
    rcases cs with _ | ⟨x, _ | ⟨y, cs⟩⟩
    · simp at h
    · simp at h
    · simp only [List.cons_append, List.cons.injEq] at h
      exact hne cs rfl (by rw [h.left, h.right.left])
  case case3 => simp [blanketReplace]

theorem blanketReplace_unlines (ls : List (List Char)) :
    blanketReplace (unlines ls) = unlines (ls.map blanketReplace) := by
  induction ls
  case nil          => rfl
  case cons l ls ih => rw [unlines_cons, blanketReplace_append, ih, List.map_cons, unlines_cons]

theorem mem_of_mem_blanketReplace (h : c ∈ blanketReplace s) (hb : c ≠ 'b') : c ∈ s := by
  fun_induction blanketReplace s
  case case1 cs ih    => simp only [List.mem_cons] at h ⊢; tauto
  case case2 d cs _ ih => simp only [List.mem_cons] at h ⊢; tauto
  case case3          => exact h

theorem blanketReplace_hex (h : 'x' ∉ c :: rest) :
    blanketReplace ('0' :: 'x' :: c :: rest) = '0' :: 'x' :: (if c = 'a' then 'b' else c) :: rest := by
  by_cases hc : c = 'a'
  case pos =>
    subst hc
    rw [blanketReplace, blanketReplace_of_not_mem (List.not_mem_of_not_mem_cons h), if_pos rfl]
  case neg =>
    rw [blanketReplace, blanketReplace, blanketReplace_of_not_mem h, if_neg hc]
    · simp
    · simpa using hc

theorem find_eq_none {c : Char} (hs : c ∈ s) (ht : c ∉ t) : find s t = none := by
  induction t
  case nil =>
    rw [find, if_neg (List.ne_nil_of_mem hs)]
  case cons d t ih =>
    have : ¬s.isPrefixOf (d :: t) := fun h => ht ((List.isPrefixOf_iff_prefix.mp h).subset hs)
    rw [find, if_neg this, ih (List.not_mem_of_not_mem_cons ht)]
    rfl

-- The only match in a line of the trace is at its start.
theorem find_hex (h : 'x' ∉ rest) :
    find ('0' :: 'x' :: s) ('0' :: 'x' :: rest) = if s.isPrefixOf rest then some 0 else none := by
  have : find ('0' :: 'x' :: s) rest = none := find_eq_none (by simp) h
  simp [find, this]

theorem replaceInLine_hex (h : 'x' ∉ rest) (ids : Nat × Nat) :
    replaceInLine ('0' :: 'x' :: 'b' :: rest) (remapTerm ids).1 (remapTerm ids).2 =
      if columnDigits ids <+: rest then some ('0' :: 'x' :: 'a' :: rest) else none := by
  have h' : 'x' ∉ 'b' :: rest := by simpa using h
  have he : ('b' :: columnDigits ids).isPrefixOf ('b' :: rest) ↔ columnDigits ids <+: rest := by
    rw [List.isPrefixOf_iff_prefix, List.cons_prefix_cons, and_iff_right rfl]
  rw [replaceInLine, remapTerm, find_hex h']
  simp only [he]
  split
  case isTrue hp =>
    obtain ⟨rest', rfl⟩ := hp
    simp
  case isFalse => rfl

theorem findSome?_hex (h : 'x' ∉ rest) (ids : List (Nat × Nat)) :
    (ids.map remapTerm).findSome?
        (fun s => replaceInLine ('0' :: 'x' :: 'b' :: rest) s.1 s.2) =
      if ∃ i ∈ ids, columnDigits i <+: rest then some ('0' :: 'x' :: 'a' :: rest) else none := by
  induction ids
  case nil => simp
  case cons i ids ih =>
    rw [List.map_cons, List.findSome?_cons, replaceInLine_hex h]
    by_cases hi : columnDigits i <+: rest
    case pos => simp [hi]
    case neg => simp only [hi, if_false, ih, List.exists_mem_cons_iff, false_or]

theorem replaceLine_hex (h : 'x' ∉ rest) (ids : List (Nat × Nat)) :
    replaceLine (ids.map remapTerm) ('0' :: 'x' :: 'b' :: rest) =
      '0' :: 'x' :: (if ∃ i ∈ ids, columnDigits i <+: rest then 'a' else 'b') :: rest := by
  have h' : 'x' ∉ 'b' :: rest := by simpa using h
  have hb : (find ['0', 'x', 'b'] ('0' :: 'x' :: 'b' :: rest)).isSome := by
    rw [find_hex h']
    rfl
  rw [replaceLine, if_pos (.inr hb), findSome?_hex h]
  split <;> rfl

theorem replaceLine_of_ne (h : 'x' ∉ c :: rest) (ha : c ≠ 'a') (hb : c ≠ 'b')
    (terms : List (List Char × List Char)) :
    replaceLine terms ('0' :: 'x' :: c :: rest) = '0' :: 'x' :: c :: rest := by
  rw [replaceLine, if_neg]
  simp [find_hex h, Ne.symm ha, Ne.symm hb]

section Lead

variable {a : Access} {d k r : Nat}

theorem remapLine_of_ne (ids : List (Nat × Nat)) (ha : a.addr = d * 16 ^ k + r) (hd : d < 16)
    (hr : r < 16 ^ k) (h₀ : d = 0 → k = 0) (h₁₀ : d ≠ 10) (h₁₁ : d ≠ 11) :
    remapLine ids a.line = a.line := by
  have hx : ∀ d < 16, d ≠ 10 → d ≠ 11 →
      d.digitChar ≠ 'x' ∧ d.digitChar ≠ 'a' ∧ d.digitChar ≠ 'b' := by decide
  have ⟨hx, ha', hb'⟩ := hx d hd h₁₀ h₁₁
  have hn : 'x' ∉ d.digitChar :: (Nat.padDigits 16 k r ++ ' ' :: a.words) :=
    List.not_mem_cons_of_ne_of_not_mem hx.symm (a.not_mem_lead k r)
  rw [remapLine, a.line_lead ha hd hr h₀, blanketReplace_hex hn, if_neg ha',
    replaceLine_of_ne hn ha' hb']

-- The first digit is set to the memory of the column.
theorem remapLine_lead (ids : List (Nat × Nat)) (ha : a.addr = d * 16 ^ k + r) (hr : r < 16 ^ k)
    (hd : d = 10 ∨ d = 11) :
    remapLine ids a.line = ({ a with addr :=
      (if ∃ i ∈ ids, columnDigits i <+: Nat.padDigits 16 k r ++ ' ' :: a.words then 10 else 11) * 16 ^ k + r } :
        Access).line := by
  have hn := a.not_mem_lead k r
  have hb : blanketReplace a.line = '0' :: 'x' :: 'b' :: (Nat.padDigits 16 k r ++ ' ' :: a.words) := by
    obtain rfl | rfl := hd
    all_goals
      rw [a.line_lead ha (by decide) hr nofun, blanketReplace_hex (by simpa using hn)]
      rfl
  rw [remapLine, hb, replaceLine_hex hn]
  symm
  split
  case isTrue  => exact Access.line_lead (d := 10) rfl (by decide) hr nofun
  case isFalse => exact Access.line_lead (d := 11) rfl (by decide) hr nofun

-- Whatever is done to the first digit, a short address stays short.
theorem remapLine_untagged (ids : List (Nat × Nat)) (a : Access) (h : a.addr < 16 ^ 12) :
    ∃ addr < 16 ^ 12, remapLine ids a.line = ({ a with addr } : Access).line := by
  have ⟨d, k, r, hd, hr, ha, h₀⟩ := Nat.exists_lead (by decide : 1 < 16) a.addr
  by_cases hl : d = 10 ∨ d = 11
  case pos =>
    refine ⟨_, ?_, remapLine_lead ids ha hr hl⟩
    have hk : k < 12 := by
      by_contra hk
      have := Nat.pow_le_pow_right (by decide : 0 < 16) (Nat.le_of_not_lt hk)
      have := Nat.le_mul_of_pos_left (16 ^ k) (by omega : 0 < d)
      omega
    have : 16 ^ (k + 1) ≤ 16 ^ 12 := Nat.pow_le_pow_right (by decide) hk
    split <;> omega
  case neg =>
    rw [not_or] at hl
    exact ⟨a.addr, h, remapLine_of_ne ids ha hd hr h₀ hl.left hl.right⟩

end Lead

theorem columnDigits_eq {t c : Nat} (ht : t < 10) (hc : c < 16) :
    columnDigits (t, c) = [t.digitChar, c.digitChar] := by
  rw [columnDigits, decText, Nat.toDigits_of_lt_base ht, Nat.toDigits_of_lt_base hc]
  rfl

theorem digitChar_inj : ∀ d < 16, ∀ e < 16, Nat.digitChar d = Nat.digitChar e → d = e := by
  decide

theorem padDigits_tag {t c addr : Nat} (ht : t < 16) (hc : c < 16) (ha : addr < 16 ^ 12) :
    Nat.padDigits 16 14 ((t * 16 + c) * 16 ^ 12 + addr) =
      t.digitChar :: c.digitChar :: Nat.padDigits 16 12 addr := by
  have hdiv : (t * 16 + c) / 16 = t := by omega
  have hmod : (t * 16 + c) % 16 = c := by omega
  rw [Nat.padDigits_mul_pow_add ha 2]
  simp [Nat.padDigits, hdiv, hmod, Nat.mod_eq_of_lt ht]

theorem digitChars_isPrefix {t c t' c' : Nat} {s : List Char} (ht : t < 16) (hc : c < 16)
    (ht' : t' < 16) (hc' : c' < 16) :
    [t'.digitChar, c'.digitChar] <+: t.digitChar :: c.digitChar :: s ↔ (t', c') = (t, c) := by
  rw [List.cons_prefix_cons, List.cons_prefix_cons, Prod.mk.injEq]
  constructor
  case mp =>
    rintro ⟨h, h', _⟩
    exact ⟨digitChar_inj _ ht' _ ht h, digitChar_inj _ hc' _ hc h'⟩
  case mpr =>
    rintro ⟨rfl, rfl⟩
    exact ⟨rfl, rfl, List.nil_prefix⟩

-- The lines of a column that is mapped to the direct attached memory get their first digit back.
theorem remapLine_tagged {ids : List (Nat × Nat)} (hids : ∀ i ∈ ids, i.1 < 8 ∧ i.2 < 16) {a : Access}
    {addr t c : Nat} (ha : a.addr = 10 * 16 ^ 14 + ((t * 16 + c) * 16 ^ 12 + addr))
    (haddr : addr < 16 ^ 12) (ht : t < 8) (hc : c < 16) :
    remapLine ids a.line = ({ a with addr :=
      (if (t, c) ∈ ids then 10 else 11) * 16 ^ 14 + ((t * 16 + c) * 16 ^ 12 + addr) } : Access).line := by
  have hmem : (∃ i ∈ ids, columnDigits i <+:
      Nat.padDigits 16 14 ((t * 16 + c) * 16 ^ 12 + addr) ++ ' ' :: a.words) ↔ (t, c) ∈ ids := by
    rw [padDigits_tag (by omega) hc haddr]
    constructor
    case mp =>
      rintro ⟨⟨t', c'⟩, hi, hp⟩
      have ⟨ht', hc'⟩ := hids _ hi
      rw [columnDigits_eq (by omega) hc'] at hp
      exact (digitChars_isPrefix (by omega) hc (by omega) hc').mp hp ▸ hi
    case mpr =>
      intro hi
      refine ⟨_, hi, ?_⟩
      rw [columnDigits_eq (by omega) hc]
      exact (digitChars_isPrefix (by omega) hc (by omega) hc).mpr rfl
  rw [remapLine_lead ids ha (by omega) (.inl rfl)]
  simp only [hmem]

theorem remapPy_unlines {columns : List Column} {mapping : List (String × Bool)}
    {ids : List (Nat × Nat)} (h : damIds columns mapping = .ok ids) {ls : List (List Char)}
    (hls : ∀ l ∈ ls, '\n' ∉ blanketReplace l) :
    remapPy columns mapping (unlines ls) = .ok (unlines (ls.map (remapLine ids))) := by
  have : split '\n' (unlines (ls.map blanketReplace)) = ls.map blanketReplace :=
    split_unlines (by simpa using hls)
  rw [remapPy, blanketReplace_unlines, h]
  simp only [bind, Except.bind, replaceInFile, this, List.map_map]
  rfl

section Columns

variable {columns : List Column} {mapping : List (String × Bool)}

theorem mem_of_columnDetails {col : String} {ids : Nat × Nat}
    (h : Dict.get? col (columnDetails columns) = some ids) :
    ∃ c ∈ columns, c.name = col ∧ (c.tableId, c.columnId) = ids := by
  simpa [Prod.ext_iff] using Dict.mem_of_get?_ofList h

theorem mem_damColumns {col : String} :
    col ∈ damColumns mapping ↔ Dict.get? col (Dict.ofList mapping) = some false := by
  rw [Dict.get?_eq_some_iff (Dict.nodup_ofList mapping)]
  simp [damColumns]

-- Every name in the mapping file is that of a column, so there is no exception.
theorem exists_damIds (h : ∀ p ∈ mapping, p.1 ∈ columns.map (·.name)) :
    ∃ ids, damIds columns mapping = .ok ids ∧ ∀ i, i ∈ ids ↔ MappedToDam columns mapping i := by
  have hsome : ∀ col ∈ damColumns mapping, ∃ ids, Dict.get? col (columnDetails columns) = some ids := by
    intro col hcol
    have := Dict.mem_of_get?_ofList (mem_damColumns.mp hcol)
    apply Dict.exists_get?_ofList
    simpa [Function.comp_def] using h _ this
  have hok : damIds columns mapping =
      .ok ((damColumns mapping).map fun col => (Dict.get? col (columnDetails columns)).getD (0, 0)) := by
    apply Except.mapM_ok
    intro col hcol
    have ⟨ids, hids⟩ := hsome col hcol
    rw [hids]
    rfl
  refine ⟨_, hok, fun i => ?_⟩
  rw [List.mem_map]
  constructor
  case mp =>
    rintro ⟨col, hcol, rfl⟩
    have ⟨ids, hids⟩ := hsome col hcol
    exact ⟨col, mem_damColumns.mp hcol, by rw [hids, Option.getD_some]⟩
  case mpr =>
    rintro ⟨col, hcol, hids⟩
    exact ⟨col, mem_damColumns.mpr hcol, by rw [hids, Option.getD_some]⟩

end Columns

theorem place_main_dam {addr : Nat} (h : addr < 0xaffffffffffffff) : place Config.main addr = .ok .dam := by
  have : CXLSystem.isInDam Config.main addr = true := by
    simp only [CXLSystem.isInDam, Bool.and_eq_true, decide_eq_true_eq]
    exact ⟨⟨rfl, Nat.zero_le addr⟩, h⟩
  rw [place, if_pos this]

theorem place_main_device {addr : Nat} (h : 0xb00000000000000 ≤ addr) (h' : addr < 0xcffffffffffffff) :
    place Config.main addr = .ok (.device 0) := by
  have hn : ¬CXLSystem.isInDam Config.main addr = true := by
    simp only [CXLSystem.isInDam, Bool.and_eq_true, decide_eq_true_eq]
    exact fun hd => absurd (Nat.lt_of_lt_of_le hd.right (by decide)) (Nat.not_lt.mpr h)
  have hd : Config.main.destinationDevice addr = .ok 0 := by
    simp [Config.destinationDevice, Config.main, h, h', List.finRange_succ]
  rw [place, if_neg hn, hd]
  rfl

theorem place_main_tag {t c addr : Nat} (ht : t < 8) (hc : c < 16) (ha : addr < 2 ^ 48) :
    place Config.main (10 * 16 ^ 14 + ((t * 16 + c) * 16 ^ 12 + addr)) = .ok .dam ∧
    place Config.main (11 * 16 ^ 14 + ((t * 16 + c) * 16 ^ 12 + addr)) = .ok (.device 0) :=
  ⟨place_main_dam (by omega), place_main_device (by omega) (by omega)⟩

theorem parseLine_line {addr gap : Nat} (type : AccessType) (ha : addr < 2 ^ 64) (hg : gap < 2 ^ 64) :
    parseLine (⟨addr, type, gap⟩ : Access).line = .ok (type.opcode, addr, gap) := by
  rw [parseLine, Access.split_line]
  simp only [stoul_hexText ha, stoul_decText hg, bind, Except.bind]
  cases type <;> rfl

theorem Layout.tagOf?_eq_none {l : Layout} {a : Access} (v : Isolate) (h : l.tagOf? a.addr = none) :
    l.isolated v a = a := by
  rw [tagOf?] at h
  rw [isolated]
  split
  case isTrue  => rfl
  case isFalse hh =>
    rw [if_neg hh, Option.map_eq_none_iff] at h
    rw [tagged, h]

theorem Layout.tagOf?_eq_some {l : Layout} {a : Access} {ids : Nat × Nat} (v : Isolate)
    (h : l.tagOf? a.addr = some ids) :
    ∃ r ∈ l.ranges, (r.tableId.toNat, r.columnId.toNat) = ids ∧
      l.isolated v a = { a with addr := remap v a.addr r } := by
  rw [tagOf?] at h
  split at h
  case isTrue     => contradiction
  case isFalse hh =>
    have ⟨r, hr, hids⟩ := Option.map_eq_some_iff.mp h
    refine ⟨r, List.mem_of_find?_eq_some hr, hids, ?_⟩
    rw [isolated, if_neg hh, tagged, hr]

theorem exists_placed {l : Layout} (hl : ∀ r ∈ l.ranges, r.tableId.toNat < 8 ∧ r.columnId.toNat < 16)
    {columns : List Column} {mapping : List (String × Bool)} {ids : List (Nat × Nat)}
    (hids : ∀ i, i ∈ ids ↔ MappedToDam columns mapping i) (hlt : ∀ i ∈ ids, i.1 < 8 ∧ i.2 < 16)
    {a : Access} (ha : a.addr < 2 ^ 48) :
    ∃ a', remapLine ids (l.isolated .hash a).line = a'.line ∧ Placed l columns mapping a a' := by
  cases h : l.tagOf? a.addr
  case none =>
    rw [l.tagOf?_eq_none .hash h]
    have ⟨addr, haddr, he⟩ := remapLine_untagged ids a ha
    have hp : place Config.main addr = .ok .dam := place_main_dam (by omega)
    exact ⟨_, he, rfl, rfl, fun hg => parseLine_line _ (by omega) hg, fun _ => hp,
      fun _ _ _ => hp, fun ids hs => by rw [h] at hs; contradiction⟩
  case some i =>
    have ⟨r, hr, hi, he⟩ := l.tagOf?_eq_some .hash h
    have ⟨ht, hc⟩ := hl r hr
    have ⟨hdam, hdev⟩ := place_main_tag ht hc ha
    have haddr := remap_eq .hash ha (r := r) (Nat.lt_trans ht (by decide)) hc
    have hline := remapLine_tagged hlt (a := { a with addr := remap .hash a.addr r }) haddr ha ht hc
    rw [he]
    refine ⟨_, hline, rfl, rfl, fun hg => parseLine_line _ ?_ hg, ?_, ?_, ?_⟩
    · split <;> omega
    · intro hn
      rw [h] at hn
      contradiction
    · intro ids' hs hm
      rw [if_pos]
      · exact hdam
      · rwa [hids, hi, Option.some.inj (h.symm.trans hs)]
    · intro ids' hs hm
      rw [if_neg]
      · exact hdev
      · rwa [hids, hi, Option.some.inj (h.symm.trans hs)]

-- From the recorded trace to the memory that serves the access.
theorem remapPy_placed (l : Layout) (text : List Char) (as : List RoiAccess)
    (hl : ∀ r ∈ l.ranges, r.tableId.toNat < 8 ∧ r.columnId.toNat < 16)
    (columns : List Column) (hc : ∀ c ∈ columns, c.tableId < 8 ∧ c.columnId < 16)
    (mapping : List (String × Bool)) (hm : ∀ p ∈ mapping, p.1 ∈ columns.map (·.name))
    (htext : split '\n' text = as.map RoiAccess.line) (haddr : ∀ a ∈ as, a.addr < 2 ^ 48) :
    ∃ traced as', isolateHash l.ranges text = .ok traced ∧
      remapPy columns mapping traced = .ok (unlines (as'.map Access.line)) ∧
      List.Forall₂ (fun (a : RoiAccess) a' => Placed l columns mapping a.toAccess a') as as' := by
  have ⟨ids, hok, hids⟩ := exists_damIds hm
  have hlt : ∀ i ∈ ids, i.1 < 8 ∧ i.2 < 16 := by
    intro i hi
    have ⟨col, _, hcol⟩ := (hids i).mp hi
    have ⟨c, hmem, _, he⟩ := mem_of_columnDetails hcol
    exact he ▸ hc c hmem
  have hplaced : ∀ a ∈ as, ∃ a' : Access, remapLine ids (l.isolated .hash a.toAccess).line = a'.line ∧
      Placed l columns mapping a.toAccess a' :=
    fun a ha => exists_placed hl hids hlt (haddr a ha)
  have ⟨as', has'⟩ := List.exists_forall₂ hplaced
  refine ⟨_, as', l.isolate_eq .hash htext haddr, ?_, has'.imp fun _ _ => And.right⟩
  rw [remapPy_unlines hok]
  · congr 2
    rw [List.map_map]
    exact (has'.imp fun _ _ => And.left).map_eq
  · intro ln hln hn
    have ⟨a, _, he⟩ := List.mem_map.mp hln
    exact (l.isolated .hash a.toAccess).not_mem_line (he ▸ mem_of_mem_blanketReplace hn (by decide))

-- The column of the range is mapped to the direct attached memory, and the access before it is in no range.
theorem remapPy_placed_example :
    ∃ traced as', isolateHash Layout.around.ranges
        "7,R,0xa00123,8\n3,W,0x7f61c3a6f610,4".toList = .ok traced ∧
      remapPy [⟨"c_name", 1, 2⟩] [("c_name", false)] traced = .ok (unlines (as'.map Access.line)) ∧
      List.Forall₂ (fun (a : RoiAccess) a' =>
          Placed Layout.around [⟨"c_name", 1, 2⟩] [("c_name", false)] a.toAccess a')
        [⟨⟨0xa00123, .R, 7⟩, 8⟩, ⟨⟨0x7f61c3a6f610, .W, 3⟩, 4⟩] as' :=
  remapPy_placed Layout.around _ _ (by decide) _ (by decide) _ (by decide) (by decide +kernel)
    (by decide)

end Hyrise
