import VldbArtifacts.Hyrise.RemapJob
import VldbArtifacts.Hyrise.Theorems.JobCounter

-- What the scripts for the Join Order Benchmark make of the addresses of isolate_job.

namespace Hyrise

open CXL

variable {c : Char} {w s rest : List Char}

theorem readLines_append (h : '\n' ∉ w) :
    readLines (w ++ '\n' :: rest) = (w ++ ['\n']) :: readLines rest := by
  induction w
  case nil => simp [readLines]
  case cons c w ih =>
    rw [List.mem_cons, not_or] at h
    rw [List.cons_append, readLines, if_neg (Ne.symm h.left), ih h.right]
    rfl

theorem readLines_unlines {ls : List (List Char)} (h : ∀ l ∈ ls, '\n' ∉ l) :
    readLines (unlines ls) = ls.map (· ++ ['\n']) := by
  induction ls
  case nil => rfl
  case cons l ls ih =>
    rw [List.forall_mem_cons] at h
    rw [unlines_cons, readLines_append h.left, ih h.right, List.map_cons]

theorem isMarked_hex (h : 'x' ∉ c :: rest) :
    isMarked ('0' :: 'x' :: c :: rest) ↔ c = 'a' ∨ c = 'b' := by
  rw [@eq_comm _ c 'a', @eq_comm _ c 'b']
  simp [isMarked, find_hex h]

theorem damReplace_of_not_mem (h : 'x' ∉ s) : damReplace s = s := by
  fun_induction damReplace s
  case case1 => simp at h
  case case2 ih => rw [ih (List.not_mem_of_not_mem_cons h)]
  case case3 => rfl

theorem damReplace_hex (h : 'x' ∉ rest) :
    damReplace ('0' :: 'x' :: 'b' :: rest) = '0' :: 'x' :: 'a' :: rest := by
  rw [damReplace, damReplace_of_not_mem h]

theorem addrIds_digits {x y z : Nat} {d : Char} (hx : x < 16) (hy : y < 16) (hz : z < 16)
    (ds : List Char) :
    addrIds ('0' :: 'x' :: d :: x.digitChar :: y.digitChar :: z.digitChar :: ds) =
      .ok (x * 16 + y, z) := by
  have hxy : pyInt 16 ([x, y].map Nat.digitChar) = .ok (x * 16 + y) := by
    simpa using pyInt_map (Nat.le_refl 16) (by simp [hx, hy]) (List.cons_ne_nil x [y])
  simp only [List.map_cons, List.map_nil] at hxy
  simp [addrIds, hxy, pyInt_digit hz]

-- Only the first word is cut.
theorem postprocessJobLine_append (hm : isMarked (w ++ ' ' :: rest)) (h : ' ' ∉ w) :
    postprocessJobLine (w ++ ' ' :: rest) = w.take 17 ++ ' ' :: rest := by
  rw [postprocessJobLine, if_pos hm, List.splitOn_append_cons_self_of_not_mem h]
  simp only [List.headD_cons, List.tail_cons, List.intercalate_splitOn]
  change (if 17 ≤ w.length then w.take 17 else w) ++ _ = _
  split
  case isTrue    => rfl
  case isFalse h => rw [List.take_of_length_le (by omega)]

section Access

variable {columns : List Column} {mapping : List (String × Bool)} {a : Access} {t i addr : Nat}

theorem padDigits_jobTag (ht : t < 256) (hi : i < 16) (ha : addr < 16 ^ 12) :
    Nat.padDigits 16 15 ((t * 16 + i) * 16 ^ 12 + addr) =
      (t / 16).digitChar :: (t % 16).digitChar :: i.digitChar :: Nat.padDigits 16 12 addr := by
  have h₁ : (t * 16 + i) / 16 = t := by omega
  have h₂ : (t * 16 + i) % 16 = i := by omega
  have h₃ : t / 16 % 16 = t / 16 := Nat.mod_eq_of_lt (by omega)
  rw [Nat.padDigits_mul_pow_add ha 3]
  simp [Nat.padDigits, h₁, h₂, h₃]

-- The digits of the ids stay where they are, and the first digit says where the column is.
theorem remapJobLine_tagged {R : Nat} (hR : R = (t * 16 + i) * 16 ^ 12 + addr) (haddr : addr < 16 ^ 12)
    (ht : t < 256) (hi : i < 16) {cxl : Bool} (hcxl : isCxl columns mapping (t, i) = some cxl)
    (ha : a.addr = 10 * 16 ^ 15 + R) :
    remapJobLine columns mapping (blanketReplace a.line ++ ['\n']) =
      .ok (({ a with addr := (if cxl then 11 else 10) * 16 ^ 15 + R } : Access).line ++ ['\n']) := by
  have hlt : R < 16 ^ 15 := by omega
  have hn := a.not_mem_lead 15 R
  have hx : 'x' ∉ Nat.padDigits 16 15 R ++ ' ' :: a.words ++ ['\n'] := by simpa using hn
  have hb : blanketReplace a.line ++ ['\n'] =
      '0' :: 'x' :: 'b' :: (Nat.padDigits 16 15 R ++ ' ' :: a.words ++ ['\n']) := by
    rw [a.line_lead ha (by decide) hlt nofun, blanketReplace_hex (by simpa using hn)]
    rfl
  have hword : (blanketReplace a.line ++ ['\n']).takeWhile (· ≠ ' ') =
      '0' :: 'x' :: 'b' :: Nat.padDigits 16 15 R := by
    have hs := Nat.not_mem_padDigits (by decide : 1 < 16) (Nat.le_refl 16)
      (by decide : ∀ d < 16, Nat.digitChar d ≠ ' ') 15 R
    rw [hb, List.append_assoc, ← List.cons_append, ← List.cons_append, ← List.cons_append,
      List.takeWhile_append_of_pos]
    · simp
    · simp only [List.mem_cons, decide_eq_true_eq]
      rintro d (rfl | rfl | rfl | hd) <;> first | decide | exact ne_of_mem_of_not_mem hd hs
  have hids : addrIds ('0' :: 'x' :: 'b' :: Nat.padDigits 16 15 R) = .ok (t, i) := by
    rw [hR, padDigits_jobTag ht hi haddr, addrIds_digits (by omega) (by omega) hi,
      Nat.div_add_mod']
  have hm : isMarked (blanketReplace a.line ++ ['\n']) := by
    rw [hb]
    exact (isMarked_hex (by simpa using hx)).mpr (.inr rfl)
  rw [remapJobLine, if_pos hm, hword, hids]
  simp only [Except.ok_bind, hcxl, hb]
  cases cxl
  case true  =>
    have hline := Access.line_lead (a := { a with addr := 11 * 16 ^ 15 + R }) rfl (by decide) hlt nofun
    exact congrArg (fun ln => Except.ok (ln ++ ['\n'])) hline.symm
  case false =>
    have hline := Access.line_lead (a := { a with addr := 10 * 16 ^ 15 + R }) rfl (by decide) hlt nofun
    exact congrArg Except.ok ((damReplace_hex hx).trans (congrArg (· ++ ['\n']) hline.symm))

-- The last of the sixteen digits is cut off.
theorem postprocessJobLine_tagged {d R : Nat} (hd : d = 10 ∨ d = 11) (hR : R < 16 ^ 15) :
    postprocessJobLine (({ a with addr := d * 16 ^ 15 + R } : Access).line ++ ['\n']) =
      ({ a with addr := d * 16 ^ 14 + R / 16 } : Access).line ++ ['\n'] := by
  have hs := Nat.not_mem_padDigits (by decide : 1 < 16) (Nat.le_refl 16)
    (by decide : ∀ d < 16, Nat.digitChar d ≠ ' ') 15 R
  have hw : ' ' ∉ '0' :: 'x' :: d.digitChar :: Nat.padDigits 16 15 R := by
    obtain rfl | rfl := hd <;> simpa using hs
  have hm : isMarked (({ a with addr := d * 16 ^ 15 + R } : Access).line ++ ['\n']) := by
    have hx : d.digitChar ≠ 'x' := by obtain rfl | rfl := hd <;> decide
    rw [Access.line_lead rfl (by omega) hR (by omega)]
    refine (isMarked_hex (List.not_mem_cons_of_ne_of_not_mem hx.symm ?_)).mpr ?_
    · simpa using Access.not_mem_lead _ 15 R
    · obtain rfl | rfl := hd <;> decide
  have hcut : ('0' :: 'x' :: d.digitChar :: Nat.padDigits 16 15 R).take 17 =
      '0' :: 'x' :: d.digitChar :: Nat.padDigits 16 14 (R / 16) := by
    rw [Nat.padDigits]
    simp [Nat.length_padDigits]
  have hline := Access.line_lead (a := { a with addr := d * 16 ^ 14 + R / 16 }) rfl (by omega)
    (by omega : R / 16 < 16 ^ 14) (by omega)
  rw [Access.line_lead rfl (by omega) hR (by omega)] at hm ⊢
  rw [hline]
  simp only [List.cons_append, List.append_assoc, Access.words] at hm ⊢
  exact (postprocessJobLine_append hm hw).trans (congrArg (· ++ _) hcut)

theorem isMarked_line (a : Access) : isMarked (a.line ++ ['\n']) ↔ marked a.addr ≠ none := by
  have hx : ∀ k r, 'x' ∉ Nat.padDigits 16 k r ++ ' ' :: a.words ++ ['\n'] := fun k r => by
    simpa using a.not_mem_lead k r
  have ⟨d, k, r, hd, hr, ha, h₀⟩ := Nat.exists_lead (by decide : 1 < 16) a.addr
  rw [a.line_lead ha hd hr h₀]
  have hm : marked a.addr ≠ none ↔ d.digitChar = 'a' ∨ d.digitChar = 'b' := by
    rw [Option.ne_none_iff_exists']
    simp only [marked_eq_some_iff, ha, Nat.toDigits_lead (by decide : 1 < 16) hd hr h₀]
    constructor
    · rintro ⟨ds, x, hx, he⟩
      exact List.head_eq_of_cons_eq he ▸ hx
    · exact fun h => ⟨_, _, h, rfl⟩
  have hdx : ∀ d < 16, Nat.digitChar d ≠ 'x' := by decide
  rw [hm]
  exact isMarked_hex (List.not_mem_cons_of_ne_of_not_mem (hdx d hd).symm (hx k r))

-- A line without a first digit of a tag is written as it was read.
theorem remapJobLine_untagged (h : marked a.addr = none) :
    blanketReplace a.line = a.line ∧
    remapJobLine columns mapping (a.line ++ ['\n']) = .ok (a.line ++ ['\n']) ∧
    postprocessJobLine (a.line ++ ['\n']) = a.line ++ ['\n'] := by
  have hm : ¬isMarked (a.line ++ ['\n']) := fun hm => (isMarked_line a).mp hm h
  refine ⟨?_, ?_, ?_⟩
  · have ⟨x, rest, hx, _, he⟩ := marked_eq_none h
    have hn : 'x' ∉ x :: (rest ++ ' ' :: a.words) := by
      have h₁ := Nat.not_mem_toDigits (by decide : 1 < 16) (Nat.le_refl 16)
        (by decide : ∀ d < 16, Nat.digitChar d ≠ 'x') (n := a.addr)
      have h₂ := a.not_mem_lead 0 0
      rw [he] at h₁
      simp_all [Nat.padDigits]
    rw [a.line_eq, he, List.cons_append, blanketReplace_hex hn, if_neg hx]
  · rw [remapJobLine, if_neg hm]
    rfl
  · rw [postprocessJobLine, if_neg hm]

variable {l : Layout}

-- The address that the simulator reads. The tag moves down by the digit that is cut off.
def Layout.jobAddr (l : Layout) (columns : List Column) (mapping : List (String × Bool)) (addr : Nat) :
    Nat :=
  match l.tagOf? addr with
  | none     => addr
  | some ids =>
    (if isCxl columns mapping ids = some true then 11 else 10) * 16 ^ 14 +
      ((ids.1 * 16 + ids.2) * 16 ^ 12 + addr) / 16

def Layout.jobRead (l : Layout) (columns : List Column) (mapping : List (String × Bool)) (a : Access) :
    Access :=
  { a with addr := l.jobAddr columns mapping a.addr }

theorem Layout.exists_remapJobLine {a : Access} (ha : a.addr < 2 ^ 48)
    (hl : ∀ ids, l.tagOf? a.addr = some ids → ids.1 < 255 ∧ ids.2 < 16 ∧
      ∃ cxl, isCxl columns mapping ids = some cxl)
    (hn : l.tagOf? a.addr = none → marked a.addr = none) :
    ∃ ln, '\n' ∉ ln ∧ remapJobLine columns mapping (blanketReplace (l.isolated .job a).line ++ ['\n']) =
        .ok (ln ++ ['\n']) ∧
      postprocessJobLine (ln ++ ['\n']) = (l.jobRead columns mapping a).line ++ ['\n'] := by
  cases h : l.tagOf? a.addr
  case none =>
    have ⟨hb, hr, hp⟩ := @remapJobLine_untagged columns mapping _ (hn h)
    rw [l.tagOf?_eq_none .job h, hb, jobRead, jobAddr, h]
    exact ⟨a.line, a.not_mem_line, hr, hp⟩
  case some ids =>
    have ⟨r, _, hids, he⟩ := l.tagOf?_eq_some .job h
    obtain rfl := hids
    have ⟨ht, hi, cxl, hcxl⟩ := hl _ h
    have haddr := remap_eq .job ha (r := r) (Nat.lt_trans ht (by decide)) hi
    have hline := remapJobLine_tagged rfl ha (Nat.lt_trans ht (by decide)) hi hcxl
      (a := { a with addr := remap .job a.addr r }) haddr
    have hcut := postprocessJobLine_tagged (a := a) (d := if cxl then 11 else 10)
      (R := (r.tableId.toNat * 16 + r.columnId.toNat) * 16 ^ 12 + a.addr)
      (by cases cxl <;> simp) (by dsimp only at ht hi; omega)
    rw [he, jobRead, jobAddr, h]
    simp only [hcxl, Option.some.injEq]
    exact ⟨_, Access.not_mem_line _, hline, hcut⟩

theorem Layout.jobAddr_lt {ids : Nat × Nat} (ha : addr < 2 ^ 48) (h : l.tagOf? addr = some ids)
    (ht : ids.1 < 255) (hi : ids.2 < 16) :
    (isCxl columns mapping ids = some false → l.jobAddr columns mapping addr < 0xaffffffffffffff) ∧
    (isCxl columns mapping ids = some true →
      0xb00000000000000 ≤ l.jobAddr columns mapping addr ∧ l.jobAddr columns mapping addr < 0xcffffffffffffff) := by
  rw [jobAddr, h]
  constructor <;> intro hc <;> simp only [hc, reduceCtorEq, Option.some.injEq, if_true, if_false] <;> omega

theorem Layout.placedJob {a : Access} (ha : a.addr < 2 ^ 48)
    (hl : ∀ ids, l.tagOf? a.addr = some ids → ids.1 < 255 ∧ ids.2 < 16) :
    PlacedJob l columns mapping a (l.jobRead columns mapping a) where
  type     := rfl
  gap      := rfl
  read hg  := by
    apply parseLine_line a.type _ hg
    rw [jobAddr]
    split
    case h_1 => omega
    case h_2 ids h =>
      have ⟨ht, hi⟩ := hl ids h
      split <;> omega
  untagged h := by simp only [jobRead, jobAddr, h]
  dam ids h hc :=
    have ⟨ht, hi⟩ := hl ids h
    place_main_dam ((jobAddr_lt ha h ht hi).left hc)
  device ids h hc :=
    have ⟨ht, hi⟩ := hl ids h
    have ⟨hge, hlt⟩ := (jobAddr_lt ha h ht hi).right hc
    place_main_device hge hlt

-- The lines that stay apart are those in different blocks of sixteen lines.
theorem Layout.jobAddr_div {ids : Nat × Nat} {b : Nat} (h : l.tagOf? addr = some ids)
    (h' : l.tagOf? b = some ids) :
    l.jobAddr columns mapping addr / 64 = l.jobAddr columns mapping b / 64 ↔ addr / 1024 = b / 1024 := by
  simp only [jobAddr, h, h']
  omega

end Access

theorem exists_isCxl {columns : List Column} {mapping : List (String × Bool)} {r : Block}
    (h : ∃ c ∈ columns, r.IsOf c) (hm : ∀ c ∈ columns, r.IsOf c → c.name ∈ mapping.map Prod.fst) :
    ∃ cxl, isCxl columns mapping (r.tableId.toNat, r.columnId.toNat) = some cxl := by
  have ⟨c, hc, hof⟩ := h
  have ⟨name, hname⟩ : ∃ name, Dict.get? (r.tableId.toNat, r.columnId.toNat) (loadColDetails columns) =
      some name :=
    Dict.exists_get?_ofList (List.mem_map.mpr ⟨_, List.mem_map.mpr ⟨c, hc, rfl⟩, hof.symm⟩)
  have ⟨c', hc', he⟩ := List.mem_map.mp (Dict.mem_of_get?_ofList hname)
  have ⟨hids, hn⟩ := Prod.mk.inj he
  have ⟨cxl, hcxl⟩ := Dict.exists_get?_ofList (hm c' hc' hids.symm)
  refine ⟨cxl, ?_⟩
  rw [isCxl, loadColDetails, hname, Option.bind_some, ← hn, hcxl]

-- From the recorded trace to the memory that serves the access, for a trace in which no untagged address is
-- taken for a tagged one.
theorem remapJob_placed_lines_iff (l : Layout) (text : List Char) (as : List RoiAccess)
    (columns : List Column) (mapping : List (String × Bool))
    (hl : ∀ r ∈ l.ranges, r.tableId.toNat < 255 ∧ r.columnId.toNat < 16 ∧ (∃ c ∈ columns, r.IsOf c) ∧
      ∀ c ∈ columns, r.IsOf c → c.name ∈ mapping.map Prod.fst)
    (htext : split '\n' text = as.map RoiAccess.line) (haddr : ∀ a ∈ as, a.addr < 2 ^ 48)
    (hmark : ∀ a ∈ as, l.tagOf? a.addr = none → marked a.addr = none) :
    ∃ traced mapped as', isolateJob l.ranges text = .ok traced ∧
      remapJob columns mapping traced = .ok mapped ∧
      postprocessJobTrace mapped = unlines (as'.map Access.line) ∧
      List.Forall₂ (fun (a : RoiAccess) a' => PlacedJob l columns mapping a.toAccess a') as as' ∧
      (l.KeepsLines as as' ↔
        ∀ a ∈ as, ∀ b ∈ as, l.Apart 64 a.toAccess b.toAccess → l.Apart 1024 a.toAccess b.toAccess) := by
  have htag : ∀ addr ids, l.tagOf? addr = some ids → ids.1 < 255 ∧ ids.2 < 16 ∧
      ∃ cxl, isCxl columns mapping ids = some cxl := by
    intro addr ids h
    obtain ⟨r, hr, hids, _⟩ := l.tagOf?_eq_some (a := ⟨addr, .R, 0⟩) .job h
    obtain ⟨ht, hi, hc, hm⟩ := hl r hr
    exact hids ▸ ⟨ht, hi, exists_isCxl hc hm⟩
  have hline : ∀ a : RoiAccess, ∃ ln, a ∈ as → '\n' ∉ ln ∧
      remapJobLine columns mapping (blanketReplace (l.isolated .job a.toAccess).line ++ ['\n']) =
        .ok (ln ++ ['\n']) ∧
      postprocessJobLine (ln ++ ['\n']) = (l.jobRead columns mapping a.toAccess).line ++ ['\n'] := by
    intro a
    by_cases ha : a ∈ as
    case pos =>
      obtain ⟨ln, h⟩ := l.exists_remapJobLine (haddr a ha) (htag a.addr) (hmark a ha)
      exact ⟨ln, fun _ => h⟩
    case neg => exact ⟨[], (absurd · ha)⟩
  choose ln hln using hline
  refine ⟨_, unlines (as.map ln), as.map fun a => l.jobRead columns mapping a.toAccess,
    l.isolate_eq .job htext haddr, ?_, ?_, ?_, ?_⟩
  · have hread : readLines (unlines ((as.map fun a => (l.isolated .job a.toAccess).line).map blanketReplace)) =
        as.map fun a => blanketReplace (l.isolated .job a.toAccess).line ++ ['\n'] := by
      rw [readLines_unlines, List.map_map, List.map_map]
      · rfl
      · simp only [List.map_map, List.forall_mem_map]
        exact fun a _ hn => Access.not_mem_line _ (mem_of_mem_blanketReplace hn (by decide))
    have hmap : (as.map fun a => blanketReplace (l.isolated .job a.toAccess).line ++ ['\n']).mapM
        (remapJobLine columns mapping) = .ok (as.map fun a => ln a ++ ['\n']) := by
      rw [List.mapM_map]
      exact Except.mapM_ok fun a ha => (hln a ha).right.left
    rw [remapJob, blanketReplace_unlines, hread, hmap]
    exact congrArg Except.ok (by rw [← flatten_lines, List.map_map]; rfl)
  · have hn : ∀ ln' ∈ as.map ln, '\n' ∉ ln' := List.forall_mem_map.mpr fun a ha => (hln a ha).left
    rw [postprocessJobTrace, readLines_unlines hn, List.flatMap_map, List.flatMap_map, unlines,
      List.flatMap_map, List.flatMap_map]
    exact List.flatMap_congr fun a ha => (hln a ha).right.right
  · rw [List.forall₂_map_right_iff, List.forall₂_same]
    exact fun a ha => l.placedJob (haddr a ha) fun ids h => (htag _ ids h).imp_right And.left
  · rw [Layout.KeepsLines, ← List.map_prod_left_eq_zip]
    simp only [List.forall_mem_map]
    refine forall₄_congr fun a _ b _ => forall_congr' fun h => ?_
    obtain ⟨⟨hne, he⟩, _⟩ := h
    obtain ⟨ids, ha⟩ := Option.ne_none_iff_exists'.mp hne
    rw [Layout.Apart, and_iff_right ⟨hne, he⟩]
    exact (l.jobAddr_div ha (he.trans ha)).not

def Layout.movieInfo : Layout where
  ranges   := [⟨0x1000, 0x2000, 17, 2⟩]
  nonempty := by decide
  below    := by decide
  disjoint := by decide

-- Two accesses of a column to neighbouring lines, and then to one line.
theorem remapJob_lines_merged :
    isolateJob Layout.movieInfo.ranges "5,R,0x1000,8\n7,R,0x1040,8\n".toList =
      .ok "0xa112000000001000 R 5\n0xa112000000001040 R 7\n".toList ∧
    remapJob [⟨"mi_info", 17, 2⟩] [("mi_info", true)]
        "0xa112000000001000 R 5\n0xa112000000001040 R 7\n".toList =
      .ok "0xb112000000001000 R 5\n0xb112000000001040 R 7\n".toList ∧
    postprocessJobTrace "0xb112000000001000 R 5\n0xb112000000001040 R 7\n".toList =
      unlines ([⟨0xb11200000000100, .R, 5⟩, ⟨0xb11200000000104, .R, 7⟩].map Access.line) ∧
    ¬Layout.movieInfo.KeepsLines [⟨⟨0x1000, .R, 5⟩, 8⟩, ⟨⟨0x1040, .R, 7⟩, 8⟩]
      [⟨0xb11200000000100, .R, 5⟩, ⟨0xb11200000000104, .R, 7⟩] := by
  decide +kernel

-- Accesses in different blocks of sixteen lines, and one that is in no range.
theorem remapJob_lines_kept :
    ∃ traced mapped as', isolateJob Layout.movieInfo.ranges
        "5,R,0x1000,8\n7,W,0x1440,8\n1,R,0x40,4\n".toList = .ok traced ∧
      remapJob [⟨"mi_info", 17, 2⟩] [("mi_info", true)] traced = .ok mapped ∧
      postprocessJobTrace mapped = unlines (as'.map Access.line) ∧
      Layout.movieInfo.KeepsLines
        [⟨⟨0x1000, .R, 5⟩, 8⟩, ⟨⟨0x1440, .W, 7⟩, 8⟩, ⟨⟨0x40, .R, 1⟩, 4⟩] as' := by
  have ⟨traced, mapped, as', ht, hm, hp, _, hk⟩ := remapJob_placed_lines_iff Layout.movieInfo
    "5,R,0x1000,8\n7,W,0x1440,8\n1,R,0x40,4\n".toList
    [⟨⟨0x1000, .R, 5⟩, 8⟩, ⟨⟨0x1440, .W, 7⟩, 8⟩, ⟨⟨0x40, .R, 1⟩, 4⟩] [⟨"mi_info", 17, 2⟩]
    [("mi_info", true)] (by decide) (by decide +kernel) (by decide) (by decide +kernel)
  exact ⟨traced, mapped, as', ht, hm, hp, hk.mpr (by decide +kernel)⟩

end Hyrise
