import VldbArtifacts.Hyrise.Theorems.Counter

-- counter_trace_bridge_job and column_count_from_job_trace.py on the same trace.

namespace Hyrise

open CXL

variable {d : Details} {c : Column} {a : Access} {ds : List Char}

theorem exists_marked (h : marked a.addr = some ds) :
    ∃ es : List Nat, ds = es.map Nat.digitChar ∧ ∀ e ∈ es, e < 16 := by
  have ⟨x, _, hx⟩ := marked_eq_some_iff.mp h
  have ⟨e, es, he, hlt, _⟩ := Nat.exists_digits (by decide : 1 < 16) a.addr
  have := List.tail_eq_of_cons_eq (hx.symm.trans he)
  exact ⟨es, this, fun e he => hlt e (List.mem_cons_of_mem _ he)⟩

-- What the script makes of the digits.
def decode : List Nat → Script (Nat × Nat)
  | []             => .error .indexError
  | [_]            => .error .valueError
  | [x, y]         => .ok (x, y)
  | x :: y :: z :: _ => .ok (x * 16 + y, z)

theorem pyInt_digit {e : Nat} (h : e < 16) : pyInt 16 [e.digitChar] = .ok e := by
  have := pyInt_map (Nat.le_refl 16) (List.forall_mem_singleton.mpr h) (List.cons_ne_nil e [])
  simpa using this

theorem takeWhile_line {x : Char} (h : Nat.toDigits 16 a.addr = x :: ds) :
    a.line.takeWhile (· ≠ ' ') = '0' :: 'x' :: x :: ds := by
  have hc : ∀ d < 16, Nat.digitChar d ≠ ' ' := by decide
  have hn : ∀ y ∈ '0' :: 'x' :: x :: ds, decide (y ≠ ' ') = true := by
    intro y hy
    have := not_mem_hexText (by decide) hc a.addr
    rw [hexText, h] at this
    simpa using ne_of_mem_of_not_mem hy this
  rw [a.line_eq, h]
  change List.takeWhile _ (('0' :: 'x' :: x :: ds) ++ ' ' :: a.words) = _
  rw [List.takeWhile_append_of_pos hn, List.takeWhile_cons_of_neg (by simp), List.append_nil]

theorem jobIds_line {es : List Nat} (h : marked a.addr = some (es.map Nat.digitChar))
    (hlt : ∀ e ∈ es, e < 16) : jobIds a.line = decode es := by
  have ⟨x, hx, hd⟩ := marked_eq_some_iff.mp h
  rw [jobIds, takeWhile_line hd]
  match es, hlt with
  | [], _ => rfl
  | [x], hlt =>
    have hx : x < 16 := hlt x (by simp)
    simp [pyInt_digit hx]
    rfl
  | [x, y], hlt =>
    have hx : x < 16 := hlt x (by simp)
    have hy : y < 16 := hlt y (by simp)
    simp [pyInt_digit hx, pyInt_digit hy, decode]
  | x :: y :: z :: es, hlt =>
    have hz : z < 16 := hlt z (by simp)
    have hxy : pyInt 16 ([x, y].map Nat.digitChar) = .ok (x * 16 + y) := by
      have hlt' : ∀ e ∈ [x, y], e < 16 := fun e he => hlt e (by simp_all; tauto)
      simpa using pyInt_map (Nat.le_refl 16) hlt' (List.cons_ne_nil x [y])
    simp only [List.map_cons, List.map_nil] at hxy
    simp [pyInt_digit hz, hxy, decode]

theorem searchKey_eq_of_le (ht : 16 ≤ c.tableId) (ht' : c.tableId < 256) (hc : c.columnId < 16) :
    searchKey c = [c.tableId / 16, c.tableId % 16, c.columnId].map Nat.digitChar := by
  rw [searchKey, Nat.toDigits_of_base_le (by decide) ht, Nat.toDigits_of_lt_base (by omega),
    Nat.toDigits_of_lt_base hc]
  rfl

-- The two ways to read the digits agree on the tables with two digits.
theorem decode_eq_iff {es : List Nat} (hlt : ∀ e ∈ es, e < 16) (ht : 16 ≤ c.tableId)
    (ht' : c.tableId < 256) (hc : c.columnId < 16) :
    decode es = .ok (c.tableId, c.columnId) ↔ searchKey c <+: es.map Nat.digitChar := by
  rw [searchKey_eq_of_le ht ht' hc]
  match es, hlt with
  | [], _  => simp [decode]
  | [x], _ => simp [decode]
  | [x, y], hlt =>
    have hx : x < 16 := hlt x (by simp)
    simp [decode]
    omega
  | x :: y :: z :: es, hlt =>
    have hx : x < 16 := hlt x (by simp)
    have hy : y < 16 := hlt y (by simp)
    have hz : z < 16 := hlt z (by simp)
    have inj {d e : Nat} (hd : d < 16) (he : e < 16) : d.digitChar = e.digitChar ↔ d = e :=
      ⟨digitChar_inj d hd e he, congrArg _⟩
    simp only [decode, List.map_cons, List.map_nil, List.cons_prefix_cons, List.nil_prefix, and_true,
      Except.ok.injEq, Prod.mk.injEq, inj (by omega : c.tableId / 16 < 16) hx,
      inj (by omega : c.tableId % 16 < 16) hy, inj hc hz]
    omega

theorem not_marked_iff (a : Access) :
    find ['0', 'x', 'a'] a.line = none ∧ find ['0', 'x', 'b'] a.line = none ↔ marked a.addr = none := by
  have hc : ∀ d < 16, Nat.digitChar d ≠ 'x' := by decide
  have hx : 'x' ∉ Nat.toDigits 16 a.addr ++ ' ' :: a.words := by
    have h₁ := Nat.not_mem_toDigits (by decide : 1 < 16) (Nat.le_refl 16) hc (n := a.addr)
    have h₂ := a.not_mem_lead 0 0
    simpa [h₁, Nat.padDigits] using h₂
  rw [a.line_eq, find_hex hx, find_hex hx]
  cases h : marked a.addr
  case none =>
    obtain ⟨x, rest, ha, hb, he⟩ := marked_eq_none h
    simp [he, ha.symm, hb.symm]
  case some ds =>
    obtain ⟨x, hx, he⟩ := marked_eq_some_iff.mp h
    obtain rfl | rfl := hx <;> simp [he]

-- The words behind the address are long enough for a key.
theorem length_key? {key : List Char} (h : a.key? 3 = some key) : key.length = 3 := by
  have ⟨ds, _, hk⟩ := Option.map_eq_some_iff.mp h
  have htype : a.type.text.length = 1 := by cases a.type <;> rfl
  have hwords : 3 ≤ (ds ++ ' ' :: a.words).length := by
    have := List.length_pos_of_ne_nil (Nat.toDigits_ne_nil : Nat.toDigits 10 a.gap ≠ [])
    simp [Access.words, decText, htype]
    omega
  rw [← hk, List.length_take, Nat.min_eq_left hwords]

-- The access is counted for the column by the script.
def JobCounts (c : Column) (a : Access) : Prop :=
  marked a.addr ≠ none ∧ jobIds a.line = .ok (c.tableId, c.columnId)

instance (c : Column) (a : Access) : Decidable (JobCounts c a) :=
  inferInstanceAs (Decidable (_ ∧ _))

namespace Details

theorem get?_loadColDetails (h : c ∈ d.columns) :
    Dict.get? (c.tableId, c.columnId) (loadColDetails d.columns) = some c.name := by
  have ⟨name, hname⟩ : ∃ name, Dict.get? (c.tableId, c.columnId) (loadColDetails d.columns) = some name :=
    Dict.exists_get?_ofList (by simpa using ⟨c, h, rfl, rfl⟩)
  have ⟨c', hc', he⟩ := List.mem_map.mp (Dict.mem_of_get?_ofList hname)
  have ⟨hids, hn⟩ := Prod.mk.inj he
  exact hname.trans (by rw [← hn, d.eq_of_ids hc' h hids])

-- The script gets over the line.
def Accepts (d : Details) (a : Access) : Prop :=
  marked a.addr = none ∨ ∃ c ∈ d.columns, JobCounts c a

def countOf (counts : List (String × Nat)) (name : String) : Nat :=
  (Dict.get? name counts).getD 0

theorem countJobLine_accepts (h : d.Accepts a) (counts : List (String × Nat)) :
    ∃ counts', countJobLine (loadColDetails d.columns) counts a.line = .ok counts' ∧
      ((counts.map Prod.fst).Nodup → (counts'.map Prod.fst).Nodup) ∧
      ∀ c ∈ d.columns, countOf counts' c.name = countOf counts c.name + if JobCounts c a then 1 else 0 := by
  obtain hm | ⟨c, hc, hm, hj⟩ := h
  case inl =>
    refine ⟨counts, ?_, id, ?_⟩
    · rw [countJobLine, if_pos ((not_marked_iff a).mpr hm)]
      rfl
    · simp [JobCounts, hm]
  case inr =>
    refine ⟨Dict.set c.name (countOf counts c.name + 1) counts, ?_, Dict.nodup_set, ?_⟩
    · rw [countJobLine, if_neg ((not_marked_iff a).not.mpr hm), hj]
      simp only [bind, Except.bind, get?_loadColDetails hc]
      rfl
    · intro c' hc'
      rw [countOf, Dict.get?_set]
      by_cases he : c = c'
      case pos =>
        rw [if_pos (congrArg _ he), if_pos ⟨hm, he ▸ hj⟩, he]
        rfl
      case neg =>
        have hn : c.name ≠ c'.name := fun hn => he (d.eq_of_name hc hc' hn)
        have hj' : ¬JobCounts c' a := fun hj' =>
          he (d.eq_of_ids hc hc' (Except.ok.inj (hj.symm.trans hj'.right)))
        rw [if_neg hn, if_neg hj']
        rfl

theorem accepts_of_countJobLine {counts counts' : List (String × Nat)}
    (h : countJobLine (loadColDetails d.columns) counts a.line = .ok counts') : d.Accepts a := by
  rw [countJobLine] at h
  split at h
  case isTrue hm  => exact .inl ((not_marked_iff a).mp hm)
  case isFalse hm =>
    rw [not_marked_iff] at hm
    obtain ⟨ids, hids, h⟩ := Except.bind_eq_ok.mp h
    split at h
    case h_1      => contradiction
    case h_2 name hname =>
      obtain ⟨c, hc, he⟩ := List.mem_map.mp (Dict.mem_of_get?_ofList hname)
      obtain ⟨hi, _⟩ := Prod.mk.inj he
      exact .inr ⟨c, hc, hm, hi ▸ hids⟩

theorem foldlM_accepts {as : List Access} (h : ∀ a ∈ as, d.Accepts a) (counts : List (String × Nat))
    (hn : (counts.map Prod.fst).Nodup) :
    ∃ counts', (as.map Access.line).foldlM (countJobLine (loadColDetails d.columns)) counts = .ok counts' ∧
      (counts'.map Prod.fst).Nodup ∧
      ∀ c ∈ d.columns, countOf counts' c.name = countOf counts c.name + as.countP (JobCounts c ·) := by
  induction as generalizing counts
  case nil => exact ⟨counts, rfl, hn, fun _ _ => rfl⟩
  case cons a as ih =>
    rw [List.forall_mem_cons] at h
    have ⟨counts₁, h₁, hn₁, hc₁⟩ := countJobLine_accepts h.left counts
    have ⟨counts₂, h₂, hn₂, hc₂⟩ := ih h.right counts₁ (hn₁ hn)
    refine ⟨counts₂, ?_, hn₂, fun c hc => ?_⟩
    · rw [List.map_cons, List.foldlM_cons, h₁]
      exact h₂
    · rw [hc₂ c hc, hc₁ c hc, List.countP_cons, Nat.add_assoc, Nat.add_comm (List.countP _ _)]
      simp

theorem accepts_of_foldlM {as : List Access} {counts counts' : List (String × Nat)}
    (h : (as.map Access.line).foldlM (countJobLine (loadColDetails d.columns)) counts = .ok counts') :
    ∀ a ∈ as, d.Accepts a := by
  induction as generalizing counts
  case nil => exact fun _ => (absurd · List.not_mem_nil)
  case cons a as ih =>
    rw [List.map_cons, List.foldlM_cons] at h
    have ⟨counts₁, h₁, h₂⟩ := Except.bind_eq_ok.mp h
    exact List.forall_mem_cons.mpr ⟨accepts_of_countJobLine h₁, ih h₂⟩

theorem split_lines (as : List Access) :
    split '\n' (unlines (as.map Access.line)) = as.map Access.line :=
  split_unlines (by simpa using fun a _ => a.not_mem_line)

-- The script ends without an exception if it gets over each line, and its counts are then right.
theorem columnCountFromJobTrace_accepts {as : List Access} (h : ∀ a ∈ as, d.Accepts a) :
    ∃ counts, columnCountFromJobTrace d.columns (unlines (as.map Access.line)) = .ok counts ∧
      ∀ c ∈ d.columns, countOf counts c.name = as.countP (JobCounts c ·) := by
  have ⟨counts, hok, hn, hc⟩ := foldlM_accepts h [] List.nodup_nil
  refine ⟨counts.mergeSort fun p q => p.2 ≥ q.2, ?_, fun c hcol => ?_⟩
  · rw [columnCountFromJobTrace, split_lines, hok]
    rfl
  · rw [countOf, ← Dict.get?_perm (List.mergeSort_perm counts _).symm hn]
    exact (hc c hcol).trans (Nat.zero_add _)

theorem accepts_of_columnCountFromJobTrace {as : List Access} {counts : List (String × Nat)}
    (h : columnCountFromJobTrace d.columns (unlines (as.map Access.line)) = .ok counts) :
    ∀ a ∈ as, d.Accepts a := by
  rw [columnCountFromJobTrace, split_lines] at h
  have ⟨counts', h', _⟩ := Except.bind_eq_ok.mp h
  exact accepts_of_foldlM h'

variable (hd : ∀ c ∈ d.columns, c.tableId < 256 ∧ c.columnId < 16)

include hd

theorem jobIds_of_prefix (hm : marked a.addr = some ds) (hc : c ∈ d.columns) (hge : 16 ≤ c.tableId)
    (hp : searchKey c <+: ds) : jobIds a.line = .ok (c.tableId, c.columnId) := by
  have ⟨es, he, hes⟩ := exists_marked hm
  subst he
  have ⟨hlt, hlt'⟩ := hd c hc
  exact (jobIds_line hm hes).trans ((decode_eq_iff hes hge hlt hlt').mpr hp)

theorem key?_iff_jobCounts (h : d.Reads a.addr) (hc : c ∈ d.columns) :
    a.key? 3 = some (searchKey c) ↔ JobCounts c a := by
  cases hm : marked a.addr
  case none => simp [Access.key?, JobCounts, hm]
  case some ds =>
    have hcol : ∀ c ∈ d.columns, c.columnId < 16 := fun c hc => (hd c hc).right
    obtain ⟨c₀, hc₀, hge, hp⟩ := h ds hm
    obtain ⟨hlt, hlt'⟩ := hd c₀ hc₀
    have hw : (searchKey c₀).length = 3 := by rw [searchKey_eq_of_le hge hlt hlt']; rfl
    have hkey : a.key? 3 = some (searchKey c₀) := (key?_eq_some_iff hw).mpr ⟨ds, hm, hp⟩
    rw [hkey, Option.some.injEq, JobCounts, jobIds_of_prefix hd hm hc₀ hge hp, hm]
    constructor
    case mp  => exact fun h => ⟨Option.some_ne_none ds, by rw [d.eq_of_searchKey hcol hc₀ hc h]⟩
    case mpr => exact fun h => by rw [d.eq_of_ids hc₀ hc (Except.ok.inj h.right)]

-- An access that both counters count has a table id with two digits.
theorem reads_of_jobCounts (hc : c ∈ d.columns) (hge : 16 ≤ c.tableId) (h : JobCounts c a) :
    d.Reads a.addr := by
  intro ds hm
  have ⟨es, he, hes⟩ := exists_marked hm
  subst he
  have ⟨hlt, hlt'⟩ := hd c hc
  exact ⟨c, hc, hge, (decode_eq_iff hes hge hlt hlt').mp ((jobIds_line hm hes).symm.trans h.right)⟩

theorem agree_iff (as : List Access) :
    d.Agree (unlines (as.map Access.line)) ↔ ∀ a ∈ as, d.Reads a.addr := by
  have hcol : ∀ c ∈ d.columns, c.columnId < 16 := fun c hc => (hd c hc).right
  constructor
  case mp =>
    rintro ⟨counts, hok, heq⟩ a ha
    have hacc := accepts_of_columnCountFromJobTrace hok
    have ⟨counts', hok', hcount⟩ := columnCountFromJobTrace_accepts hacc
    obtain rfl := Except.ok.inj (hok.symm.trans hok')
    obtain hm | ⟨c, hc, hj⟩ := hacc a ha
    case inl => exact fun ds hds => by simp [hm] at hds
    case inr =>
      have hrep := (d.reported_countColumns hcol hc 3 as).symm.trans (heq c hc)
      have hpos : 0 < as.countP (·.key? 3 = some (searchKey c)) := by
        rw [Option.some.inj hrep]
        change 0 < countOf counts c.name
        exact hcount c hc ▸ List.countP_pos_iff.mpr ⟨a, ha, by simpa using hj⟩
      have ⟨a', _, hk⟩ := List.countP_pos_iff.mp hpos
      have hlen := length_key? (of_decide_eq_true hk)
      have hge : 16 ≤ c.tableId := by
        by_contra hlt
        rw [searchKey_eq (by omega) (hcol c hc)] at hlen
        simp at hlen
      exact reads_of_jobCounts hd hc hge hj
  case mpr =>
    intro h
    have hacc : ∀ a ∈ as, d.Accepts a := by
      intro a ha
      cases hm : marked a.addr
      case none    => exact .inl hm
      case some ds =>
        have ⟨c, hc, hge, hp⟩ := h a ha ds hm
        exact .inr ⟨c, hc, by simp [hm], jobIds_of_prefix hd hm hc hge hp⟩
    have ⟨counts, hok, hcount⟩ := columnCountFromJobTrace_accepts hacc
    refine ⟨counts, hok, fun c hc => ?_⟩
    rw [counterTraceBridgeJob, d.reported_countColumns hcol hc, Option.some.injEq]
    refine (List.countP_congr fun a ha => ?_).trans (hcount c hc).symm
    simpa using key?_iff_jobCounts hd (h a ha) hc

end Details

-- The counters agree if every address with digits for ids has those of a column with a table id of two digits.
theorem jobCounters_agree_iff (ranges : List Block) (d : Details)
    (hd : ∀ c ∈ d.columns, c.tableId < 256 ∧ c.columnId < 16) (text : List Char) (as : List RoiAccess)
    (htext : split '\n' text = as.map RoiAccess.line) (haddr : ∀ a ∈ as, a.addr < 2 ^ 64) :
    ∃ out, isolateJob ranges text = .ok out ∧
      (d.Agree out ↔
        ∀ a ∈ as, d.Reads (a.toAccess.isolatedBy .job (lookupTable ranges)).addr) := by
  refine ⟨_, isolate_eq .job ranges htext haddr, ?_⟩
  have h := d.agree_iff hd (as.map fun a => a.toAccess.isolatedBy .job (lookupTable ranges))
  rw [List.map_map] at h
  exact h.trans List.forall_mem_map

-- The column of a table with one digit.
def Details.personId : Details where
  columns := [⟨"an_person_id", 0, 1⟩]
  names   := by decide
  ids     := by decide

theorem jobCounters_disagree :
    isolateJob [⟨0x1000, 0x2000, 0, 1⟩] "5,R,0x1040,8\n".toList = .ok "0xa001000000001040 R 5\n".toList ∧
    columnCountFromJobTrace Details.personId.columns "0xa001000000001040 R 5\n".toList =
      .ok [("an_person_id", 1)] ∧
    reported (counterTraceBridgeJob Details.personId.columns "0xa001000000001040 R 5\n".toList)
      "an_person_id" = some 0 := by
  decide +kernel

def Details.titleId : Details where
  columns := [⟨"t_id", 20, 0⟩]
  names   := by decide
  ids     := by decide

theorem jobCounters_agree_titleId :
    ∃ out, isolateJob [⟨0x1000, 0x2000, 20, 0⟩] "5,R,0x1040,8\n7,W,0x40,8\n".toList = .ok out ∧
      Details.titleId.Agree out := by
  have ⟨out, ho, h⟩ := jobCounters_agree_iff [⟨0x1000, 0x2000, 20, 0⟩] Details.titleId (by decide)
    "5,R,0x1040,8\n7,W,0x40,8\n".toList [⟨⟨0x1040, .R, 5⟩, 8⟩, ⟨⟨0x40, .W, 7⟩, 8⟩]
    (by decide +kernel) (by decide)
  exact ⟨out, ho, h.mpr (by decide +kernel)⟩

end Hyrise
