import VldbArtifacts.Ramulator.Theorems.Tracking

-- A command that the tables of a controller let pass is one that the trace lets pass.

namespace Ramulator

open DDR4 DRAM

namespace DDR4

theorem one_le_dist {spec : DDR4} {level : Level} {cmd : Command} {t : TimingEntry}
    (h : t ∈ spec.timing level cmd) : 1 ≤ t.dist := by
  have htable : ∀ x ∈ timingTable spec.speedEntry level, 1 ≤ x.2.2.1 := by
    cases level <;> simp [timingTable]
  obtain ⟨x, hx, hxt⟩ := List.mem_filterMap.mp h
  simp only [Option.ite_none_right_eq_some, Option.some.injEq] at hxt
  rw [← hxt.2]
  exact htable x hx

end DDR4

section Events

variable {q : List Nat} {is : List Issue} {addr : AddrVec}

theorem ids_isPrefix_iff (hq : ids q <+: addr) {j : AddrVec} :
    ids q <+: j ↔ j.take q.length = addr.take q.length := by
  rw [List.prefix_iff_eq_take, length_ids, List.prefix_iff_eq_take.mp hq, length_ids, eq_comm]

theorem issues_events (hq : ids q <+: addr) (cmd : Command) :
    Timing.issues cmd (events q is) =
      (is.filter fun j => j.cmd = cmd ∧ j.addr.take q.length = addr.take q.length).map (·.clk) := by
  induction is
  case nil => rfl
  case cons j is hi =>
    have htarget := @ids_isPrefix_iff q addr hq j.addr
    rw [events, List.filterMap_cons, ← events, List.filter_cons]
    by_cases hj : ids q <+: j.addr
    case pos =>
      have hev : event? q j.addr j.cmd j.clk = some (.target j.cmd j.clk) := by simp [event?, hj]
      simp only [hev, htarget.mp hj, and_true]
      by_cases hc : j.cmd = cmd
      case pos => rw [hc, Timing.issues_target_self]; simpa [hc] using hi
      case neg => rw [Timing.issues_target_of_ne hc]; simpa [hc] using hi
    case neg =>
      have hne : ¬j.addr.take q.length = addr.take q.length := fun he => hj (htarget.mpr he)
      simp only [hne, and_false, decide_false, Bool.false_eq_true, ↓reduceIte, ← hi]
      cases hev : event? q j.addr j.cmd j.clk
      case none => rfl
      case some e =>
        have he : e = .sibling j.cmd j.clk := by
          simp only [event?, hj, ↓reduceIte, Option.ite_none_right_eq_some, Option.some.injEq] at hev
          exact hev.2.symm
        rw [he, Timing.issues_sibling]

theorem sibling_mem_events {j : Issue} (hj : j ∈ is) (hpar : ids q.dropLast <+: j.addr) (hne : ¬ids q <+: j.addr) :
    .sibling j.cmd j.clk ∈ events q is :=
  List.mem_filterMap.mpr ⟨j, hj, by simp [event?, hpar, hne]⟩

theorem clk_of_mem_events {e : Timing.Event Command} (he : e ∈ events q is) : ∃ i ∈ is, e.clk = i.clk := by
  obtain ⟨i, hi, hie⟩ := List.mem_filterMap.mp he
  refine ⟨i, hi, ?_⟩
  unfold event? at hie
  split at hie
  case isTrue => cases hie; rfl
  case isFalse =>
    split at hie
    case isTrue  => cases hie; rfl
    case isFalse => cases hie

end Events

namespace Tracks

variable {spec : DDR4} {k : Nat} {is : List Issue} {d : DRAM 3} {t : RowTable} {cmd : Command} {addr : AddrVec}
  {clk : Int}

-- A command that is ready at a node keeps the parameters of the level of that node.
theorem allows (h : Tracks spec k is d t) {p : List Nat} {n : Node} (hn : d.node? p = some n)
    (hr : DRAM.isReady n cmd clk = true) (hclk : 0 ≤ clk) :
    Timing.Allows (spec.timing (level (3 - p.length))) (events (k :: p) is) cmd clk := by
  apply (Timing.Clock.after_next_le (fun _ _ => one_le_dist) ?_ (by omega)).mp
  case _ =>
    rw [← h.clock p n hn]
    simp only [DRAM.isReady, Bool.or_eq_true, decide_eq_true_eq] at hr
    omega
  case _ =>
    intro e he
    obtain ⟨i, hi, hei⟩ := clk_of_mem_events he
    exact hei ▸ h.time i hi

theorem timely (h : Tracks spec k is d t) (hcheck : d.check cmd addr clk = true) (hclk : 0 ≤ clk)
    (haddr : ∀ m ≤ 3, m ≤ (scope cmd).toNat → ∃ p, p.length = m ∧ InRange spec 3 p ∧ ids (k :: p) <+: addr) :
    Issue.Timely spec is ⟨cmd, addr, clk⟩ := by
  have hrank : 1 ≤ (scope cmd).toNat := by cases cmd <;> simp [scope, Level.toNat]
  have hready (m : Nat) (hm : m ≤ 3) (hs : m ≤ (scope cmd).toNat) : ∃ p : List Nat, p.length = m ∧
      ids (k :: p) <+: addr ∧ Timing.Allows (spec.timing (level (3 - m))) (events (k :: p) is) cmd clk := by
    obtain ⟨p, rfl, hin, hpre⟩ := haddr m hm hs
    obtain ⟨n, hn⟩ := h.exists_node hin
    refine ⟨p, rfl, hpre, h.allows hn ?_ hclk⟩
    apply (check_iff le_rfl (by simp)).mp hcheck p n hn
    case _ =>
      cases addr
      case nil => simp at hpre
      case cons x xs => exact (List.cons_prefix_cons.mp hpre).2
    case _ => simpa using hs
  have hlevel (l : Level) (hl : l.toNat ≤ 3) : level (3 - l.toNat) = l := by cases l <;> simp_all [Level.toNat, level]
  have hempty (l : Level) (c : Command) (t : TimingEntry) (ht : t ∈ spec.timing l c) : l.toNat ≤ 3 := by
    cases l <;> simp_all [Level.toNat, timing, timingTable]
  constructor
  case target =>
    intro l hl c t ht hc hs j hj
    have h3 := hempty l c t ht
    obtain ⟨p, hp, hpre, hall⟩ := hready l.toNat h3 hl
    rw [hlevel l h3] at hall
    apply hall.target c t ht hc hs j.clk
    rw [issues_events hpre, List.length_cons, hp, ← List.map_drop]
    exact List.mem_map_of_mem hj
  case sibling =>
    intro l hl c t ht hc hs j hj hjc hpar hne
    have h3 := hempty l c t ht
    obtain ⟨p, hp, hpre, hall⟩ := hready l.toNat h3 hl
    rw [hlevel l h3] at hall
    apply hall.sibling c t ht hc hs j.clk
    rw [← hjc]
    apply sibling_mem_events hj
    case hpar =>
      have hpre' : ids (k :: p).dropLast <+: addr := ids_dropLast _ ▸ (List.dropLast_prefix _).trans hpre
      rw [ids_isPrefix_iff hpre']
      simpa [hp] using hpar
    case hne =>
      rw [ids_isPrefix_iff hpre]
      simpa [hp] using hne

-- What is ready and what comes first depends on the tracked tables only.
theorem check_eq (h : Tracks spec k is d t) {d' : DRAM 3} (h' : Tracks spec k is d' t)
    (hcheck : d.check cmd addr clk = true) : d'.check cmd addr clk = true := by
  have hs : 3 - 3 ≤ (scope cmd).toNat := by simp
  apply (check_iff le_rfl hs).mpr
  intro p n' hn' hp hlen
  obtain ⟨n, hn⟩ := h.exists_node ((h'.isSome_iff p).mp (by simp [hn']))
  have hr := (check_iff le_rfl hs).mp hcheck p n hn hp hlen
  rw [DRAM.isReady, h'.clock p n' hn', ← h.clock p n hn]
  exact hr

theorem decode_eq (h : Tracks spec k is d t) {d' : DRAM 3} (h' : Tracks spec k is d' t) {c : Command}
    (hc : c = .rd ∨ c = .wr) (haddr : OfBank spec k addr) : d.decode c addr = d'.decode c addr := by
  obtain ⟨r, g, b, row, col, rfl, hin⟩ := haddr
  have hr : InRange spec 3 [r] := ⟨hin.1, trivial⟩
  obtain ⟨rn, hrn⟩ := h.exists_node hr
  obtain ⟨rn', hrn'⟩ := h'.exists_node hr
  obtain ⟨n, hn⟩ := h.exists_node hin
  obtain ⟨n', hn'⟩ := h'.exists_node hin
  have hst := (h.bank r g b n hn).trans (h'.bank r g b n' hn').symm
  rw [decode_access hc hrn (h.up r rn hrn) hn rfl rfl rfl, decode_access hc hrn' (h'.up r rn' hrn') hn' rfl rfl rfl]
  have hbank : n.bankState = n'.bankState := congrArg Prod.fst hst
  have hrow : n.rowState = n'.rowState := congrArg Prod.snd hst
  simp only [bankPrereq, hbank, hrow]

-- The first command of a read or a write is legal, and it can be issued.
theorem issue_access (h : Tracks spec k is d t) {c : Command} (hc : c = .rd ∨ c = .wr) (haddr : OfBank spec k addr)
    (hcheck : d.check (d.decode c addr) addr clk = true) (hclk : 0 ≤ clk) :
    d.decode c addr ∈ [Command.act, .pre, c] ∧
      Issue.Legal is ⟨d.decode c addr, addr, clk⟩ ∧ Issue.Timely spec is ⟨d.decode c addr, addr, clk⟩ ∧
      CanIssue spec k is d t ⟨d.decode c addr, addr, clk⟩ := by
  obtain ⟨r, g, b, row, col, rfl, hin⟩ := haddr
  have htimely := h.timely hcheck hclk fun m hm _ => by
    refine ⟨[r, g, b].take m, by simp [hm], ?_, ?_⟩
    case refine_1 => interval_cases m <;> simp_all [InRange]
    case refine_2 => interval_cases m <;> simp [List.cons_prefix_cons]
  obtain ⟨rn, hrn⟩ := h.exists_node (p := [r]) ⟨hin.1, trivial⟩
  obtain ⟨n, hn⟩ := h.exists_node hin
  have hbank := h.bank r g b n hn
  have hdec : d.decode c [(k : Int), r, g, b, row, col] = (bankPrereq n c row).getD c :=
    decode_access hc hrn (h.up r rn hrn) hn rfl rfl rfl
  cases hopen : Issue.openRow [(k : Int), r, g, b] is
  case none =>
    rw [hopen] at hbank
    have hst : n.bankState = .closed := congrArg Prod.fst hbank
    have hact : d.decode c [(k : Int), r, g, b, row, col] = .act := by simp [hdec, bankPrereq, hc, hst]
    rw [hact] at htimely ⊢
    exact ⟨by simp, hopen, htimely, h.act hin hopen hclk⟩
  case some row' =>
    rw [hopen] at hbank
    have hst : n.bankState = .opened := congrArg Prod.fst hbank
    have hrs : n.rowState = [row'] := congrArg Prod.snd hbank
    by_cases hr : row = row'
    case pos =>
      subst hr
      have hacc : d.decode c [(k : Int), r, g, b, row, col] = c := by simp [hdec, bankPrereq, hc, hst, hrs]
      rw [hacc] at htimely ⊢
      have hlegal : Issue.Legal is ⟨c, [(k : Int), r, g, b, row, col], clk⟩ := by
        rcases hc with rfl | rfl <;> exact hopen
      exact ⟨by simp, hlegal, htimely, h.access hc hopen hclk⟩
    case neg =>
      have hpre : d.decode c [(k : Int), r, g, b, row, col] = .pre := by simp [hdec, bankPrereq, hc, hst, hrs, hr]
      have hsome : (Issue.openRow [(k : Int), r, g, b] is).isSome := by simp [hopen]
      rw [hpre] at htimely ⊢
      exact ⟨by simp, hsome, htimely, h.pre hsome hclk⟩

theorem issue_refresh (h : Tracks spec k is d t) (haddr : OfRank spec k addr)
    (hcheck : d.check (d.decode .ref addr) addr clk = true) (hclk : 0 ≤ clk) :
    d.decode .ref addr ∈ [Command.prea, .ref] ∧
      Issue.Legal is ⟨d.decode .ref addr, addr, clk⟩ ∧ Issue.Timely spec is ⟨d.decode .ref addr, addr, clk⟩ ∧
      CanIssue spec k is d t ⟨d.decode .ref addr, addr, clk⟩ := by
  obtain ⟨r, rest, rfl, hin⟩ := haddr
  obtain ⟨rn, hrn⟩ := h.exists_node hin
  have hdec := @decode_ref d ((k : Int) :: r :: rest) r rn hrn rfl
  have htimely := h.timely hcheck hclk fun m _ hm => by
    have hm : m ≤ 1 := hm.trans (by rcases hdec with ⟨-, he⟩ | ⟨-, he⟩ <;> rw [he] <;> simp [scope, Level.toNat])
    refine ⟨[r].take m, by simp [hm], ?_, ?_⟩
    case refine_1 => interval_cases m <;> simp_all [InRange]
    case refine_2 => interval_cases m <;> simp [List.cons_prefix_cons]
  have hopened {g b : Nat} {n : Node} (hn : d.node? [r, g, b] = some n) :
      n.bankState = .opened ↔ (Issue.openRow [(k : Int), r, g, b] is).isSome := by
    have hst : n.bankState = (bankStateOf _).1 := congrArg Prod.fst (h.bank r g b n hn)
    rw [hst]
    cases Issue.openRow [(k : Int), r, g, b] is <;> simp [bankStateOf]
  rcases hdec with ⟨hclosed, he⟩ | ⟨⟨g, b, n, hn, hst⟩, he⟩
  case inl =>
    rw [he] at htimely ⊢
    refine ⟨by simp, ?_, htimely, h.ref hclk⟩
    intro bank hbank
    by_contra hopen
    obtain ⟨r', g, b, rfl, hin'⟩ := h.range bank hopen
    have hr : r' = r := by simpa [Issue.rank] using hbank
    subst hr
    obtain ⟨n, hn⟩ := h.exists_node hin'
    have := (hopened hn).mpr (Option.isSome_iff_ne_none.mpr hopen)
    rw [hclosed g b n hn] at this
    cases this
  case inr =>
    rw [he] at htimely ⊢
    have hsome := (hopened hn).mp hst
    exact ⟨by simp, ⟨[(k : Int), r, g, b], rfl, hsome⟩, htimely, h.prea rfl hsome hclk⟩

end Tracks

end Ramulator
