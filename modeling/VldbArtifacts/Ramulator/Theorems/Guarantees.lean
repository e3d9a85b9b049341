import VldbArtifacts.Ramulator.Theorems.Memory

-- What the memories guarantee in every run.

namespace Ramulator

open DDR4

namespace Memory

variable {org : Org} {speed : Speed} {channelBits rankBits : Nat} {log : Log} {m : Memory} {k : Nat} {c : Controller}

section Sample

theorem reaches_run {spec : DDR4} {steps : List Step} (h : run spec steps = .ok (log, m)) : Reaches spec log m := by
  have hrun : (run spec steps).Meets (fun s => Reaches spec s.1 s.2) fun _ => True := by
    refine .foldlM (fun s a _ hs => ?_) (.new {} .roBaRaCoCh)
    cases a with
    | send req                         => exact hs.send req
    | setHighWriteqWatermark watermark => exact hs.setHighWriteqWatermark watermark
    | tick =>
      have htick := (Except.meets_self (s.2.tick spec)).mono (fun _ => id) fun _ _ => trivial
      exact htick.bind fun res hres => hs.tick hres
  exact hrun.of_ok h

-- A memory of one channel with one rank that reads a transaction, writes the next one and is asked for that.
def sampleSpec : DDR4 :=
  make .ddr4_8Gb_x4 .ddr4_3200 0 0

def sampleSteps : List Step :=
  [.send ⟨0, .read, 1⟩, .send ⟨64, .write, 2⟩, .send ⟨64, .read, 3⟩] ++ List.replicate 60 .tick

theorem exists_sample : ∃ log m c, Reaches sampleSpec log m ∧ m.ctrls[0]? = some c ∧
    (log 0).issued = [⟨.wr, [0, 0, 0, 0, 0, 1], 35⟩, ⟨.rd, [0, 0, 0, 0, 0, 0], 23⟩, ⟨.act, [0, 0, 0, 0, 0, 0], 1⟩] ∧
    (log 0).calledBack.map (fun p => (p.1.reqId, p.2)) = [(1, 49), (2, 35), (3, 1)] := by
  have hrun : (run sampleSpec sampleSteps).toOption.map (fun s => ((s.1 0).issued,
      (s.1 0).calledBack.map (fun p => (p.1.reqId, p.2)), s.2.ctrls.length)) =
        some ([⟨.wr, [0, 0, 0, 0, 0, 1], 35⟩, ⟨.rd, [0, 0, 0, 0, 0, 0], 23⟩, ⟨.act, [0, 0, 0, 0, 0, 0], 1⟩],
          [(1, 49), (2, 35), (3, 1)], 1) := by
    decide +kernel
  obtain ⟨⟨log, m⟩, hs, he⟩ := Option.map_eq_some_iff.mp hrun
  simp only [Prod.mk.injEq] at he
  obtain ⟨hissued, hcalled, hlen⟩ := he
  exact ⟨log, m, _, reaches_run (Except.toOption_eq_some.mp hs), List.getElem?_eq_getElem (by omega), hissued, hcalled⟩

end Sample

section Commands

variable {later earlier : List Issue} {i : Issue}

-- A channel issues one command in a cycle, and each of them keeps all the timing parameters of the standard.
theorem commands_timely (h : Reaches (make org speed channelBits rankBits) log m) (hc : m.ctrls[k]? = some c)
    (hi : (log k).issued = later ++ i :: earlier) :
    (∀ j ∈ earlier, j.clk < i.clk) ∧ i.Timely (make org speed channelBits rankBits) earlier := by
  obtain ⟨hclk, _, htimely⟩ := ((h.seen (valid_make ..)).ctrl k c hc).commands later i earlier hi
  exact ⟨hclk, htimely⟩

theorem commands_timely_sample : ∃ log m, Reaches sampleSpec log m ∧
    ∃ i earlier, (log 0).issued = i :: earlier ∧ earlier ≠ [] ∧ i.Timely sampleSpec earlier := by
  obtain ⟨log, m, c, h, hc, hi, -⟩ := exists_sample
  have hi' : (log 0).issued = [] ++ _ :: _ := hi
  exact ⟨log, m, h, _, _, hi, by simp, (commands_timely h hc hi').2⟩

-- The commands come in the states that the standard asks for.
theorem commands_legal (h : Reaches (make org speed channelBits rankBits) log m) (hc : m.ctrls[k]? = some c)
    (hi : (log k).issued = later ++ i :: earlier) : i.Legal earlier :=
  (((h.seen (valid_make ..)).ctrl k c hc).commands later i earlier hi).2.1

theorem commands_legal_sample : ∃ log m, Reaches sampleSpec log m ∧
    ∃ i earlier, (log 0).issued = i :: earlier ∧ earlier ≠ [] ∧ i.Legal earlier := by
  obtain ⟨log, m, c, h, hc, hi, -⟩ := exists_sample
  have hi' : (log 0).issued = [] ++ _ :: _ := hi
  exact ⟨log, m, h, _, _, hi, by simp, commands_legal h hc hi'⟩

end Commands

theorem due_iff_dvd {spec : DDR4} {t : Trace} (h : Controller.Seen spec k t c) (hrefi : 0 < spec.speedEntry.nREFI) :
    Controller.Due spec c ↔ spec.speedEntry.nREFI ∣ c.clk + 1 := by
  obtain ⟨n, hn, hle, hlt, -⟩ := h.ledger
  rw [Controller.Due, h.refresh]
  rw [hn] at hle hlt ⊢
  constructor
  case mp => exact fun hdue => ⟨n + 1, by linarith⟩
  case mpr =>
    rintro ⟨q, hq⟩
    -- The next multiple of the interval is the only one within reach.
    have hnq : (n : Int) < q := by nlinarith
    nlinarith

theorem waiting_eq (m : Memory) :
    m.waiting = ((List.range m.ctrls.length).map fun k => m.ctrls[k]?.elim 0 Controller.waiting).sum := by
  rw [waiting]
  congr 1
  apply List.ext_getElem
  case hl => simp
  case h => intro k hk _; simp [List.getElem?_eq_getElem (by simpa using hk : k < m.ctrls.length)]

theorem waiting_eq_zero (h : m.pendingRequests = 0) : m.waiting = 0 := by
  apply List.sum_eq_zero
  intro w hw
  obtain ⟨c, hc, rfl⟩ := List.mem_map.mp hw
  have hzero := List.sum_eq_zero_iff.mp h _ (List.mem_map_of_mem hc)
  have hr : c.readq = [] := List.eq_nil_of_length_eq_zero (by omega)
  have hw : c.writeq = [] := List.eq_nil_of_length_eq_zero (by omega)
  have ha : c.actq = [] := List.eq_nil_of_length_eq_zero (by omega)
  have hp : c.pending = [] := List.eq_nil_of_length_eq_zero (by omega)
  simp [Controller.waiting, Controller.queued, hr, hw, ha, hp]

-- No request is lost, made up or called back twice. When nothing is pending, every request was called back.
theorem requests_conserved (h : Reaches (make org speed channelBits rankBits) log m) :
    log.expected m.ctrls.length = log.completed m.ctrls.length + m.waiting ∧
      (m.pendingRequests = 0 → log.expected m.ctrls.length = log.completed m.ctrls.length) := by
  have hseen := h.seen (valid_make ..)
  have hall : log.expected m.ctrls.length = log.completed m.ctrls.length + m.waiting := by
    rw [waiting_eq, Log.expected, Log.completed, ← List.sum_map_add]
    congr 1
    apply List.map_congr_left
    intro k hk
    have hc := List.getElem?_eq_getElem (List.mem_range.mp hk)
    rw [hc, Option.elim_some]
    exact (hseen.ctrl k _ hc).waiting
  exact ⟨hall, fun hpend => by rw [hall, waiting_eq_zero hpend, add_zero]⟩

theorem requests_conserved_sample : ∃ log m, Reaches sampleSpec log m ∧ (log 0).calledBack ≠ [] ∧
    log.expected m.ctrls.length = log.completed m.ctrls.length + m.waiting := by
  obtain ⟨log, m, c, h, -, -, hcalled⟩ := exists_sample
  exact ⟨log, m, h, fun he => by simp [he] at hcalled, (requests_conserved h).1⟩

-- Every request is served by one command, unless a write answers it, and the ranks are refreshed once in `nREFI`
-- cycles.
theorem requests_served_once (h : Reaches (make org speed channelBits rankBits) log m) (hc : m.ctrls[k]? = some c) :
    let spec := make org speed channelBits rankBits
    Issue.accesses (log k).issued + c.demands + Multiset.map Request.demand (log k).forwarded =
      Multiset.map Request.demand (log k).accepted +
        (c.clk / spec.speedEntry.nREFI).toNat • Controller.refreshDemands spec k := by
  intro spec
  have hspec : spec.Valid := valid_make ..
  obtain ⟨n, hn, hle, hlt, hledger⟩ := ((h.seen hspec).ctrl k c hc).ledger
  have hdiv : c.clk / spec.speedEntry.nREFI = n := by
    rw [hn] at hle hlt
    have hlt' : c.clk < (n + 1) * spec.speedEntry.nREFI := by linarith
    have hupper := Int.ediv_lt_of_lt_mul hspec.refresh hlt'
    have hlower := (Int.le_ediv_iff_mul_le hspec.refresh).mpr hle
    omega
  rw [hdiv, Int.toNat_natCast]
  exact hledger

theorem requests_served_once_sample : ∃ log m c, Reaches sampleSpec log m ∧ m.ctrls[0]? = some c ∧
    Issue.accesses (log 0).issued + c.demands + Multiset.map Request.demand (log 0).forwarded =
      Multiset.map Request.demand (log 0).accepted +
        (c.clk / sampleSpec.speedEntry.nREFI).toNat • Controller.refreshDemands sampleSpec 0 := by
  obtain ⟨log, m, c, h, hc, -⟩ := exists_sample
  exact ⟨log, m, c, h, hc, requests_served_once h hc⟩

-- A write is called back when its data are sent, and a read when they can be there: a read that no write
-- answers waits for the latency of the memory after its command. The commands go where the address says.
theorem callbacks_in_time (h : Reaches (make org speed channelBits rankBits) log m) (hc : m.ctrls[k]? = some c) :
    let spec := make org speed channelBits rankBits
    ∀ p ∈ (log k).calledBack, p.1.addrVec = mapAddr spec m.type p.1.addr ∧
      ((p.1.type = .write ∧ p.1.arrive ≤ p.2 ∧ ⟨.wr, p.1.addrVec, p.2⟩ ∈ (log k).issued) ∨
        (p.1.type = .read ∧ p.1.arrive + 1 ≤ p.2 ∧ ∃ r ∈ (log k).forwarded, r.sent = p.1.sent) ∨
        (p.1.type = .read ∧ ∃ i ∈ (log k).issued, i.cmd = .rd ∧ i.addr = p.1.addrVec ∧ p.1.arrive ≤ i.clk ∧
          i.clk + spec.readLatency ≤ p.2)) := by
  intro spec p hp
  have hseen : Seen spec log m := h.seen (valid_make ..)
  have hctrl := hseen.ctrl k c hc
  constructor
  case left =>
    -- What is called back was accepted.
    have hmem : p.1.sent ∈ (log k).expected := by
      rw [hctrl.waiting]
      exact Multiset.mem_add.mpr (.inl (Multiset.mem_coe.mpr (List.mem_map_of_mem hp)))
    obtain ⟨r, hr, he⟩ := List.mem_map.mp (Multiset.mem_coe.mp hmem)
    obtain ⟨hreq, hvec⟩ := Prod.mk.inj he
    rw [← hvec, ← hreq]
    exact hseen.origin k r (List.mem_of_mem_filter hr)
  case right =>
    rcases hctrl.calledBack p hp with ⟨htype, hdep, hans⟩ | hwrite
    case inr => exact .inl hwrite
    case inl =>
      rcases hans with ⟨hone, hforw⟩ | ⟨i, hi, hcmd, haddr, harr, hlat⟩
      case inl => exact .inr (.inl ⟨htype, hone ▸ hdep, hforw⟩)
      case inr => exact .inr (.inr ⟨htype, i, hi, hcmd, haddr, harr, hlat ▸ hdep⟩)

theorem callbacks_in_time_sample : ∃ log m, Reaches sampleSpec log m ∧ ∃ p ∈ (log 0).calledBack,
    p.1.reqId = 1 ∧ p.2 = 49 ∧ p.1.addrVec = mapAddr sampleSpec m.type p.1.addr := by
  obtain ⟨log, m, c, h, hc, -, hcalled⟩ := exists_sample
  have hmem : (1, 49) ∈ (log 0).calledBack.map (fun p => (p.1.reqId, p.2)) := by simp [hcalled]
  obtain ⟨p, hp, he⟩ := List.mem_map.mp hmem
  obtain ⟨hid, hclk⟩ := Prod.mk.inj he
  exact ⟨log, m, h, p, hp, hid, hclk, (callbacks_in_time h hc p hp).1⟩

end Memory

end Ramulator
