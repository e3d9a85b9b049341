import VldbArtifacts.CXLSim.System
import VldbArtifacts.CXLSim.Theorems.Basic

-- The ticks of a build that skips cycles in which nothing is due. They only let time pass.

namespace CXL

section Bus

variable {size bufSize : Nat} {b : CXLBus size} {p : CXLParams} {t t' : Int}

-- No flit reaches the end of the bus up to tick `t`.
def CXLBus.isIdle (p : CXLParams) (t : Int) (b : CXLBus size) : Bool :=
  b.flitSlots.head?.all (t - ·.time.timeOfTransmission < p.cxlBusTotalLatency)

theorem CXLBus.update_idle {ty : BusTerminals} {name : BufName} {buf : CXLBuf bufSize Flit}
    (h : b.isIdle p t') (ht : t ≤ t') : b.update p t ty name buf = .ok (b, buf) := by
  have ⟨fs, last, hle⟩ := b
  cases fs
  case nil => simp [update, assert, isFlitStagnant, isEmpty]
  case cons f fs =>
    have hf : t - f.time.timeOfTransmission < p.cxlBusTotalLatency := by
      have : t' - f.time.timeOfTransmission < p.cxlBusTotalLatency := by simpa [isIdle] using h
      omega
    have hstale : ¬t - f.time.timeOfTransmission > p.cxlBusTotalLatency := by omega
    have hsend : ¬t - f.time.timeOfTransmission ≥ p.cxlBusTotalLatency := by omega
    have hle' : fs.length + 1 ≤ size := hle
    simp [update, assert, isFlitStagnant, sendToNode, hle', hstale, hsend]

end Bus

namespace CXLSwitch

variable {n size busSize : Nat} {cfg : Config n} {s : CXLSwitch cfg} {t t' : Int}

theorem readyHead?_idle {b : CXLBuf size Flit} {delay : Int} (h : (readyHead? t' b delay).isNone)
    (ht : t ≤ t') : readyHead? t b delay = none := by
  unfold readyHead? at *
  cases hb : b.q.head?
  case none   => rfl
  case some f =>
    rw [hb] at h
    have : ¬t' - f.time.timeOfReceipt ≥ delay := by simpa [Option.filter] using h
    have : ¬t - f.time.timeOfReceipt ≥ delay := by omega
    simp [Option.filter, this]

-- The buffers of the ports that the loop over the ports looks at are empty.
def emptyPorts : Nat → CXLSwitch cfg → Bool
  | 0, _     => true
  | k + 1, s =>
    if hp : s.currPort < n then
      (s.downstreamRx ⟨s.currPort, hp⟩).isBufEmpty && emptyPorts k s.updatePort
    else
      emptyPorts k s.updatePort

-- No flit may leave its buffer up to tick `t`, and the flag of the last tick stays as it is.
def isIdle (t : Int) (s : CXLSwitch cfg) : Bool :=
  (readyHead? t s.upstreamRx cfg.params.delayCxlPortSwitch).isNone &&
  (readyHead? t s.arbNocH2D cfg.params.delayCxlNocSwitch).isNone &&
  (List.finRange n).all (fun i =>
    (readyHead? t (s.downstreamTx i) cfg.params.delayCxlPortSwitch).isNone &&
    (readyHead? t (s.downstreamRx i) cfg.params.delayCxlPortSwitch).isNone) &&
  (readyHead? t s.arbNocD2H cfg.params.delayCxlNocSwitch).isNone &&
  (readyHead? t s.upstreamTx cfg.params.delayCxlPortSwitch).isNone &&
  s.currPort < n &&
  s.skipCycle == (s.upstreamRx.isBufEmpty && s.arbNocH2D.isBufEmpty &&
    ((List.finRange n).all fun i => (s.downstreamTx i).isBufEmpty) && (emptyPorts n s &&
    s.arbNocD2H.isBufEmpty && s.upstreamTx.isBufEmpty))

theorem updatePort_downstreamRx (s : CXLSwitch cfg) : s.updatePort.downstreamRx = s.downstreamRx := by
  unfold updatePort
  split <;> rfl

theorem arbitrate_idle (h : ∀ i, readyHead? t (s.downstreamRx i) cfg.params.delayCxlPortSwitch = none)
    (k : Nat) : arbitrate t k s = .ok (emptyPorts k s, updatePort^[k] s) := by
  induction k generalizing s
  case zero => rfl
  case succ k ih =>
    have hn : ∀ i, readyHead? t (s.updatePort.downstreamRx i) cfg.params.delayCxlPortSwitch = none :=
      s.updatePort_downstreamRx ▸ h
    rw [arbitrate, emptyPorts, Function.iterate_succ_apply]
    split
    case isTrue hp  => simp [h, ih hn]
    case isFalse hp => exact ih hn

-- The port comes back to where it was.
theorem iterate_updatePort (h : s.currPort < n) : updatePort^[n] s = s := by
  have hk (k : Nat) : updatePort^[k] s =
      if s.expectedRollover = 0 then { s with currPort := (s.currPort + k) % n } else s := by
    induction k
    case zero => simp [Nat.mod_eq_of_lt h]
    case succ k ih =>
      rw [Function.iterate_succ_apply', ih]
      by_cases hr : s.expectedRollover = 0
      case neg => simp [updatePort, hr]
      case pos =>
        have hlt : (s.currPort + k) % n < n := Nat.mod_lt _ (Nat.zero_lt_of_lt h)
        have hmod : (s.currPort + (k + 1)) % n = ((s.currPort + k) % n + 1) % n := by
          rw [Nat.mod_add_mod, Nat.add_assoc]
        simp only [hr, updatePort, if_true, hmod]
        by_cases hl : (s.currPort + k) % n + 1 < n
        case pos => rw [if_pos hl, Nat.mod_eq_of_lt hl]
        case neg =>
          have : (s.currPort + k) % n + 1 = n := by omega
          rw [if_neg hl, this, Nat.mod_self]
  rw [hk]
  split
  case isTrue  => rw [Nat.add_mod_right, Nat.mod_eq_of_lt h]
  case isFalse => rfl

theorem forward_idle {delay : Int} {name : BufName} {src dst : CXLBuf size Flit}
    (h : readyHead? t src delay = none) : forward t delay name src dst = .ok (src, dst) := by
  simp [forward, h]

theorem sendOut_idle {params : CXLParams} {member : TimeField} {buf : CXLBuf size Flit} {lt : Nat}
    {bus : CXLBus busSize} (h : readyHead? t buf params.delayCxlPortSwitch = none) :
    sendOut t params member buf lt bus = .ok (buf, lt, bus) := by
  simp [sendOut, h]

theorem updateH2D_idle {busToDevice : Fin n → CXLBus busSize}
    (hrx : readyHead? t s.upstreamRx cfg.params.delayCxlPortSwitch = none)
    (harb : readyHead? t s.arbNocH2D cfg.params.delayCxlNocSwitch = none)
    (htx : ∀ i, readyHead? t (s.downstreamTx i) cfg.params.delayCxlPortSwitch = none) :
    s.updateH2D t busToDevice = .ok (s.upstreamRx.isBufEmpty && s.arbNocH2D.isBufEmpty &&
      (List.finRange n).all fun i => (s.downstreamTx i).isBufEmpty, s, busToDevice) := by
  have hports : Except.traverseFin (fun i => sendOut t cfg.params .tickSwitchDsTx (s.downstreamTx i)
      (s.downstreamLastTransmission i) (busToDevice i)) =
      .ok fun i => (s.downstreamTx i, s.downstreamLastTransmission i, busToDevice i) :=
    Except.traverseFin_eq_ok.mpr fun i => sendOut_idle (htx i)
  have hroute : s.route t = .ok s := by simp [route, harb]
  simp only [updateH2D, forward_idle hrx, Except.ok_bind, hroute, hports, Except.pure_def]

theorem updateD2H_idle {busToHost : CXLBus busSize} (hp : s.currPort < n)
    (hrx : ∀ i, readyHead? t (s.downstreamRx i) cfg.params.delayCxlPortSwitch = none)
    (harb : readyHead? t s.arbNocD2H cfg.params.delayCxlNocSwitch = none)
    (htx : readyHead? t s.upstreamTx cfg.params.delayCxlPortSwitch = none) :
    s.updateD2H t busToHost = .ok (emptyPorts n s && s.arbNocD2H.isBufEmpty &&
      s.upstreamTx.isBufEmpty, s, busToHost) := by
  simp only [updateD2H, arbitrate_idle hrx, iterate_updatePort hp, forward_idle harb,
    sendOut_idle htx, Except.ok_bind, Except.pure_def]

theorem update_idle {b : Build} {busToHost : CXLBus busSize} {busToDevice : Fin n → CXLBus busSize}
    (h : s.isIdle t') (ht : t ≤ t') :
    s.update t b busToHost busToDevice = .ok (s, busToHost, busToDevice) := by
  simp only [isIdle, Bool.and_eq_true, List.all_eq_true, List.mem_finRange, forall_const, beq_iff_eq,
    decide_eq_true_eq] at h
  have ⟨⟨⟨⟨⟨⟨hur, hah⟩, hports⟩, had⟩, hut⟩, hport⟩, hflag⟩ := h
  have hh := @updateH2D_idle _ _ _ s t busToDevice (readyHead?_idle hur ht)
    (readyHead?_idle hah ht) fun i => readyHead?_idle (hports i).left ht
  have hd := @updateD2H_idle _ _ _ s t busToHost hport
    (fun i => readyHead?_idle (hports i).right ht) (readyHead?_idle had ht) (readyHead?_idle hut ht)
  unfold update
  split
  case isTrue  => rfl
  case isFalse =>
    simp only [hh, hd, Except.ok_bind, Except.pure_def, ← hflag]
    split <;> rfl

end CXLSwitch

section Dram

variable {M : Memory} {d : Dram M}

-- The memory has nothing to fetch, and a cycle changes nothing in it.
structure Dram.IsIdle (d : Dram M) : Prop where
  status : d.status = .empty
  stall  : d.stall = false
  inpBuf : d.inpBuf.buf = []
  addr   : d.reg.addr = 0
  type   : d.reg.type = .refresh
  tick   : M.tick d.memory = ([], d.memory)

instance [DecidableEq M.State] : Decidable d.IsIdle :=
  decidable_of_iff (d.status = .empty ∧ d.stall = false ∧ d.inpBuf.buf.isEmpty ∧ d.reg.addr = 0 ∧
    d.reg.type = .refresh ∧ M.tick d.memory = ([], d.memory))
    ⟨fun ⟨h₁, h₂, h₃, h₄, h₅, h₆⟩ => ⟨h₁, h₂, List.isEmpty_iff.mp h₃, h₄, h₅, h₆⟩,
      fun ⟨h₁, h₂, h₃, h₄, h₅, h₆⟩ => ⟨h₁, h₂, List.isEmpty_iff.mpr h₃, h₄, h₅, h₆⟩⟩

-- Some cycles pass.
def Dram.pass (d : Dram M) (k : Nat) : Dram M :=
  { d with clks := d.clks + k }

theorem Dram.IsIdle.pass (h : d.IsIdle) (k : Nat) : (d.pass k).IsIdle :=
  ⟨h.status, h.stall, h.inpBuf, h.addr, h.type, h.tick⟩

theorem Dram.IsIdle.isActive (h : d.IsIdle) : d.isActive := by
  simp [Dram.isActive, h.status]

theorem Dram.IsIdle.feed (h : d.IsIdle) : d.feed = (none, d) := by
  have hget : d.getDramtraceRequest = d := by
    have ⟨memory, inpBuf, ⟨addr, type, reqId⟩, stall, status, clks⟩ := d
    obtain rfl : addr = 0 := h.addr
    obtain rfl : type = .refresh := h.type
    obtain rfl : status = .empty := h.status
    have hb : inpBuf.buf = [] := h.inpBuf
    simp [getDramtraceRequest, hb]
  simp [Dram.feed, h.status, h.stall, hget]

theorem Dram.IsIdle.tick_eq (h : d.IsIdle) : d.tick = ([], d.pass 1) := by
  simp [Dram.tick, h.tick, Dram.pass]

end Dram

section Port

variable {dir : Dir} {vcSize bufSize busSize : Nat} {σ : Type} {params : CXLParams} {t t' : Int}

theorem TxPort.skipPackerCheck_anti {p : TxPort dir vcSize bufSize σ}
    (h : p.skipPackerCheck t' params) (ht : t ≤ t') : p.skipPackerCheck t params := by
  unfold skipPackerCheck at *
  split at h
  case isTrue => cases h
  case isFalse hn =>
    rw [if_neg hn]
    simp only [List.all_eq_true, List.mem_finRange, forall_const, Bool.and_eq_true,
      Option.all_eq_true, decide_eq_true_eq] at *
    intro i
    have ⟨hh, hs⟩ := h i
    constructor
    · intro m hm
      have := hh m hm
      omega
    · intro m hm
      have := hs m hm
      omega

theorem TxPort.skipTransmitCheck_anti {p : TxPort dir vcSize bufSize σ} {txBus : CXLBus busSize}
    (h : p.skipTransmitCheck t' params txBus) (ht : t ≤ t') : p.skipTransmitCheck t params txBus := by
  unfold skipTransmitCheck at *
  cases hq : p.txBuffer.q
  case nil       => rfl
  case cons f fs =>
    simp only [hq, Bool.or_eq_true, decide_eq_true_eq] at *
    rcases h with h | h | h
    · exact .inl h
    · exact .inr (.inl (by omega))
    · exact .inr (.inr (by omega))

theorem RxPort.skipUnpackerCheck_anti {u : RxPort dir vcSize bufSize}
    (h : u.skipUnpackerCheck t' params) (ht : t ≤ t') : u.skipUnpackerCheck t params := by
  simp only [skipUnpackerCheck, Option.all_eq_true, decide_eq_true_eq] at *
  intro f hf
  have := h f hf
  omega

end Port

-- The number of cycles of the memories in tick `t`.
def cyclesAt (p : CXLParams) (t : Int) : Nat :=
  if t % p.delayRamulatorUpdate = 0 then 1 else 0

section Node

variable {n busSize : Nat} {cfg : Config n} {M : Memory} {t t' : Int} {b : Build}

theorem CXLDevice.skipSendToRamCheck_anti {d : CXLDevice cfg M} (h : d.skipSendToRamCheck t')
    (ht : t ≤ t') : d.skipSendToRamCheck t := by
  unfold skipSendToRamCheck at *
  split at h
  case isTrue => cases h
  case isFalse hn =>
    rw [if_neg hn]
    simp only [Bool.and_eq_true, Option.all_eq_true, decide_eq_true_eq] at *
    constructor
    · intro m hm
      have := h.left m hm
      omega
    · intro m hm
      have := h.right m hm
      omega

theorem CXLHost.skipReqCompleteCheck_anti {h : CXLHost cfg} (hs : h.skipReqCompleteCheck t')
    (ht : t ≤ t') : h.skipReqCompleteCheck t := by
  simp only [skipReqCompleteCheck, Bool.and_eq_true, Option.all_eq_true, decide_eq_true_eq] at *
  constructor
  · intro m hm
    have := hs.left m hm
    omega
  · intro m hm
    have := hs.right m hm
    omega

-- All the checks of the device say that there is nothing to do up to tick `t`.
def CXLDevice.isIdle (t : Int) (d : CXLDevice cfg M) (txBus : CXLBus busSize) : Bool :=
  d.tx.skipPackerCheck t cfg.params && d.rx.skipUnpackerCheck t cfg.params &&
  d.skipSendToRamCheck t && d.tx.skipTransmitCheck t cfg.params txBus

def CXLDevice.pass (d : CXLDevice cfg M) (k : Nat) : CXLDevice cfg M :=
  { d with dram := d.dram.pass k }

theorem CXLDevice.updateDram_idle {d : CXLDevice cfg M} (h : d.dram.IsIdle) :
    d.updateDram t = .ok (d.pass 1) := by
  simp [updateDram, h.isActive, h.feed, requestAccepted, h.tick_eq, pass]

theorem CXLDevice.update_idle {d : CXLDevice cfg M} {txBus : CXLBus busSize} (hb : b.skipCycle)
    (h : d.isIdle t' txBus) (hm : d.dram.IsIdle) (ht : t ≤ t') : d.update t b txBus =
      .ok (d.pass (cyclesAt cfg.params t), txBus) := by
  simp only [isIdle, Bool.and_eq_true] at h
  have ⟨⟨⟨hp, hu⟩, hr⟩, hx⟩ := h
  simp only [update, skipIf, hb, TxPort.skipPackerCheck_anti hp ht, RxPort.skipUnpackerCheck_anti hu ht,
    skipSendToRamCheck_anti hr ht, TxPort.skipTransmitCheck_anti hx ht, and_self, if_true,
    Except.ok_bind]
  split
  case isTrue hd  => rw [cyclesAt, if_neg hd]; rfl
  case isFalse hd => simp [cyclesAt, not_not.mp hd, updateDram_idle hm]

-- All the checks of the host say that there is nothing to do up to tick `t`.
def CXLHost.isIdle (t : Int) (h : CXLHost cfg) (txBus : CXLBus busSize) : Bool :=
  !h.extCredsUnknown && h.tx.skipPackerCheck t cfg.params &&
  h.tx.skipTransmitCheck t cfg.params txBus && h.rx.skipUnpackerCheck t cfg.params &&
  h.skipReqCompleteCheck t

theorem CXLHost.updateNode_idle {h : CXLHost cfg} {txBus : CXLBus busSize} (hb : b.skipCycle)
    (hi : h.isIdle t' txBus) (ht : t ≤ t') : h.updateNode t b txBus = .ok (h, txBus) := by
  simp only [isIdle, Bool.and_eq_true, Bool.not_eq_true'] at hi
  have ⟨⟨⟨⟨hc, hp⟩, hx⟩, hu⟩, hr⟩ := hi
  simp [updateNode, assert, skipIf, hb, hc, TxPort.skipPackerCheck_anti hp ht,
    TxPort.skipTransmitCheck_anti hx ht, RxPort.skipUnpackerCheck_anti hu ht,
    skipReqCompleteCheck_anti hr ht]

end Node

namespace CXLSystem

variable {n : Nat} {cfg : Config n} {M : Memory} {s s' : CXLSystem cfg M} {t : Int} {b : Build}

-- The number of ticks from `t` on and before `t'` at which the memories are updated.
def cycles (p : CXLParams) (t t' : Int) : Nat :=
  ((t' - 1) / p.delayRamulatorUpdate - (t - 1) / p.delayRamulatorUpdate).toNat

theorem cycles_self (p : CXLParams) (t : Int) : cycles p t t = 0 := by
  simp [cycles]

theorem ediv_eq_pred_ediv {d t : Int} (hd : 0 < d) :
    t / d = (t - 1) / d + if t % d = 0 then 1 else 0 := by
  have ht := Int.mul_ediv_add_emod t d
  have hr := Int.emod_nonneg t (Int.ne_of_gt hd)
  have hlt := Int.emod_lt_of_pos t hd
  split
  case isTrue h =>
    have hp : t - 1 = d - 1 + d * (t / d - 1) := by
      rw [h, Int.add_zero] at ht
      rw [Int.mul_sub, ht]
      omega
    have hz : (d - 1) / d = 0 := Int.ediv_eq_zero_of_lt (by omega) (by omega)
    rw [hp, Int.add_mul_ediv_left _ _ (Int.ne_of_gt hd), hz]
    omega
  case isFalse h =>
    have hp : t - 1 = t % d - 1 + d * (t / d) := by omega
    have hz : (t % d - 1) / d = 0 := Int.ediv_eq_zero_of_lt (by omega) (by omega)
    rw [hp, Int.add_mul_ediv_left _ _ (Int.ne_of_gt hd), hz]
    omega

theorem cycles_succ {p : CXLParams} (hp : 0 < p.delayRamulatorUpdate) {t t' : Int} (h : t ≤ t') :
    cycles p t (t' + 1) = cycles p t t' + cyclesAt p t' := by
  have hle : (t - 1) / p.delayRamulatorUpdate ≤ (t' - 1) / p.delayRamulatorUpdate :=
    Int.ediv_le_ediv hp (by omega)
  unfold cycles cyclesAt
  rw [Int.add_sub_cancel, ediv_eq_pred_ediv hp]
  split <;> omega

theorem toU64_lt_toU64 {x y : Int} (hx : 0 ≤ x) (h : x < toU64 y) : toU64 x < toU64 y := by
  have hy : toU64 y < 2 ^ 64 := by
    unfold toU64
    omega
  have hm : toU64 x = x.toNat := by
    rw [toU64, Int.emod_eq_of_lt hx (by omega)]
  omega

-- The whole trace has been read, and what is left of it in the buffer is not due up to tick `t`.
def isTraceIdle (t : Int) (s : CXLSystem cfg M) : Bool :=
  s.host.isTraceFinished && s.host.traceIn.isEmpty &&
  (s.host.textToTraceBuf.isBufEmpty || !s.host.noActiveTransaction &&
    s.host.lastTextToTraceBufDequeue ≤ s.currTick && s.host.textToTraceBuf.q.head?.all fun x =>
      t - s.host.lastTextToTraceBufDequeue < toU64 (x.1 * cfg.params.ticksPerIns))

-- Nothing is due in the system up to tick `t`.
structure IsIdle (t : Int) (s : CXLSystem cfg M) : Prop where
  trace         : s.isTraceIdle t
  host          : s.host.isIdle t s.busFromHost
  dam           : s.dam.IsIdle
  devices       : ∀ i, (s.devices i).isIdle t (s.busFromDevice i) ∧ (s.devices i).dram.IsIdle
  switch        : s.switch.isIdle t
  busToHost     : s.busToHost.isIdle cfg.params t
  busFromHost   : s.busFromHost.isIdle cfg.params t
  busToDevice   : ∀ i, (s.busToDevice i).isIdle cfg.params t
  busFromDevice : ∀ i, (s.busFromDevice i).isIdle cfg.params t

instance [DecidableEq M.State] : Decidable (s.IsIdle t) :=
  decidable_of_iff (s.isTraceIdle t ∧ s.host.isIdle t s.busFromHost ∧ s.dam.IsIdle ∧
    (∀ i, (s.devices i).isIdle t (s.busFromDevice i) ∧ (s.devices i).dram.IsIdle) ∧
    s.switch.isIdle t ∧ s.busToHost.isIdle cfg.params t ∧ s.busFromHost.isIdle cfg.params t ∧
    (∀ i, (s.busToDevice i).isIdle cfg.params t) ∧ ∀ i, (s.busFromDevice i).isIdle cfg.params t)
    ⟨fun ⟨h₁, h₂, h₃, h₄, h₅, h₆, h₇, h₈, h₉⟩ => ⟨h₁, h₂, h₃, h₄, h₅, h₆, h₇, h₈, h₉⟩,
      fun ⟨h₁, h₂, h₃, h₄, h₅, h₆, h₇, h₈, h₉⟩ => ⟨h₁, h₂, h₃, h₄, h₅, h₆, h₇, h₈, h₉⟩⟩

-- Time passes up to tick `t`.
def passTo (s : CXLSystem cfg M) (t : Int) : CXLSystem cfg M :=
  { s with
    dam      := s.dam.pass (if cfg.hasDAM then cycles cfg.params s.currTick t else 0)
    devices  := fun i => (s.devices i).pass (cycles cfg.params s.currTick t)
    currTick := t }

theorem isTraceIdle_of_le (h : s.isTraceIdle t) {s' : CXLSystem cfg M} (hh : s'.host = s.host)
    (ht : s.currTick ≤ s'.currTick) : s'.isTraceIdle t := by
  simp only [isTraceIdle, hh, Bool.and_eq_true, Bool.or_eq_true, decide_eq_true_eq] at *
  refine ⟨h.left, h.right.imp_right fun ⟨⟨hn, hl⟩, hq⟩ => ⟨⟨hn, ?_⟩, hq⟩⟩
  omega

theorem updateTrace_idle (h : s.isTraceIdle t) (ht : s.currTick ≤ t) : s.updateTrace b = .ok s := by
  simp only [isTraceIdle, Bool.and_eq_true, List.isEmpty_iff] at h
  have ⟨⟨hf, hin⟩, h⟩ := h
  have hread : ∃ more, s.host.readTrace = .ok (more, s.host) := by
    unfold CXLHost.readTrace
    split
    case isTrue  => exact ⟨true, rfl⟩
    case isFalse => exact ⟨false, by simp [hin, getline]⟩
  have ⟨more, hread⟩ := hread
  cases hq : s.host.textToTraceBuf.q
  case nil => simp [updateTrace, hf, CXLBuf.isBufEmpty, hq]
  case cons x q =>
    simp only [CXLBuf.isBufEmpty, hq, List.isEmpty_cons, Bool.false_or, Bool.and_eq_true,
      Bool.not_eq_true', List.head?_cons, Option.all_some, decide_eq_true_eq] at h
    have ⟨⟨hn, hlast⟩, hdue⟩ := h
    have hskip : s.skipIdleTicks = .ok s := by simp [skipIdleTicks, hq, hn]
    have hissue : s.issueHead = .ok (true, s) := by
      have : ¬toU64 (s.currTick - s.host.lastTextToTraceBufDequeue) ≥
          toU64 (x.1 * cfg.params.ticksPerIns) :=
        Nat.not_le.mpr (toU64_lt_toU64 (by omega) (by omega))
      simp [issueHead, hq, this]
    have htext : s.textToTrace b = .ok (more, s) := by
      simp [textToTrace, skipIf, hskip, hissue, hread]
    simp only [updateTrace, htext, Except.ok_bind, Except.pure_def, hf, Bool.true_or]
    rw [← hf]
    simp

theorem IsIdle.passTo (h : s.IsIdle t) {t' : Int} (ht : s.currTick ≤ t') : (s.passTo t').IsIdle t :=
  ⟨isTraceIdle_of_le h.trace rfl ht, h.host, h.dam.pass _, fun i => ⟨(h.devices i).left, (h.devices i).right.pass _⟩, h.switch,
    h.busToHost, h.busFromHost, h.busToDevice, h.busFromDevice⟩

theorem updateHostBuses_idle (h : s.IsIdle t) (ht : s.currTick ≤ t) : s.updateHostBuses = .ok s := by
  simp only [updateHostBuses, CXLBus.update_idle h.busToHost ht, CXLBus.update_idle h.busFromHost ht,
    Except.ok_bind, Except.pure_def]

theorem updateDeviceBuses_idle (h : s.IsIdle t) (ht : s.currTick ≤ t) :
    s.updateDeviceBuses = .ok s := by
  have hbuses : Except.traverseFin (fun i => do
      let down ← (s.busToDevice i).update cfg.params s.currTick .switchDevice .deviceRx
        (s.devices i).rx.rxBuffer
      let up ← (s.busFromDevice i).update cfg.params s.currTick .deviceSwitch .downstreamRx
        (s.switch.downstreamRx i)
      return (down, up) : Fin n → Sim _) = .ok fun i => ((s.busToDevice i, (s.devices i).rx.rxBuffer),
        (s.busFromDevice i, s.switch.downstreamRx i)) :=
    Except.traverseFin_eq_ok.mpr fun i => by
      simp only [CXLBus.update_idle (h.busToDevice i) ht, CXLBus.update_idle (h.busFromDevice i) ht,
        Except.ok_bind, Except.pure_def]
  unfold updateDeviceBuses
  rw [hbuses]
  rfl

theorem updateSwitch_idle (h : s.IsIdle t) (ht : s.currTick ≤ t) : s.updateSwitch b = .ok s := by
  simp only [updateSwitch, CXLSwitch.update_idle h.switch ht, Except.ok_bind, Except.pure_def]

theorem updateHost_idle (hb : b.skipCycle) (h : s.IsIdle t) (ht : s.currTick ≤ t) :
    s.updateHost b = .ok s := by
  simp only [updateHost, updateTrace_idle h.trace ht, CXLHost.updateNode_idle hb h.host ht, Except.ok_bind,
    Except.pure_def]

theorem updateDevices_idle (hb : b.skipCycle) (h : s.IsIdle t) (ht : s.currTick ≤ t) :
    s.updateDevices b = .ok { s with
      devices := fun i => (s.devices i).pass (cyclesAt cfg.params s.currTick) } := by
  have hdevices : Except.traverseFin (fun i => (s.devices i).update s.currTick b (s.busFromDevice i)) =
      .ok fun i => ((s.devices i).pass (cyclesAt cfg.params s.currTick), s.busFromDevice i) :=
    Except.traverseFin_eq_ok.mpr fun i =>
      CXLDevice.update_idle hb (h.devices i).left (h.devices i).right ht
  simp only [updateDevices, hdevices, Except.ok_bind, Except.pure_def]

theorem updateDam_idle (h : s.dam.IsIdle) : s.updateDam = { s with dam := s.dam.pass 1 } := by
  simp [updateDam, h.isActive, h.feed, h.tick_eq]

theorem tick_idle (hp : 0 < cfg.params.delayRamulatorUpdate) (hb : b.skipCycle) (h : s.IsIdle t)
    (ht : s.currTick ≤ t) : s.tick b = .ok (s.passTo (s.currTick + 1)) := by
  have hc : cycles cfg.params s.currTick (s.currTick + 1) = cyclesAt cfg.params s.currTick := by
    rw [cycles_succ hp le_rfl, cycles_self, Nat.zero_add]
  have hpass (k : Nat) : IsIdle t { s with devices := fun i => (s.devices i).pass k } :=
    ⟨isTraceIdle_of_le h.trace rfl le_rfl, h.host, h.dam,
      fun i => ⟨(h.devices i).left, (h.devices i).right.pass k⟩, h.switch, h.busToHost, h.busFromHost,
      h.busToDevice, h.busFromDevice⟩
  simp only [tick, update, updateHostBuses_idle h ht, updateSwitch_idle h ht,
    updateDeviceBuses_idle h ht, updateDevices_idle hb h ht, Except.ok_bind]
  rw [updateHost_idle hb (hpass _) ht, Except.ok_bind]
  simp only [passTo, hc, cyclesAt]
  by_cases hm : s.currTick % cfg.params.delayRamulatorUpdate = 0
  case neg => simp [hm, Dram.pass]
  case pos =>
    by_cases hd : cfg.hasDAM
    case neg => simp [hm, hd, Dram.pass]
    case pos => simp [hm, hd, updateDam_idle (hpass 1).dam]

theorem cycles_add {p : CXLParams} (hp : 0 < p.delayRamulatorUpdate) {t : Int} (k : Nat) :
    cycles p t (t + (k + 1 : Nat)) = cycles p t (t + 1) + cycles p (t + 1) (t + 1 + k) := by
  have h₁ : (t - 1) / p.delayRamulatorUpdate ≤ t / p.delayRamulatorUpdate :=
    Int.ediv_le_ediv hp (by omega)
  have h₂ : t / p.delayRamulatorUpdate ≤ (t + k) / p.delayRamulatorUpdate :=
    Int.ediv_le_ediv hp (by omega)
  have h₃ : t + (k + 1 : Nat) - 1 = t + k := by omega
  have h₄ : t + 1 + k - 1 = t + k := by omega
  rw [cycles, cycles, cycles, h₃, h₄, Int.add_sub_cancel]
  omega

theorem passTo_passTo (hp : 0 < cfg.params.delayRamulatorUpdate) (k : Nat) :
    (s.passTo (s.currTick + 1)).passTo (s.currTick + 1 + k) = s.passTo (s.currTick + (k + 1 : Nat)) := by
  have ht : s.currTick + 1 + k = s.currTick + (k + 1 : Nat) := by omega
  simp only [passTo, Dram.pass, CXLDevice.pass, cycles_add hp, ht, Nat.add_assoc]
  split <;> rfl

-- Ticks in which nothing is due pass as one.
theorem run_idle (hp : 0 < cfg.params.delayRamulatorUpdate) (hb : b.skipCycle) {k : Nat}
    (h : s.IsIdle (s.currTick + k)) : s.run b k = .ok (s.passTo (s.currTick + k)) := by
  induction k generalizing s
  case zero =>
    have : s.passTo (s.currTick + (0 : Nat)) = s := by
      simp [passTo, cycles_self, Dram.pass, CXLDevice.pass]
    rw [this]
    rfl
  case succ k ih =>
    have hle : s.currTick ≤ s.currTick + (k + 1 : Nat) := by omega
    have hn : (s.passTo (s.currTick + 1)).IsIdle ((s.passTo (s.currTick + 1)).currTick + k) := by
      have : (s.passTo (s.currTick + 1)).currTick + k = s.currTick + (k + 1 : Nat) := by
        simp only [passTo]
        omega
      exact this ▸ h.passTo (by omega)
    rw [run, tick_idle hp hb h hle, Except.ok_bind, ih hn]
    exact congrArg Except.ok (passTo_passTo hp k)

theorem run_add (b : Build) (j k : Nat) (s : CXLSystem cfg M) :
    s.run b (j + k) = s.run b j >>= run b k := by
  induction j generalizing s
  case zero => rw [Nat.zero_add]; rfl
  case succ j ih =>
    rw [Nat.succ_add, run, run, bind_assoc]
    exact congrArg (s.tick b >>= ·) (funext ih)

-- A run in which some ticks, after which nothing is due for a while, alternate with that while.
def runBy [DecidableEq M.State] (b : Build) :
    List (Nat × Nat) → CXLSystem cfg M → Option (Sim (CXLSystem cfg M))
  | [], s             => some (.ok s)
  | (busy, idle) :: l, s =>
    match s.run b busy with
    | .error e => some (.error e)
    | .ok s    =>
      if s.IsIdle (s.currTick + idle) then
        runBy b l (s.passTo (s.currTick + idle))
      else
        none

theorem run_of_runBy [DecidableEq M.State] (hp : 0 < cfg.params.delayRamulatorUpdate)
    (hb : b.skipCycle) {l : List (Nat × Nat)} {k : Nat} (hk : (l.map fun x => x.1 + x.2).sum = k)
    {r : Sim (CXLSystem cfg M)} (h : s.runBy b l = some r) : s.run b k = r := by
  subst hk
  induction l generalizing s
  case nil => exact Option.some.inj h
  case cons x l ih =>
    rw [List.map_cons, List.sum_cons, Nat.add_assoc, run_add]
    rw [runBy] at h
    split at h
    case h_1 e he =>
      rw [he, Except.error_bind]
      exact Option.some.inj h
    case h_2 s' hs =>
      split at h
      case isTrue hi  => rw [hs, Except.ok_bind, run_add, run_idle hp hb hi, Except.ok_bind, ih h]
      case isFalse hi => cases h

end CXLSystem

end CXL
