import VldbArtifacts.CXLSim.Skip
import VldbArtifacts.CXLSim.Theorems.Idle
import VldbArtifacts.CXLSim.Theorems.Ports
import VldbArtifacts.CXLSim.Theorems.Timeline

-- The two builds simulate the same system: what a build skips would have changed nothing that matters.

namespace CXL

variable {n : Nat} {cfg : Config n} {M : Memory} {tick : Int}

theorem skipIf_false {α : Type} (a : α) (x : Sim α) : skipIf False a x = x :=
  rfl

-- Whether a computation is skipped or made does not matter if it would return what there is already.
theorem skipIf_agree {α β : Type} (norm : α → β) {c : Prop} [Decidable c] {a : α} {x x' : Sim α}
    (hx : x.map norm = x'.map norm) (hc : c → x.Meets (norm · = norm a) fun _ => True) :
    Except.Agree (fun b b' => norm b = norm b') (skipIf c a x) x' := by
  intro b b' hb hb'
  rw [hb'] at hx
  obtain ⟨e, he, hn⟩ : ∃ e, x = .ok e ∧ norm e = norm b' := by
    cases x
    case error => cases hx
    case ok e  => exact ⟨e, rfl, Except.ok.inj hx⟩
  unfold skipIf at hb
  split at hb
  case isTrue h =>
    cases hb
    exact ((hc h).of_ok he).symm.trans hn
  case isFalse =>
    cases Except.ok.inj (hb.symm.trans he)
    exact hn

theorem firstOf_map {α β : Type} (g : α → β) (x y : Sim (Option α)) :
    firstOf (x.map (Option.map g)) (y.map (Option.map g)) = (firstOf x y).map (Option.map g) := by
  rcases x with e | (_ | a) <;> rfl

-- The first channel that has something, or what there was before.
theorem firstOf_getD_map {α β : Type} (g : α → β) (x y : Sim (Option α)) (a : α) :
    (do return (← firstOf (x.map (Option.map g)) (y.map (Option.map g))).getD (g a)) =
      (do return (← firstOf x y).getD a : Sim α).map g := by
  rw [firstOf_map]
  rcases firstOf x y with e | (_ | b) <;> rfl

namespace TxPort

variable {dir : Dir} {vcSize bufSize busSize : Nat} {σ : Type} {rules : PackerRules dir σ}
variable {p : TxPort dir vcSize bufSize σ}

theorem settle_of_isActive (h : p.isActive) : p.settle rules = p := by
  simp [settle, h]

theorem settle_of_not_isActive (h : ¬p.isActive) :
    p.settle rules = { p with
      flitToPack := {}, startedPackingAt := 0, flow := rules.newFlit p.flow 0 } := by
  simp [settle, h]

theorem isActive_iff : p.isActive ↔ p.isPackerWaiting ∨ p.packerRollover ≠ 0 := by
  simp [isActive]

-- A new flit is started from nothing.
theorem startFlit_settle (hr : ∀ s, rules.newFlit (rules.newFlit s 0) 0 = rules.newFlit s 0) :
    (p.settle rules).startFlit rules tick = p.startFlit rules tick := by
  by_cases h : p.isActive
  case pos => rw [settle_of_isActive h]
  case neg =>
    rw [settle_of_not_isActive h]
    rw [isActive_iff, not_or, not_not] at h
    simp [startFlit, h, hr]

theorem flitPacker_settle (hr : ∀ s, rules.newFlit (rules.newFlit s 0) 0 = rules.newFlit s 0) :
    (p.settle rules).flitPacker rules tick = p.flitPacker rules tick := by
  rw [flitPacker, flitPacker, startFlit_settle hr]

theorem transmit_settle {params : CXLParams} {bus : CXLBus busSize} :
    (p.settle rules).transmit rules tick params bus =
      (p.transmit rules tick params bus).map (Prod.map (settle rules) id) := by
  have hq : (p.settle rules).txBuffer = p.txBuffer := rfl
  have hl : (p.settle rules).lastTransmittedAt = p.lastTransmittedAt := rfl
  rw [transmit, transmit, hq, hl]
  cases p.txBuffer.q
  case nil => rfl
  case cons f q =>
    simp only
    split
    case isTrue => rfl
    case isFalse =>
      rw [Except.map_bind]
      rfl

-- No channel has a message that is old enough.
theorem getMsgFromVcs_none (hs : ∀ i, ∀ m ∈ p.single.head? i, rules.ready tick p.flow m = .ok false)
    (hh : ∀ i, ∀ m ∈ p.hdr.head? i, rules.ready tick p.flow m = .ok false) :
    (p.getMsgFromVcs rules tick).Meets (· = none) fun _ => True := by
  have hcheck {op : Opcode} {a : VcArray vcSize op}
      (h : ∀ i, ∀ m ∈ a.head? i, rules.ready tick p.flow m = .ok false) (is : List Nat) :
      a.checkVcsForPacking (rules.ready tick p.flow) is = .ok none := by
    induction is
    case nil => rfl
    case cons i is ih =>
      rw [VcArray.checkVcsForPacking]
      cases hm : a.head? (Fin.ofNat numVc i)
      case none   => exact ih
      case some m =>
        simp only [h _ m hm, Except.ok_bind]
        exact ih
  have hsingle (st : RoundRobinState) : p.offerSingle rules tick st = .ok none := by
    simp [offerSingle, hcheck hs]
  have hhdr (st : RoundRobinState) : p.offerHdr rules tick st = .ok none := by
    simp [offerHdr, hcheck hh]
  unfold getMsgFromVcs
  cases p.pkr2State <;> simp [firstOf, hsingle, hhdr]

theorem packFlit_none (hf : p.flitToPack = {}) (hw : p.isPackerWaiting = false)
    (hm : (p.getMsgFromVcs rules tick).Meets (· = none) fun _ => True) :
    (p.packFlit rules tick).Meets (· = p) fun _ => True := by
  have hslots : (p.packSlots rules tick [0, 1, 2, 3]).Meets (· = p) fun _ => True := by
    have htype : (p.flitToPack.slots.getD 0 {}).type = .empty := by
      rw [hf]
      rfl
    have hslot : (p.packSlot rules tick 0).Meets (· = none) fun _ => True := by
      rw [packSlot, if_neg (not_not.mpr htype), if_neg fun h => h.right rfl]
      refine hm.bind fun o ho => ?_
      rw [ho]
      rfl
    refine hslot.bind fun o ho => ?_
    rw [ho]
    rfl
  have hempty : p.flitToPack.isFlitEmpty = true := by
    rw [hf]
    rfl
  refine hslots.bind fun q hq => (assert_meets fun _ => trivial).bind fun _ _ => ?_
  rw [hq]
  simp [← hw, hempty]

-- A packer that is skipped would have started a flit and left it empty.
theorem flitPacker_of_skip {params : CXLParams}
    (hr : ∀ s, rules.newFlit (rules.newFlit s 0) 0 = rules.newFlit s 0)
    (hskip : p.skipPackerCheck tick params)
    (hready : ∀ s i m, m ∈ p.hdr.head? i ∨ m ∈ p.single.head? i →
      tick - m.time.tickCreated < params.delayVcToPack → rules.ready tick s m = .ok false) :
    (p.flitPacker rules tick).Meets (fun p' => p'.settle rules = p.settle rules) fun _ => True := by
  unfold skipPackerCheck at hskip
  split at hskip
  case isTrue => cases hskip
  case isFalse hp =>
    obtain ⟨h₀, hw⟩ : p.packerRollover = 0 ∧ p.isPackerWaiting = false := by
      simpa [not_or] using hp
    have hnew (i : Fin numVc) (m : Message) (hm : m ∈ p.hdr.head? i ∨ m ∈ p.single.head? i) (s : σ) :
        rules.ready tick s m = .ok false := by
      apply hready s i m hm
      have := List.all_eq_true.mp hskip i (List.mem_finRange i)
      simp only [Bool.and_eq_true, Option.all_eq_true, decide_eq_true_eq] at this
      exact hm.elim (this.left m) (this.right m)
    have hstart : p.startFlit rules tick = { p with
        flitToPack := {}, startedPackingAt := tick, flow := rules.newFlit p.flow 0 } := by
      simp [startFlit, hw, h₀]
    have hpack : p.flitPacker rules tick = (p.startFlit rules tick).packFlit rules tick := by
      simp [flitPacker, hstart, isFlitDue, hw, h₀, assert]
    have hnone : ((p.startFlit rules tick).packFlit rules tick).Meets
        (· = p.startFlit rules tick) fun _ => True := by
      rw [hstart]
      refine packFlit_none rfl hw (getMsgFromVcs_none ?_ ?_)
      · exact fun i m hm => hnew i m (.inr hm) _
      · exact fun i m hm => hnew i m (.inl hm) _
    rw [hpack]
    refine hnone.imp fun p' hp' => ?_
    rw [hp', hstart]
    simp [settle, isActive, hw, h₀, hr]

theorem transmit_of_skip {params : CXLParams} {bus : CXLBus busSize}
    (hskip : p.skipTransmitCheck tick params bus) : p.transmit rules tick params bus = .ok (p, bus) := by
  unfold skipTransmitCheck at hskip
  unfold transmit
  cases hq : p.txBuffer.q
  case nil => rfl
  case cons f q =>
    rw [hq] at hskip
    simp only [Bool.or_eq_true, decide_eq_true_eq] at hskip
    exact if_pos hskip

-- An update of the credits does not depend on the scratch fields.
theorem settle_flow {f : σ → σ} (hf : ∀ s, f (rules.newFlit s 0) = rules.newFlit (f s) 0) :
    settle rules { p with flow := f p.flow } = { p.settle rules with flow := f (p.settle rules).flow } := by
  have hact : isActive { p with flow := f p.flow } = p.isActive := rfl
  by_cases h : p.isActive
  case pos => rw [settle_of_isActive (hact.trans h), settle_of_isActive h]
  case neg => rw [settle_of_not_isActive (hact ▸ h), settle_of_not_isActive h, hf]

end TxPort

namespace CXLDevice

variable {busSize : Nat} {d : CXLDevice cfg M}

theorem flitPacker_settle : d.settle.flitPacker tick = d.flitPacker tick := by
  have h : d.settle.tx.flitPacker (devicePackerRules cfg) tick =
      d.tx.flitPacker (devicePackerRules cfg) tick := TxPort.flitPacker_settle fun _ => rfl
  rw [flitPacker, flitPacker, h]
  rfl

theorem settle_flow (f : DeviceFlow → DeviceFlow) :
    settle { d with tx := { d.tx with flow := f d.tx.flow } } =
      { d.settle with tx := { d.settle.tx with flow := f d.settle.tx.flow } } := by
  have htx : TxPort.settle (devicePackerRules cfg) { d.tx with flow := f d.tx.flow } = _ :=
    TxPort.settle_flow fun _ => rfl
  rw [settle, htx]
  rfl

theorem transmit_settle {bus : CXLBus busSize} :
    d.settle.transmit tick bus = (d.transmit tick bus).map (Prod.map settle id) := by
  have h : d.settle.tx.transmit (devicePackerRules cfg) tick cfg.params bus =
      (d.tx.transmit (devicePackerRules cfg) tick cfg.params bus).map
        (Prod.map (TxPort.settle (devicePackerRules cfg)) id) := TxPort.transmit_settle
  rw [transmit, transmit, h]
  cases d.tx.transmit (devicePackerRules cfg) tick cfg.params bus <;> rfl

theorem addExtCredits_settle {c : Credits} : d.settle.addExtCredits c = (d.addExtCredits c).settle :=
  (settle_flow fun s => { s with extCred := { s.extCred with
    rspCredit  := s.extCred.rspCredit + c.rspCredit
    dataCredit := s.extCred.dataCredit + c.dataCredit } }).symm

theorem flitUnpacker_settle : d.settle.flitUnpacker tick = (d.flitUnpacker tick).map settle := by
  have hrx : d.settle.rx = d.rx := rfl
  rw [flitUnpacker, flitUnpacker, hrx, Except.map_bind]
  congr 1
  funext _
  cases d.rx.rxBuffer.q
  case nil => rfl
  case cons f q =>
    simp only
    split
    case isTrue => rfl
    case isFalse =>
      simp only [Except.map_bind]
      congr 1; funext _
      congr 1; funext r
      congr 1; funext _
      exact congrArg Except.ok (addExtCredits_settle (d := { d with
        rx := { r.1 with rxBuffer := r.1.rxBuffer.dequeue } }))

-- A channel whose head is taken, or none.
theorem checkRxVc_settle {vc : CXLBuf cfg.devVcSize Message} :
    d.settle.checkRxVc tick vc = (d.checkRxVc tick vc).map (Option.map settle) := by
  have hdram : d.settle.dram = d.dram := rfl
  rw [checkRxVc, checkRxVc, hdram]
  cases vc.q
  case nil => rfl
  case cons m q =>
    simp only
    split
    case isTrue => rfl
    case isFalse =>
      simp only [Except.map_bind]
      congr 1; funext req
      congr 1; funext inpBuf
      cases m.opCode
      case req =>
        exact congrArg (fun d => Except.ok (some d)) (settle_flow (d := { d with
          dram                := { d.dram with inpBuf }
          messagesInRamulator := d.messagesInRamulator.insertNew m.msgId m })
          fun s => { s with intCred := { s.intCred with reqCredit := s.intCred.reqCredit + 1 } }).symm
      all_goals rfl

theorem checkM2SReq_settle {next : RoundRobinState} :
    d.settle.checkM2SReq tick next = (d.checkM2SReq tick next).map (Option.map settle) := by
  have hrx : d.settle.rx = d.rx := rfl
  rw [checkM2SReq, checkM2SReq, hrx, checkRxVc_settle]
  rcases d.checkRxVc tick d.rx.single with e | (_ | d') <;> rfl

theorem checkM2SRwd_settle {next : RoundRobinState} :
    d.settle.checkM2SRwd tick next = (d.checkM2SRwd tick next).map (Option.map settle) := by
  have hrx : d.settle.rx = d.rx := rfl
  rw [checkM2SRwd, checkM2SRwd, hrx, checkRxVc_settle]
  rcases d.checkRxVc tick d.rx.hdr with e | (_ | d') <;> rfl

theorem sendToRamulator_settle :
    d.settle.sendToRamulator tick = (d.sendToRamulator tick).map settle := by
  have hrx : d.settle.rx = d.rx := rfl
  have hdram : d.settle.dram = d.dram := rfl
  have hstate : d.settle.ramulatorInpState = d.ramulatorInpState := rfl
  rw [sendToRamulator, sendToRamulator, hrx, hdram, hstate, Except.map_bind]
  congr 1; funext _
  cases d.ramulatorInpState
  case W => rfl
  all_goals
    simp only [checkM2SReq_settle, checkM2SRwd_settle]
    exact firstOf_getD_map settle _ _ d

theorem ramulatorReqNotification_settle (r : Request) :
    ramulatorReqNotification tick d.settle r = (ramulatorReqNotification tick d r).map settle := by
  have hmap : d.settle.messagesInRamulator = d.messagesInRamulator := rfl
  have htx : d.settle.tx.hdr = d.tx.hdr ∧ d.settle.tx.single = d.tx.single := ⟨rfl, rfl⟩
  rw [ramulatorReqNotification, ramulatorReqNotification, hmap]
  cases d.messagesInRamulator.lookup r.reqId
  case none => rfl
  case some m =>
    obtain ⟨op, addr, id, time⟩ := m
    cases op
    case req =>
      simp only [htx, Except.map_bind]
      rfl
    case rwd =>
      simp only [htx, Except.map_bind]
      rfl
    all_goals rfl

theorem requestAccepted_settle (o : Option Request) :
    requestAccepted tick d.settle o = (requestAccepted tick d o).map settle := by
  cases o
  case none   => rfl
  case some r =>
    have hmap : d.settle.messagesInRamulator = d.messagesInRamulator := rfl
    rw [requestAccepted, requestAccepted, hmap]
    cases d.messagesInRamulator.lookup r.reqId <;> rfl

theorem updateDram_settle : d.settle.updateDram tick = (d.updateDram tick).map settle := by
  have hdram : d.settle.dram = d.dram := rfl
  rw [updateDram, updateDram, hdram]
  split
  case isFalse => rfl
  case isTrue =>
    have hfeed : { d.settle with dram := d.dram.feed.2 } = settle { d with dram := d.dram.feed.2 } := rfl
    rw [hfeed, requestAccepted_settle]
    cases requestAccepted tick { d with dram := d.dram.feed.2 } d.dram.feed.1
    case error => rfl
    case ok e =>
      have hnote (d : CXLDevice cfg M) (r : Request) : ramulatorReqNotification tick d.settle r =
        (ramulatorReqNotification tick d r).map settle := ramulatorReqNotification_settle r
      have hloop := Except.foldlM_map hnote e.dram.tick.1 e
      change (e.dram.tick.1.foldlM (ramulatorReqNotification tick) e.settle >>= fun d' =>
        .ok { d' with dram := e.dram.tick.2 }) = _
      rw [hloop, Except.ok_bind, Except.map_bind]
      cases e.dram.tick.1.foldlM (ramulatorReqNotification tick) e <;> rfl

theorem flitUnpacker_of_skip (hskip : d.rx.skipUnpackerCheck tick cfg.params) :
    (d.flitUnpacker tick).Meets (· = d) fun _ => True := by
  refine (assert_meets fun _ => trivial).bind fun _ _ => ?_
  rw [RxPort.skipUnpackerCheck] at hskip
  cases hq : d.rx.rxBuffer.q
  case nil => rfl
  case cons f q =>
    have hf : tick - f.time.timeOfReceipt < cfg.params.delayRxBufToUnpack := by simpa [hq] using hskip
    simp only [hf, ↓reduceIte]
    rfl

theorem sendToRamulator_of_skip (hskip : d.skipSendToRamCheck tick) :
    (d.sendToRamulator tick).Meets (· = d) fun _ => True := by
  unfold skipSendToRamCheck at hskip
  split at hskip
  case isTrue => cases hskip
  case isFalse hfull =>
    rw [Bool.and_eq_true] at hskip
    have hnone {vc : CXLBuf cfg.devVcSize Message}
        (h : vc.q.head?.all (tick - ·.time.tickUnpacked < cfg.params.delayVcToRamulator)) :
        d.checkRxVc tick vc = .ok none := by
      unfold checkRxVc
      cases hq : vc.q
      case nil => rfl
      case cons m q => exact if_pos (.inl (by simpa [hq] using h))
    have hreq (next : RoundRobinState) : d.checkM2SReq tick next = .ok none := by
      rw [checkM2SReq, hnone hskip.left]
      rfl
    have hrwd (next : RoundRobinState) : d.checkM2SRwd tick next = .ok none := by
      rw [checkM2SRwd, hnone hskip.right]
      rfl
    refine (assert_meets fun _ => trivial).bind fun _ _ => ?_
    cases d.ramulatorInpState
    case W => trivial
    all_goals simp [firstOf, hreq, hrwd]

theorem transmit_of_skip {bus : CXLBus busSize} (hskip : d.tx.skipTransmitCheck tick cfg.params bus) :
    d.transmit tick bus = .ok (d, bus) := by
  rw [transmit, TxPort.transmit_of_skip hskip]
  rfl

theorem ready_of_skip {s : DeviceFlow} {m : Message}
    (hm : m.time.tickCreated ≤ m.time.tickRamulatorComplete)
    (ht : tick - m.time.tickCreated < cfg.params.delayVcToPack) :
    DeviceFlow.ready cfg tick s m = .ok false :=
  if_neg (by omega)

-- The responses of the device were completed after their requests were created.
def InOrder (d : CXLDevice cfg M) : Prop :=
  ∀ i m, m ∈ d.tx.hdr.head? i ∨ m ∈ d.tx.single.head? i →
    m.time.tickCreated ≤ m.time.tickRamulatorComplete

theorem flitPacker_of_skip (hd : d.InOrder) (hskip : d.tx.skipPackerCheck tick cfg.params) :
    (d.flitPacker tick).Meets (·.settle = d.settle) fun _ => True := by
  have hready (s : DeviceFlow) i m (hm : m ∈ d.tx.hdr.head? i ∨ m ∈ d.tx.single.head? i)
      (ht : tick - m.time.tickCreated < cfg.params.delayVcToPack) :
      (devicePackerRules cfg).ready tick s m = .ok false := ready_of_skip (hd i m hm) ht
  refine (TxPort.flitPacker_of_skip (fun _ => rfl) hskip hready).bind fun tx htx => ?_
  exact congrArg (fun tx => { d with tx }) htx

theorem map_settle {f : CXLDevice cfg M → Sim (CXLDevice cfg M)} {d d' : CXLDevice cfg M}
    (hf : ∀ d, f d.settle = (f d).map settle) (h : d.settle = d'.settle) :
    (f d).map settle = (f d').map settle := by
  rw [← hf, h, hf]

-- One of the builds may skip what the other one does.
theorem update_agree {b b' : Build} (hb : b'.skipCycle = false) {d d' : CXLDevice cfg M}
    {bus : CXLBus busSize} (hd : d.InOrder) (h : d.settle = d'.settle) :
    Except.Agree (fun r r' => r.1.settle = r'.1.settle ∧ r.2 = r'.2) (d.update tick b bus)
      (d'.update tick b' bus) := by
  unfold update
  simp only [hb, Bool.false_eq_true, false_and, skipIf_false]
  have hpack : d'.flitPacker tick = d.flitPacker tick := by
    rw [← flitPacker_settle, ← h, flitPacker_settle]
  refine (skipIf_agree settle (congrArg _ hpack.symm) fun hc => flitPacker_of_skip hd hc.right).bind
    fun d d' h => ?_
  refine (skipIf_agree settle (map_settle (fun _ => flitUnpacker_settle) h) fun hc =>
    (flitUnpacker_of_skip hc.right).imp fun _ he => congrArg settle he).bind fun d d' h => ?_
  refine (skipIf_agree settle (map_settle (fun _ => sendToRamulator_settle) h) fun hc =>
    (sendToRamulator_of_skip hc.right).imp fun _ he => congrArg settle he).bind fun d d' h => ?_
  have htransmit : (d.transmit tick bus).map (Prod.map settle id) =
      (d'.transmit tick bus).map (Prod.map settle id) := by
    rw [← transmit_settle, h, transmit_settle]
  refine (skipIf_agree (Prod.map settle id) (a := (d, bus)) htransmit fun hc => ?_).bind
    fun r r' hr => ?_
  case _ =>
    rw [transmit_of_skip hc.right]
    rfl
  case _ =>
    obtain ⟨h, hbus⟩ := Prod.mk.inj hr
    unfold skipIf
    split
    case isTrue => exact .ok ⟨h, hbus⟩
    case isFalse =>
      refine (Except.Agree.of_map (fun _ => updateDram_settle) h).bind fun e e' he => ?_
      exact .ok ⟨he, hbus⟩

end CXLDevice

namespace CXLHost

variable {busSize : Nat} {h : CXLHost cfg}

theorem newFlit_newFlit (s : HostFlow n) : (hostPackerRules cfg).newFlit
    ((hostPackerRules cfg).newFlit s 0) 0 = (hostPackerRules cfg).newFlit s 0 :=
  rfl

theorem flitPacker_settle : h.settle.flitPacker tick = h.flitPacker tick := by
  have ht : h.settle.tx.flitPacker (hostPackerRules cfg) tick =
      h.tx.flitPacker (hostPackerRules cfg) tick := TxPort.flitPacker_settle newFlit_newFlit
  rw [flitPacker, flitPacker, ht]
  rfl

theorem transmit_settle {bus : CXLBus busSize} :
    h.settle.transmit tick bus = (h.transmit tick bus).map (Prod.map settle id) := by
  have ht : h.settle.tx.transmit (hostPackerRules cfg) tick cfg.params bus =
      (h.tx.transmit (hostPackerRules cfg) tick cfg.params bus).map
        (Prod.map (TxPort.settle (hostPackerRules cfg)) id) := TxPort.transmit_settle
  rw [transmit, transmit, ht]
  cases h.tx.transmit (hostPackerRules cfg) tick cfg.params bus <;> rfl

-- The credits are apart from `device_under_consideration`.
theorem settle_flow {f : HostFlow n → HostFlow n}
    (hf : ∀ s : HostFlow n, f { s with deviceUnderConsideration := noDevice } =
      { f s with deviceUnderConsideration := noDevice }) :
    settle { h with tx := { h.tx with flow := f h.tx.flow } } =
      { h.settle with tx := { h.settle.tx with flow := f h.settle.tx.flow } } := by
  have htx : TxPort.settle (hostPackerRules cfg) { h.tx with flow := f h.tx.flow } = _ :=
    TxPort.settle_flow hf
  rw [settle, htx]
  rfl

theorem addExtCredits_settle {k : Nat} {c : Credits} :
    h.settle.addExtCredits k c = (h.addExtCredits k c).settle := by
  unfold addExtCredits
  split
  case isFalse => rfl
  case isTrue hk =>
    exact (settle_flow (f := fun s => s.modifyExtCreds ⟨k, hk⟩ fun e => { e with
      reqCredit  := e.reqCredit + c.reqCredit
      dataCredit := e.dataCredit + c.dataCredit }) fun _ => rfl).symm

theorem flitUnpacker_settle : h.settle.flitUnpacker tick = (h.flitUnpacker tick).map settle := by
  have hrx : h.settle.rx = h.rx := rfl
  rw [flitUnpacker, flitUnpacker, hrx, Except.map_bind]
  congr 1
  funext _
  cases h.rx.rxBuffer.q
  case nil => rfl
  case cons f q =>
    simp only
    split
    case isTrue => rfl
    case isFalse =>
      simp only [Except.map_bind]
      congr 1; funext k
      congr 1; funext _
      congr 1; funext _
      congr 1; funext r
      exact congrArg Except.ok (addExtCredits_settle (h := { h with
        rx := { r.1 with rxBuffer := r.1.rxBuffer.dequeue } }))

-- The books of the host after it has retired a message.
def retired (h : CXLHost cfg) (m : Message) : CXLHost cfg :=
  { h.recordAmatCxl m with
    messagesSentToDevice := h.messagesSentToDevice.erase m.msgId
    numReqsCompleted     := h.numReqsCompleted + 1
    completed            := h.completed ++ [m.msgId] }

theorem checkRxVc_settle {vc : CXLBuf cfg.hostRespSize Message} :
    h.settle.checkRxVc tick vc = (h.checkRxVc tick vc).map (Option.map settle) := by
  rw [checkRxVc, checkRxVc]
  cases vc.q
  case nil => rfl
  case cons m q =>
    simp only
    split
    case isTrue => rfl
    case isFalse =>
      simp only [Except.map_bind]
      congr 1; funext _
      cases m.opCode
      case drs =>
        exact congrArg (fun h => Except.ok (some h)) (settle_flow
          (h := h.retired { m with opCode := .drs, time := { m.time with tickReqComplete := tick } })
          (f := fun s => { s with intCred := { s.intCred with dataCredit := s.intCred.dataCredit + 1 } })
          fun _ => rfl).symm
      case ndr =>
        exact congrArg (fun h => Except.ok (some h)) (settle_flow
          (h := h.retired { m with opCode := .ndr, time := { m.time with tickReqComplete := tick } })
          (f := fun s => { s with intCred := { s.intCred with rspCredit := s.intCred.rspCredit + 1 } })
          fun _ => rfl).symm
      all_goals rfl

theorem checkS2MNdr_settle {next : RoundRobinState} :
    h.settle.checkS2MNdr tick next = (h.checkS2MNdr tick next).map (Option.map settle) := by
  have hrx : h.settle.rx = h.rx := rfl
  rw [checkS2MNdr, checkS2MNdr, hrx, checkRxVc_settle]
  rcases h.checkRxVc tick h.rx.single with e | (_ | h') <;> rfl

theorem checkS2MDrs_settle {next : RoundRobinState} :
    h.settle.checkS2MDrs tick next = (h.checkS2MDrs tick next).map (Option.map settle) := by
  have hrx : h.settle.rx = h.rx := rfl
  rw [checkS2MDrs, checkS2MDrs, hrx, checkRxVc_settle]
  rcases h.checkRxVc tick h.rx.hdr with e | (_ | h') <;> rfl

theorem checkIfReqCompleted_settle :
    h.settle.checkIfReqCompleted tick = (h.checkIfReqCompleted tick).map settle := by
  have hrx : h.settle.rx = h.rx := rfl
  have hstate : h.settle.rcvdRspState = h.rcvdRspState := rfl
  rw [checkIfReqCompleted, checkIfReqCompleted, hrx, hstate]
  split
  case isTrue => rfl
  case isFalse =>
    cases h.rcvdRspState
    case W => rfl
    all_goals
      simp only [checkS2MNdr_settle, checkS2MDrs_settle]
      exact firstOf_getD_map settle _ _ h

theorem flitPacker_of_skip (hskip : h.tx.skipPackerCheck tick cfg.params) :
    (h.flitPacker tick).Meets (·.settle = h.settle) fun _ => True := by
  have hready (s : HostFlow n) (i : Fin numVc) (m : Message)
      (_ : m ∈ h.tx.hdr.head? i ∨ m ∈ h.tx.single.head? i)
      (ht : tick - m.time.tickCreated < cfg.params.delayVcToPack) :
      (hostPackerRules cfg).ready tick s m = .ok false := if_neg (not_le.mpr ht)
  refine (TxPort.flitPacker_of_skip newFlit_newFlit hskip hready).bind fun tx htx => ?_
  exact congrArg (fun tx => { h with tx }) htx

theorem transmit_of_skip {bus : CXLBus busSize} (hskip : h.tx.skipTransmitCheck tick cfg.params bus) :
    h.transmit tick bus = .ok (h, bus) := by
  rw [transmit, TxPort.transmit_of_skip hskip]
  rfl

theorem flitUnpacker_of_skip (hskip : h.rx.skipUnpackerCheck tick cfg.params) :
    (h.flitUnpacker tick).Meets (· = h) fun _ => True := by
  refine (assert_meets fun _ => trivial).bind fun _ _ => ?_
  rw [RxPort.skipUnpackerCheck] at hskip
  cases hq : h.rx.rxBuffer.q
  case nil => rfl
  case cons f q =>
    have hf : tick - f.time.timeOfReceipt < cfg.params.delayRxBufToUnpack := by simpa [hq] using hskip
    simp only [hf, ↓reduceIte]
    rfl

theorem checkIfReqCompleted_of_skip (hskip : h.skipReqCompleteCheck tick) :
    (h.checkIfReqCompleted tick).Meets (· = h) fun _ => True := by
  rw [skipReqCompleteCheck, Bool.and_eq_true] at hskip
  have hnone {vc : CXLBuf cfg.hostRespSize Message}
      (hvc : vc.q.head?.all (tick - ·.time.tickRespUnpacked < cfg.params.delayVcToRetire)) :
      h.checkRxVc tick vc = .ok none := by
    unfold checkRxVc
    cases hq : vc.q
    case nil => rfl
    case cons m q => exact if_pos (by simpa [hq] using hvc)
  have hndr (next : RoundRobinState) : h.checkS2MNdr tick next = .ok none := by
    rw [checkS2MNdr, hnone hskip.right]
    rfl
  have hdrs (next : RoundRobinState) : h.checkS2MDrs tick next = .ok none := by
    rw [checkS2MDrs, hnone hskip.left]
    rfl
  refine .ite (fun _ => rfl) fun _ => ?_
  cases h.rcvdRspState
  case W => trivial
  all_goals simp [firstOf, hndr, hdrs]

theorem map_settle {f : CXLHost cfg → Sim (CXLHost cfg)} {h h' : CXLHost cfg}
    (hf : ∀ h, f h.settle = (f h).map settle) (hh : h.settle = h'.settle) :
    (f h).map settle = (f h').map settle := by
  rw [← hf, hh, hf]

theorem updateNode_agree {b b' : Build} (hb : b'.skipCycle = false) {h h' : CXLHost cfg}
    {bus : CXLBus busSize} (hh : h.settle = h'.settle) :
    Except.Agree (fun r r' => r.1.settle = r'.1.settle ∧ r.2 = r'.2) (h.updateNode tick b bus)
      (h'.updateNode tick b' bus) := by
  unfold updateNode
  simp only [hb, Bool.false_eq_true, false_and, skipIf_false]
  have hcreds : h.extCredsUnknown = h'.extCredsUnknown := by
    have := congrArg extCredsUnknown hh
    exact this
  rw [hcreds]
  refine .bind_left fun _ _ => ?_
  have hpack : h'.flitPacker tick = h.flitPacker tick := by
    rw [← flitPacker_settle, ← hh, flitPacker_settle]
  refine (skipIf_agree settle (congrArg _ hpack.symm) fun hc => flitPacker_of_skip hc.right).bind
    fun h h' hh => ?_
  have htransmit : (h.transmit tick bus).map (Prod.map settle id) =
      (h'.transmit tick bus).map (Prod.map settle id) := by
    rw [← transmit_settle, hh, transmit_settle]
  refine (skipIf_agree (Prod.map settle id) (a := (h, bus)) htransmit fun hc => ?_).bind
    fun r r' hr => ?_
  case _ =>
    rw [transmit_of_skip hc.right]
    rfl
  case _ =>
    obtain ⟨hh, hbus⟩ := Prod.mk.inj hr
    refine (skipIf_agree settle (map_settle (fun _ => flitUnpacker_settle) hh) fun hc =>
      (flitUnpacker_of_skip hc.right).imp fun _ he => congrArg settle he).bind fun h h' hh => ?_
    refine (skipIf_agree settle (map_settle (fun _ => checkIfReqCompleted_settle) hh) fun hc =>
      (checkIfReqCompleted_of_skip hc.right).imp fun _ he => congrArg settle he).bind fun h h' hh => ?_
    exact .ok ⟨hh, hbus⟩

end CXLHost

theorem Ports.Steps.port_lt {delay : Int} {x y : Ports n} (h : Ports.Steps delay tick x y)
    (hx : 0 < n → x.port < n) (hn : 0 < n) : y.port < n := by
  induction h
  case refl => exact hx hn
  case tail _ h ih =>
    cases h
    case turn => exact Arbiter.next_lt ih
    case move =>
      simp only
      split
      case isTrue  => exact Arbiter.next_lt ih
      case isFalse => exact ih

namespace CXLSwitch

variable {size busSize : Nat} {s : CXLSwitch cfg}

theorem route_settle : s.settle.route tick = (s.route tick).map settle := by
  have harb : s.settle.arbNocH2D = s.arbNocH2D := rfl
  have hdest (f : Flit) : s.settle.decodeDestination f = s.decodeDestination f := rfl
  have htx : s.settle.downstreamTx = s.downstreamTx := rfl
  rw [route, route, harb]
  cases readyHead? tick s.arbNocH2D cfg.params.delayCxlNocSwitch
  case none   => rfl
  case some f =>
    simp only [hdest, htx, Except.map_bind]
    congr 1; funext dest
    split
    case isFalse => rfl
    case isTrue  =>
      rw [Except.map_bind]
      rfl

theorem updatePort_settle : s.settle.updatePort = s.updatePort.settle := by
  have hexp : s.settle.expectedRollover = s.expectedRollover := rfl
  rw [updatePort, updatePort, hexp]
  split <;> rfl

theorem arbitrate_settle (k : Nat) (s : CXLSwitch cfg) :
    arbitrate tick k s.settle = (arbitrate tick k s).map (Prod.map id settle) := by
  induction k generalizing s
  case zero => rfl
  case succ k ih =>
    have hport : s.settle.currPort = s.currPort := rfl
    have hrx : s.settle.downstreamRx = s.downstreamRx := rfl
    have harb : s.settle.arbNocD2H = s.arbNocD2H := rfl
    rw [arbitrate, arbitrate]
    simp only [hport, hrx, harb, updatePort_settle]
    split
    case isFalse => exact ih _
    case isTrue hp =>
      cases readyHead? tick (s.downstreamRx ⟨s.currPort, hp⟩) cfg.params.delayCxlPortSwitch
      case none =>
        simp only [ih, Except.map_bind]
        cases arbitrate tick k s.updatePort <;> rfl
      case some f =>
        simp only [Except.map_bind]
        congr 1; funext b
        refine congrArg Except.ok (Prod.ext rfl ?_)
        exact updatePort_settle (s := updateRollover { s with
          arbNocD2H    := b
          downstreamRx := Function.update s.downstreamRx ⟨s.currPort, hp⟩
            (s.downstreamRx ⟨s.currPort, hp⟩).dequeue
          moved        := s.moved ++ [(⟨s.currPort, hp⟩, f)] } f)

theorem updateH2D_settle {busToDevice : Fin n → CXLBus busSize} :
    s.settle.updateH2D tick busToDevice =
      (s.updateH2D tick busToDevice).map (Prod.map id (Prod.map settle id)) := by
  have hrx : s.settle.upstreamRx = s.upstreamRx := rfl
  have harb : s.settle.arbNocH2D = s.arbNocH2D := rfl
  rw [updateH2D, updateH2D, hrx, harb]
  simp only [Except.map_bind]
  congr 1; funext r
  have hr : route tick { s.settle with upstreamRx := r.1, arbNocH2D := r.2 } =
    (route tick { s with upstreamRx := r.1, arbNocH2D := r.2 }).map settle :=
      route_settle (s := { s with upstreamRx := r.1, arbNocH2D := r.2 })
  simp only [hr]
  cases route tick { s with upstreamRx := r.1, arbNocH2D := r.2 }
  case error => rfl
  case ok s' =>
    simp only [Except.ok_map, Except.ok_bind]
    have htx : s'.settle.downstreamTx = s'.downstreamTx := rfl
    have hlt : s'.settle.downstreamLastTransmission = s'.downstreamLastTransmission := rfl
    simp only [htx, hlt]
    rfl

theorem updateD2H_settle {busToHost : CXLBus busSize} :
    s.settle.updateD2H tick busToHost =
      (s.updateD2H tick busToHost).map (Prod.map id (Prod.map settle id)) := by
  rw [updateD2H, updateD2H, arbitrate_settle]
  cases arbitrate tick n s
  case error => rfl
  case ok r =>
    have harb : r.2.settle.arbNocD2H = r.2.arbNocD2H := rfl
    have htx : r.2.settle.upstreamTx = r.2.upstreamTx := rfl
    have hlt : r.2.settle.lastTransmission = r.2.lastTransmission := rfl
    simp only [Except.ok_map, Except.ok_bind, Except.map_bind, Prod.map, harb, htx, hlt]
    rfl

-- The buffers between the ports that receive and those that send, and the latter, are empty.
structure IsDrained (s : CXLSwitch cfg) : Prop where
  arbNocH2D    : s.arbNocH2D.q = []
  downstreamTx : ∀ i, (s.downstreamTx i).q = []
  arbNocD2H    : s.arbNocD2H.q = []
  upstreamTx   : s.upstreamTx.q = []

theorem readyHead?_nil {b : CXLBuf size Flit} {delay : Int} (h : b.q = []) :
    readyHead? tick b delay = none := by
  rw [readyHead?, h]
  rfl

theorem isBufEmpty_iff {α : Type} {b : CXLBuf size α} : b.isBufEmpty ↔ b.q = [] := by
  rw [CXLBuf.isBufEmpty, List.isEmpty_iff]

-- With all buffers empty, the port comes back to where it was.
theorem update_drained {b' : Build} (hb : b'.skipCycle = false) {busToHost : CXLBus busSize}
    {busToDevice : Fin n → CXLBus busSize} (hs : s.IsDrained) (hrx : s.allRxBufEmpty)
    (hp : 0 < n → s.currPort < n) :
    s.update tick b' busToHost busToDevice = .ok (s, busToHost, busToDevice) := by
  rw [allRxBufEmpty, Bool.and_eq_true, List.all_eq_true] at hrx
  have hdown (i : Fin n) : (s.downstreamRx i).q = [] :=
    isBufEmpty_iff.mp (hrx.left i (List.mem_finRange i))
  have hh := @updateH2D_idle _ _ _ s tick busToDevice (readyHead?_nil (isBufEmpty_iff.mp hrx.right))
    (readyHead?_nil hs.arbNocH2D) fun i => readyHead?_nil (hs.downstreamTx i)
  have hport : updatePort^[n] s = s := by
    have h₀ (k : Nat) (hk : k = 0) : updatePort^[k] s = s := by
      rw [hk]
      rfl
    exact (Nat.eq_zero_or_pos n).elim (h₀ n) fun hn => iterate_updatePort (hp hn)
  have harb := @arbitrate_idle _ _ s tick (fun i => readyHead?_nil (hdown i)) n
  simp only [update, hb, Bool.false_eq_true, false_and, ↓reduceIte, hh, Except.ok_bind, updateD2H, harb,
    hport, forward_idle (readyHead?_nil hs.arbNocD2H), sendOut_idle (readyHead?_nil hs.upstreamTx),
    Except.pure_def]

theorem update_settle {b' : Build} (hb : b'.skipCycle = false) {busToHost : CXLBus busSize}
    {busToDevice : Fin n → CXLBus busSize} : s.settle.update tick b' busToHost busToDevice =
      (s.update tick b' busToHost busToDevice).map (Prod.map settle id) := by
  simp only [update, hb, Bool.false_eq_true, false_and, ↓reduceIte, updateH2D_settle]
  cases s.updateH2D tick busToDevice
  case error => rfl
  case ok r =>
    simp only [Except.ok_map, Except.ok_bind, Prod.map, updateD2H_settle]
    cases r.2.1.updateD2H tick busToHost <;> rfl

-- Both builds do the same in a tick that is not skipped, except for the flag.
theorem update_of_not_skipped {b b' : Build} (hb : b'.skipCycle = false) {busToHost : CXLBus busSize}
    {busToDevice : Fin n → CXLBus busSize} (hs : ¬(b.skipCycle ∧ s.skipCycle ∧ s.allRxBufEmpty)) :
    (s.update tick b busToHost busToDevice).map (Prod.map settle id) =
      (s.update tick b' busToHost busToDevice).map (Prod.map settle id) := by
  rw [update, update, if_neg hs]
  simp only [hb, Bool.false_eq_true, false_and, ↓reduceIte, Except.map_bind]
  congr 1; funext r
  congr 1; funext r'
  split <;> rfl

theorem update_agree {b b' : Build} (hb : b'.skipCycle = false) {s s' : CXLSwitch cfg}
    {busToHost : CXLBus busSize} {busToDevice : Fin n → CXLBus busSize} (h : s.settle = s'.settle)
    (hs : s.skipCycle → s.IsDrained) (hp : 0 < n → s.currPort < n) :
    Except.Agree (fun r r' => r.1.settle = r'.1.settle ∧ r.2 = r'.2)
      (s.update tick b busToHost busToDevice) (s'.update tick b' busToHost busToDevice) := by
  have hplain : (s.update tick b' busToHost busToDevice).map (Prod.map settle id) =
      (s'.update tick b' busToHost busToDevice).map (Prod.map settle id) := by
    rw [← update_settle hb, h, update_settle hb]
  have hmap : (s.update tick b busToHost busToDevice).map (Prod.map settle id) =
      (s'.update tick b' busToHost busToDevice).map (Prod.map settle id) := by
    by_cases hskip : b.skipCycle ∧ s.skipCycle ∧ s.allRxBufEmpty
    case neg => exact (update_of_not_skipped hb hskip).trans hplain
    case pos =>
      rw [← hplain, update_drained hb (hs hskip.right.left) hskip.right.right hp, update, if_pos hskip]
      rfl
  intro r r' hr hr'
  rw [hr, hr'] at hmap
  exact Prod.mk.inj (Except.ok.inj hmap)

-- The flag of a flow is only set if its buffers are empty.
theorem updateH2D_drained {busToDevice : Fin n → CXLBus busSize} :
    (s.updateH2D tick busToDevice).Meets
      (fun r => r.1 → r.2.1.arbNocH2D.q = [] ∧ ∀ i, (r.2.1.downstreamTx i).q = []) fun _ => True := by
  refine (Except.Meets.any _).bind fun r _ => ?_
  have hself := Except.meets_self (route tick { s with upstreamRx := r.1, arbNocH2D := r.2 })
  refine (hself.mono (fun _ => id) fun _ _ => trivial).bind fun s₁ h₁ => ?_
  have hports := Except.meets_self (Except.traverseFin fun i => sendOut tick cfg.params .tickSwitchDsTx
    (s₁.downstreamTx i) (s₁.downstreamLastTransmission i) (busToDevice i))
  refine (hports.mono (fun _ => id) fun _ _ => trivial).bind fun ports hports => ?_
  intro hflag
  simp only [Bool.and_eq_true, List.all_eq_true, List.mem_finRange, forall_const, isBufEmpty_iff] at hflag
  obtain ⟨⟨-, harb⟩, htx⟩ := hflag
  have hroute : s₁ = { s with upstreamRx := r.1, arbNocH2D := r.2 } := by
    rw [route, readyHead?_nil harb] at h₁
    exact (Except.ok.inj h₁).symm
  refine ⟨by rw [hroute]; exact harb, fun i => ?_⟩
  have hport := Except.traverseFin_eq_ok.mp hports i
  rw [sendOut_idle (readyHead?_nil (htx i))] at hport
  have hbuf : (ports i).1 = s₁.downstreamTx i := congrArg Prod.fst (Except.ok.inj hport).symm
  exact congrArg CXLBuf.q hbuf ▸ htx i

theorem arbitrate_frame (k : Nat) (s : CXLSwitch cfg) : (arbitrate tick k s).Meets
    (fun r => r.2.arbNocH2D = s.arbNocH2D ∧ r.2.downstreamTx = s.downstreamTx) fun _ => True := by
  have hport (s : CXLSwitch cfg) : s.updatePort.arbNocH2D = s.arbNocH2D ∧
      s.updatePort.downstreamTx = s.downstreamTx := by
    unfold updatePort
    split <;> exact ⟨rfl, rfl⟩
  induction k generalizing s
  case zero => exact ⟨rfl, rfl⟩
  case succ k ih =>
    have hnext := ih s.updatePort
    rw [(hport s).left, (hport s).right] at hnext
    rw [arbitrate]
    split
    case isFalse => exact hnext
    case isTrue hp =>
      dsimp only
      split
      case h_1 => exact (Except.Meets.any _).bind fun _ _ => Except.meets_pure.mpr (hport _)
      case h_2 => exact hnext.bind fun _ h => h

theorem updateD2H_drained {busToHost : CXLBus busSize} :
    (s.updateD2H tick busToHost).Meets (fun r => r.2.1.arbNocH2D = s.arbNocH2D ∧
      r.2.1.downstreamTx = s.downstreamTx ∧
      (r.1 → r.2.1.arbNocD2H.q = [] ∧ r.2.1.upstreamTx.q = [])) fun _ => True := by
  refine (arbitrate_frame n s).bind fun r hr => ?_
  have hforward := Except.meets_self (forward tick cfg.params.delayCxlNocSwitch .upstreamTx
    r.2.arbNocD2H r.2.upstreamTx)
  refine (hforward.mono (fun _ => id) fun _ _ => trivial).bind fun q hq => ?_
  have hsend := Except.meets_self (sendOut tick cfg.params .tickSwitchUsTx q.2 r.2.lastTransmission
    busToHost)
  refine (hsend.mono (fun _ => id) fun _ _ => trivial).bind fun o ho => ?_
  refine ⟨hr.left, hr.right, fun hflag => ?_⟩
  simp only [Bool.and_eq_true, isBufEmpty_iff] at hflag
  obtain ⟨⟨-, harb⟩, htx⟩ := hflag
  rw [forward_idle (readyHead?_nil harb)] at hq
  rw [sendOut_idle (readyHead?_nil htx)] at ho
  rw [← Except.ok.inj ho]
  refine ⟨?_, htx⟩
  rw [← Except.ok.inj hq]
  exact harb

theorem update_isDrained {b : Build} (hb : b.skipCycle) {busToHost : CXLBus busSize}
    {busToDevice : Fin n → CXLBus busSize} (hs : s.skipCycle → s.IsDrained) :
    (s.update tick b busToHost busToDevice).Meets (fun r => r.1.skipCycle → r.1.IsDrained)
      fun _ => True := by
  refine .ite (fun _ => hs) fun _ => ?_
  refine updateH2D_drained.bind fun r hr => ?_
  refine updateD2H_drained.bind fun r' hr' => ?_
  simp only [hb, ↓reduceIte, Except.meets_pure, Bool.and_eq_true]
  intro hflags
  obtain ⟨harb, htx⟩ := hr hflags.left
  obtain ⟨harb', htx'⟩ := hr'.right.right hflags.right
  exact ⟨hr'.left ▸ harb, hr'.right.left ▸ htx, harb', htx'⟩

end CXLSwitch

end CXL
