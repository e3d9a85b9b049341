import VldbArtifacts.CXLSim.Theorems.CreditReturn
import VldbArtifacts.CXLSim.Theorems.Quiet
import VldbArtifacts.CXLSim.Theorems.Sequence
import VldbArtifacts.CXLSim.Traffic

-- What the links do, seen in the buffers of the system.

namespace CXL

open Framing

section Ports

variable {dir : Dir} {vcSize bufSize : Nat} {σ : Type} {rules : PackerRules dir σ} {fr : Frame Message}

theorem Flit.starts_core (f : Flit) (hasData : Bool) : f.core.starts dir hasData = f.starts dir hasData := by
  simp only [Flit.starts, Flit.singles, Flit.hdrs, Flit.core_cells]

theorem flatMap_starts_core (fs : List Flit) (hasData : Bool) :
    (fs.map Flit.core).flatMap (Flit.starts dir hasData) = fs.flatMap (Flit.starts dir hasData) := by
  rw [List.flatMap_map]
  exact List.flatMap_congr fun f _ => f.starts_core hasData

theorem flitWeight_core (fs : List Flit) : flitWeight dir (fs.map Flit.core) = flitWeight dir fs := by
  rw [flitWeight, List.map_map]
  exact congrArg List.sum (List.map_congr_left fun f _ => by
    simp only [Function.comp, Flit.weight, Flit.hdrs, Flit.core_cells])

-- The messages of the frame are those of the flit that the packer is working on.
theorem TxPort.Shape.packing {p : TxPort dir vcSize bufSize σ} (h : p.Shape rules fr) (hasData : Bool) :
    (frameStarts hasData fr).map Message.core = p.packing hasData := by
  cases h
  case idle hw hi =>
    rw [TxPort.packing, hw, hi.fresh]
    cases hasData <;> rfl
  case waiting hw hb hn =>
    have hcells : p.flitToPack.core.cells dir = (fr.map Message.core).cells Message.msgId :=
      frame_cells (congrArg (List.map Slot.core) hb.slots)
    rw [TxPort.packing, hw, if_pos rfl, ← Flit.starts_core]
    cases hasData
    case false =>
      exact ((congrArg _ hcells).trans (Frame.filterMap_single_cells Message.msgId (fr.map Message.core))).symm
    case true =>
      have := (congrArg (List.filterMap Cell.hdr?) hcells).trans
        (Frame.filterMap_hdr_cells Message.msgId (fr.map Message.core))
      rw [Flit.starts, if_pos rfl, Flit.hdrs, this]
      cases hh : fr.hdr <;> simp [frameStarts, Frame.map, hh]

theorem RxPort.receiver_starts (u : RxPort dir vcSize bufSize) (hasData : Bool) :
    u.receiver.starts hasData = u.log hasData ++ u.pending hasData := by
  cases hasData
  case false => simp [Receiver.starts, RxPort.receiver, RxPort.deframer, RxPort.log, RxPort.pending]
  case true =>
    by_cases h : u.unpackerRollover = 0
    case pos =>
      simp [Receiver.starts, RxPort.receiver, RxPort.deframer, RxPort.log, RxPort.pending, Deframer.pending, h]
    case neg =>
      simp [Receiver.starts, RxPort.receiver, RxPort.deframer, RxPort.log, RxPort.pending, Deframer.pending, h]

theorem RxPort.receiver_read (u : RxPort dir vcSize bufSize) (hasData : Bool) :
    u.receiver.read hasData = (u.log hasData).length := by
  cases hasData <;> simp [Receiver.read, RxPort.receiver, RxPort.deframer, RxPort.log]

theorem RxPort.length_receiver_channel (u : RxPort dir vcSize bufSize) (hasData : Bool) :
    (u.receiver.channel hasData).length = (u.channel hasData).length := by
  cases hasData <;> simp [Receiver.channel, RxPort.receiver, RxPort.channel]

-- The ids of the data slots are logged with their header.
theorem RxPort.hdrLog_ids {u : RxPort dir vcSize bufSize} {o : Option (Nat × Message)}
    (h : u.receiver.deframer.Awaits Message.msgId o) :
    ∀ x ∈ u.hdrLog, x.2 = List.replicate 4 x.1.msgId :=
  fun x hx => h.hdrs (x.1.core, x.2) (List.mem_map_of_mem hx)

end Ports

-- Only the failures that nothing is said about are left.
theorem Net.Reachable.isOther {n : Nat} {cfg : Config n} {x : Net n} {e : Failure} (hn : n ≤ noDevice)
    (h : x.Reachable cfg) (hf : x.Fails cfg e) : e.IsOther := by
  have hslot := (h.routed hn).not_slot hf
  have hcredit := (h.credited hn).not_credit hf
  have hknown := h.known hf
  have hhost : [.reqCredNotZero, .rspCredOutOfRange, .dataCredOutOfRange] ⊆ creditFailures := by decide
  have hdev : [.rspCredNotZero, .reqCredOutOfRange, .dataCredOutOfRange] ⊆ creditFailures := by decide
  have hrule : [.rolloverOutOfRange, .rolloverRuleViolated, .headerBeforeData, .dataNotExpected,
      .illegalSlotType, .packingRuleViolated] ⊆ slotFailures := by decide
  cases hf
  case other ho => exact ho
  case host hf =>
    cases hf
    case other ho => exact ho
    case pack hp =>
      rcases hostPackerRules_fails hp with rfl | hc
      case inl => exact trivial
      case inr => exact absurd (hhost (HostFlow.creditSanityCheck_meets.of_error hc)) hcredit
    case unpack hr =>
      cases hr
      case rule he => exact absurd (hrule he) hslot
      case single    => simp [creditFailures, hostUnpackerRules] at hcredit
      case hdr       => simp [creditFailures, hostUnpackerRules] at hcredit
    case mixedFlit hd =>
      rcases CXLHost.slotsDevice_meets.of_error hd with rfl | rfl
      case inl => exact trivial
      case inr => simp [slotFailures] at hslot
    case unknownResponse => simp at hknown
  case device d hf =>
    cases hf
    case other ho => exact ho
    case pack hp =>
      rcases devicePackerRules_fails hp with rfl | hc | rfl
      case inl     => exact trivial
      case inr.inl => exact absurd (hdev (DeviceFlow.creditSanityCheck_meets.of_error hc)) hcredit
      case inr.inr => exact absurd hp (h.sequenced d).not_fails
    case unpack hr =>
      cases hr
      case rule he => exact absurd (hrule he) hslot
      case single    => simp [creditFailures, deviceUnpackerRules] at hcredit
      case hdr       => simp [creditFailures, deviceUnpackerRules] at hcredit
    case unknownCallback he => rcases he with rfl | rfl <;> simp at hknown

namespace CXLSystem

variable {n : Nat} {cfg : Config n} {M : Memory} {s s' : CXLSystem cfg M} {x : Net n}

namespace Implements

theorem flitsFromHost (hi : s.Implements x) : x.host.out = s.flitsFromHost.map Flit.core :=
  congrArg HostNode.out hi.host.view

theorem flitsToHost (hi : s.Implements x) : x.host.inp = s.flitsToHost.map Flit.core := by
  refine (congrArg HostNode.inp hi.host.view).trans (congrArg (List.map Flit.core) ?_)
  simp only [CXLSystem.flitsToHost, List.append_assoc]

theorem flitsFromDevice (hi : s.Implements x) (d : Fin n) :
    (x.dev d).out = (s.flitsFromDevice d).map Flit.core :=
  congrArg DeviceNode.out (hi.device d).view

theorem flitsToDevice (hi : s.Implements x) (d : Fin n) :
    (x.dev d).inp = (s.flitsToDevice d).map Flit.core := by
  refine (congrArg DeviceNode.inp (hi.device d).view).trans (congrArg (List.map Flit.core) ?_)
  simp only [CXLSystem.flitsToDevice, List.append_assoc]

theorem hostTx (hi : s.Implements x) : x.host.tx = s.host.tx.sender x.host.tx.frame :=
  congrArg HostNode.tx hi.host.view

theorem hostRx (hi : s.Implements x) : x.host.rx = s.host.rx.receiver :=
  congrArg HostNode.rx hi.host.view

theorem deviceTx (hi : s.Implements x) (d : Fin n) :
    (x.dev d).tx = (s.devices d).tx.sender (x.dev d).tx.frame :=
  congrArg DeviceNode.tx (hi.device d).view

theorem deviceRx (hi : s.Implements x) (d : Fin n) : (x.dev d).rx = (s.devices d).rx.receiver :=
  congrArg DeviceNode.rx (hi.device d).view

theorem packed_requests (hi : s.Implements x) (h : x.downlink.Orderly cfg) (d : Fin n) (hasData : Bool) :
    (s.host.tx.packed.filter (·.IsRequest cfg d hasData)).map Message.core =
      (s.devices d).rx.log hasData ++ s.requestsTo d hasData := by
  have hp : x.host.tx.packed = s.host.tx.packed := congrArg Sender.packed hi.hostTx
  have hr := h.requests d hasData
  simp only [Net.downlink] at hr
  rw [← hp, hr, hi.deviceRx, RxPort.receiver_starts, hi.flitsToDevice, hi.flitsFromHost,
    hi.host.shape.packing, flatMap_starts_core, flatMap_starts_core]
  simp only [CXLSystem.requestsTo, List.filter_append, List.append_assoc]

end Implements

section Host

-- The requests and the credits of the host may be any.
def IsFed (s : CXLSystem cfg M) : Prop :=
  ∃ x, s.Implements x ∧ Downlink.Steps cfg (.init cfg) x.downlink

-- Only the sender of the host changes.
theorem Implements.setHostTx (hi : s.Implements x)
    {tx : TxPort .m2s (cfg.hostVcSize / numVc) cfg.hostBufSize (HostFlow n)} {y : Sender (HostFlow n)}
    (hs : tx.Shape (hostPackerRules cfg) x.host.tx.frame) (hb : tx.txBuffer = s.host.tx.txBuffer)
    (hy : y = tx.sender x.host.tx.frame) :
    (s.setHostTx tx).Implements { x with host := { x.host with tx := y } } := by
  subst hy
  refine ⟨⟨hs, hi.host.sent, hi.host.live, hi.host.numbered.congr rfl rfl rfl, ?_⟩, hi.device, hi.prev,
    hi.port, hi.expected, hi.moved⟩
  refine (congrArg (fun h => { h with tx := tx.sender x.host.tx.frame }) hi.host.view).trans ?_
  simp only [CXLSystem.setHostTx, CXLHost.node, hb]
  rfl

theorem onHost_isFed (e : HostEvent n) (h : s.IsFed) : (s.onHost e).Meets IsFed fun _ => True := by
  obtain ⟨x, hi, hx⟩ := h
  cases e
  case call a =>
    refine (perform_meets hi a).mono (fun s' hs' => ?_) fun _ _ => trivial
    obtain ⟨x', hs, hi'⟩ := hs'
    exact ⟨x', hi', hx.trans hs.downlink⟩
  case req i m hm =>
    refine ((VcArray.enqueue_meets hm).mono (fun _ => id) fun _ _ => trivial).bind fun a ha => ?_
    refine Except.meets_pure.mpr ⟨_, hi.setHostTx (hi.host.shape.congr rfl rfl rfl rfl rfl) rfl ?_,
      hx.tail (.arriveSingle hm)⟩
    refine (congrArg (fun y => { y with single := m ::ₘ y.single }) hi.hostTx).trans ?_
    exact congrArg (fun ms => { s.host.tx.sender x.host.tx.frame with single := ms }) ha.symm
  case rwd i m hm =>
    refine ((VcArray.enqueue_meets hm).mono (fun _ => id) fun _ _ => trivial).bind fun a ha => ?_
    refine Except.meets_pure.mpr ⟨_, hi.setHostTx (hi.host.shape.congr rfl rfl rfl rfl rfl) rfl ?_,
      hx.tail (.arriveHdr hm)⟩
    refine (congrArg (fun y => { y with hdr := m ::ₘ y.hdr }) hi.hostTx).trans ?_
    exact congrArg (fun ms => { s.host.tx.sender x.host.tx.frame with hdr := ms }) ha.symm
  case credit extCreds intCred =>
    have hstep : Downlink.Step cfg x.downlink { x.downlink with
        tx := { x.host.tx with flow := { x.host.tx.flow with extCreds, intCred } } } := .credit rfl
    refine Except.meets_pure.mpr ⟨_, hi.setHostTx (hi.host.shape.congr rfl rfl rfl rfl rfl) rfl ?_,
      hx.tail hstep⟩
    exact congrArg (fun y => { y with flow := { y.flow with extCreds, intCred } }) hi.hostTx

theorem init_isFed (trace : List Char) : (init trace : CXLSystem cfg M).IsFed :=
  ⟨_, init_implements trace, .refl⟩

theorem IsFed.events {es : List (HostEvent n)} (hs : s.IsFed) (h : es.foldlM onHost s = .ok s') : s'.IsFed := by
  induction es generalizing s
  case nil =>
    cases h
    exact hs
  case cons e es ih =>
    obtain ⟨s₁, h₁, h₂⟩ := Except.bind_eq_ok.mp h
    exact ih ((onHost_isFed e hs).of_ok h₁) h₂

theorem IsFed.not_slot (hn : n ≤ noDevice) (h : s.IsFed) {d : Fin n} {e : Failure}
    (he : s.perform (.unpackDevice d) = .error e) : e ∉ slotFailures := by
  obtain ⟨x, hi, hx⟩ := h
  intro hslot
  have hu : (s.devices d).flitUnpacker s.currTick = .error e := by
    rcases Except.bind_eq_error.mp he with hu | ⟨_, _, hp⟩
    case _ => exact hu
    case _ => cases hp
  obtain ⟨y, hy, hf⟩ := (CXLDevice.flitUnpacker_meets (hi.device d)).of_error hu
  obtain ⟨f, rest, hinp, hne⟩ := hf.misread hslot
  have hsteps : Downlink.Steps cfg (.init cfg) (x.setDev d y).downlink :=
    hx.trans (Net.Steps.downlink (Net.steps_device hy))
  have hdev : (x.setDev d y).dev d = y := by simp [Net.setDev]
  have hread := (hsteps.orderly hn Downlink.init_orderly).readable (d := d)
    ((congrArg DeviceNode.inp hdev).trans hinp)
  simp only [Net.downlink, hdev] at hread
  exact hne hread

-- The requests that the host packs for a device come to it in this order, each with its own data, whatever
-- comes to the channels of the host and whatever happens to its credits.
theorem requests_delivered (hn : n ≤ noDevice) (trace : List Char) (es : List (HostEvent n))
    (h : es.foldlM onHost (init trace : CXLSystem cfg M) = .ok s) (d : Fin n) :
    (∀ hasData, (s.host.tx.packed.filter (·.IsRequest cfg d hasData)).map Message.core =
      (s.devices d).rx.log hasData ++ s.requestsTo d hasData) ∧
    (∀ y ∈ (s.devices d).rx.hdrLog, y.2 = List.replicate 4 y.1.msgId) ∧
    (∀ f ∈ s.flitsToDevice d, ∀ y ∈ f.slots, y.type ≠ .empty → cfg.sendsTo d y.msg.address) ∧
    ∀ e, s.perform (.unpackDevice d) = .error e → e ∉ slotFailures := by
  have hfed := (init_isFed trace).events h
  refine ⟨fun b => ?_, ?_, fun f hf y hy ht => ?_, fun e => hfed.not_slot hn⟩
  all_goals
    obtain ⟨x, hi, hx⟩ := hfed
    have horderly := hx.orderly hn Downlink.init_orderly
  case _ => exact hi.packed_requests horderly d b
  case _ =>
    obtain ⟨o, ho⟩ := horderly.streams
    obtain ⟨o', ha, -⟩ := ho.inp d
    simp only [Net.downlink, hi.deviceRx] at ha
    exact RxPort.hdrLog_ids ha
  case _ =>
    obtain ⟨o, ho⟩ := horderly.streams
    obtain ⟨o', -, hl⟩ := ho.inp d
    have hmem : f.core ∈ (x.dev d).inp := by
      rw [hi.flitsToDevice d]
      exact List.mem_map_of_mem hf
    obtain ⟨fr, hs, hd⟩ := hl.exists_of_mem hmem
    have hslot : y.core ∈ f.core.slots := List.mem_map_of_mem hy
    exact hd.slots y.core (hs.slots ▸ hslot) ht

-- A read has come to the device.
theorem requests_delivered_read : ∃ s : CXLSystem Config.prompt Memory.fifo,
    ((oneReadCalls.take 20).map HostEvent.call).foldlM onHost (init "0 R 0\n".toList) = .ok s ∧
      ((s.devices 0).rx.log false).length = 1 ∧
      (s.host.tx.packed.filter (·.IsRequest Config.prompt 0 false)).map Message.core =
        (s.devices 0).rx.log false ++ s.requestsTo 0 false := by
  have h : (((oneReadCalls.take 20).map HostEvent.call).foldlM onHost
      (init "0 R 0\n".toList : CXLSystem Config.prompt Memory.fifo)).toOption.map
        (fun s => ((s.devices 0).rx.log false).length) = some 1 := by decide +kernel
  obtain ⟨s, hs, hlen⟩ := Option.map_eq_some_iff.mp h
  have hrun := Except.toOption_eq_some.mp hs
  exact ⟨s, hrun, hlen, (requests_delivered (by decide) _ _ hrun 0).left false⟩

end Host

-- What the arbiter makes of the flits of the devices.
structure Merged (s : CXLSystem cfg M) : Prop where
  -- The flits of a device are moved in the order in which it has sent them.
  sent     : ∀ d, (Ports.movedOf d s.switch.moved ++ s.flitsFromDevice d).map Flit.core =
    (s.devices d).tx.sent.map Flit.core
  -- Another device has its turn only when nothing is owed.
  settles  : Uplink.Settles s.switch.moved
  -- `expected_rollover` is what the device at the current port owes, and no other device owes anything.
  expected : ∀ d, flitWeight .s2m (Ports.movedOf d s.switch.moved) =
    if s.switch.currPort = d.val then (s.switch.expectedRollover : Int) else 0
  -- What a device has packed is in its flits.
  packed   : ∀ d hasData, ((s.devices d).tx.packed.filter (·.opCode = Dir.op .s2m hasData)).map Message.core =
    (s.devices d).tx.sent.flatMap (Flit.starts .s2m hasData) ++ (s.devices d).tx.packing hasData
  -- The host reads the responses in the order in which they were moved, each with its own data.
  read     : ∀ hasData, s.host.rx.log hasData ++ s.host.rx.pending hasData ++
      s.flitsToHost.flatMap (Flit.starts .s2m hasData) =
    s.switch.moved.flatMap fun y => y.2.starts .s2m hasData
  data     : ∀ y ∈ s.host.rx.hdrLog, y.2 = List.replicate 4 y.1.msgId

theorem movedOf_core (d : Fin n) (ys : List (Fin n × Flit)) :
    Ports.movedOf d (ys.map fun y => (y.1, y.2.core)) = (Ports.movedOf d ys).map Flit.core := by
  simp only [Ports.movedOf, List.filterMap_map, List.map_filterMap]
  refine List.filterMap_congr fun y _ => ?_
  by_cases hd : y.1 = d <;> simp [hd]

theorem settles_core {ys : List (Fin n × Flit)} (h : Uplink.Settles (ys.map fun y => (y.1, y.2.core))) :
    Uplink.Settles ys := by
  intro pre p q post heq hne
  have hw := h (pre.map fun y => (y.1, y.2.core)) (p.1, p.2.core) (q.1, q.2.core)
    (post.map fun y => (y.1, y.2.core)) (by simp [heq]) hne
  rw [← hw, ← flitWeight_core]
  simp [Function.comp_def]

theorem Implements.merged (hi : s.Implements x) (h : x.uplink.Orderly fun _ _ => True) : s.Merged := by
  obtain ⟨o, ho⟩ := h.streams
  have hsent (d : Fin n) : (x.dev d).tx.sent = (s.devices d).tx.sent.map Flit.core :=
    congrArg Sender.sent (hi.deviceTx d)
  have hpacked (d : Fin n) : (x.dev d).tx.packed = (s.devices d).tx.packed :=
    congrArg Sender.packed (hi.deviceTx d)
  refine ⟨fun d => ?_, ?_, fun d => ?_, fun d b => ?_, fun b => ?_, ?_⟩
  case _ =>
    have hd := h.sent d
    simp only [Net.uplink, hi.moved, movedOf_core, hi.flitsFromDevice, hsent] at hd
    rw [List.map_append, hd]
  case _ => exact settles_core (hi.moved ▸ h.settles)
  case _ =>
    have hw := Linked.weight (fun _ _ hs => hs.left) (ho.movedOf d)
    have he : s.switch.expectedRollover = owedOf o := hi.expected.symm.trans ho.expected
    have hp : x.uplink.port = s.switch.currPort := hi.port
    have hm : x.uplink.moved = _ := hi.moved
    rw [hm, movedOf_core, List.map_id', flitWeight_core, hp] at hw
    rw [hw, he]
    split <;> simp [owedOf]
  case _ =>
    have hp := (h.tx d).packed b
    simp only [Net.uplink, hsent, hpacked, flatMap_starts_core, (hi.device d).shape.packing] at hp
    exact hp
  case _ =>
    have hr := h.read b
    simp only [Net.uplink, hi.hostRx, hi.flitsToHost, hi.moved, RxPort.receiver_starts,
      List.flatMap_map, Flit.starts_core] at hr
    exact hr
  case _ =>
    obtain ⟨o', ha, -⟩ := ho.inp
    simp only [Net.uplink, hi.hostRx] at ha
    exact RxPort.hdrLog_ids ha

theorem Reaches.hostMisread {trace : List Char} (h : Reaches trace s) {e : Failure}
    (he : s.perform .unpackHost = .error e) (hs : e ∈ slotFailures) :
    e = .singleFlitDifferentDevices ∧ noDevice < n := by
  obtain ⟨x, hx, hi⟩ := h.tracks
  have hu : s.host.flitUnpacker s.currTick = .error e := by
    rcases Except.bind_eq_error.mp he with hu | ⟨_, _, hp⟩
    case _ => exact hu
    case _ => cases hp
  obtain ⟨y, hy, hf⟩ := (CXLHost.flitUnpacker_meets hi.host).of_error hu
  have hreach : Net.Reachable cfg { x with host := y } := hx.trans (Net.steps_host hy)
  exact hreach.host_misread hf hs

-- The arbiter merges the flits of the devices such that the host can read them. Only a flit with messages of
-- several devices, as there may be among more than 4096 devices, is not accepted.
theorem responses_merged {trace : List Char} (h : Reaches trace s) : s.Merged ∧
    ∀ e ∈ slotFailures, s.perform .unpackHost = .error e → e = .singleFlitDifferentDevices ∧ noDevice < n := by
  obtain ⟨x, hx, hi⟩ := h.tracks
  exact ⟨hi.merged hx.uplink_orderly, fun e hs he => h.hostMisread he hs⟩

theorem exists_of_run (trace : List Char) (as : List (Action n)) (P : CXLSystem cfg M → Bool)
    (h : (as.foldlM perform (init trace)).toOption.map P = some true) : ∃ s, Reaches trace s ∧ P s := by
  obtain ⟨s, hs, hP⟩ := Option.map_eq_some_iff.mp h
  exact ⟨s, ⟨as, Except.toOption_eq_some.mp hs⟩, hP⟩

-- The two flits of a response have been moved.
theorem responses_merged_read : ∃ s : CXLSystem Config.prompt Memory.fifo, s.switch.moved.length = 2 ∧
    (Ports.movedOf 0 s.switch.moved ++ s.flitsFromDevice 0).map Flit.core =
      (s.devices 0).tx.sent.map Flit.core := by
  obtain ⟨s, hs, hlen⟩ := exists_of_run "0 R 0\n".toList oneReadCalls
    (fun s : CXLSystem Config.prompt Memory.fifo => s.switch.moved.length == 2) (by decide +kernel)
  exact ⟨s, beq_iff_eq.mp hlen, (responses_merged hs).left.sent 0⟩

section Credits

theorem carried_core (hasData : Bool) (fs : List Flit) :
    carried hasData (fs.map Flit.core) = carried hasData fs := by
  rw [carried, List.map_map]
  rfl

theorem isFrom_core (d : Fin n) (f : Flit) : f.core.isFrom cfg d = f.isFrom cfg d := by
  rw [Flit.isFrom, Flit.core, CXLHost.slotsDevice_core]
  rfl

theorem filter_isFrom_core (d : Fin n) (fs : List Flit) :
    (fs.map Flit.core).filter (·.isFrom cfg d) = (fs.filter (·.isFrom cfg d)).map Flit.core := by
  rw [List.filter_map]
  exact congrArg _ (List.filter_congr fun f _ => isFrom_core d f)

theorem Implements.held (hi : s.Implements x) (d : Fin n) (hasData : Bool) :
    (x.dev d).held hasData = (s.devices d).held hasData := by
  have hm : (x.dev d).mem = mapTags (s.devices d).messagesInRamulator :=
    congrArg DeviceNode.mem (hi.device d).view
  have hs : (x.dev d).tx.single = (s.devices d).tx.single.msgs := congrArg Sender.single (hi.deviceTx d)
  rw [DeviceNode.held, hm, hs]
  rfl

-- No credit is lost and none is made.
structure Conserves (s : CXLSystem cfg M) : Prop where
  -- A place for a request at device `d` is known to the device as free, on its way to the host, known to the
  -- host as free, or taken.
  request  : ∀ d hasData, (s.devices d).tx.flow.intCred.request hasData + s.creditsToHost d hasData +
      (s.host.tx.flow.extCreds d).request hasData + (s.requestsTo d hasData).length +
      ((s.devices d).rx.channel hasData).length + (s.devices d).held hasData = cfg.devVcSize
  -- A place for a response at the host is free, or taken by a request that is no longer in its channel.
  response : ∀ hasData, s.host.tx.flow.intCred.response hasData +
      (mapTags s.host.messagesSentToDevice).countP (·.isWrite = hasData) =
    cfg.hostRespSize + ((if hasData then s.host.tx.hdr.msgs else s.host.tx.single.msgs).card : Int)
  host     : s.host.tx.flow.Nonneg
  device   : ∀ d, (s.devices d).tx.flow.Nonneg

theorem Implements.conserves (hi : s.Implements x) (hx : x.Credited cfg) : s.Conserves := by
  have hflow : x.host.tx.flow = s.host.tx.flow := congrArg Sender.flow hi.hostTx
  have hdev (d : Fin n) : (x.dev d).tx.flow = (s.devices d).tx.flow := congrArg Sender.flow (hi.deviceTx d)
  refine ⟨fun d b => ?_, fun b => ?_, hflow ▸ hx.solvent.host.flow, fun d => hdev d ▸ (hx.solvent.dev d).flow⟩
  case _ =>
    have hp := hx.places d b
    have hr := congrArg List.length (hi.packed_requests hx.routed.downlink d b)
    have hpacked : x.host.tx.packed = s.host.tx.packed := congrArg Sender.packed hi.hostTx
    rw [List.length_map, ← List.countP_eq_length_filter, List.length_append] at hr
    rw [Net.places, HostNode.places, hflow, hpacked, hr, hi.flitsToHost, filter_isFrom_core, carried_core,
      DeviceNode.places, hdev, hi.flitsFromDevice, carried_core, hi.deviceRx, RxPort.receiver_read,
      RxPort.length_receiver_channel, hi.held] at hp
    rw [creditsToHost]
    push_cast at hp
    omega
  case _ =>
    have hr := hx.solvent.host.replies b
    have hsent : x.host.sent = mapTags s.host.messagesSentToDevice := congrArg HostNode.sent hi.host.view
    have hc : x.host.tx.channel b = if b then s.host.tx.hdr.msgs else s.host.tx.single.msgs :=
      congrArg (Sender.channel b) hi.hostTx
    rwa [hflow, hsent, hc] at hr

theorem credits_conserved (hn : n ≤ noDevice) {trace : List Char} (h : Reaches trace s) : s.Conserves := by
  obtain ⟨x, hx, hi⟩ := h.tracks
  exact hi.conserves (hx.credited hn)

-- A read is on its way to the device.
theorem credits_conserved_read : ∃ s : CXLSystem Config.prompt Memory.fifo,
    (s.requestsTo 0 false).length = 1 ∧ s.Conserves := by
  obtain ⟨s, hs, hlen⟩ := exists_of_run "0 R 0\n".toList (oneReadCalls.take 16)
    (fun s : CXLSystem Config.prompt Memory.fifo => (s.requestsTo 0 false).length == 1) (by decide +kernel)
  exact ⟨s, beq_iff_eq.mp hlen, credits_conserved (by decide) hs⟩

-- No request to device `d` and no response of it is between the packer of the host and the channels for
-- responses.
structure NothingUnderWay (s : CXLSystem cfg M) (d : Fin n) : Prop where
  requests : ∀ hasData, s.requestsTo d hasData = []
  channel  : ∀ hasData, (s.devices d).rx.channel hasData = []
  memory   : (s.devices d).messagesInRamulator = ∅
  single   : (s.devices d).tx.single.msgs = 0
  hdr      : (s.devices d).tx.hdr.msgs = 0
  packing  : ∀ hasData, (s.devices d).tx.packing hasData = []
  out      : s.flitsFromDevice d = []
  inp      : ∀ f ∈ s.flitsToHost, ¬f.isFrom cfg d

namespace NothingUnderWay

variable {d : Fin n}

theorem creditsToHost_eq (h : s.NothingUnderWay d) (hasData : Bool) : s.creditsToHost d hasData = 0 := by
  rw [creditsToHost, h.out, List.filter_eq_nil_iff.mpr h.inp]
  rfl

theorem held_eq (h : s.NothingUnderWay d) (hasData : Bool) : (s.devices d).held hasData = 0 := by
  rw [CXLDevice.held, h.memory, h.single]
  cases hasData <;> rfl

theorem unsent_eq (h : s.NothingUnderWay d) (hi : s.Implements x) (hasData : Bool) :
    (x.dev d).unsent hasData = 0 := by
  have hp (b : Bool) : frameStarts b (x.dev d).tx.frame = [] := by
    have := (hi.device d).shape.packing b
    rw [h.packing b] at this
    exact List.map_eq_nil_iff.mp this
  have hm : (x.dev d).mem = mapTags (s.devices d).messagesInRamulator :=
    congrArg DeviceNode.mem (hi.device d).view
  have hh : (x.dev d).tx.hdr = (s.devices d).tx.hdr.msgs := congrArg Sender.hdr (hi.deviceTx d)
  have hs : (x.dev d).tx.frame.singles = [] := hp false
  have hf : (x.dev d).tx.frame.hdr.toList = [] := hp true
  rw [DeviceNode.unsent, hm, hh, hs, hf, h.memory, h.hdr]
  cases hasData <;> rfl

end NothingUnderWay

-- Then the host has all credits of the device that it has got, which are those of all places as soon as the
-- device has sent a flit.
theorem credits_returned (hn : n ≤ noDevice) {trace : List Char} (h : Reaches trace s) {d : Fin n}
    (hd : s.NothingUnderWay d) (hasData : Bool) :
    (s.host.tx.flow.extCreds d).request hasData = if (s.devices d).tx.sent = [] then 1 else cfg.devVcSize := by
  obtain ⟨x, hx, hi⟩ := h.tracks
  have hl := hx.lends hn d
  have hge := hl.ge hasData
  have hle := hl.le hasData
  have hc := (hi.conserves (hx.credited hn)).request d hasData
  have hflow : (x.dev d).tx.flow = (s.devices d).tx.flow := congrArg Sender.flow (hi.deviceTx d)
  have hsent : (x.dev d).tx.sent = [] ↔ (s.devices d).tx.sent = [] := by
    rw [hi.deviceTx d]
    exact List.map_eq_nil_iff
  rw [hd.unsent_eq hi, hflow, Sender.base] at hle
  rw [hflow, Sender.base] at hge
  rw [hd.creditsToHost_eq, hd.requests, hd.channel, hd.held_eq] at hc
  simp only [hsent, List.length_nil] at hge hle hc
  split at hge <;> simp_all <;> omega

-- A read has been answered.
theorem credits_returned_read : ∃ s : CXLSystem Config.prompt Memory.fifo, s.NothingUnderWay 0 ∧
    (s.devices 0).tx.sent ≠ [] ∧ (s.host.tx.flow.extCreds 0).reqCredit = 1024 := by
  obtain ⟨s, hs, hP⟩ := exists_of_run "0 R 0\n".toList oneReadCalls
    (fun s : CXLSystem Config.prompt Memory.fifo => (s.requestsTo 0 false).isEmpty &&
      (s.requestsTo 0 true).isEmpty && ((s.devices 0).rx.channel false).isEmpty &&
      ((s.devices 0).rx.channel true).isEmpty && (s.devices 0).messagesInRamulator.entries.isEmpty &&
      (s.devices 0).tx.single.msgs == 0 && (s.devices 0).tx.hdr.msgs == 0 &&
      ((s.devices 0).tx.packing false).isEmpty && ((s.devices 0).tx.packing true).isEmpty &&
      (s.flitsFromDevice 0).isEmpty && s.flitsToHost.isEmpty && (s.devices 0).tx.sent.length == 2)
    (by decide +kernel)
  simp only [Bool.and_eq_true, List.isEmpty_iff, beq_iff_eq] at hP
  obtain ⟨⟨⟨⟨⟨⟨⟨⟨⟨⟨⟨hr₀, hr₁⟩, hc₀⟩, hc₁⟩, hmem⟩, hsingle⟩, hhdr⟩, hp₀⟩, hp₁⟩, hout⟩, hinp⟩, hsent⟩ := hP
  have hd : s.NothingUnderWay 0 := by
    refine ⟨fun b => ?_, fun b => ?_, AList.ext hmem, hsingle, hhdr, fun b => ?_, hout, by simp [hinp]⟩
    case _ => cases b <;> assumption
    case _ => cases b <;> assumption
    case _ => cases b <;> assumption
  have hne : (s.devices 0).tx.sent ≠ [] := fun h => by simp [h] at hsent
  have hc := credits_returned (by decide) hs hd false
  rw [if_neg hne] at hc
  exact ⟨s, hd, hne, hc⟩

end Credits

end CXLSystem

end CXL
