import VldbArtifacts.CXLSim.Theorems.Quiet
import VldbArtifacts.CXLSim.Theorems.Stamps

-- Every message that is retired was on time at each stage of its life.

namespace CXL

variable {n : Nat} {cfg : Config n} {M : Memory} {tick : Int}

-- The outstanding requests of a memory after it has taken one or none.
theorem Dram.feed_outstanding (d : Dram M) : M.outstanding d.feed.2.memory =
    d.feed.1.elim (M.outstanding d.memory) (· ::ₘ M.outstanding d.memory) := by
  have hget : d.getDramtraceRequest.memory = d.memory := by
    unfold getDramtraceRequest
    split
    case h_1 => rfl
    case h_2 => split <;> rfl
  unfold feed
  extract_lets d'
  have hd : d'.memory = d.memory := by
    simp only [d']
    split
    case isTrue  => exact hget
    case isFalse => rfl
  split
  case h_1 =>
    have hs := M.outstanding_send d'.memory d'.reg
    rw [hd] at hs
    simp only [hd]
    split at hs
    case isTrue h  => simp [hs, h]
    case isFalse h => simp [hs, h]
  case h_2 => simp [hd]
  case h_3 => simp [M.outstanding_watermark, hd]

-- The requests of a map were sent to the memory in time, and those of `rs` have reached it.
structure InMemory (cfg : Config n) (tick : Int) (a : AList fun _ : Nat => Message)
    (rs : Multiset Request) : Prop where
  sent     : ∀ id m, a.lookup id = some m → m.time.Waited cfg 6 cfg.params.delayVcToRamulator tick
  accepted : ∀ r ∈ rs, ∀ m, a.lookup r.reqId = some m → m.time.Waited cfg 7 0 tick

namespace InMemory

variable {a : AList fun _ : Nat => Message} {rs : Multiset Request} {k : Nat} {m : Message}

theorem mono {tick' : Int} (h : InMemory cfg tick a rs) (ht : tick ≤ tick') : InMemory cfg tick' a rs where
  sent id m hm         := (h.sent id m hm).mono ht
  accepted r hr m hm   := (h.accepted r hr m hm).mono ht

theorem subset {rs' : Multiset Request} (h : InMemory cfg tick a rs) (hr : rs' ⊆ rs) :
    InMemory cfg tick a rs' where
  sent       := h.sent
  accepted r hr' := h.accepted r (hr hr')

theorem erase (h : InMemory cfg tick a rs) : InMemory cfg tick (a.erase k) rs := by
  have hl {id : Nat} {m : Message} (hm : (a.erase k).lookup id = some m) : a.lookup id = some m := by
    by_cases hk : id = k
    case pos => rw [hk, AList.lookup_erase] at hm; cases hm
    case neg => exact AList.lookup_erase_ne hk ▸ hm
  exact ⟨fun id m hm => h.sent id m (hl hm), fun r hr m hm => h.accepted r hr m (hl hm)⟩

-- A new request has not reached the memory, since the map has those that have.
theorem insertNew (h : InMemory cfg tick a rs) (hk : ∀ r ∈ rs, r.reqId ∈ a)
    (hm : m.time.Waited cfg 6 cfg.params.delayVcToRamulator tick) :
    InMemory cfg tick (a.insertNew k m) rs := by
  refine ⟨fun id m' hl => ?_, fun r hr m' hl => ?_⟩
  · rw [AList.lookup_insertNew] at hl
    split at hl
    case isTrue  => exact Option.some.inj hl ▸ hm
    case isFalse => exact h.sent id m' hl
  · rw [AList.lookup_insertNew, if_neg fun ⟨he, hn⟩ => hn (he ▸ hk r hr)] at hl
    exact h.accepted r hr m' hl

-- The memory accepts a request of the map.
theorem accept {r : Request} {m' : Message} (h : InMemory cfg tick a rs) (hm : a.lookup r.reqId = some m)
    (hm' : m'.time.stamps = m.time.stamps.set 7 tick) :
    InMemory cfg tick (a.insert r.reqId m') (r ::ₘ rs) := by
  have hw := h.sent _ m hm
  have ⟨ht, hstamp⟩ := hw.left.next (by decide) hm' ⟨hw.right.left, hw.right.right⟩
  have hw' : m'.time.Waited cfg 7 0 tick := ⟨ht, hstamp.le, by rw [add_zero]; exact hstamp.le⟩
  have hl {id : Nat} {m'' : Message} (hl : (a.insert r.reqId m').lookup id = some m'') :
      id = r.reqId ∧ m'' = m' ∨ a.lookup id = some m'' := by
    by_cases hk : id = r.reqId
    case pos =>
      rw [hk, AList.lookup_insert] at hl
      exact .inl ⟨hk, (Option.some.inj hl).symm⟩
    case neg => exact .inr (AList.lookup_insert_ne hk ▸ hl)
  refine ⟨fun id m'' hm'' => ?_, fun r' hr' m'' hm'' => ?_⟩
  · rcases hl hm'' with ⟨_, rfl⟩ | hm''
    case inr => exact h.sent id m'' hm''
    case inl =>
      have ⟨h₁, h₂⟩ := ht 6 (by decide)
      have hle : m''.time.stamp 7 ≤ tick := hw'.right.left
      exact ⟨fun i hi => ht i (by omega), h₁.trans hle, h₂.trans hle⟩
  · rcases hl hm'' with ⟨_, rfl⟩ | hl
    case inl => exact hw'
    case inr =>
      rcases Multiset.mem_cons.mp hr' with rfl | hr'
      case inl =>
        rw [AList.lookup_insert] at hm''
        exact Option.some.inj hm'' ▸ hw'
      case inr => exact h.accepted r' hr' m'' hl

end InMemory

theorem devicePackerRules_onTime (cfg : Config n) : (devicePackerRules cfg).OnTime cfg where
  ready t s m h := by
    simp only [devicePackerRules, DeviceFlow.ready] at h
    split at h
    case isTrue ht => exact not_lt.mpr ht
    case isFalse   => cases h
  packTime     := rfl
  transmitTime := rfl

theorem hostPackerRules_onTime (cfg : Config n) : (hostPackerRules cfg).OnTime cfg where
  ready t s m h := by
    simp only [hostPackerRules, HostFlow.ready] at h
    split at h
    case isTrue ht => exact not_lt.mpr ht
    case isFalse   => cases h
  packTime     := rfl
  transmitTime := rfl

namespace CXLDevice

variable {d : CXLDevice cfg M}

structure Timely (tick : Int) (d : CXLDevice cfg M) : Prop where
  tx     : d.tx.Timely cfg tick
  rx     : d.rx.Timely cfg tick
  memory : InMemory cfg tick d.messagesInRamulator (M.outstanding d.dram.memory)

theorem Timely.mono {tick' : Int} (h : d.Timely tick) (ht : tick ≤ tick') : d.Timely tick' :=
  ⟨h.tx.mono ht, h.rx.mono ht, h.memory.mono ht⟩

theorem flitPacker_timely (h : d.Timely tick) :
    (d.flitPacker tick).Meets (·.Timely tick) fun _ => True :=
  (TxPort.flitPacker_timely (devicePackerRules_onTime cfg) h.tx).bind fun _ htx => { h with tx := htx }

theorem flitUnpacker_timely (h : d.Timely tick) :
    (d.flitUnpacker tick).Meets (·.Timely tick) fun _ => True := by
  refine (Except.Meets.any _).bind fun _ _ => ?_
  split
  case h_1 => exact h
  case h_2 f fs hq =>
    refine .ite (fun _ => h) fun hf => (Except.Meets.any _).bind fun _ _ => ?_
    refine (RxPort.unpackHead_timely rfl h.rx hq hf).bind fun r hr => ?_
    exact (Except.Meets.any _).bind fun _ _ => ⟨{ h.tx with }, hr, h.memory⟩

-- The request at the head of a channel goes to the memory.
theorem checkRxVc_timely {vc : CXLBuf cfg.devVcSize Message} (h : d.Timely tick)
    (hvc : ∀ m ∈ vc.q, m.time.Waited cfg 6 0 tick)
    (hk : ∀ r ∈ M.outstanding d.dram.memory, r.reqId ∈ d.messagesInRamulator) :
    (d.checkRxVc tick vc).Meets (fun o => ∀ d' ∈ o, d'.Timely tick) fun _ => True := by
  unfold checkRxVc
  split
  case h_1 => exact meets_none
  case h_2 m q hq =>
    refine .ite (fun _ => meets_none) fun hd => ?_
    have hm := (hvc m (hq ▸ List.mem_cons_self ..)).since (not_or.mp hd).left
    have hmem := h.memory.insertNew (k := m.msgId) hk hm
    refine (Except.Meets.any _).bind fun req _ => (Except.Meets.any _).bind fun b _ => ?_
    split
    case h_1 => exact meets_some ⟨{ h.tx with }, h.rx, hmem⟩
    case h_2 => exact meets_some ⟨h.tx, h.rx, hmem⟩
    case h_3 => trivial

theorem sendToRamulator_timely (h : d.Timely tick)
    (hk : ∀ r ∈ M.outstanding d.dram.memory, r.reqId ∈ d.messagesInRamulator) :
    (d.sendToRamulator tick).Meets (·.Timely tick) fun _ => True := by
  have hreq (next : RoundRobinState) :
      (d.checkM2SReq tick next).Meets (fun o => ∀ d' ∈ o, d'.Timely tick) fun _ => True := by
    refine (checkRxVc_timely h h.rx.single hk).bind fun o ho => ?_
    cases o
    case none => exact meets_none
    case some d' =>
      have hd' := ho d' rfl
      refine meets_some { hd' with rx := { hd'.rx with single := fun m hm => ?_ } }
      exact hd'.rx.single m (List.mem_of_mem_tail hm)
  have hrwd (next : RoundRobinState) :
      (d.checkM2SRwd tick next).Meets (fun o => ∀ d' ∈ o, d'.Timely tick) fun _ => True := by
    refine (checkRxVc_timely h h.rx.hdr hk).bind fun o ho => ?_
    cases o
    case none => exact meets_none
    case some d' =>
      have hd' := ho d' rfl
      refine meets_some { hd' with rx := { hd'.rx with hdr := fun m hm => ?_ } }
      exact hd'.rx.hdr m (List.mem_of_mem_tail hm)
  refine (Except.Meets.any _).bind fun _ _ => ?_
  split
  case h_1 => exact firstOf_getD_meets (hrwd _) (hreq _) h
  case h_2 => exact firstOf_getD_meets (hreq _) (hrwd _) h
  case h_3 => exact firstOf_getD_meets (hreq _) (hrwd _) h
  case h_4 => trivial

theorem transmit_timely {busSize : Nat} {bus : CXLBus busSize} (h : d.Timely tick)
    (hb : SentBy cfg .s2m 10 tick bus.flitSlots) : (d.transmit tick bus).Meets
      (fun r => r.1.Timely tick ∧ SentBy cfg .s2m 10 tick r.2.flitSlots) fun _ => True :=
  (TxPort.transmit_timely (devicePackerRules_onTime cfg) h.tx hb).bind fun _ hr =>
    ⟨{ h with tx := hr.left }, hr.right⟩

-- The callbacks of a memory cycle, which are for requests that the memory has.
structure Notifying (tick : Int) (rs : Multiset Request) (d : CXLDevice cfg M) : Prop where
  tx     : d.tx.Timely cfg tick
  rx     : d.rx.Timely cfg tick
  memory : InMemory cfg tick d.messagesInRamulator rs

theorem ramulatorReqNotification_timely {rs : Multiset Request} {r : Request} (hr : r ∈ rs)
    (h : d.Notifying tick rs) :
    (d.ramulatorReqNotification tick r).Meets (·.Notifying tick rs) fun _ => True := by
  unfold ramulatorReqNotification
  split
  case h_1 => trivial
  case h_2 m hl =>
    have hm := h.memory.accepted r hr m hl
    have hm' {time : MsgTiming} (ht : time.stamps = m.time.stamps.set 8 tick) :
        time.Waited cfg 8 0 tick := by
      have ⟨ht, hstamp⟩ := hm.left.next (by decide) ht ⟨hm.right.left, trivial⟩
      exact ⟨ht, hstamp.le, by rw [add_zero]; exact hstamp.le⟩
    simp only
    split
    case h_1 =>
      refine ((VcArray.enqueue_meets _).mono (fun _ => id) fun _ _ => trivial).bind fun a ha => ?_
      refine ⟨{ h.tx with hdr := fun m' hm'' => ?_ }, h.rx, h.memory.erase⟩
      rcases Multiset.mem_cons.mp (ha ▸ hm'') with rfl | hm''
      case inl => exact hm' rfl
      case inr => exact h.tx.hdr m' hm''
    case h_2 =>
      refine ((VcArray.enqueue_meets _).mono (fun _ => id) fun _ _ => trivial).bind fun a ha => ?_
      refine ⟨{ h.tx with single := fun m' hm'' => ?_ }, h.rx, h.memory.erase⟩
      rcases Multiset.mem_cons.mp (ha ▸ hm'') with rfl | hm''
      case inl => exact hm' rfl
      case inr => exact h.tx.single m' hm''
    case h_3 => trivial

theorem requestAccepted_timely {o : Option Request} {rs : Multiset Request} (h : d.Notifying tick rs)
    (hd : M.outstanding d.dram.memory = o.elim rs (· ::ₘ rs)) : (d.requestAccepted tick o).Meets
      (fun d' => d'.dram = d.dram ∧ d'.Notifying tick (M.outstanding d.dram.memory))
      fun _ => True := by
  rw [hd]
  unfold requestAccepted
  split
  case h_1 => exact ⟨rfl, h⟩
  case h_2 r =>
    split
    case h_1 => trivial
    case h_2 m hl => exact ⟨rfl, h.tx, h.rx, h.memory.accept hl rfl⟩

theorem updateDram_timely (h : d.Timely tick) :
    (d.updateDram tick).Meets (·.Timely tick) fun _ => True := by
  refine .ite (fun _ => ?_) fun _ => h
  have hd : Notifying tick (M.outstanding d.dram.memory) { d with dram := d.dram.feed.2 } :=
    ⟨h.tx, h.rx, h.memory⟩
  refine (requestAccepted_timely hd d.dram.feed_outstanding).bind fun d' ⟨hdram, hd'⟩ => ?_
  rw [← hdram] at hd'
  have hout := M.outstanding_tick d'.dram.memory
  have hle : ∀ r ∈ d'.dram.tick.1, r ∈ M.outstanding d'.dram.memory := fun r hr => by
    rw [hout]
    exact Multiset.mem_add.mpr (.inl hr)
  refine (Except.Meets.foldlM (fun d r hr hd => ramulatorReqNotification_timely (hle r hr) hd) hd').bind
    fun d'' hd'' => ⟨hd''.tx, hd''.rx, hd''.memory.subset fun r hr => ?_⟩
  rw [hout]
  exact Multiset.mem_add.mpr (.inr hr)

end CXLDevice

namespace CXLHost

variable {h : CXLHost cfg}

structure Timely (tick : Int) (h : CXLHost cfg) : Prop where
  tx : h.tx.Timely cfg tick
  rx : h.rx.Timely cfg tick

theorem Timely.mono {tick' : Int} (ht : h.Timely tick) (hle : tick ≤ tick') : h.Timely tick' :=
  ⟨ht.tx.mono hle, ht.rx.mono hle⟩

theorem flitPacker_timely (ht : h.Timely tick) :
    (h.flitPacker tick).Meets (·.Timely tick) fun _ => True :=
  (TxPort.flitPacker_timely (hostPackerRules_onTime cfg) ht.tx).bind fun _ htx => ⟨htx, ht.rx⟩

theorem transmit_timely {busSize : Nat} {bus : CXLBus busSize} (ht : h.Timely tick)
    (hb : SentBy cfg .m2s 2 tick bus.flitSlots) : (h.transmit tick bus).Meets
      (fun r => r.1.Timely tick ∧ SentBy cfg .m2s 2 tick r.2.flitSlots) fun _ => True :=
  (TxPort.transmit_timely (hostPackerRules_onTime cfg) ht.tx hb).bind fun _ hr =>
    ⟨⟨hr.left, ht.rx⟩, hr.right⟩

theorem addExtCredits_timely (ht : h.Timely tick) (k : Nat) (c : Credits) :
    (h.addExtCredits k c).Timely tick := by
  unfold addExtCredits
  split
  case isTrue  => exact ⟨{ ht.tx with }, ht.rx⟩
  case isFalse => exact ⟨ht.tx, ht.rx⟩

theorem flitUnpacker_timely (ht : h.Timely tick) :
    (h.flitUnpacker tick).Meets (·.Timely tick) fun _ => True := by
  refine (Except.Meets.any _).bind fun _ _ => ?_
  split
  case h_1 => exact ht
  case h_2 f fs hq =>
    refine .ite (fun _ => ht) fun hf => (Except.Meets.any _).bind fun k _ => ?_
    refine (Except.Meets.any _).bind fun _ _ => (Except.Meets.any _).bind fun _ _ => ?_
    refine (RxPort.unpackHead_timely rfl ht.rx hq hf).bind fun r hr => ?_
    have ht' : Timely tick { h with rx := { r.1 with rxBuffer := r.1.rxBuffer.dequeue } } := ⟨ht.tx, hr⟩
    exact addExtCredits_timely ht' k _

theorem checkRxVc_timely {vc : CXLBuf cfg.hostRespSize Message} (ht : h.Timely tick) :
    (h.checkRxVc tick vc).Meets (fun o => ∀ h' ∈ o, h'.Timely tick) fun _ => True := by
  unfold checkRxVc
  split
  case h_1 => exact meets_none
  case h_2 m q hq =>
    refine .ite (fun _ => meets_none) fun _ => (Except.Meets.any _).bind fun _ _ => ?_
    simp only
    split
    case h_1 => exact meets_some ⟨{ ht.tx with }, ht.rx⟩
    case h_2 => exact meets_some ⟨{ ht.tx with }, ht.rx⟩
    case h_3 => trivial

theorem checkIfReqCompleted_timely (ht : h.Timely tick) :
    (h.checkIfReqCompleted tick).Meets (·.Timely tick) fun _ => True := by
  have hndr (next : RoundRobinState) :
      (h.checkS2MNdr tick next).Meets (fun o => ∀ h' ∈ o, h'.Timely tick) fun _ => True := by
    refine (checkRxVc_timely ht).bind fun o ho => ?_
    cases o
    case none => exact meets_none
    case some h' =>
      have ht' := ho h' rfl
      refine meets_some ⟨ht'.tx, { ht'.rx with single := fun m hm => ?_ }⟩
      exact ht'.rx.single m (List.mem_of_mem_tail hm)
  have hdrs (next : RoundRobinState) :
      (h.checkS2MDrs tick next).Meets (fun o => ∀ h' ∈ o, h'.Timely tick) fun _ => True := by
    refine (checkRxVc_timely ht).bind fun o ho => ?_
    cases o
    case none => exact meets_none
    case some h' =>
      have ht' := ho h' rfl
      refine meets_some ⟨ht'.tx, { ht'.rx with hdr := fun m hm => ?_ }⟩
      exact ht'.rx.hdr m (List.mem_of_mem_tail hm)
  refine .ite (fun _ => ht) fun _ => ?_
  split
  case h_1 => exact firstOf_getD_meets (hndr _) (hdrs _) ht
  case h_2 => exact firstOf_getD_meets (hdrs _) (hndr _) ht
  case h_3 => exact firstOf_getD_meets (hdrs _) (hndr _) ht
  case h_4 => trivial

-- A message is created when it comes to its channel.
theorem issueToVc_timely {m : Message} (ht : h.Timely tick) :
    (h.issueToVc tick m).Meets (fun o => ∀ h' ∈ o, h'.Timely tick) fun _ => True := by
  have hm {time : MsgTiming} (h : time.stamp 0 = tick) : time.Waited cfg 0 0 tick :=
    ⟨nofun, h.le, by rw [add_zero]; exact h.le⟩
  unfold issueToVc
  simp only
  split
  case h_1 =>
    refine .ite (fun _ => meets_none) fun _ => ?_
    refine ((VcArray.enqueue_meets _).mono (fun _ => id) fun _ _ => trivial).bind fun a ha => ?_
    refine meets_some ⟨{ ht.tx with single := fun m' hm' => ?_ }, ht.rx⟩
    rcases Multiset.mem_cons.mp (ha ▸ hm') with rfl | hm'
    case inl => exact hm rfl
    case inr => exact ht.tx.single m' hm'
  case h_2 =>
    refine .ite (fun _ => meets_none) fun _ => ?_
    refine ((VcArray.enqueue_meets _).mono (fun _ => id) fun _ _ => trivial).bind fun a ha => ?_
    refine meets_some ⟨{ ht.tx with hdr := fun m' hm' => ?_ }, ht.rx⟩
    rcases Multiset.mem_cons.mp (ha ▸ hm') with rfl | hm'
    case inl => exact hm rfl
    case inr => exact ht.tx.hdr m' hm'
  case h_3 => trivial

theorem readTrace_timely (ht : h.Timely tick) :
    h.readTrace.Meets (fun r => r.2.Timely tick) fun _ => True := by
  refine .ite (fun _ => ht) fun _ => ?_
  split
  case h_1 => exact ht
  case h_2 =>
    refine (Except.Meets.any _).bind fun _ _ => (Except.Meets.any _).bind fun _ _ => ?_
    exact ⟨ht.tx, ht.rx⟩

theorem directAttachedReqComplete_timely (rs : List Request) (ht : h.Timely tick) (t : Int) :
    (rs.foldl (directAttachedReqComplete t) h).Timely tick := by
  induction rs generalizing h
  case nil          => exact ht
  case cons r rs ih => exact ih ⟨ht.tx, ht.rx⟩

end CXLHost

namespace CXLSystem

open CXLSwitch

variable {s : CXLSystem cfg M}

structure Timely (s : CXLSystem cfg M) : Prop where
  host          : s.host.Timely s.currTick
  device        : ∀ i, (s.devices i).Timely s.currTick
  switch        : s.switch.Timely s.currTick
  busFromHost   : SentBy cfg .m2s 2 s.currTick s.busFromHost.flitSlots
  busToDevice   : ∀ i, SentBy cfg .m2s 4 s.currTick (s.busToDevice i).flitSlots
  busFromDevice : ∀ i, SentBy cfg .s2m 10 s.currTick (s.busFromDevice i).flitSlots
  busToHost     : SentBy cfg .s2m 12 s.currTick s.busToHost.flitSlots

-- The memory of a device has only requests of its map.
theorem Tracks.outstanding_known (h : s.Tracks) (i : Fin n) :
    ∀ r ∈ M.outstanding (s.devices i).dram.memory, r.reqId ∈ (s.devices i).messagesInRamulator := by
  intro r hr
  have ⟨x, hx, hi⟩ := h
  have hview := (hi.device i).view
  have hd : r.reqId ∈ (x.dev i).dram := by
    rw [hview]
    exact Multiset.mem_add.mpr (.inr (Multiset.mem_map_of_mem _ hr))
  have hm := hx.ledger.callback_known hd
  rw [hview] at hm
  exact (mem_map_msgId_mapTags (hi.device i).mem).mp hm

theorem forall_update {β : Type} (P : β → Prop) {g : Fin n → β} {i : Fin n} {b : β}
    (h : ∀ j, P (g j)) (hb : P b) : ∀ j, P (Function.update g i b j) :=
  (Function.forall_update_iff g fun _ => P).mpr ⟨hb, fun j _ => h j⟩

theorem Timely.setDevice (h : s.Timely) (i : Fin n) {x : Sim (CXLDevice cfg M)}
    (hx : x.Meets (·.Timely s.currTick) fun _ => True) :
    (x >>= fun d => pure (s.setDevice i d)).Meets Timely fun _ => True :=
  hx.bind fun _ hd => { h with device := forall_update (CXLDevice.Timely s.currTick) h.device hd }

theorem Timely.setHost (h : s.Timely) {x : Sim (CXLHost cfg)}
    (hx : x.Meets (·.Timely s.currTick) fun _ => True) :
    (x >>= fun host => pure { s with host }).Meets Timely fun _ => True :=
  hx.bind fun _ hh => { h with host := hh }

theorem issueHead_timely (h : s.Timely) :
    s.issueHead.Meets (fun r => r.2.Timely) fun _ => True := by
  unfold issueHead
  split
  case h_1 => exact h
  case h_2 interval m q hq =>
    refine .ite (fun _ => .ite (fun _ => .ite (fun _ => ?_) fun _ => ?_) fun _ => ?_) fun _ => h
    · exact { h with host := ⟨h.host.tx, h.host.rx⟩ }
    · refine (Except.Meets.any _).bind fun _ _ => (Except.Meets.any _).bind fun _ _ => ?_
      exact { h with host := ⟨h.host.tx, h.host.rx⟩ }
    · have hh : CXLHost.Timely s.currTick { s.host with lastTextToTraceBufDequeue := s.currTick } :=
        ⟨h.host.tx, h.host.rx⟩
      refine (CXLHost.issueToVc_timely hh).bind fun o ho => ?_
      cases o
      case none    => exact { h with host := ⟨h.host.tx, h.host.rx⟩ }
      case some h' => exact { h with host := ho h' rfl }

theorem updateDam_timely (h : s.Timely) : s.updateDam.Timely := by
  unfold updateDam
  split
  case isTrue =>
    have hh := CXLHost.directAttachedReqComplete_timely s.dam.feed.2.tick.1 h.host s.currTick
    exact { h with host := hh }
  case isFalse => exact h

theorem spaced_switch (dir : Dir) {x y : Int} (h : x ≤ y)
    (h' : x + (cfg.params.delayCxlPortSwitch + cfg.params.delayCxlNocSwitch +
      cfg.params.delayCxlPortSwitch) ≤ y) : cfg.Spaced (dir.start + 3) x y := by
  have : x + (2 * cfg.params.delayCxlPortSwitch + cfg.params.delayCxlNocSwitch) ≤ y := by omega
  cases dir <;> exact ⟨h, this⟩

theorem perform_timely (h : s.Timely) (hk : s.Tracks) {a : Action n}
    (ha : s.NotBack a) : (s.perform a).Meets Timely fun _ => True := by
  cases a
  case busToHost =>
    refine (CXLBus.update_timely (k := 12) rfl (by decide) (fun _ _ => .intro) h.busToHost
      h.host.rx.rxBuffer).bind fun r hr => ?_
    exact { h with host := ⟨h.host.tx, { h.host.rx with rxBuffer := hr.right }⟩, busToHost := hr.left }
  case busFromHost =>
    refine (CXLBus.update_timely (k := 2) rfl (by decide) (fun _ _ => .intro) h.busFromHost
      h.switch.upstreamRx).bind fun r hr => ?_
    exact { h with switch := { h.switch with upstreamRx := hr.right }, busFromHost := hr.left }
  case busToDevice i =>
    refine (CXLBus.update_timely (k := 4) rfl (by decide) (fun _ _ => .intro) (h.busToDevice i)
      (h.device i).rx.rxBuffer).bind fun r hr => ?_
    have hd : CXLDevice.Timely s.currTick { s.devices i with rx := { (s.devices i).rx with rxBuffer := r.2 } } :=
      ⟨(h.device i).tx, { (h.device i).rx with rxBuffer := hr.right }, (h.device i).memory⟩
    exact { h with device := forall_update (CXLDevice.Timely s.currTick) h.device hd, busToDevice := forall_update (fun b : CXLBus cfg.busSize => SentBy cfg .m2s 4 s.currTick b.flitSlots) h.busToDevice hr.left }
  case busFromDevice i =>
    refine (CXLBus.update_timely (k := 10) rfl (by decide) (fun _ _ => .intro) (h.busFromDevice i)
      (h.switch.downstreamRx i)).bind fun r hr => ?_
    exact { h with
      switch        := { h.switch with downstreamRx := forall_update (fun b : CXLBuf cfg.switchBufSize Flit => ReceivedBy cfg .s2m 11 s.currTick 0 b.q) h.switch.downstreamRx hr.right }
      busFromDevice := forall_update (fun b : CXLBus cfg.busSize => SentBy cfg .s2m 10 s.currTick b.flitSlots) h.busFromDevice hr.left }
  case forwardH2D =>
    refine (forward_timely h.switch.upstreamRx h.switch.arbNocH2D (zero_add _).symm).bind fun r hr => ?_
    exact { h with switch := { h.switch with upstreamRx := hr.left, arbNocH2D := hr.right } }
  case route => exact (route_timely h.switch).bind fun _ hw => { h with switch := hw }
  case sendDown i =>
    refine (sendOut_timely (k := 3) rfl (by decide) (fun _ _ => spaced_switch .m2s)
      (h.switch.downstreamTx i) (h.busToDevice i)).bind fun r hr => ?_
    exact { h with
      switch      := { h.switch with downstreamTx := forall_update (fun b : CXLBuf cfg.switchBufSize Flit => ReceivedBy cfg .m2s 3 s.currTick _ b.q) h.switch.downstreamTx hr.left }
      busToDevice := forall_update (fun b : CXLBus cfg.busSize => SentBy cfg .m2s 4 s.currTick b.flitSlots) h.busToDevice hr.right }
  case arbitrate => exact (arbitrate_timely n h.switch).bind fun _ hw => { h with switch := hw }
  case forwardD2H =>
    refine (forward_timely h.switch.arbNocD2H h.switch.upstreamTx rfl).bind fun r hr => ?_
    exact { h with switch := { h.switch with arbNocD2H := hr.left, upstreamTx := hr.right } }
  case sendUp =>
    refine (sendOut_timely (k := 11) rfl (by decide) (fun _ _ => spaced_switch .s2m)
      h.switch.upstreamTx h.busToHost).bind fun r hr => ?_
    exact { h with switch := { h.switch with upstreamTx := hr.left }, busToHost := hr.right }
  case setSkipCycle => exact { h with switch := { h.switch with } }
  case packDevice i => exact h.setDevice i (CXLDevice.flitPacker_timely (h.device i))
  case unpackDevice i => exact h.setDevice i (CXLDevice.flitUnpacker_timely (h.device i))
  case sendToRamulator i =>
    exact h.setDevice i (CXLDevice.sendToRamulator_timely (h.device i) (hk.outstanding_known i))
  case transmitDevice i =>
    refine (CXLDevice.transmit_timely (h.device i) (h.busFromDevice i)).bind fun r hr => ?_
    exact { h with
      device        := forall_update (CXLDevice.Timely s.currTick) h.device hr.left
      busFromDevice := forall_update (fun b : CXLBus cfg.busSize => SentBy cfg .s2m 10 s.currTick b.flitSlots) h.busFromDevice hr.right }
  case updateDram i => exact h.setDevice i (CXLDevice.updateDram_timely (h.device i))
  case issueHead => exact (issueHead_timely h).bind fun _ hs => hs
  case readTrace => exact (CXLHost.readTrace_timely h.host).bind fun _ hh => { h with host := hh }
  case finishTrace => exact { h with host := ⟨h.host.tx, h.host.rx⟩ }
  case checkCreds => exact (Except.Meets.any _).bind fun _ _ => h
  case packHost => exact h.setHost (CXLHost.flitPacker_timely h.host)
  case transmitHost =>
    refine (CXLHost.transmit_timely h.host h.busFromHost).bind fun r hr => ?_
    exact { h with host := hr.left, busFromHost := hr.right }
  case unpackHost => exact h.setHost (CXLHost.flitUnpacker_timely h.host)
  case completeReq => exact h.setHost (CXLHost.checkIfReqCompleted_timely h.host)
  case checkDAM => exact (Except.Meets.any _).bind fun _ _ => h
  case updateDam => exact updateDam_timely h
  case setTick t =>
    have ht : s.currTick ≤ t := ha
    exact ⟨h.host.mono ht, fun i => (h.device i).mono ht, h.switch.mono ht, h.busFromHost.mono ht,
      fun i => (h.busToDevice i).mono ht, fun i => (h.busFromDevice i).mono ht, h.busToHost.mono ht⟩

theorem init_timely (trace : List Char) : (init trace : CXLSystem cfg M).Timely := by
  have htx {dir : Dir} {vcSize bufSize : Nat} {σ : Type} (flow : σ) :
      (TxPort.init flow : TxPort dir vcSize bufSize σ).Timely cfg 0 := by
    have hm {op : Opcode} : (VcArray.init : VcArray vcSize op).msgs = 0 :=
      Finset.sum_eq_zero fun _ _ => rfl
    exact ⟨fun m h => absurd (hm ▸ h) (Multiset.notMem_zero m),
      fun m h => absurd (hm ▸ h) (Multiset.notMem_zero m), nofun, List.forall_mem_nil _⟩
  have hrx {dir : Dir} {vcSize bufSize : Nat} : (RxPort.init : RxPort dir vcSize bufSize).Timely cfg 0 :=
    ⟨.nil, fun h => absurd rfl h, List.forall_mem_nil _, List.forall_mem_nil _⟩
  have hmem : InMemory cfg 0 ∅ (M.outstanding M.init) :=
    ⟨fun id m h => absurd ((AList.lookup_empty id).symm.trans h) (Option.some_ne_none m).symm,
      fun r hr => absurd (M.outstanding_init ▸ hr) (Multiset.notMem_zero r)⟩
  exact ⟨⟨htx _, hrx⟩, fun _ => ⟨htx _, hrx, hmem⟩, ⟨.nil, .nil, fun _ => .nil, fun _ => .nil, .nil, .nil⟩,
    .nil, fun _ => .nil, fun _ => .nil, .nil⟩

-- What holds in the beginning and is kept by the calls that a rule admits holds wherever a call is made.
theorem Admits.invariant {rule : CXLSystem cfg M → Action n → Prop} {P : CXLSystem cfg M → Prop}
    (hP : ∀ s a, P s → rule s a → (s.perform a).Meets P fun _ => True) {as as' : List (Action n)}
    {s s' : CXLSystem cfg M} (hs : P s) (ha : Admits rule s (as ++ as'))
    (h : as.foldlM perform s = .ok s') : P s' := by
  induction as generalizing s
  case nil =>
    cases h
    exact hs
  case cons a as ih =>
    rw [List.foldlM_cons] at h
    have ⟨s₁, h₁, h₂⟩ := Except.bind_eq_ok.mp h
    have ha' : Admits rule s₁ (as ++ as') := by simpa [h₁] using ha.right
    exact ih ((hP s a hs ha.left).of_ok h₁) ha' h₂

theorem CalledIn.timely {trace : List Char} {as : List (Action n)} {a : Action n}
    (hm : IsMonotone trace cfg M as) (h : CalledIn trace as a s) : s.Timely := by
  have ⟨as₁, as₂, has, hs⟩ := h
  have hinv : s.Timely ∧ s.Tracks := by
    refine Admits.invariant (P := fun s => s.Timely ∧ s.Tracks) (fun s a h ha => ?_)
      ⟨init_timely trace, Reaches.tracks ⟨[], rfl⟩⟩ (has ▸ hm) hs
    have ht := perform_timely h.left h.right ha
    have hk := (perform_tracks (a := a) h.right).mono (fun _ => id) fun _ _ => trivial
    exact Except.meets_iff.mpr ⟨fun s' hs' => ⟨ht.of_ok hs', hk.of_ok hs'⟩, fun _ _ => trivial⟩
  exact hinv.left

-- A message that is retired has waited in its channel.
theorem Timely.retire (h : s.Timely) {vc : CXLBuf cfg.hostRespSize Message} {m : Message}
    {ms : List Message} {h' : CXLHost cfg} (hvc : vc = s.host.rx.single ∨ vc = s.host.rx.hdr)
    (hq : vc.q = m :: ms) (hr : s.host.checkRxVc s.currTick vc = .ok (some h')) :
    { m.time with tickReqComplete := s.currTick }.Timely cfg 15 := by
  have hw : m.time.Waited cfg 14 0 s.currTick := by
    rcases hvc with rfl | rfl
    case inl => exact h.host.rx.single m (hq ▸ List.mem_cons_self ..)
    case inr => exact h.host.rx.hdr m (hq ▸ List.mem_cons_self ..)
  have hd : ¬s.currTick - m.time.tickRespUnpacked < cfg.params.delayVcToRetire := by
    intro hd
    simp only [CXLHost.checkRxVc, hq, hd, ↓reduceIte] at hr
    cases hr
  have hw := hw.since (d := cfg.params.delayVcToRetire) hd
  have hset : { m.time with tickReqComplete := s.currTick }.stamps = m.time.stamps.set 15 s.currTick :=
    rfl
  exact (hw.left.next (by decide) hset hw.right).left

-- A run in which `curr_tick` is monotone is a sequence of calls that never set it back, and whenever
-- one of these retires a message, all stamps of the message are in order and all its delays have passed.
theorem retired_timely (cfg : Config n) (M : Memory) (trace : List Char) :
    (∀ b k, NeverJumpsBack b trace k cfg M →
      ∃ as, Calls b trace k cfg M as ∧ IsMonotone trace cfg M as) ∧
    ∀ as, IsMonotone trace cfg M as → ∀ s : CXLSystem cfg M, CalledIn trace as .completeReq s →
      ∀ vc m ms h, vc = s.host.rx.single ∨ vc = s.host.rx.hdr → vc.q = m :: ms →
        s.host.checkRxVc s.currTick vc = .ok (some h) →
        { m.time with tickReqComplete := s.currTick }.Timely cfg 15 := by
  constructor
  · intro b k h
    refine run_isRunOf b k _ fun j hj s hs => ?_
    refine tick_isRunOf (fun s a ha => ?_) b s (fun s' hs' => h j hj s s' hs hs') fun s => ?_
    · rw [NotBack, ha]
      exact le_rfl
    · exact Int.le_add_one le_rfl
  · intro as hm s hs vc m ms h hvc hq hr
    exact (hs.timely hm).retire hvc hq hr

end CXLSystem

-- A system in which every delay is one tick.
def Config.prompt : Config 1 where
  params           := {
    ticksPerNs            := 10
    ticksPerIns           := 1
    cxlBusTotalLatency    := 1
    cxlBusTicksPerDequeue := 1
    delayTxBufToBus       := 1
    delayRxBufToUnpack    := 1
    delayVcToPack         := 1
    delayRamulatorUpdate  := 1
    delayVcToRamulator    := 1
    delayVcToRetire       := 1
    delayCxlPortSwitch    := 1
    delayCxlNocSwitch     := 1 }
  addressIntervals _ := (0, 64)
  hasDAM             := false
  devVcSize_pos      := Nat.zero_lt_succ 1023

-- The calls that take a read through the system. Its data needs a second flit.
def oneReadCalls : List (Action 1) :=
  [.readTrace, .issueHead, .setTick 1, .packHost, .setTick 12, .packHost, .setTick 13, .transmitHost,
    .setTick 14, .busFromHost, .setTick 15, .forwardH2D, .setTick 16, .route, .setTick 17, .sendDown 0,
    .setTick 18, .busToDevice 0, .setTick 19, .unpackDevice 0, .setTick 20, .sendToRamulator 0,
    .updateDram 0, .setTick 21, .packDevice 0, .packDevice 0, .packDevice 0, .setTick 22,
    .transmitDevice 0, .setTick 23, .packDevice 0, .busFromDevice 0, .setTick 24, .arbitrate,
    .transmitDevice 0, .setTick 25, .forwardD2H, .busFromDevice 0, .setTick 26, .sendUp, .arbitrate,
    .setTick 27, .busToHost, .forwardD2H, .setTick 28, .unpackHost, .sendUp, .setTick 29, .busToHost,
    .setTick 30, .unpackHost, .setTick 31]

namespace CXLSystem

-- The tick and the stamps of the message before the call that retires it, if it does.
def retiring (s : CXLSystem Config.prompt Memory.fifo) : Option (Int × List Int) :=
  match s.host.rx.hdr.q, s.host.checkRxVc s.currTick s.host.rx.hdr with
  | m :: _, .ok (some _) => some (s.currTick, m.time.stamps)
  | _, _                 => none

theorem retiring_eq_some {s : CXLSystem Config.prompt Memory.fifo} {t : Int} {ts : List Int}
    (h : s.retiring = some (t, ts)) : ∃ m ms h', s.host.rx.hdr.q = m :: ms ∧
      s.host.checkRxVc s.currTick s.host.rx.hdr = .ok (some h') ∧ s.currTick = t ∧
      m.time.stamps = ts := by
  unfold retiring at h
  split at h
  case h_1 m ms h' hq hr =>
    have ⟨ht, hts⟩ := Prod.mk.inj (Option.some.inj h)
    exact ⟨m, ms, h', hq, hr, ht, hts⟩
  case h_2 => cases h

theorem retired_timely_read : ∃ s : CXLSystem Config.prompt Memory.fifo, ∃ m ms,
    CalledIn "0 R 0\n".toList (oneReadCalls ++ [.completeReq]) .completeReq s ∧
      s.host.rx.hdr.q = m :: ms ∧
      m.time.stamps = [0, 12, 13, 14, 17, 18, 19, 20, 20, 21, 22, 23, 26, 27, 30, 0] ∧
      { m.time with tickReqComplete := s.currTick }.Timely Config.prompt 15 := by
  have hm : IsMonotone "0 R 0\n".toList Config.prompt Memory.fifo (oneReadCalls ++ [.completeReq]) := by
    unfold IsMonotone
    decide +kernel
  have hrun : ((oneReadCalls.foldlM perform (init "0 R 0\n".toList :
      CXLSystem Config.prompt Memory.fifo)).toOption.bind retiring) =
      some (31, [0, 12, 13, 14, 17, 18, 19, 20, 20, 21, 22, 23, 26, 27, 30, 0]) := by decide +kernel
  match hs : oneReadCalls.foldlM perform (init "0 R 0\n".toList :
      CXLSystem Config.prompt Memory.fifo), hrun with
  | .ok s, hrun =>
    have ⟨m, ms, h, hq, hr, _, hts⟩ := retiring_eq_some hrun
    have hc : CalledIn "0 R 0\n".toList (oneReadCalls ++ [.completeReq]) .completeReq s :=
      ⟨oneReadCalls, [], rfl, hs⟩
    exact ⟨s, m, ms, hc, hq, hts,
      (retired_timely Config.prompt Memory.fifo _).right _ hm s hc _ m ms h (.inr rfl) hq hr⟩

end CXLSystem

end CXL
