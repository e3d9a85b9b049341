import VldbArtifacts.CXLSim.Theorems.Hop
import VldbArtifacts.CXLSim.Theorems.Memory
import VldbArtifacts.CXLSim.Theorems.Packer
import VldbArtifacts.CXLSim.Theorems.Unpacker

-- A device does what the abstract device does.

namespace CXL

open Framing

theorem Sender.Step.sent_append {dir : Dir} {σ : Type} {rules : PackerRules dir σ} {tick : Int}
    {x y : Sender σ} (h : Sender.Step rules tick x y) : ∃ fs, y.sent = x.sent ++ fs := by
  cases h
  case emit => exact ⟨_, rfl⟩
  all_goals exact ⟨[], by simp⟩

variable {n : Nat} {cfg : Config n} {M : Memory} {tick : Int}

theorem devicePackerRules_lawful (cfg : Config n) : (devicePackerRules cfg).Lawful where
  ready_offered := by
    rintro _ _ _ _ _ ⟨⟩ h
    exact h

-- The packer of a device fails on a message of the host, on its credits or on a long sequence of flits.
theorem devicePackerRules_fails {x : Sender DeviceFlow} {e : Failure}
    (h : Sender.Fails (devicePackerRules cfg) tick x e) :
    e = .illegalMessageType ∨ x.flow.creditSanityCheck cfg = .error e ∨
      e = .sequenceThresholdViolated := by
  cases h
  case ready m _ h =>
    simp only [devicePackerRules, DeviceFlow.ready] at h
    split at h
    case isFalse => cases h
    case isTrue  =>
      split at h <;> cases h
      exact .inl rfl
  case offered h     => cases h
  case spendSingle h => cases h
  case spendHdr h    => cases h
  case getCredits h  =>
    rcases Except.bind_eq_error.mp h with h | ⟨_, _, h⟩
    case inl => exact .inr (.inl h)
    case inr => cases h
  case sent h =>
    rcases Except.bind_eq_error.mp h with h | ⟨_, _, h⟩
    case inl =>
      have he : e = .sequenceThresholdViolated :=
        (assert_meets (E := (· = .sequenceThresholdViolated)) fun _ => rfl).of_error h
      exact .inr (.inr he)
    case inr => cases h

theorem DeviceFlow.creditSanityCheck_meets {s : DeviceFlow} : (s.creditSanityCheck cfg).Meets
    (fun _ => True)
    (fun e => e ∈ [.rspCredNotZero, .reqCredOutOfRange, .dataCredOutOfRange]) := by
  unfold DeviceFlow.creditSanityCheck
  refine (assert_meets fun _ => by simp).bind fun _ _ => ?_
  refine (assert_meets fun _ => by simp).bind fun _ _ => ?_
  exact (assert_meets fun _ => by simp).imp fun _ _ => trivial

theorem DeviceNode.steps_pack {x : DeviceNode} {y : Sender DeviceFlow}
    (h : Sender.Steps (devicePackerRules cfg) tick x.tx y) :
    ∃ fs, y.sent = x.tx.sent ++ fs ∧ Steps cfg x { x with tx := y, out := x.out ++ fs } := by
  induction h
  case refl => exact ⟨[], by simp, by simpa using .refl⟩
  case tail y z _ hs ih =>
    have ⟨fs, hf, hx⟩ := ih
    have ⟨gs, hg⟩ := hs.sent_append
    refine ⟨fs ++ gs, by simp [hg, hf], hx.tail ?_⟩
    have := DeviceNode.Step.pack (x := { x with tx := y, out := x.out ++ fs }) hs hg
    simpa using this

namespace CXLDevice

variable {d d' : CXLDevice cfg M} {inp out : List Flit} {x : DeviceNode}

theorem Implements.exists_frame (h : d.Implements inp out x) : ∃ fr, x = d.node inp out fr ∧
    d.tx.Shape (devicePackerRules cfg) fr :=
  ⟨x.tx.frame, h.view, h.shape⟩

-- The device takes steps of the abstract one.
def Goes (x : DeviceNode) (inp out : List Flit) (d' : CXLDevice cfg M) : Prop :=
  ∃ x', DeviceNode.Steps cfg x x' ∧ d'.Implements inp out x'

-- The abstract device takes steps to a failure.
def Stops (cfg : Config n) (x : DeviceNode) (e : Failure) : Prop :=
  ∃ x', DeviceNode.Steps cfg x x' ∧ x'.Fails cfg e

theorem Stops.other {e : Failure} (h : e.IsOther) : Stops cfg x e :=
  ⟨x, .refl, .other h⟩

theorem flitPacker_meets (h : d.Implements inp out x) :
    (d.flitPacker tick).Meets (Goes x inp out) (Stops cfg x) := by
  have ⟨fr, hx, hs⟩ := h.exists_frame
  subst hx
  refine ((TxPort.flitPacker_meets (devicePackerRules_lawful cfg) hs).mono (fun _ => id)
    fun e he => ?_).bind fun p hp => ?_
  case _ =>
    have ⟨y, hy, hf⟩ := he
    have ⟨fs, _, hx⟩ := DeviceNode.steps_pack (x := d.node inp out fr) hy
    exact ⟨_, hx, .pack hf⟩
  case _ =>
    have ⟨fr', hr⟩ := hp
    have ⟨fs, hf, hx⟩ := DeviceNode.steps_pack (x := d.node inp out fr) hr.steps
    have ⟨gs, hq, hg⟩ := hr.sent
    have hfg : fs = gs.map Flit.core := by
      have : (p.sender fr').sent = (d.tx.sender fr).sent ++ gs.map Flit.core := by
        simp [TxPort.sender, hg]
      exact List.append_cancel_left (hf.symm.trans this)
    refine ⟨_, hx, hr.shape, h.mem, h.dram, ?_⟩
    simp [node, hq, hfg]

theorem Goes.refl (h : d.Implements inp out x) : Goes x inp out d :=
  ⟨x, .refl, h⟩

theorem flitUnpacker_meets (h : d.Implements inp out x) :
    (d.flitUnpacker tick).Meets (Goes x inp out) (Stops cfg x) := by
  unfold flitUnpacker
  refine (assert_meets fun _ => .other trivial).bind fun _ _ => ?_
  split
  case _ => exact .refl h
  case _ f fs hq =>
    refine .ite (fun _ => .refl h) fun _ => ?_
    have ⟨fr, hx, hs⟩ := h.exists_frame
    subst hx
    have hi : (d.node inp out fr).inp = f.core :: (fs ++ inp).map Flit.core := by simp [node, hq]
    have hrej {e} (he : d.rx.receiver.Rejects .m2s cfg.devVcSize deviceUnpackerRules f.core e) :
        Stops cfg (d.node inp out fr) e := ⟨_, .refl, .unpack hi he⟩
    refine (RxPort.checkRollover_meets.mono (fun _ => id) fun _ => hrej).bind fun _ _ => ?_
    refine (RxPort.unpackFlit_meets.mono (fun _ => id) fun _ h => hrej h.rejects).bind fun r hr => ?_
    have ⟨ht, hb⟩ := hr
    refine (assert_meets fun hn => hrej <| .rule (by simp) fun hf => hn ?_).bind fun _ _ => ?_
    case _ => exact packingRule_frame hf (by rw [Flit.core_cells]; exact hb)
    have hstep : DeviceNode.Step cfg (d.node inp out fr) _ := .unpack hi ht.reads
    refine ⟨_, .single hstep, ?_, h.mem, h.dram, ?_⟩
    case _ => exact hs.congr rfl rfl rfl rfl rfl
    case _ =>
      simp [node, addExtCredits, ht.rxBuffer, CXLBuf.dequeue, hq, DeviceFlow.grant, TxPort.sender,
        RxPort.receiver, RxPort.deframer]

-- The request at the head of a channel goes to the memory.
structure Sends (d : CXLDevice cfg M) (m : Message) (d' : CXLDevice cfg M) : Prop where
  opCode : m.opCode = .req ∨ m.opCode = .rwd
  rest   : d' = { d with
             dram := d'.dram
             messagesInRamulator := d'.messagesInRamulator
             tx := { d.tx with flow := d.tx.flow.release m.opCode } }
  live   : d'.dram.Live
  ids    : d'.dram.ids = m.msgId ::ₘ d.dram.ids
  keys   : KeysMatch d'.messagesInRamulator
  tags   : mapTags d'.messagesInRamulator = record (mapTags d.messagesInRamulator) m.tag

theorem checkRxVc_meets {vc : CXLBuf cfg.devVcSize Message} (hk : KeysMatch d.messagesInRamulator)
    (hd : d.dram.Live) : (d.checkRxVc tick vc).Meets
    (fun | none => True | some d' => ∃ m rest, vc.q = m :: rest ∧ d.Sends m d')
    Failure.IsOther := by
  unfold checkRxVc
  split
  case _ => exact trivial
  case _ m rest hq =>
    refine .ite (fun _ => trivial) fun _ => ?_
    refine message2RamulatorReq_meets.bind fun r hr => ?_
    refine CXLIfBuf.bufAdd_meets.bind fun b hb => ?_
    have hl := hd.bufAdd hb hr.2.1
    have hi := Dram.ids_bufAdd hb
    rw [hr.1] at hi
    have hs : d.Sends m { d with
        dram                := { d.dram with inpBuf := b }
        messagesInRamulator := d.messagesInRamulator.insertNew m.msgId m
        tx                  := { d.tx with flow := d.tx.flow.release m.opCode } } :=
      ⟨hr.2.2, rfl, hl, hi, insertNew_keysMatch hk, insertNew_tags hk⟩
    rcases hr.2.2 with ho | ho
    case inl => rw [ho] at hs ⊢; exact ⟨m, rest, hq, hs⟩
    case inr => rw [ho] at hs ⊢; exact ⟨m, rest, hq, hs⟩

theorem checkM2SReq_meets {next : RoundRobinState} (h : d.Implements inp out x) :
    (d.checkM2SReq tick next).Meets (fun o => ∀ d' ∈ o, Goes x inp out d')
      Failure.IsOther := by
  refine (checkRxVc_meets h.mem h.dram).bind fun r hr => ?_
  match r with
  | none    => exact Except.meets_pure.mpr (by simp)
  | some d' =>
    refine Except.meets_pure.mpr fun _ he => ?_
    cases he
    obtain ⟨m, rest, hq, ho, hrest, hl, hi, hk, ht⟩ := hr
    generalize d'.dram = dram, d'.messagesInRamulator = mem at hrest hl hi hk ht
    subst hrest
    have ⟨fr, hx, hs⟩ := h.exists_frame
    subst hx
    have hq' : (d.node inp out fr).rx.single = m.core :: rest.map Message.core := by
      simp [node, RxPort.receiver, hq]
    refine ⟨_, .single (.sendRead hq' ho), hs.congr rfl rfl rfl rfl rfl, hk, hl, ?_⟩
    simp only [node, hi, ht, CXLBuf.dequeue, RxPort.receiver, hq, List.tail_cons]
    rfl

theorem checkM2SRwd_meets {next : RoundRobinState} (h : d.Implements inp out x) :
    (d.checkM2SRwd tick next).Meets (fun o => ∀ d' ∈ o, Goes x inp out d')
      Failure.IsOther := by
  refine (checkRxVc_meets h.mem h.dram).bind fun r hr => ?_
  match r with
  | none    => exact Except.meets_pure.mpr (by simp)
  | some d' =>
    refine Except.meets_pure.mpr fun _ he => ?_
    cases he
    obtain ⟨m, rest, hq, ho, hrest, hl, hi, hk, ht⟩ := hr
    generalize d'.dram = dram, d'.messagesInRamulator = mem at hrest hl hi hk ht
    subst hrest
    have ⟨fr, hx, hs⟩ := h.exists_frame
    subst hx
    have hq' : (d.node inp out fr).rx.hdr = m.core :: rest.map Message.core := by
      simp [node, RxPort.receiver, hq]
    refine ⟨_, .single (.sendWrite hq' ho), hs.congr rfl rfl rfl rfl rfl, hk, hl, ?_⟩
    simp only [node, hi, ht, CXLBuf.dequeue, RxPort.receiver, hq, List.tail_cons]
    rfl

theorem sendToRamulator_meets (h : d.Implements inp out x) :
    (d.sendToRamulator tick).Meets (Goes x inp out) (Stops cfg x) := by
  unfold sendToRamulator
  refine (assert_meets fun _ => .other trivial).bind fun _ _ => ?_
  split
  case _ =>
    exact (firstOf_getD_meets (checkM2SRwd_meets h) (checkM2SReq_meets h) (.refl h)).mono
      (fun _ => id) fun _ => .other
  case _ =>
    exact (firstOf_getD_meets (checkM2SReq_meets h) (checkM2SRwd_meets h) (.refl h)).mono
      (fun _ => id) fun _ => .other
  case _ =>
    exact (firstOf_getD_meets (checkM2SReq_meets h) (checkM2SRwd_meets h) (.refl h)).mono
      (fun _ => id) fun _ => .other
  case _ => exact .other trivial

-- The device while the requests called back by its memory are being notified: the ids of those to come
-- and of those that stay in the memory.
def notifying (d : CXLDevice cfg M) (inp out : List Flit) (fr : Frame Message)
    (reqs : List Request) (ids : Multiset Nat) : DeviceNode :=
  { d.node inp out fr with dram := reqs.map Request.reqId + ids }

theorem ramulatorReqNotification_meets (inp out : List Flit) {fr : Frame Message} {r : Request}
    (rs : List Request) (ids : Multiset Nat) (hk : KeysMatch d.messagesInRamulator)
    (hs : d.tx.Shape (devicePackerRules cfg) fr) :
    (d.ramulatorReqNotification tick r).Meets
      (fun d' => DeviceNode.Steps cfg (d.notifying inp out fr (r :: rs) ids)
          (d'.notifying inp out fr rs ids) ∧
        KeysMatch d'.messagesInRamulator ∧ d'.tx.Shape (devicePackerRules cfg) fr)
      (DeviceNode.Fails cfg (d.notifying inp out fr (r :: rs) ids)) := by
  unfold ramulatorReqNotification
  have hids : (d.notifying inp out fr (r :: rs) ids).dram =
      r.reqId ::ₘ (rs.map Request.reqId + ids) := by
    simp [notifying, ← Multiset.cons_coe]
  split
  case _ hl =>
    refine .unknownCallback (show r.reqId ∈ _ by simp [hids]) ?_ (.inl rfl)
    exact fun h => AList.lookup_eq_none.mp hl ((mem_map_msgId_mapTags hk).mp h)
  case _ m hl =>
    have hid := msgId_of_lookup hk hl
    have ht := tags_erase hl
    have hmem : m.tag ∈ (d.notifying inp out fr (r :: rs) ids).mem := by simp [notifying, node, ht]
    have herase : (mapTags d.messagesInRamulator).erase m.tag =
        mapTags (d.messagesInRamulator.erase r.reqId) := by rw [ht, Multiset.erase_cons_head]
    split
    case _ ho =>
      have htag (time) : Message.tag { m with time, opCode := .drs } = m.tag := by
        simp [Message.tag, ho, Opcode.isWrite]
      have hstep (time) : DeviceNode.Step cfg (d.notifying inp out fr (r :: rs) ids) _ :=
        .respondRead (m := { m with time, opCode := .drs }) ((htag time).symm ▸ hmem)
          (hid.symm ▸ hids) rfl
      dsimp only
      refine ((VcArray.enqueue_meets _).mono (fun _ => id) fun e he => ?_).bind fun a ha => ?_
      case _ => rw [he.left]; exact .other (by simp [Failure.IsOther])
      refine ⟨.single ?_, keysMatch_erase hk, hs.congr rfl rfl rfl rfl rfl⟩
      convert hstep { m.time with
        ramulatorClkEnd := d.dram.clks, tickRamulatorComplete := tick } using 1
      simp only [htag, notifying, node, herase, TxPort.sender, ha]
    case _ ho =>
      have htag (time) : Message.tag { m with time, opCode := .ndr } = m.tag := by
        simp [Message.tag, ho, Opcode.isWrite]
      have hstep (time) : DeviceNode.Step cfg (d.notifying inp out fr (r :: rs) ids) _ :=
        .respondWrite (m := { m with time, opCode := .ndr }) ((htag time).symm ▸ hmem)
          (hid.symm ▸ hids) rfl
      dsimp only
      refine ((VcArray.enqueue_meets _).mono (fun _ => id) fun e he => ?_).bind fun a ha => ?_
      case _ => rw [he.left]; exact .other (by simp [Failure.IsOther])
      refine ⟨.single ?_, keysMatch_erase hk, hs.congr rfl rfl rfl rfl rfl⟩
      convert hstep { m.time with
        ramulatorClkEnd := d.dram.clks, tickRamulatorComplete := tick } using 1
      simp only [htag, notifying, node, herase, TxPort.sender, ha]
    case _ => exact .other trivial

theorem notify_meets (inp out : List Flit) {fr : Frame Message} {rs : List Request}
    (ids : Multiset Nat) (hk : KeysMatch d.messagesInRamulator) (hs : d.tx.Shape (devicePackerRules cfg) fr) :
    (rs.foldlM (ramulatorReqNotification tick) d).Meets
      (fun d' => DeviceNode.Steps cfg (d.notifying inp out fr rs ids)
          (d'.notifying inp out fr [] ids) ∧
        KeysMatch d'.messagesInRamulator ∧ d'.tx.Shape (devicePackerRules cfg) fr)
      (Stops cfg (d.notifying inp out fr rs ids)) := by
  induction rs generalizing d
  case nil => exact ⟨.refl, hk, hs⟩
  case cons r rs ih =>
    rw [List.foldlM_cons]
    refine ((ramulatorReqNotification_meets inp out rs ids hk hs).mono (fun _ => id)
      fun e he => ?_).bind fun d' hd' => ?_
    case _ => exact ⟨_, .refl, he⟩
    have ⟨hx, hk', hs'⟩ := hd'
    refine (ih hk' hs').mono (fun d'' ⟨hx', h'⟩ => ⟨hx.trans hx', h'⟩) fun e ⟨y, hy, he⟩ => ?_
    exact ⟨y, hx.trans hy, he⟩

theorem requestAccepted_meets {o : Option Request} (h : d.Implements inp out x)
    (hr : ∀ r, o = some r → r.reqId ∈ x.dram) :
    (d.requestAccepted tick o).Meets (·.Implements inp out x) (Stops cfg x) := by
  unfold requestAccepted
  split
  case _ => exact h
  rename_i r
  have ⟨fr, hx, hs⟩ := h.exists_frame
  subst hx
  split
  case _ hl =>
    refine ⟨_, .refl, .unknownCallback (hr r rfl) ?_ (.inr rfl)⟩
    exact fun hm => AList.lookup_eq_none.mp hl ((mem_map_msgId_mapTags h.mem).mp hm)
  case _ m hl =>
    have hid := msgId_of_lookup h.mem hl
    have ht (time) : mapTags (d.messagesInRamulator.insert r.reqId { m with time }) =
        mapTags d.messagesInRamulator := insert_tags hl rfl
    refine ⟨hs, insert_keysMatch h.mem hid, h.dram, ?_⟩
    simp only [node, TxPort.sender_frame, ht]

theorem updateDram_meets (h : d.Implements inp out x) :
    (d.updateDram tick).Meets (Goes x inp out) (Stops cfg x) := by
  unfold updateDram
  rw [if_pos h.dram.isActive]
  have ⟨fr, hx, hs⟩ := h.exists_frame
  subst hx
  have ⟨hl, hi, hr⟩ := Dram.feed_spec h.dram
  have hf : CXLDevice.Implements { d with dram := d.dram.feed.2 } inp out (d.node inp out fr) := by
    refine ⟨hs, h.mem, hl, ?_⟩
    simp [node, hi]
  refine (requestAccepted_meets hf hr).bind fun d₁ h₁ => ?_
  have ⟨htl, hti⟩ := Dram.tick_spec h₁.dram
  have hnode : d.node inp out fr = d₁.notifying inp out fr d₁.dram.tick.1 d₁.dram.tick.2.ids := by
    rw [notifying, ← hti]
    exact h₁.view
  rw [hnode]
  refine (notify_meets inp out _ h₁.mem h₁.shape).bind fun d₂ h₂ => ?_
  refine ⟨_, h₂.1, h₂.2.2, h₂.2.1, htl, ?_⟩
  simp [notifying, node]

end CXLDevice

end CXL
