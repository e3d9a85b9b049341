import VldbArtifacts.CXLSim.Ledger
import VldbArtifacts.CXLSim.Theorems.Refinement

-- No step of the abstract system loses a tag or makes a new one, apart from the host's issue of a
-- request and its retirement.

namespace CXL

open Framing

variable {dir : Dir} {f : Flit}

section Flits

@[simp]
theorem flitTags_nil : flitTags dir [] = 0 :=
  rfl

@[simp]
theorem flitTags_cons (fs : List Flit) : flitTags dir (f :: fs) = f.tags dir + flitTags dir fs := by
  simp [flitTags]

@[simp]
theorem flitTags_append (fs gs : List Flit) :
    flitTags dir (fs ++ gs) = flitTags dir fs + flitTags dir gs := by
  simp [flitTags]

theorem Flit.tags_frame {fr : Frame Message} (hf : f.slots = (frameSlots dir fr).map Slot.core) :
    f.tags dir = fr.messages.map Message.tag := by
  have hc := frame_cells hf
  have ht : Message.tag ∘ Message.core = Message.tag := rfl
  simp only [Flit.tags, Flit.singles, Flit.hdrs, hc, Frame.filterMap_single_cells,
    Frame.filterMap_hdr_cells]
  cases hh : fr.hdr <;> simp [Frame.map, Frame.messages, ht, hh]
  rfl

end Flits

theorem Sender.Step.tags {σ : Type} {rules : PackerRules dir σ} {tick : Int} {x y : Sender σ}
    {fs : List Flit} (h : Step rules tick x y) (hs : y.sent = x.sent ++ fs) :
    y.waiting + y.packing + flitTags dir fs = x.waiting + x.packing := by
  cases h
  case emit c _ _ _ _ _ _ =>
    have hfs : fs = [frameFlit rules x.frame c] := (List.append_cancel_left hs).symm
    have ht : (frameFlit rules x.frame c).tags dir = x.packing := Flit.tags_frame rfl
    simp [hfs, ht, waiting, packing, Frame.next, Frame.fresh, Frame.messages]
  case single m s s' rest h₀ _ hm _ _ _ =>
    have hfs : fs = [] := by simpa using hs
    simp only [waiting, packing, hfs, hm, Frame.messages, Frame.addSingle, h₀, Option.toList_none,
      List.append_nil, List.map_append, List.map_cons, List.map_nil, ← Multiset.coe_add,
      Multiset.map_add, Multiset.coe_singleton, ← Multiset.singleton_add, flitTags_nil]
    abel
  case hdr m s s' rest h₀ _ hm _ _ _ =>
    have hfs : fs = [] := by simpa using hs
    simp only [waiting, packing, hfs, hm, Frame.messages, Frame.addHdr, h₀, Option.toList_none,
      Option.toList_some, List.append_nil, List.map_append, List.map_cons, List.map_nil,
      ← Multiset.coe_add, Multiset.map_add, Multiset.coe_singleton, ← Multiset.singleton_add,
      flitTags_nil]
    abel
  all_goals
    have hfs : fs = [] := by simpa using hs
    simp [hfs, waiting, packing]

theorem Receiver.Reads.tags {u u' : Receiver} (h : u.Reads dir f u') :
    u'.unpacking + u'.arrived = f.tags dir + u.unpacking + u.arrived := by
  have hr := Deframer.receiveFrame_received h.deframer
  have ⟨ms, hm, hs⟩ := h.single
  have ⟨ns, hn, hh⟩ := h.hdr
  have hms : ms = f.singles dir := List.append_cancel_left (hm.symm.trans hr.singles)
  have hns : ns.map Prod.fst ++ u'.deframer.pending = u.deframer.pending ++ f.hdrs dir := by
    have := hr.hdrs
    rw [hn, List.map_append, List.append_assoc, List.append_assoc] at this
    exact List.append_cancel_left this
  have hp : (u'.deframer.pending : Multiset Message) + ns.map Prod.fst =
      u.deframer.pending + f.hdrs dir := by
    rw [add_comm, Multiset.coe_add, hns, ← Multiset.coe_add]
  have ht := congrArg (Multiset.map Message.tag) hp
  simp only [Multiset.map_add, Multiset.map_coe] at ht
  simp only [unpacking, arrived, Flit.tags, hs, hh, hms, List.map_append, ← Multiset.coe_add]
  calc
    _ = (↑(u'.deframer.pending.map Message.tag) + ↑((ns.map Prod.fst).map Message.tag)) +
          (↑(u.single.map Message.tag) + ↑((f.singles dir).map Message.tag) +
            ↑(u.hdr.map Message.tag) : Multiset Tag) := by abel
    _ = _ := by rw [ht]; abel

-- The message at the head of one of the channels, and the others.
theorem Receiver.arrived_single {u : Receiver} {m : Message} {rest : List Message}
    (h : u.single = m :: rest) :
    u.arrived = m.tag ::ₘ Receiver.arrived { u with single := rest } := by
  simp [arrived, h]

theorem Receiver.arrived_hdr {u : Receiver} {m : Message} {rest : List Message}
    (h : u.hdr = m :: rest) : u.arrived = m.tag ::ₘ Receiver.arrived { u with hdr := rest } := by
  simp only [arrived, h, List.map_append, List.map_cons, ← Multiset.coe_add, ← Multiset.cons_coe]
  rw [Multiset.add_cons]

theorem record_new {ts : Multiset Tag} {t : Tag} (h : t.msgId ∉ ts.map Tag.msgId) :
    record ts t = t ::ₘ ts :=
  if_neg h

def UniqueIds (ts : Multiset Tag) : Prop :=
  (ts.map Tag.msgId).Nodup

theorem UniqueIds.mono {ts us : Multiset Tag} (h : UniqueIds us) (hle : ts ≤ us) : UniqueIds ts :=
  Multiset.nodup_of_le (Multiset.map_le_map hle) h

theorem UniqueIds.notMem {ts us : Multiset Tag} {t : Tag} (h : UniqueIds us) (hle : t ::ₘ ts ≤ us) :
    t.msgId ∉ ts.map Tag.msgId := by
  have := h.mono hle
  rw [UniqueIds, Multiset.map_cons, Multiset.nodup_cons] at this
  exact this.left

theorem UniqueIds.eq {ts : Multiset Tag} {t t' : Tag} (h : UniqueIds ts) (ht : t ∈ ts) (ht' : t' ∈ ts)
    (hid : t.msgId = t'.msgId) : t = t' :=
  Multiset.inj_on_of_nodup_map h t ht t' ht' hid

section Device

variable {n : Nat} {cfg : Config n} {x y : DeviceNode}

theorem DeviceNode.cons_mem_le {t : Tag} {ts : Multiset Tag} (h : x.rx.arrived = t ::ₘ ts) :
    t ::ₘ x.mem ≤ x.tags := by
  refine Multiset.le_iff_exists_add.mpr ⟨flitTags .m2s x.inp + x.rx.unpacking + ts + x.tx.waiting +
    x.tx.packing + flitTags .s2m x.out, ?_⟩
  simp only [tags, h, ← Multiset.singleton_add]
  abel

theorem DeviceNode.Step.tags (h : Step cfg x y) (hu : UniqueIds x.tags) : y.tags = x.tags := by
  cases h
  case unpack f rest u hi hr =>
    have ht := hr.tags
    have hw : Sender.waiting { x.tx with flow := x.tx.flow.grant f.header.credit } = x.tx.waiting := rfl
    simp only [DeviceNode.tags, hi, flitTags_cons, hw]
    grind [Sender.packing]
  case sendRead m rest hq _ =>
    have ha := Receiver.arrived_single hq
    rw [record_new (hu.notMem (cons_mem_le ha))]
    simp only [DeviceNode.tags, ha, ← Multiset.singleton_add]
    grind [Sender.packing, Sender.waiting, Receiver.unpacking]
  case sendWrite m rest hq _ =>
    have ha := Receiver.arrived_hdr hq
    rw [record_new (hu.notMem (cons_mem_le ha))]
    simp only [DeviceNode.tags, ha, ← Multiset.singleton_add]
    grind [Sender.packing, Sender.waiting, Receiver.unpacking]
  case respondRead m ids ht _ _ =>
    have hm := Multiset.cons_erase ht
    rw [← Multiset.singleton_add] at hm
    simp only [DeviceNode.tags, Sender.waiting, Sender.packing, Multiset.map_add,
      ← Multiset.singleton_add, Multiset.map_singleton]
    grind
  case respondWrite m ids ht _ _ =>
    have hm := Multiset.cons_erase ht
    rw [← Multiset.singleton_add] at hm
    simp only [DeviceNode.tags, Sender.waiting, Sender.packing, Multiset.map_add,
      ← Multiset.singleton_add, Multiset.map_singleton]
    grind
  case pack tick y fs hs hf =>
    have ht := hs.tags hf
    simp only [DeviceNode.tags, flitTags_append]
    grind

theorem DeviceNode.Step.dram (h : Step cfg x y) (hu : UniqueIds x.tags)
    (hd : x.dram = x.mem.map Tag.msgId) : y.dram = y.mem.map Tag.msgId := by
  have hrespond {m : Message} {ids : Multiset Nat} (ht : m.tag ∈ x.mem)
      (hi : x.dram = m.msgId ::ₘ ids) : ids = (x.mem.erase m.tag).map Tag.msgId := by
    rw [hd, ← Multiset.cons_erase ht, Multiset.map_cons] at hi
    exact (Multiset.cons_inj_right _ |>.mp hi).symm
  cases h
  case unpack | pack => exact hd
  case sendRead m rest hq _ =>
    have ha := Receiver.arrived_single hq
    simp only [record_new (hu.notMem (cons_mem_le ha)), hd, Multiset.map_cons]
    rfl
  case sendWrite m rest hq _ =>
    have ha := Receiver.arrived_hdr hq
    simp only [record_new (hu.notMem (cons_mem_le ha)), hd, Multiset.map_cons]
    rfl
  case respondRead ht hi _  => exact hrespond ht hi
  case respondWrite ht hi _ => exact hrespond ht hi

end Device

section Host

variable {n : Nat} {cfg : Config n} {x y : HostNode n} {ts : Multiset Tag}

-- The active requests of the host are those in its own hands and those elsewhere. All ids that were
-- given away belong to a request that is active or completed.
structure HostNode.Balanced (x : HostNode n) (ts : Multiset Tag) : Prop where
  tags : x.requests + ts + x.responses = x.sent
  ids  : (x.completed : Multiset Nat) + x.sent.map Tag.msgId + x.dam = Multiset.range x.nextId
  dam  : x.reqsInDam = x.dam

namespace HostNode.Balanced

theorem uniqueIds (h : x.Balanced ts) : UniqueIds x.sent := by
  have hn := h.ids ▸ Multiset.nodup_range x.nextId
  exact (Multiset.nodup_add.mp (Multiset.nodup_add.mp hn).left).right.left

theorem new (h : x.Balanced ts) : x.nextId ∉ x.sent.map Tag.msgId ∧ x.nextId ∉ x.dam := by
  have hn : x.nextId ∉ Multiset.range x.nextId := Multiset.notMem_range_self
  rw [← h.ids] at hn
  simp only [Multiset.mem_add, not_or] at hn
  exact ⟨hn.left.right, hn.right⟩

theorem issue (h : x.Balanced ts) {t : Tag} (ht : t.msgId = x.nextId) {tx : Sender (HostFlow n)}
    (hw : tx.waiting = t ::ₘ x.tx.waiting) (hp : tx.packing = x.tx.packing) :
    HostNode.Balanced
      { x with tx, sent := record x.sent t, nextId := x.nextId + 1 } ts := by
  have hr := record_new (ht ▸ h.new.left)
  refine ⟨?_, ?_, h.dam⟩
  case _ =>
    have htags := h.tags
    simp only [requests, responses] at htags
    simp only [requests, responses, hw, hp, hr, ← Multiset.singleton_add]
    grind
  case _ =>
    simp only [hr, Multiset.range_succ, ← h.ids, ← Multiset.singleton_add, Multiset.map_add,
      Multiset.map_singleton, ht]
    abel

theorem retire (h : x.Balanced ts) {m : Message} {t : Tag} {rx : Receiver}
    {tx : Sender (HostFlow n)} (ha : x.rx.arrived = m.tag ::ₘ rx.arrived)
    (hu : rx.unpacking = x.rx.unpacking) (ht : t ∈ x.sent) (hid : t.msgId = m.msgId)
    (hw : tx.waiting = x.tx.waiting) (hp : tx.packing = x.tx.packing) :
    HostNode.Balanced
      { x with rx, tx, sent := x.sent.erase t, completed := x.completed ++ [m.msgId] } ts := by
  have hm : m.tag ∈ x.sent := by
    rw [← h.tags]
    simp [responses, ha]
  cases h.uniqueIds.eq ht hm hid
  have he := Multiset.cons_erase hm
  rw [← Multiset.singleton_add] at he
  refine ⟨?_, ?_, h.dam⟩
  case _ =>
    have htags := h.tags
    rw [← he] at htags
    simp only [requests, responses, ha, ← Multiset.singleton_add] at htags
    simp only [requests, responses, hu, hw, hp]
    apply add_left_cancel (a := {m.tag})
    rw [← htags]
    abel
  case _ =>
    have hids := h.ids
    rw [← he, Multiset.map_add, Multiset.map_singleton] at hids
    simp only [← hids, ← Multiset.coe_add, Multiset.coe_singleton]
    show _ = _ + ({m.msgId} + _) + _
    abel

end HostNode.Balanced

theorem HostNode.Step.balanced (h : Step cfg x y) (hb : x.Balanced ts) : y.Balanced ts := by
  have htags := hb.tags
  simp only [requests, responses] at htags
  cases h
  case issueRead m hid _  => exact hb.issue hid (by simp [Sender.waiting]) rfl
  case issueWrite m hid _ => exact hb.issue hid (by simp [Sender.waiting]) rfl
  case issueDam =>
    have hn : x.nextId ∉ x.reqsInDam := hb.dam ▸ hb.new.right
    refine ⟨hb.tags, ?_, ?_⟩
    case _ =>
      simp only [Multiset.range_succ, ← hb.ids, ← Multiset.singleton_add]
      abel
    case _ => rw [if_neg hn, hb.dam]
  case pack hs hf =>
    have ht := hs.tags hf
    refine ⟨?_, hb.ids, hb.dam⟩
    simp only [requests, responses, flitTags_append]
    grind
  case unpack f rest dest u hi _ hr =>
    have ht := hr.tags
    refine ⟨?_, hb.ids, hb.dam⟩
    simp only [hi, flitTags_cons] at htags
    simp only [requests, responses]
    grind [Sender.packing, Sender.waiting]
  case retireWrite hq ht hid _ =>
    exact hb.retire (Receiver.arrived_single hq) rfl ht hid rfl rfl
  case retireRead hq ht hid _ =>
    exact hb.retire (Receiver.arrived_hdr hq) rfl ht hid rfl rfl
  case completeDam id ids hd =>
    refine ⟨hb.tags, ?_, ?_⟩
    case _ =>
      have hids := hb.ids
      rw [hd, ← Multiset.singleton_add] at hids
      simp only [← hids, ← Multiset.coe_add, Multiset.coe_singleton]
      abel
    case _ => rw [hb.dam, hd, Multiset.erase_cons_head]

end Host

section Net

variable {n : Nat} {cfg : Config n} {x y : Net n}

structure Net.Ledger (x : Net n) : Prop where
  host : x.host.Balanced (∑ d, (x.dev d).tags)
  dram : ∀ d, (x.dev d).dram = (x.dev d).mem.map Tag.msgId

theorem Net.Ledger.uniqueIds (h : x.Ledger) (d : Fin n) : UniqueIds (x.dev d).tags := by
  refine h.host.uniqueIds.mono ?_
  rw [← h.host.tags]
  calc
    (x.dev d).tags ≤ ∑ d, (x.dev d).tags :=
      Multiset.le_iff_exists_add.mpr ⟨_, (Finset.add_sum_erase _ _ (Finset.mem_univ d)).symm⟩
    _ ≤ _ := (Multiset.le_add_left _ _).trans (Multiset.le_add_right _ _)

-- The sum over all devices when one of them changes.
theorem Net.sum_setDev {A : Type} [AddCommMonoid A] (g : DeviceNode → A) (x : Net n) (d : Fin n)
    (y : DeviceNode) :
    (∑ i, g ((x.setDev d y).dev i)) + g (x.dev d) = (∑ i, g (x.dev i)) + g y :=
  Finset.sum_update_add g x.dev d y

theorem Net.Step.ledger (h : Step cfg x y) (hl : x.Ledger) : y.Ledger := by
  cases h
  case host hs => exact ⟨hs.balanced hl.host, hl.dram⟩
  case device d y hs =>
    have hu := hl.uniqueIds d
    have hsum := Net.sum_setDev DeviceNode.tags x d y
    rw [hs.tags hu] at hsum
    refine ⟨?_, ?_⟩
    case _ => rw [add_right_cancel hsum]; exact hl.host
    case _ =>
      refine (Function.forall_update_iff x.dev fun _ y => y.dram = y.mem.map Tag.msgId).mpr ?_
      exact ⟨hs.dram hu (hl.dram d), fun d _ => hl.dram d⟩
  case route f rest d ho _ =>
    have hsum := Net.sum_setDev DeviceNode.tags x d { x.dev d with inp := (x.dev d).inp ++ [f] }
    have hd : DeviceNode.tags { x.dev d with inp := (x.dev d).inp ++ [f] } =
        f.tags .m2s + (x.dev d).tags := by
      simp only [DeviceNode.tags, flitTags_append, flitTags_cons, flitTags_nil]
      abel
    rw [hd, ← add_assoc] at hsum
    refine ⟨⟨?_, hl.host.ids, hl.host.dam⟩, ?_⟩
    case _ =>
      have ht := hl.host.tags
      simp only [HostNode.requests, ho, flitTags_cons] at ht
      simp only [HostNode.requests, add_right_cancel hsum]
      grind [HostNode.responses]
    case _ =>
      refine (Function.forall_update_iff x.dev fun _ y => y.dram = y.mem.map Tag.msgId).mpr ?_
      exact ⟨hl.dram d, fun d _ => hl.dram d⟩
  case turn => exact ⟨hl.host, hl.dram⟩
  case move f rest d _ ho =>
    have hsum := Net.sum_setDev DeviceNode.tags x d { x.dev d with out := rest }
    have hd : (x.dev d).tags = DeviceNode.tags { x.dev d with out := rest } + f.tags .s2m := by
      simp only [DeviceNode.tags, ho, flitTags_cons]
      abel
    rw [hd, ← add_assoc, add_right_comm] at hsum
    refine ⟨⟨?_, hl.host.ids, hl.host.dam⟩, ?_⟩
    case _ =>
      have ht := hl.host.tags
      rw [← add_right_cancel hsum] at ht
      simp only [HostNode.responses] at ht
      simp only [HostNode.responses, flitTags_append, flitTags_cons, flitTags_nil]
      grind [HostNode.requests]
    case _ =>
      refine (Function.forall_update_iff x.dev fun _ y => y.dram = y.mem.map Tag.msgId).mpr ?_
      exact ⟨hl.dram d, fun d _ => hl.dram d⟩

theorem Net.init_ledger : (init cfg).Ledger := by
  have hr : Receiver.init.unpacking = 0 ∧ Receiver.init.arrived = 0 := ⟨rfl, rfl⟩
  have ht {σ : Type} (s : σ) : (Sender.init s).waiting = 0 ∧ (Sender.init s).packing = 0 := ⟨rfl, rfl⟩
  refine ⟨⟨?_, rfl, rfl⟩, fun _ => rfl⟩
  simp [init, HostNode.init, DeviceNode.init, HostNode.requests, HostNode.responses,
    DeviceNode.tags, hr, ht]

theorem Net.Reachable.ledger (h : x.Reachable cfg) : x.Ledger := by
  induction h
  case refl         => exact init_ledger
  case tail _ hs ih => exact hs.ledger ih

theorem Net.Ledger.response_known (h : x.Ledger) {m : Message} (hm : m ∈ x.host.rx.single ++ x.host.rx.hdr) :
    m.msgId ∈ x.host.sent.map Tag.msgId := by
  refine Multiset.mem_map.mpr ⟨m.tag, ?_, rfl⟩
  rw [← h.host.tags]
  refine Multiset.mem_add.mpr (.inr (Multiset.mem_add.mpr (.inr ?_)))
  exact List.mem_map_of_mem hm

theorem Net.Ledger.callback_known (h : x.Ledger) {d : Fin n} {id : Nat} (hi : id ∈ (x.dev d).dram) :
    id ∈ (x.dev d).mem.map Tag.msgId :=
  h.dram d ▸ hi

theorem Net.Reachable.known {e : Failure} (h : x.Reachable cfg) (hf : x.Fails cfg e) :
    e ∉ [.responseUnknownRequest, .ramulatorCallbackUnknown, .reqNotInMessagesInRamulator] := by
  have hother {e : Failure} (he : e.IsOther) :
      e ∉ [.responseUnknownRequest, .ramulatorCallbackUnknown, .reqNotInMessagesInRamulator] := by
    rintro hm
    simp only [List.mem_cons, List.not_mem_nil, or_false] at hm
    rcases hm with rfl | rfl | rfl <;> exact he
  cases hf
  case other he => exact hother he
  case host hf =>
    cases hf
    case other he => exact hother he
    case pack hf =>
      rcases hostPackerRules_fails hf with rfl | hc
      case inl => simp
      case inr =>
        have := HostFlow.creditSanityCheck_meets.of_error hc
        grind
    case unpack hr => cases hr <;> grind
    case mixedFlit hd =>
      rcases CXLHost.slotsDevice_meets.of_error hd with rfl | rfl <;> simp
    case unknownResponse hm hn => exact absurd (h.ledger.response_known hm) hn
  case device d hf =>
    cases hf
    case other he => exact hother he
    case pack hf =>
      rcases devicePackerRules_fails hf with rfl | hc | rfl
      case inl     => simp
      case inr.inr => simp
      case inr.inl =>
        have := DeviceFlow.creditSanityCheck_meets.of_error hc
        grind
    case unpack hr => cases hr <;> grind
    case unknownCallback hi hn _ => exact absurd (h.ledger.callback_known hi) hn

end Net

end CXL
