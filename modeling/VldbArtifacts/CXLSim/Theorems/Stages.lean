import VldbArtifacts.CXLSim.Theorems.Ledger

-- A request is at one stage of its way at a time.

namespace CXL

open Framing
open scoped List Function

variable {n : Nat} {cfg : Config n} {M : Memory} {dir : Dir}

theorem Flit.tags_core (f : Flit) : f.core.tags dir = f.tags dir := by
  simp only [tags, singles, hdrs, core_cells]

theorem Flit.map_tags (f : Flit) : (f.tags dir).map Tag.msgId = (f.ids dir : Multiset Nat) := by
  simp only [tags, singles, hdrs, ids, cells]
  generalize f.slots = slots
  induction slots
  case nil => rfl
  case cons s ss ih =>
    have hcons (m : Message) (ms : List Message) :
        ((m.core :: ms).map Message.tag : Multiset Tag).map Tag.msgId =
          m.msgId ::ₘ (ms.map Message.tag : Multiset Tag).map Tag.msgId := rfl
    by_cases hs : s.type = dir.single
    case pos =>
      have hc : slotCell dir s = .single s.msg.core := by simp [slotCell, hs]
      simp only [List.map_cons, hc, List.filterMap_cons, Cell.single?, Cell.hdr?, List.cons_append,
        List.filter_cons, hs, true_or, decide_true, ↓reduceIte, ← Multiset.cons_coe, ← ih]
      exact hcons ..
    case neg =>
      by_cases hh : s.type = dir.hdr
      case pos =>
        have hc : slotCell dir s = .hdr s.msg.core := by simp [slotCell, hh, dir.single_ne_hdr.symm]
        simp only [List.map_cons, hc, List.filterMap_cons, Cell.single?, Cell.hdr?,
          List.filter_cons, hh, or_true, decide_true, ↓reduceIte, ← Multiset.cons_coe, ← ih]
        rw [Multiset.coe_eq_coe.mpr (List.perm_middle.map _)]
        exact hcons ..
      case neg =>
        have hc : (slotCell dir s).single? = none ∧ (slotCell dir s).hdr? = none := by
          unfold slotCell
          rw [if_neg hs, if_neg hh]
          split <;> exact ⟨rfl, rfl⟩
        simp only [List.map_cons, List.filterMap_cons, hc, List.filter_cons, hs, hh, or_self,
          decide_false, Bool.false_eq_true, ↓reduceIte, ← ih]

theorem flitTags_map (fs : List Flit) :
    (flitTags dir (fs.map Flit.core)).map Tag.msgId = (flitIds dir fs : Multiset Nat) := by
  induction fs
  case nil => rfl
  case cons f fs ih =>
    simp only [List.map_cons, flitTags_cons, Multiset.map_add, ih, Flit.tags_core, Flit.map_tags,
      Multiset.coe_add]
    rfl

theorem TxPort.waiting_ids {σ : Type} {vcSize bufSize : Nat} (p : TxPort dir vcSize bufSize σ)
    (fr : Frame Message) : (p.sender fr).waiting.map Tag.msgId =
      (∑ i, ((p.single.vcs i).q.map Message.msgId : Multiset Nat)) +
        ∑ i, ((p.hdr.vcs i).q.map Message.msgId : Multiset Nat) := by
  have h {op : Opcode} (a : VcArray vcSize op) : (a.msgs.map Message.tag).map Tag.msgId =
      ∑ i, ((a.vcs i).q.map Message.msgId : Multiset Nat) := by
    rw [Multiset.map_map]
    exact map_sum (Multiset.mapAddMonoidHom (Tag.msgId ∘ Message.tag))
      (fun i => ((a.vcs i).q : Multiset Message)) Finset.univ
  simp only [Sender.waiting, Multiset.map_add]
  exact congrArg₂ _ (h p.single) (h p.hdr)

theorem RxPort.unpacking_ids {vcSize bufSize : Nat} (u : RxPort dir vcSize bufSize) :
    u.receiver.unpacking.map Tag.msgId = (u.lastHdrIds : Multiset Nat) := by
  by_cases h : u.unpackerRollover = 0
  case pos => simp [lastHdrIds, Receiver.unpacking, Deframer.pending, receiver, deframer, h]
  case neg =>
    simp [lastHdrIds, Receiver.unpacking, Deframer.pending, receiver, deframer, h]
    rfl

theorem RxPort.arrived_ids {vcSize bufSize : Nat} (u : RxPort dir vcSize bufSize) :
    u.receiver.arrived.map Tag.msgId =
      (u.single.q.map Message.msgId : Multiset Nat) + u.hdr.q.map Message.msgId := by
  have h : Tag.msgId ∘ Message.tag ∘ Message.core = Message.msgId := rfl
  simp [Receiver.arrived, receiver, h]

theorem TxPort.Shape.packerIds {σ : Type} {vcSize bufSize : Nat} {rules : PackerRules dir σ}
    {p : TxPort dir vcSize bufSize σ} {fr : Frame Message} (h : p.Shape rules fr) :
    (p.sender fr).packing.map Tag.msgId = (p.packerIds : Multiset Nat) := by
  unfold TxPort.packerIds
  cases h
  case idle hw hi =>
    rw [if_neg (by simp [hw]), Sender.packing]
    simp only [sender_frame]
    rw [hi.fresh]
    rfl
  case waiting hw hb _ =>
    have hs : p.flitToPack.core.slots = (frameSlots dir fr).map Slot.core := by
      simp [Flit.core, hb.slots]
    rw [if_pos hw, ← Flit.map_tags, ← Flit.tags_core, Flit.tags_frame hs]
    rfl

namespace CXLSystem

variable {s : CXLSystem cfg M} {x : Net n}

theorem Implements.requests (h : s.Implements x) : x.host.requests.map Tag.msgId =
    (∑ i, (s.idsAt (.hostM2SReq i) : Multiset Nat)) + (∑ i, (s.idsAt (.hostM2SRwd i) : Multiset Nat)) +
      s.idsAt .hostPacker + s.idsAt .hostTx + s.idsAt .busFromHost + s.idsAt .upstreamRx +
      s.idsAt .arbNocH2D := by
  have hp := h.host.shape.packerIds
  have hview := h.host.view
  generalize x.host.tx.frame = fr at hp hview
  rw [hview]
  simp only [HostNode.requests, CXLHost.node, Multiset.map_add, hp, flitTags_map, List.map_append,
    flitTags_append, TxPort.waiting_ids, idsAt]
  abel

theorem Implements.responses (h : s.Implements x) : x.host.responses.map Tag.msgId =
    s.idsAt .arbNocD2H + s.idsAt .upstreamTx + s.idsAt .busToHost + s.idsAt .hostRx +
      s.idsAt .lastDrsHdr + s.idsAt .hostS2MNdr + s.idsAt .hostS2MDrs := by
  rw [h.host.view]
  simp only [HostNode.responses, CXLHost.node, Multiset.map_add, flitTags_map, List.map_append,
    flitTags_append, RxPort.unpacking_ids, RxPort.arrived_ids, idsAt]
  abel

theorem Implements.device_ids (h : s.Implements x) (d : Fin n) : (x.dev d).tags.map Tag.msgId =
    s.idsAt (.downstreamTx d) + s.idsAt (.busToDevice d) + s.idsAt (.deviceRx d) +
      s.idsAt (.lastRwdHdr d) + s.idsAt (.deviceM2SReq d) + s.idsAt (.deviceM2SRwd d) +
      s.idsAt (.messagesInRamulator d) + (∑ i, (s.idsAt (.deviceS2MNdr d i) : Multiset Nat)) +
      (∑ i, (s.idsAt (.deviceS2MDrs d i) : Multiset Nat)) + s.idsAt (.devicePacker d) +
      s.idsAt (.deviceTx d) + s.idsAt (.busFromDevice d) + s.idsAt (.downstreamRx d) := by
  have hp := (h.device d).shape.packerIds
  have hview := (h.device d).view
  generalize (x.dev d).tx.frame = fr at hp hview
  rw [hview]
  simp only [DeviceNode.tags, CXLDevice.node, Multiset.map_add, hp, flitTags_map, List.map_append,
    flitTags_append, TxPort.waiting_ids, RxPort.unpacking_ids, RxPort.arrived_ids, idsAt,
    map_msgId_mapTags (h.device d).mem]
  abel

end CXLSystem

namespace Stage

def deviceStages (d : Fin n) : List (Stage n) :=
  [.downstreamTx d, .busToDevice d, .deviceRx d, .lastRwdHdr d, .deviceM2SReq d, .deviceM2SRwd d,
    .messagesInRamulator d, .devicePacker d, .deviceTx d, .busFromDevice d, .downstreamRx d] ++
  (List.finRange numVc).map (.deviceS2MNdr d) ++ (List.finRange numVc).map (.deviceS2MDrs d)

def all (n : Nat) : List (Stage n) :=
  (List.finRange numVc).map .hostM2SReq ++ (List.finRange numVc).map .hostM2SRwd ++
  [.hostPacker, .hostTx, .busFromHost, .upstreamRx, .arbNocH2D] ++
  (List.finRange n).flatMap deviceStages ++
  [.arbNocD2H, .upstreamTx, .busToHost, .hostRx, .lastDrsHdr, .hostS2MNdr, .hostS2MDrs]

theorem mem_all (st : Stage n) : st ∈ all n := by
  cases st <;> simp [all, deviceStages]

end Stage

namespace CXLSystem

variable {s : CXLSystem cfg M} {x : Net n}

theorem Implements.deviceStages_ids (h : s.Implements x) (d : Fin n) :
    ((Stage.deviceStages d).flatMap s.idsAt : Multiset Nat) = (x.dev d).tags.map Tag.msgId := by
  rw [h.device_ids d, Stage.deviceStages]
  simp only [List.flatMap_append, ← Multiset.coe_add, Multiset.coe_flatMap_finRange]
  simp only [Multiset.coe_flatMap, List.map_cons, List.map_nil, List.sum_cons, List.sum_nil]
  abel

theorem Implements.all_ids (h : s.Implements x) :
    ((Stage.all n).flatMap s.idsAt : Multiset Nat) = x.tags.map Tag.msgId := by
  have hd : (((List.finRange n).flatMap Stage.deviceStages).flatMap s.idsAt : Multiset Nat) =
      (∑ d, (x.dev d).tags).map Tag.msgId := by
    rw [List.flatMap_assoc, Multiset.coe_flatMap, ← Fin.sum_univ_def]
    simp only [h.deviceStages_ids]
    exact (map_sum (Multiset.mapAddMonoidHom Tag.msgId) _ _).symm
  rw [Net.tags, Multiset.map_add, Multiset.map_add, h.requests, h.responses, Stage.all]
  simp only [List.flatMap_append, ← Multiset.coe_add, Multiset.coe_flatMap_finRange, hd]
  simp only [Multiset.coe_flatMap, List.map_cons, List.map_nil, List.sum_cons, List.sum_nil]
  abel

theorem Tracks.all_ids (h : s.Tracks) :
    (Stage.all n).flatMap s.idsAt ~ s.host.messagesSentToDevice.keys := by
  have ⟨x, hx, hi⟩ := h
  apply Multiset.coe_eq_coe.mp
  rw [hi.all_ids, Net.tags, hx.ledger.host.tags, hi.host.view]
  exact map_msgId_mapTags hi.host.sent

theorem Tracks.mem_sent {id : Nat} (h : s.Tracks) :
    id ∈ s.host.messagesSentToDevice ↔ ∃ st, id ∈ s.idsAt st := by
  rw [AList.mem_keys, ← h.all_ids.mem_iff, List.mem_flatMap]
  exact ⟨fun ⟨st, _, hst⟩ => ⟨st, hst⟩, fun ⟨st, hst⟩ => ⟨st, Stage.mem_all st, hst⟩⟩

theorem Tracks.nodup (h : s.Tracks) : ((Stage.all n).flatMap s.idsAt).Nodup :=
  h.all_ids.nodup_iff.mpr (AList.keys_nodup _)

theorem Tracks.stage_unique {id : Nat} {st st' : Stage n} (h : s.Tracks) (hst : id ∈ s.idsAt st)
    (hst' : id ∈ s.idsAt st') : st = st' := by
  have hp := (List.nodup_flatMap.mp h.nodup).right
  have : Std.Symm (List.Disjoint on s.idsAt) := ⟨fun _ _ hd => hd.symm⟩
  by_contra hne
  exact hp.forall (Stage.mem_all st) (Stage.mem_all st') hne hst hst'

-- Every request that was issued is completed or active, and no request is completed twice.
theorem Tracks.issued (h : s.Tracks) : s.host.issued.map Prod.fst ~
    s.host.completed ++ s.host.messagesSentToDevice.keys ++ s.host.reqsInDam.keys := by
  have ⟨x, hx, hi⟩ := h
  have hids := hx.ledger.host.ids
  rw [← hx.ledger.host.dam, hi.host.view] at hids
  simp only [CXLHost.node, map_msgId_mapTags hi.host.sent, Multiset.coe_add] at hids
  rw [hi.host.numbered.issued]
  exact (Multiset.coe_eq_coe.mp hids).symm

theorem tracked_exactly_once {b : Build} {trace : List Char} (h : Reachable b trace s) :
    (∀ id ∈ s.host.messagesSentToDevice, ∃! st, id ∈ s.idsAt st) ∧
    (∀ st, (s.idsAt st).Nodup ∧ ∀ id ∈ s.idsAt st, id ∈ s.host.messagesSentToDevice) ∧
    s.tick b ≠ .error .responseUnknownRequest ∧ s.tick b ≠ .error .ramulatorCallbackUnknown ∧
    s.host.issued.map Prod.fst ~
      s.host.completed ++ s.host.messagesSentToDevice.keys ++ s.host.reqsInDam.keys ∧
    s.host.completed.Nodup := by
  have ht := h.tracks
  have hknown {e : Failure} (he : s.tick b = .error e) :
      e ∉ [.responseUnknownRequest, .ramulatorCallbackUnknown, .reqNotInMessagesInRamulator] :=
    have ⟨_, hx, hf⟩ := (tick_tracks ht).of_error he
    hx.known hf
  have hissued : (s.host.issued.map Prod.fst).Nodup :=
    have ⟨_, _, hi⟩ := ht
    hi.host.numbered.issued ▸ List.nodup_range
  refine ⟨fun id hid => ?_, fun st => ⟨?_, fun id hid => ?_⟩, fun he => ?_, fun he => ?_, ht.issued, ?_⟩
  case _ =>
    have ⟨st, hst⟩ := ht.mem_sent.mp hid
    exact ⟨st, hst, fun _ hst' => ht.stage_unique hst' hst⟩
  case _ => exact (List.nodup_flatMap.mp ht.nodup).left st (Stage.mem_all st)
  case _ => exact ht.mem_sent.mpr ⟨st, hid⟩
  case _ => exact hknown he (by simp)
  case _ => exact hknown he (by simp)
  case _ =>
    have := ht.issued.nodup_iff.mp hissued
    rw [List.append_assoc] at this
    exact (List.nodup_append.mp this).left

-- A read that waits in a channel of the host.
theorem tracked_exactly_once_waiting :
    ∃ s : CXLSystem Config.small Memory.fifo, Reachable {} "0 R 1\n".toList s ∧
      s.host.messagesSentToDevice.keys = [0] ∧ ∃! st, 0 ∈ s.idsAt st := by
  have h : ((init "0 R 1\n".toList : CXLSystem Config.small Memory.fifo).run {} 2).toOption.map
      (fun s => s.host.messagesSentToDevice.keys) = some [0] := by decide +kernel
  match hr : (init "0 R 1\n".toList : CXLSystem Config.small Memory.fifo).run {} 2, h with
  | .ok s, h =>
    have hs : s.host.messagesSentToDevice.keys = [0] := Option.some.inj h
    have hreach := Reachable.init.run 2 hr
    exact ⟨s, hreach, hs, (tracked_exactly_once hreach).left 0 (AList.mem_keys.mpr (by simp [hs]))⟩

end CXLSystem

end CXL
