import VldbArtifacts.CXLSim.Links
import VldbArtifacts.CXLSim.Theorems.Data

-- What the flits of a link show: the frames of its senders, one after the other.

namespace CXL

open Framing

variable {n : Nat} {cfg : Config n} {dir : Dir} {f : Flit} {fr : Frame Message}

theorem Config.sendsTo_iff {d : Fin n} {address : Nat} :
    cfg.sendsTo d address ↔ cfg.destinationDevice address = .ok d := by
  unfold sendsTo
  cases cfg.destinationDevice address <;> simp

theorem Message.isFor_core (d : Fin n) (m : Message) : m.core.isFor cfg d = m.isFor cfg d :=
  rfl

theorem Message.isFor_unique {d k : Fin n} {m : Message} (hd : m.isFor cfg d) (hk : m.isFor cfg k) :
    d = k :=
  Except.ok.inj ((Config.sendsTo_iff.mp hd).symm.trans (Config.sendsTo_iff.mp hk))

theorem Message.isRequest_iff {d : Fin n} {hasData : Bool} {m : Message} :
    m.IsRequest cfg d hasData ↔ m.opCode = Dir.op .m2s hasData ∧ m.isFor cfg d :=
  ⟨fun h => ⟨h.opCode, h.isFor⟩, fun h => ⟨h.left, h.right⟩⟩

-- A request has one destination and one kind.
theorem Message.IsRequest.unique {d d' : Fin n} {hasData b : Bool} {m : Message}
    (h : m.IsRequest cfg d hasData) : m.IsRequest cfg d' b ↔ b = hasData ∧ d' = d := by
  have hfor : m.isFor cfg d' ↔ d' = d := ⟨fun h' => Message.isFor_unique h' h.isFor, fun hd => hd ▸ h.isFor⟩
  have hop : m.opCode = Dir.op .m2s b ↔ b = hasData := by
    rw [h.opCode]
    cases b <;> cases hasData <;> decide
  rw [Message.isRequest_iff, hfor, hop]

theorem Slot.core_cellSlot (c : Cell Message (Nat × Nat)) :
    (cellSlot dir c).core = cellSlot dir (c.map Message.core id) := by
  cases c <;> rfl

theorem frameSlots_core (dir : Dir) (fr : Frame Message) :
    (frameSlots dir fr).map Slot.core = frameSlots dir (fr.map Message.core) := by
  have hm (m : Message) : m.core.mark = id m.mark := rfl
  rw [frameSlots, frameSlots, Frame.cells_map Message.mark Message.core id hm, List.map_map, List.map_map]
  exact List.map_congr_left fun c _ => Slot.core_cellSlot c

theorem Frame.core_core (fr : Frame Message) :
    (fr.map Message.core).map Message.core = fr.map Message.core := by
  cases hh : fr.hdr <;> simp [Frame.map, hh, Message.core]

theorem frame_isEmpty_map {fr : Frame Message} : (fr.map Message.core).IsEmpty ↔ fr.IsEmpty := by
  simp [Frame.IsEmpty, Frame.map]

namespace Flit.Shows

variable {σ : Type} {rules : PackerRules dir σ}

theorem of_frame (hv : fr.Valid) (hn : ¬fr.IsEmpty) (c : Credits) :
    (frameFlit rules fr c).Shows dir (fr.map Message.core) where
  valid    := Frame.map_valid Message.core hv
  nonempty := fun h => hn (frame_isEmpty_map.mp h)
  core     := Frame.core_core fr
  slots    := frameSlots_core dir fr

theorem slots_core (h : f.Shows dir fr) : f.slots = (frameSlots dir fr).map Slot.core := by
  rw [frameSlots_core, h.core, h.slots]

theorem cells (h : f.Shows dir fr) : f.cells dir = fr.cells Message.msgId := by
  rw [frame_cells h.slots_core, h.core]

theorem starts (h : f.Shows dir fr) (hasData : Bool) : f.starts dir hasData = frameStarts hasData fr := by
  cases hasData
  case false => exact (congrArg _ h.cells).trans (Frame.filterMap_single_cells Message.msgId fr)
  case true  => exact (congrArg _ h.cells).trans (Frame.filterMap_hdr_cells Message.msgId fr)

theorem isFrameFor {u : Receiver} (h : f.Shows dir fr)
    (hu : u.deframer.Awaits Message.msgId fr.before) : f.IsFrameFor dir u :=
  ⟨fr, h.valid, hu.owed_eq, h.slots_core⟩

end Flit.Shows

theorem Receiver.init_awaits : Receiver.init.deframer.Awaits Message.msgId none where
  due  := rfl
  le   := Nat.zero_le 4
  ids  := fun h => absurd rfl h
  hdrs := fun _ hx => absurd hx List.not_mem_nil

namespace Receiver.Reads

variable {u u' : Receiver}

theorem starts (h : u.Reads dir f u') (hasData : Bool) :
    u'.starts hasData = u.starts hasData ++ f.starts dir hasData := by
  have hr := Deframer.receiveFrame_received h.deframer
  cases hasData
  case false => exact hr.singles
  case true  => exact hr.hdrs

theorem single_eq (h : u.Reads dir f u') : u'.single = u.single ++ f.starts dir false := by
  obtain ⟨ms, hd, hs⟩ := h.single
  have hr : u'.deframer.singles = u.deframer.singles ++ f.starts dir false := h.starts false
  rw [hs, List.append_cancel_left (hd.symm.trans hr)]

theorem hdr_eq (h : u.Reads dir f u') : ∃ ms, u'.hdr = u.hdr ++ ms ∧
    ms ++ u'.deframer.pending = u.deframer.pending ++ f.starts dir true := by
  obtain ⟨ms, hd, hs⟩ := h.hdr
  have hr := h.starts true
  simp only [Receiver.starts, ↓reduceIte, hd, List.map_append, List.append_assoc] at hr
  exact ⟨_, hs, List.append_cancel_left hr⟩

theorem awaits (h : u.Reads dir f u') (hf : f.Shows dir fr)
    (hu : u.deframer.Awaits Message.msgId fr.before) : u'.deframer.Awaits Message.msgId fr.after := by
  obtain ⟨hd, ha⟩ := hu.deliver hf.valid
  have := h.deframer
  rw [hf.cells, hd] at this
  exact Option.some.inj this ▸ ha

end Receiver.Reads

-- The channels of a sender have their messages.
structure Sender.Sorted {σ : Type} (dir : Dir) (x : Sender σ) : Prop where
  single : ∀ m ∈ x.single, m.opCode = dir.singleOp
  hdr    : ∀ m ∈ x.hdr, m.opCode = dir.hdrOp

namespace Sender.Sorted

variable {σ : Type} {x : Sender σ} {m : Message}

theorem consSingle (h : x.Sorted dir) (hm : m.opCode = dir.singleOp) :
    Sender.Sorted dir { x with single := m ::ₘ x.single } :=
  ⟨Multiset.forall_mem_cons.mpr ⟨hm, h.single⟩, h.hdr⟩

theorem consHdr (h : x.Sorted dir) (hm : m.opCode = dir.hdrOp) :
    Sender.Sorted dir { x with hdr := m ::ₘ x.hdr } :=
  ⟨h.single, Multiset.forall_mem_cons.mpr ⟨hm, h.hdr⟩⟩

end Sender.Sorted

namespace Sender.Step

variable {σ : Type} {rules : PackerRules dir σ} {tick : Int} {x y : Sender σ} {fs : List Flit}

-- The flits that a sender emits follow one another, and so does the frame it is working on.
theorem linked {P : Flit → Frame Message → Prop} (h : Step rules tick x y) (hs : y.sent = x.sent ++ fs)
    (hv : x.frame.Valid)
    (hP : ¬x.frame.IsEmpty → ∀ c, P (frameFlit rules x.frame c) (x.frame.map Message.core)) :
    Linked (fun f fr => f.Shows dir fr ∧ P f fr) (x.frame.map Message.core).before fs
      (y.frame.map Message.core).before := by
  cases h
  case emit c _ _ hn _ _ _ =>
    have hfs : fs = [frameFlit rules x.frame c] := (List.append_cancel_left hs).symm
    have hafter : (x.frame.next.map Message.core).before = (x.frame.map Message.core).after := by
      rw [Frame.after, Frame.map_nextOwed, Frame.map_nextLast]
      rfl
    rw [hfs, hafter]
    exact .cons ⟨.of_frame hv hn c, hP hn c⟩ .nil
  all_goals
    have hfs : fs = [] := by simpa using hs
    rw [hfs]
    exact .nil

theorem sorted (h : Step rules tick x y) (hx : x.Sorted dir) : y.Sorted dir := by
  cases h
  case single hm _ _ _ => exact ⟨fun m h => hx.single m (hm ▸ Multiset.mem_cons_of_mem h), hx.hdr⟩
  case hdr hm _ _ _    => exact ⟨hx.single, fun m h => hx.hdr m (hm ▸ Multiset.mem_cons_of_mem h)⟩
  all_goals exact ⟨hx.single, hx.hdr⟩

-- The messages are packed in the order in which they start in the flits.
theorem starts (h : Step rules tick x y) (hs : y.sent = x.sent ++ fs) (hx : x.Sorted dir)
    (hv : x.frame.Valid) (hasData : Bool) {ms : List Message}
    (hm : (x.packed.filter (·.opCode = dir.op hasData)).map Message.core =
      ms ++ (frameStarts hasData x.frame).map Message.core) :
    (y.packed.filter (·.opCode = dir.op hasData)).map Message.core =
      ms ++ fs.flatMap (Flit.starts dir hasData) ++ (frameStarts hasData y.frame).map Message.core := by
  cases h
  case emit c _ _ hn _ _ _ =>
    have hfs : fs = [frameFlit rules x.frame c] := (List.append_cancel_left hs).symm
    have hf : (frameFlit rules x.frame c).starts dir hasData =
        (frameStarts hasData x.frame).map Message.core := by
      rw [(Flit.Shows.of_frame hv hn c).starts]
      cases hasData
      case false => rfl
      case true  => cases hh : x.frame.hdr <;> simp [frameStarts, Frame.map, hh]
    rw [hfs, List.flatMap_singleton, hf, hm]
    cases hasData <;> simp [frameStarts, Frame.next, Frame.fresh]
  case single m _ _ _ h₀ _ hm' _ _ _ =>
    have hfs : fs = [] := by simpa using hs
    have hop : m.opCode = dir.singleOp := hx.single m (hm' ▸ Multiset.mem_cons_self m _)
    cases hasData <;> cases dir <;>
      simp_all [Dir.op, Dir.singleOp, Dir.hdrOp, frameStarts, Frame.addSingle, List.filter_append]
  case hdr m _ _ _ h₀ _ hm' _ _ _ =>
    have hfs : fs = [] := by simpa using hs
    have hop : m.opCode = dir.hdrOp := hx.hdr m (hm' ▸ Multiset.mem_cons_self m _)
    cases hasData <;> cases dir <;>
      simp_all [Dir.op, Dir.singleOp, Dir.hdrOp, frameStarts, Frame.addHdr, List.filter_append]
  all_goals
    have hfs : fs = [] := by simpa using hs
    rw [hfs, List.flatMap_nil, List.append_nil]
    exact hm

end Sender.Step

theorem Sender.opCode_of_packed {σ : Type} {x : Sender σ} {hasData : Bool} {m : Message}
    (h : (x.packed.filter (·.opCode = dir.op hasData)).map Message.core =
      x.sent.flatMap (Flit.starts dir hasData) ++ (frameStarts hasData x.frame).map Message.core)
    (hm : m ∈ x.sent.flatMap (Flit.starts dir hasData)) : m.opCode = dir.op hasData := by
  have hpacked := List.mem_append_left ((frameStarts hasData x.frame).map Message.core) hm
  rw [← h] at hpacked
  obtain ⟨m', hm', rfl⟩ := List.mem_map.mp hpacked
  exact of_decide_eq_true (List.mem_filter.mp hm').right

section Owed

-- The number of data slots that are owed.
def owedOf (o : Option (Nat × Message)) : Nat :=
  (o.map Prod.fst).getD 0

theorem owedOf_due (k : Nat) (m : Message) : owedOf (due k m) = k := by
  unfold owedOf due
  split
  case isTrue h  => exact h.symm
  case isFalse h => rfl

theorem owedOf_eq_zero {o : Option (Nat × Message)} (ho : ∀ k m, o = some (k, m) → k ≠ 0) :
    owedOf o = 0 ↔ o = none := by
  cases o
  case none   => exact iff_of_true rfl rfl
  case some p => exact iff_of_false (ho p.1 p.2 rfl) (Option.some_ne_none p)

-- What is owed after the flits is what they call for.
theorem Linked.weight {γ : Type} {flit : γ → Flit} {shows : γ → Frame Message → Prop}
    (hs : ∀ c fr, shows c fr → (flit c).Shows dir fr) {o o' : Option (Nat × Message)} {cs : List γ}
    (h : Linked shows o cs o') : flitWeight dir (cs.map flit) = owedOf o' - owedOf o := by
  induction h
  case nil => simp
  case cons c fr cs o' hc _ ih =>
    have hw := Flit.weight_frame (hs c fr hc).valid (hs c fr hc).slots_core
    rw [List.map_cons, flitWeight_cons, ih, hw, Frame.before, Frame.after, owedOf_due, owedOf_due]
    omega

-- There are not many more flits than messages, since only the flit after a header can have data only.
theorem Linked.length_le {shows : Flit → Frame Message → Prop} (hs : ∀ f fr, shows f fr → f.Shows dir fr)
    {o o' : Option (Nat × Message)} {fs : List Flit} (h : Linked shows o fs o') :
    fs.length + (if o' = none then 0 else 1) ≤ (fs.flatMap (Flit.starts dir false)).length +
      2 * (fs.flatMap (Flit.starts dir true)).length + if o = none then 0 else 1 := by
  induction h
  case nil => simp
  case cons f fr fs o' hf _ ih =>
    have hshows := hs f fr hf
    have hone := Frame.one_le_of_not_isEmpty hshows.nonempty
    simp only [List.flatMap_cons, List.length_append, List.length_cons, hshows.starts, frameStarts,
      Bool.false_eq_true, ↓reduceIte]
    omega

end Owed

theorem FrameFor.core {d : Fin n} (h : FrameFor cfg d fr) : FrameFor cfg d (fr.map Message.core) :=
  h.map fun _ hm => hm

-- All slots that are in use belong to the device of the frame.
theorem FrameFor.slots {d : Fin n} (h : FrameFor cfg d fr) :
    ∀ s ∈ frameSlots dir fr, s.type ≠ .empty → cfg.sendsTo d s.msg.address := by
  intro s hs ht
  obtain ⟨c, hc, rfl⟩ := List.mem_map.mp ((frameSlots_perm dir fr).mem_iff.mp hs)
  rcases List.mem_append.mp hc with hc | hc
  case _ =>
    obtain ⟨ho, rfl⟩ := List.mem_replicate.mp hc
    exact h.last ho
  case _ =>
    rcases List.mem_append.mp hc with hc | hc
    case _ =>
      obtain ⟨m, hm, rfl⟩ := List.mem_map.mp hc
      exact h.messages m (List.mem_append_left _ hm)
    case _ =>
      cases hh : fr.hdr
      case none =>
        rw [hh] at hc
        cases (List.mem_replicate.mp hc).right
        exact absurd rfl ht
      case some a =>
        have ha : a.isFor cfg d := h.of_hdr hh
        rw [hh] at hc
        rcases List.mem_cons.mp hc with rfl | hc
        case _ => exact ha
        case _ =>
          cases (List.mem_replicate.mp hc).right
          exact ha

-- If all slots in use belong to device `d`, then no slot has another device than those before it.
theorem slotsDevice_eq {d : Fin n} {ss : List Slot}
    (h : ∀ s ∈ ss, s.type ≠ .empty → cfg.sendsTo d s.msg.address) :
    slotsDevice cfg ss d.val = .ok d.val ∧
      slotsDevice cfg ss noDevice = .ok (if ∀ s ∈ ss, s.type = .empty then noDevice else d.val) := by
  induction ss
  case nil => simp [slotsDevice]
  case cons s ss ih =>
    obtain ⟨hs, hss⟩ := List.forall_mem_cons.mp h
    obtain ⟨ihd, ihn⟩ := ih hss
    unfold slotsDevice
    by_cases ht : s.type = .empty
    case pos => simp [ht, ihd, ihn]
    case neg =>
      have hd := Config.sendsTo_iff.mp (hs ht)
      simp [ht, hd, ihd, assert]

namespace Flit.Shows

-- A slot that is in use is the first one, or one that is found after it.
theorem getFirstAddress {d : Fin n} (h : f.Shows dir fr) (hf : FrameFor cfg d fr) :
    cfg.sendsTo d f.getFirstAddress := by
  unfold Flit.getFirstAddress
  cases hs : f.slots.find? (·.type ≠ .empty)
  case some s =>
    have hmem := List.mem_of_find?_eq_some hs
    have ht := List.find?_some hs
    rw [h.slots] at hmem
    exact hf.slots s hmem (by simpa using ht)
  case none =>
    refine absurd ((frameSlots_empty_iff dir h.valid).mp fun s hmem => ?_) h.nonempty
    rw [← h.slots] at hmem
    simpa using List.find?_eq_none.mp hs s hmem

-- A flit that starts with data carries data that was owed.
theorem owed_ne_zero (h : f.Shows dir fr) (ht : (f.slots.getD 0 {}).type = .data) : fr.owed ≠ 0 := by
  intro h₀
  have hcells : fr.cells Message.mark = fr.body Message.mark := by
    rw [Frame.cells, h₀, List.replicate_zero, List.append_nil, List.take_append_drop]
  have hhead := Deframer.head?_body_isData Message.mark fr
  rw [h.slots, frameSlots, hcells] at ht
  cases hb : fr.body Message.mark
  case nil => simp [hb] at ht
  case cons c cs =>
    have hc := hhead c (by simp [hb])
    cases c <;> cases dir <;> simp [hb, cellSlot, Dir.single, Dir.hdr, Cell.isData] at ht hc

theorem starts_isFor {d : Fin n} (h : f.Shows dir fr) (hf : FrameFor cfg d fr) (hasData : Bool) :
    ∀ m ∈ f.starts dir hasData, m.isFor cfg d := by
  rw [h.starts]
  cases hasData
  case false => exact fun m hm => hf.messages m (List.mem_append_left _ hm)
  case true  => exact fun m hm => hf.messages m (List.mem_append_right _ hm)

-- Of the messages that start in a flit, all or none are for a device.
theorem filter_starts {d k : Fin n} (h : f.Shows dir fr) (hf : FrameFor cfg k fr) (hasData : Bool) :
    (f.starts dir hasData).filter (·.isFor cfg d) = if d = k then f.starts dir hasData else [] := by
  have hm := h.starts_isFor hf hasData
  split
  case isTrue hd  => exact List.filter_eq_self.mpr (hd ▸ hm)
  case isFalse hd => exact List.filter_eq_nil_iff.mpr fun m h hk => hd (Message.isFor_unique hk (hm m h))

-- The host finds the device of the frame.
theorem slotsDevice {d : Fin n} (h : f.Shows dir fr) (hf : FrameFor cfg d fr) :
    slotsDevice cfg f.slots noDevice = .ok d.val := by
  have hs : ∀ s ∈ f.slots, s.type ≠ .empty → cfg.sendsTo d s.msg.address := h.slots ▸ hf.slots
  have hne : ¬∀ s ∈ f.slots, s.type = .empty := by
    rw [h.slots, frameSlots_empty_iff dir h.valid]
    exact h.nonempty
  rw [(slotsDevice_eq hs).right, if_neg hne]

end Flit.Shows

end CXL
