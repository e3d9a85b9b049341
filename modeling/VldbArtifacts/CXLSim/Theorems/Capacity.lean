import VldbArtifacts.CXLSim.Theorems.Failures
import VldbArtifacts.CXLSim.Theorems.Traffic

-- The credits of the host also bound the number of flits that are on their way, so that the buffers of the
-- switch never overflow.

namespace CXL

open Framing

variable {n : Nat} {cfg : Config n}

section Flits

variable {dir : Dir} {fs : List Flit}

theorem flitTags_eq (fs : List Flit) : flitTags dir fs =
    (fs.flatMap (Flit.starts dir false) : Multiset Message).map Message.tag +
      (fs.flatMap (Flit.starts dir true) : Multiset Message).map Message.tag := by
  induction fs
  case nil => rfl
  case cons f fs ih =>
    have hf : f.tags dir = (f.starts dir false : Multiset Message).map Message.tag +
        (f.starts dir true : Multiset Message).map Message.tag := by
      rw [← Multiset.map_add, Multiset.coe_add]
      rfl
    rw [flitTags_cons, ih, hf]
    simp only [List.flatMap_cons, ← Multiset.coe_add, Multiset.map_add]
    exact add_add_add_comm _ _ _ _

-- The messages of a kind that start in the flits are counted by their tags.
theorem length_starts_le {hasData : Bool}
    (h : ∀ m ∈ fs.flatMap (Flit.starts dir hasData), m.opCode = dir.op hasData) :
    (fs.flatMap (Flit.starts dir hasData)).length ≤
      (flitTags dir fs).countP (·.isWrite = (dir.op hasData).isWrite) := by
  have hcount : Multiset.countP _ ((fs.flatMap (Flit.starts dir hasData) : Multiset Message).map Message.tag) = _ :=
    countP_tags h (dir.op hasData).isWrite
  rw [if_pos rfl, Multiset.coe_card] at hcount
  rw [flitTags_eq, Multiset.countP_add, ← hcount]
  cases hasData
  case false => exact Nat.le_add_right _ _
  case true  => exact Nat.le_add_left _ _

end Flits

namespace Net.Credited

variable {x : Net n}

-- What the host has packed and not retired has taken a place for its response.
theorem count_le (hx : x.Credited cfg) {ts : Multiset Tag} (h : x.host.tx.waiting + ts ≤ x.host.sent)
    (b : Bool) : ts.countP (·.isWrite = b) ≤ cfg.hostRespSize := by
  have hr := hx.solvent.host.replies b
  have hc := Multiset.countP_le_of_le (·.isWrite = b) h
  have hn := hx.solvent.host.flow.int.response b
  rw [Multiset.countP_add, hx.solvent.host.sorted.countP_waiting] at hc
  omega

theorem tags_le (hx : x.Credited cfg) :
    x.host.tx.waiting + (flitTags .m2s x.host.out + ∑ d, (x.dev d).tags + flitTags .s2m x.host.inp) ≤
      x.host.sent := by
  rw [← hx.ledger.host.tags, HostNode.requests, HostNode.responses]
  refine Multiset.le_iff_exists_add.mpr ⟨x.host.tx.packing + (x.host.rx.unpacking + x.host.rx.arrived), ?_⟩
  abel

-- A stream of flits has at most one flit for each message without data and two for each one with data, and
-- one more with data of a message before them.
theorem length_le (hx : x.Credited cfg) {dir : Dir} {shows : Flit → Frame Message → Prop}
    {o o' : Option (Nat × Message)} {fs : List Flit} (hs : ∀ f fr, shows f fr → f.Shows dir fr)
    (hl : Linked shows o fs o')
    (hop : ∀ b, ∀ m ∈ fs.flatMap (Flit.starts dir b), m.opCode = dir.op b)
    (ht : flitTags dir fs ≤ flitTags .m2s x.host.out + ∑ d, (x.dev d).tags + flitTags .s2m x.host.inp) :
    fs.length ≤ 3 * cfg.hostRespSize + 1 := by
  have hlen := Linked.length_le hs hl
  have hle : x.host.tx.waiting + flitTags dir fs ≤ x.host.sent := (add_le_add_right ht _).trans hx.tags_le
  have hsingle := (length_starts_le (hop false)).trans (hx.count_le hle _)
  have hhdr := (length_starts_le (hop true)).trans (hx.count_le hle _)
  split at hlen <;> split at hlen <;> omega

theorem length_out_le (hx : x.Credited cfg) : x.host.out.length ≤ 3 * cfg.hostRespSize + 1 := by
  obtain ⟨o, ho⟩ := hx.routed.downlink.streams
  refine hx.length_le (fun _ _ h => h.left) ho.out (fun b m hm => ?_) ?_
  case _ =>
    obtain ⟨f, hf, hm'⟩ := List.mem_flatMap.mp hm
    obtain ⟨fr, hs, d, hd⟩ := ho.out.exists_of_mem hf
    have hfor := hs.starts_isFor hd b m hm'
    have hsent := hx.routed.downlink.mem_sent
      (List.mem_append_right _ (List.mem_filter.mpr ⟨hm, hfor⟩))
    exact Sender.opCode_of_packed (hx.routed.downlink.packed b) hsent.left
  case _ => exact Multiset.le_add_right _ _ |>.trans (Multiset.le_add_right _ _)

-- The same for a device.
theorem tags_dev_le (d : Fin n) :
    (x.dev d).tags ≤ flitTags .m2s x.host.out + ∑ d, (x.dev d).tags + flitTags .s2m x.host.inp := by
  have hle : (x.dev d).tags ≤ ∑ d, (x.dev d).tags :=
    Finset.single_le_sum (fun _ _ => Multiset.zero_le _) (Finset.mem_univ d)
  exact hle.trans ((Multiset.le_add_left _ _).trans (Multiset.le_add_right _ _))

theorem length_devInp_le (hx : x.Credited cfg) (d : Fin n) :
    (x.dev d).inp.length ≤ 3 * cfg.hostRespSize + 1 := by
  obtain ⟨o, ho⟩ := hx.routed.downlink.streams
  obtain ⟨o', -, hl⟩ := ho.inp d
  refine hx.length_le (fun _ _ h => h.left) hl (fun b m hm => ?_) (le_trans ?_ (tags_dev_le d))
  case _ =>
    have hsent := hx.routed.downlink.mem_sent (List.mem_append_left _ hm)
    exact Sender.opCode_of_packed (hx.routed.downlink.packed b) hsent.left
  case _ =>
    rw [DeviceNode.tags]
    simp only [add_assoc]
    exact Multiset.le_add_right _ _

theorem length_devOut_le (hx : x.Credited cfg) (d : Fin n) :
    (x.dev d).out.length ≤ 3 * cfg.hostRespSize + 1 := by
  obtain ⟨o, ho⟩ := hx.routed.uplink.streams
  refine hx.length_le (fun _ _ h => h.left) (ho.out d) (fun b m hm => ?_) (le_trans ?_ (tags_dev_le d))
  case _ =>
    have hsent : m ∈ (x.uplink.tx d).sent.flatMap (Flit.starts .s2m b) := by
      rw [← hx.routed.uplink.sent d, List.flatMap_append]
      exact List.mem_append_right _ hm
    exact Sender.opCode_of_packed ((hx.routed.uplink.tx d).packed b) hsent
  case _ => exact Multiset.le_add_left _ _

theorem length_hostInp_le (hx : x.Credited cfg) : x.host.inp.length ≤ 3 * cfg.hostRespSize + 1 := by
  obtain ⟨o, ho⟩ := hx.routed.uplink.streams
  obtain ⟨o', -, hl⟩ := ho.inp
  refine hx.length_le (fun _ _ h => h.left) hl (fun b m hm => ?_) (Multiset.le_add_left _ _)
  obtain ⟨f, hf, hm'⟩ := List.mem_flatMap.mp hm
  exact starts_opCode hx.routed.uplink hf b m hm'

end Net.Credited

section Room

variable {size bufSize : Nat} {es : List Failure}

theorem Raises.enqueue_of_lt {α : Type} {name : BufName} {b : CXLBuf size α} (h : b.q.length < size) (a : α) :
    Raises es (b.enqueue name a) := by
  rw [CXLBuf.enqueue, dif_neg h.ne]
  exact .ok _

theorem CXLBus.update_raises_of_lt (p : CXLParams) (tick : Int) (t : BusTerminals) (name : BufName)
    (bus : CXLBus size) {b : CXLBuf bufSize Flit} (h : b.q.length < bufSize) :
    Raises [.busSizeExceeded, .stagnantFlit] (bus.update p tick t name b) := by
  refine (Raises.assert (by simp)).bind fun _ => (Raises.assert (by simp)).bind fun _ => .ite ?_ (.ok _)
  unfold sendToNode
  split
  case h_1 => exact .ok _
  case h_2 => exact .ite (.bind (.enqueue_of_lt h _) fun _ => .ok _) (.ok _)

namespace CXLSwitch

variable {w : CXLSwitch cfg} (tick : Int)

-- No buffer of the switch is full.
structure HasRoom (w : CXLSwitch cfg) : Prop where
  upstreamTx   : w.upstreamTx.q.length < cfg.switchBufSize
  upstreamRx   : w.upstreamRx.q.length < cfg.switchBufSize
  downstreamTx : ∀ d, (w.downstreamTx d).q.length < cfg.switchBufSize
  downstreamRx : ∀ d, (w.downstreamRx d).q.length < cfg.switchBufSize
  arbNocH2D    : w.arbNocH2D.q.length < cfg.switchBufSize
  arbNocD2H    : w.arbNocD2H.q.length < cfg.switchBufSize

theorem forward_raises_of_lt (delay : Int) (name : BufName) (src : CXLBuf size Flit) {dst : CXLBuf size Flit}
    (h : dst.q.length < size) : Raises [] (forward tick delay name src dst) := by
  unfold forward
  split
  case h_1 => exact .ok _
  case h_2 => exact .bind (.enqueue_of_lt h _) fun _ => .ok _

theorem route_raises_of_lt (h : w.HasRoom)
    (hp : ∀ f ∈ w.arbNocH2D.q.head?, (f.slots.getD 0 {}).type = .data → w.previousDestination < n) :
    Raises [.invalidAddress] (w.route tick) := by
  unfold route
  split
  case h_1 => exact .ok _
  case h_2 f hf =>
    have hhead : f ∈ w.arbNocH2D.q.head? := (Option.filter_eq_some_iff.mp hf).left
    have hdest : (w.decodeDestination f).Meets (· < n) (· ∈ [Failure.invalidAddress]) := by
      unfold decodeDestination
      refine .ite (fun ht => hp f hhead ht) fun _ => ?_
      exact Except.Meets.bind (cfg.destinationDevice_raises _) fun d _ => d.isLt
    refine hdest.bind fun dest hd => ?_
    rw [dif_pos hd]
    exact Raises.bind (.enqueue_of_lt (h.downstreamTx _) _) fun _ => .ok _

theorem arbitrate_raises_of_lt (k : Nat) (h : w.arbNocD2H.q.length < cfg.switchBufSize) :
    Raises [] (arbitrate tick k w) := by
  induction k generalizing w
  case zero => exact .ok _
  case succ k ih =>
    have hport : w.updatePort.arbNocD2H = w.arbNocD2H := by
      unfold updatePort
      split <;> rfl
    rw [arbitrate]
    split
    case isFalse => exact ih (hport ▸ h)
    case isTrue =>
      simp only
      split
      case h_1 => exact .bind (.enqueue_of_lt h _) fun _ => .ok _
      case h_2 => exact .bind (ih (hport ▸ h)) fun _ => .ok _

end CXLSwitch

end Room

namespace CXLSystem

variable {M : Memory} {s : CXLSystem cfg M} {x : Net n}

theorem perform_of_hasRoom (h : s.switch.HasRoom)
    (hp : ∀ f ∈ s.switch.arbNocH2D.q.head?, (f.slots.getD 0 {}).type = .data →
      s.switch.previousDestination < n)
    (a : Action n) {b : BufName} (hb : b ∈ switchBuffers) : s.perform a ≠ .error (.addingToFullBuffer b) := by
  intro he
  have hnot {es : List Failure} {α : Type} {m : Sim α} {f : α → Sim (CXLSystem cfg M)}
      (hm : Raises es m) (hf : ∀ a, Raises es (f a)) (hes : .addingToFullBuffer b ∉ es) :
      m >>= f ≠ .error (.addingToFullBuffer b) :=
    fun he => hes ((hm.bind hf).of_error he)
  cases a
  case busFromHost =>
    exact hnot (CXLBus.update_raises_of_lt _ _ _ _ _ h.upstreamRx) (fun _ => .ok _) (by simp) he
  case busFromDevice i =>
    exact hnot (CXLBus.update_raises_of_lt _ _ _ _ _ (h.downstreamRx i)) (fun _ => .ok _) (by simp) he
  case forwardH2D =>
    exact hnot (CXLSwitch.forward_raises_of_lt _ _ _ _ h.arbNocH2D) (fun _ => .ok _) (by simp) he
  case route =>
    exact hnot (CXLSwitch.route_raises_of_lt _ h hp) (fun _ => .ok _) (by simp) he
  case arbitrate =>
    exact hnot (CXLSwitch.arbitrate_raises_of_lt _ _ h.arbNocD2H) (fun _ => .ok _) (by simp) he
  case forwardD2H =>
    exact hnot (CXLSwitch.forward_raises_of_lt _ _ _ _ h.upstreamTx) (fun _ => .ok _) (by simp) he
  all_goals
    have hm := s.mem_failures_of_perform he
    simp only [switchBuffers, List.mem_cons, List.not_mem_nil, or_false] at hb
    rcases hb with rfl | rfl | rfl | rfl | rfl | rfl <;> simp [Action.failures] at hm

-- What is on its way in one direction, and so what is in one of the buffers, is little.
structure FewFlits (s : CXLSystem cfg M) (k : Nat) : Prop where
  fromHost   : s.flitsFromHost.length ≤ k
  toDevice   : ∀ d, (s.flitsToDevice d).length ≤ k
  fromDevice : ∀ d, (s.flitsFromDevice d).length ≤ k
  toHost     : s.flitsToHost.length ≤ k

theorem Implements.fewFlits (hi : s.Implements x) (hx : x.Credited cfg) :
    s.FewFlits (3 * cfg.hostRespSize + 1) where
  fromHost     := by simpa only [hi.flitsFromHost, List.length_map] using hx.length_out_le
  toDevice d   := by simpa only [hi.flitsToDevice, List.length_map] using hx.length_devInp_le d
  fromDevice d := by simpa only [hi.flitsFromDevice, List.length_map] using hx.length_devOut_le d
  toHost       := by simpa only [hi.flitsToHost, List.length_map] using hx.length_hostInp_le

theorem FewFlits.hasRoom {k : Nat} (h : s.FewFlits k) (hk : k < cfg.switchBufSize) : s.switch.HasRoom := by
  have hfrom := h.fromHost
  have hto := h.toHost
  simp only [flitsFromHost, flitsToHost, List.length_append] at hfrom hto
  refine ⟨by omega, by omega, fun d => ?_, fun d => ?_, by omega, by omega⟩
  case _ =>
    have := h.toDevice d
    simp only [flitsToDevice, List.length_append] at this
    omega
  case _ =>
    have := h.fromDevice d
    simp only [flitsFromDevice, List.length_append] at this
    omega

-- The data at the head of the arbiter belongs to a flit that has been routed.
theorem Implements.previousDestination_lt (hi : s.Implements x) (hx : x.downlink.Orderly cfg) :
    ∀ f ∈ s.switch.arbNocH2D.q.head?, (f.slots.getD 0 {}).type = .data → s.switch.previousDestination < n := by
  intro f hf ht
  obtain ⟨o, ho⟩ := hx.streams
  obtain ⟨rest, hq⟩ := List.head?_eq_some_iff.mp hf
  have hout : x.downlink.out = f.core :: (rest ++ s.switch.upstreamRx.q ++ s.busFromHost.flitSlots ++
      s.host.tx.txBuffer.q).map Flit.core := by
    refine hi.flitsFromHost.trans ?_
    simp only [CXLSystem.flitsFromHost, hq, List.cons_append, List.map_cons]
  have hl := ho.out
  rw [hout] at hl
  obtain ⟨fr, hs, hbefore, -⟩ := hl.uncons
  have howed := hs.left.owed_ne_zero ((slots_core_getD f 0).trans ht)
  obtain ⟨d, -, hd⟩ := ho.prev fr.owed fr.last (hbefore.symm.trans (if_neg howed))
  exact hi.prev.symm.trans hd ▸ d.isLt

-- With the sizes of the source, which are 1024 and 4096, no buffer of the switch overflows.
theorem switch_never_overflows (hn : n ≤ noDevice) {trace : List Char} (h : Reaches trace s) :
    s.FewFlits (3 * cfg.hostRespSize + 1) ∧
      (3 * cfg.hostRespSize + 1 < cfg.switchBufSize →
        ∀ a, ∀ b ∈ switchBuffers, s.perform a ≠ .error (.addingToFullBuffer b)) := by
  obtain ⟨x, hx, hi⟩ := h.tracks
  have hc := hx.credited hn
  have hfew := hi.fewFlits hc
  exact ⟨hfew, fun hk a b hb =>
    perform_of_hasRoom (hfew.hasRoom hk) (hi.previousDestination_lt hc.routed.downlink) a hb⟩

-- A flit is on the bus of the host.
theorem switch_never_overflows_read : ∃ s : CXLSystem Config.prompt Memory.fifo,
    s.busFromHost.flitSlots.length = 1 ∧ s.FewFlits 3073 ∧
      s.perform .busFromHost ≠ .error (.addingToFullBuffer .upstreamRx) := by
  obtain ⟨s, hs, hlen⟩ := exists_of_run "0 R 0\n".toList (oneReadCalls.take 8)
    (fun s : CXLSystem Config.prompt Memory.fifo => s.busFromHost.flitSlots.length == 1) (by decide +kernel)
  obtain ⟨hfew, hnot⟩ := switch_never_overflows (by decide) hs
  exact ⟨s, beq_iff_eq.mp hlen, hfew, hnot (by decide) .busFromHost .upstreamRx (by decide)⟩

end CXLSystem

end CXL
