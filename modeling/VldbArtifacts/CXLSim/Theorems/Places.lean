import VldbArtifacts.CXLSim.Theorems.Credits

-- Among at most 4096 devices, no credit is lost and none is made, so that no channel gets more messages
-- than it has places.

namespace CXL

open Framing

variable {n : Nat} {cfg : Config n} {tick : Int}

theorem HostNode.Step.places {x y : HostNode n} (h : Step cfg x y) (hx : x.Solvent cfg) (d : Fin n)
    (hasData : Bool) : y.places cfg d hasData = x.places cfg d hasData := by
  cases h
  case pack tick z fs hs hf =>
    rcases hs.spends hx.sorted with ⟨hp, -, hext, -⟩ | ⟨m, d', b, hown, hp, -, hspends⟩
    case _ => simp only [HostNode.places, hp, hext]
    case _ =>
      have he := hspends.ext d hasData
      simp only [HostNode.places, hp, List.countP_append, List.countP_singleton,
        hown.unique, he, decide_eq_true_eq]
      split <;> omega
  case unpack f rest dest u hi hd hu =>
    have hfrom : f.isFrom cfg d = decide (dest = d.val) := by simp [Flit.isFrom, hd]
    simp only [HostNode.places, hi, List.filter_cons, hfrom, HostFlow.grant_request, decide_eq_true_eq]
    split
    case isTrue =>
      rw [carried_cons]
      omega
    case isFalse => omega
  case retireWrite => simp only [HostNode.places, HostFlow.retire_extCreds]
  case retireRead  => simp only [HostNode.places, HostFlow.retire_extCreds]
  all_goals rfl

-- What is read goes to its channel.
theorem Receiver.Reads.read {dir : Dir} {u u' : Receiver} {f : Flit} (h : u.Reads dir f u')
    (hasData : Bool) : u'.read hasData + (u.channel hasData).length =
      u.read hasData + (u'.channel hasData).length := by
  cases hasData
  case false =>
    obtain ⟨ms, hd, hs⟩ := h.single
    simp only [Receiver.read, Receiver.channel, hd, hs, List.length_append, Bool.false_eq_true, ↓reduceIte]
    omega
  case true =>
    obtain ⟨ms, hd, hs⟩ := h.hdr
    simp only [Receiver.read, Receiver.channel, hd, hs, List.length_append, List.length_map, ↓reduceIte]
    omega

theorem DeviceNode.Step.places {x y : DeviceNode} {d : Fin n} (h : Step cfg x y) (hx : x.Solvent)
    (ho : x.Owns cfg d) (hu : UniqueIds x.tags) (hasData : Bool) : y.places hasData = x.places hasData := by
  cases h
  case unpack f rest u hi hr =>
    have hread := hr.read hasData
    simp only [DeviceNode.places, DeviceNode.held, DeviceFlow.grant]
    omega
  case sendRead m rest hq _ =>
    have hop : m.opCode = .req := (ho.single m (hq ▸ List.mem_cons_self)).opCode
    have hr := record_new (hu.notMem (cons_mem_le (Receiver.arrived_single hq)))
    simp only [DeviceNode.places, DeviceNode.held, Receiver.read, Receiver.channel, hq, hr, hop]
    cases hasData
    case false =>
      simp [DeviceFlow.release, Credits.request]
      omega
    case true => simp [DeviceFlow.release, Credits.request, Message.tag, hop, Opcode.isWrite]
  case sendWrite m rest hq _ =>
    have hop : m.opCode = .rwd := (ho.hdr m (hq ▸ List.mem_cons_self)).opCode
    have hr := record_new (hu.notMem (cons_mem_le (Receiver.arrived_hdr hq)))
    simp only [DeviceNode.places, DeviceNode.held, Receiver.read, Receiver.channel, hq, hr, hop]
    cases hasData
    case false => simp [DeviceFlow.release]
    case true =>
      simp [DeviceFlow.release, Message.tag, hop, Opcode.isWrite]
      omega
  case respondRead m ids ht _ hop =>
    have hw : ¬m.tag.isWrite := by simp [Message.tag, hop, Opcode.isWrite]
    have hc : x.mem.countP (·.isWrite) = (x.mem.erase m.tag).countP (·.isWrite) := by
      conv_lhs => rw [← Multiset.cons_erase ht, Multiset.countP_cons, if_neg hw, add_zero]
    simp only [DeviceNode.places, DeviceNode.held, hc]
  case respondWrite m ids ht _ hop =>
    have hw : m.tag.isWrite := by simp [Message.tag, hop, Opcode.isWrite]
    have hc : x.mem.countP (·.isWrite) = (x.mem.erase m.tag).countP (·.isWrite) + 1 := by
      conv_lhs => rw [← Multiset.cons_erase ht, Multiset.countP_cons, if_pos hw]
    simp only [DeviceNode.places, DeviceNode.held, hc, Multiset.card_cons]
    split <;> omega
  case pack hs hf =>
    have hr := hs.returns hf hx.flow hasData
    simp only [DeviceNode.places, DeviceNode.held, carried_append]
    cases hasData <;> simp at hr ⊢ <;> omega

namespace Net

variable {x y : Net n}

-- A flit on its way from a device to the arbiter is one of this device.
theorem isFrom_out {d : Fin n} {f : Flit} (h : x.uplink.Orderly fun d m => m.isFor cfg d) (hf : f ∈ (x.dev d).out) (i : Fin n) :
    f.isFrom cfg i = decide (d = i) := by
  obtain ⟨o, ho⟩ := h.streams
  obtain ⟨fr, hs, hfor, -⟩ := (ho.out d).exists_of_mem hf
  simp [Flit.isFrom, hs.slotsDevice hfor, Fin.ext_iff]

theorem Step.places (h : Step cfg x y) (hr : x.Routed cfg) (hl : x.Ledger) (hs : x.Solvent cfg) (d : Fin n)
    (hasData : Bool) : y.places cfg d hasData = x.places cfg d hasData := by
  cases h
  case host hy => exact congrArg _ (hy.places hs.host d hasData)
  case turn => rfl
  case device i z hz =>
    have hp := hz.places (hs.dev i) (hr.owned i) (hl.uniqueIds i) hasData
    by_cases hi : d = i
    case pos =>
      subst hi
      simp [Net.places, setDev, hp]
    case neg => simp [Net.places, setDev, hi]
  case route f rest i _ _ =>
    by_cases hi : d = i
    case pos =>
      subst hi
      simp [Net.places, setDev, DeviceNode.places, HostNode.places, DeviceNode.held]
    case neg => simp [Net.places, setDev, hi, HostNode.places]
  case move f rest i _ hout =>
    have hf := isFrom_out hr.uplink (hout ▸ List.mem_cons_self) d
    by_cases hi : d = i
    case pos =>
      subst hi
      simp [Net.places, setDev, DeviceNode.places, HostNode.places, DeviceNode.held, hf, hout]
      omega
    case neg => simp [Net.places, setDev, hi, HostNode.places, hf, Ne.symm hi]

-- What is known of the places for requests among at most 4096 devices.
structure Credited (cfg : Config n) (x : Net n) : Prop where
  routed  : x.Routed cfg
  ledger  : x.Ledger
  solvent : x.Solvent cfg
  places  : ∀ d hasData, x.places cfg d hasData = cfg.devVcSize

theorem init_credited : (init cfg).Credited cfg := by
  refine ⟨init_routed, init_ledger, init_solvent, fun d b => ?_⟩
  have hdev : ((init cfg).dev d).places b = (cfg.devVcSize : Int) - 1 := by
    cases b <;> simp [DeviceNode.places, DeviceNode.held, Receiver.read, Receiver.channel, Credits.request,
      init, DeviceNode.init, Sender.init, Receiver.init, DeviceFlow.init]
  have hhost : (init cfg).host.places cfg d b = 1 := by
    cases b <;> rfl
  rw [Net.places, hdev, hhost, Int.sub_add_cancel]

theorem Step.credited (hn : n ≤ noDevice) (h : Step cfg x y) (hx : x.Credited cfg) : y.Credited cfg where
  routed     := h.routed hn hx.routed
  ledger     := h.ledger hx.ledger
  solvent    := h.solvent hx.ledger hx.solvent
  places d b := (h.places hx.routed hx.ledger hx.solvent d b).trans (hx.places d b)

theorem Reachable.credited (hn : n ≤ noDevice) (h : Reachable cfg x) : x.Credited cfg := by
  induction h
  case refl         => exact init_credited
  case tail _ hs ih => exact hs.credited hn ih

end Net

section Bounds

variable {x : Net n}

theorem Receiver.starts_length (u : Receiver) (hasData : Bool) : (u.starts hasData).length =
    u.read hasData + if hasData then u.deframer.pending.length else 0 := by
  cases hasData <;> simp [Receiver.starts, Receiver.read]

namespace Net.Credited

-- The requests that a device has and those that will come to it fit into its channels, also when all free
-- places are taken.
theorem taken_le (hx : x.Credited cfg) (d : Fin n) (hasData : Bool) :
    (x.dev d).tx.flow.intCred.request hasData + ((x.dev d).rx.channel hasData).length +
      (if hasData then (x.dev d).rx.deframer.pending.length else 0 : Nat) +
      ((x.dev d).inp.flatMap (Flit.starts .m2s hasData)).length ≤ cfg.devVcSize := by
  have hp := hx.places d hasData
  have hr := congrArg List.length (hx.routed.downlink.requests d hasData)
  rw [List.length_map, ← List.countP_eq_length_filter, List.length_append, Receiver.starts_length] at hr
  simp only [List.length_append] at hr
  have hext := (hx.solvent.host.flow.ext d).request hasData
  have hout : 0 ≤ carried hasData (x.dev d).out := carried_nonneg (hx.solvent.dev d).out
  have hinp : 0 ≤ carried hasData (x.host.inp.filter (·.isFrom cfg d)) :=
    carried_nonneg fun f hf => hx.solvent.host.inp f (List.mem_of_mem_filter hf)
  simp only [Net.places, DeviceNode.places, HostNode.places] at hp
  simp only [Net.downlink] at hr
  omega

end Net.Credited

theorem countP_tags {ms : Multiset Message} {op : Opcode} (hm : ∀ m ∈ ms, m.opCode = op) (hasData : Bool) :
    (ms.map Message.tag).countP (·.isWrite = hasData) = if op.isWrite = hasData then ms.card else 0 := by
  rw [Multiset.countP_map]
  split
  case isTrue hop =>
    rw [Multiset.filter_eq_self.mpr fun m hm' => ?_]
    change m.opCode.isWrite = hasData
    rw [hm m hm', hop]
  case isFalse hop =>
    rw [Multiset.filter_eq_nil.mpr fun m hm' => ?_, Multiset.card_zero]
    change ¬m.opCode.isWrite = hasData
    rw [hm m hm']
    exact hop

-- Of the requests that wait in the host, those in the channels for writes are writes.
theorem Sender.Sorted.countP_waiting {x : Sender (HostFlow n)} (h : x.Sorted .m2s) (hasData : Bool) :
    x.waiting.countP (·.isWrite = hasData) = (x.channel hasData).card := by
  rw [Sender.waiting, Multiset.map_add, Multiset.countP_add, countP_tags h.single, countP_tags h.hdr]
  cases hasData <;> simp [Sender.channel, Dir.singleOp, Dir.hdrOp, Opcode.isWrite]

-- The responses that are on their way to the host fit into its channels, also when all free places are taken.
theorem HostNode.Solvent.replies_le {x : HostNode n} {ts : Multiset Tag} (hx : x.Solvent cfg)
    (hb : x.Balanced ts) (hasData : Bool) :
    x.tx.flow.intCred.response hasData + x.responses.countP (·.isWrite = hasData) ≤ cfg.hostRespSize := by
  have hr := hx.replies hasData
  have hw := hx.sorted.countP_waiting hasData
  rw [← hb.tags, Multiset.countP_add, Multiset.countP_add, HostNode.requests, Multiset.countP_add,
    Multiset.countP_add, hw] at hr
  push_cast at hr
  omega

-- The responses of one kind that the host has or is about to read.
theorem HostNode.Owns.le_responses {x : HostNode n} {f : Flit} {rest : List Flit} (h : x.Owns)
    (hi : x.inp = f :: rest) (hf : ∀ b, ∀ m ∈ f.starts .s2m b, m.opCode = Dir.op .s2m b) :
    x.rx.single.length + (f.singles .s2m).length ≤ x.responses.countP (·.isWrite = true) ∧
      x.rx.hdr.length + x.rx.deframer.pending.length + (f.hdrs .s2m).length ≤
        x.responses.countP (·.isWrite = false) := by
  have hcount {ms : List Message} {op : Opcode} (b : Bool) (hm : ∀ m ∈ ms, m.opCode = op)
      (hb : op.isWrite = b) :
      ((ms.map Message.tag : List Tag) : Multiset Tag).countP (·.isWrite = b) = ms.length := by
    have : Multiset.countP _ ((ms : Multiset Message).map Message.tag) = _ := countP_tags hm b
    rwa [if_pos hb, Multiset.coe_card] at this
  have hs := hcount true h.single rfl
  have hh := hcount false h.hdr rfl
  have hp := hcount false h.pending rfl
  have hfs := hcount true (hf false) rfl
  have hfh := hcount false (hf true) rfl
  simp only [Flit.starts, Bool.false_eq_true, ↓reduceIte] at hfs hfh
  simp only [HostNode.responses, hi, flitTags_cons, Flit.tags, Receiver.unpacking, Receiver.arrived,
    List.map_append, ← Multiset.coe_add, Multiset.countP_add, hs, hh, hp, hfs, hfh]
  omega

section Failures

variable {e : Failure}

theorem Failure.IsOther.not_credit (h : e.IsOther) : e ∉ creditFailures := by
  intro he
  simp only [creditFailures, List.mem_cons, List.not_mem_nil, or_false] at he
  rcases he with rfl | rfl | rfl | rfl | rfl | rfl | rfl | rfl | rfl <;> simp [Failure.IsOther] at h

theorem HostFlow.Nonneg.creditSanityCheck {s : HostFlow n} (h : s.Nonneg)
    (hle : ∀ b, s.intCred.response b ≤ cfg.hostRespSize) : s.creditSanityCheck cfg = .ok () := by
  have hrsp : s.intCred.rspCredit ≤ cfg.hostRespSize := hle true
  have hdata : s.intCred.dataCredit ≤ cfg.hostRespSize := hle false
  simp [HostFlow.creditSanityCheck, assert, h.req, h.int.rsp, h.int.data, hrsp, hdata]

theorem DeviceFlow.Nonneg.creditSanityCheck {s : DeviceFlow} (h : s.Nonneg)
    (hle : ∀ b, s.intCred.request b ≤ cfg.devVcSize) : s.creditSanityCheck cfg = .ok () := by
  have hreq : s.intCred.reqCredit ≤ cfg.devVcSize := hle false
  have hdata : s.intCred.dataCredit ≤ cfg.devVcSize := hle true
  simp [DeviceFlow.creditSanityCheck, assert, h.rsp, h.int.req, h.int.data, hreq, hdata]

-- A node that fails on its credits has too many or too few of them, or it has got too many messages.
theorem HostNode.Fails.credit {x : HostNode n} (h : x.Fails cfg e) (he : e ∈ creditFailures) :
    x.tx.flow.creditSanityCheck cfg = .error e ∨
      ∃ f rest, x.inp = f :: rest ∧ (cfg.hostRespSize < x.rx.single.length + (f.singles .s2m).length ∨
        cfg.hostRespSize < x.rx.hdr.length + x.rx.deframer.pending.length + (f.hdrs .s2m).length) := by
  cases h
  case other ho => exact absurd he ho.not_credit
  case pack hf =>
    rcases hostPackerRules_fails hf with rfl | hc
    case inl => simp [creditFailures] at he
    case inr => exact .inl hc
  case unpack f rest hi hr =>
    cases hr
    case rule hm   => grind [creditFailures]
    case single hl => exact .inr ⟨f, rest, hi, .inl hl⟩
    case hdr hl    => exact .inr ⟨f, rest, hi, .inr hl⟩
  case mixedFlit hd      => rcases CXLHost.slotsDevice_meets.of_error hd with rfl | rfl <;> simp [creditFailures] at he
  case unknownResponse   => simp [creditFailures] at he

theorem DeviceNode.Fails.credit {x : DeviceNode} (h : x.Fails cfg e) (he : e ∈ creditFailures) :
    x.tx.flow.creditSanityCheck cfg = .error e ∨
      ∃ f rest, x.inp = f :: rest ∧ (cfg.devVcSize < x.rx.single.length + (f.singles .m2s).length ∨
        cfg.devVcSize < x.rx.hdr.length + x.rx.deframer.pending.length + (f.hdrs .m2s).length) := by
  cases h
  case other ho => exact absurd he ho.not_credit
  case pack hf =>
    rcases devicePackerRules_fails hf with rfl | hc | rfl
    case inl     => simp [creditFailures] at he
    case inr.inl => exact .inl hc
    case inr.inr => simp [creditFailures] at he
  case unpack f rest hi hr =>
    cases hr
    case rule hm   => grind [creditFailures]
    case single hl => exact .inr ⟨f, rest, hi, .inl hl⟩
    case hdr hl    => exact .inr ⟨f, rest, hi, .inr hl⟩
  case unknownCallback hc => rcases hc with rfl | rfl <;> simp [creditFailures] at he

end Failures

namespace Net.Credited

theorem not_credit {e : Failure} (hx : x.Credited cfg) (h : x.Fails cfg e) : e ∉ creditFailures := by
  intro he
  cases h
  case other ho => exact ho.not_credit he
  case host hf =>
    have hle := hx.solvent.host.replies_le hx.ledger.host
    rcases hf.credit he with hc | ⟨f, rest, hi, hfull⟩
    case _ =>
      have hok : HostFlow.creditSanityCheck cfg _ = _ := hx.solvent.host.flow.creditSanityCheck fun b => by
        have := hle b
        omega
      cases hok.symm.trans hc
    case _ =>
      have hf : f ∈ x.host.inp := hi ▸ List.mem_cons_self
      obtain ⟨hw, hr⟩ := hx.routed.host.le_responses hi (starts_opCode hx.routed.uplink hf)
      have hle₁ := hle true
      have hle₀ := hle false
      have h₁ := hx.solvent.host.flow.int.response true
      have h₀ := hx.solvent.host.flow.int.response false
      omega
  case device d hf =>
    have hle := hx.taken_le d
    rcases hf.credit he with hc | ⟨f, rest, hi, hfull⟩
    case _ =>
      have hok : DeviceFlow.creditSanityCheck cfg _ = _ := (hx.solvent.dev d).flow.creditSanityCheck fun b => by
        have := hle b
        omega
      cases hok.symm.trans hc
    case _ =>
      have hle₁ := hle true
      have hle₀ := hle false
      have h₁ := (hx.solvent.dev d).flow.int.request true
      have h₀ := (hx.solvent.dev d).flow.int.request false
      simp only [hi, List.flatMap_cons, List.length_append, Receiver.channel, Flit.starts,
        Bool.false_eq_true, ↓reduceIte] at hle₀ hle₁
      omega

end Net.Credited

end Bounds

end CXL
