import VldbArtifacts.CXLSim.Credits
import VldbArtifacts.CXLSim.Theorems.NetLinks

-- What the packers and the channels do to the credits. No credit is ever negative.

namespace CXL

open Framing

variable {n : Nat} {cfg : Config n} {tick : Int}

namespace Credits.Nonneg

variable {c : Credits}

theorem request (h : c.Nonneg) (hasData : Bool) : 0 ≤ c.request hasData := by
  cases hasData
  case false => exact h.req
  case true  => exact h.data

theorem response (h : c.Nonneg) (hasData : Bool) : 0 ≤ c.response hasData := by
  cases hasData
  case false => exact h.data
  case true  => exact h.rsp

end Credits.Nonneg

section Carried

variable {hasData : Bool}

@[simp]
theorem carried_nil : carried hasData [] = 0 :=
  rfl

@[simp]
theorem carried_cons (f : Flit) (fs : List Flit) :
    carried hasData (f :: fs) = f.header.credit.request hasData + carried hasData fs :=
  List.sum_cons

@[simp]
theorem carried_append (fs gs : List Flit) :
    carried hasData (fs ++ gs) = carried hasData fs + carried hasData gs := by
  simp [carried]

theorem carried_nonneg {fs : List Flit} (h : ∀ f ∈ fs, f.header.credit.Nonneg) : 0 ≤ carried hasData fs := by
  apply List.sum_nonneg
  intro c hc
  obtain ⟨f, hf, rfl⟩ := List.mem_map.mp hc
  exact (h f hf).request hasData

end Carried

namespace HostFlow

variable {s s' : HostFlow n} {m : Message}

theorem consider_creds (h : consider cfg s m = .ok s') :
    s'.extCreds = s.extCreds ∧ s'.intCred = s.intCred := by
  unfold consider at h
  split at h
  case isTrue =>
    obtain ⟨_, _, h⟩ := Except.bind_eq_ok.mp h
    cases h
    exact ⟨rfl, rfl⟩
  case isFalse =>
    cases h
    exact ⟨rfl, rfl⟩

-- A request to device `d` costs one of the credits of this device, and a place for its response.
structure Spends (d : Fin n) (hasData : Bool) (s s' : HostFlow n) : Prop where
  ready  : (s.extCreds d).request hasData ≠ 0 ∧ s.intCred.response hasData ≠ 0
  ext    : ∀ i b, (s'.extCreds i).request b =
    (s.extCreds i).request b - if b = hasData ∧ i = d then 1 else 0
  int    : ∀ b, s'.intCred.response b = s.intCred.response b - if b = hasData then 1 else 0
  extRsp : ∀ i, (s'.extCreds i).rspCredit = (s.extCreds i).rspCredit
  intReq : s'.intCred.reqCredit = s.intCred.reqCredit

theorem ready_creds {d : Fin n} {hasData : Bool} (hm : m.IsRequest cfg d hasData)
    (hr : ready cfg tick s m = .ok true) :
    (s.extCreds d).request hasData ≠ 0 ∧ s.intCred.response hasData ≠ 0 := by
  unfold ready at hr
  split at hr
  case isFalse => cases hr
  case isTrue =>
    obtain ⟨d', hd, hr⟩ := Except.bind_eq_ok.mp hr
    obtain rfl : d' = d := Except.ok.inj (hd.symm.trans (Config.sendsTo_iff.mp hm.isFor))
    split at hr
    case isFalse => cases hr
    case isTrue =>
      rw [hm.opCode] at hr
      cases hasData <;> exact of_decide_eq_true (Except.ok.inj hr)

theorem spendReq_spends {s'' : HostFlow n} {d : Fin n} (hm : m.IsRequest cfg d false)
    (hr : ready cfg tick s m = .ok true) (hc : consider cfg s m = .ok s')
    (h : spendReq cfg s' m = .ok s'') : s.Spends d false s'' := by
  obtain ⟨hext, hint⟩ := consider_creds hc
  rw [spendReq, Config.sendsTo_iff.mp hm.isFor] at h
  cases h
  refine ⟨ready_creds hm hr, fun i b => ?_, fun b => ?_, fun i => ?_, by simp [modifyExtCreds, hint]⟩
  case _ => by_cases hi : i = d <;> cases b <;> simp [modifyExtCreds, hext, hi, Credits.request]
  case _ => cases b <;> simp [modifyExtCreds, hint, Credits.response]
  case _ => by_cases hi : i = d <;> simp [modifyExtCreds, hext, hi]

theorem spendRwd_spends {s'' : HostFlow n} {d : Fin n} (hm : m.IsRequest cfg d true)
    (hr : ready cfg tick s m = .ok true) (hc : consider cfg s m = .ok s')
    (h : spendRwd cfg s' m = .ok s'') : s.Spends d true s'' := by
  obtain ⟨hext, hint⟩ := consider_creds hc
  rw [spendRwd, Config.sendsTo_iff.mp hm.isFor] at h
  cases h
  refine ⟨ready_creds hm hr, fun i b => ?_, fun b => ?_, fun i => ?_, by simp [modifyExtCreds, hint]⟩
  case _ => by_cases hi : i = d <;> cases b <;> simp [modifyExtCreds, hext, hi, Credits.request]
  case _ => cases b <;> simp [modifyExtCreds, hint, Credits.response]
  case _ => by_cases hi : i = d <;> simp [modifyExtCreds, hext, hi]

structure Nonneg (s : HostFlow n) : Prop where
  ext : ∀ d, (s.extCreds d).Nonneg
  int : s.intCred.Nonneg
  req : s.intCred.reqCredit = 0

theorem Nonneg.congr (h : s.Nonneg) (hext : s'.extCreds = s.extCreds) (hint : s'.intCred = s.intCred) :
    s'.Nonneg :=
  ⟨hext ▸ h.ext, hint ▸ h.int, hint ▸ h.req⟩

theorem Spends.nonneg {d : Fin n} {hasData : Bool} (h : s.Spends d hasData s') (hs : s.Nonneg) :
    s'.Nonneg := by
  have hext (i : Fin n) (b : Bool) : 0 ≤ (s'.extCreds i).request b := by
    have h₀ := (hs.ext i).request b
    rw [h.ext]
    split
    case isTrue hb =>
      have := hb.left ▸ hb.right ▸ h.ready.left
      omega
    case isFalse => omega
  have hint (b : Bool) : 0 ≤ s'.intCred.response b := by
    have h₀ := hs.int.response b
    rw [h.int]
    split
    case isTrue hb =>
      have := hb ▸ h.ready.right
      omega
    case isFalse => omega
  have hreq : s'.intCred.reqCredit = 0 := h.intReq.trans hs.req
  exact ⟨fun i => ⟨hext i false, h.extRsp i ▸ (hs.ext i).rsp, hext i true⟩,
    ⟨hreq.ge, hint true, hint false⟩, hreq⟩

theorem Nonneg.retire (h : s.Nonneg) (op : Opcode) : (s.retire op).Nonneg := by
  have hint := h.int
  cases op
  case drs => exact ⟨h.ext, ⟨hint.req, hint.rsp, Int.add_nonneg hint.data Int.one_nonneg⟩, h.req⟩
  all_goals exact ⟨h.ext, ⟨hint.req, Int.add_nonneg hint.rsp Int.one_nonneg, hint.data⟩, h.req⟩

theorem retire_extCreds (s : HostFlow n) (op : Opcode) : (s.retire op).extCreds = s.extCreds := by
  cases op <;> rfl

theorem retire_response {op : Opcode} (hop : op = .drs ∨ op = .ndr) (s : HostFlow n) (b : Bool) :
    (s.retire op).intCred.response b = s.intCred.response b + if op.isWrite = b then 1 else 0 := by
  rcases hop with rfl | rfl <;> cases b <;> simp [retire, Credits.response, Opcode.isWrite]

theorem Nonneg.grant {c : Credits} (h : s.Nonneg) (hc : c.Nonneg) (d : Nat) : (s.grant d c).Nonneg := by
  unfold HostFlow.grant
  split
  case isFalse => exact h
  case isTrue hd =>
    refine ⟨fun i => ?_, h.int, h.req⟩
    have hi := h.ext i
    by_cases hi' : i = ⟨d, hd⟩
    case neg => simpa [modifyExtCreds, hi'] using hi
    case pos =>
      subst hi'
      dsimp only [modifyExtCreds]
      rw [Function.update_self]
      exact ⟨Int.add_nonneg hi.req hc.req, hi.rsp, Int.add_nonneg hi.data hc.data⟩

theorem grant_intCred (s : HostFlow n) (d : Nat) (c : Credits) : (s.grant d c).intCred = s.intCred := by
  unfold HostFlow.grant
  split <;> rfl

theorem grant_request (s : HostFlow n) (k : Nat) (c : Credits) (d : Fin n) (b : Bool) :
    ((s.grant k c).extCreds d).request b =
      (s.extCreds d).request b + if k = d.val then c.request b else 0 := by
  unfold HostFlow.grant
  split
  case isTrue hk =>
    by_cases hd : k = d.val
    case pos =>
      subst hd
      cases b <;> simp [modifyExtCreds, Credits.request]
    case neg =>
      have : d ≠ ⟨k, hk⟩ := fun h => hd (congrArg Fin.val h).symm
      simp [modifyExtCreds, this, hd]
  case isFalse hk =>
    have : k ≠ d.val := fun h => hk (h ▸ d.isLt)
    simp [this]

end HostFlow

namespace Sender.Step

variable {x y : Sender (HostFlow n)} {fs : List Flit}

-- What a step of the packer of the host does to the credits: nothing, or it packs a request.
theorem spends (h : Step (hostPackerRules cfg) tick x y) (hx : x.Sorted .m2s) :
    (y.packed = x.packed ∧ (∀ b, y.channel b = x.channel b) ∧ y.flow.extCreds = x.flow.extCreds ∧
      y.flow.intCred = x.flow.intCred) ∨
    ∃ m d hasData, m.IsRequest cfg d hasData ∧ y.packed = x.packed ++ [m] ∧
      (∀ b, x.channel b = if b = hasData then m ::ₘ y.channel b else y.channel b) ∧
      x.flow.Spends d hasData y.flow := by
  cases h
  case start =>
    refine .inl ⟨rfl, fun _ => rfl, ?_⟩
    by_cases ho : x.frame.owed > 0 <;> simp [hostPackerRules, ho]
  case refuse hs => exact .inl ⟨rfl, fun _ => rfl, HostFlow.consider_creds hs⟩
  case single m s s' rest _ _ hm hr hs hs' =>
    obtain ⟨d, hd, -⟩ := HostFlow.ready_true hr
    have hop := hx.single m (hm ▸ Multiset.mem_cons_self m _)
    have hown : m.IsRequest cfg d false := ⟨hop, Config.sendsTo_iff.mpr hd⟩
    refine .inr ⟨m, d, false, hown, rfl, fun b => ?_, HostFlow.spendReq_spends hown hr hs hs'⟩
    cases b <;> simp [channel, hm]
  case hdr m s s' rest _ _ hm hr hs hs' =>
    obtain ⟨d, hd, -⟩ := HostFlow.ready_true hr
    have hop := hx.hdr m (hm ▸ Multiset.mem_cons_self m _)
    have hown : m.IsRequest cfg d true := ⟨hop, Config.sendsTo_iff.mpr hd⟩
    refine .inr ⟨m, d, true, hown, rfl, fun b => ?_, HostFlow.spendRwd_spends hown hr hs hs'⟩
    cases b <;> simp [channel, hm]
  case emit hc hs =>
    obtain ⟨_, _, hc⟩ := Except.bind_eq_ok.mp hc
    cases hc
    cases hs
    exact .inl ⟨rfl, fun _ => rfl, rfl, rfl⟩

-- The credits that the host gives away are counted.
theorem host_nonneg (h : Step (hostPackerRules cfg) tick x y) (hs : y.sent = x.sent ++ fs) :
    ∀ f ∈ fs, f.header.credit.Nonneg := by
  cases h
  case emit hc hs' =>
    obtain ⟨_, _, hc⟩ := Except.bind_eq_ok.mp hc
    cases hc
    intro f hf
    rw [List.append_cancel_left hs.symm] at hf
    cases List.mem_singleton.mp hf
    exact ⟨le_rfl, Int.natCast_nonneg _, Int.natCast_nonneg _⟩
  all_goals
    have hfs : fs = [] := by simpa using hs
    exact fun f hf => absurd (hfs ▸ hf) List.not_mem_nil

end Sender.Step

namespace DeviceFlow

variable {s s' : DeviceFlow} {m : Message}

structure Nonneg (s : DeviceFlow) : Prop where
  ext : s.extCred.Nonneg
  int : s.intCred.Nonneg
  rsp : s.intCred.rspCredit = 0

-- There is only one host to share the credits with.
theorem share_eq {c : Int} (h : 0 ≤ c) : share c = c := by
  unfold share connectedHosts
  split
  case isTrue => omega
  case isFalse =>
    split
    case isTrue => exact Int.ediv_one c
    case isFalse => omega

theorem ready_creds {hasData : Bool} (hop : m.opCode = Dir.op .s2m hasData)
    (hr : ready cfg tick s m = .ok true) : s.extCred.response (!hasData) ≠ 0 := by
  unfold ready at hr
  split at hr
  case isFalse => cases hr
  case isTrue =>
    rw [hop] at hr
    cases hasData
    case false => exact of_decide_eq_true (Except.ok.inj hr)
    case true  => exact (of_decide_eq_true (Except.ok.inj hr)).left

theorem countSequence_creds {k : Nat} (h : countSequence s k = .ok s') :
    s'.intCred = s.intCred ∧ s'.extCred = s.extCred := by
  obtain ⟨_, _, h⟩ := Except.bind_eq_ok.mp h
  cases h
  exact ⟨rfl, rfl⟩

theorem getDeviceCredits_eq {c : Credits} (h : getDeviceCredits cfg s = .ok (c, s')) (hs : s.Nonneg) :
    c = s.intCred ∧ s'.intCred = ⟨0, 0, 0⟩ ∧ s'.extCred = s.extCred := by
  obtain ⟨_, _, h⟩ := Except.bind_eq_ok.mp h
  cases h
  simp [share_eq hs.int.req, share_eq hs.int.data, ← hs.rsp]

theorem Nonneg.release (h : s.Nonneg) (op : Opcode) : (s.release op).Nonneg := by
  cases op
  case req => exact ⟨h.ext, ⟨Int.add_nonneg h.int.req Int.one_nonneg, h.int.rsp, h.int.data⟩, h.rsp⟩
  all_goals exact h

end DeviceFlow

namespace Sender.Step

variable {x y : Sender DeviceFlow} {fs : List Flit}

theorem device_nonneg (h : Step (devicePackerRules cfg) tick x y) (hs : y.sent = x.sent ++ fs)
    (hx : x.Sorted .s2m) (hn : x.flow.Nonneg) : y.flow.Nonneg ∧ ∀ f ∈ fs, f.header.credit.Nonneg := by
  cases h
  case emit c s s' _ _ hc hs' =>
    obtain ⟨rfl, hint, hext⟩ := DeviceFlow.getDeviceCredits_eq hc hn
    obtain ⟨hint', hext'⟩ := DeviceFlow.countSequence_creds hs'
    have hfs : fs = [frameFlit (devicePackerRules cfg) x.frame x.flow.intCred] :=
      (List.append_cancel_left hs).symm
    rw [hfs]
    refine ⟨⟨?_, ?_, ?_⟩, fun f hf => List.mem_singleton.mp hf ▸ hn.int⟩
    case _ => exact hext' ▸ hext ▸ hn.ext
    case _ =>
      dsimp only
      rw [hint', hint]
      exact ⟨le_rfl, le_rfl, le_rfl⟩
    case _ =>
      dsimp only
      rw [hint', hint]
  all_goals
    have hfs : fs = [] := by simpa using hs
    rw [hfs]
    refine ⟨?_, fun f hf => absurd hf List.not_mem_nil⟩
  case start => exact hn
  case refuse hs' =>
    cases hs'
    exact hn
  case single m _ _ _ _ _ hm hr ho hp =>
    have hop : m.opCode = Dir.op .s2m false := hx.single m (hm ▸ Multiset.mem_cons_self m _)
    have hne := DeviceFlow.ready_creds hop hr
    have h₀ := hn.ext.rsp
    have h₁ := hn.int.data
    cases ho
    cases hp
    refine ⟨⟨hn.ext.req, ?_, hn.ext.data⟩, ⟨hn.int.req, hn.int.rsp, ?_⟩, hn.rsp⟩
    case _ => exact Int.sub_nonneg_of_le (Int.lt_iff_le_and_ne.mpr ⟨h₀, hne.symm⟩)
    case _ => exact Int.add_nonneg h₁ Int.one_nonneg
  case hdr m _ _ _ _ _ hm hr ho hp =>
    have hop : m.opCode = Dir.op .s2m true := hx.hdr m (hm ▸ Multiset.mem_cons_self m _)
    have hne := DeviceFlow.ready_creds hop hr
    have h₀ := hn.ext.data
    cases ho
    cases hp
    refine ⟨⟨hn.ext.req, hn.ext.rsp, ?_⟩, hn.int, hn.rsp⟩
    exact Int.sub_nonneg_of_le (Int.lt_iff_le_and_ne.mpr ⟨h₀, hne.symm⟩)

-- A device gives its free places away with each flit. The place of a write is free when its NDR is packed.
theorem returns (h : Step (devicePackerRules cfg) tick x y) (hs : y.sent = x.sent ++ fs)
    (hn : x.flow.Nonneg) (hasData : Bool) :
    y.flow.intCred.request hasData + carried hasData fs + (if hasData then (y.single.card : Int) else 0) =
      x.flow.intCred.request hasData + (if hasData then (x.single.card : Int) else 0) := by
  cases h
  case emit c s s' _ _ hc hs' =>
    obtain ⟨rfl, hint, -⟩ := DeviceFlow.getDeviceCredits_eq hc hn
    obtain ⟨hint', -⟩ := DeviceFlow.countSequence_creds hs'
    have hfs : fs = [frameFlit (devicePackerRules cfg) x.frame x.flow.intCred] :=
      (List.append_cancel_left hs).symm
    dsimp only
    rw [hfs, hint', hint]
    cases hasData <;> simp [Credits.request, frameFlit]
  all_goals
    have hfs : fs = [] := by simpa using hs
    rw [hfs, carried_nil, add_zero]
  case start => rfl
  case refuse hs' =>
    cases hs'
    rfl
  case single m _ _ _ _ _ hm hr ho hp =>
    cases ho
    cases hp
    rw [hm]
    cases hasData
    case false => rfl
    case true =>
      simp [Credits.request]
      omega
  case hdr m _ _ _ _ _ hm hr ho hp =>
    cases ho
    cases hp
    rfl

end Sender.Step

-- No credit is negative. Each request that the host has packed and not retired has a place for its
-- response.
structure HostNode.Solvent (cfg : Config n) (x : HostNode n) : Prop where
  sorted  : x.tx.Sorted .m2s
  flow    : x.tx.flow.Nonneg
  inp     : ∀ f ∈ x.inp, f.header.credit.Nonneg
  out     : ∀ f ∈ x.out, f.header.credit.Nonneg
  replies : ∀ hasData, x.tx.flow.intCred.response hasData + x.sent.countP (·.isWrite = hasData) =
    cfg.hostRespSize + (x.tx.channel hasData).card

structure DeviceNode.Solvent (x : DeviceNode) : Prop where
  sorted : x.tx.Sorted .s2m
  flow   : x.tx.flow.Nonneg
  inp    : ∀ f ∈ x.inp, f.header.credit.Nonneg
  out    : ∀ f ∈ x.out, f.header.credit.Nonneg

structure Net.Solvent (cfg : Config n) (x : Net n) : Prop where
  host : x.host.Solvent cfg
  dev  : ∀ d, (x.dev d).Solvent

theorem DeviceNode.Step.solvent {x y : DeviceNode} (h : Step cfg x y) (hx : x.Solvent) : y.Solvent := by
  have hflow := hx.flow
  cases h
  case unpack f rest u hi hu =>
    obtain ⟨hc, hinp⟩ := List.forall_mem_cons.mp (hi ▸ hx.inp)
    refine ⟨⟨hx.sorted.single, hx.sorted.hdr⟩, ⟨⟨hflow.ext.req, ?_, ?_⟩, hflow.int, hflow.rsp⟩, hinp, hx.out⟩
    case _ => exact Int.add_nonneg hflow.ext.rsp hc.rsp
    case _ => exact Int.add_nonneg hflow.ext.data hc.data
  case sendRead m _ _ hop =>
    refine ⟨⟨hx.sorted.single, hx.sorted.hdr⟩, ?_, hx.inp, hx.out⟩
    exact hflow.release m.opCode
  case sendWrite m _ _ hop =>
    refine ⟨⟨hx.sorted.single, hx.sorted.hdr⟩, ?_, hx.inp, hx.out⟩
    exact hflow.release m.opCode
  case respondRead m _ _ _ hop =>
    exact ⟨hx.sorted.consHdr hop, hflow, hx.inp, hx.out⟩
  case respondWrite m _ _ _ hop =>
    exact ⟨hx.sorted.consSingle hop, hflow, hx.inp, hx.out⟩
  case pack hs hf =>
    obtain ⟨hflow', hfs⟩ := hs.device_nonneg hf hx.sorted hflow
    exact ⟨hs.sorted hx.sorted, hflow', hx.inp, List.forall_mem_append.mpr ⟨hx.out, hfs⟩⟩

section Host

variable {x y : HostNode n} {ts : Multiset Tag}

theorem HostNode.Solvent.retire {m : Message} {t : Tag} {rx : Receiver} (hx : x.Solvent cfg)
    (hb : x.Balanced ts) (hm : m.tag ∈ x.rx.arrived) (ht : t ∈ x.sent) (hid : t.msgId = m.msgId)
    (hop : m.opCode = .drs ∨ m.opCode = .ndr) {completed : List Nat} :
    HostNode.Solvent cfg { x with
      rx, completed
      sent := x.sent.erase t
      tx   := { x.tx with flow := x.tx.flow.retire m.opCode } } := by
  have hm' : m.tag ∈ x.sent := by
    rw [← hb.tags]
    exact Multiset.mem_add.mpr (.inr (Multiset.mem_add.mpr (.inr hm)))
  cases hb.uniqueIds.eq ht hm' hid
  have hflow := hx.flow
  refine ⟨⟨hx.sorted.single, hx.sorted.hdr⟩, hx.flow.retire m.opCode, hx.inp, hx.out, fun b => ?_⟩
  have hp := hx.replies b
  rw [← Multiset.cons_erase hm', Multiset.countP_cons] at hp
  have hr := HostFlow.retire_response hop x.tx.flow b
  have htag : m.tag.isWrite = m.opCode.isWrite := rfl
  have hc : (Sender.channel b { x.tx with flow := x.tx.flow.retire m.opCode }).card =
    (x.tx.channel b).card := rfl
  dsimp only
  rw [hr, hc]
  rw [htag] at hp
  split at hp
  case isTrue hw =>
    rw [if_pos hw]
    omega
  case isFalse hw =>
    rw [if_neg hw]
    omega

theorem HostNode.Solvent.issue {m : Message} {hasData : Bool} {tx : Sender (HostFlow n)} (hx : x.Solvent cfg)
    (hb : x.Balanced ts) (hid : m.msgId = x.nextId) (hop : m.opCode = Dir.op .m2s hasData)
    (hs : tx.Sorted .m2s) (hf : tx.flow = x.tx.flow)
    (hc : ∀ b, (tx.channel b).card = (x.tx.channel b).card + if b = hasData then 1 else 0) :
    HostNode.Solvent cfg { x with tx, sent := record x.sent m.tag, nextId := x.nextId + 1 } := by
  refine ⟨hs, hf ▸ hx.flow, hx.inp, hx.out, fun b => ?_⟩
  have hp := hx.replies b
  have hid' : m.tag.msgId = x.nextId := hid
  have hr : record x.sent m.tag = m.tag ::ₘ x.sent := record_new (hid' ▸ hb.new.left)
  have hw : m.tag.isWrite = hasData := by
    change m.opCode.isWrite = hasData
    rw [hop]
    cases hasData <;> rfl
  dsimp only
  rw [hr, Multiset.countP_cons, hf, hc, hw]
  push_cast
  rw [← add_assoc, hp, add_assoc]
  congr 2
  simp only [eq_comm]

theorem HostNode.Step.solvent (h : Step cfg x y) (hb : x.Balanced ts) (hx : x.Solvent cfg) : y.Solvent cfg := by
  have hflow := hx.flow
  have hsorted := hx.sorted
  cases h
  case issueRead m hid hop =>
    have hop' : m.opCode = Dir.op .m2s false := hop
    refine hx.issue hb hid hop' (hsorted.consSingle hop) rfl fun b => ?_
    cases b <;> simp [Sender.channel]
  case issueWrite m hid hop =>
    have hop' : m.opCode = Dir.op .m2s true := hop
    refine hx.issue hb hid hop' (hsorted.consHdr hop) rfl fun b => ?_
    cases b <;> simp [Sender.channel]
  case issueDam => exact ⟨hsorted, hflow, hx.inp, hx.out, hx.replies⟩
  case pack tick z fs hs hf =>
    have hout : ∀ f ∈ x.out ++ fs, f.header.credit.Nonneg :=
      List.forall_mem_append.mpr ⟨hx.out, hs.host_nonneg hf⟩
    rcases hs.spends hsorted with ⟨-, hc, hext, hint⟩ | ⟨m, d, b', -, -, hc, hspends⟩
    case _ =>
      refine ⟨hs.sorted hsorted, hflow.congr hext hint, hx.inp, hout, fun b => ?_⟩
      have hp := hx.replies b
      rw [← hint, ← hc b] at hp
      exact hp
    case _ =>
      refine ⟨hs.sorted hsorted, hspends.nonneg hflow, hx.inp, hout, fun b => ?_⟩
      have hp := hx.replies b
      have hr := hspends.int b
      rw [hc b] at hp
      dsimp only
      rw [hr]
      split at hp
      case isTrue hb' =>
        rw [Multiset.card_cons] at hp
        rw [if_pos hb']
        omega
      case isFalse hb' =>
        rw [if_neg hb']
        omega
  case unpack f rest dest u hi hd hu =>
    obtain ⟨hf, hinp⟩ := List.forall_mem_cons.mp (hi ▸ hx.inp)
    refine ⟨⟨hsorted.single, hsorted.hdr⟩, hflow.grant hf dest, hinp, hx.out, fun b => ?_⟩
    have hp := hx.replies b
    dsimp only
    rw [HostFlow.grant_intCred]
    exact hp
  case retireWrite m t rest hq ht hid hop =>
    exact hx.retire hb (Receiver.arrived_single hq ▸ Multiset.mem_cons_self m.tag _) ht hid hop
  case retireRead m t rest hq ht hid hop =>
    exact hx.retire hb (Receiver.arrived_hdr hq ▸ Multiset.mem_cons_self m.tag _) ht hid hop
  case completeDam => exact ⟨hsorted, hflow, hx.inp, hx.out, hx.replies⟩

end Host

namespace Net

variable {x y : Net n}

theorem Solvent.setDev {d : Fin n} {z : DeviceNode} (h : x.Solvent cfg) (hz : z.Solvent) :
    (x.setDev d z).Solvent cfg :=
  ⟨h.host, (Function.forall_update_iff x.dev (fun _ y => y.Solvent)).mpr ⟨hz, fun i _ => h.dev i⟩⟩

theorem Step.solvent (h : Step cfg x y) (hl : x.Ledger) (hx : x.Solvent cfg) : y.Solvent cfg := by
  have hhost := hx.host
  cases h
  case host hs => exact ⟨hs.solvent hl.host hhost, hx.dev⟩
  case device d z hz => exact hx.setDev (hz.solvent (hx.dev d))
  case route f rest d hout _ =>
    have hd := hx.dev d
    obtain ⟨hf, hrest⟩ := List.forall_mem_cons.mp (hout ▸ hhost.out)
    have hz := hx.setDev (d := d) (z := { x.dev d with inp := (x.dev d).inp ++ [f] })
      ⟨hd.sorted, hd.flow, List.forall_mem_append.mpr ⟨hd.inp, List.forall_mem_singleton.mpr hf⟩, hd.out⟩
    exact ⟨⟨hhost.sorted, hhost.flow, hhost.inp, hrest, hhost.replies⟩, hz.dev⟩
  case turn => exact ⟨hhost, hx.dev⟩
  case move f rest d _ hout =>
    have hd := hx.dev d
    obtain ⟨hf, hrest⟩ := List.forall_mem_cons.mp (hout ▸ hd.out)
    have hz := hx.setDev (d := d) (z := { x.dev d with out := rest }) ⟨hd.sorted, hd.flow, hd.inp, hrest⟩
    have hinp := List.forall_mem_append.mpr ⟨hhost.inp, List.forall_mem_singleton.mpr hf⟩
    exact ⟨⟨hhost.sorted, hhost.flow, hinp, hhost.out, hhost.replies⟩, hz.dev⟩

theorem init_solvent : (init cfg).Solvent cfg := by
  have hdev : 0 ≤ (cfg.devVcSize : Int) - 1 := Int.sub_nonneg_of_le (Int.ofNat_le.mpr cfg.devVcSize_pos)
  have hsorted {σ : Type} (dir : Dir) (s : σ) : (Sender.init s).Sorted dir :=
    ⟨fun m hm => absurd hm (Multiset.notMem_zero m), fun m hm => absurd hm (Multiset.notMem_zero m)⟩
  refine ⟨⟨hsorted .m2s _, ⟨fun _ => ?_, ?_, rfl⟩, ?_, ?_, fun b => ?_⟩, fun d => ⟨hsorted .s2m _, ?_, ?_, ?_⟩⟩
  case _ => exact ⟨Int.one_nonneg, le_rfl, Int.one_nonneg⟩
  case _ => exact ⟨le_rfl, Int.natCast_nonneg _, Int.natCast_nonneg _⟩
  case _ => exact fun f hf => absurd hf List.not_mem_nil
  case _ => exact fun f hf => absurd hf List.not_mem_nil
  case _ => cases b <;> rfl
  case _ => exact ⟨⟨le_rfl, le_rfl, le_rfl⟩, ⟨hdev, le_rfl, hdev⟩, rfl⟩
  case _ => exact fun f hf => absurd hf List.not_mem_nil
  case _ => exact fun f hf => absurd hf List.not_mem_nil

theorem Reachable.solvent (h : Reachable cfg x) : x.Solvent cfg := by
  induction h
  case refl         => exact init_solvent
  case tail h hs ih => exact hs.solvent (Reachable.ledger h) ih

end Net

end CXL
