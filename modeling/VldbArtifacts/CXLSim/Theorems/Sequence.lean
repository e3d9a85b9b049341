import VldbArtifacts.CXLSim.Theorems.Shape
import VldbArtifacts.CXLSim.Theorems.Timeline

-- How long the data of one flit can push that of the next. A flit whose data rolls over leaves more to the
-- next one than it has taken over itself, so that the sequences are short.

namespace CXL

open Framing

section Ready

variable {dir : Dir} {vcSize bufSize : Nat} {σ : Type} {rules : PackerRules dir σ} {tick : Int}
variable {p : TxPort dir vcSize bufSize σ} {Inv : σ → Prop} {ready : Int → σ → Message → Sim Bool}

-- A property of the credits that lasts while a flit is packed.
structure PackerRules.Keeps (rules : PackerRules dir σ) (Inv : σ → Prop) : Prop where
  newFlit     : ∀ {s k}, Inv s → Inv (rules.newFlit s k)
  offered     : ∀ {s m s'}, Inv s → rules.offered s m = .ok s' → Inv s'
  spendSingle : ∀ {s m s'}, Inv s → rules.spendSingle s m = .ok s' → Inv s'
  spendHdr    : ∀ {s m s'}, Inv s → rules.spendHdr s m = .ok s' → Inv s'

-- The rules with another check of the messages.
def PackerRules.checking (rules : PackerRules dir σ) (ready : Int → σ → Message → Sim Bool) :
    PackerRules dir σ :=
  { rules with ready }

namespace TxPort

theorem packSlot_keeps (hk : rules.Keeps Inv) (hp : Inv p.flow) (i : Nat) :
    (p.packSlot rules tick i).Meets (fun o => ∀ q ∈ o, Inv q.flow) fun _ => True := by
  unfold packSlot
  refine .ite (fun _ => meets_some hp) fun _ => ?_
  refine .ite (fun _ => meets_some hp) fun _ => ?_
  refine (Except.Meets.any _).bind fun r _ => ?_
  cases r
  case none   => exact meets_none
  case some o =>
    refine ((Except.meets_self _).mono (fun _ => id) fun _ _ => trivial).bind fun s hs => ?_
    have ho := hk.offered hp hs
    refine .ite (fun _ => ?_) fun _ => .ite (fun _ => ?_) fun _ => trivial
    case _ =>
      refine .ite (fun _ => ?_) fun _ => meets_some ho
      refine ((Except.meets_self _).mono (fun _ => id) fun _ _ => trivial).bind fun s' hs' => ?_
      exact meets_some (hk.spendSingle ho hs')
    case _ =>
      refine .ite (fun _ => ?_) fun _ => meets_some ho
      refine ((Except.meets_self _).mono (fun _ => id) fun _ _ => trivial).bind fun s' hs' => ?_
      exact meets_some (hk.spendHdr ho hs')

theorem packSlot_checking (h : ready tick p.flow = rules.ready tick p.flow) (i : Nat) :
    p.packSlot (rules.checking ready) tick i = p.packSlot rules tick i := by
  have hmsg : p.getMsgFromVcs (rules.checking ready) tick = p.getMsgFromVcs rules tick := by
    simp only [getMsgFromVcs, offerSingle, offerHdr, PackerRules.checking, h]
  unfold packSlot
  rw [hmsg]
  rfl

theorem packSlots_checking (hk : rules.Keeps Inv)
    (hr : ∀ s, Inv s → ready tick s = rules.ready tick s) (hp : Inv p.flow) (is : List Nat) :
    p.packSlots (rules.checking ready) tick is = p.packSlots rules tick is := by
  induction is generalizing p
  case nil => rfl
  case cons i is ih =>
    rw [packSlots, packSlots, packSlot_checking (hr _ hp)]
    have hkeeps : (p.packSlot rules tick i).Meets (fun o => ∀ q ∈ o, Inv q.flow) _ := packSlot_keeps hk hp i
    cases hs : p.packSlot rules tick i
    case error e => rfl
    case ok r =>
      cases r
      case none   => rfl
      case some q => exact ih (hkeeps.of_ok hs q rfl)

theorem foldl_addData_flow (is : List Nat) : (is.foldl (addData rules) p).flow = p.flow := by
  induction is generalizing p
  case nil          => rfl
  case cons i is ih => exact ih

theorem phase_keeps (hk : rules.Keeps Inv) (hp : Inv p.flow) {q : TxPort dir vcSize bufSize σ}
    (h : p.phase rules tick = .ok (.pack q)) : Inv q.flow := by
  have hstart : Inv (p.startFlit rules tick).flow := by
    rw [startFlit]
    split
    case isTrue  => exact hp
    case isFalse => exact hk.newFlit hp
  rw [phase] at h
  generalize p.startFlit rules tick = p at h hstart
  split at h
  case isTrue =>
    split at h <;> cases h
  case isFalse =>
    obtain ⟨_, _, h⟩ := Except.bind_eq_ok.mp h
    split at h
    case isTrue =>
      cases h
      exact hstart
    case isFalse =>
      split at h
      case isTrue =>
        dsimp only at h
        split at h <;> cases h
      case isFalse =>
        cases h
        exact (foldl_addData_flow _).symm ▸ hstart

-- Checks that agree while a flit is packed give the same packer.
theorem flitPacker_checking (hk : rules.Keeps Inv)
    (hr : ∀ s, Inv s → ready tick s = rules.ready tick s) (hp : Inv p.flow) :
    p.flitPacker (rules.checking ready) tick = p.flitPacker rules tick := by
  have hphase : p.phase (rules.checking ready) tick = p.phase rules tick := rfl
  rw [← flitPackerBy_self, ← flitPackerBy_self, flitPackerBy, flitPackerBy, hphase]
  cases hph : p.phase rules tick
  case error e => rfl
  case ok ph =>
    cases ph
    case stay q => rfl
    case send q => rfl
    case pack q =>
      have hslots := packSlots_checking hk hr (phase_keeps hk hp hph) [0, 1, 2, 3]
      simp only [Except.ok_bind, packFlitBy_self]
      exact congrArg (· >>= _) hslots

end TxPort

end Ready

variable {n : Nat} {cfg : Config n} {tick : Int}

-- The check of a device as it is while there is no sequence, when its condition on the sequence holds.
def DeviceFlow.readyAnySequence (cfg : Config n) (currTick : Int) (s : DeviceFlow) (m : Message) : Sim Bool :=
  ready cfg currTick { s with packerSeqLength := 0 } m

theorem DeviceFlow.readyAnySequence_eq {s : DeviceFlow} (h : s.packerSeqLength < seqThreshold) :
    readyAnySequence cfg tick s = ready cfg tick s := by
  funext m
  have h0 : 0 < seqThreshold := by decide
  simp only [readyAnySequence, ready, h, h0, and_true]

theorem devicePackerRules_keeps (cfg : Config n) (k : Nat) :
    (devicePackerRules cfg).Keeps (·.packerSeqLength < k) where
  newFlit h        := h
  offered h hs     := Except.ok.inj hs ▸ h
  spendSingle h hs := Except.ok.inj hs ▸ h
  spendHdr h hs    := Except.ok.inj hs ▸ h

-- The sequence is not longer than the data that the flit under construction has taken over.
structure Sender.Sequenced (x : Sender DeviceFlow) : Prop where
  valid : x.frame.Valid
  le    : x.flow.packerSeqLength ≤ x.frame.owed

namespace Sender

variable {x y : Sender DeviceFlow}

theorem Sequenced.lt (h : x.Sequenced) : x.flow.packerSeqLength < DeviceFlow.seqThreshold := by
  have hfits := h.valid.fits
  have hle := h.le
  rw [DeviceFlow.seqThreshold]
  omega

-- If data rolls over, there is a header in the flit, and it comes after the data of the last one.
theorem Sequenced.succ_le (h : x.Sequenced) (ho : 0 < x.frame.nextOwed) :
    x.flow.packerSeqLength + 1 ≤ x.frame.nextOwed := by
  have hle := h.le
  cases hh : x.frame.hdr
  case none => simp [Frame.nextOwed, hh] at ho
  case some a =>
    have hn : x.frame.nextOwed = 1 + x.frame.owed + x.frame.singles.length := by rw [Frame.nextOwed, hh]
    omega

theorem Sequenced.countSequence (h : x.Sequenced) {s : DeviceFlow}
    (hs : s.packerSeqLength = x.flow.packerSeqLength) :
    ∃ s', s.countSequence x.frame.nextOwed = .ok s' ∧ s'.packerSeqLength ≤ x.frame.nextOwed := by
  have hle := h.valid.nextOwed_le
  by_cases ho : 0 < x.frame.nextOwed
  case pos =>
    have hsucc := h.succ_le ho
    have hne : s.packerSeqLength + 1 ≠ DeviceFlow.seqThreshold := by rw [hs, DeviceFlow.seqThreshold]; omega
    refine ⟨{ s with packerSeqLength := s.packerSeqLength + 1 }, ?_, hs ▸ hsucc⟩
    simp [DeviceFlow.countSequence, assert, ho, hne]
  case neg =>
    refine ⟨{ s with packerSeqLength := 0 }, ?_, Nat.zero_le _⟩
    simp [DeviceFlow.countSequence, assert, ho]

theorem getDeviceCredits_seq {s s' : DeviceFlow} {c : Credits}
    (h : s.getDeviceCredits cfg = .ok (c, s')) : s'.packerSeqLength = s.packerSeqLength := by
  obtain ⟨_, _, h⟩ := Except.bind_eq_ok.mp h
  cases h
  rfl

theorem Step.sequenced (hs : Step (devicePackerRules cfg) tick x y) (h : x.Sequenced) : y.Sequenced := by
  cases hs
  case start => exact h
  case refuse hs =>
    cases hs
    exact h
  case single hv _ _ ho hs =>
    cases ho
    cases hs
    exact ⟨hv, h.le⟩
  case hdr hv _ _ ho hs =>
    cases ho
    cases hs
    exact ⟨hv, h.le⟩
  case emit hc hs =>
    obtain ⟨s', hs', hle⟩ := h.countSequence (getDeviceCredits_seq hc)
    cases hs'.symm.trans hs
    exact ⟨h.valid.next, hle⟩

theorem Steps.sequenced (hs : Steps (devicePackerRules cfg) tick x y) (h : x.Sequenced) : y.Sequenced := by
  induction hs
  case refl         => exact h
  case tail _ hs ih => exact hs.sequenced ih

theorem Sequenced.not_fails (h : x.Sequenced) :
    ¬Fails (devicePackerRules cfg) tick x .sequenceThresholdViolated := by
  intro hf
  cases hf
  case ready h =>
    simp only [devicePackerRules, DeviceFlow.ready] at h
    split at h
    case isFalse => cases h
    case isTrue  => split at h <;> cases h
  case offered h     => cases h
  case spendSingle h => cases h
  case spendHdr h    => cases h
  case getCredits hc =>
    rcases Except.bind_eq_error.mp hc with hc | ⟨_, _, hc⟩
    case inl => simpa using DeviceFlow.creditSanityCheck_meets.of_error hc
    case inr => cases hc
  case sent hc hs =>
    obtain ⟨s', hs', -⟩ := h.countSequence (getDeviceCredits_seq hc)
    cases hs'.symm.trans hs

end Sender

theorem DeviceNode.Step.sequenced {x y : DeviceNode} (hs : DeviceNode.Step cfg x y) (h : x.tx.Sequenced) :
    y.tx.Sequenced := by
  cases hs
  case unpack => exact ⟨h.valid, h.le⟩
  case sendRead m _ _ _ =>
    refine ⟨h.valid, ?_⟩
    cases m.opCode <;> exact h.le
  case sendWrite m _ _ _ =>
    refine ⟨h.valid, ?_⟩
    cases m.opCode <;> exact h.le
  case respondRead  => exact ⟨h.valid, h.le⟩
  case respondWrite => exact ⟨h.valid, h.le⟩
  case pack hs _    => exact hs.sequenced h

namespace Net

variable {x y : Net n}

theorem Step.sequenced (hs : Step cfg x y) (h : ∀ d, (x.dev d).tx.Sequenced) :
    ∀ d, (y.dev d).tx.Sequenced := by
  have hupdate : ∀ d {z : DeviceNode}, z.tx.Sequenced →
      ∀ d', (Function.update x.dev d z d').tx.Sequenced := by
    intro d z hz
    exact (Function.forall_update_iff x.dev fun _ y => y.tx.Sequenced).mpr ⟨hz, fun d _ => h d⟩
  cases hs
  case host          => exact h
  case turn          => exact h
  case device d _ hs => exact hupdate d (hs.sequenced (h d))
  case route d _ _   => exact hupdate d (h d)
  case move d _ _    => exact hupdate d (h d)

theorem Reachable.sequenced (h : x.Reachable cfg) (d : Fin n) : (x.dev d).tx.Sequenced := by
  induction h generalizing d
  case refl         => exact ⟨Frame.fresh_valid _ (Nat.zero_le 4), Nat.zero_le _⟩
  case tail _ hs ih => exact hs.sequenced ih d

end Net

namespace CXLSystem

variable {M : Memory} {s : CXLSystem cfg M} {trace : List Char}

theorem Reaches.sequenced (h : Reaches trace s) (i : Fin n) : ∃ fr,
    (s.devices i).tx.Shape (devicePackerRules cfg) fr ∧ ((s.devices i).tx.sender fr).Sequenced := by
  obtain ⟨x, hx, hi⟩ := h.tracks
  have hview : (x.dev i).tx = (s.devices i).tx.sender (x.dev i).tx.frame :=
    congrArg DeviceNode.tx (hi.device i).view
  exact ⟨_, (hi.device i).shape, hview ▸ hx.sequenced i⟩

-- In every state between the calls of a run. `sent` tells whether the call has put a flit into the buffer.
theorem packerSeqLength_bounded (h : Reaches trace s) (i : Fin n) :
    (∀ device, (s.devices i).flitPacker s.currTick = .ok device → device.tx.sent ≠ (s.devices i).tx.sent →
      (0 < device.tx.packerRollover → device.tx.flow.packerSeqLength ≤ device.tx.packerRollover ∧
        device.tx.packerRollover ≤ 4) ∧
      (device.tx.packerRollover = 0 → device.tx.flow.packerSeqLength = 0)) ∧
    (s.devices i).tx.flow.packerSeqLength < DeviceFlow.seqThreshold ∧
    (s.devices i).flitPacker s.currTick ≠ .error .sequenceThresholdViolated ∧
    (s.devices i).tx.flitPacker ((devicePackerRules cfg).checking (DeviceFlow.readyAnySequence cfg))
        s.currTick =
      (s.devices i).tx.flitPacker (devicePackerRules cfg) s.currTick := by
  obtain ⟨fr, hshape, hseq⟩ := h.sequenced i
  have hcall : ((s.devices i).tx.flitPacker (devicePackerRules cfg) s.currTick).Meets _ _ :=
    TxPort.flitPacker_meets (devicePackerRules_lawful cfg) hshape
  refine ⟨?_, hseq.lt, ?_, ?_⟩
  case _ =>
    intro device hd hsent
    obtain ⟨p, hp, ⟨⟩⟩ := Except.bind_eq_ok.mp hd
    have hidle := (TxPort.flitPacker_formed (devicePackerRules_lawful cfg) hshape hp).right hsent
    obtain ⟨fr', hr⟩ := hcall.of_ok hp
    have hseq' := hr.steps.sequenced hseq
    cases hr.shape
    case waiting hw _ _ => cases hidle.symm.trans hw
    case idle _ hi      =>
      have howed : fr'.owed = p.packerRollover := congrArg Frame.owed hi.fresh
      have hle : p.flow.packerSeqLength ≤ fr'.owed := hseq'.le
      have hfits := hi.valid.fits
      dsimp only
      omega
  case _ =>
    intro he
    rcases Except.bind_eq_error.mp he with he | ⟨_, _, he⟩
    case inl =>
      obtain ⟨y, hy, hf⟩ := hcall.of_error he
      exact (hy.sequenced hseq).not_fails hf
    case inr => cases he
  case _ =>
    exact TxPort.flitPacker_checking (devicePackerRules_keeps cfg _)
      (fun _ => DeviceFlow.readyAnySequence_eq) hseq.lt

-- The flit with the header of a response is sent, and one of its data slots is left.
theorem packerSeqLength_bounded_read :
    ∃ s : CXLSystem Config.prompt Memory.fifo, ∃ device, Reaches "0 R 0\n".toList s ∧
      (s.devices 0).flitPacker s.currTick = .ok device ∧ device.tx.packerRollover = 1 ∧
      device.tx.flow.packerSeqLength ≤ 1 := by
  have h : (((oneReadCalls.take 25).foldlM perform
      (init "0 R 0\n".toList : CXLSystem Config.prompt Memory.fifo)).toOption.bind fun s =>
        ((s.devices 0).flitPacker s.currTick).toOption.map fun device =>
          (device.tx.packerRollover, device.tx.sent.length, (s.devices 0).tx.sent.length)) =
      some (1, 1, 0) := by decide +kernel
  obtain ⟨s, hs, h⟩ := Option.bind_eq_some_iff.mp h
  obtain ⟨device, hdevice, h⟩ := Option.map_eq_some_iff.mp h
  obtain ⟨hr, hlen, hlen'⟩ : device.tx.packerRollover = 1 ∧ device.tx.sent.length = 1 ∧
      (s.devices 0).tx.sent.length = 0 := by simpa using h
  have hcall := Except.toOption_eq_some.mp hdevice
  have hreaches : Reaches "0 R 0\n".toList s := ⟨_, Except.toOption_eq_some.mp hs⟩
  have hsent : device.tx.sent ≠ (s.devices 0).tx.sent := fun e => by simp [e, hlen'] at hlen
  have hbound := ((packerSeqLength_bounded hreaches 0).left device hcall hsent).left (by rw [hr]; decide)
  exact ⟨s, device, hreaches, hcall, hr, hbound.left.trans (Nat.le_of_eq hr)⟩

end CXLSystem

end CXL
