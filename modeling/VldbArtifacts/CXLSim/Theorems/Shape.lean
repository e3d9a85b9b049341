import VldbArtifacts.CXLSim.Theorems.Quiet

-- The flit under construction is a frame after every call of the packer, also when the call has sent it and
-- the packer is idle.

namespace CXL

open Framing

theorem Flit.setTime_types (f : Flit) (member : TimeField) (value : Int) :
    (f.setTime member value).slots.map Slot.type = f.slots.map Slot.type := by
  rw [Flit.setTime, List.map_map]
  apply List.map_congr_left
  intro s _
  rw [Function.comp_apply]
  split <;> rfl

namespace OpenFrame

variable {fr : Frame Message}

-- Slot 3 is blank as well.
theorem allAfterEmpty (h : OpenFrame fr) (dir : Dir) : fr.firstBlank = 0 ∨
    ((frameSlots dir fr).drop (fr.firstBlank + 1)).all (·.type == .empty) := by
  refine h.cases ?_ ?_ ?_
  case _ => exact fun _ _ _ => .inl rfl
  case _ => intro k l a hk; interval_cases k <;> exact .inr rfl
  case _ => intro k l a b hk; interval_cases k <;> exact .inr rfl

end OpenFrame

namespace TxPort

variable {dir : Dir} {vcSize bufSize : Nat} {σ : Type} {rules : PackerRules dir σ} {tick : Int}
variable {p p' : TxPort dir vcSize bufSize σ} {fr : Frame Message}

-- The frame in the flit. Unlike `Built`, this outlasts the sending of the flit.
structure Formed (p : TxPort dir vcSize bufSize σ) (fr : Frame Message) : Prop where
  valid    : fr.Valid
  types    : p.flitToPack.slots.map Slot.type = (frameSlots dir fr).map Slot.type
  rollover : p.packerRollover = fr.nextOwed
  two      : fr.hdr = none → fr.singles.length = 2 → p.pkr2State = .R

theorem Built.formed (h : p.Built rules fr) : p.Formed fr :=
  ⟨h.valid, by rw [h.slots], h.rollover, h.two⟩

namespace Formed

theorem slotCountInFlit (h : p.Formed fr) (stype : SlotType) :
    p.flitToPack.slotCountInFlit stype = (frameSlots dir fr).countP (·.type == stype) := by
  have hc := congrArg (List.countP (· == stype)) h.types
  rwa [List.countP_map, List.countP_map] at hc

theorem isFlitFull (h : p.Formed fr) :
    p.flitToPack.isFlitFull = true ↔ ∀ s ∈ frameSlots dir fr, s.type ≠ .empty := by
  have ha := congrArg (List.all · (· != SlotType.empty)) h.types
  simp only [List.all_map] at ha
  rw [Flit.isFlitFull]
  change p.flitToPack.slots.all ((· != SlotType.empty) ∘ Slot.type) = true ↔ _
  rw [ha]
  simp

theorem full_of_hdr (h : p.Formed fr) (hh : fr.hdr ≠ none) : p.flitToPack.isFlitFull = true :=
  h.isFlitFull.mpr (frameSlots_full dir (.inr hh))

theorem hdr_of_rollover (h : p.Formed fr) (hr : 0 < p.packerRollover) : fr.hdr ≠ none := by
  intro hh
  rw [h.rollover, Frame.nextOwed, hh] at hr
  exact Nat.lt_irrefl 0 hr

theorem flitShape (h : p.Formed fr) : p.FlitShape where
  singles := by
    rw [h.slotCountInFlit, countP_single]
    exact h.valid.singles
  hdrs := by
    rw [h.slotCountInFlit, countP_hdr]
    cases fr.hdr <;> simp
  full hc := by
    rw [h.slotCountInFlit, countP_hdr] at hc
    exact h.full_of_hdr fun hh => by simp [hh] at hc
  rollover hr := .inr (h.full_of_hdr (h.hdr_of_rollover hr))
  state hc hn := by
    rw [h.slotCountInFlit, countP_single] at hc
    exact h.two (not_not.mp fun hh => hn (h.full_of_hdr hh)) hc

end Formed

theorem addFlitToBuf_formed (hb : p.Built rules fr) (h : p.addFlitToBuf rules tick = .ok p') :
    p'.Formed fr ∧ p'.isPackerWaiting = false := by
  obtain ⟨⟨credit, flow⟩, _, h⟩ := Except.bind_eq_ok.mp h
  obtain ⟨buf, _, h⟩ := Except.bind_eq_ok.mp h
  obtain ⟨flow', _, h⟩ := Except.bind_eq_ok.mp h
  cases h
  exact ⟨⟨hb.valid, (Flit.setTime_types ..).trans (by rw [hb.slots]), hb.rollover, hb.two⟩, rfl⟩

theorem packFlit_formed (hl : rules.Lawful) (hb : p.Built rules fr) (hh : fr.hdr = none) (ho : fr.owed ≤ 3)
    (h : p.packFlit rules tick = .ok p') : (∃ fr', p'.Formed fr') ∧ p'.sent = p.sent := by
  obtain ⟨q, hq, h⟩ := Except.bind_eq_ok.mp h
  obtain ⟨_, _, h⟩ := Except.bind_eq_ok.mp h
  cases h
  have hslots : (p.packSlots rules tick [0, 1, 2, 3]).Meets (p.PacksTo rules tick fr) _ :=
    packSlots_meets (i := 0) (k := 4) hl hb hh ho rfl (.inl (Nat.zero_le _))
  obtain ⟨fr', hb', -, ht, -⟩ := hslots.of_ok hq
  exact ⟨⟨fr', hb'.formed.valid, hb'.formed.types, hb'.formed.rollover, hb'.formed.two⟩, ht.sent⟩

-- After a call that has sent a flit, the packer is idle.
theorem flitPacker_formed (hl : rules.Lawful) (hp : p.Shape rules fr)
    (h : p.flitPacker rules tick = .ok p') :
    (∃ fr', p'.Formed fr') ∧ (p'.sent ≠ p.sent → p'.isPackerWaiting = false) := by
  obtain ⟨ph, hph, hspec⟩ := hp.phase tick
  rw [← flitPackerBy_self, flitPackerBy, hph, Except.ok_bind] at h
  cases hspec
  case stay q _ hb _ hq =>
    cases h
    exact ⟨⟨fr, hb.formed⟩, fun hs => absurd hq.sent hs⟩
  case send q hb _ _ hq =>
    have hf := addFlitToBuf_formed hb h
    exact ⟨⟨fr, hf.left⟩, fun _ => hf.right⟩
  case pack q hb hh ho _ hq =>
    simp only [packFlitBy_self] at h
    have hf := packFlit_formed hl hb hh ho h
    exact ⟨hf.left, fun hs => absurd (hf.right.trans hq.sent) hs⟩

-- A flit that is sent because it has waited for too long has no header, so that no data is left to send.
theorem flitPacker_timedOut (hp : p.Shape rules fr) (ht : p.IsTimedOut rules tick)
    (h : p.flitPacker rules tick = .ok p') : p'.packerRollover = 0 := by
  obtain ⟨hw, hnf, hlate, hne⟩ := ht
  cases hp
  case idle hi _ => simp [hw] at hi
  case waiting _ hb _ =>
    have hh := (hb.not_full (by simpa using hnf)).left
    have hr : p.packerRollover = 0 := by rw [hb.rollover, Frame.nextOwed, hh]
    have hs : p.startFlit rules tick = p := by rw [startFlit, if_pos hw]
    have hdue : p.isFlitDue rules tick = true := by simp [isFlitDue, hw, hlate, hne]
    simp only [flitPacker, hs, hdue, if_true] at h
    split at h
    case isTrue  =>
      cases h
      exact hr
    case isFalse =>
      have hf := (addFlitToBuf_formed hb h).left
      exact hf.rollover.trans (hb.rollover.symm.trans hr)

theorem flitPacker_shape (hl : rules.Lawful) (hp : p.Shape rules fr) (h : p.flitPacker rules tick = .ok p') :
    p'.FlitShape ∧ (p.IsTimedOut rules tick → p'.packerRollover = 0) := by
  obtain ⟨⟨fr', hf⟩, -⟩ := flitPacker_formed hl hp h
  exact ⟨hf.flitShape, fun ht => flitPacker_timedOut hp ht h⟩

section Test

variable {allAfterEmpty : Flit → Nat → Bool}

-- While data is owed, the test is not made.
theorem packSlotsBy_fill (is : List Nat) (hi : ∀ i ∈ is, i ≠ 0) (hr : is.length ≤ p.packerRollover) :
    p.packSlotsBy rules tick allAfterEmpty is = p.packSlots rules tick is := by
  induction is generalizing p
  case nil => rfl
  case cons i is ih =>
    have hi' : ∀ j ∈ is, j ≠ 0 := fun j hj => hi j (List.mem_cons_of_mem _ hj)
    have hlen : is.length + 1 ≤ p.packerRollover := by simpa using hr
    have hne : p.packerRollover ≠ 0 ∧ i ≠ 0 := ⟨by omega, hi i List.mem_cons_self⟩
    rw [packSlotsBy, packSlots, packSlotBy, packSlot]
    by_cases hb : (p.flitToPack.slots.getD i {}).type ≠ .empty
    case pos =>
      rw [if_pos hb, if_pos hb]
      exact ih hi' (Nat.le_of_succ_le hlen)
    case neg =>
      rw [if_neg hb, if_neg hb, if_pos hne, if_pos hne]
      exact ih hi' (Nat.le_sub_one_of_lt hlen)

-- Where it is made, its answer is yes.
def PassesOpen (dir : Dir) (allAfterEmpty : Flit → Nat → Bool) : Prop :=
  ∀ (f : Flit) (fr : Frame Message), OpenFrame fr → f.slots = frameSlots dir fr →
    fr.firstBlank = 0 ∨ allAfterEmpty f fr.firstBlank

theorem packSlotBy_eq (ha : PassesOpen dir allAfterEmpty) {i : Nat} (hb : p.Built rules fr)
    (hh : fr.hdr = none) (ho : fr.owed ≤ 3) (h₄ : i < 4)
    (hi : i ≤ fr.firstBlank ∨ p.Blocked rules tick fr) :
    p.packSlotBy rules tick allAfterEmpty i = p.packSlot rules tick i := by
  by_cases hblank : (p.flitToPack.slots.getD i {}).type ≠ .empty
  case pos => simp only [packSlotBy, packSlot, if_pos hblank]
  simp only [packSlotBy, packSlot, if_neg hblank]
  by_cases hfill : p.packerRollover ≠ 0 ∧ i ≠ 0
  case pos => simp only [if_pos hfill]
  simp only [if_neg hfill]
  have hoffer : (p.getMsgFromVcs rules tick).Meets _ _ := getMsgFromVcs_meets hb.state
  cases hg : p.getMsgFromVcs rules tick
  case error e => rfl
  case ok r =>
    cases r
    case none => rfl
    case some o =>
      have hoffer := hoffer.of_ok hg
      simp only [Except.ok_bind]
      apply bind_congr
      intro s
      cases hoffer
      case single j m cur next hm hr hn =>
        have hop := VcArray.opCode_of_mem (VcArray.mem_of_head? hm)
        simp only [if_pos hop]
      case hdr j m cur hm hr =>
        have hop := VcArray.opCode_of_mem (VcArray.mem_of_head? hm)
        have hop' : ¬m.opCode = dir.singleOp := fun h => dir.singleOp_ne_hdrOp (h.symm.trans hop)
        cases hi
        case inr h => cases (h.notReady j m hm).symm.trans hr
        case inl h =>
          have hopen := frameSlots_blank dir hb.valid hh ho h₄ h
          rw [← hb.slots, if_pos (not_not.mp hblank)] at hopen
          obtain ⟨rfl, hf⟩ := hopen
          have htest := ha p.flitToPack fr hf hb.slots
          have htest' : fr.firstBlank = 0 ∨ p.flitToPack.areAllSlotsAfterThisEmpty fr.firstBlank := by
            have := hf.allSlotsAfterEmpty dir
            rwa [← hb.slots] at this
          simp only [if_neg hop', htest, htest']

theorem packSlotsBy_eq (hl : rules.Lawful) (ha : PassesOpen dir allAfterEmpty) {i k : Nat}
    (hb : p.Built rules fr) (hh : fr.hdr = none) (ho : fr.owed ≤ 3) (hk : i + k = 4)
    (hi : i ≤ fr.firstBlank ∨ p.Blocked rules tick fr) :
    p.packSlotsBy rules tick allAfterEmpty (List.range' i k) = p.packSlots rules tick (List.range' i k) := by
  induction k generalizing p fr i
  case zero => rfl
  case succ k ih =>
    rw [List.range'_succ, packSlotsBy, packSlots, packSlotBy_eq ha hb hh ho (by omega) hi]
    have hround := packSlot_meets hl hb hh ho (by omega) hi
    cases hr : p.packSlot rules tick i
    case error e => rfl
    case ok r =>
      cases r
      case none => rfl
      case some q =>
        have hround := hround.of_ok hr
        simp only [Except.ok_bind]
        cases hround
        case noHdr fr' hb' hh' ho' _ _ _ hi' => exact ih hb' hh' ho' (by omega) hi'
        case hdr q m flow hq _ _ _ _ _ _ =>
          apply packSlotsBy_fill
          case hi => simp [List.mem_range'_1]; omega
          case hr => rw [hq, List.length_range']; simp [packHdr]; omega

theorem flitPackerBy_eq (hl : rules.Lawful) (ha : PassesOpen dir allAfterEmpty) (hp : p.Shape rules fr) :
    p.flitPackerBy rules tick allAfterEmpty = p.flitPacker rules tick := by
  obtain ⟨ph, hph, hspec⟩ := hp.phase tick
  rw [← flitPackerBy_self, flitPackerBy, flitPackerBy, hph, Except.ok_bind, Except.ok_bind]
  cases hspec
  case stay => rfl
  case send => rfl
  case pack q hb hh ho _ _ =>
    have hslots : q.packSlotsBy rules tick allAfterEmpty [0, 1, 2, 3] = q.packSlots rules tick [0, 1, 2, 3] :=
      packSlotsBy_eq (i := 0) (k := 4) hl ha hb hh ho rfl (.inl (Nat.zero_le _))
    simp only [packFlitBy_self]
    exact congrArg (· >>= _) hslots

theorem allSlotsAfterEmpty_passesOpen (dir : Dir) : PassesOpen dir Flit.allSlotsAfterEmpty := by
  intro f fr hf hs
  have := hf.allAfterEmpty dir
  rwa [← hs] at this

end Test

end TxPort

namespace CXLSystem

variable {n : Nat} {cfg : Config n} {M : Memory} {s : CXLSystem cfg M} {trace : List Char}

theorem Reaches.host_shape (h : Reaches trace s) : ∃ fr, s.host.tx.Shape (hostPackerRules cfg) fr := by
  obtain ⟨x, _, hi⟩ := h.tracks
  exact ⟨_, hi.host.shape⟩

theorem Reaches.device_shape (h : Reaches trace s) (i : Fin n) :
    ∃ fr, (s.devices i).tx.Shape (devicePackerRules cfg) fr := by
  obtain ⟨x, _, hi⟩ := h.tracks
  exact ⟨_, (hi.device i).shape⟩

-- In every state between the calls of a run, for the host and for every device. The test of the slots behind
-- a header may look at slot 3 or not.
theorem flitPacker_flitShape (h : Reaches trace s) :
    (∀ host, s.host.flitPacker s.currTick = .ok host → host.tx.FlitShape ∧
      (s.host.tx.IsTimedOut (hostPackerRules cfg) s.currTick → host.tx.packerRollover = 0)) ∧
    (∀ i device, (s.devices i).flitPacker s.currTick = .ok device → device.tx.FlitShape ∧
      ((s.devices i).tx.IsTimedOut (devicePackerRules cfg) s.currTick → device.tx.packerRollover = 0)) ∧
    s.host.tx.flitPackerBy (hostPackerRules cfg) s.currTick Flit.allSlotsAfterEmpty =
      s.host.tx.flitPacker (hostPackerRules cfg) s.currTick ∧
    ∀ i, (s.devices i).tx.flitPackerBy (devicePackerRules cfg) s.currTick Flit.allSlotsAfterEmpty =
      (s.devices i).tx.flitPacker (devicePackerRules cfg) s.currTick := by
  obtain ⟨fr, hhost⟩ := h.host_shape
  refine ⟨?_, ?_, ?_, ?_⟩
  case _ =>
    intro host hcall
    obtain ⟨p, hp, ⟨⟩⟩ := Except.bind_eq_ok.mp hcall
    exact TxPort.flitPacker_shape (hostPackerRules_lawful cfg) hhost hp
  case _ =>
    intro i device hcall
    obtain ⟨p, hp, ⟨⟩⟩ := Except.bind_eq_ok.mp hcall
    obtain ⟨fr, hdevice⟩ := h.device_shape i
    exact TxPort.flitPacker_shape (devicePackerRules_lawful cfg) hdevice hp
  case _ =>
    have hpasses := TxPort.allSlotsAfterEmpty_passesOpen .m2s
    exact TxPort.flitPackerBy_eq (hostPackerRules_lawful cfg) hpasses hhost
  case _ =>
    intro i
    obtain ⟨fr, hdevice⟩ := h.device_shape i
    have hpasses := TxPort.allSlotsAfterEmpty_passesOpen .s2m
    exact TxPort.flitPackerBy_eq (devicePackerRules_lawful cfg) hpasses hdevice

-- The header of a write takes slot 0 at tick 30, and one of its four data slots is left for the next flit.
theorem flitPacker_flitShape_write :
    ∃ s : CXLSystem Config.small Memory.fifo, ∃ host, Reaches "0 W 1\n".toList s ∧
      s.host.flitPacker s.currTick = .ok host ∧ host.tx.packerRollover = 1 ∧ host.tx.FlitShape := by
  have h : (((init "0 W 1\n".toList : CXLSystem Config.small Memory.fifo).run {} 21).toOption.bind
      fun s => (s.host.flitPacker s.currTick).toOption.map (·.tx.packerRollover)) = some 1 := by
    decide +kernel
  obtain ⟨s, hs, h⟩ := Option.bind_eq_some_iff.mp h
  obtain ⟨host, hhost, hr⟩ := Option.map_eq_some_iff.mp h
  have hrun := Except.toOption_eq_some.mp hs
  have hcall := Except.toOption_eq_some.mp hhost
  have hreaches := (Reachable.init.run 21 hrun).reaches
  exact ⟨s, host, hreaches, hcall, hr, ((flitPacker_flitShape hreaches).left host hcall).left⟩

end CXLSystem

end CXL
