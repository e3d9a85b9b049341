import VldbArtifacts.CXLSim.Timeline
import VldbArtifacts.CXLSim.Theorems.Packer

-- Buses, ports and the switch set the stamps of a message when its delays have passed.

namespace CXL

namespace MsgTiming

variable {n : Nat} {cfg : Config n} {t t' : MsgTiming}

theorem stamps_set (v : Int) (field : TimeField) :
    (t.set v field).stamps = t.stamps.set field.index v := by
  cases field <;> rfl

theorem stamp_of_set {j : Nat} {v : Int} (hj : j < 16) (h : t'.stamps = t.stamps.set j v) (i : Nat) :
    t'.stamp i = if i = j then v else t.stamp i := by
  have hl : t.stamps.length = 16 := rfl
  rw [stamp, stamp, h, List.getD_eq_getElem?_getD, List.getElem?_set]
  by_cases hi : j = i
  case pos =>
    subst hi
    simp [hl, hj]
  case neg => simp [hi, Ne.symm hi]

-- The next step takes the time it has to.
theorem Timely.next {k : Nat} {v : Int} (h : t.Timely cfg k) (hk : k + 1 < 16)
    (hs : t'.stamps = t.stamps.set (k + 1) v) (hv : cfg.Spaced k (t.stamp k) v) :
    t'.Timely cfg (k + 1) ∧ t'.stamp (k + 1) = v := by
  have hstamp := stamp_of_set hk hs
  refine ⟨fun i hi => ?_, by rw [hstamp, if_pos rfl]⟩
  rw [hstamp i, if_neg (by omega), hstamp (i + 1)]
  rcases Nat.lt_succ_iff_lt_or_eq.mp hi with hi | rfl
  case inl =>
    rw [if_neg (by omega)]
    exact h i hi
  case inr =>
    rw [if_pos rfl]
    exact hv

-- The message went through its first `k` stages on time, the last of them at least `w` before tick `a`.
def Waited (cfg : Config n) (k : Nat) (w a : Int) (t : MsgTiming) : Prop :=
  t.Timely cfg k ∧ t.stamp k ≤ a ∧ t.stamp k + w ≤ a

theorem Waited.mono {k : Nat} {w a a' : Int} (h : t.Waited cfg k w a) (ha : a ≤ a') :
    t.Waited cfg k w a' :=
  ⟨h.left, h.right.left.trans ha, h.right.right.trans ha⟩

theorem Waited.wait {k : Nat} {w w' d a a' : Int} (h : t.Waited cfg k w a) (ha : a ≤ a')
    (hd : ¬a' - a < d) (hw : w' = w + d) : t.Waited cfg k w' a' :=
  have ⟨h₁, h₂, h₃⟩ := h
  ⟨h₁, h₂.trans ha, by omega⟩

theorem Waited.since {k : Nat} {w d a : Int} (h : t.Waited cfg k w a) (hd : ¬a - t.stamp k < d) :
    t.Waited cfg k d a :=
  ⟨h.left, h.right.left, by omega⟩

end MsgTiming

-- The messages that the flit carries have times with property `P`. Those in its data slots are only
-- named there.
def Flit.Holds (dir : Dir) (P : MsgTiming → Prop) (f : Flit) : Prop :=
  ∀ s ∈ f.slots, s.type = dir.single ∨ s.type = dir.hdr → P s.msg.time

namespace Flit

variable {dir : Dir} {P Q : MsgTiming → Prop} {f : Flit}

theorem Holds.imp (h : f.Holds dir P) (hPQ : ∀ t, P t → Q t) : f.Holds dir Q :=
  fun s hs ht => hPQ _ (h s hs ht)

theorem Holds.setTime {field : TimeField} {v : Int} (h : f.Holds dir P)
    (hPQ : ∀ t, P t → Q (t.set v field)) : (f.setTime field v).Holds dir Q := by
  intro s hs ht
  obtain ⟨s', hs', rfl⟩ := List.mem_map.mp hs
  by_cases he : s'.type = .empty
  case pos =>
    rw [if_pos he, he] at ht
    rcases ht with ht | ht
    case inl => exact absurd ht.symm dir.single_ne_empty
    case inr => exact absurd ht.symm dir.hdr_ne_empty
  case neg =>
    rw [if_neg he] at ht ⊢
    exact hPQ _ (h s' hs' ht)

theorem Holds.set {slots : List Slot} {i : Nat} {s : Slot} (h : f.Holds dir P)
    (hs : s.type = dir.single ∨ s.type = dir.hdr → P s.msg.time) (hf : slots = f.slots.set i s)
    {f' : Flit} (hf' : f'.slots = slots) : f'.Holds dir P := by
  intro s' hs' ht
  rw [hf', hf] at hs'
  rcases List.mem_or_eq_of_mem_set hs' with hs' | rfl
  case inl => exact h s' hs' ht
  case inr => exact hs ht

end Flit

section Queues

variable {n : Nat} (cfg : Config n) (dir : Dir) (k : Nat) (tick : Int)

-- The flits went onto a bus when their messages reached stage `k`.
def SentBy (fs : List Flit) : Prop :=
  ∀ f ∈ fs, f.time.timeOfTransmission ≤ tick ∧
    f.Holds dir fun t => t.Timely cfg k ∧ t.stamp k = f.time.timeOfTransmission

-- The flits came to a buffer at least `w` after their messages reached stage `k`.
def ReceivedBy (w : Int) (fs : List Flit) : Prop :=
  ∀ f ∈ fs, f.time.timeOfReceipt ≤ tick ∧ f.Holds dir (MsgTiming.Waited cfg k w f.time.timeOfReceipt)

variable {cfg dir k tick} {w tick' : Int} {f : Flit} {fs gs : List Flit}

theorem SentBy.mono (h : SentBy cfg dir k tick fs) (ht : tick ≤ tick') : SentBy cfg dir k tick' fs :=
  fun f hf => ⟨(h f hf).left.trans ht, (h f hf).right⟩

theorem ReceivedBy.mono (h : ReceivedBy cfg dir k tick w fs) (ht : tick ≤ tick') :
    ReceivedBy cfg dir k tick' w fs :=
  fun f hf => ⟨(h f hf).left.trans ht, (h f hf).right⟩

theorem SentBy.nil : SentBy cfg dir k tick [] :=
  nofun

theorem ReceivedBy.nil : ReceivedBy cfg dir k tick w [] :=
  nofun

end Queues

variable {n size bufSize busSize : Nat} {cfg : Config n} {dir : Dir} {k : Nat} {tick : Int}

-- A flit leaves its bus when its latency has passed, and not later.
theorem CXLBus.update_timely {name : BufName} {ty : BusTerminals} {b : CXLBus size}
    {buf : CXLBuf bufSize Flit} (hty : ty.timeField.index = k + 1) (hk : k + 1 < 16)
    (hs : ∀ x y, x ≤ y → x + cfg.params.cxlBusTotalLatency = y → cfg.Spaced k x y)
    (hb : SentBy cfg dir k tick b.flitSlots) (hbuf : ReceivedBy cfg dir (k + 1) tick 0 buf.q) :
    (b.update cfg.params tick ty name buf).Meets
      (fun r => SentBy cfg dir k tick r.1.flitSlots ∧ ReceivedBy cfg dir (k + 1) tick 0 r.2.q)
      fun _ => True := by
  refine (assert_meets fun _ => trivial).bind fun _ _ => ?_
  refine (assert_meets fun _ => trivial).bind fun _ hstag => ?_
  refine .ite (fun _ => ?_) fun _ => ⟨hb, hbuf⟩
  obtain ⟨fs, last, hfs⟩ := b
  match fs, hfs with
  | [], _      => exact ⟨hb, hbuf⟩
  | f :: fs, _ =>
    refine .ite (fun hage => ?_) fun _ => ⟨hb, hbuf⟩
    refine (CXLBuf.enqueue_meets.mono (fun _ => id) fun _ _ => trivial).bind fun buf' hbuf' => ?_
    refine ⟨fun g hg => hb g (List.mem_cons_of_mem _ hg), ?_⟩
    have ⟨hle, hf⟩ := hb f (List.mem_cons_self ..)
    have hage' : f.time.timeOfTransmission + cfg.params.cxlBusTotalLatency = tick := by
      simp only [isFlitStagnant, decide_eq_true_eq] at hstag
      omega
    intro g hg
    rw [hbuf', List.mem_append, List.mem_singleton] at hg
    rcases hg with hg | rfl
    case inl => exact hbuf g hg
    case inr =>
      refine ⟨le_rfl, hf.setTime fun t ⟨ht, hstamp⟩ => ?_⟩
      have ⟨ht', hstamp'⟩ := ht.next hk (hty ▸ MsgTiming.stamps_set tick _)
        (hs _ _ (hstamp ▸ hle) (hstamp ▸ hage'))
      exact ⟨ht', hstamp'.le, by simp only [hstamp', add_zero]; exact le_rfl⟩

-- A flit that joins a bus.
theorem CXLBus.addToBus_timely {b : CXLBus busSize} {f : Flit} (hb : SentBy cfg dir k tick b.flitSlots)
    (hf : f.Holds dir fun t => t.Timely cfg k ∧ t.stamp k = tick) (ht : f.time.timeOfTransmission = tick) :
    (b.addToBus tick f).Meets (fun b' => SentBy cfg dir k tick b'.flitSlots) fun _ => True := by
  unfold addToBus
  split
  case isTrue  => trivial
  case isFalse =>
    intro g hg
    rcases List.mem_append.mp hg with hg | hg
    case inl => exact hb g hg
    case inr =>
      rw [List.mem_singleton.mp hg, ht]
      exact ⟨le_rfl, hf⟩

namespace CXLSwitch

variable {w : Int}

theorem mem_of_readyHead? {b : CXLBuf size Flit} {delay : Int} {f : Flit}
    (h : readyHead? tick b delay = some f) : f ∈ b.q ∧ ¬tick - f.time.timeOfReceipt < delay := by
  have ⟨hm, ht⟩ := Option.filter_eq_some_iff.mp h
  exact ⟨List.mem_of_mem_head? hm, by simpa using ht⟩

theorem dequeue_timely {b : CXLBuf size Flit} (h : ReceivedBy cfg dir k tick w b.q) :
    ReceivedBy cfg dir k tick w b.dequeue.q :=
  fun f hf => h f (List.mem_of_mem_tail hf)

-- A flit that has waited goes to the next buffer.
theorem enqueue_timely {name : BufName} {w' delay : Int} {src dst : CXLBuf size Flit} {f : Flit}
    (hsrc : ReceivedBy cfg dir k tick w src.q) (hdst : ReceivedBy cfg dir k tick w' dst.q)
    (hf : readyHead? tick src delay = some f) (hw : w' = w + delay) :
    (dst.enqueue name (receive tick f)).Meets (fun dst' => ReceivedBy cfg dir k tick w' dst'.q)
      fun _ => True := by
  refine CXLBuf.enqueue_meets.mono (fun dst' hdst' g hg => ?_) fun _ _ => trivial
  rw [hdst', List.mem_append, List.mem_singleton] at hg
  rcases hg with hg | rfl
  case inl => exact hdst g hg
  case inr =>
    have ⟨hm, hd⟩ := mem_of_readyHead? hf
    have ⟨hle, hf⟩ := hsrc f hm
    exact ⟨le_rfl, fun s hs ht => (hf s hs ht).wait hle hd hw⟩

theorem forward_timely {name : BufName} {w' delay : Int} {src dst : CXLBuf size Flit}
    (hsrc : ReceivedBy cfg dir k tick w src.q) (hdst : ReceivedBy cfg dir k tick w' dst.q)
    (hw : w' = w + delay) : (forward tick delay name src dst).Meets
      (fun r => ReceivedBy cfg dir k tick w r.1.q ∧ ReceivedBy cfg dir k tick w' r.2.q)
      fun _ => True := by
  unfold forward
  split
  case h_1 => exact ⟨hsrc, hdst⟩
  case h_2 f hf =>
    exact (enqueue_timely hsrc hdst hf hw).bind fun dst' hdst' => ⟨dequeue_timely hsrc, hdst'⟩

theorem sendOut_timely {field : TimeField} {buf : CXLBuf size Flit} {lt : Nat} {bus : CXLBus busSize}
    (hfield : field.index = k + 1) (hk : k + 1 < 16)
    (hs : ∀ x y, x ≤ y → x + (w + cfg.params.delayCxlPortSwitch) ≤ y → cfg.Spaced k x y)
    (hbuf : ReceivedBy cfg dir k tick w buf.q) (hbus : SentBy cfg dir (k + 1) tick bus.flitSlots) :
    (sendOut tick cfg.params field buf lt bus).Meets
      (fun r => ReceivedBy cfg dir k tick w r.1.q ∧ SentBy cfg dir (k + 1) tick r.2.2.flitSlots)
      fun _ => True := by
  unfold sendOut
  split
  case h_1 => exact ⟨hbuf, hbus⟩
  case h_2 f hf =>
    refine .ite (fun _ => ?_) fun _ => ⟨hbuf, hbus⟩
    have ⟨hm, hd⟩ := mem_of_readyHead? hf
    have ⟨hle, hf⟩ := hbuf f hm
    have hg : (Flit.setTime { f with time := { f.time with timeOfTransmission := tick } } field
        tick).Holds dir fun t => t.Timely cfg (k + 1) ∧ t.stamp (k + 1) = tick := by
      refine Flit.Holds.setTime (f := { f with time := _ }) hf fun t ht => ?_
      have ⟨ht, hle, hwait⟩ := ht.wait hle hd rfl
      exact ht.next hk (hfield ▸ MsgTiming.stamps_set tick _) (hs _ _ hle hwait)
    exact (CXLBus.addToBus_timely hbus hg rfl).bind fun bus' hbus' => ⟨dequeue_timely hbuf, hbus'⟩

-- The buffers of the switch on the way to the devices and on the way to the host.
structure Timely (tick : Int) (s : CXLSwitch cfg) : Prop where
  upstreamRx   : ReceivedBy cfg .m2s 3 tick 0 s.upstreamRx.q
  arbNocH2D    : ReceivedBy cfg .m2s 3 tick cfg.params.delayCxlPortSwitch s.arbNocH2D.q
  downstreamTx : ∀ i, ReceivedBy cfg .m2s 3 tick
    (cfg.params.delayCxlPortSwitch + cfg.params.delayCxlNocSwitch) (s.downstreamTx i).q
  downstreamRx : ∀ i, ReceivedBy cfg .s2m 11 tick 0 (s.downstreamRx i).q
  arbNocD2H    : ReceivedBy cfg .s2m 11 tick cfg.params.delayCxlPortSwitch s.arbNocD2H.q
  upstreamTx   : ReceivedBy cfg .s2m 11 tick
    (cfg.params.delayCxlPortSwitch + cfg.params.delayCxlNocSwitch) s.upstreamTx.q

variable {s : CXLSwitch cfg}

theorem Timely.mono {tick' : Int} (h : s.Timely tick) (ht : tick ≤ tick') : s.Timely tick' where
  upstreamRx     := h.upstreamRx.mono ht
  arbNocH2D      := h.arbNocH2D.mono ht
  downstreamTx i := (h.downstreamTx i).mono ht
  downstreamRx i := (h.downstreamRx i).mono ht
  arbNocD2H      := h.arbNocD2H.mono ht
  upstreamTx     := h.upstreamTx.mono ht

theorem route_timely (h : s.Timely tick) : (s.route tick).Meets (·.Timely tick) fun _ => True := by
  unfold route
  split
  case h_1 => exact h
  case h_2 f hf =>
    refine (Except.Meets.any _).bind fun dest _ => ?_
    split
    case isFalse => trivial
    case isTrue hd =>
      refine (enqueue_timely h.arbNocH2D (h.downstreamTx ⟨dest, hd⟩) hf rfl).bind fun b hb => ?_
      refine { h with arbNocH2D := dequeue_timely h.arbNocH2D, downstreamTx := fun i => ?_ }
      by_cases hi : i = ⟨dest, hd⟩
      case pos => simpa [hi] using hb
      case neg => simpa [hi] using h.downstreamTx i

theorem updatePort_timely (h : s.Timely tick) : s.updatePort.Timely tick := by
  unfold updatePort
  split
  case isTrue  => exact { h with }
  case isFalse => exact h

theorem arbitrate_timely (k : Nat) (h : s.Timely tick) :
    (arbitrate tick k s).Meets (fun r => r.2.Timely tick) fun _ => True := by
  induction k generalizing s
  case zero => exact h
  case succ k ih =>
    rw [arbitrate]
    split
    case isFalse => exact ih (updatePort_timely h)
    case isTrue hp =>
      simp only
      split
      case h_2 => exact (ih (updatePort_timely h)).bind fun _ h => h
      case h_1 f hf =>
        refine (enqueue_timely (h.downstreamRx _) h.arbNocD2H hf (zero_add _).symm).bind fun b hb => ?_
        refine updatePort_timely { h with arbNocD2H := hb, downstreamRx := fun i => ?_ }
        by_cases hi : i = ⟨s.currPort, hp⟩
        case pos =>
          simp only [updateRollover, hi, Function.update_self]
          exact dequeue_timely (h.downstreamRx _)
        case neg => simpa [updateRollover, hi] using h.downstreamRx i

end CXLSwitch

-- The packer waits for the delay of its channels and sets the two stamps after the first of its leg.
structure PackerRules.OnTime {σ : Type} (cfg : Config n) (rules : PackerRules dir σ) : Prop where
  ready        : ∀ t s m, rules.ready t s m = .ok true →
    ¬t - m.time.stamp dir.start < cfg.params.delayVcToPack
  packTime     : rules.packTime.index = dir.start + 1
  transmitTime : rules.transmitTime.index = dir.start + 2

namespace TxPort

variable {vcSize : Nat} {σ : Type} {rules : PackerRules dir σ} {p : TxPort dir vcSize bufSize σ}

structure Timely (cfg : Config n) (tick : Int) (p : TxPort dir vcSize bufSize σ) : Prop where
  single   : ∀ m ∈ p.single.msgs, m.time.Waited cfg dir.start 0 tick
  hdr      : ∀ m ∈ p.hdr.msgs, m.time.Waited cfg dir.start 0 tick
  packing  : p.isPackerWaiting →
    p.flitToPack.Holds dir (MsgTiming.Waited cfg dir.start cfg.params.delayVcToPack tick)
  txBuffer : ∀ f ∈ p.txBuffer.q, f.time.timeOfCreation ≤ tick ∧
    f.Holds dir (MsgTiming.Waited cfg (dir.start + 1) 0 f.time.timeOfCreation)

-- The same while a flit is being packed.
structure Packs (cfg : Config n) (tick : Int) (p : TxPort dir vcSize bufSize σ) : Prop
    extends p.Timely cfg tick where
  flit : p.flitToPack.Holds dir (MsgTiming.Waited cfg dir.start cfg.params.delayVcToPack tick)

theorem Timely.mono {tick' : Int} (h : p.Timely cfg tick) (ht : tick ≤ tick') : p.Timely cfg tick' where
  single m hm  := (h.single m hm).mono ht
  hdr m hm     := (h.hdr m hm).mono ht
  packing hw   := (h.packing hw).imp fun _ h => h.mono ht
  txBuffer f hf := ⟨(h.txBuffer f hf).left.trans ht, (h.txBuffer f hf).right⟩

theorem Packs.setSlot (rules : PackerRules dir σ) {i : Nat} {slot : Slot} (h : p.Packs cfg tick)
    (hs : slot.type = dir.single ∨ slot.type = dir.hdr →
      slot.msg.time.Waited cfg dir.start cfg.params.delayVcToPack tick) :
    (p.setSlot rules i slot).Packs cfg tick :=
  have hf : (p.setSlot rules i slot).flitToPack.Holds dir _ := h.flit.set hs rfl rfl
  { h with packing := fun _ => hf, flit := hf }

theorem Packs.addData (h : p.Packs cfg tick) (i : Nat) : (p.addData rules i).Packs cfg tick := by
  have hs : (p.setSlot rules i p.dataSlot).Packs cfg tick := by
    refine h.setSlot rules fun ht => ?_
    rcases ht with ht | ht
    case inl => exact absurd ht.symm dir.single_ne_data
    case inr => exact absurd ht.symm dir.hdr_ne_data
  exact { hs with }

theorem Packs.foldl_addData (rules : PackerRules dir σ) (h : p.Packs cfg tick) (is : List Nat) :
    (is.foldl (TxPort.addData rules) p).Packs cfg tick := by
  induction is generalizing p
  case nil          => exact h
  case cons i is ih => exact ih (h.addData i)

theorem getMsgFromVcs_offers : (p.getMsgFromVcs rules tick).Meets
    (fun o => ∀ b ∈ o, p.Offers rules tick b) fun _ => True := by
  by_cases hw : p.pkr2State = .W
  case pos =>
    simp only [getMsgFromVcs, hw]
    trivial
  case neg =>
    refine (getMsgFromVcs_meets hw).mono (fun o ho => ?_) fun _ _ => trivial
    cases o
    case none   => exact fun _ h => nomatch h
    case some o => exact fun _ h => Option.some.inj h ▸ ho

-- The message that is offered has waited, and what is left behind is as before.
theorem Offers.timely {o : Offer dir vcSize bufSize σ} (hr : rules.OnTime cfg)
    (h : p.Packs cfg tick) (ho : p.Offers rules tick o) :
    o.msg.time.Waited cfg dir.start cfg.params.delayVcToPack tick ∧ o.refused.Packs cfg tick ∧
      o.taken.Packs cfg tick := by
  cases ho
  case single i m cur next hm hready _ =>
    have hmsgs := VcArray.msgs_dequeue hm
    have hm := h.single m (VcArray.mem_of_head? hm)
    refine ⟨?_, { h with }, { h with single := fun m hm => h.single m ?_ }⟩
    · exact hm.since (hr.ready tick _ m hready)
    · exact hmsgs ▸ Multiset.mem_cons_of_mem hm
  case hdr i m cur hm hready =>
    have hmsgs := VcArray.msgs_dequeue hm
    have hm := h.hdr m (VcArray.mem_of_head? hm)
    refine ⟨?_, { h with }, { h with hdr := fun m hm => h.hdr m ?_ }⟩
    · exact hm.since (hr.ready tick _ m hready)
    · exact hmsgs ▸ Multiset.mem_cons_of_mem hm

theorem packSlot_timely (hr : rules.OnTime cfg) (h : p.Packs cfg tick) (i : Nat) :
    (p.packSlot rules tick i).Meets (fun o => ∀ q ∈ o, q.Packs cfg tick) fun _ => True := by
  refine .ite (fun _ => meets_some h) fun _ => .ite (fun _ => meets_some (h.addData i)) fun _ => ?_
  refine getMsgFromVcs_offers.bind fun o ho => ?_
  cases o
  case none => exact meets_none
  case some o =>
    have ⟨hm, hrefused, htaken⟩ := (ho o rfl).timely hr h
    refine (Except.Meets.any _).bind fun flow _ => .ite (fun _ => ?_) fun _ => .ite (fun _ => ?_)
      fun _ => trivial
    · refine .ite (fun _ => ?_) fun _ => meets_some { hrefused with }
      refine (Except.Meets.any _).bind fun flow _ => meets_some ?_
      have hslot : (o.taken.setSlot rules i ⟨dir.single, o.msg⟩).Packs cfg tick :=
        htaken.setSlot rules fun _ => hm
      exact { hslot with }
    · refine .ite (fun _ => ?_) fun _ => meets_some { hrefused with }
      refine (Except.Meets.any _).bind fun flow _ => meets_some ?_
      have hslot : (o.taken.setSlot rules i ⟨dir.hdr, o.msg⟩).Packs cfg tick :=
        htaken.setSlot rules fun _ => hm
      exact { hslot with }

theorem packSlots_timely (hr : rules.OnTime cfg) (h : p.Packs cfg tick) (is : List Nat) :
    (p.packSlots rules tick is).Meets (·.Packs cfg tick) fun _ => True := by
  induction is generalizing p
  case nil => exact h
  case cons i is ih =>
    refine (packSlot_timely hr h i).bind fun o ho => ?_
    cases o
    case none   => exact h
    case some p => exact ih (ho p rfl)

theorem packFlit_timely (hr : rules.OnTime cfg) (h : p.Packs cfg tick) :
    (p.packFlit rules tick).Meets (·.Timely cfg tick) fun _ => True := by
  refine (packSlots_timely hr h _).bind fun q hq => (Except.Meets.any _).bind fun _ _ => ?_
  exact { hq with packing := fun _ => hq.flit }

theorem spaced_start {x y : Int} (h : x ≤ y) (h' : x + cfg.params.delayVcToPack ≤ y) :
    cfg.Spaced dir.start x y := by
  cases dir <;> exact ⟨h, h'⟩

theorem addFlitToBuf_timely (hr : rules.OnTime cfg) (h : p.Packs cfg tick) :
    (p.addFlitToBuf rules tick).Meets (·.Timely cfg tick) fun _ => True := by
  refine (Except.Meets.any _).bind fun c _ => ?_
  refine (CXLBuf.enqueue_meets.mono (fun _ => id) fun _ _ => trivial).bind fun b hb => ?_
  refine (Except.Meets.any _).bind fun flow _ => { h with packing := nofun, txBuffer := fun f hf => ?_ }
  rw [hb, List.mem_append, List.mem_singleton] at hf
  rcases hf with hf | rfl
  case inl => exact h.txBuffer f hf
  case inr =>
    refine ⟨le_rfl, Flit.Holds.setTime (f := { p.flitToPack with .. }) h.flit fun t ht => ?_⟩
    have ⟨ht, hstamp⟩ := ht.left.next (by cases dir <;> decide)
      (hr.packTime ▸ MsgTiming.stamps_set tick _) (spaced_start ht.right.left ht.right.right)
    exact ⟨ht, hstamp.le, by simp only [hstamp, add_zero]; exact le_rfl⟩

theorem startFlit_packs (h : p.Timely cfg tick) : (p.startFlit rules tick).Packs cfg tick := by
  unfold startFlit
  split
  case isTrue hw => exact { h with flit := h.packing hw }
  case isFalse =>
    have hf : Flit.Holds dir (MsgTiming.Waited cfg dir.start cfg.params.delayVcToPack tick) {} := by
      intro s hs ht
      rw [List.eq_of_mem_replicate hs] at ht
      rcases ht with ht | ht
      case inl => exact absurd ht.symm dir.single_ne_empty
      case inr => exact absurd ht.symm dir.hdr_ne_empty
    exact { h with packing := fun _ => hf, flit := hf }

theorem flitPacker_timely (hr : rules.OnTime cfg) (h : p.Timely cfg tick) :
    (p.flitPacker rules tick).Meets (·.Timely cfg tick) fun _ => True := by
  have hp : (p.startFlit rules tick).Packs cfg tick := startFlit_packs h
  refine .ite (fun _ => .ite (fun _ => hp.toTimely) fun _ => addFlitToBuf_timely hr hp) fun _ => ?_
  refine (Except.Meets.any _).bind fun _ _ => .ite (fun _ => packFlit_timely hr hp) fun _ => ?_
  split
  case h_1 =>
    have hq := hp.foldl_addData rules [0, 1, 2, 3]
    exact .ite (fun _ => { hq with packing := fun _ => hq.flit }) fun _ => addFlitToBuf_timely hr hq
  case h_2 => exact packFlit_timely hr (hp.foldl_addData rules _)

theorem transmit_timely {bus : CXLBus busSize} (hr : rules.OnTime cfg) (h : p.Timely cfg tick)
    (hb : SentBy cfg dir (dir.start + 2) tick bus.flitSlots) : (p.transmit rules tick cfg.params bus).Meets
      (fun r => r.1.Timely cfg tick ∧ SentBy cfg dir (dir.start + 2) tick r.2.flitSlots)
      fun _ => True := by
  unfold transmit
  split
  case h_1 => exact ⟨h, hb⟩
  case h_2 f fs hq =>
    refine .ite (fun _ => ⟨h, hb⟩) fun hd => ?_
    have ⟨hle, hf⟩ := h.txBuffer f (hq ▸ List.mem_cons_self ..)
    have hg : (Flit.setTime { f with time := { f.time with timeOfTransmission := tick } }
        rules.transmitTime tick).Holds dir
          fun t => t.Timely cfg (dir.start + 2) ∧ t.stamp (dir.start + 2) = tick := by
      refine Flit.Holds.setTime (f := { f with time := _ }) hf fun t ht => ?_
      have ⟨ht, hle, hwait⟩ := ht.wait hle (not_or.mp (not_or.mp hd).right).left rfl
      refine ht.next (by cases dir <;> decide) (hr.transmitTime ▸ MsgTiming.stamps_set tick _) ?_
      rw [zero_add] at hwait
      cases dir <;> exact ⟨hle, hwait⟩
    refine (CXLBus.addToBus_timely hb hg rfl).bind fun bus' hb' => ⟨{ h with txBuffer := ?_ }, hb'⟩
    exact fun f hf => h.txBuffer f (List.mem_of_mem_tail hf)

end TxPort

namespace RxPort

variable {vcSize : Nat} {rules : UnpackerRules} {u : RxPort dir vcSize bufSize}

structure Timely (cfg : Config n) (tick : Int) (u : RxPort dir vcSize bufSize) : Prop where
  rxBuffer : ReceivedBy cfg dir (dir.start + 5) tick 0 u.rxBuffer.q
  lastHdr  : u.unpackerRollover ≠ 0 →
    u.lastHdr.time.Waited cfg (dir.start + 5) cfg.params.delayRxBufToUnpack tick
  single   : ∀ m ∈ u.single.q, m.time.Waited cfg (dir.start + 6) 0 tick
  hdr      : ∀ m ∈ u.hdr.q, m.time.Waited cfg (dir.start + 6) 0 tick

theorem Timely.mono {tick' : Int} (h : u.Timely cfg tick) (ht : tick ≤ tick') : u.Timely cfg tick' where
  rxBuffer    := h.rxBuffer.mono ht
  lastHdr hr  := (h.lastHdr hr).mono ht
  single m hm := (h.single m hm).mono ht
  hdr m hm    := (h.hdr m hm).mono ht

-- A message that is unpacked has waited for it.
theorem unpack_timely {m : Message} {b : CXLBuf vcSize Message} {name : BufName}
    (hu : rules.unpackTime.index = dir.start + 6)
    (hm : m.time.Waited cfg (dir.start + 5) cfg.params.delayRxBufToUnpack tick)
    (hb : ∀ m ∈ b.q, m.time.Waited cfg (dir.start + 6) 0 tick) :
    (b.enqueue name (m.setTime rules.unpackTime tick)).Meets
      (fun b' => ∀ m ∈ b'.q, m.time.Waited cfg (dir.start + 6) 0 tick) fun _ => True := by
  refine CXLBuf.enqueue_meets.mono (fun b' hb' m' hm' => ?_) fun _ _ => trivial
  rw [hb', List.mem_append, List.mem_singleton] at hm'
  rcases hm' with hm' | rfl
  case inl => exact hb m' hm'
  case inr =>
    have hspaced : cfg.Spaced (dir.start + 5) (m.time.stamp (dir.start + 5)) tick := by
      cases dir <;> exact hm.right
    have ⟨ht, hstamp⟩ := hm.left.next (by cases dir <;> decide)
      (hu ▸ MsgTiming.stamps_set tick _) hspaced
    exact ⟨ht, hstamp.le, by rw [add_zero]; exact hstamp.le⟩

theorem consumeData_timely (hu : rules.unpackTime.index = dir.start + 6) (h : u.Timely cfg tick)
    (hr : u.unpackerRollover ≠ 0) (s : Slot) :
    (u.consumeData rules tick s).Meets (·.Timely cfg tick) fun _ => True := by
  refine .ite (fun h₀ => ?_) fun _ => { h with lastHdr := fun _ => h.lastHdr hr }
  refine (unpack_timely hu (h.lastHdr hr) h.hdr).bind fun b hb => ?_
  exact { h with hdr := hb, lastHdr := fun hr => absurd h₀ hr }

theorem takeRollover_timely (hu : rules.unpackTime.index = dir.start + 6) (h : u.Timely cfg tick)
    (hr : u.unpackerRollover ≠ 0) (slots : List Slot) : (u.takeRollover rules tick slots).Meets
      (fun r => r.1.Timely cfg tick ∧ ∀ s ∈ r.2, s.type = .empty ∨ s ∈ slots) fun _ => True := by
  induction slots generalizing u
  case nil => exact ⟨h, fun _ hs => .inr hs⟩
  case cons s ss ih =>
    refine .ite (fun _ => ?_) fun _ => ?_
    · refine (ih h hr).bind fun r hr => ⟨hr.left, fun s' hs' => ?_⟩
      rcases List.mem_cons.mp hs' with rfl | hs'
      case inl => exact .inr (List.mem_cons_self ..)
      case inr => exact (hr.right s' hs').imp_right (List.mem_cons_of_mem _)
    · refine (consumeData_timely hu h hr s).bind fun u hu' => .ite (fun _ => ⟨hu', ?_⟩) fun hr => ?_
      · exact List.forall_mem_cons.mpr ⟨.inl rfl, fun s hs => .inr (List.mem_cons_of_mem _ hs)⟩
      · refine (ih hu' hr).bind fun r hr => ⟨hr.left, List.forall_mem_cons.mpr ⟨.inl rfl, ?_⟩⟩
        exact fun s hs => (hr.right s hs).imp_right (List.mem_cons_of_mem _)

theorem unpackSlot_timely (hu : rules.unpackTime.index = dir.start + 6) (h : u.Timely cfg tick)
    {s : Slot} (hs : s.type = dir.single ∨ s.type = dir.hdr →
      s.msg.time.Waited cfg (dir.start + 5) cfg.params.delayRxBufToUnpack tick) :
    (u.unpackSlot rules tick s).Meets (·.Timely cfg tick) fun _ => True := by
  refine .ite (fun ht => ?_) fun _ => .ite (fun ht => ?_) fun _ => .ite (fun _ => ?_) fun _ => ?_
  · exact (unpack_timely hu (hs (.inl ht)) h.single).bind fun b hb => { h with single := hb }
  · exact (Except.Meets.any _).bind fun _ _ => { h with lastHdr := fun _ => hs (.inr ht) }
  · refine (assert_meets fun _ => trivial).bind fun _ hr => ?_
    exact consumeData_timely hu h (Nat.ne_of_gt hr) s
  · exact (Except.Meets.any _).bind fun _ _ => h

theorem unpackSlots_timely (hu : rules.unpackTime.index = dir.start + 6) {slots : List Slot}
    (h : u.Timely cfg tick) (hs : ∀ s ∈ slots, s.type = dir.single ∨ s.type = dir.hdr →
      s.msg.time.Waited cfg (dir.start + 5) cfg.params.delayRxBufToUnpack tick) :
    (u.unpackSlots rules tick slots).Meets (·.Timely cfg tick) fun _ => True := by
  induction slots generalizing u
  case nil => exact h
  case cons s ss ih =>
    have ⟨hs, hss⟩ := List.forall_mem_cons.mp hs
    exact (unpackSlot_timely hu h hs).bind fun u hu' => ih hu' hss

theorem unpackFlit_timely (hu : rules.unpackTime.index = dir.start + 6) {f : Flit}
    (h : u.Timely cfg tick)
    (hf : f.Holds dir (MsgTiming.Waited cfg (dir.start + 5) cfg.params.delayRxBufToUnpack tick)) :
    (u.unpackFlit rules tick f).Meets (fun r => r.1.Timely cfg tick) fun _ => True := by
  refine .ite (fun hr => ?_) fun _ => ?_
  · refine (takeRollover_timely hu h hr f.slots).bind fun r ⟨hr, hslots⟩ => ?_
    refine (unpackSlots_timely hu hr fun s hs ht => ?_).bind fun _ h => h
    rcases hslots s hs with he | hs
    case inr => exact hf s hs ht
    case inl =>
      rw [he] at ht
      rcases ht with ht | ht
      case inl => exact absurd ht.symm dir.single_ne_empty
      case inr => exact absurd ht.symm dir.hdr_ne_empty
  · exact (unpackSlots_timely hu h hf).bind fun _ h => h

-- The head of the buffer is unpacked.
theorem unpackHead_timely (hu : rules.unpackTime.index = dir.start + 6) {f : Flit} {fs : List Flit}
    (h : u.Timely cfg tick) (hq : u.rxBuffer.q = f :: fs)
    (hf : ¬tick - f.time.timeOfReceipt < cfg.params.delayRxBufToUnpack) :
    (u.unpackFlit rules tick f).Meets
      (fun r => ({ r.1 with rxBuffer := r.1.rxBuffer.dequeue } : RxPort dir vcSize bufSize).Timely cfg
        tick) fun _ => True := by
  have ⟨hle, hw⟩ := h.rxBuffer f (hq ▸ List.mem_cons_self ..)
  refine (unpackFlit_timely hu h (hw.imp fun t ht => ht.wait hle hf (zero_add _).symm)).imp fun r hr => ?_
  exact { hr with rxBuffer := fun f hf => hr.rxBuffer f (List.mem_of_mem_tail hf) }

end RxPort

end CXL
