import VldbArtifacts.CXLSim.Theorems.Links

-- The way from the host to the devices. Among at most 4096 devices, a flit has messages for one device
-- only, and it gets there.

namespace CXL

open Framing

variable {n : Nat} {cfg : Config n} {tick : Int}

namespace HostFlow

variable {s s' : HostFlow n} {m : Message} {d : Fin n}

theorem ready_true (h : ready cfg tick s m = .ok true) : ∃ d, cfg.destinationDevice m.address = .ok d ∧
    (s.deviceUnderConsideration = noDevice ∨ s.deviceUnderConsideration = d.val) := by
  unfold ready at h
  split at h
  case isFalse => cases h
  case isTrue =>
    obtain ⟨d, hd, h⟩ := Except.bind_eq_ok.mp h
    refine ⟨d, hd, ?_⟩
    split at h
    case isTrue hs => exact hs
    case isFalse   => cases h

theorem consider_eq (h : consider cfg s m = .ok s') (hd : cfg.destinationDevice m.address = .ok d)
    (hs : s.deviceUnderConsideration = noDevice ∨ s.deviceUnderConsideration = d.val) :
    s'.deviceUnderConsideration = d.val := by
  unfold consider at h
  split at h
  case isTrue =>
    rw [hd] at h
    cases h
    rfl
  case isFalse hne =>
    cases h
    exact hs.resolve_left hne

theorem spendReq_eq (h : spendReq cfg s m = .ok s') :
    s'.deviceUnderConsideration = s.deviceUnderConsideration := by
  obtain ⟨_, _, h⟩ := Except.bind_eq_ok.mp h
  cases h
  rfl

theorem spendRwd_eq (h : spendRwd cfg s m = .ok s') :
    s'.deviceUnderConsideration = s.deviceUnderConsideration := by
  obtain ⟨_, _, h⟩ := Except.bind_eq_ok.mp h
  cases h
  rfl

end HostFlow

-- The frame has messages for the device under consideration only.
def Sender.Aims (cfg : Config n) (x : Sender (HostFlow n)) : Prop :=
  ¬x.frame.IsEmpty → ∃ d : Fin n, FrameFor cfg d x.frame ∧ x.flow.deviceUnderConsideration = d.val

namespace Sender

variable {x y : Sender (HostFlow n)} {m : Message} {d : Fin n}

theorem Aims.ne (h : x.Aims cfg) (hn : n ≤ noDevice) (he : ¬x.frame.IsEmpty) :
    x.flow.deviceUnderConsideration ≠ noDevice := by
  obtain ⟨d, -, hd⟩ := h he
  have := d.isLt
  omega

-- A message that is ready is for the device of the messages before it.
theorem Aims.ready (h : x.Aims cfg) (hn : n ≤ noDevice)
    (hr : HostFlow.ready cfg tick x.flow m = .ok true) : ∃ d, m.isFor cfg d ∧
      (x.flow.deviceUnderConsideration = noDevice ∨ x.flow.deviceUnderConsideration = d.val) ∧
      (¬x.frame.IsEmpty → FrameFor cfg d x.frame) := by
  obtain ⟨d, hd, hs⟩ := HostFlow.ready_true hr
  refine ⟨d, Config.sendsTo_iff.mpr hd, hs, fun he => ?_⟩
  obtain ⟨d', hd', hs'⟩ := h he
  have : d' = d := Fin.ext (hs'.symm.trans (hs.resolve_left (h.ne hn he)))
  exact this ▸ hd'

theorem Step.aims (hn : n ≤ noDevice) (h : Step (hostPackerRules cfg) tick x y) (hx : x.Aims cfg) :
    y.Aims cfg := by
  cases h
  case start hf =>
    intro he
    obtain ⟨d, hd, hs⟩ := hx he
    refine ⟨d, hd, ?_⟩
    have ho : x.frame.owed > 0 := by
      have h₀ : x.frame.owed ≠ 0 := by
        intro h₀
        apply he
        change x.frame.IsEmpty
        rw [hf, h₀]
        exact ⟨rfl, rfl, rfl⟩
      omega
    simpa only [hostPackerRules, ho, ↓reduceIte] using hs
  case refuse m s hr hs =>
    intro he
    obtain ⟨d, hd, hu⟩ := hx he
    have hne := hx.ne hn he
    have : s = x.flow := by
      rw [hostPackerRules] at hs
      simp only [HostFlow.consider, hne, ↓reduceIte] at hs
      exact (Except.ok.inj hs).symm
    exact ⟨d, hd, this ▸ hu⟩
  case single m s s' rest hh _ _ hr hs hs' =>
    intro _
    obtain ⟨d, hm, hu, hf⟩ := hx.ready hn hr
    refine ⟨d, ?_, ?_⟩
    case _ =>
      by_cases he : x.frame.IsEmpty
      case pos => exact (Frame.All.of_isEmpty he).addSingle hh hm
      case neg => exact (hf he).addSingle hh hm
    case _ => exact (HostFlow.spendReq_eq hs').trans (HostFlow.consider_eq hs (Config.sendsTo_iff.mp hm) hu)
  case hdr m s s' rest hh _ _ hr hs hs' =>
    intro _
    obtain ⟨d, hm, hu, hf⟩ := hx.ready hn hr
    refine ⟨d, ?_, ?_⟩
    case _ =>
      by_cases he : x.frame.IsEmpty
      case pos => exact (Frame.All.of_isEmpty he).addHdr hm
      case neg => exact (hf he).addHdr hm
    case _ => exact (HostFlow.spendRwd_eq hs').trans (HostFlow.consider_eq hs (Config.sendsTo_iff.mp hm) hu)
  case emit f c s s' he _ hc hs =>
    intro _
    obtain ⟨d, hd, hu⟩ := hx he
    have hs' : s' = x.flow := by
      obtain ⟨_, _, hc⟩ := Except.bind_eq_ok.mp hc
      cases hc
      cases hs
      rfl
    exact ⟨d, hd.next, hs' ▸ hu⟩

end Sender

namespace Downlink

variable {x y : Downlink n}

def ShowsFor (cfg : Config n) (d : Fin n) (f : Flit) (fr : Frame Message) : Prop :=
  f.Shows .m2s fr ∧ FrameFor cfg d fr

def ShowsForOne (cfg : Config n) (f : Flit) (fr : Frame Message) : Prop :=
  f.Shows .m2s fr ∧ ∃ d, FrameFor cfg d fr

-- The flits before the router follow one another, and so do those behind it that go to one device. The
-- data that is owed at the router belongs to the device to which the last flit went.
structure Streams (cfg : Config n) (x : Downlink n) (o : Option (Nat × Message)) : Prop where
  out  : Linked (ShowsForOne cfg) o x.out (x.tx.frame.map Message.core).before
  prev : ∀ k m, o = some (k, m) → ∃ d : Fin n, m.isFor cfg d ∧ x.prev = d.val
  inp  : ∀ d : Fin n, ∃ o', (x.rx d).deframer.Awaits Message.msgId o' ∧
    Linked (ShowsFor cfg d) o' (x.inp d) (if x.prev = d.val then o else none)

structure Orderly (cfg : Config n) (x : Downlink n) : Prop where
  valid   : x.tx.frame.Valid
  sorted  : x.tx.Sorted .m2s
  aims    : x.tx.Aims cfg
  streams : ∃ o, x.Streams cfg o
  -- What was packed is in the flits that were sent or in the frame.
  packed  : ∀ hasData, (x.tx.packed.filter (·.opCode = Dir.op .m2s hasData)).map Message.core =
    x.tx.sent.flatMap (Flit.starts .m2s hasData) ++ (frameStarts hasData x.tx.frame).map Message.core
  -- What was sent to a device has been read by it or is on its way.
  sent    : ∀ (d : Fin n) hasData, (x.rx d).starts hasData ++ (x.inp d).flatMap (Flit.starts .m2s hasData) ++
      (x.out.flatMap (Flit.starts .m2s hasData)).filter (·.isFor cfg d) =
    (x.tx.sent.flatMap (Flit.starts .m2s hasData)).filter (·.isFor cfg d)

theorem RoutesTo.eq {f : Flit} {fr : Frame Message} {d k : Fin n} (h : x.RoutesTo cfg f d)
    (hf : ShowsFor cfg k f fr) (hp : ∀ j m, fr.before = some (j, m) → x.prev = k.val) : d = k := by
  unfold RoutesTo at h
  split at h
  case isTrue ht =>
    have ho := hf.left.owed_ne_zero ht
    exact Fin.ext (h.symm.trans (hp _ _ (if_neg ho)))
  case isFalse =>
    have := Config.sendsTo_iff.mp (hf.left.getFirstAddress hf.right)
    exact Except.ok.inj (h.symm.trans this)

-- The head of the flits before the router goes to the device of its messages.
theorem Streams.route {o : Option (Nat × Message)} {f : Flit} {rest : List Flit} {d : Fin n}
    (h : x.Streams cfg o) (hout : x.out = f :: rest) (hd : x.RoutesTo cfg f d) :
    ∃ fr, ShowsFor cfg d f fr ∧ Streams cfg { x with
      out := rest, prev := d.val, inp := Function.update x.inp d (x.inp d ++ [f]) } fr.after := by
  have hlinked := h.out
  rw [hout] at hlinked
  obtain ⟨fr, ⟨hshows, k, hk⟩, hbefore, hrest⟩ := hlinked.uncons
  have hprev (j : Nat) (m : Message) (ho : fr.before = some (j, m)) : x.prev = k.val := by
    obtain ⟨d', hm, hd'⟩ := h.prev j m (hbefore ▸ ho)
    obtain ⟨h₀, -, hl⟩ := due_eq_some.mp ho
    rw [hd', Message.isFor_unique hm (hl ▸ hk.last h₀)]
  obtain rfl := hd.eq ⟨hshows, hk⟩ hprev
  refine ⟨fr, ⟨hshows, hk⟩, hrest, fun j m ho => ⟨d, ?_, rfl⟩, fun i => ?_⟩
  case _ => exact hk.of_hdr (Frame.after_eq_some ho)
  case _ =>
    obtain ⟨o', hu, hi⟩ := h.inp i
    -- Only the device of the last flit is owed something.
    have hend : (if x.prev = i.val then o else none) = if d = i then fr.before else none := by
      cases ho : fr.before
      case none => simp [← hbefore, ho]
      case some p => simp [← hbefore, ho, hprev p.1 p.2 ho, Fin.ext_iff]
    refine ⟨o', hu, ?_⟩
    rw [hend] at hi
    by_cases hdi : d = i
    case neg => simpa [hdi, Fin.ext_iff.not.mp hdi, Function.update_of_ne (Ne.symm hdi)] using hi
    case pos =>
      subst hdi
      rw [if_pos rfl] at hi
      simpa using hi.concat (show ShowsFor cfg d f fr from ⟨hshows, hk⟩)

theorem Streams.unpack {o : Option (Nat × Message)} {f : Flit} {rest : List Flit} {d : Fin n}
    {u : Receiver} (h : x.Streams cfg o) (hinp : x.inp d = f :: rest) (hu : (x.rx d).Reads .m2s f u) :
    Streams cfg { x with inp := Function.update x.inp d rest, rx := Function.update x.rx d u } o where
  out  := h.out
  prev := h.prev
  inp i := by
    obtain ⟨o', ha, hi⟩ := h.inp i
    by_cases hdi : i = d
    case neg => exact ⟨o', by simpa [hdi] using ha, by simpa [hdi] using hi⟩
    case pos =>
      subst hdi
      rw [hinp] at hi
      obtain ⟨fr, hf, rfl, hrest⟩ := hi.uncons
      exact ⟨fr.after, by simpa using hu.awaits hf.left ha, by simpa using hrest⟩

theorem Streams.pack {o : Option (Nat × Message)} {z : Sender (HostFlow n)} {fs : List Flit}
    (h : x.Streams cfg o) (hv : x.tx.frame.Valid) (ha : x.tx.Aims cfg)
    (hz : Sender.Step (hostPackerRules cfg) tick x.tx z) (hs : z.sent = x.tx.sent ++ fs) :
    Streams cfg { x with tx := z, out := x.out ++ fs } o where
  out  := by
    refine h.out.append (hz.linked hs hv fun he _ => ?_)
    obtain ⟨d, hd, -⟩ := ha he
    exact ⟨d, hd.core⟩
  prev := h.prev
  inp  := h.inp

theorem Step.orderly (hn : n ≤ noDevice) (h : Step cfg x y) (hx : x.Orderly cfg) : y.Orderly cfg := by
  obtain ⟨o, ho⟩ := hx.streams
  cases h
  case arriveSingle m hm =>
    exact ⟨hx.valid, hx.sorted.consSingle hm, hx.aims, ⟨o, ho.out, ho.prev, ho.inp⟩, hx.packed, hx.sent⟩
  case arriveHdr m hm =>
    exact ⟨hx.valid, hx.sorted.consHdr hm, hx.aims, ⟨o, ho.out, ho.prev, ho.inp⟩, hx.packed, hx.sent⟩
  case credit flow hf =>
    have haims : Sender.Aims cfg { x.tx with flow } := by
      intro he
      obtain ⟨d, hd, hu⟩ := hx.aims he
      exact ⟨d, hd, hf.trans hu⟩
    exact ⟨hx.valid, ⟨hx.sorted.single, hx.sorted.hdr⟩, haims, ⟨o, ho.out, ho.prev, ho.inp⟩, hx.packed, hx.sent⟩
  case pack tick z fs hz hs =>
    refine ⟨(hz.weight hs hx.valid).right.left, hz.sorted hx.sorted, hz.aims hn hx.aims,
      ⟨o, ho.pack hx.valid hx.aims hz hs⟩, fun b => ?_, fun d b => ?_⟩
    case _ => simpa [hs] using hz.starts hs hx.sorted hx.valid b (hx.packed b)
    case _ => simp [hs, ← hx.sent d b]
  case route f rest d hout hd =>
    obtain ⟨fr, hf, hstreams⟩ := ho.route hout hd
    refine ⟨hx.valid, hx.sorted, hx.aims, ⟨_, hstreams⟩, hx.packed, fun i b => ?_⟩
    rw [← hx.sent i b, hout, List.flatMap_cons, List.filter_append, hf.left.filter_starts hf.right]
    by_cases hi : i = d
    case neg => simp [hi]
    case pos =>
      subst hi
      simp
  case unpack d f rest u hinp hu =>
    refine ⟨hx.valid, hx.sorted, hx.aims, ⟨o, ho.unpack hinp hu⟩, hx.packed, fun i b => ?_⟩
    rw [← hx.sent i b]
    by_cases hi : i = d
    case neg => simp [hi]
    case pos =>
      subst hi
      simp [hinp, hu.starts b]
  case take d single hdr =>
    have hrx (i : Fin n) : (Function.update x.rx d { x.rx d with single, hdr } i).deframer =
        (x.rx i).deframer := by
      by_cases hi : i = d
      case neg => simp [hi]
      case pos =>
        subst hi
        simp
    refine ⟨hx.valid, hx.sorted, hx.aims, ⟨o, ho.out, ho.prev, fun i => ?_⟩, hx.packed, fun i b => ?_⟩
    case _ => simpa only [hrx] using ho.inp i
    case _ => simpa only [Receiver.starts, hrx] using hx.sent i b

theorem init_orderly : (init cfg).Orderly cfg where
  valid   := Frame.fresh_valid _ (Nat.zero_le 4)
  sorted  := ⟨fun m hm => absurd hm (Multiset.notMem_zero m), fun m hm => absurd hm (Multiset.notMem_zero m)⟩
  aims    := fun he => absurd ⟨rfl, rfl, rfl⟩ he
  streams := by
    refine ⟨none, .nil, fun _ _ h => absurd h (Option.some_ne_none _).symm,
      fun d => ⟨none, Receiver.init_awaits, ?_⟩⟩
    rw [ite_self]
    exact .nil
  packed  := fun hasData => by cases hasData <;> rfl
  sent    := fun d hasData => by cases hasData <;> rfl

theorem Steps.orderly (hn : n ≤ noDevice) (h : Steps cfg x y) (hx : x.Orderly cfg) : y.Orderly cfg := by
  induction h
  case refl        => exact hx
  case tail _ h ih => exact h.orderly hn ih

-- The next flit is one that the device can read.
theorem Orderly.readable {d : Fin n} {f : Flit} {rest : List Flit} (h : x.Orderly cfg)
    (hi : x.inp d = f :: rest) : f.IsFrameFor .m2s (x.rx d) := by
  obtain ⟨o, ho⟩ := h.streams
  obtain ⟨o', ha, hl⟩ := ho.inp d
  rw [hi] at hl
  obtain ⟨fr, hf, rfl, -⟩ := hl.uncons
  exact hf.left.isFrameFor ha

-- What is on its way has been sent.
theorem Orderly.mem_sent {d : Fin n} {hasData : Bool} {m : Message} (h : x.Orderly cfg)
    (hm : m ∈ (x.inp d).flatMap (Flit.starts .m2s hasData) ++
      (x.out.flatMap (Flit.starts .m2s hasData)).filter (·.isFor cfg d)) :
    m ∈ x.tx.sent.flatMap (Flit.starts .m2s hasData) ∧ m.isFor cfg d := by
  rw [← List.mem_filter, ← h.sent d hasData, List.append_assoc]
  exact List.mem_append_right _ hm

-- The requests to a device, in the order in which they were packed: those that it has read, those that are
-- on their way, and those of the frame.
theorem Orderly.requests (h : x.Orderly cfg) (d : Fin n) (hasData : Bool) :
    (x.tx.packed.filter (·.IsRequest cfg d hasData)).map Message.core =
      (x.rx d).starts hasData ++ ((x.inp d).flatMap (Flit.starts .m2s hasData) ++
        (x.out.flatMap (Flit.starts .m2s hasData)).filter (·.isFor cfg d) ++
        ((frameStarts hasData x.tx.frame).map Message.core).filter (·.isFor cfg d)) := by
  have hfilter : x.tx.packed.filter (·.IsRequest cfg d hasData) =
      (x.tx.packed.filter (·.opCode = Dir.op .m2s hasData)).filter (·.isFor cfg d) := by
    rw [List.filter_filter]
    exact List.filter_congr fun m _ => by simp [Message.isRequest_iff, Bool.and_comm]
  have hcore (ms : List Message) :
      (ms.filter (·.isFor cfg d)).map Message.core = (ms.map Message.core).filter (·.isFor cfg d) := by
    rw [List.filter_map]
    rfl
  rw [hfilter, hcore, h.packed, List.filter_append, ← h.sent d]
  simp only [List.append_assoc]

end Downlink

end CXL
