import VldbArtifacts.CXLSim.Theorems.Links
import VldbArtifacts.CXLSim.Theorems.Ports

-- The way from the devices to the host. The arbiter merges the flits of the devices such that the data of
-- a response follows its header.

namespace CXL

open Framing

variable {n : Nat} {cfg : Config n} {tick : Int} {own : Fin n → Message → Prop}

-- What waits in a device and what it packs satisfies `P`.
structure Sender.Owns (P : Message → Prop) (x : Sender DeviceFlow) : Prop where
  waiting : ∀ m ∈ x.single + x.hdr, P m
  frame   : x.frame.All P

namespace Sender.Owns

variable {P : Message → Prop} {x : Sender DeviceFlow} {m : Message}

theorem consSingle (h : x.Owns P) (hm : P m) :
    Sender.Owns P { x with single := m ::ₘ x.single } := by
  refine ⟨?_, h.frame⟩
  rw [Multiset.cons_add]
  exact Multiset.forall_mem_cons.mpr ⟨hm, h.waiting⟩

theorem consHdr (h : x.Owns P) (hm : P m) :
    Sender.Owns P { x with hdr := m ::ₘ x.hdr } := by
  refine ⟨?_, h.frame⟩
  rw [Multiset.add_cons]
  exact Multiset.forall_mem_cons.mpr ⟨hm, h.waiting⟩

end Sender.Owns

structure Sender.Orderly (P : Message → Prop) (x : Sender DeviceFlow) : Prop where
  valid  : x.frame.Valid
  sorted : x.Sorted .s2m
  owns   : x.Owns P
  -- What was packed is in the flits that were sent or in the frame.
  packed : ∀ hasData, (x.packed.filter (·.opCode = Dir.op .s2m hasData)).map Message.core =
    x.sent.flatMap (Flit.starts .s2m hasData) ++ (frameStarts hasData x.frame).map Message.core

theorem Sender.Step.owns {rules : PackerRules .s2m DeviceFlow} {P : Message → Prop} {x y : Sender DeviceFlow}
    (h : Step rules tick x y) (hx : x.Owns P) : y.Owns P := by
  cases h
  case single m _ _ _ hh _ hm _ _ _ =>
    have hw := hx.waiting
    rw [hm, Multiset.cons_add] at hw
    refine ⟨fun m' hm' => hw m' (Multiset.mem_cons_of_mem hm'), ?_⟩
    exact hx.frame.addSingle hh (hw m (Multiset.mem_cons_self m _))
  case hdr m _ _ _ hh _ hm _ _ _ =>
    have hw := hx.waiting
    rw [hm, Multiset.add_cons] at hw
    refine ⟨fun m' hm' => hw m' (Multiset.mem_cons_of_mem hm'), ?_⟩
    exact hx.frame.addHdr (hw m (Multiset.mem_cons_self m _))
  case emit => exact ⟨hx.waiting, hx.frame.next⟩
  all_goals exact ⟨hx.waiting, hx.frame⟩

theorem Sender.Step.orderly {P : Message → Prop} {x y : Sender DeviceFlow}
    (h : Step (devicePackerRules cfg) tick x y) (hx : x.Orderly P) : y.Orderly P := by
  obtain ⟨fs, hs⟩ := h.sent_append
  refine ⟨(h.weight hs hx.valid).right.left, h.sorted hx.sorted, h.owns hx.owns, fun b => ?_⟩
  rw [hs, List.flatMap_append]
  exact h.starts hs hx.sorted hx.valid b (hx.packed b)

namespace Uplink

variable {x y : Uplink n}

-- The switch counts the slots of the flit as they are.
def ShowsFor (own : Fin n → Message → Prop) (d : Fin n) (f : Flit) (fr : Frame Message) : Prop :=
  f.Shows .s2m fr ∧ fr.All (own d) ∧ f.roll fr.owed = fr.nextOwed

def ShowsForOne (own : Fin n → Message → Prop) (f : Flit) (fr : Frame Message) : Prop :=
  f.Shows .s2m fr ∧ ∃ d, fr.All (own d)

-- The flits of a device follow one another, and so do the merged flits. What is owed at the arbiter is
-- owed by the device at the current port.
structure Streams (own : Fin n → Message → Prop) (x : Uplink n) (o : Option (Nat × Message)) : Prop where
  out      : ∀ d : Fin n, Linked (ShowsFor own d) (if x.port = d.val then o else none) (x.out d)
    ((x.tx d).frame.map Message.core).before
  moved    : Linked (fun p fr => ShowsFor own p.1 p.2 fr) none x.moved o
  movedOf  : ∀ d : Fin n, Linked (ShowsFor own d) none (Ports.movedOf d x.moved)
    (if x.port = d.val then o else none)
  inp      : ∃ o', x.rx.deframer.Awaits Message.msgId o' ∧ Linked (ShowsForOne own) o' x.inp o
  expected : x.expected = owedOf o
  some     : ∀ k m, o = some (k, m) → k ≠ 0

-- Another device has its turn only when nothing is owed.
def Settles (xs : List (Fin n × Flit)) : Prop :=
  ∀ pre p q post, xs = pre ++ p :: q :: post → p.1 ≠ q.1 → flitWeight .s2m ((pre ++ [p]).map Prod.snd) = 0

theorem Settles.concat {xs : List (Fin n × Flit)} {p : Fin n × Flit} (h : Settles xs)
    (hp : ∀ q ∈ xs.getLast?, q.1 ≠ p.1 → flitWeight .s2m (xs.map Prod.snd) = 0) : Settles (xs ++ [p]) := by
  intro pre q r post heq hne
  rcases List.eq_nil_or_concat post with rfl | ⟨post, r', rfl⟩
  case _ =>
    have hsplit : xs ++ [p] = (pre ++ [q]) ++ [r] := by simpa using heq
    obtain ⟨rfl, hr⟩ := List.append_inj' hsplit rfl
    cases hr
    exact hp q (by simp) hne
  case _ =>
    have hsplit : xs ++ [p] = (pre ++ q :: r :: post) ++ [r'] := by simpa using heq
    exact h pre q r post (List.append_inj' hsplit rfl).left hne

structure Orderly (own : Fin n → Message → Prop) (x : Uplink n) : Prop where
  tx      : ∀ d, (x.tx d).Orderly (own d)
  streams : ∃ o, x.Streams own o
  -- The device of the last flit keeps its turn as long as it owes data.
  last    : ∀ p ∈ x.moved.getLast?, x.expected ≠ 0 → x.port = p.1.val
  settles : Settles x.moved
  -- What a device sent has been moved, in this order, or waits for it.
  sent    : ∀ d, Ports.movedOf d x.moved ++ x.out d = (x.tx d).sent
  -- What was moved has been read by the host or is on its way.
  read    : ∀ hasData, x.rx.starts hasData ++ x.inp.flatMap (Flit.starts .s2m hasData) =
    x.moved.flatMap fun p => p.2.starts .s2m hasData

theorem Streams.move {o : Option (Nat × Message)} {f : Flit} {rest : List Flit} {d : Fin n}
    (h : x.Streams own o) (hp : x.port = d.val) (hout : x.out d = f :: rest) :
    ∃ fr, ShowsFor own d f fr ∧ Streams own { x with
      out      := Function.update x.out d rest
      inp      := x.inp ++ [f]
      expected := f.header.slots.foldl CXLSwitch.countRollover x.expected
      moved    := x.moved ++ [(d, f)] } fr.after := by
  have hlinked := h.out d
  rw [hout, if_pos hp] at hlinked
  obtain ⟨fr, hf, hbefore, hrest⟩ := hlinked.uncons
  subst hbefore
  -- The other devices are not at the current port.
  have hother {i : Fin n} (hi : i ≠ d) : x.port ≠ i.val := fun hx => hi (Fin.ext (hx.symm.trans hp))
  refine ⟨fr, hf, fun i => ?_, h.moved.concat hf, fun i => ?_, ?_, ?_, fun k m ho => ?_⟩
  case _ =>
    by_cases hi : i = d
    case pos =>
      subst hi
      simpa [hp] using hrest
    case neg => simpa [hi, hother hi] using h.out i
  case _ =>
    have hm := h.movedOf i
    dsimp only
    rw [Ports.movedOf_concat]
    by_cases hi : d = i
    case pos =>
      subst hi
      rw [if_pos hp] at hm
      rw [if_pos rfl, if_pos hp]
      exact hm.concat hf
    case neg =>
      rw [if_neg (hother (Ne.symm hi))] at hm
      rw [if_neg hi, if_neg (hother (Ne.symm hi))]
      exact hm
  case _ =>
    obtain ⟨o', ha, hi⟩ := h.inp
    exact ⟨o', ha, hi.concat (show ShowsForOne own f fr from ⟨hf.left, d, hf.right.left⟩)⟩
  case _ =>
    have he := h.expected
    rw [Frame.before, owedOf_due] at he
    rw [Frame.after, owedOf_due, ← hf.right.right, ← he]
    rfl
  case _ =>
    obtain ⟨hne, hk, -⟩ := due_eq_some.mp ho
    exact hk ▸ hne

theorem Streams.turn {o : Option (Nat × Message)} (h : x.Streams own o) (he : x.expected = 0) (port : Nat) :
    Streams own { x with port } o := by
  obtain rfl : o = none := (owedOf_eq_zero h.some).mp (h.expected.symm.trans he)
  refine ⟨fun d => ?_, h.moved, fun d => ?_, h.inp, h.expected, h.some⟩
  case _ => simpa only [ite_self] using h.out d
  case _ => simpa only [ite_self] using h.movedOf d

theorem Streams.unpack {o : Option (Nat × Message)} {f : Flit} {rest : List Flit} {u : Receiver}
    (h : x.Streams own o) (hinp : x.inp = f :: rest) (hu : x.rx.Reads .s2m f u) :
    Streams own { x with inp := rest, rx := u } o where
  out      := h.out
  moved    := h.moved
  movedOf  := h.movedOf
  inp      := by
    obtain ⟨o', ha, hi⟩ := h.inp
    rw [hinp] at hi
    obtain ⟨fr, hf, rfl, hrest⟩ := hi.uncons
    exact ⟨fr.after, hu.awaits hf.left ha, hrest⟩
  expected := h.expected
  some     := h.some

theorem Streams.pack {o : Option (Nat × Message)} {d : Fin n} {z : Sender DeviceFlow} {fs : List Flit}
    (h : x.Streams own o) (hcore : ∀ d m, own d m → own d m.core) (hv : (x.tx d).frame.Valid) (ho : (x.tx d).Owns (own d))
    (hz : Sender.Step (devicePackerRules cfg) tick (x.tx d) z) (hs : z.sent = (x.tx d).sent ++ fs) :
    Streams own { x with
      tx := Function.update x.tx d z, out := Function.update x.out d (x.out d ++ fs) } o where
  out i    := by
    by_cases hi : i = d
    case neg => simpa [hi] using h.out i
    case pos =>
      subst hi
      have hl := hz.linked (P := fun f fr => fr.All (own i) ∧ f.roll fr.owed = fr.nextOwed) hs hv
        fun he c => ⟨ho.frame.map (hcore i), by rw [Frame.map_nextOwed]; exact roll_frameFlit cfg hv he c⟩
      simpa using (h.out i).append hl
  moved    := h.moved
  movedOf  := h.movedOf
  inp      := h.inp
  expected := h.expected
  some     := h.some

-- The channels and the credits of a device change at any time.
theorem Orderly.update {d : Fin n} {z : Sender DeviceFlow} (h : x.Orderly own) (hz : z.Orderly (own d))
    (hf : z.frame = (x.tx d).frame) (hs : z.sent = (x.tx d).sent) :
    Orderly own { x with tx := Function.update x.tx d z } := by
  have hframe (i : Fin n) : (Function.update x.tx d z i).frame = (x.tx i).frame :=
    Function.forall_update_iff x.tx (fun i y => y.frame = (x.tx i).frame) |>.mpr ⟨hf, fun _ _ => rfl⟩ i
  have hsent (i : Fin n) : (Function.update x.tx d z i).sent = (x.tx i).sent :=
    Function.forall_update_iff x.tx (fun i y => y.sent = (x.tx i).sent) |>.mpr ⟨hs, fun _ _ => rfl⟩ i
  obtain ⟨o, ho⟩ := h.streams
  refine ⟨?_, ⟨o, fun i => ?_, ho.moved, ho.movedOf, ho.inp, ho.expected, ho.some⟩, h.last, h.settles,
    fun i => ?_, h.read⟩
  case _ => exact (Function.forall_update_iff x.tx (fun i y => y.Orderly (own i))).mpr ⟨hz, fun i _ => h.tx i⟩
  case _ => simpa only [hframe] using ho.out i
  case _ => simpa only [hsent] using h.sent i

theorem Orderly.pack {d : Fin n} {z : Sender DeviceFlow} {fs : List Flit} (h : x.Orderly own)
    (hcore : ∀ d m, own d m → own d m.core)
    (hz : Sender.Step (devicePackerRules cfg) tick (x.tx d) z) (hs : z.sent = (x.tx d).sent ++ fs) :
    Orderly own { x with
      tx := Function.update x.tx d z, out := Function.update x.out d (x.out d ++ fs) } := by
  obtain ⟨o, ho⟩ := h.streams
  refine ⟨?_, ⟨o, ho.pack hcore (h.tx d).valid (h.tx d).owns hz hs⟩, h.last, h.settles, fun i => ?_, h.read⟩
  case _ =>
    exact (Function.forall_update_iff x.tx (fun i y => y.Orderly (own i))).mpr
      ⟨hz.orderly (h.tx d), fun i _ => h.tx i⟩
  case _ =>
    have hi := h.sent i
    by_cases hd : i = d
    case neg => simpa [hd] using hi
    case pos =>
      subst hd
      simp [hs, ← hi]

theorem Step.orderly (hcore : ∀ d m, own d m → own d m.core) (h : Step cfg own x y) (hx : x.Orderly own) :
    y.Orderly own := by
  obtain ⟨o, ho⟩ := hx.streams
  cases h
  case arriveSingle d m hm hd =>
    have hd' := hx.tx d
    exact hx.update ⟨hd'.valid, hd'.sorted.consSingle hm, hd'.owns.consSingle hd, hd'.packed⟩ rfl rfl
  case arriveHdr d m hm hd =>
    have hd' := hx.tx d
    exact hx.update ⟨hd'.valid, hd'.sorted.consHdr hm, hd'.owns.consHdr hd, hd'.packed⟩ rfl rfl
  case credit d flow =>
    have hd' := hx.tx d
    exact hx.update ⟨hd'.valid, ⟨hd'.sorted.single, hd'.sorted.hdr⟩, ⟨hd'.owns.waiting, hd'.owns.frame⟩,
      hd'.packed⟩ rfl rfl
  case pack d tick z fs hz hs => exact hx.pack hcore hz hs
  case turn he => exact ⟨hx.tx, ⟨o, ho.turn he _⟩, fun _ _ hne => absurd he hne, hx.settles, hx.sent, hx.read⟩
  case move f rest d hp hout =>
    obtain ⟨fr, -, hstreams⟩ := ho.move hp hout
    refine ⟨hx.tx, ⟨_, hstreams⟩, fun p hm _ => ?_, hx.settles.concat fun q hq hne => ?_, fun i => ?_, fun b => ?_⟩
    case _ =>
      cases Option.some.inj (List.getLast?_concat ▸ hm)
      exact hp
    case _ =>
      -- The last flit is not one of the device at the port, so that nothing is owed.
      have h₀ : x.expected = 0 := by_contra fun he => hne (Fin.ext ((hx.last q hq he).symm.trans hp))
      have hw := Linked.weight (fun _ _ hs => hs.left) ho.moved
      rw [hw, ← ho.expected, h₀]
      rfl
    case _ =>
      dsimp only
      rw [← hx.sent i, Ports.movedOf_concat]
      by_cases hi : i = d
      case neg => simp [hi, Ne.symm hi]
      case pos =>
        subst hi
        simp [hout]
    case _ => simp [← List.append_assoc, hx.read b]
  case unpack f rest u hinp hu =>
    refine ⟨hx.tx, ⟨o, ho.unpack hinp hu⟩, hx.last, hx.settles, hx.sent, fun b => ?_⟩
    rw [← hx.read b, hinp, hu.starts b, List.flatMap_cons, List.append_assoc]
  case take single hdr =>
    exact ⟨hx.tx, ⟨o, ho.out, ho.moved, ho.movedOf, ho.inp, ho.expected, ho.some⟩, hx.last,
      hx.settles, hx.sent, hx.read⟩

theorem init_orderly : (init cfg).Orderly own where
  tx d := {
    valid  := Frame.fresh_valid _ (Nat.zero_le 4)
    sorted := ⟨fun m hm => absurd hm (Multiset.notMem_zero m), fun m hm => absurd hm (Multiset.notMem_zero m)⟩
    owns   := ⟨fun m hm => absurd hm (Multiset.notMem_zero m), .of_isEmpty ⟨rfl, rfl, rfl⟩⟩
    packed := fun hasData => by cases hasData <;> rfl }
  streams := by
    refine ⟨none, fun d => ?_, .nil, fun d => ?_, ⟨none, Receiver.init_awaits, .nil⟩, rfl,
      fun _ _ h => absurd h (Option.some_ne_none _).symm⟩
    all_goals
      rw [ite_self]
      exact .nil
  last p hp := absurd hp (Option.not_mem_none p)
  settles pre p q post h := absurd h (by simp [init])
  sent d := rfl
  read hasData := by cases hasData <;> rfl

theorem Steps.orderly (hcore : ∀ d m, own d m → own d m.core) (h : Steps cfg own x y) (hx : x.Orderly own) :
    y.Orderly own := by
  induction h
  case refl        => exact hx
  case tail _ h ih => exact h.orderly hcore ih

-- The next flit is one that the host can read.
theorem Orderly.readable {f : Flit} {rest : List Flit} (h : x.Orderly own) (hi : x.inp = f :: rest) :
    f.IsFrameFor .s2m x.rx := by
  obtain ⟨o, ho⟩ := h.streams
  obtain ⟨o', ha, hl⟩ := ho.inp
  rw [hi] at hl
  obtain ⟨fr, hf, rfl, -⟩ := hl.uncons
  exact hf.left.isFrameFor ha

-- If the devices keep to their own addresses, then it belongs to one device.
theorem Orderly.slotsDevice {f : Flit} (h : x.Orderly fun d m => m.isFor cfg d) (hf : f ∈ x.inp) :
    ∃ d : Fin n, slotsDevice cfg f.slots noDevice = .ok d.val := by
  obtain ⟨o, ho⟩ := h.streams
  obtain ⟨o', -, hl⟩ := ho.inp
  obtain ⟨fr, hs, d, hd⟩ := hl.exists_of_mem hf
  exact ⟨d, hs.slotsDevice hd⟩

end Uplink

end CXL
