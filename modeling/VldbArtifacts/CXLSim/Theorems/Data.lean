import Mathlib.Algebra.Order.BigOperators.Group.Finset
import Mathlib.Data.Int.ModEq
import Mathlib.Data.Multiset.OrderedMonoid
import VldbArtifacts.CXLSim.Theorems.Ledger

-- No data slot is lost: what a packer owes is what the flits and the unpackers behind it expect.

namespace CXL

open Framing

variable {dir : Dir} {f : Flit}

-- The data that a flit calls for, without the data that it carries.
def Flit.weight (dir : Dir) (f : Flit) : Int :=
  4 * (f.hdrs dir).length - (f.cells dir).countP Cell.isData

def flitWeight (dir : Dir) (fs : List Flit) : Int :=
  (fs.map (Flit.weight dir)).sum

-- A flit that a packer has made.
def Flit.IsMade {σ : Type} (rules : PackerRules dir σ) (f : Flit) : Prop :=
  ∃ fr c, fr.Valid ∧ ¬fr.IsEmpty ∧ f = frameFlit rules fr c

section Flits

@[simp]
theorem flitWeight_nil : flitWeight dir [] = 0 :=
  rfl

@[simp]
theorem flitWeight_cons (fs : List Flit) :
    flitWeight dir (f :: fs) = f.weight dir + flitWeight dir fs := by
  simp [flitWeight]

@[simp]
theorem flitWeight_append (fs gs : List Flit) :
    flitWeight dir (fs ++ gs) = flitWeight dir fs + flitWeight dir gs := by
  simp [flitWeight]

theorem Flit.weight_frame {fr : Frame Message} (hv : fr.Valid)
    (hf : f.slots = (frameSlots dir fr).map Slot.core) : f.weight dir = fr.nextOwed - fr.owed := by
  have hc := Frame.countP_data_cells Message.msgId _ (Frame.map_valid Message.core hv)
  have hh : (fr.map Message.core).hdr.toList.length = fr.hdr.toList.length := by
    cases h : fr.hdr <;> simp [Frame.map, h]
  have ho : (fr.map Message.core).owed = fr.owed := rfl
  simp only [weight, hdrs, frame_cells hf, Frame.filterMap_hdr_cells, hh, ho,
    Frame.map_nextOwed] at hc ⊢
  omega

end Flits

theorem Sender.Step.weight {σ : Type} {rules : PackerRules dir σ} {tick : Int} {x y : Sender σ}
    {fs : List Flit} (h : Step rules tick x y) (hs : y.sent = x.sent ++ fs) (hv : x.frame.Valid) :
    flitWeight dir fs + x.frame.owed = y.frame.owed ∧ y.frame.Valid ∧ ∀ f ∈ fs, f.IsMade rules := by
  cases h
  case emit c _ _ hn _ _ _ =>
    have hfs : fs = [frameFlit rules x.frame c] := (List.append_cancel_left hs).symm
    have hw : (frameFlit rules x.frame c).weight dir = _ := Flit.weight_frame hv rfl
    have ho : x.frame.next.owed = x.frame.nextOwed := rfl
    refine ⟨?_, hv.next, ?_⟩
    case _ => simp [hfs, hw, ho]
    case _ =>
      rintro f hf
      cases List.mem_singleton.mp (hfs ▸ hf)
      exact ⟨x.frame, c, hv, hn, rfl⟩
  case single _ hv' _ _ _ _ =>
    have hfs : fs = [] := by simpa using hs
    exact ⟨by simp [hfs, Frame.addSingle], hv', by simp [hfs]⟩
  case hdr _ hv' _ _ _ _ =>
    have hfs : fs = [] := by simpa using hs
    exact ⟨by simp [hfs, Frame.addHdr], hv', by simp [hfs]⟩
  all_goals
    have hfs : fs = [] := by simpa using hs
    exact ⟨by simp [hfs], hv, by simp [hfs]⟩

theorem Receiver.Reads.weight {u u' : Receiver} (h : u.Reads dir f u') :
    (u'.deframer.owed : Int) = u.deframer.owed + f.weight dir := by
  have hd := (Deframer.receiveFrame_received h.deframer).data
  simp only [Flit.weight, Flit.hdrs]
  omega

section Rollover

-- The switch counts in unsigned arithmetic.
theorem foldl_countRollover_modEq (ts : List SlotType) (r : Nat) :
    ((ts.foldl CXLSwitch.countRollover r : Nat) : Int) ≡
      r + 4 * ts.count .s2mDrsHdr - ts.count .data [ZMOD 2 ^ 64] := by
  induction ts generalizing r
  case nil => simp [Int.ModEq]
  case cons t ts ih =>
    have h := ih (CXLSwitch.countRollover r t)
    rw [List.foldl_cons]
    cases t <;> simp only [CXLSwitch.countRollover, Int.ModEq, List.count_cons, beq_iff_eq,
      reduceCtorEq, if_true, if_false] at h ⊢ <;> omega

theorem foldl_countRollover_lt (ts : List SlotType) {r : Nat} (h : r < 2 ^ 64) :
    ts.foldl CXLSwitch.countRollover r < 2 ^ 64 := by
  induction ts generalizing r
  case nil          => exact h
  case cons t ts ih =>
    apply ih
    cases t <;> simp only [CXLSwitch.countRollover] <;> omega

theorem count_frameMarks (slots : List Slot) {t : SlotType} (h : t ≠ .m2sReq) (he : t ≠ .empty) :
    (frameMarks true slots).count t = slots.countP (·.type == t) := by
  simp only [frameMarks, ↓reduceIte, List.count, List.countP_map]
  congr 1
  funext s
  by_cases hs : s.type = .empty
  case pos => simp [hs, h.symm, he.symm]
  case neg => simp [hs]

-- The record of slot types in the header of a device's flit tells its weight.
theorem Flit.IsMade.count_marks {n : Nat} {cfg : Config n} (h : f.IsMade (devicePackerRules cfg)) :
    (4 * f.header.slots.count .s2mDrsHdr - f.header.slots.count .data : Int) = f.weight .s2m := by
  obtain ⟨fr, c, _, _, rfl⟩ := h
  have hh := countP_hdr_cells .s2m (frameFlit (devicePackerRules cfg) fr c).slots
  have hd := countP_data_cells .s2m (frameFlit (devicePackerRules cfg) fr c).slots
  have ht (t : SlotType) : (frameFlit (devicePackerRules cfg) fr c).slots.countP (·.type == t) =
      (frameSlots .s2m fr).countP (·.type == t) := by
    simp only [frameFlit, List.countP_map]
    rfl
  rw [ht] at hh hd
  have hh' := count_frameMarks (frameSlots .s2m fr) (t := .s2mDrsHdr) (by simp) (by simp)
  have hd' := count_frameMarks (frameSlots .s2m fr) (t := .data) (by simp) (by simp)
  rw [Flit.weight, Flit.hdrs, Flit.cells, ← hh, ← hd, ← hd', Dir.hdr, ← hh']
  rfl

end Rollover

section Nodes

variable {n : Nat} {cfg : Config n}

theorem HostNode.Step.weight {x y : HostNode n} (h : Step cfg x y) (hv : x.tx.frame.Valid)
    (ho : ∀ f ∈ x.out, f.IsMade (hostPackerRules cfg)) :
    y.tx.frame.Valid ∧ (∀ f ∈ y.out, f.IsMade (hostPackerRules cfg)) ∧ (∀ f ∈ y.inp, f ∈ x.inp) ∧
    flitWeight .m2s y.out - y.tx.frame.owed = flitWeight .m2s x.out - x.tx.frame.owed ∧
    flitWeight .s2m y.inp + y.rx.deframer.owed = flitWeight .s2m x.inp + x.rx.deframer.owed := by
  cases h
  case pack hs hf =>
    have ⟨hw, hv', hm⟩ := hs.weight hf hv
    refine ⟨hv', ?_, fun _ => id, ?_, rfl⟩
    case _ => exact fun f hf => (List.mem_append.mp hf).elim (ho f) (hm f)
    case _ => simp only [flitWeight_append]; omega
  case unpack hi _ hr =>
    have hw := hr.weight
    refine ⟨hv, ho, by simp +contextual [hi], rfl, ?_⟩
    simp only [hi, flitWeight_cons]
    omega
  all_goals exact ⟨hv, ho, fun _ => id, rfl, rfl⟩

theorem DeviceNode.Step.weight {x y : DeviceNode} (h : Step cfg x y) (hv : x.tx.frame.Valid)
    (ho : ∀ f ∈ x.out, f.IsMade (devicePackerRules cfg)) :
    y.tx.frame.Valid ∧ (∀ f ∈ y.out, f.IsMade (devicePackerRules cfg)) ∧ (∀ f ∈ y.inp, f ∈ x.inp) ∧
    flitWeight .s2m y.out - y.tx.frame.owed = flitWeight .s2m x.out - x.tx.frame.owed ∧
    flitWeight .m2s y.inp + y.rx.deframer.owed = flitWeight .m2s x.inp + x.rx.deframer.owed := by
  cases h
  case pack hs hf =>
    have ⟨hw, hv', hm⟩ := hs.weight hf hv
    refine ⟨hv', ?_, fun _ => id, ?_, rfl⟩
    case _ => exact fun f hf => (List.mem_append.mp hf).elim (ho f) (hm f)
    case _ => simp only [flitWeight_append]; omega
  case unpack hi hr =>
    have hw := hr.weight
    refine ⟨hv, ho, by simp +contextual [hi], rfl, ?_⟩
    simp only [hi, flitWeight_cons]
    omega
  all_goals exact ⟨hv, ho, fun _ => id, rfl, rfl⟩

end Nodes

section Net

variable {n : Nat} {cfg : Config n} {x y : Net n}

structure Net.Conserves (cfg : Config n) (x : Net n) : Prop where
  hostFrame : x.host.tx.frame.Valid
  devFrame  : ∀ d, (x.dev d).tx.frame.Valid
  hostOut   : ∀ f ∈ x.host.out, f.IsMade (hostPackerRules cfg)
  devInp    : ∀ d, ∀ f ∈ (x.dev d).inp, f.IsMade (hostPackerRules cfg)
  devOut    : ∀ d, ∀ f ∈ (x.dev d).out, f.IsMade (devicePackerRules cfg)
  hostInp   : ∀ f ∈ x.host.inp, f.IsMade (devicePackerRules cfg)
  down      : flitWeight .m2s x.host.out +
                ∑ d, (flitWeight .m2s (x.dev d).inp + (x.dev d).rx.deframer.owed) =
              x.host.tx.frame.owed
  up        : ∑ d, (flitWeight .s2m (x.dev d).out - (x.dev d).tx.frame.owed) +
                flitWeight .s2m x.host.inp + x.host.rx.deframer.owed = 0
  expected  : (x.expected : Int) ≡ flitWeight .s2m x.host.inp + x.host.rx.deframer.owed
                [ZMOD 2 ^ 64]
  range     : x.expected < 2 ^ 64

theorem Net.Step.conserves (h : Step cfg x y) (hc : x.Conserves cfg) : y.Conserves cfg := by
  cases h
  case host hs =>
    have ⟨hv, ho, hi, hw, hw'⟩ := hs.weight hc.hostFrame hc.hostOut
    have hdown := hc.down
    have hup := hc.up
    exact { hc with
      hostFrame := hv
      hostOut   := ho
      hostInp   := fun f hf => hc.hostInp f (hi f hf)
      down      := by dsimp only; omega
      up        := by dsimp only; omega
      expected  := hw' ▸ hc.expected }
  case device d y hs =>
    have ⟨hv, ho, hi, hw, hw'⟩ := hs.weight (hc.devFrame d) (hc.devOut d)
    have hdown := Net.sum_setDev (fun y => flitWeight .m2s y.inp + (y.rx.deframer.owed : Int)) x d y
    have hup := Net.sum_setDev (fun y => flitWeight .s2m y.out - (y.tx.frame.owed : Int)) x d y
    exact { hc with
      devFrame  := (Function.forall_update_iff x.dev fun _ y => y.tx.frame.Valid).mpr
        ⟨hv, fun d _ => hc.devFrame d⟩
      devInp    := (Function.forall_update_iff x.dev fun _ y => ∀ f ∈ y.inp, f.IsMade _).mpr
        ⟨fun f hf => hc.devInp d f (hi f hf), fun d _ => hc.devInp d⟩
      devOut    := (Function.forall_update_iff x.dev fun _ y => ∀ f ∈ y.out, f.IsMade _).mpr
        ⟨ho, fun d _ => hc.devOut d⟩
      down      := by have := hc.down; dsimp only [setDev] at *; omega
      up        := by have := hc.up; dsimp only [setDev] at *; omega }
  case route f rest d ho _ =>
    have hf := hc.hostOut f (by simp [ho])
    have hdown := Net.sum_setDev (fun y => flitWeight .m2s y.inp + (y.rx.deframer.owed : Int)) x d
      { x.dev d with inp := (x.dev d).inp ++ [f] }
    have hup := Net.sum_setDev (fun y => flitWeight .s2m y.out - (y.tx.frame.owed : Int)) x d
      { x.dev d with inp := (x.dev d).inp ++ [f] }
    exact { hc with
      devFrame  := (Function.forall_update_iff x.dev fun _ y => y.tx.frame.Valid).mpr
        ⟨hc.devFrame d, fun d _ => hc.devFrame d⟩
      hostOut   := fun f hf => hc.hostOut f (by simp [ho, hf])
      devInp    := (Function.forall_update_iff x.dev fun _ y => ∀ f ∈ y.inp, f.IsMade _).mpr
        ⟨by simpa [or_imp, forall_and] using ⟨hc.devInp d, hf⟩, fun d _ => hc.devInp d⟩
      devOut    := (Function.forall_update_iff x.dev fun _ y => ∀ f ∈ y.out, f.IsMade _).mpr
        ⟨hc.devOut d, fun d _ => hc.devOut d⟩
      down      := by
        have := hc.down
        simp only [ho, flitWeight_cons, flitWeight_append, flitWeight_nil] at *
        dsimp only [setDev] at *
        omega
      up        := by have := hc.up; dsimp only [setDev] at *; omega }
  case turn => exact { hc with }
  case move f rest d _ ho =>
    have hf := hc.devOut d f (by simp [ho])
    have hdown := Net.sum_setDev (fun y => flitWeight .m2s y.inp + (y.rx.deframer.owed : Int)) x d
      { x.dev d with out := rest }
    have hup := Net.sum_setDev (fun y => flitWeight .s2m y.out - (y.tx.frame.owed : Int)) x d
      { x.dev d with out := rest }
    exact { hc with
      devFrame  := (Function.forall_update_iff x.dev fun _ y => y.tx.frame.Valid).mpr
        ⟨hc.devFrame d, fun d _ => hc.devFrame d⟩
      devInp    := (Function.forall_update_iff x.dev fun _ y => ∀ f ∈ y.inp, f.IsMade _).mpr
        ⟨hc.devInp d, fun d _ => hc.devInp d⟩
      devOut    := (Function.forall_update_iff x.dev fun _ y => ∀ f ∈ y.out, f.IsMade _).mpr
        ⟨fun f hf => hc.devOut d f (by simp [ho, hf]), fun d _ => hc.devOut d⟩
      hostInp   := by simpa [or_imp, forall_and] using ⟨hc.hostInp, hf⟩
      down      := by have := hc.down; dsimp only [setDev] at *; omega
      up        := by
        have := hc.up
        simp only [ho, flitWeight_cons, flitWeight_append, flitWeight_nil] at *
        dsimp only [setDev] at *
        omega
      expected  := by
        have hm := foldl_countRollover_modEq f.header.slots x.expected
        have := hc.expected
        have := hf.count_marks
        simp only [flitWeight_append, flitWeight_cons, flitWeight_nil, Int.ModEq] at *
        omega
      range     := foldl_countRollover_lt _ hc.range }

theorem Net.init_conserves : (init cfg).Conserves cfg where
  hostFrame := Frame.fresh_valid _ (by simp)
  devFrame _ := Frame.fresh_valid _ (by simp)
  hostOut   := by simp [init, HostNode.init]
  devInp    := by simp [init, DeviceNode.init]
  devOut    := by simp [init, DeviceNode.init]
  hostInp   := by simp [init, HostNode.init]
  down      := by simp [init, HostNode.init, DeviceNode.init, Receiver.init, Sender.init, Frame.fresh]
  up        := by simp [init, HostNode.init, DeviceNode.init, Receiver.init, Sender.init, Frame.fresh]
  expected  := by simp [init, HostNode.init, Receiver.init]
  range     := by simp [init]

theorem Net.Reachable.conserves (h : x.Reachable cfg) : x.Conserves cfg := by
  induction h
  case refl         => exact init_conserves
  case tail _ hs ih => exact hs.conserves ih

end Net

section Quiet

variable {n : Nat} {cfg : Config n} {x : Net n}

theorem Flit.IsMade.weight_neg {σ : Type} {rules : PackerRules dir σ} (h : f.IsMade rules)
    (ht : f.tags dir = 0) : f.weight dir < 0 := by
  obtain ⟨fr, c, hv, hn, rfl⟩ := h
  have hm : fr.messages = [] := by
    have := (Flit.tags_frame (f := frameFlit rules fr c) rfl).symm.trans ht
    simpa using this
  have ⟨hs, hh⟩ := List.append_eq_nil_iff.mp hm
  have hh : fr.hdr = none := by simpa using hh
  have ho : fr.nextOwed = 0 := by simp [Frame.nextOwed, hh]
  have hw : (frameFlit rules fr c).weight dir = _ := Flit.weight_frame hv rfl
  have : fr.owed ≠ 0 := fun ho => hn ⟨ho, hs, hh⟩
  omega

theorem flitWeight_nonpos {σ : Type} {rules : PackerRules dir σ} {fs : List Flit}
    (h : ∀ f ∈ fs, f.IsMade rules) (ht : flitTags dir fs = 0) :
    flitWeight dir fs ≤ 0 ∧ (flitWeight dir fs = 0 → fs = []) := by
  induction fs
  case nil => simp
  case cons f fs ih =>
    rw [flitTags_cons, add_eq_zero] at ht
    have hf := (h f (by simp)).weight_neg ht.left
    have ⟨hfs, _⟩ := ih (fun g hg => h g (by simp [hg])) ht.right
    rw [flitWeight_cons]
    exact ⟨by omega, by omega⟩

theorem Receiver.owed_of_unpacking {u : Receiver} (h : u.unpacking = 0) : u.deframer.owed = 0 := by
  by_contra ho
  simp [unpacking, Deframer.pending, ho] at h

-- Nothing is on its way.
structure Net.Quiet (x : Net n) : Prop where
  tags      : x.tags = 0
  hostOut   : x.host.out = []
  hostInp   : x.host.inp = []
  devInp    : ∀ d, (x.dev d).inp = []
  devOut    : ∀ d, (x.dev d).out = []
  hostOwed  : x.host.tx.frame.owed = 0 ∧ x.host.rx.deframer.owed = 0
  devOwed   : ∀ d, (x.dev d).tx.frame.owed = 0 ∧ (x.dev d).rx.deframer.owed = 0
  expected  : x.expected = 0

theorem Net.quiet (hc : x.Conserves cfg) (ht : x.tags = 0) : x.Quiet := by
  have hall := ht
  simp only [tags, HostNode.requests, HostNode.responses, add_eq_zero] at hall
  obtain ⟨⟨⟨⟨_, _⟩, hout⟩, hdev⟩, ⟨hinp, hu⟩, _⟩ := hall
  have hd (d : Fin n) : flitTags .m2s (x.dev d).inp = 0 ∧ (x.dev d).rx.unpacking = 0 ∧
      flitTags .s2m (x.dev d).out = 0 := by
    have := Finset.sum_eq_zero_iff.mp hdev d (Finset.mem_univ d)
    simp only [DeviceNode.tags, add_eq_zero] at this
    grind
  have hown := Receiver.owed_of_unpacking hu
  have howd (d : Fin n) := Receiver.owed_of_unpacking (hd d).right.left
  have hwo := flitWeight_nonpos hc.hostOut hout
  have hwi := flitWeight_nonpos hc.hostInp hinp
  have hwdi (d : Fin n) := flitWeight_nonpos (hc.devInp d) (hd d).left
  have hwdo (d : Fin n) := flitWeight_nonpos (hc.devOut d) (hd d).right.right
  have hdown := hc.down
  have hup := hc.up
  have hin (d : Fin n) : flitWeight .m2s (x.dev d).inp + (x.dev d).rx.deframer.owed ≤ 0 := by
    have := (hwdi d).left
    simp only [howd d]
    omega
  have hon (d : Fin n) : flitWeight .s2m (x.dev d).out - (x.dev d).tx.frame.owed ≤ 0 := by
    have := (hwdo d).left
    omega
  have hsi := Finset.sum_nonpos fun d (_ : d ∈ Finset.univ) => hin d
  have hso := Finset.sum_nonpos fun d (_ : d ∈ Finset.univ) => hon d
  have hzi := (Finset.sum_eq_zero_iff_of_nonpos (s := Finset.univ) fun d _ => hin d).mp (by omega)
  have hzo := (Finset.sum_eq_zero_iff_of_nonpos (s := Finset.univ) fun d _ => hon d).mp (by omega)
  have hmod := hc.expected
  have hrange := hc.range
  refine ⟨ht, hwo.right (by omega), hwi.right (by omega), fun d => (hwdi d).right ?_,
    fun d => (hwdo d).right ?_, ⟨by omega, hown⟩, fun d => ⟨?_, howd d⟩, ?_⟩
  case _ =>
    have := hzi d (Finset.mem_univ d)
    simpa [howd d] using this
  case _ =>
    have := hzo d (Finset.mem_univ d)
    have := (hwdo d).left
    omega
  case _ =>
    have := hzo d (Finset.mem_univ d)
    have := (hwdo d).left
    omega
  case _ =>
    simp only [Int.ModEq] at hmod
    omega

end Quiet

end CXL
