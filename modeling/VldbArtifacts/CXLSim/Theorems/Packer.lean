import VldbArtifacts.Lib.Sum
import VldbArtifacts.CXLSim.Shape
import VldbArtifacts.CXLSim.Theorems.Basic
import VldbArtifacts.CXLSim.Theorems.Frame

-- `FLIT_packer` does what the abstract packer does.

namespace CXL

open Framing

namespace VcArray

variable {size : Nat} {op : Opcode} {a : VcArray size op}

theorem mem_msgs {m : Message} : m ∈ a.msgs ↔ ∃ i, m ∈ (a.vcs i).q := by
  simp [msgs, Multiset.mem_sum]

theorem opCode_of_mem {m : Message} (h : m ∈ a.msgs) : m.opCode = op := by
  have ⟨i, hi⟩ := mem_msgs.mp h
  exact a.opCode_eq i m hi

theorem mem_of_head? {m : Message} {i : Fin numVc} (h : a.head? i = some m) : m ∈ a.msgs :=
  mem_msgs.mpr ⟨i, List.mem_of_mem_head? h⟩

theorem msgs_dequeue {m : Message} {i : Fin numVc} (h : a.head? i = some m) :
    a.msgs = m ::ₘ (a.dequeue i).msgs := by
  have hq : (a.vcs i).q = m :: (a.vcs i).dequeue.q := List.eq_cons_of_mem_head? h
  have hs := Finset.sum_update_add (fun b : CXLBuf size Message => (b.q : Multiset Message)) a.vcs i
    (a.vcs i).dequeue
  simp only [hq, ← Multiset.cons_coe, ← Multiset.singleton_add] at hs
  rw [← add_assoc, add_right_cancel_iff] at hs
  rw [← Multiset.singleton_add, add_comm]
  exact hs.symm

theorem enqueue_meets {name : BufName} {i : Fin numVc} {m : Message} (hm : m.opCode = op) :
    (a.enqueue name i m hm).Meets (fun a' => a'.msgs = m ::ₘ a.msgs)
      (fun e => e = .addingToFullBuffer name ∧ (a.vcs i).isBufFull) := by
  unfold enqueue
  have he : ((a.vcs i).enqueue name m).Meets _ _ := CXLBuf.enqueue_meets
  split
  case _ e h => exact he.of_error h
  case _ b h =>
    have hs := Finset.sum_update_add (fun b : CXLBuf size Message => (b.q : Multiset Message)) a.vcs i b
    simp only [he.of_ok h, ← Multiset.coe_add] at hs
    refine add_right_cancel (b := ((a.vcs i).q : Multiset Message)) (hs.trans ?_)
    rw [← Multiset.singleton_add, Multiset.coe_singleton, ← add_assoc, add_right_comm,
      add_comm _ a.msgs]
    rfl

-- The loop over the channels covers all of them, wherever it starts.
theorem checkVcsForPacking_meets {ready : Message → Sim Bool} {is : List Nat} :
    (a.checkVcsForPacking ready is).Meets
      (fun
        | some (i, m) => a.head? i = some m ∧ ready m = .ok true
        | none        => ∀ i ∈ is, ∀ m, a.head? (Fin.ofNat numVc i) = some m → ready m = .ok false)
      (fun e => ∃ m ∈ a.msgs, ready m = .error e) := by
  induction is
  case nil => simp [checkVcsForPacking]
  case cons i is hi =>
    unfold checkVcsForPacking
    split
    case _ hn =>
      refine hi.imp fun r hr => ?_
      match r with
      | some _ => exact hr
      | none   =>
        intro j hj m hm
        cases List.mem_cons.mp hj
        case inl h => subst h; cases hn.symm.trans hm
        case inr h => exact hr j h m hm
    case _ m hm =>
      have hr : (ready m).Meets (fun b => ready m = .ok b)
          (fun e => ∃ m ∈ a.msgs, ready m = .error e) := by
        cases h : ready m
        case error e => exact ⟨m, mem_of_head? hm, h⟩
        case ok b    => simp
      refine hr.bind fun b hb => ?_
      cases b
      case true => exact ⟨hm, hb⟩
      case false =>
        refine hi.imp fun r hr => ?_
        match r with
        | some _ => exact hr
        | none   =>
          intro j hj m' hm'
          cases List.mem_cons.mp hj
          case inl h => subst h; exact Option.some.inj (hm.symm.trans hm') ▸ hb
          case inr h => exact hr j h m' hm'

theorem exists_mem_range' (cur : Nat) (j : Fin numVc) :
    ∃ i ∈ List.range' cur numVc, Fin.ofNat numVc i = j := by
  refine ⟨cur + (j.val + (4 - cur % 4)) % 4, ?_, ?_⟩
  case _ =>
    rw [List.mem_range'_1]
    have : (j.val + (4 - cur % 4)) % 4 < 4 := Nat.mod_lt _ (by decide)
    exact ⟨Nat.le_add_right _ _, by simp [numVc]; omega⟩
  case _ =>
    have : j.val < 4 := j.isLt
    apply Fin.ext
    simp only [Fin.ofNat, numVc]
    omega

end VcArray

namespace TxPort

variable {dir : Dir} {vcSize bufSize : Nat} {σ : Type} {rules : PackerRules dir σ} {tick : Int}
variable {p : TxPort dir vcSize bufSize σ}

-- What `get_msg_from_vcs` may answer, with the failures of the checks on the messages.
def NotReady (rules : PackerRules dir σ) (tick : Int) (p : TxPort dir vcSize bufSize σ) : Prop :=
  ∀ i m, p.hdr.head? i = some m → rules.ready tick p.flow m = .ok false

inductive Offers (rules : PackerRules dir σ) (tick : Int) (p : TxPort dir vcSize bufSize σ) :
    Offer dir vcSize bufSize σ → Prop
  | single {i m cur next} :
    p.single.head? i = some m →
    rules.ready tick p.flow m = .ok true →
    (p.pkr2State = .w ∧ next = .r ∨ p.pkr2State = .r ∧ next = .R ∨
      p.pkr2State = .R ∧ next = .R ∧ p.NotReady rules tick) →
    Offers rules tick p {
      msg     := m
      refused := { p with packerCurVc := cur, pkr2State := next }
      taken   := { p with packerCurVc := cur, pkr2State := next, single := p.single.dequeue i } }
  | hdr {i m cur} :
    p.hdr.head? i = some m →
    rules.ready tick p.flow m = .ok true →
    Offers rules tick p {
      msg     := m
      refused := { p with packerCurVc := cur, pkr2State := .w }
      taken   := { p with packerCurVc := cur, pkr2State := .w, hdr := p.hdr.dequeue i } }

def CheckFails (rules : PackerRules dir σ) (tick : Int) (p : TxPort dir vcSize bufSize σ)
    (e : Failure) : Prop :=
  ∃ m ∈ p.single.msgs + p.hdr.msgs, rules.ready tick p.flow m = .error e

theorem offerSingle_meets {next : RoundRobinState} {Q : Option (Offer dir vcSize bufSize σ) → Prop}
    (hn : Q none)
    (hs : ∀ i m cur, p.single.head? i = some m → rules.ready tick p.flow m = .ok true → Q (some {
      msg     := m
      refused := { p with packerCurVc := cur, pkr2State := next }
      taken   := { p with packerCurVc := cur, pkr2State := next, single := p.single.dequeue i } })) :
    (p.offerSingle rules tick next).Meets Q (p.CheckFails rules tick) := by
  unfold offerSingle
  refine (VcArray.checkVcsForPacking_meets.mono (fun _ => id) fun e he => ?_).bind fun r hr => ?_
  case _ =>
    have ⟨m, hm, h⟩ := he
    exact ⟨m, Multiset.mem_add.mpr (.inl hm), h⟩
  case _ =>
    match r with
    | none        => exact hn
    | some (i, m) => exact hs i m _ hr.left hr.right

theorem offerHdr_meets {next : RoundRobinState} {Q : Option (Offer dir vcSize bufSize σ) → Prop}
    (hn : p.NotReady rules tick → Q none)
    (hs : ∀ i m cur, p.hdr.head? i = some m → rules.ready tick p.flow m = .ok true → Q (some {
      msg     := m
      refused := { p with packerCurVc := cur, pkr2State := next }
      taken   := { p with packerCurVc := cur, pkr2State := next, hdr := p.hdr.dequeue i } })) :
    (p.offerHdr rules tick next).Meets Q (p.CheckFails rules tick) := by
  unfold offerHdr
  refine (VcArray.checkVcsForPacking_meets.mono (fun _ => id) fun e he => ?_).bind fun r hr => ?_
  case _ =>
    have ⟨m, hm, h⟩ := he
    exact ⟨m, Multiset.mem_add.mpr (.inr hm), h⟩
  case _ =>
    match r with
    | some (i, m) => exact hs i m _ hr.left hr.right
    | none        =>
      refine hn fun j m hm => ?_
      have ⟨i, hi, hij⟩ := VcArray.exists_mem_range' p.packerCurVc j
      exact hr i hi m (hij ▸ hm)

theorem getMsgFromVcs_meets (hw : p.pkr2State ≠ .W) : (p.getMsgFromVcs rules tick).Meets
    (fun | some o => p.Offers rules tick o | none => True) (p.CheckFails rules tick) := by
  unfold getMsgFromVcs
  split
  case _ hs =>
    refine firstOf_meets <| offerSingle_meets ?_ fun i m cur hm hr => ?_
    case _ => exact offerHdr_meets (fun _ => trivial) fun i m cur hm hr => .hdr hm hr
    case _ => exact .single hm hr <| .inr <| .inl ⟨hs, rfl⟩
  case _ hs =>
    refine firstOf_meets <| offerHdr_meets (fun hn => ?_) fun i m cur hm hr => .hdr hm hr
    refine offerSingle_meets trivial fun i m cur hm hr => ?_
    exact .single hm hr <| .inr <| .inr ⟨hs, rfl, hn⟩
  case _ hs =>
    refine firstOf_meets <| offerSingle_meets ?_ fun i m cur hm hr => ?_
    case _ => exact offerHdr_meets (fun _ => trivial) fun i m cur hm hr => .hdr hm hr
    case _ => exact .single hm hr <| .inl ⟨hs, rfl⟩
  case _ hs => exact absurd hs hw

-- The flit under construction has the given slots, and its header agrees with them.
structure Carries (rules : PackerRules dir σ) (p : TxPort dir vcSize bufSize σ)
    (slots : List Slot) : Prop where
  slots_eq : p.flitToPack.slots = slots
  marks_eq : p.flitToPack.header.slots = frameMarks rules.marksHeader slots

theorem frameMarks_set {mh : Bool} {slots : List Slot} {i : Nat} {s : Slot} (h : s.type ≠ .empty) :
    frameMarks mh (slots.set i s) =
      if mh then (frameMarks mh slots).set i s.type else frameMarks mh slots := by
  cases mh <;> simp [frameMarks, List.map_set, h]

theorem Carries.setSlot {slots : List Slot} {i : Nat} {s : Slot} (hc : p.Carries rules slots)
    (h : s.type ≠ .empty) : (p.setSlot rules i s).Carries rules (slots.set i s) where
  slots_eq := by simp [TxPort.setSlot, hc.slots_eq]
  marks_eq := by
    rw [frameMarks_set h]
    by_cases hm : rules.marksHeader <;> simp [TxPort.setSlot, hc.marks_eq, hm]

theorem packSlots_fill (rules : PackerRules dir σ) (tick : Int) (p : TxPort dir vcSize bufSize σ)
    (is : List Nat) {slots : List Slot} (hi : ∀ i ∈ is, i ≠ 0) (hr : is.length ≤ p.packerRollover)
    (hc : p.Carries rules slots) :
    ∃ p', p.packSlots rules tick is = .ok p' ∧
      p' = { p with flitToPack := p'.flitToPack, packerRollover := p'.packerRollover } ∧
      p'.Carries rules (is.foldl (fillStep p.dataSlot) (slots, p.packerRollover)).1 ∧
      p'.packerRollover = (is.foldl (fillStep p.dataSlot) (slots, p.packerRollover)).2 := by
  induction is generalizing p slots
  case nil => exact ⟨p, rfl, rfl, hc, rfl⟩
  case cons i is ih =>
    simp only [List.length_cons] at hr
    simp only [packSlots, packSlot, hc.slots_eq, List.foldl_cons, fillStep]
    by_cases hb : (slots.getD i {}).type = .empty
    case neg =>
      simp only [hb, ne_eq, not_false_eq_true, ↓reduceIte]
      exact ih p (fun j hj => hi j (List.mem_cons_of_mem _ hj)) (by omega) hc
    case pos =>
      have hrne : p.packerRollover ≠ 0 := by omega
      have hine : i ≠ 0 := hi i (List.mem_cons_self ..)
      simp only [hb, ne_eq, not_true_eq_false, hrne, hine, not_false_eq_true, and_self, ↓reduceIte]
      have hc' : (p.addData rules i).Carries rules (slots.set i p.dataSlot) := by
        have := hc.setSlot (i := i) (s := p.dataSlot) (by simp [dataSlot])
        exact ⟨this.slots_eq, this.marks_eq⟩
      obtain ⟨p', h₁, h₂, h₃, h₄⟩ := ih (p.addData rules i)
        (fun j hj => hi j (List.mem_cons_of_mem _ hj)) (by simp [addData]; omega) hc'
      exact ⟨p', h₁, h₂, h₃, h₄⟩

-- Packing leaves alone what belongs to the transmission.
structure SameTx (p p' : TxPort dir vcSize bufSize σ) : Prop where
  waiting  : p'.isPackerWaiting = p.isPackerWaiting
  txBuffer : p'.txBuffer = p.txBuffer
  sent     : p'.sent = p.sent
  last     : p'.lastTransmittedAt = p.lastTransmittedAt

theorem SameTx.refl (p : TxPort dir vcSize bufSize σ) : p.SameTx p :=
  ⟨rfl, rfl, rfl, rfl⟩

theorem SameTx.trans {p p' p'' : TxPort dir vcSize bufSize σ} (h : p.SameTx p') (h' : p'.SameTx p'') :
    p.SameTx p'' :=
  ⟨h'.1.trans h.1, h'.2.trans h.2, h'.3.trans h.3, h'.4.trans h.4⟩

-- The loop has refused a message. From here on it finds no header, so that it packs nothing.
structure Blocked (rules : PackerRules dir σ) (tick : Int) (p : TxPort dir vcSize bufSize σ)
    (fr : Frame Message) : Prop where
  two      : fr.singles.length = 2
  state    : p.pkr2State = .R
  notReady : p.NotReady rules tick

def PacksTo (rules : PackerRules dir σ) (tick : Int) (p : TxPort dir vcSize bufSize σ)
    (fr : Frame Message) (p' : TxPort dir vcSize bufSize σ) : Prop :=
  ∃ fr', p'.Built rules fr' ∧ Sender.Steps rules tick (p.sender fr) (p'.sender fr') ∧ p.SameTx p' ∧
    (fr'.IsEmpty → fr.IsEmpty)

def FailsAt (rules : PackerRules dir σ) (tick : Int) (x : Sender σ) (e : Failure) : Prop :=
  ∃ x', Sender.Steps rules tick x x' ∧ Sender.Fails rules tick x' e

theorem Built.packSingle {fr : Frame Message} {next : RoundRobinState} (i : Fin numVc) (m : Message)
    (cur : Nat) (flow : σ) (hb : p.Built rules fr) (hf : OpenFrame fr)
    (h₁ : fr.singles.length ≤ 1)
    (hn : p.pkr2State = .w ∧ next = .r ∨ p.pkr2State = .r ∧ next = .R ∨
      p.pkr2State = .R ∧ next = .R ∧ p.NotReady rules tick) :
    (TxPort.packSingle rules
      { p with packerCurVc := cur, pkr2State := next, single := p.single.dequeue i }
      fr.firstBlank m flow).Built rules (fr.addSingle m) := by
  have hc : p.Carries rules (frameSlots dir fr) := ⟨hb.slots, hb.marks⟩
  have hc := hc.setSlot (i := fr.firstBlank) (s := ⟨dir.single, m⟩) dir.single_ne_empty
  rw [hf.set_single dir] at hc
  have hr : p.packerRollover = 0 := by simpa [Frame.nextOwed, hf.hdr] using hb.rollover
  have hnw : next ≠ .w ∧ next ≠ .W ∧ (p.pkr2State ≠ .w → next = .R) := by
    rcases hn with ⟨h, rfl⟩ | ⟨h, rfl⟩ | ⟨h, rfl, _⟩ <;> simp [h]
  refine ⟨hf.addSingle_valid m h₁, hnw.2.1, hc.slots_eq, hc.marks_eq, ?_, ?_, fun _ _ => hnw.1, ?_⟩
  case _ => simp [Frame.nextOwed, Frame.addSingle, hf.hdr, TxPort.packSingle, TxPort.setSlot, hr]
  case _ => simp [Frame.addSingle, hf.hdr]
  case _ =>
    intro _ h
    simp only [Frame.addSingle, List.length_append, List.length_singleton] at h
    exact hnw.2.2 <| hb.one hf.hdr (by omega)

-- After a header, the rest of the loop fills the flit with data.
theorem packSlots_packHdr (tick : Int) {fr : Frame Message} (m : Message) (flow : σ)
    (hc : p.Carries rules (frameSlots dir fr)) (hf : OpenFrame fr) :
    ∃ p', (p.packHdr rules fr.firstBlank m flow).packSlots rules tick
        (List.range' (fr.firstBlank + 1) (3 - fr.firstBlank)) = .ok p' ∧
      p' = { p.packHdr rules fr.firstBlank m flow with
        flitToPack := p'.flitToPack, packerRollover := p'.packerRollover } ∧
      p'.Carries rules (frameSlots dir (fr.addHdr m)) ∧
      p'.packerRollover = (fr.addHdr m).nextOwed := by
  have hc := hc.setSlot (i := fr.firstBlank) (s := ⟨dir.hdr, m⟩) dir.hdr_ne_empty
  have ⟨p', h₁, h₂, h₃, h₄⟩ := packSlots_fill rules tick (p.packHdr rules fr.firstBlank m flow)
    (List.range' (fr.firstBlank + 1) (3 - fr.firstBlank)) (by simp [List.mem_range'_1]; omega)
    (by simp [packHdr]; omega) ⟨hc.slots_eq, hc.marks_eq⟩
  have hfill := hf.fill_hdr dir m
  change List.foldl (fillStep (p.packHdr rules fr.firstBlank m flow).dataSlot) _ _ = _ at hfill
  rw [show (p.packHdr rules fr.firstBlank m flow).packerRollover = 4 from rfl, hfill] at h₃ h₄
  exact ⟨p', h₁, h₂, h₃, h₄⟩

-- A round of the slot loop either leaves the frame without a header, with the slots up to the next one
-- taken unless the loop is blocked, or it packs a header.
inductive Round (rules : PackerRules dir σ) (tick : Int) (p : TxPort dir vcSize bufSize σ)
    (fr : Frame Message) (i : Nat) (p' : TxPort dir vcSize bufSize σ) : Prop
  | noHdr {fr'} : p'.Built rules fr' → fr'.hdr = none → fr'.owed ≤ 3 →
    Sender.Steps rules tick (p.sender fr) (p'.sender fr') → p.SameTx p' →
    (fr'.IsEmpty → fr.IsEmpty) → (i + 1 ≤ fr'.firstBlank ∨ p'.Blocked rules tick fr') →
    Round rules tick p fr i p'
  | hdr {q m flow} : p' = q.packHdr rules i m flow → i = fr.firstBlank → OpenFrame fr →
    q.flitToPack = p.flitToPack → q.pkr2State ≠ .W → p.SameTx q →
    Sender.Step rules tick (p.sender fr) (p'.sender (fr.addHdr m)) → Round rules tick p fr i p'

-- A message that may not be packed is left in its channel. There are two messages without data in the
-- flit already, so that the channels with headers were looked at before.
theorem Built.refuse (hl : rules.Lawful) {fr : Frame Message} {m : Message} {cur i : Nat} {s : σ}
    {next : RoundRobinState} (hb : p.Built rules fr) (hh : fr.hdr = none) (ho : fr.owed ≤ 3)
    (h₂ : fr.singles.length = 2) (hr : rules.ready tick p.flow m = .ok true)
    (hs : rules.offered p.flow m = .ok s)
    (hn : p.pkr2State = .w ∧ next = .r ∨ p.pkr2State = .r ∧ next = .R ∨
      p.pkr2State = .R ∧ next = .R ∧ p.NotReady rules tick) :
    p.Round rules tick fr i { p with packerCurVc := cur, pkr2State := next, flow := s } := by
  have hR := hb.two hh h₂
  simp only [hR, reduceCtorEq, false_and, true_and, false_or] at hn
  obtain ⟨rfl, hn⟩ := hn
  refine .noHdr ⟨hb.valid, by simp, hb.slots, hb.marks, hb.rollover, hb.lastHdr, by simp,
    fun _ _ => rfl⟩ hh ho (.single (.refuse hr hs)) ⟨rfl, rfl, rfl, rfl⟩ id
    (.inr ⟨h₂, rfl, ?_⟩)
  exact fun j m' hm' => hl.ready_offered hs (hn j m' hm')

theorem packSlot_meets (hl : rules.Lawful) {fr : Frame Message} {i : Nat} (hb : p.Built rules fr)
    (hh : fr.hdr = none) (ho : fr.owed ≤ 3) (h₄ : i < 4)
    (hi : i ≤ fr.firstBlank ∨ p.Blocked rules tick fr) :
    (p.packSlot rules tick i).Meets (fun | some p' => p.Round rules tick fr i p' | none => True)
      (FailsAt rules tick (p.sender fr)) := by
  have hr : p.packerRollover = 0 := by simpa [Frame.nextOwed, hh] using hb.rollover
  simp only [packSlot, hb.slots, hr]
  by_cases hblank : ((frameSlots dir fr).getD i {}).type = .empty
  case neg =>
    simp only [hblank, ne_eq, not_false_eq_true, ↓reduceIte]
    refine .noHdr hb hh ho .refl (.refl p) id <| hi.imp_left fun h => ?_
    have := frameSlots_blank dir hb.valid hh ho h₄ h
    rwa [if_neg hblank] at this
  case pos =>
    replace hi : (i = fr.firstBlank ∧ OpenFrame fr) ∨ p.Blocked rules tick fr :=
      hi.imp_left fun h => by
        have := frameSlots_blank dir hb.valid hh ho h₄ h
        rwa [if_pos hblank] at this
    simp only [hblank, ne_eq, not_true_eq_false, ↓reduceIte, false_and]
    refine ((getMsgFromVcs_meets hb.state).mono (fun _ => id) fun e he => ?_).bind fun r hr => ?_
    case _ =>
      obtain ⟨m, hm, he⟩ := he
      exact ⟨_, .refl, .ready hm he⟩
    cases r
    case none   => exact trivial
    case some o =>
      cases hr
      case single j m cur next hm hr hn =>
        have hmem := VcArray.mem_of_head? hm
        refine ((Except.meets_self _).mono (fun _ => id) fun e he => ?_).bind fun s hs => ?_
        case _ => exact ⟨_, .refl, .offered (Multiset.mem_add.mpr (.inl hmem)) hr he⟩
        rw [if_pos (VcArray.opCode_of_mem hmem)]
        simp only [Flit.slotCountInFlit, hb.slots, countP_single]
        by_cases h₁ : fr.singles.length ≤ 1
        case neg =>
          rw [if_neg h₁]
          have := hb.valid.singles
          exact hb.refuse hl hh ho (by omega) hr hs hn
        case pos =>
          rw [if_pos h₁]
          cases hi
          case inr h => have := h.two; omega
          case inl h =>
            obtain ⟨rfl, hf⟩ := h
            refine ((Except.meets_self _).mono (fun _ => id) fun e he => ?_).bind fun s' hs' => ?_
            case _ => exact ⟨_, .refl, .spendSingle hmem hr hs he⟩
            have hb' := hb.packSingle j m cur s' hf h₁ hn
            refine .noHdr hb' hh ho
              (.single <| .single hh hb'.valid (VcArray.msgs_dequeue hm) hr hs hs')
              ⟨rfl, rfl, rfl, rfl⟩ (by simp [Frame.IsEmpty, Frame.addSingle]) (.inl ?_)
            simp [Frame.firstBlank, Frame.addSingle]
            split <;> omega
      case hdr j m cur hm hr =>
        have hmem := VcArray.mem_of_head? hm
        have hop := VcArray.opCode_of_mem hmem
        refine ((Except.meets_self _).mono (fun _ => id) fun e he => ?_).bind fun s hs => ?_
        case _ => exact ⟨_, .refl, .offered (Multiset.mem_add.mpr (.inr hmem)) hr he⟩
        rw [if_neg (fun h => dir.singleOp_ne_hdrOp (h.symm.trans hop)), if_pos hop]
        cases hi
        case inr h => cases (h.notReady j m hm).symm.trans hr
        case inl h =>
          obtain ⟨rfl, hf⟩ := h
          have hz : p.flitToPack.slotCountInFlit dir.hdr = 0 := by
            simp [Flit.slotCountInFlit, hb.slots, countP_hdr, hh]
          have ha := hf.allSlotsAfterEmpty dir
          rw [← hb.slots] at ha
          rw [if_pos ⟨hz, ha⟩]
          refine ((Except.meets_self _).mono (fun _ => id) fun e he => ?_).bind fun s' hs' => ?_
          case _ => exact ⟨_, .refl, .spendHdr hmem hr hs he⟩
          refine .hdr rfl rfl hf rfl (by simp) ⟨rfl, rfl, rfl, rfl⟩ ?_
          exact .hdr hh (hf.addHdr_valid m) (VcArray.msgs_dequeue hm) hr hs hs'

theorem FailsAt.of_steps {x x' : Sender σ} {e : Failure} (hs : Sender.Steps rules tick x x')
    (h : FailsAt rules tick x' e) : FailsAt rules tick x e :=
  have ⟨x'', hs', he⟩ := h
  ⟨x'', hs.trans hs', he⟩

theorem packSlots_meets (hl : rules.Lawful) {fr : Frame Message} {i k : Nat} (hb : p.Built rules fr)
    (hh : fr.hdr = none) (ho : fr.owed ≤ 3) (hk : i + k = 4)
    (hi : i ≤ fr.firstBlank ∨ p.Blocked rules tick fr) :
    (p.packSlots rules tick (List.range' i k)).Meets (p.PacksTo rules tick fr)
      (FailsAt rules tick (p.sender fr)) := by
  induction k generalizing p fr i
  case zero => exact ⟨fr, hb, .refl, .refl p, id⟩
  case succ k ih =>
    rw [List.range'_succ, packSlots]
    refine (packSlot_meets hl hb hh ho (by omega) hi).bind fun r hr => ?_
    cases r
    case none    => exact ⟨fr, hb, .refl, .refl p, id⟩
    case some p' =>
      cases hr
      case noHdr fr' hb' hh' ho' hs ht he hi' =>
        refine (ih hb' hh' ho' (by omega) hi').mono (fun p'' h => ?_) fun e h => h.of_steps hs
        obtain ⟨fr'', hb'', hs', ht', he'⟩ := h
        exact ⟨fr'', hb'', hs.trans hs', ht.trans ht', he ∘ he'⟩
      case hdr q m flow hp hi hf hq hw ht hs =>
        subst hp
        have hc : q.Carries rules (frameSlots dir fr) := ⟨hq ▸ hb.slots, hq ▸ hb.marks⟩
        obtain ⟨p'', h₁, h₂, h₃, h₄⟩ := packSlots_packHdr tick m flow hc hf
        obtain rfl : k = 3 - fr.firstBlank := by omega
        have hs' : (p''.sender (fr.addHdr m)) = (q.packHdr rules i m flow).sender (fr.addHdr m) := by
          rw [h₂, hi]; rfl
        rw [hi]
        refine .intro h₁
          ⟨fr.addHdr m, ?_, hs' ▸ .single hs, ?_, by simp [Frame.IsEmpty, Frame.addHdr]⟩
        case _ =>
          have hne : (fr.addHdr m).hdr ≠ none := Option.some_ne_none m
          refine ⟨hf.addHdr_valid m, ?_, h₃.slots_eq, h₃.marks_eq, h₄, ?_, fun h => absurd h hne,
            fun h => absurd h hne⟩
          case _ => rw [h₂]; exact hw
          case _ => rintro _ ⟨⟩; rw [h₂]; rfl
        case _ => rw [h₂]; exact ⟨ht.waiting, ht.txBuffer, ht.sent, ht.last⟩

-- What a call of the packer does: steps of the abstract packer, and flits that go to the end of the
-- buffer.
structure RunsTo (rules : PackerRules dir σ) (tick : Int) (p : TxPort dir vcSize bufSize σ)
    (fr : Frame Message) (p' : TxPort dir vcSize bufSize σ) (fr' : Frame Message) : Prop where
  shape : p'.Shape rules fr'
  steps : Sender.Steps rules tick (p.sender fr) (p'.sender fr')
  sent  : ∃ fs, p'.txBuffer.q = p.txBuffer.q ++ fs ∧ p'.sent = p.sent ++ fs
  last  : p'.lastTransmittedAt = p.lastTransmittedAt

theorem Built.isFlitEmpty {fr : Frame Message} (hb : p.Built rules fr) :
    p.flitToPack.isFlitEmpty = true ↔ fr.IsEmpty := by
  rw [← frameSlots_empty_iff dir hb.valid, ← hb.slots]
  simp [Flit.isFlitEmpty]

theorem Built.not_full {fr : Frame Message} (hb : p.Built rules fr)
    (h : p.flitToPack.isFlitFull = false) : fr.hdr = none ∧ fr.owed ≤ 3 := by
  by_contra hc
  have hv := hb.valid.fits
  have hf : ∀ s ∈ frameSlots dir fr, s.type ≠ .empty := frameSlots_full dir <| by
    by_cases hh : fr.hdr = none
    case neg => exact .inr hh
    case pos => simp [hh] at hc hv; omega
  rw [← hb.slots] at hf
  simp [Flit.isFlitFull] at h
  have ⟨s, hs, he⟩ := h
  exact hf s hs he

theorem packFlit_meets (hl : rules.Lawful) {fr : Frame Message} (hb : p.Built rules fr)
    (hh : fr.hdr = none) (ho : fr.owed ≤ 3) (hw : p.isPackerWaiting → ¬fr.IsEmpty) :
    (p.packFlit rules tick).Meets (fun p' => ∃ fr', p.RunsTo rules tick fr p' fr')
      (FailsAt rules tick (p.sender fr)) := by
  refine (packSlots_meets (i := 0) (k := 4) hl hb hh ho rfl (.inl (Nat.zero_le _))).bind fun p' h => ?_
  have ⟨fr', hb', hs, ht, he⟩ := h
  have hrule : p'.flitToPack.slotCountInFlit dir.single ≤ 2 ∧
      p'.flitToPack.slotCountInFlit .data ≤ 4 ∧ p'.flitToPack.slotCountInFlit dir.hdr ≤ 1 ∧
      p'.flitToPack.slotCountInFlit dir.hdr + p'.flitToPack.slotCountInFlit .data +
        p'.flitToPack.slotCountInFlit dir.single ≤ 4 := by
    simp only [Flit.slotCountInFlit, hb'.slots, countP_single, countP_hdr]
    have hd := countP_data dir hb'.valid
    have hf := hb'.valid.fits
    have hs := hb'.valid.singles
    cases hh : fr'.hdr <;> simp [hh, Frame.nextOwed] at hd hf ⊢ <;> omega
  simp only [assert, if_pos hrule]
  refine ⟨fr', ?_, hs, ⟨[], by simp [ht.txBuffer], by simp [ht.sent]⟩, ht.last⟩
  by_cases hn : fr'.IsEmpty
  case pos =>
    have hw' : p'.isPackerWaiting = false := by
      rw [ht.waiting]
      exact Bool.eq_false_iff.mpr fun h => hw h (he hn)
    have hr := hb'.rollover
    obtain ⟨h₁, h₂, h₃⟩ := hn
    refine .idle (by simp [hw', hb'.isFlitEmpty.mpr ⟨h₁, h₂, h₃⟩]) ⟨hb'.valid, hb'.state, ?_, ?_⟩
    case _ =>
      simp only [Frame.nextOwed, h₃] at hr
      ext <;> simp [Frame.fresh, h₁, h₂, h₃, hr]
    case _ => intro h; omega
  case neg =>
    have hf : p'.flitToPack.isFlitEmpty = false :=
      Bool.eq_false_iff.mpr fun h => hn (hb'.isFlitEmpty.mp h)
    exact .waiting (by simp [hf])
      ⟨hb'.valid, hb'.state, hb'.slots, hb'.marks, hb'.rollover, hb'.lastHdr, hb'.one, hb'.two⟩ hn

theorem addFlitToBuf_meets {fr : Frame Message} (hb : p.Built rules fr) (hn : ¬fr.IsEmpty)
    (hf : ¬p.txBuffer.isBufFull) :
    (p.addFlitToBuf rules tick).Meets (fun p' => p.RunsTo rules tick fr p' fr.next)
      (FailsAt rules tick (p.sender fr)) := by
  refine ((Except.meets_self _).mono (fun _ => id) fun e he => ?_).bind fun r hc => ?_
  case _ => exact ⟨_, .refl, .getCredits hn hb.slots he⟩
  obtain ⟨credit, flow⟩ := r
  refine (CXLBuf.enqueue_meets.mono (fun _ => id) fun e he => ?_).bind fun b hq => ?_
  case _ => exact absurd he.right hf
  rw [hb.rollover]
  refine ((Except.meets_self _).mono (fun _ => id) fun e he => ?_).bind fun flow' hs => ?_
  case _ => exact ⟨_, .refl, .sent hn hb.slots hc he⟩
  refine ⟨.idle rfl ⟨hb.valid.next, hb.state, rfl, ?_⟩, ?_, ⟨_, hq, rfl⟩, rfl⟩
  case _ =>
    intro ho
    cases hh : fr.hdr
    case none => simp [Frame.next, Frame.fresh, Frame.nextOwed, hh] at ho
    case some m => simp [Frame.next, Frame.fresh, Frame.nextLast, hh, hb.lastHdr m hh]
  case _ =>
    have hstep : Sender.Step rules tick (p.sender fr) _ := .emit hn hb.slots hc hs
    refine .single ?_
    convert hstep using 1
    simp only [sender, List.map_append, List.map_cons, List.map_nil, Flit.setTime_core]
    simp only [Flit.core, frameFlit, hb.slots, hb.marks]

theorem foldl_addData (is : List Nat) {slots : List Slot} (hc : p.Carries rules slots) :
    ∃ p', is.foldl (addData rules) p = p' ∧
      p' = { p with flitToPack := p'.flitToPack, packerRollover := p.packerRollover - is.length } ∧
      p'.Carries rules (is.foldl (·.set · p.dataSlot) slots) := by
  induction is generalizing p slots
  case nil => exact ⟨p, rfl, rfl, hc⟩
  case cons i is ih =>
    have hc' : (p.addData rules i).Carries rules (slots.set i p.dataSlot) := by
      have := hc.setSlot (i := i) (s := p.dataSlot) (by simp [dataSlot])
      exact ⟨this.slots_eq, this.marks_eq⟩
    have ⟨p', h₁, h₂, h₃⟩ := ih hc'
    refine ⟨p', h₁, h₂.trans ?_, h₃⟩
    simp [addData, setSlot, Nat.sub_sub, Nat.add_comm]

-- The data that is owed, in the slots of a new flit.
theorem Idle.built_data (rules : PackerRules dir σ) {fr : Frame Message} {is : List Nat}
    (hi : p.Idle fr) (hf : p.flitToPack = {})
    (hs : is.foldl (·.set · (cellSlot dir (.data fr.last.mark))) (List.replicate 4 {}) =
      frameSlots dir fr) (hl : is.length = fr.owed) :
    (is.foldl (addData rules) p).Built rules fr ∧
      (is.foldl (addData rules) p).sender fr = p.sender fr ∧
      p.SameTx (is.foldl (addData rules) p) := by
  have hh : fr.hdr = none := by rw [hi.fresh]; rfl
  have h₀ : fr.singles.length = 0 := by rw [hi.fresh]; rfl
  have ho : p.packerRollover = fr.owed := (congrArg Frame.owed hi.fresh).symm
  have hc : p.Carries rules (List.replicate 4 {}) :=
    ⟨by rw [hf], by rw [hf]; cases rules.marksHeader <;> rfl⟩
  have ⟨p', h₁, h₂, h₃⟩ := foldl_addData is hc
  have hd : is.foldl (·.set · p.dataSlot) (List.replicate 4 {}) = frameSlots dir fr := by
    cases is
    case nil      => exact hs
    case cons i is =>
      rwa [← hi.lastHdr (by simp [← hl])] at hs
  rw [hd] at h₃
  rw [h₁]
  refine ⟨⟨hi.valid, ?_, h₃.slots_eq, h₃.marks_eq, ?_, by simp [hh], by simp [h₀], by simp [h₀]⟩, ?_, ?_⟩
  case _ => rw [h₂]; exact hi.state
  case _ => rw [h₂]; simp [Frame.nextOwed, hh, ho, hl]
  case _ => rw [h₂]; rfl
  case _ => rw [h₂]; exact ⟨rfl, rfl, rfl, rfl⟩

-- What a call does before it sends or packs: nothing to the buffer, and nothing that the abstract packer
-- does not do.
structure Leads (rules : PackerRules dir σ) (tick : Int) (p : TxPort dir vcSize bufSize σ)
    (fr : Frame Message) (q : TxPort dir vcSize bufSize σ) : Prop where
  steps    : Sender.Steps rules tick (p.sender fr) (q.sender fr)
  txBuffer : q.txBuffer = p.txBuffer
  sent     : q.sent = p.sent
  last     : q.lastTransmittedAt = p.lastTransmittedAt

theorem Leads.refl (p : TxPort dir vcSize bufSize σ) (fr : Frame Message) : p.Leads rules tick fr p :=
  ⟨.refl, rfl, rfl, rfl⟩

theorem RunsTo.of_leads {q p' : TxPort dir vcSize bufSize σ} {fr fr' : Frame Message}
    (hq : p.Leads rules tick fr q) (h : q.RunsTo rules tick fr p' fr') : p.RunsTo rules tick fr p' fr' where
  shape := h.shape
  steps := hq.steps.trans h.steps
  sent  := by rw [← hq.txBuffer, ← hq.sent]; exact h.sent
  last  := h.last.trans hq.last

-- What is known of the port when a call comes to send or pack.
inductive Prepared (rules : PackerRules dir σ) (tick : Int) (p : TxPort dir vcSize bufSize σ)
    (fr : Frame Message) : Phase dir vcSize bufSize σ → Prop
  | stay {q} : q.isPackerWaiting = true → q.Built rules fr → ¬fr.IsEmpty → p.Leads rules tick fr q →
    Prepared rules tick p fr (.stay q)
  | send {q} : q.Built rules fr → ¬fr.IsEmpty → ¬q.txBuffer.isBufFull → p.Leads rules tick fr q →
    Prepared rules tick p fr (.send q)
  | pack {q} : q.Built rules fr → fr.hdr = none → fr.owed ≤ 3 → (q.isPackerWaiting → ¬fr.IsEmpty) →
    p.Leads rules tick fr q → Prepared rules tick p fr (.pack q)

theorem Idle.startFlit (rules : PackerRules dir σ) (tick : Int) {fr : Frame Message}
    (hi : p.Idle fr) (hw : p.isPackerWaiting = false) :
    (p.startFlit rules tick).Idle fr ∧ (p.startFlit rules tick).flitToPack = {} ∧
      Sender.Steps rules tick (p.sender fr) ((p.startFlit rules tick).sender fr) ∧
      p.SameTx (p.startFlit rules tick) := by
  have ho : p.packerRollover = fr.owed := (congrArg Frame.owed hi.fresh).symm
  rw [TxPort.startFlit, if_neg (by simp [hw]), ho]
  refine ⟨⟨hi.valid, hi.state, ho ▸ hi.fresh, hi.lastHdr⟩, rfl, ?_, rfl, rfl, rfl, rfl⟩
  exact .single <| .start (ho ▸ hi.fresh)

theorem Built.phase (tick : Int) {fr : Frame Message} (hb : p.Built rules fr) (hw : p.isPackerWaiting = true)
    (hn : ¬fr.IsEmpty) : ∃ ph, p.phase rules tick = .ok ph ∧ p.Prepared rules tick fr ph := by
  have hs : p.startFlit rules tick = p := by rw [startFlit, if_pos hw]
  rw [TxPort.phase, hs]
  by_cases hd : p.isFlitDue rules tick
  case pos =>
    by_cases hf : p.txBuffer.isBufFull
    case pos => exact ⟨.stay p, by simp [hd, hf], .stay hw hb hn (.refl p fr)⟩
    case neg => exact ⟨.send p, by simp [hd, hf], .send hb hn hf (.refl p fr)⟩
  case neg =>
    have hr : p.packerRollover ≤ 4 := hb.rollover ▸ hb.valid.nextOwed_le
    have hnf : p.flitToPack.isFlitFull = false := by simp [isFlitDue, hw] at hd; exact hd.1
    obtain ⟨hh, ho⟩ := hb.not_full hnf
    exact ⟨.pack p, by simp [hd, assert, hr, hw], .pack hb hh ho (fun _ => hn) (.refl p fr)⟩

theorem Idle.phase (tick : Int) {fr : Frame Message} (hi : p.Idle fr) (hw : p.isPackerWaiting = false) :
    ∃ ph, p.phase rules tick = .ok ph ∧ p.Prepared rules tick fr ph := by
  obtain ⟨hi', hf, hs, ht⟩ := hi.startFlit rules tick hw
  rw [TxPort.phase]
  generalize p.startFlit rules tick = q at hi' hf hs ht
  have ho : q.packerRollover = fr.owed := (congrArg Frame.owed hi'.fresh).symm
  have hfr : fr = .fresh fr.owed fr.last := ho ▸ hi'.fresh
  have hw' : q.isPackerWaiting = false := ht.waiting.trans hw
  have hdue : q.isFlitDue rules tick = false := by simp [isFlitDue, hw']
  have hle : fr.owed ≤ 4 := by have := hi.valid.fits; omega
  -- The data that rolls over is put into the new flit.
  have hleads {is : List Nat}
      (hd : is.foldl (·.set · (cellSlot dir (.data fr.last.mark))) (List.replicate 4 {}) = frameSlots dir fr)
      (hl : is.length = fr.owed) : (is.foldl (addData rules) q).Built rules fr ∧
        p.Leads rules tick fr (is.foldl (addData rules) q) ∧
        (is.foldl (addData rules) q).isPackerWaiting = false := by
    obtain ⟨hb, hs', ht'⟩ := hi'.built_data rules hf hd hl
    exact ⟨hb, ⟨hs' ▸ hs, ht'.txBuffer.trans ht.txBuffer, ht'.sent.trans ht.sent, ht'.last.trans ht.last⟩,
      ht'.waiting.trans hw'⟩
  by_cases h4 : fr.owed = 4
  case pos =>
    have hd := frameSlots_fresh_four dir fr.last
    rw [show Frame.fresh 4 fr.last = fr from h4 ▸ hfr.symm] at hd
    obtain ⟨hb, hq, -⟩ := hleads hd h4.symm
    have hn : ¬fr.IsEmpty := fun h => by have := h.1; omega
    simp only [hdue, hw', ho, h4, assert, le_refl, Bool.false_eq_true, if_false, if_true, Except.ok_bind,
      Except.pure_def]
    generalize [0, 1, 2, 3].foldl (addData rules) q = r at hb hq ⊢
    by_cases hfull : r.txBuffer.isBufFull
    case pos =>
      refine ⟨_, rfl, ?_⟩
      rw [if_pos hfull]
      exact .stay rfl ⟨hb.valid, hb.state, hb.slots, hb.marks, hb.rollover, hb.lastHdr, hb.one, hb.two⟩ hn
        ⟨hq.steps, hq.txBuffer, hq.sent, hq.last⟩
    case neg =>
      refine ⟨_, rfl, ?_⟩
      rw [if_neg hfull]
      exact .send hb hn hfull hq
  case neg =>
    have h3 : fr.owed ≤ 3 := by omega
    have hd := frameSlots_fresh dir fr.last h3
    rw [← hfr] at hd
    obtain ⟨hb, hq, hwait⟩ := hleads hd (by simp)
    have hh : fr.hdr = none := by rw [hfr]; rfl
    simp only [hdue, hw', ho, h4, assert, hle, Bool.false_eq_true, if_false, if_true, Except.ok_bind,
      Except.pure_def]
    exact ⟨_, rfl, .pack hb hh h3 (by simp [hwait]) hq⟩

theorem Shape.phase (tick : Int) {fr : Frame Message} (hp : p.Shape rules fr) :
    ∃ ph, p.phase rules tick = .ok ph ∧ p.Prepared rules tick fr ph := by
  cases hp
  case waiting hw hb hn => exact hb.phase tick hw hn
  case idle hw hi       => exact hi.phase tick hw

theorem flitPacker_meets (hl : rules.Lawful) {fr : Frame Message} (hp : p.Shape rules fr) :
    (p.flitPacker rules tick).Meets (fun p' => ∃ fr', p.RunsTo rules tick fr p' fr')
      (FailsAt rules tick (p.sender fr)) := by
  obtain ⟨ph, hph, hspec⟩ := hp.phase tick
  rw [← flitPackerBy_self, flitPackerBy, hph, Except.ok_bind]
  cases hspec
  case stay q hw hb hn hq =>
    exact ⟨fr, .waiting hw hb hn, hq.steps, ⟨[], by simp [hq.txBuffer], by simp [hq.sent]⟩, hq.last⟩
  case send q hb hn hf hq =>
    exact (addFlitToBuf_meets hb hn hf).mono (fun p' h => ⟨_, h.of_leads hq⟩) fun e h => h.of_steps hq.steps
  case pack q hb hh ho hw hq =>
    simp only [packFlitBy_self]
    refine (packFlit_meets hl hb hh ho hw).mono (fun p' h => ?_) fun e h => h.of_steps hq.steps
    obtain ⟨fr', h⟩ := h
    exact ⟨fr', h.of_leads hq⟩

-- The shape of a port is a matter of the flit and the registers that belong to it.
theorem Shape.congr {p' : TxPort dir vcSize bufSize σ} {fr : Frame Message} (h : p.Shape rules fr)
    (hw : p'.isPackerWaiting = p.isPackerWaiting) (hs : p'.pkr2State = p.pkr2State)
    (hr : p'.packerRollover = p.packerRollover) (hf : p'.flitToPack = p.flitToPack)
    (hl : p'.lastHdr = p.lastHdr) : p'.Shape rules fr := by
  cases h
  case idle h hi =>
    exact .idle (hw.trans h) ⟨hi.valid, hs ▸ hi.state, hr ▸ hi.fresh, hl ▸ hi.lastHdr⟩
  case waiting h hb hn =>
    exact .waiting (hw.trans h) ⟨hb.valid, hs ▸ hb.state, hf ▸ hb.slots, hf ▸ hb.marks,
      hr ▸ hb.rollover, hl ▸ hb.lastHdr, hs ▸ hb.one, hs ▸ hb.two⟩ hn

end TxPort

end CXL
