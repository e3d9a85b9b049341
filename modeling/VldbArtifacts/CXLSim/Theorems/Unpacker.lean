import VldbArtifacts.CXLSim.Theorems.Basic
import VldbArtifacts.CXLSim.Theorems.Frame
import VldbArtifacts.CXLSim.Net

-- `FLIT_unpacker` does what the abstract unpacker does.

namespace CXL

open Framing

namespace RxPort

variable {dir : Dir} {vcSize bufSize : Nat} {rules : UnpackerRules} {tick : Int}
variable {u u' : RxPort dir vcSize bufSize}

-- The port has read the cells, and has put what is complete into the channels.
structure Takes (u : RxPort dir vcSize bufSize) (cs : List (Cell Message Nat))
    (u' : RxPort dir vcSize bufSize) : Prop where
  deframer : u.deframer.receiveAll cs = some u'.deframer
  single   : ∃ ms, u'.singleLog = u.singleLog ++ ms ∧ u'.single.q = u.single.q ++ ms
  hdr      : ∃ ms, u'.hdrLog = u.hdrLog ++ ms ∧ u'.hdr.q = u.hdr.q ++ ms.map Prod.fst
  rxBuffer : u'.rxBuffer = u.rxBuffer

-- Why the port may fail to read the cells: a channel is too small for them, or they are not what the
-- port is waiting for.
inductive Refuses (rules : UnpackerRules) (u : RxPort dir vcSize bufSize)
    (cs : List (Cell Message Nat)) : Failure → Prop
  | single (h : vcSize < u.single.q.length + (cs.filterMap Cell.single?).length) :
    Refuses rules u cs (.addingToFullBuffer rules.singleName)
  | hdr (h : vcSize < u.hdr.q.length + u.deframer.pending.length + (cs.filterMap Cell.hdr?).length) :
    Refuses rules u cs (.addingToFullBuffer rules.hdrName)
  | header (h : u.deframer.receiveAll cs = none) : Refuses rules u cs .headerBeforeData
  | data (h : u.deframer.receiveAll cs = none) : Refuses rules u cs .dataNotExpected

theorem Takes.nil (u : RxPort dir vcSize bufSize) : u.Takes [] u :=
  ⟨rfl, ⟨[], by simp⟩, ⟨[], by simp⟩, rfl⟩

theorem Takes.trans {u'' : RxPort dir vcSize bufSize} {cs cs' : List (Cell Message Nat)}
    (h : u.Takes cs u') (h' : u'.Takes cs' u'') : u.Takes (cs ++ cs') u'' := by
  have ⟨ms, hs, hq⟩ := h.single
  have ⟨ms', hs', hq'⟩ := h'.single
  have ⟨ns, ht, hr⟩ := h.hdr
  have ⟨ns', ht', hr'⟩ := h'.hdr
  refine ⟨?_, ⟨ms ++ ms', ?_, ?_⟩, ⟨ns ++ ns', ?_, ?_⟩, h'.rxBuffer.trans h.rxBuffer⟩
  case _ => rw [Deframer.receiveAll_append, h.deframer]; exact h'.deframer
  all_goals simp_all

theorem Takes.refuses {cs cs' : List (Cell Message Nat)} {e : Failure} (h : u.Takes cs u')
    (h' : u'.Refuses rules cs' e) : u.Refuses rules (cs ++ cs') e := by
  have hr := Deframer.receiveAll_received h.deframer
  cases h'
  case single hf =>
    refine .single ?_
    have ⟨ms, hs, hq⟩ := h.single
    have hn := congrArg List.length hr.singles
    simp only [RxPort.deframer, hs, List.map_append, List.length_append, List.length_map] at hn
    simp only [hq, List.filterMap_append, List.length_append] at hf ⊢
    omega
  case hdr hf =>
    refine .hdr ?_
    have ⟨ms, hs, hq⟩ := h.hdr
    have hn := congrArg List.length hr.hdrs
    simp only [List.length_append, List.length_map] at hn
    have hl : u'.deframer.hdrs.length = u.deframer.hdrs.length + ms.length := by
      simp [RxPort.deframer, hs]
    simp only [hq, List.filterMap_append, List.length_append, List.length_map] at hf ⊢
    omega
  case header hf =>
    refine .header ?_
    rw [Deframer.receiveAll_append, h.deframer]
    exact hf
  case data hf =>
    refine .data ?_
    rw [Deframer.receiveAll_append, h.deframer]
    exact hf

theorem Refuses.append {cs : List (Cell Message Nat)} {e : Failure} (h : u.Refuses rules cs e)
    (cs' : List (Cell Message Nat)) : u.Refuses rules (cs ++ cs') e := by
  cases h
  case single h => exact .single (by simp only [List.filterMap_append, List.length_append]; omega)
  case hdr h    => exact .hdr (by simp only [List.filterMap_append, List.length_append]; omega)
  case header h => exact .header (by rw [Deframer.receiveAll_append, h]; rfl)
  case data h   => exact .data (by rw [Deframer.receiveAll_append, h]; rfl)

theorem enqueueHdr_meets : (u.enqueueHdr rules tick).Meets
    (fun u' => ∃ m b, m.core = u.lastHdr.core ∧ b.q = u.hdr.q ++ [m] ∧
      u' = { u with lastHdr := m, hdr := b, hdrLog := u.hdrLog ++ [(m, u.dataIds)] })
    (fun e => e = .addingToFullBuffer rules.hdrName ∧ u.hdr.q.length = vcSize) := by
  refine (CXLBuf.enqueue_meets.mono (fun _ => id) fun e he => ?_).bind fun b hb => ?_
  case _ => exact ⟨he.left, by simpa [CXLBuf.isBufFull] using he.right⟩
  case _ => exact ⟨_, b, Message.setTime_core .., hb, rfl⟩

theorem consumeData_meets {s : Slot} (h : u.unpackerRollover ≠ 0) :
    (u.consumeData rules tick s).Meets (u.Takes [.data s.msg.msgId] ·)
      (u.Refuses rules [.data s.msg.msgId]) := by
  unfold consumeData
  have hr : u.deframer.owed ≠ 0 := h
  by_cases h₁ : u.unpackerRollover - 1 = 0
  case pos =>
    have h₁' : u.deframer.owed = 1 := by simp [deframer]; omega
    simp only [h₁, ↓reduceIte]
    refine enqueueHdr_meets.mono (fun u' hu' => ?_) fun e he => ?_
    case _ =>
      obtain ⟨m, b, hm, hb, rfl⟩ := hu'
      refine ⟨?_, ⟨[], by simp⟩, ⟨[(m, _)], rfl, hb⟩, rfl⟩
      simp [Deframer.receiveAll, Deframer.receive, h₁', Deframer.consume]
      simp [deframer, hm]
    case _ =>
      obtain ⟨rfl, hf⟩ := he
      refine .hdr ?_
      simp [Deframer.pending, hr]
      have : u.hdr.q.length = vcSize := hf
      omega
  case neg =>
    have h₁' : u.deframer.owed ≠ 1 := by simp [deframer]; omega
    simp only [h₁, ↓reduceIte]
    refine ⟨?_, ⟨[], by simp⟩, ⟨[], by simp⟩, rfl⟩
    simp [Deframer.receiveAll, Deframer.receive, hr, Deframer.consume, h₁']
    simp [deframer]

theorem unpackSlot_meets {s : Slot} : (u.unpackSlot rules tick s).Meets (u.Takes [slotCell dir s] ·)
    (fun e => u.Refuses rules [slotCell dir s] e ∨ e = .illegalSlotType ∧ ¬s.Legal dir) := by
  unfold unpackSlot slotCell
  by_cases hs : s.type = dir.single
  case pos =>
    simp only [hs, ↓reduceIte]
    refine (CXLBuf.enqueue_meets.mono (fun _ => id) fun e he => ?_).bind fun b hb => ?_
    case _ =>
      obtain ⟨rfl, hf⟩ := he
      simp only [CXLBuf.isBufFull, beq_iff_eq] at hf
      exact .inl <| .single (by simp [Cell.single?, hf])
    case _ =>
      refine ⟨?_, ⟨_, rfl, hb⟩, ⟨[], by simp⟩, rfl⟩
      simp [Deframer.receiveAll, Deframer.receive]
      simp [deframer, Message.setTime_core]
  simp only [hs, ↓reduceIte]
  by_cases hh : s.type = dir.hdr
  case pos =>
    simp only [hh, ↓reduceIte]
    refine (assert_meets fun h => ?_).bind fun _ h₀ => ?_
    case _ =>
      have hr : u.deframer.owed ≠ 0 := h
      exact .inl <| .header (by simp [Deframer.receiveAll, Deframer.receive, hr])
    case _ =>
      have hr : u.deframer.owed = 0 := h₀
      refine ⟨?_, ⟨[], by simp⟩, ⟨[], by simp⟩, rfl⟩
      simp [Deframer.receiveAll, Deframer.receive, hr]
      simp [deframer]
  simp only [hh, ↓reduceIte]
  by_cases hd : s.type = .data
  case pos =>
    simp only [hd, ↓reduceIte]
    refine (assert_meets fun h => ?_).bind fun _ h₀ => ?_
    case _ =>
      have hr : u.deframer.owed = 0 := by simp [deframer]; omega
      exact .inl <| .data (by simp [Deframer.receiveAll, Deframer.receive, hr])
    case _ => exact (consumeData_meets (by omega)).mono (fun _ => id) fun e => .inl
  simp only [hd, ↓reduceIte]
  refine (assert_meets fun h => ?_).bind fun _ h₀ => ?_
  case _ => exact .inr ⟨rfl, by simp [Slot.Legal, hs, hh, hd, h]⟩
  case _ => exact ⟨rfl, ⟨[], by simp⟩, ⟨[], by simp⟩, rfl⟩

-- The failures of the loops over the slots of a flit.
def Stops (rules : UnpackerRules) (u : RxPort dir vcSize bufSize) (slots : List Slot)
    (cs : List (Cell Message Nat)) (e : Failure) : Prop :=
  u.Refuses rules cs e ∨ e = .illegalSlotType ∧ ∃ s ∈ slots, ¬s.Legal dir

theorem unpackSlots_meets {slots : List Slot} : (u.unpackSlots rules tick slots).Meets
    (u.Takes (slots.map (slotCell dir)) ·) (u.Stops rules slots (slots.map (slotCell dir))) := by
  induction slots generalizing u
  case nil => exact .nil u
  case cons s ss ih =>
    unfold unpackSlots
    refine (unpackSlot_meets.mono (fun _ => id) fun e he => ?_).bind fun u' hu' => ?_
    case _ =>
      exact he.imp (·.append _) fun h => ⟨h.left, s, List.mem_cons_self .., h.right⟩
    case _ =>
      refine ih.mono (fun u'' hu'' => hu'.trans hu'') fun e he => ?_
      exact he.imp hu'.refuses fun ⟨h, s', hs', hl⟩ => ⟨h, s', List.mem_cons_of_mem _ hs', hl⟩

theorem slotCell_data {s : Slot} (h : s.type = .data) : slotCell dir s = .data s.msg.msgId := by
  simp [slotCell, h, dir.single_ne_data.symm, dir.hdr_ne_data.symm]

theorem slotCell_isData {s : Slot} (h : s.type ≠ .data) : (slotCell dir s).isData = false := by
  unfold slotCell
  split
  case isTrue  => rfl
  case isFalse =>
    split
    case isTrue  => rfl
    case isFalse => rfl

theorem slotCell_empty (s : Slot) : slotCell dir { s with type := .empty } = .blank := by
  simp [slotCell, dir.single_ne_empty.symm, dir.hdr_ne_empty.symm]

theorem Takes.owed {b : Nat} (h : u.Takes [.data b] u') :
    u.unpackerRollover = u'.unpackerRollover + 1 := by
  have := (Deframer.receiveAll_received h.deframer).data
  simpa [Cell.isData, Cell.hdr?, List.filterMap_cons, RxPort.deframer] using this.symm

theorem illegal_cons {s s' : Slot} {ss ss' : List Slot} (hs : s'.Legal dir ∨ s' = s)
    (h : ∀ t ∈ ss', ¬t.Legal dir → t ∈ ss) : ∀ t ∈ s' :: ss', ¬t.Legal dir → t ∈ s :: ss := by
  intro t ht hl
  rcases List.mem_cons.mp ht with rfl | ht
  case inl => exact hs.elim (absurd · hl) fun h => h ▸ List.mem_cons_self ..
  case inr => exact List.mem_cons_of_mem _ (h t ht hl)

theorem takeRollover_meets {slots : List Slot} (h : u.unpackerRollover ≠ 0) :
    (u.takeRollover rules tick slots).Meets
      (fun r => u.Takes (Deframer.front u.unpackerRollover (slots.map (slotCell dir))) r.1 ∧
        r.2.map (slotCell dir) = Deframer.back u.unpackerRollover (slots.map (slotCell dir)) ∧
        ∀ s ∈ r.2, ¬s.Legal dir → s ∈ slots)
      (u.Refuses rules (Deframer.front u.unpackerRollover (slots.map (slotCell dir)))) := by
  induction slots generalizing u
  case nil =>
    obtain ⟨k, hk⟩ := Nat.exists_eq_succ_of_ne_zero h
    rw [hk]
    exact ⟨.nil u, rfl, by simp⟩
  case cons s ss ih =>
    unfold takeRollover
    by_cases hd : s.type = .data
    case neg =>
      have hc : (slotCell dir s).isData = false := slotCell_isData hd
      simp only [hd, ne_eq, not_false_eq_true, ↓reduceIte, List.map_cons,
        Deframer.front_skip _ _ hc, Deframer.back_skip _ _ hc]
      refine (ih h).bind fun r hr => ?_
      have ⟨ht, hb, hl⟩ := hr
      exact ⟨ht, by simp [hb], illegal_cons (.inr rfl) hl⟩
    case pos =>
      have hle : Slot.Legal dir { s with type := .empty } := .inr (.inr (.inr rfl))
      simp only [hd, ne_eq, not_true_eq_false, ↓reduceIte, List.map_cons, slotCell_data hd]
      obtain ⟨k, hk⟩ := Nat.exists_eq_succ_of_ne_zero h
      simp only [hk, Deframer.front, Deframer.back]
      refine ((consumeData_meets h).mono (fun _ => id) fun e he => he.append _).bind fun u' hu' => ?_
      have ho : u'.unpackerRollover = k := by have := hu'.owed; omega
      split
      case isTrue h₀ =>
        rw [← ho, h₀, Deframer.front, Deframer.back]
        exact ⟨hu', by simp [slotCell_empty], illegal_cons (.inl hle) fun _ ht _ => ht⟩
      case isFalse h₀ =>
        refine ((ih h₀).mono (fun _ => id) fun e he => ?_).bind fun r hr => ?_
        case _ => exact ho ▸ hu'.refuses he
        have ⟨ht, hb, hl⟩ := hr
        rw [ho] at ht hb
        exact ⟨hu'.trans ht, by simp [slotCell_empty, hb], illegal_cons (.inl hle) hl⟩

-- The cells of a flit in the order in which they are read.
def readOrder (u : RxPort dir vcSize bufSize) (f : Flit) : List (Cell Message Nat) :=
  Deframer.front u.deframer.owed (f.cells dir) ++ Deframer.back u.deframer.owed (f.cells dir)

theorem unpackFlit_meets {f : Flit} : (u.unpackFlit rules tick f).Meets
    (fun r => u.Takes (u.readOrder f) r.1 ∧
      r.2.map (slotCell dir) = Deframer.back u.deframer.owed (f.cells dir))
    (u.Stops rules f.slots (u.readOrder f)) := by
  unfold unpackFlit readOrder
  split
  case isTrue h =>
    refine ((takeRollover_meets h).mono (fun _ => id) fun e he => .inl (he.append _)).bind fun r hr => ?_
    have ⟨ht, hb, hl⟩ := hr
    refine (unpackSlots_meets.mono (fun _ => id) fun e he => ?_).bind fun u' hu' => ?_
    case _ =>
      refine he.imp (fun h => ?_) fun ⟨h, s, hs, hn⟩ => ⟨h, s, hl s hs hn, hn⟩
      rw [hb] at h
      exact ht.refuses h
    case _ =>
      rw [hb] at hu'
      exact ⟨ht.trans hu', hb⟩
  case isFalse h =>
    have h₀ : u.deframer.owed = 0 := not_not.mp h
    simp only [h₀, Deframer.front, Deframer.back, List.nil_append]
    exact unpackSlots_meets.bind fun u' hu' => ⟨hu', rfl⟩

end RxPort

section Frame

variable {dir : Dir} {σ : Type} {rules : PackerRules dir σ} {fr : Frame Message} {c : Credits}

theorem slotCell_core (s : Slot) : slotCell dir s.core = slotCell dir s :=
  rfl

theorem Flit.core_cells (f : Flit) : f.core.cells dir = f.cells dir := by
  simp [Flit.cells, Flit.core, Function.comp_def, slotCell_core]

theorem slotCell_cellSlot (x : Cell Message (Nat × Nat)) :
    slotCell dir (cellSlot dir x) = x.map Message.core Prod.fst := by
  cases x
  case single => simp [slotCell, cellSlot, Cell.map]
  case hdr    => simp [slotCell, cellSlot, Cell.map, dir.single_ne_hdr.symm]
  case data   => simp [slotCell, cellSlot, Cell.map, dir.single_ne_data.symm, dir.hdr_ne_data.symm]
  case blank  => simp [slotCell, cellSlot, Cell.map, dir.single_ne_empty.symm, dir.hdr_ne_empty.symm]

theorem frame_cells {f : Flit} (hf : f.slots = (frameSlots dir fr).map Slot.core) :
    f.cells dir = (fr.map Message.core).cells Message.msgId := by
  have h : (fr.map Message.core).cells Message.msgId = _ :=
    Frame.cells_map Message.mark Message.core Prod.fst fun _ => rfl
  rw [h]
  simp [Flit.cells, hf, frameSlots, Function.comp_def, slotCell_core, slotCell_cellSlot]

theorem frame_legal : ∀ s ∈ (frameSlots dir fr).map Slot.core, s.Legal dir := by
  intro s hs
  simp only [frameSlots, List.mem_map] at hs
  obtain ⟨_, ⟨x, _, rfl⟩, rfl⟩ := hs
  cases x <;> simp [Slot.Legal, Slot.core, cellSlot]

-- The data that is owed stands in the slots where the unpacker looks for it.
theorem frameSlots_data (hv : fr.Valid) {i : Nat} (h : i ≤ fr.owed) (h₀ : i ≠ 0 ∨ fr.owed = 4)
    (h₃ : i ≤ 3) : ((frameSlots dir fr).getD i {}).type = .data := by
  have hl := Frame.length_body Message.mark hv
  have hf := hv.fits
  unfold frameSlots Frame.cells
  generalize fr.body Message.mark = body at hl
  match body, hl with
  | [], hl =>
    have ho : fr.owed = 4 := by simp at hl; omega
    rw [ho]
    interval_cases i <;> rfl
  | x :: xs, hl =>
    have ho : fr.owed ≠ 4 := by simp at hl; omega
    obtain ⟨j, rfl⟩ := Nat.exists_eq_succ_of_ne_zero (h₀.resolve_right ho)
    have hj : j < fr.owed := h
    simp [List.getD_eq_getElem?_getD, List.getElem?_append, hj, cellSlot]

variable {vcSize bufSize : Nat} {u : RxPort dir vcSize bufSize} {f : Flit}

theorem getD_core_type (slots : List Slot) (i : Nat) :
    ((slots.map Slot.core).getD i {}).type = (slots.getD i {}).type := by
  simp only [List.getD_eq_getElem?_getD, List.getElem?_map]
  cases slots[i]? <;> rfl

theorem getD_type (hf : f.core.slots = (frameSlots dir fr).map Slot.core) (i : Nat) :
    (f.slots.getD i {}).type = ((frameSlots dir fr).getD i {}).type := by
  rw [← getD_core_type f.slots, ← getD_core_type (frameSlots dir fr), ← hf]
  rfl

theorem rolloverRule_frame (hv : fr.Valid) (hf : f.core.slots = (frameSlots dir fr).map Slot.core)
    (ho : u.deframer.owed = fr.owed) : u.rolloverRule f := by
  have hd {i : Nat} (h : i ≤ fr.owed) (h₀ : i ≠ 0 ∨ fr.owed = 4) (h₃ : i ≤ 3) :
      (f.slots[i]?.getD {}).type = .data := by
    rw [← List.getD_eq_getElem?_getD, getD_type hf, frameSlots_data hv h h₀ h₃]
  have h₄ : fr.owed ≤ 4 := by have := hv.fits; omega
  unfold RxPort.rolloverRule
  rw [show u.unpackerRollover = fr.owed from ho]
  generalize fr.owed = k at hd h₄
  interval_cases k
  case _ => rfl
  all_goals simp [hd]

end Frame

namespace RxPort

variable {dir : Dir} {vcSize bufSize : Nat} {rules : UnpackerRules} {tick : Int} {f : Flit}
variable {u u' : RxPort dir vcSize bufSize}

theorem Takes.reads (h : u.Takes (u.readOrder f) u') : u.receiver.Reads dir f.core u'.receiver := by
  have ⟨ms, hm, hq⟩ := h.single
  have ⟨ns, hn, hr⟩ := h.hdr
  refine ⟨?_, ⟨ms.map Message.core, ?_, ?_⟩, ⟨ns.map fun x => (x.1.core, x.2), ?_, ?_⟩⟩
  case _ => rw [Flit.core_cells]; exact h.deframer
  case _ => simp [receiver, RxPort.deframer, hm]
  case _ => simp [receiver, hq]
  case _ => simp [receiver, RxPort.deframer, hn]
  case _ => simp [receiver, hr, Function.comp_def]

theorem receiveFrame_of_isFrameFor (h : f.core.IsFrameFor dir u.receiver) :
    u.deframer.receiveAll (u.readOrder f) ≠ none := by
  have ⟨fr, hv, ho, hf⟩ := h
  have hc := Deframer.receiveFrame_cells Message.msgId (Frame.map_valid Message.core hv)
    (show u.deframer.owed = (fr.map Message.core).owed from ho)
  rw [← frame_cells hf, Flit.core_cells] at hc
  unfold readOrder
  rw [← Deframer.receiveFrame, hc]
  simp

theorem Stops.rejects {e : Failure} (h : u.Stops rules f.slots (u.readOrder f) e) :
    u.receiver.Rejects dir vcSize rules f.core e := by
  have hs : (u.readOrder f).filterMap Cell.single? = f.core.singles dir := by
    simp [readOrder, Flit.singles, Flit.core_cells, Deframer.filterMap_single_front,
      Deframer.filterMap_single_back]
  have hh : (u.readOrder f).filterMap Cell.hdr? = f.core.hdrs dir := by
    simp [readOrder, Flit.hdrs, Flit.core_cells, Deframer.filterMap_hdr_front,
      Deframer.filterMap_hdr_back]
  rcases h with h | ⟨rfl, s, hs, hl⟩
  case inl =>
    cases h
    case single h => exact .single (by simpa [receiver, hs] using h)
    case hdr h    => exact .hdr (by simpa [receiver, hh] using h)
    case header h => exact .rule (by simp) fun hf => receiveFrame_of_isFrameFor hf h
    case data h   => exact .rule (by simp) fun hf => receiveFrame_of_isFrameFor hf h
  case inr =>
    refine .rule (by simp) fun ⟨fr, hv, ho, hf⟩ => hl ?_
    have hc : s.core ∈ f.core.slots := List.mem_map_of_mem hs
    rw [hf] at hc
    exact frame_legal s.core hc

theorem checkRollover_meets : (u.checkRollover f).Meets (fun _ => True)
    (u.receiver.Rejects dir vcSize rules f.core) := by
  unfold checkRollover
  refine (assert_meets fun h => ?_).bind fun _ _ => (assert_meets fun h => ?_).imp fun _ _ => trivial
  case _ =>
    refine .rule (by simp) fun ⟨fr, hv, ho, hf⟩ => h ?_
    have hf := hv.fits
    have : u.unpackerRollover = fr.owed := ho
    omega
  case _ =>
    refine .rule (by simp) fun ⟨fr, hv, ho, hf⟩ => h ?_
    exact rolloverRule_frame hv hf ho

end RxPort

section Count

variable {dir : Dir}

theorem single?_slotCell (s : Slot) : (slotCell dir s).single?.isSome = (s.type == dir.single) := by
  unfold slotCell
  by_cases hs : s.type = dir.single
  case pos => simp [hs, Cell.single?]
  case neg => split_ifs <;> simp [hs, Cell.single?]

theorem hdr?_slotCell (s : Slot) : (slotCell dir s).hdr?.isSome = (s.type == dir.hdr) := by
  unfold slotCell
  by_cases hs : s.type = dir.hdr
  case pos => simp [hs, Cell.hdr?, dir.single_ne_hdr.symm]
  case neg => split_ifs <;> simp [hs, Cell.hdr?]

theorem isData_slotCell (s : Slot) : (slotCell dir s).isData = (s.type == .data) := by
  by_cases hs : s.type = .data
  case pos => simp [RxPort.slotCell_data hs, hs, Cell.isData]
  case neg => simp [RxPort.slotCell_isData hs, hs]

variable (dir) (slots : List Slot)

theorem countP_single_cells : slots.countP (·.type == dir.single) =
    ((slots.map (slotCell dir)).filterMap Cell.single?).length := by
  simp [List.length_filterMap_eq_countP, single?_slotCell]

theorem countP_hdr_cells : slots.countP (·.type == dir.hdr) =
    ((slots.map (slotCell dir)).filterMap Cell.hdr?).length := by
  simp [List.length_filterMap_eq_countP, hdr?_slotCell]

theorem countP_data_cells : slots.countP (·.type == .data) =
    (slots.map (slotCell dir)).countP Cell.isData := by
  simp [List.countP_map, Function.comp_def, isData_slotCell]

end Count

-- A frame, and what is left of it after the rollover, obeys the packing rule.
theorem packingRule_frame {dir : Dir} {u : Receiver} {f : Flit} {slots : List Slot}
    (h : f.IsFrameFor dir u) {k : Nat}
    (hs : slots.map (slotCell dir) = Deframer.back k (f.cells dir)) :
    slots.countP (·.type == dir.single) ≤ 2 ∧ slots.countP (·.type == dir.hdr) ≤ 1 ∧
      slots.countP (·.type == .data) ≤ 4 := by
  have ⟨fr, hv, ho, hf⟩ := h
  have hcount (t : SlotType) :
      f.slots.countP (·.type == t) = (frameSlots dir fr).countP (·.type == t) := by
    simp [hf, List.countP_map, Function.comp_def, Slot.core_type]
  refine ⟨?_, ?_, ?_⟩
  case _ =>
    rw [countP_single_cells, hs, Deframer.filterMap_single_back, Flit.cells, ← countP_single_cells,
      hcount, countP_single]
    exact hv.singles
  case _ =>
    rw [countP_hdr_cells, hs, Deframer.filterMap_hdr_back, Flit.cells, ← countP_hdr_cells, hcount,
      countP_hdr]
    cases fr.hdr <;> simp
  case _ =>
    calc slots.countP (·.type == .data)
      _ = (Deframer.back k (f.cells dir)).countP Cell.isData := by rw [countP_data_cells dir, hs]
      _ ≤ (f.cells dir).countP Cell.isData := by
        have := Deframer.countP_front_add_back k (f.cells dir)
        omega
      _ ≤ (f.cells dir).length := List.countP_le_length
      _ = 4 := by simp [Flit.cells, hf, length_frameSlots dir hv]

end CXL
