import VldbArtifacts.CXLSim.Sender

-- The slots of a frame. There are few frames up to the messages in them, so that the facts about single
-- slots are checked for each of them.

namespace CXL

open Framing

variable {fr : Frame Message}

theorem Dir.single_ne_empty (dir : Dir) : dir.single ≠ .empty := by
  cases dir <;> simp [single]

theorem Dir.hdr_ne_empty (dir : Dir) : dir.hdr ≠ .empty := by
  cases dir <;> simp [hdr]

theorem Dir.single_ne_hdr (dir : Dir) : dir.single ≠ dir.hdr := by
  cases dir <;> simp [single, hdr]

theorem Dir.single_ne_data (dir : Dir) : dir.single ≠ .data := by
  cases dir <;> simp [single]

theorem Dir.hdr_ne_data (dir : Dir) : dir.hdr ≠ .data := by
  cases dir <;> simp [hdr]

theorem Dir.singleOp_ne_hdrOp (dir : Dir) : dir.singleOp ≠ dir.hdrOp := by
  cases dir <;> simp [singleOp, hdrOp]

-- A round of the slot loop while data is owed, on the slots and the rollover alone.
def fillStep (d : Slot) (x : List Slot × Nat) (i : Nat) : List Slot × Nat :=
  if (x.1.getD i {}).type = .empty then (x.1.set i d, x.2 - 1) else x

@[elab_as_elim]
theorem frame_cases {motive : Frame Message → Prop} (hv : fr.Valid) (hh : fr.hdr = none)
    (nil : ∀ k l, k ≤ 4 → motive ⟨k, l, [], none⟩)
    (one : ∀ k l a, k ≤ 3 → motive ⟨k, l, [a], none⟩)
    (two : ∀ k l a b, k ≤ 2 → motive ⟨k, l, [a, b], none⟩) : motive fr := by
  obtain ⟨owed, last, singles, hdr⟩ := fr
  have ⟨hf, hs⟩ := hv
  cases hh
  match singles with
  | []               => exact nil _ _ (by simpa using hf)
  | [a]              => exact one _ _ _ (by simp at hf; omega)
  | [a, b]           => exact two _ _ _ _ (by simp at hf; omega)
  | _ :: _ :: _ :: _ => simp at hs

-- A frame without a header that has room for another message.
structure OpenFrame (fr : Frame Message) : Prop where
  valid : fr.Valid
  hdr   : fr.hdr = none
  room  : fr.owed + fr.singles.length < 4

namespace OpenFrame

@[elab_as_elim]
theorem cases {motive : Frame Message → Prop} (h : OpenFrame fr)
    (nil : ∀ k l, k ≤ 3 → motive ⟨k, l, [], none⟩)
    (one : ∀ k l a, k ≤ 2 → motive ⟨k, l, [a], none⟩)
    (two : ∀ k l a b, k ≤ 1 → motive ⟨k, l, [a, b], none⟩) : motive fr := by
  have ⟨hv, hh, hr⟩ := h
  clear h
  revert hr
  refine frame_cases hv hh ?_ ?_ ?_
  case _ => exact fun k l _ hr => nil k l (by simpa [Nat.lt_succ_iff] using hr)
  case _ => exact fun k l a _ hr => one k l a (by simp at hr; omega)
  case _ => exact fun k l a b _ hr => two k l a b (by simp at hr; omega)

theorem firstBlank_lt (h : OpenFrame fr) : fr.firstBlank < 4 := by
  have := h.room
  unfold Frame.firstBlank
  split <;> omega

theorem addSingle_valid (h : OpenFrame fr) (m : Message) (h₁ : fr.singles.length ≤ 1) :
    (fr.addSingle m).Valid := by
  have := h.room
  constructor
  case fits    => simp [Frame.addSingle, h.hdr]; omega
  case singles => simp [Frame.addSingle]; omega

theorem addHdr_valid (h : OpenFrame fr) (m : Message) : (fr.addHdr m).Valid := by
  have := h.room
  refine ⟨?_, h.valid.singles⟩
  simp [Frame.addHdr]
  omega

theorem set_single (h : OpenFrame fr) (dir : Dir) (m : Message) :
    (frameSlots dir fr).set fr.firstBlank ⟨dir.single, m⟩ = frameSlots dir (fr.addSingle m) := by
  refine h.cases ?_ ?_ ?_
  case _ => intro k l hk; interval_cases k <;> rfl
  case _ => intro k l a hk; interval_cases k <;> rfl
  case _ => intro k l a b hk; interval_cases k <;> rfl

theorem allSlotsAfterEmpty (h : OpenFrame fr) (dir : Dir) : fr.firstBlank = 0 ∨
    (((frameSlots dir fr).take 3).drop (fr.firstBlank + 1)).all (·.type == .empty) := by
  refine h.cases ?_ ?_ ?_
  case _ => exact fun _ _ _ => .inl rfl
  case _ => intro k l a hk; interval_cases k <;> exact .inr rfl
  case _ => intro k l a b hk; interval_cases k <;> exact .inr rfl

-- The slots after a new header are filled with its data.
theorem fill_hdr (h : OpenFrame fr) (dir : Dir) (m : Message) :
    (List.range' (fr.firstBlank + 1) (3 - fr.firstBlank)).foldl
        (fillStep (cellSlot dir (.data m.mark)))
        ((frameSlots dir fr).set fr.firstBlank ⟨dir.hdr, m⟩, 4) =
      (frameSlots dir (fr.addHdr m), (fr.addHdr m).nextOwed) := by
  refine h.cases ?_ ?_ ?_
  case _ =>
    intro k l hk
    interval_cases k <;> simp [fillStep, frameSlots, Frame.cells, Frame.body, cellSlot,
      Frame.firstBlank, Frame.addHdr, Frame.nextOwed, List.range', List.replicate]
  case _ =>
    intro k l a hk
    interval_cases k <;> simp [fillStep, frameSlots, Frame.cells, Frame.body, cellSlot,
      Frame.firstBlank, Frame.addHdr, Frame.nextOwed, List.range', List.replicate]
  case _ =>
    intro k l a b hk
    interval_cases k <;> simp [fillStep, frameSlots, Frame.cells, Frame.body, cellSlot,
      Frame.firstBlank, Frame.addHdr, Frame.nextOwed, List.replicate]

end OpenFrame

-- Up to the first blank slot, all slots are taken.
theorem frameSlots_blank (dir : Dir) (hv : fr.Valid) (hh : fr.hdr = none) (ho : fr.owed ≤ 3)
    {i : Nat} (h₄ : i < 4) (hi : i ≤ fr.firstBlank) :
    if ((frameSlots dir fr).getD i {}).type = .empty then i = fr.firstBlank ∧ OpenFrame fr
    else i < fr.firstBlank := by
  revert ho hi
  refine frame_cases hv hh ?_ ?_ ?_
  case _ =>
    intro k l _ hk hi
    cases Nat.le_zero.mp hi
    interval_cases k <;> exact ⟨rfl, ⟨⟨by simp, by simp⟩, rfl, by simp⟩⟩
  case _ =>
    intro k l a _ hk hi
    interval_cases k <;> interval_cases i <;> cases dir <;>
      simp [frameSlots, Frame.cells, Frame.body, cellSlot, Frame.firstBlank, Dir.single] at hi ⊢ <;>
      exact ⟨⟨by simp, by simp⟩, rfl, by simp⟩
  case _ =>
    intro k l a b hb hk hi
    interval_cases k <;> interval_cases i <;> cases dir <;>
      simp [frameSlots, Frame.cells, Frame.body, cellSlot, Frame.firstBlank, Dir.single] at hi ⊢ <;>
      exact ⟨⟨by simp, by simp⟩, rfl, by simp⟩

theorem frameSlots_fresh (dir : Dir) (l : Message) {k : Nat} (hk : k ≤ 3) :
    (List.range' 1 k).foldl (·.set · (cellSlot dir (.data l.mark))) (List.replicate 4 {}) =
      frameSlots dir (.fresh k l) := by
  interval_cases k <;> rfl

theorem frameSlots_fresh_four (dir : Dir) (l : Message) :
    [0, 1, 2, 3].foldl (·.set · (cellSlot dir (.data l.mark))) (List.replicate 4 {}) =
      frameSlots dir (.fresh 4 l) :=
  rfl

theorem frameSlots_perm (dir : Dir) (fr : Frame Message) : (frameSlots dir fr).Perm
    ((List.replicate fr.owed (Cell.data fr.last.mark) ++ fr.body Message.mark).map (cellSlot dir)) :=
  (fr.cells_perm Message.mark).map _

theorem countP_single (dir : Dir) (fr : Frame Message) :
    (frameSlots dir fr).countP (·.type == dir.single) = fr.singles.length := by
  rw [(frameSlots_perm dir fr).countP_eq]
  cases dir <;> cases h : fr.hdr <;>
    simp [Frame.body, h, cellSlot, List.countP_replicate, List.countP_map,
      Function.comp_def, Dir.single, Dir.hdr]

theorem countP_hdr (dir : Dir) (fr : Frame Message) :
    (frameSlots dir fr).countP (·.type == dir.hdr) = fr.hdr.toList.length := by
  rw [(frameSlots_perm dir fr).countP_eq]
  cases dir <;> cases h : fr.hdr <;>
    simp [Frame.body, h, cellSlot, List.countP_replicate, List.countP_map,
      Function.comp_def, Dir.single, Dir.hdr]

theorem countP_data (dir : Dir) (hv : fr.Valid) :
    (frameSlots dir fr).countP (·.type == .data) + fr.nextOwed =
      fr.owed + 4 * fr.hdr.toList.length := by
  have ⟨hf, _⟩ := hv
  rw [(frameSlots_perm dir fr).countP_eq]
  cases dir <;> cases h : fr.hdr <;>
    simp [Frame.body, Frame.nextOwed, h, cellSlot, List.countP_replicate, Function.comp_def,
      Dir.single, Dir.hdr, List.countP_eq_zero.mpr] at hf ⊢ <;> omega

theorem length_frameSlots (dir : Dir) (hv : fr.Valid) : (frameSlots dir fr).length = 4 := by
  have ⟨hf, _⟩ := hv
  rw [(frameSlots_perm dir fr).length_eq]
  cases h : fr.hdr <;> simp [Frame.body, h] at hf ⊢ <;> omega

theorem frameSlots_full (dir : Dir) (hf : fr.owed + fr.singles.length = 4 ∨ fr.hdr ≠ none) :
    ∀ s ∈ frameSlots dir fr, s.type ≠ .empty := by
  intro s hs
  rw [(frameSlots_perm dir fr).mem_iff] at hs
  cases h : fr.hdr
  case none =>
    have h0 : 4 - fr.owed - fr.singles.length = 0 := by simp [h] at hf; omega
    simp only [Frame.body, h, h0, List.replicate_zero, List.append_nil, List.map_append,
      List.mem_append, List.mem_map, List.mem_replicate] at hs
    rcases hs with ⟨_, ⟨_, rfl⟩, rfl⟩ | ⟨_, ⟨_, _, rfl⟩, rfl⟩
    case _ => simp [cellSlot]
    case _ => exact dir.single_ne_empty
  case some a =>
    simp only [Frame.body, h, List.map_append, List.mem_append, List.mem_map, List.mem_replicate,
      List.map_cons, List.mem_cons] at hs
    rcases hs with ⟨_, ⟨_, rfl⟩, rfl⟩ | ⟨_, ⟨_, _, rfl⟩, rfl⟩ | rfl | ⟨_, ⟨_, rfl⟩, rfl⟩
    case _ => simp [cellSlot]
    case _ => exact dir.single_ne_empty
    case _ => exact dir.hdr_ne_empty
    case _ => simp [cellSlot]

theorem frameSlots_empty_iff (dir : Dir) (hv : fr.Valid) :
    (∀ s ∈ frameSlots dir fr, s.type = .empty) ↔ fr.IsEmpty := by
  constructor
  case mp =>
    intro h
    have hz (t : SlotType) (ht : t ≠ .empty) :
        (frameSlots dir fr).countP (·.type == t) = 0 := by
      refine List.countP_eq_zero.mpr fun s hs => ?_
      simpa [h s hs] using ht.symm
    have h₁ := countP_single dir fr
    have h₂ := countP_hdr dir fr
    have h₃ := countP_data dir hv
    rw [hz _ dir.single_ne_empty] at h₁
    rw [hz _ dir.hdr_ne_empty] at h₂
    rw [hz _ (by simp)] at h₃
    have hh : fr.hdr = none := by simpa using h₂.symm
    simp only [hh, Frame.nextOwed] at h₃
    exact ⟨by simpa using h₃.symm, List.length_eq_zero_iff.mp h₁.symm, hh⟩
  case mpr =>
    rintro ⟨ho, hs, hh⟩ s hm
    rw [(frameSlots_perm dir fr).mem_iff] at hm
    simp only [Frame.body, ho, hs, hh] at hm
    simp [cellSlot] at hm
    rw [hm]

end CXL
