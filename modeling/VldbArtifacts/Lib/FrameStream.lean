import VldbArtifacts.Lib.Deframing

-- Streams of frames in which each frame carries the data that is owed before it, and the receiver of such
-- a stream.

namespace Framing

variable {α β γ : Type}

-- The number of data cells that are owed and the header they belong to, if there are any.
def due (owed : Nat) (last : α) : Option (Nat × α) :=
  if owed = 0 then none else some (owed, last)

theorem due_zero (last : α) : due 0 last = none :=
  rfl

theorem due_eq_none {owed : Nat} {last : α} : due owed last = none ↔ owed = 0 := by
  simp [due]

theorem due_eq_some {owed k : Nat} {last a : α} :
    due owed last = some (k, a) ↔ owed ≠ 0 ∧ owed = k ∧ last = a := by
  simp [due]

namespace Frame

def before (fr : Frame α) : Option (Nat × α) :=
  due fr.owed fr.last

def after (fr : Frame α) : Option (Nat × α) :=
  due fr.nextOwed fr.nextLast

theorem next_before (fr : Frame α) : fr.next.before = fr.after :=
  rfl

-- What is owed after a frame belongs to its header.
theorem after_eq_some {fr : Frame α} {k : Nat} {a : α} (h : fr.after = some (k, a)) : fr.hdr = some a := by
  obtain ⟨h₀, -, rfl⟩ := due_eq_some.mp h
  cases hh : fr.hdr
  case none   => simp [nextOwed, hh] at h₀
  case some b => simp [nextLast, hh]

-- A frame that is not empty starts a message or takes the last of what is owed.
theorem one_le_of_not_isEmpty {fr : Frame α} (h : ¬fr.IsEmpty) :
    1 + (if fr.after = none then 0 else 1) ≤
      fr.singles.length + 2 * fr.hdr.toList.length + if fr.before = none then 0 else 1 := by
  have hb : fr.before = none ↔ fr.owed = 0 := due_eq_none
  cases hh : fr.hdr
  case some a =>
    simp only [Option.toList_some, List.length_singleton]
    split <;> omega
  case none =>
    have ha : fr.after = none := due_eq_none.mpr (by simp [nextOwed, hh])
    simp only [ha, hb, Option.toList_none, List.length_nil, ↓reduceIte]
    have hne : fr.owed = 0 → fr.singles.length ≠ 0 := fun ho hs => h ⟨ho, List.length_eq_zero_iff.mp hs, hh⟩
    split <;> omega

end Frame

namespace Frame

-- The messages of the frame and what it owes satisfy `P`.
structure All (P : α → Prop) (fr : Frame α) : Prop where
  messages : ∀ a ∈ fr.messages, P a
  last     : fr.owed ≠ 0 → P fr.last

namespace All

variable {P : α → Prop} {fr : Frame α} {a : α}

theorem of_isEmpty (h : fr.IsEmpty) : fr.All P where
  messages := by simp [Frame.messages, h.right.left, h.right.right]
  last     := fun ho => absurd h.left ho

theorem addSingle (h : fr.All P) (hh : fr.hdr = none) (ha : P a) : (fr.addSingle a).All P where
  messages := by
    have hm : (fr.addSingle a).messages = fr.messages ++ [a] := by
      simp [Frame.messages, Frame.addSingle, hh]
    rw [hm]
    exact List.forall_mem_append.mpr ⟨h.messages, List.forall_mem_singleton.mpr ha⟩
  last     := h.last

theorem addHdr (h : fr.All P) (ha : P a) : (fr.addHdr a).All P where
  messages := by
    obtain ⟨hs, -⟩ := List.forall_mem_append.mp h.messages
    exact List.forall_mem_append.mpr ⟨hs, List.forall_mem_singleton.mpr ha⟩
  last     := h.last

theorem of_hdr (h : fr.All P) (hh : fr.hdr = some a) : P a :=
  h.messages a (List.mem_append_right _ (by simp [hh]))

theorem next (h : fr.All P) : fr.next.All P where
  messages := fun b hb => absurd hb List.not_mem_nil
  last     := by
    intro ho
    cases hh : fr.hdr
    case none => simp [Frame.next, Frame.fresh, Frame.nextOwed, hh] at ho
    case some b =>
      have hl : fr.next.last = b := by simp [Frame.next, Frame.fresh, Frame.nextLast, hh]
      exact hl ▸ h.of_hdr hh

theorem map {g : α → α} (h : fr.All P) (hg : ∀ a, P a → P (g a)) : (fr.map g).All P where
  messages := by
    have hm : (fr.map g).messages = fr.messages.map g := by
      cases hh : fr.hdr <;> simp [Frame.messages, Frame.map, hh]
    rw [hm]
    exact List.forall_mem_map.mpr fun a ha => hg a (h.messages a ha)
  last     := fun ho => hg fr.last (h.last ho)

end All

end Frame

-- Each item shows a frame, and the frames follow one another.
inductive Linked (shows : γ → Frame α → Prop) : Option (Nat × α) → List γ → Option (Nat × α) → Prop
  | nil {o} : Linked shows o [] o
  | cons {c fr cs o} : shows c fr → Linked shows fr.after cs o → Linked shows fr.before (c :: cs) o

namespace Linked

variable {shows shows' : γ → Frame α → Prop} {o o' o'' : Option (Nat × α)} {c : γ} {cs ds : List γ}

theorem append (h : Linked shows o cs o') (h' : Linked shows o' ds o'') : Linked shows o (cs ++ ds) o'' := by
  induction h
  case nil           => exact h'
  case cons hc _ ih  => exact .cons hc (ih h')

theorem concat {fr : Frame α} (h : Linked shows o cs fr.before) (hc : shows c fr) :
    Linked shows o (cs ++ [c]) fr.after :=
  h.append (.cons hc .nil)

theorem mono (h : Linked shows o cs o') (hs : ∀ c ∈ cs, ∀ fr, shows c fr → shows' c fr) :
    Linked shows' o cs o' := by
  induction h
  case nil => exact .nil
  case cons hc _ ih =>
    exact .cons (hs _ List.mem_cons_self _ hc) (ih fun c hm => hs c (List.mem_cons_of_mem _ hm))

theorem eq_of_nil (h : Linked shows o [] o') : o = o' := by
  cases h
  rfl

theorem uncons (h : Linked shows o (c :: cs) o') :
    ∃ fr, shows c fr ∧ fr.before = o ∧ Linked shows fr.after cs o' := by
  cases h
  case cons fr hc h => exact ⟨fr, hc, rfl, h⟩

theorem exists_of_mem (h : Linked shows o cs o') (hc : c ∈ cs) : ∃ fr, shows c fr := by
  induction h
  case nil => cases hc
  case cons hd _ ih =>
    rcases List.mem_cons.mp hc with rfl | hc
    case _ => exact ⟨_, hd⟩
    case _ => exact ih hc

end Linked

namespace Deframer

variable {r : Deframer α β} {fr : Frame α}

-- The receiver waits for what is owed, and has put all data to the header it belongs to.
structure Awaits (mark : α → β) (r : Deframer α β) (o : Option (Nat × α)) : Prop where
  due  : due r.owed r.last = o
  le   : r.owed ≤ 4
  ids  : r.owed ≠ 0 → r.ids = List.replicate (4 - r.owed) (mark r.last)
  hdrs : ∀ x ∈ r.hdrs, x.2 = List.replicate 4 (mark x.1)

theorem Awaits.owed_eq {mark : α → β} (h : r.Awaits mark fr.before) : r.owed = fr.owed := by
  have hd := h.due
  by_cases h₀ : fr.owed = 0
  case pos =>
    rw [Frame.before, h₀, due_zero, due_eq_none] at hd
    rw [hd, h₀]
  case neg => exact (due_eq_some.mp (hd.trans (if_neg h₀))).2.1

theorem Awaits.finish {mark : α → β} (h : r.Awaits mark fr.before) :
    (r.finish (mark fr.last)).owed = 0 ∧
      ∀ x ∈ (r.finish (mark fr.last)).hdrs, x.2 = List.replicate 4 (mark x.1) := by
  have ho := h.owed_eq
  unfold Deframer.finish
  split
  case isTrue h₀ => exact ⟨h₀, h.hdrs⟩
  case isFalse h₀ =>
    refine ⟨rfl, fun x hx => ?_⟩
    rcases List.mem_append.mp hx with hx | hx
    case _ => exact h.hdrs x hx
    case _ =>
      cases List.mem_singleton.mp hx
      have hl : r.last = fr.last := (due_eq_some.mp (h.due.trans (if_neg (ho ▸ h₀)))).2.2
      rw [h.ids h₀, hl, List.replicate_append_replicate, Nat.sub_add_cancel h.le]

-- A frame with what is owed is read, and the receiver waits for what is owed after it.
theorem Awaits.deliver {mark : α → β} (h : r.Awaits mark fr.before) (hv : fr.Valid) :
    r.receiveFrame (fr.cells mark) = some (r.deliver mark fr) ∧
      (r.deliver mark fr).Awaits mark fr.after := by
  obtain ⟨h₀, hhdrs⟩ := h.finish
  refine ⟨receiveFrame_cells mark hv h.owed_eq, ?_⟩
  unfold Deframer.deliver Frame.after Frame.nextLast
  cases hh : fr.hdr
  case none =>
    have hn : fr.nextOwed = 0 := by simp [Frame.nextOwed, hh]
    have ho : ((r.finish (mark fr.last)).addSingles fr.singles).owed = 0 := h₀
    refine ⟨?_, ho ▸ Nat.zero_le 4, fun hne => absurd ho hne, hhdrs⟩
    rw [ho, hn]
    rfl
  case some a => exact ⟨rfl, hv.nextOwed_le, fun _ => rfl, hhdrs⟩

end Deframer

end Framing
