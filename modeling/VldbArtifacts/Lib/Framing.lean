import Mathlib.Algebra.BigOperators.Group.List.Basic
import Mathlib.Data.List.Perm.Basic
import Mathlib.Tactic

-- Frames of four cells. A message takes one cell, or a header cell followed by four data cells. The data
-- that does not fit into the frame of its header is owed to the frames after it. There it takes the
-- cells from the second on, so that the first cell stays free for something else.

open scoped List

namespace Framing

variable {α β : Type}

inductive Cell (α β : Type)
  | single (a : α)
  | hdr (a : α)
  | data (b : β)
  | blank

def Cell.map {α' β' : Type} (g : α → α') (h : β → β') : Cell α β → Cell α' β'
  | single a => single (g a)
  | hdr a    => hdr (g a)
  | data b   => data (h b)
  | blank    => blank

-- The contents of a frame: the data owed to the header `last` of an earlier frame, and then messages
-- without data, of which there are at most two, and a header.
@[ext]
structure Frame (α : Type) where
  owed    : Nat
  last    : α
  singles : List α
  hdr     : Option α

namespace Frame

structure Valid (fr : Frame α) : Prop where
  fits    : fr.owed + fr.singles.length + fr.hdr.toList.length ≤ 4
  singles : fr.singles.length ≤ 2

def fresh (owed : Nat) (last : α) : Frame α :=
  ⟨owed, last, [], none⟩

def IsEmpty (fr : Frame α) : Prop :=
  fr.owed = 0 ∧ fr.singles = [] ∧ fr.hdr = none

def addSingle (fr : Frame α) (a : α) : Frame α :=
  { fr with singles := fr.singles ++ [a] }

def addHdr (fr : Frame α) (a : α) : Frame α :=
  { fr with hdr := some a }

-- What is owed after the frame.
def nextOwed (fr : Frame α) : Nat :=
  match fr.hdr with
  | none   => 0
  | some _ => 1 + fr.owed + fr.singles.length

def nextLast (fr : Frame α) : α :=
  fr.hdr.getD fr.last

def next (fr : Frame α) : Frame α :=
  fresh fr.nextOwed fr.nextLast

-- The messages that start in the frame.
def messages (fr : Frame α) : List α :=
  fr.singles ++ fr.hdr.toList

variable (mark : α → β)

def body (fr : Frame α) : List (Cell α β) :=
  fr.singles.map .single ++
    match fr.hdr with
    | none   => List.replicate (4 - fr.owed - fr.singles.length) .blank
    | some a => .hdr a :: List.replicate (3 - fr.owed - fr.singles.length) (.data (mark a))

def cells (fr : Frame α) : List (Cell α β) :=
  (fr.body mark).take 1 ++ List.replicate fr.owed (.data (mark fr.last)) ++ (fr.body mark).drop 1

theorem cells_perm (fr : Frame α) :
    fr.cells mark ~ List.replicate fr.owed (.data (mark fr.last)) ++ fr.body mark := by
  calc
    _ ~ List.replicate fr.owed (.data (mark fr.last)) ++ (fr.body mark).take 1 ++
          (fr.body mark).drop 1 := List.Perm.append_right _ List.perm_append_comm
    _ = _ := by rw [List.append_assoc, List.take_append_drop]

-- The cell that the next message takes, if there is one.
def firstBlank (fr : Frame α) : Nat :=
  if fr.singles.length = 0 then 0 else fr.owed + fr.singles.length

theorem fresh_valid {owed : Nat} (last : α) (h : owed ≤ 4) : (fresh owed last).Valid :=
  ⟨h, by simp [fresh]⟩

variable {fr : Frame α}

theorem Valid.nextOwed_le (h : fr.Valid) : fr.nextOwed ≤ 4 := by
  have ⟨hf, _⟩ := h
  unfold nextOwed
  split
  case _       => omega
  case _ a heq => simp [heq] at hf; omega

theorem Valid.next (h : fr.Valid) : fr.next.Valid :=
  fresh_valid _ h.nextOwed_le

theorem length_body (h : fr.Valid) : (fr.body mark).length = 4 - fr.owed := by
  have hf := h.fits
  unfold body
  cases hh : fr.hdr <;> simp [hh] at hf ⊢ <;> omega

section Map

variable {α' β' : Type} (g : α → α') (h : β → β')

def map (fr : Frame α) : Frame α' where
  owed    := fr.owed
  last    := g fr.last
  singles := fr.singles.map g
  hdr     := fr.hdr.map g

theorem map_valid (hv : fr.Valid) : (fr.map g).Valid := by
  refine ⟨?_, by simpa [map] using hv.singles⟩
  have hf := hv.fits
  cases hh : fr.hdr <;> simpa [map, hh] using hf

@[simp]
theorem map_nextOwed : (fr.map g).nextOwed = fr.nextOwed := by
  cases hh : fr.hdr <;> simp [map, nextOwed, hh]

@[simp]
theorem map_nextLast : (fr.map g).nextLast = g fr.nextLast := by
  cases hh : fr.hdr <;> simp [map, nextLast, hh]

theorem cells_map {mark' : α' → β'} (hm : ∀ a, mark' (g a) = h (mark a)) :
    (fr.map g).cells mark' = (fr.cells mark).map (Cell.map g h) := by
  have hb : (fr.map g).body mark' = (fr.body mark).map (Cell.map g h) := by
    cases hh : fr.hdr <;> simp [map, body, hh, Cell.map, hm]
  simp [cells, hb, List.map_take, Cell.map]
  simp [map, hm]

end Map

end Frame

end Framing
