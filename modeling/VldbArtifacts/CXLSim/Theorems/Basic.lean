import VldbArtifacts.Lib.Except
import VldbArtifacts.CXLSim.Sender

-- Buffers, buses and stamps.

namespace CXL

theorem assert_meets {p : Prop} [Decidable p] {e : Failure} {E : Failure → Prop} (he : ¬p → E e) :
    (assert p e).Meets (fun _ => p) E := by
  unfold assert
  exact .ite id he

theorem firstOf_meets {α : Type} {x y : Sim (Option α)} {Q : Option α → Prop} {E : Failure → Prop}
    (hx : x.Meets (fun | some a => Q (some a) | none => y.Meets Q E) E) :
    (firstOf x y).Meets Q E := by
  refine hx.bind fun a ha => ?_
  cases a <;> exact ha

section Option

variable {α : Type} {a : α} {Q : α → Prop} {E : Failure → Prop}

theorem meets_none : (pure none : Sim (Option α)).Meets (fun o => ∀ b ∈ o, Q b) E :=
  Except.meets_pure.mpr nofun

theorem meets_some (h : Q a) : (pure (some a) : Sim (Option α)).Meets (fun o => ∀ b ∈ o, Q b) E :=
  Except.meets_pure.mpr fun _ hb => Option.some.inj hb ▸ h

end Option

-- One of two channels is served if there is something in one of them.
theorem firstOf_getD_meets {α : Type} {x y : Sim (Option α)} {a : α} {Q : α → Prop}
    {E : Failure → Prop} (hx : x.Meets (fun o => ∀ b ∈ o, Q b) E)
    (hy : y.Meets (fun o => ∀ b ∈ o, Q b) E) (ha : Q a) :
    (do return (← firstOf x y).getD a : Sim α).Meets Q E := by
  have h : (firstOf x y).Meets (fun o => ∀ b ∈ o, Q b) E := by
    refine firstOf_meets <| hx.imp fun o ho => ?_
    cases o
    case none   => exact hy
    case some b => exact ho
  refine h.bind fun o ho => ?_
  cases o
  case none   => exact ha
  case some b => exact ho b rfl

theorem CXLBuf.enqueue_meets {size : Nat} {α : Type} {name : BufName} {b : CXLBuf size α} {f : α} :
    (b.enqueue name f).Meets (fun b' => b'.q = b.q ++ [f])
      (fun e => e = .addingToFullBuffer name ∧ b.isBufFull) := by
  unfold enqueue
  split
  case isTrue h  => exact ⟨rfl, by simp [isBufFull, h]⟩
  case isFalse h => rfl

@[simp]
theorem TxPort.sender_frame {dir : Dir} {vcSize bufSize : Nat} {σ : Type}
    (p : TxPort dir vcSize bufSize σ) (fr : Framing.Frame Message) : (p.sender fr).frame = fr :=
  rfl

section Core

theorem Message.setTime_core (m : Message) (member : TimeField) (value : Int) :
    (m.setTime member value).core = m.core := by
  cases member <;> rfl

theorem Slot.core_type (s : Slot) : s.core.type = s.type :=
  rfl

@[simp]
theorem Flit.core_header (f : Flit) : f.core.header = f.header :=
  rfl

@[simp]
theorem Flit.core_time (f : Flit) (time : FlitLifetime) : Flit.core { f with time } = f.core :=
  rfl

@[simp]
theorem Flit.setTime_core (f : Flit) (member : TimeField) (value : Int) :
    (f.setTime member value).core = f.core := by
  simp only [Flit.core, Flit.setTime, List.map_map]
  congr 1
  refine List.map_congr_left fun s _ => ?_
  simp only [Function.comp_apply, Slot.core]
  split
  case isTrue  => rfl
  case isFalse => rw [Message.setTime_core]

end Core

end CXL
