import VldbArtifacts.CXLSim.Theorems.Places

-- A device gives all of its free places to the host with each flit it sends, so that it keeps only those that
-- have become free since then. For each of them, a response is still to be sent.

namespace CXL

open Framing

variable {n : Nat} {cfg : Config n} {tick : Int}

-- Before its first flit, a device keeps all places but the one that the host has from the start.
def Sender.base (cfg : Config n) (x : Sender DeviceFlow) : Int :=
  if x.sent = [] then cfg.devVcSize - 1 else 0

-- The responses for which a place may have become free since the last flit: that of a read when the memory
-- took it, and that of a write when its NDR was packed.
def DeviceNode.unsent (hasData : Bool) (x : DeviceNode) : Nat :=
  if hasData then x.tx.frame.singles.length
  else x.mem.countP (¬·.isWrite) + x.tx.hdr.card + x.tx.frame.hdr.toList.length

structure DeviceNode.Lends (cfg : Config n) (x : DeviceNode) : Prop where
  ge : ∀ hasData, x.tx.base cfg ≤ x.tx.flow.intCred.request hasData
  le : ∀ hasData, x.tx.flow.intCred.request hasData ≤ x.tx.base cfg + x.unsent hasData

namespace DeviceNode

variable {x y : DeviceNode}

-- A step that sends nothing adds as many places as it adds responses that are to be sent.
theorem Lends.of_add {k : Bool → Nat} (h : x.Lends cfg) (hs : y.tx.sent = x.tx.sent)
    (hc : ∀ b, y.tx.flow.intCred.request b = x.tx.flow.intCred.request b + k b)
    (hu : ∀ b, y.unsent b = x.unsent b + k b) : y.Lends cfg := by
  have hb : y.tx.base cfg = x.tx.base cfg := by rw [Sender.base, hs, Sender.base]
  refine ⟨fun b => ?_, fun b => ?_⟩
  all_goals
    have := h.ge b
    have := h.le b
    have := hc b
    have := hu b
    omega

theorem Lends.of_eq (h : x.Lends cfg) (hs : y.tx.sent = x.tx.sent) (hc : y.tx.flow.intCred = x.tx.flow.intCred)
    (hu : ∀ b, y.unsent b = x.unsent b) : y.Lends cfg :=
  h.of_add (k := fun _ => 0) hs (fun b => by rw [hc]; exact (Int.add_zero _).symm) hu

theorem Lends.pack {z : Sender DeviceFlow} {fs : List Flit} (h : x.Lends cfg)
    (hz : Sender.Step (devicePackerRules cfg) tick x.tx z) (hn : x.tx.flow.Nonneg) :
    Lends cfg { x with tx := z, out := x.out ++ fs } := by
  cases hz
  case emit c s s' _ _ hc hs' =>
    obtain ⟨-, hint, -⟩ := DeviceFlow.getDeviceCredits_eq hc hn
    obtain ⟨hint', -⟩ := DeviceFlow.countSequence_creds hs'
    have hzero (b : Bool) : s'.intCred.request b = 0 := by
      rw [hint', hint]
      cases b <;> rfl
    refine ⟨fun b => ?_, fun b => ?_⟩
    all_goals
      dsimp only
      rw [hzero]
      simp [Sender.base]
  case start => exact h.of_eq rfl rfl fun _ => by rfl
  case refuse hs =>
    cases hs
    exact h.of_eq rfl rfl fun _ => by rfl
  case single m _ _ rest hh _ hm _ ho hp =>
    cases ho
    cases hp
    refine h.of_add (k := fun b => if b then 1 else 0) rfl (fun b => ?_) fun b => ?_
    case _ => cases b <;> simp [Credits.request]
    case _ => cases b <;> simp [unsent, Frame.addSingle]
  case hdr m _ _ rest hh _ hm _ ho hp =>
    cases ho
    cases hp
    refine h.of_eq rfl rfl fun b => ?_
    cases b <;> simp [unsent, Frame.addHdr, hh, hm]
    omega

theorem Step.lends {d : Fin n} (h : Step cfg x y) (hx : x.Solvent) (ho : x.Owns cfg d)
    (hu : UniqueIds x.tags) (hl : x.Lends cfg) : y.Lends cfg := by
  cases h
  case unpack => exact hl.of_eq rfl rfl fun _ => by rfl
  case sendRead m rest hq _ =>
    have hop : m.opCode = .req := (ho.single m (hq ▸ List.mem_cons_self)).opCode
    have hr := record_new (hu.notMem (cons_mem_le (Receiver.arrived_single hq)))
    refine hl.of_add (k := fun b => if b then 0 else 1) rfl (fun b => ?_) fun b => ?_
    case _ => cases b <;> simp [DeviceFlow.release, Credits.request, hop]
    case _ =>
      have hw : ¬m.tag.isWrite := by simp [Message.tag, hop, Opcode.isWrite]
      cases b <;> simp only [unsent, hr, Multiset.countP_cons, if_pos hw, Bool.false_eq_true, ↓reduceIte,
        add_zero]
      omega
  case sendWrite m rest hq _ =>
    have hop : m.opCode = .rwd := (ho.hdr m (hq ▸ List.mem_cons_self)).opCode
    have hr := record_new (hu.notMem (cons_mem_le (Receiver.arrived_hdr hq)))
    have hw : ¬¬m.tag.isWrite := by simp [Message.tag, hop, Opcode.isWrite]
    refine hl.of_eq rfl (by simp [DeviceFlow.release, hop]) fun b => ?_
    simp only [unsent, hr, Multiset.countP_cons, if_neg hw, add_zero]
  case respondRead m ids ht _ hop =>
    have hw : ¬m.tag.isWrite := by simp [Message.tag, hop, Opcode.isWrite]
    have hc : x.mem.countP (¬·.isWrite) = (x.mem.erase m.tag).countP (¬·.isWrite) + 1 := by
      conv_lhs => rw [← Multiset.cons_erase ht, Multiset.countP_cons, if_pos hw]
    refine hl.of_eq rfl rfl fun b => ?_
    cases b <;> simp only [unsent, hc, Multiset.card_cons, Bool.false_eq_true, ↓reduceIte]
    omega
  case respondWrite m ids ht _ hop =>
    have hw : ¬¬m.tag.isWrite := by simp [Message.tag, hop, Opcode.isWrite]
    have hc : x.mem.countP (¬·.isWrite) = (x.mem.erase m.tag).countP (¬·.isWrite) := by
      conv_lhs => rw [← Multiset.cons_erase ht, Multiset.countP_cons, if_neg hw, add_zero]
    refine hl.of_eq rfl rfl fun b => ?_
    simp only [unsent, hc]
  case pack hs _ => exact hl.pack hs hx.flow

end DeviceNode

namespace Net

variable {x y : Net n}

theorem Step.lends (h : Step cfg x y) (hx : x.Credited cfg) (hl : ∀ d, (x.dev d).Lends cfg) :
    ∀ d, (y.dev d).Lends cfg := by
  have hset {d : Fin n} {z : DeviceNode} (hz : z.Lends cfg) : ∀ i, ((x.setDev d z).dev i).Lends cfg :=
    (Function.forall_update_iff x.dev fun _ y => y.Lends cfg).mpr ⟨hz, fun i _ => hl i⟩
  cases h
  case host => exact hl
  case turn => exact hl
  case device d z hz => exact hset (hz.lends (hx.solvent.dev d) (hx.routed.owned d) (hx.ledger.uniqueIds d) (hl d))
  case route d _ _ => exact hset ⟨(hl d).ge, (hl d).le⟩
  case move d _ _  => exact hset ⟨(hl d).ge, (hl d).le⟩

theorem Reachable.lends (hn : n ≤ noDevice) (h : Reachable cfg x) (d : Fin n) : (x.dev d).Lends cfg := by
  induction h generalizing d
  case refl => exact ⟨fun b => by cases b <;> exact le_rfl, fun b => by cases b <;> exact (Int.add_zero _).ge⟩
  case tail hr hs ih => exact hs.lends (Reachable.credited hn hr) ih d

end Net

end CXL
