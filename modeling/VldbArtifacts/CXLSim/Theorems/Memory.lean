import VldbArtifacts.CXLSim.Theorems.Basic
import VldbArtifacts.CXLSim.Net

-- Memories keep the requests they have taken, and the maps of active requests keep their tags.

namespace CXL

section Map

variable {a : AList fun _ : Nat => Message} {k : Nat} {m m' : Message}

theorem map_msgId_mapTags (h : KeysMatch a) : (mapTags a).map Tag.msgId = (a.keys : Multiset Nat) := by
  have : a.entries.map (fun e => e.2.tag.msgId) = a.keys := List.map_congr_left h
  simp [mapTags, ← this, Function.comp_def]

theorem mem_map_msgId_mapTags (h : KeysMatch a) : k ∈ (mapTags a).map Tag.msgId ↔ k ∈ a := by
  rw [map_msgId_mapTags h]
  rfl

theorem insertNew_tags (h : KeysMatch a) :
    mapTags (a.insertNew m.msgId m) = record (mapTags a) m.tag := by
  have hm : m.tag.msgId ∈ (mapTags a).map Tag.msgId ↔ m.msgId ∈ a := mem_map_msgId_mapTags h
  unfold AList.insertNew record
  by_cases h₁ : m.msgId ∈ a
  case pos => rw [if_pos h₁, if_pos (hm.mpr h₁)]
  case neg =>
    rw [if_neg h₁, if_neg (h₁ ∘ hm.mp), mapTags, AList.entries_insert_of_notMem h₁]
    rfl

theorem insertNew_keysMatch (h : KeysMatch a) : KeysMatch (a.insertNew m.msgId m) := by
  unfold AList.insertNew
  split
  case isTrue  => exact h
  case isFalse h₁ =>
    rw [KeysMatch, AList.entries_insert_of_notMem h₁]
    exact List.forall_mem_cons.mpr ⟨rfl, h⟩

theorem tags_erase (h : a.lookup k = some m) : mapTags a = m.tag ::ₘ mapTags (a.erase k) := by
  have := (AList.entries_perm_erase h).map fun e => e.2.tag
  simpa [mapTags] using this

theorem keysMatch_erase (h : KeysMatch a) : KeysMatch (a.erase k) :=
  fun e he => h e ((List.kerase_sublist k a.entries).subset he)

theorem msgId_of_lookup (h : KeysMatch a) (hm : a.lookup k = some m) : m.msgId = k :=
  h ⟨k, m⟩ (AList.mem_lookup_iff.mp hm)

-- The message of an id gets new times.
theorem insert_tags (h : a.lookup k = some m) (ht : m'.tag = m.tag) :
    mapTags (a.insert k m') = mapTags a := by
  rw [tags_erase h, ← ht]
  rfl

theorem insert_keysMatch (h : KeysMatch a) (hm : m'.msgId = k) : KeysMatch (a.insert k m') := by
  rw [KeysMatch, AList.entries_insert]
  exact List.forall_mem_cons.mpr ⟨hm, keysMatch_erase h⟩

end Map

theorem message2RamulatorReq_meets {m : Message} : (message2RamulatorReq m).Meets
    (fun r => r.reqId = m.msgId ∧ r.type = .valid ∧ (m.opCode = .req ∨ m.opCode = .rwd))
    Failure.IsOther := by
  unfold message2RamulatorReq
  split <;> simp_all [Failure.IsOther]

theorem CXLIfBuf.bufAdd_meets {b : CXLIfBuf} {r : RamulatorReq} :
    (b.bufAdd r).Meets (fun b' => b'.buf = b.buf ++ [r]) Failure.IsOther := by
  unfold bufAdd
  exact .ite (fun _ => trivial) fun _ => rfl

namespace Dram

variable {M : Memory} {d : Dram M}

theorem ids_bufAdd {r : RamulatorReq} {b : CXLIfBuf} (h : b.buf = d.inpBuf.buf ++ [r]) :
    Dram.ids { d with inpBuf := b } = r.reqId ::ₘ d.ids := by
  simp only [ids, h, List.map_append, List.map_cons, List.map_nil, ← Multiset.coe_add]
  rw [← Multiset.singleton_add]
  simp only [Multiset.coe_singleton]
  abel

theorem Live.bufAdd {r : RamulatorReq} {b : CXLIfBuf} (h : d.Live)
    (hb : b.buf = d.inpBuf.buf ++ [r]) (hr : r.type = .valid) : Dram.Live { d with inpBuf := b } where
  valid  := by simp [hb, or_imp, forall_and, hr]; exact h.valid
  status := h.status
  stall  := h.stall

-- A request that was not accepted stays in the registers, and one that was is in the memory.
theorem ids_send (d : Dram M) : Dram.ids { d with
      memory := (M.send d.memory d.reg).2, stall := !(M.send d.memory d.reg).1 } =
    Dram.ids { d with stall := true } := by
  have h := M.outstanding_send d.memory d.reg
  simp only [ids, h]
  cases (M.send d.memory d.reg).1
  case false => simp
  case true  =>
    simp only [Bool.not_true, Bool.false_eq_true, ↓reduceIte, add_zero, Multiset.map_cons]
    rw [← Multiset.singleton_add]
    abel

-- The request in the registers is offered to the memory.
theorem feed_valid (h : d.Live) (hs : d.status = .valid) :
    let r := M.send d.memory d.reg
    let d' : Dram M := { d with memory := r.2, stall := !r.1 }
    d'.Live ∧ d'.ids = Dram.ids { d with stall := true } ∧
      ∀ q, (if r.1 then some d.reg else none) = some q → q.reqId ∈ Dram.ids { d with stall := true } := by
  refine ⟨⟨h.valid, h.status, fun _ => hs⟩, ids_send d, fun q hq => ?_⟩
  have : q = d.reg := by simp at hq; exact hq.2.symm
  simp [this, ids]

theorem feed_spec (h : d.Live) : d.feed.2.Live ∧ d.feed.2.ids = d.ids ∧
    ∀ r, d.feed.1 = some r → r.reqId ∈ d.ids := by
  unfold feed
  cases hst : d.stall
  case true =>
    have hs := h.stall hst
    have hi : Dram.ids { d with stall := true } = d.ids := by simp [ids, hst]
    simp only [hs, ne_eq, reduceCtorEq, not_false_eq_true, not_true_eq_false, and_false, ↓reduceIte]
    have hf := feed_valid h hs
    rw [hi] at hf
    simp only [hs] at hf
    exact hf
  case false =>
    simp only [h.status, ne_eq, not_false_eq_true, Bool.false_eq_true, and_self, ↓reduceIte,
      getDramtraceRequest]
    cases hb : d.inpBuf.buf
    case nil =>
      refine ⟨⟨h.valid, by simp, by simp [hst]⟩, by simp [ids, hst], by simp⟩
    case cons r q =>
      have hr : r.type ≠ .end := by rw [h.valid r (by simp [hb])]; simp
      simp only [hr, ↓reduceIte]
      let d₁ : Dram M := { d with reg := ⟨r.reqAddr, r.reqType, r.reqId⟩, inpBuf := ⟨q⟩, status := .valid }
      have h₁ : d₁.Live := ⟨fun r' hr' => h.valid r' (by simp [hb]; exact .inr hr'), by simp [d₁], by simp [d₁]⟩
      have hi : Dram.ids { d₁ with stall := true } = d.ids := by
        simp only [ids, d₁, hb, hst, ↓reduceIte, Bool.false_eq_true, add_zero, List.map_cons]
        rw [← Multiset.cons_coe, ← Multiset.singleton_add]
        abel
      have := feed_valid h₁ rfl
      rwa [hi] at this

theorem tick_spec (h : d.Live) : d.tick.2.Live ∧
    d.ids = d.tick.1.map Request.reqId + d.tick.2.ids := by
  refine ⟨⟨h.valid, h.status, h.stall⟩, ?_⟩
  have hm := M.outstanding_tick d.memory
  show ids d = ((M.tick d.memory).1.map Request.reqId : Multiset Nat) +
    ids { d with memory := (M.tick d.memory).2, clks := d.clks + 1 }
  simp only [ids, hm, Multiset.map_add, Multiset.map_coe]
  abel

theorem Live.isActive (h : d.Live) : d.isActive := by
  simp [Dram.isActive, h.status]

end Dram

end CXL
