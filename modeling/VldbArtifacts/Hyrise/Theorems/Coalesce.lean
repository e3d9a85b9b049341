import VldbArtifacts.Hyrise.Coalesce

-- The blocks cover the ranges. They are disjoint if each range only reaches into the block it is added to.

namespace Hyrise

variable {blkSize : Nat} {c : Chunk} {calls : List Chunk} {blks : List Extent} {addr : Nat}

theorem roundDown_eq (addr : Nat) : roundDown addr = addr / lineSize * lineSize := by
  have := Nat.div_add_mod addr lineSize
  rw [roundDown, Nat.mul_comm]
  split <;> omega

theorem Py.roundUp_eq (addr : Nat) : Py.roundUp addr = (addr + (lineSize - 1)) / lineSize * lineSize := by
  rw [Py.roundUp, lineSize]
  split <;> omega

theorem roundUp_eq (h : addr ≤ 2 ^ 64 - lineSize) : roundUp addr = Py.roundUp addr := by
  rw [roundUp, Py.roundUp]
  split
  case isTrue  => rfl
  case isFalse hm =>
    rw [lineSize] at h hm ⊢
    omega

namespace Chunk

theorem lines_lo_le_hi (c : Chunk) : c.lines.lo ≤ c.lines.hi :=
  Nat.mul_le_mul_right _ (Nat.div_le_div_right (by omega))

theorem lines_aligned (c : Chunk) : lineSize ∣ c.lines.lo ∧ lineSize ∣ c.lines.hi :=
  ⟨Nat.dvd_mul_left .., Nat.dvd_mul_left ..⟩

theorem lines_contains (h : c.extent.Contains addr) : c.lines.Contains addr := by
  simp only [extent, lines, lineSize, Extent.Contains] at h ⊢
  omega

theorem target_lt (blkSize : Nat) (c : Chunk) (blks : List Extent) :
    ∀ i ∈ c.target blkSize blks, i < blks.length := by
  intro i hi
  exact (List.findIdx?_eq_some_iff_findIdx_eq.mp hi).left

end Chunk

-- The ends of the block are moved one after the other.
theorem extend_eq (r blk : Extent) :
    (let blk := if r.hi > blk.hi then { blk with hi := r.hi } else blk
      if r.lo < blk.lo then { blk with lo := r.lo } else blk) = r.hull blk := by
  by_cases hhi : r.hi > blk.hi
  all_goals
    by_cases hlo : r.lo < blk.lo
    all_goals
      apply Extent.ext <;> simp [hhi, hlo, Extent.hull] <;> omega

theorem coalesce_eq (blkSize : Nat) (h : c.Fits) (blks : List Extent) :
    coalesce blkSize c.start c.size blks = c.lines.absorb (c.target blkSize blks) blks := by
  have hmod : (c.start + c.size) % 2 ^ 64 = c.start + c.size := by
    rw [Chunk.Fits, lineSize] at h
    omega
  have hlines : (⟨roundDown c.start, roundUp (c.start + c.size)⟩ : Extent) = c.lines := by
    rw [roundDown_eq, roundUp_eq h, Py.roundUp_eq, Chunk.lines]
  have hlo : roundDown c.start = c.lines.lo := congrArg Extent.lo hlines
  have hhi : roundUp (c.start + c.size) = c.lines.hi := congrArg Extent.hi hlines
  simp only [coalesce, getMatchingBlkId, hmod, hlo, hhi, extend_eq]
  rw [Chunk.target]
  cases blks.findIdx? (matchesBlk blkSize c.lines) <;> rfl

namespace Py

-- The cases for a range that ends before it starts are never needed.
theorem matchesBlk_eq {r : Extent} (h : r.lo ≤ r.hi) (blk : Extent) :
    matchesBlk r blk = Hyrise.matchesBlk (2 ^ 20) r blk := by
  simp only [matchesBlk, Hyrise.matchesBlk]
  split_ifs <;> first | rfl | (exfalso; omega)

theorem updateBlks_eq (c : Chunk) (blks : List Extent) :
    updateBlks ⟨c.start, c.start + c.size⟩ blks = c.lines.absorb (c.target (2 ^ 20) blks) blks := by
  have hlo : roundDown c.start = c.lines.lo := roundDown_eq _
  have hhi : roundUp (c.start + c.size) = c.lines.hi := roundUp_eq _
  have hmatch : matchesBlk c.lines = Hyrise.matchesBlk (2 ^ 20) c.lines :=
    funext (matchesBlk_eq c.lines_lo_le_hi)
  simp only [updateBlks, giveMatchingBlkId, hlo, hhi, extend_eq, hmatch]
  rw [Chunk.target]
  cases blks.findIdx? (Hyrise.matchesBlk (2 ^ 20) c.lines) <;> rfl

-- Both programs make the same blocks.
theorem updateAll_eq (h : ∀ c ∈ calls, c.Fits) : updateAll calls = coalesceAll (2 ^ 20) calls := by
  induction calls using List.reverseRecOn
  case nil => rfl
  case append_singleton calls c ih =>
    rw [List.forall_mem_append, List.forall_mem_singleton] at h
    have := ih h.left
    rw [updateAll, coalesceAll] at this ⊢
    rw [List.foldl_concat, List.foldl_concat, this, updateBlks_eq, coalesce_eq _ h.right]

end Py

section Run

theorem coalesceAll_concat (blkSize : Nat) (calls : List Chunk) (h : c.Fits) :
    coalesceAll blkSize (calls ++ [c]) =
      c.lines.absorb (c.target blkSize (coalesceAll blkSize calls)) (coalesceAll blkSize calls) := by
  rw [coalesceAll, List.foldl_concat, coalesce_eq _ h]
  rfl

theorem coalesceAll_aligned (blkSize : Nat) (h : ∀ c ∈ calls, c.Fits) :
    ∀ b ∈ coalesceAll blkSize calls, lineSize ∣ b.lo ∧ lineSize ∣ b.hi := by
  induction calls using List.reverseRecOn
  case nil => exact List.forall_mem_nil _
  case append_singleton calls c ih =>
    rw [List.forall_mem_append, List.forall_mem_singleton] at h
    rw [coalesceAll_concat blkSize calls h.right]
    refine Extent.forall_mem_absorb (fun r s hr hs => ⟨?_, ?_⟩) c.lines_aligned (ih h.left)
    · exact (min_choice r.lo s.lo).elim (fun he => by simpa [Extent.hull, he] using hr.left)
        (fun he => by simpa [Extent.hull, he] using hs.left)
    · exact (max_choice r.hi s.hi).elim (fun he => by simpa [Extent.hull, he] using hr.right)
        (fun he => by simpa [Extent.hull, he] using hs.right)

theorem coalesceAll_covers (blkSize : Nat) (h : ∀ c ∈ calls, c.Fits) :
    ∀ c ∈ calls, ∀ addr, c.extent.Contains addr → ∃ b ∈ coalesceAll blkSize calls, b.Contains addr := by
  induction calls using List.reverseRecOn
  case nil => exact List.forall_mem_nil _
  case append_singleton calls c ih =>
    rw [List.forall_mem_append, List.forall_mem_singleton] at h ⊢
    rw [coalesceAll_concat blkSize calls h.right]
    constructor
    case left =>
      intro c' hc' addr ha
      obtain ⟨b, hb, hba⟩ := ih h.left c' hc' addr ha
      exact Extent.contains_absorb_of_mem _ hb hba c.lines
    case right =>
      intro addr ha
      exact Extent.contains_absorb (c.target_lt blkSize _) (Chunk.lines_contains ha)

-- Blocks never come apart, so each range has to be clear of the other blocks when it is added.
theorem coalesceAll_apart_iff (blkSize : Nat) (h : ∀ c ∈ calls, c.Fits) :
    (coalesceAll blkSize calls).Pairwise Extent.Apart ↔
      ∀ before c, before ++ [c] <+: calls → c.IsClear blkSize (coalesceAll blkSize before) := by
  induction calls using List.reverseRecOn
  case nil => simp [coalesceAll]
  case append_singleton calls c ih =>
    rw [List.forall_mem_append, List.forall_mem_singleton] at h
    rw [coalesceAll_concat blkSize calls h.right, Extent.pairwise_absorb_iff (c.target_lt blkSize _),
      ih h.left]
    constructor
    case mp =>
      rintro ⟨hcalls, hc⟩ before c' hp
      obtain he | hp := List.prefix_concat_iff.mp hp
      case inl =>
        obtain ⟨rfl, hlast⟩ := List.append_inj' he rfl
        exact List.singleton_inj.mp hlast ▸ hc
      case inr => exact hcalls before c' hp
    case mpr =>
      intro hall
      exact ⟨fun before c' hp => hall before c' (hp.trans (List.prefix_append ..)),
        hall calls c (List.prefix_refl _)⟩

theorem Chunk.IsClear.mergesInto (hc : c.IsClear blkSize blks) (hfits : c.Fits) {b : Extent}
    (hb : b ∈ blks) (ho : c.extent.Overlaps b) : c.MergesInto blkSize blks b := by
  obtain ⟨addr, ha, hba⟩ := Extent.overlaps_iff.mp ho
  have hlines := Chunk.lines_contains ha
  have hlt := c.target_lt blkSize blks
  have hcoal := coalesce_eq blkSize hfits blks
  rw [IsClear] at hc
  generalize c.target blkSize blks = i at hc hlt hcoal
  cases i
  case none => exact absurd (Extent.overlaps_iff.mpr ⟨addr, hlines, hba⟩) (hc b hb)
  case some i =>
    obtain ⟨before, s, behind, hs, hblks, her, _⟩ := Extent.exists_split (hlt i rfl)
    have hmem : b = s ∨ b ∈ blks.eraseIdx i := by
      rw [hblks, List.mem_append, List.mem_cons] at hb
      rw [her, List.mem_append]
      exact or_left_comm.mp hb
    obtain rfl | hmem := hmem
    case inl =>
      refine ⟨i, hs, hcoal.trans ?_⟩
      rw [Extent.absorb, List.modify_eq_set_getElem?, hs]
      rfl
    case inr =>
      exact absurd (Extent.overlaps_iff.mpr ⟨addr, hlines.hull_left s, hba⟩) (hc s hs b hmem)

end Run

-- The blocks are aligned and cover the ranges. No two of them overlap, and a range that overlaps a block becomes
-- a part of it, if each range is clear of the blocks that it is not added to.
theorem coalesceAll_disjoint_iff (blkSize : Nat) (calls : List Chunk) (h : ∀ c ∈ calls, c.Fits) :
    Py.updateAll calls = coalesceAll (2 ^ 20) calls ∧
    (∀ b ∈ coalesceAll blkSize calls, lineSize ∣ b.lo ∧ lineSize ∣ b.hi) ∧
    (∀ c ∈ calls, ∀ addr, c.extent.Contains addr →
      ∃ b ∈ coalesceAll blkSize calls, b.Contains addr) ∧
    ((coalesceAll blkSize calls).Pairwise (fun b b' => ¬b.Overlaps b') ∧
        (∀ before c, before ++ [c] <+: calls → ∀ b ∈ coalesceAll blkSize before,
          c.extent.Overlaps b → c.MergesInto blkSize (coalesceAll blkSize before) b) ↔
      ∀ before c, before ++ [c] <+: calls → c.IsClear blkSize (coalesceAll blkSize before)) := by
  refine ⟨Py.updateAll_eq h, coalesceAll_aligned blkSize h, coalesceAll_covers blkSize h, ?_⟩
  refine Iff.trans ?_ (coalesceAll_apart_iff blkSize h)
  apply and_iff_left_of_imp
  intro hapart before c hp b hb
  have hfits : c.Fits := h c (hp.subset (List.mem_append_right _ (List.mem_singleton_self c)))
  exact ((coalesceAll_apart_iff blkSize h).mp hapart before c hp).mergesInto hfits hb

-- A range inside a block of 4 MiB, more than 1 MiB from both of its ends, becomes a block of its own. A block
-- that is extended reaches into the next one.
theorem coalesceAll_overlap :
    coalesceAll (2 ^ 20) [⟨0, 2 ^ 22⟩, ⟨2 ^ 21, 0x20⟩] = [⟨0, 2 ^ 22⟩, ⟨2 ^ 21, 2 ^ 21 + 0x20⟩] ∧
    Py.updateAll [⟨0, 2 ^ 22⟩, ⟨2 ^ 21, 0x20⟩] = [⟨0, 2 ^ 22⟩, ⟨2 ^ 21, 2 ^ 21 + 0x20⟩] ∧
    coalesceAll (2 ^ 20) [⟨0, 0x20⟩, ⟨2 ^ 22, 0x20⟩, ⟨0x20, 2 ^ 22⟩] =
      [⟨0, 2 ^ 22 + 0x20⟩, ⟨2 ^ 22, 2 ^ 22 + 0x20⟩] ∧
    (⟨0, 2 ^ 22⟩ : Extent).Overlaps ⟨2 ^ 21, 2 ^ 21 + 0x20⟩ ∧
    (⟨0, 2 ^ 22 + 0x20⟩ : Extent).Overlaps ⟨2 ^ 22, 2 ^ 22 + 0x20⟩ := by
  decide +kernel

-- The second range starts in the first one, and the third one is far from both.
def Chunk.strings : List Chunk :=
  [⟨0x7fc3ac3ff060, 18⟩, ⟨0x7fc3ac3ff068, 40⟩, ⟨0x7fd3ac3ff000, 64⟩]

theorem coalesceAll_strings :
    (coalesceAll (2 ^ 20) Chunk.strings).Pairwise (fun b b' => ¬b.Overlaps b') := by
  have h := (coalesceAll_disjoint_iff (2 ^ 20) Chunk.strings (by decide)).right.right.right
  refine (h.mpr fun before c hp => ?_).left
  have hlist : ∀ p ∈ Chunk.strings.inits, ∀ c ∈ p.getLast?,
      c.IsClear (2 ^ 20) (coalesceAll (2 ^ 20) p.dropLast) := by
    decide +kernel
  have := hlist _ ((List.mem_inits _ _).mpr hp) c (by simp)
  rwa [List.dropLast_concat] at this

end Hyrise
