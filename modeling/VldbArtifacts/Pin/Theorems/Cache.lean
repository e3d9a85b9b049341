import VldbArtifacts.Pin.DCache

-- The lines that an access goes over, and what it does to the cache.

namespace Pin

variable {cfg : CacheConfig} {addr tag size : Nat} {type : AccessType}

namespace CacheConfig

theorem lineSize_pos (cfg : CacheConfig) : 0 < cfg.lineSize :=
  Nat.two_pow_pos _

theorem lineSize_dvd (cfg : CacheConfig) : cfg.lineSize ∣ 2 ^ 64 :=
  Nat.pow_dvd_pow 2 (Nat.le_of_lt (Nat.lt_trans cfg.lineShift_lt (by decide)))

theorem tag_eq (cfg : CacheConfig) (addr : Nat) : cfg.tag addr = addr / cfg.lineSize :=
  Nat.shiftRight_eq_div_pow ..

theorem and_notLineMask (h : addr < 2 ^ 64) : addr &&& cfg.notLineMask = cfg.tag addr * cfg.lineSize := by
  have hmask : cfg.notLineMask = 2 ^ 64 - (2 ^ cfg.lineShift - 1 + 1) := by
    rw [Nat.sub_add_cancel Nat.one_le_two_pow]
    rfl
  have hlt : 2 ^ cfg.lineShift - 1 < 2 ^ 64 :=
    Nat.lt_of_lt_of_le (Nat.sub_lt cfg.lineSize_pos Nat.one_pos)
      (Nat.le_of_dvd (Nat.two_pow_pos 64) cfg.lineSize_dvd)
  apply Nat.eq_of_testBit_eq
  intro i
  rw [Nat.testBit_and, hmask, Nat.testBit_two_pow_sub_succ hlt, Nat.testBit_two_pow_sub_one, tag_eq,
    lineSize, Nat.testBit_mul_two_pow, ← Nat.shiftRight_eq_div_pow, Nat.testBit_shiftRight]
  by_cases hi : cfg.lineShift ≤ i
  case pos =>
    rw [Nat.add_sub_cancel' hi]
    by_cases h64 : i < 64
    case pos => simp [hi, h64, Nat.not_lt.mpr hi]
    case neg =>
      have : addr.testBit i = false :=
        Nat.testBit_lt_two_pow (Nat.lt_of_lt_of_le h (Nat.pow_le_pow_right (by decide) (by omega)))
      simp [this]
  case neg => simp [hi, Nat.lt_of_not_le hi]

theorem nextLine_eq (h : cfg.tag addr * cfg.lineSize + cfg.lineSize < 2 ^ 64) :
    cfg.nextLine addr = (cfg.tag addr + 1) * cfg.lineSize := by
  have haddr : addr < 2 ^ 64 := by
    rw [tag_eq, ← Nat.succ_mul] at h
    exact Nat.lt_trans (Nat.lt_mul_of_div_lt (Nat.lt_succ_self _) cfg.lineSize_pos) h
  rw [nextLine, and_notLineMask haddr, Nat.mod_eq_of_lt h, Nat.succ_mul]

-- The start of a line is not behind the start of the last one.
theorem nextLine_le (cfg : CacheConfig) (h : addr < 2 ^ 64) :
    cfg.nextLine addr ≤ 2 ^ 64 - cfg.lineSize := by
  have hdvd : cfg.lineSize ∣ cfg.nextLine addr := by
    rw [nextLine, and_notLineMask h, Nat.dvd_mod_iff cfg.lineSize_dvd, ← Nat.succ_mul]
    exact Nat.dvd_mul_left ..
  have hlt : cfg.nextLine addr < 2 ^ 64 := Nat.mod_lt _ (by decide)
  have ⟨q, hq⟩ := hdvd
  have ⟨n, hn⟩ := cfg.lineSize_dvd
  rw [hq, hn] at hlt
  have : q + 1 ≤ n := Nat.lt_of_mul_lt_mul_left hlt
  rw [hq, hn, ← Nat.mul_pred]
  exact Nat.mul_le_mul_left _ (Nat.le_pred_of_lt this)

theorem tag_mono (cfg : CacheConfig) (addr n : Nat) : cfg.tag addr ≤ cfg.tag (addr + n) := by
  rw [tag_eq, tag_eq]
  exact Nat.div_le_div_right (Nat.le_add_right ..)

-- The first line of an access, and the lines behind it.
theorem lines_eq_cons (cfg : CacheConfig) (addr size : Nat) :
    cfg.lines addr size = cfg.tag addr :: (cfg.lines addr size).tail ∧
      cfg.tag addr ∉ (cfg.lines addr size).tail := by
  have := cfg.tag_mono addr (size - 1)
  rw [lines, Nat.succ_sub this, List.range'_succ, List.tail_cons]
  exact ⟨rfl, fun h => absurd (List.left_le_of_mem_range' h) (Nat.not_succ_le_self _)⟩

end CacheConfig

namespace Cache

variable {c : Cache cfg} {highAddr : Nat}

theorem touch_of_holds (type : AccessType) (h : c.holds tag) : c.touch type tag = c := by
  simp [touch, h]

-- An access that hits all its lines leaves the cache as it is.
theorem fetches_eq_nil_iff (type : AccessType) {lines : List Nat} :
    c.fetches type lines = [] ↔ ∀ line ∈ lines, c.holds line := by
  induction lines generalizing c
  case nil => simp [fetches]
  case cons line lines ih =>
    rw [fetches, List.append_eq_nil_iff, List.forall_mem_cons]
    by_cases h : c.holds line
    case pos => simp [h, touch_of_holds, ih]
    case neg => simp [h]

theorem mem_of_mem_fetches {line : Nat} {lines : List Nat} (h : line ∈ c.fetches type lines) :
    line ∈ lines := by
  induction lines generalizing c
  case nil => exact h
  case cons line' lines ih =>
    rw [fetches, List.mem_append] at h
    rw [List.mem_cons]
    apply h.imp _ ih
    split <;> simp

-- The access never comes to an end if its end is in the last line.
theorem accessLoop_eq_none (h : 2 ^ 64 - cfg.lineSize < highAddr) (haddr : addr < 2 ^ 64) (fuel : Nat)
    (c : Cache cfg) (allHit : Bool) : accessLoop type highAddr fuel c addr allHit = none := by
  induction fuel generalizing c addr allHit
  case zero => rfl
  case succ fuel ih =>
    have hle := cfg.nextLine_le haddr
    rw [accessLoop, if_pos (Nat.lt_of_le_of_lt hle h)]
    exact ih (Nat.mod_lt _ (by decide)) ..

-- The rounds of the loop, when `n` lines follow the one of the address.
theorem accessLoop_eq (type : AccessType) (h : highAddr ≤ 2 ^ 64 - cfg.lineSize) (addr n fuel : Nat)
    (haddr : (cfg.tag addr + 1) * cfg.lineSize < 2 ^ 64)
    (hlast : highAddr ≤ (cfg.tag addr + n + 1) * cfg.lineSize)
    (hn : n ≠ 0 → (cfg.tag addr + n) * cfg.lineSize < highAddr) (hfuel : n < fuel)
    (c : Cache cfg) (allHit : Bool) :
    ∃ c', accessLoop type highAddr fuel c addr allHit =
      some (allHit && (c.fetches type (List.range' (cfg.tag addr) (n + 1))).isEmpty, c') := by
  induction n generalizing addr fuel c allHit
  case zero =>
    have ⟨fuel', hf⟩ := Nat.exists_eq_succ_of_ne_zero (by omega : fuel ≠ 0)
    refine ⟨c.touch type (cfg.tag addr), ?_⟩
    rw [hf, accessLoop, CacheConfig.nextLine_eq (by rwa [← Nat.succ_mul]), if_neg (Nat.not_lt.mpr hlast)]
    cases hh : c.holds (cfg.tag addr) <;> simp [fetches, hh]
  case succ n ih =>
    have ⟨fuel', hf⟩ := Nat.exists_eq_succ_of_ne_zero (by omega : fuel ≠ 0)
    have htag : cfg.tag ((cfg.tag addr + 1) * cfg.lineSize) = cfg.tag addr + 1 := by
      rw [cfg.tag_eq (_ * _), Nat.mul_div_cancel _ cfg.lineSize_pos]
    have hlt : (cfg.tag addr + 1) * cfg.lineSize < highAddr :=
      Nat.lt_of_le_of_lt (Nat.mul_le_mul_right _ (by omega)) (hn n.succ_ne_zero)
    have ⟨c', hc'⟩ := ih ((cfg.tag addr + 1) * cfg.lineSize) fuel'
      (by rw [htag, Nat.succ_mul (_ + 1)]; omega) (by rw [htag]; convert hlast using 2; omega)
      (fun _ => by rw [htag]; convert hn n.succ_ne_zero using 2; omega) (by omega)
      (c.touch type (cfg.tag addr)) (allHit && c.holds (cfg.tag addr))
    refine ⟨c', ?_⟩
    rw [hf, accessLoop, CacheConfig.nextLine_eq (by rwa [← Nat.succ_mul])]
    simp only [if_pos hlt, hc', htag]
    have hrange : List.range' (cfg.tag addr) (n + 1 + 1) =
        cfg.tag addr :: List.range' (cfg.tag addr + 1) (n + 1) := List.range'_succ
    rw [hrange, fetches]
    cases hh : c.holds (cfg.tag addr) <;> simp

-- An access of some bytes that does not reach into the last line goes over all its lines.
theorem access_eq (c : Cache cfg) (type : AccessType) (hsize : 0 < size)
    (hend : addr + size ≤ 2 ^ 64 - cfg.lineSize) :
    ∃ c', c.access addr size type = some ((c.fetches type (cfg.lines addr size)).isEmpty, c') := by
  have hpos := cfg.lineSize_pos
  have hmod : (addr + size) % 2 ^ 64 = addr + size := Nat.mod_eq_of_lt (by omega)
  have hle := cfg.tag_mono addr (size - 1)
  have hstart : cfg.tag addr * cfg.lineSize ≤ addr := cfg.tag_eq addr ▸ Nat.div_mul_le_self ..
  have hlast : cfg.tag (addr + (size - 1)) * cfg.lineSize ≤ addr + (size - 1) :=
    cfg.tag_eq _ ▸ Nat.div_mul_le_self ..
  have hnext : addr + (size - 1) < (cfg.tag (addr + (size - 1)) + 1) * cfg.lineSize :=
    cfg.tag_eq _ ▸ Nat.lt_mul_of_div_lt (Nat.lt_succ_self _) hpos
  have hfuel : cfg.tag (addr + (size - 1)) ≤ addr + (size - 1) := cfg.tag_eq _ ▸ Nat.div_le_self ..
  have hadd : cfg.tag addr + (cfg.tag (addr + (size - 1)) - cfg.tag addr) =
    cfg.tag (addr + (size - 1)) := Nat.add_sub_cancel' hle
  have ⟨c', hc'⟩ := accessLoop_eq type hend addr (cfg.tag (addr + (size - 1)) - cfg.tag addr)
    (2 ^ 64 + 1) (by rw [Nat.succ_mul]; omega) (by rw [hadd]; omega)
    (fun _ => by rw [hadd]; omega) (by omega) c true
  rw [← Nat.sub_add_comm hle, Bool.true_and] at hc'
  refine ⟨c'.count type (c.fetches type (cfg.lines addr size)).isEmpty, ?_⟩
  rw [access, hmod, hc']
  rfl

theorem access_eq_none (c : Cache cfg) (type : AccessType) (hend : 2 ^ 64 - cfg.lineSize < addr + size)
    (haddr : addr + size < 2 ^ 64) : c.access addr size type = none := by
  rw [access, Nat.mod_eq_of_lt haddr, accessLoop_eq_none hend (by omega)]
  rfl

theorem access_eq_some (hsize : 0 < size) (haddr : addr + size < 2 ^ 64) {r : Bool × Cache cfg}
    (h : c.access addr size type = some r) : r.1 = (c.fetches type (cfg.lines addr size)).isEmpty := by
  by_cases hend : addr + size ≤ 2 ^ 64 - cfg.lineSize
  case pos =>
    have ⟨c', hc'⟩ := c.access_eq type hsize hend
    exact congrArg Prod.fst (Option.some.inj (h.symm.trans hc'))
  case neg =>
    rw [access_eq_none c type (Nat.lt_of_not_le hend) haddr] at h
    contradiction

end Cache

end Pin
