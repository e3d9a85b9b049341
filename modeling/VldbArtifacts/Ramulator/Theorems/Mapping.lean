import VldbArtifacts.Lib.BitFields
import VldbArtifacts.Ramulator.Memory

-- The address vector of a request: the fields of its address.

namespace Ramulator

open DDR4

namespace DDR4

-- The values that the index of a level takes in an address.
def units (spec : DDR4) : Level → Nat
  | .column => spec.orgEntry.count .column / prefetchSize
  | level   => spec.orgEntry.count level

-- The vectors that name a transaction of the memory.
def Addresses (spec : DDR4) (v : AddrVec) : Prop :=
  ∃ f : Level → Nat, v = levels.map (fun level => (f level : Int)) ∧ ∀ level, f level < spec.units level

-- The sizes of the levels are powers of two. A column is at least as long as a transaction.
def Aligned (spec : DDR4) : Prop :=
  ∃ bits : Level → Nat, (∀ level, spec.orgEntry.count level = 2 ^ bits level) ∧ calcLog2 prefetchSize ≤ bits .column

theorem aligned_make (org : Org) (speed : Speed) (channelBits rankBits : Nat) :
    (make org speed channelBits rankBits).Aligned := by
  let spec := make org speed channelBits rankBits
  refine ⟨fun level => (spec.orgEntry.count level).log2, fun level => ?_, ?_⟩
  case refine_1 =>
    cases level <;> cases org <;> simp [spec, make, orgTable, OrgEntry.count, Nat.log2_two_pow] <;> rfl
  case refine_2 =>
    have hcol : spec.orgEntry.count .column = 2 ^ 10 := by cases org <;> rfl
    simp only [hcol]
    decide

namespace Aligned

variable {spec : DDR4}

theorem units_eq (h : spec.Aligned) (level : Level) : spec.units level = 2 ^ spec.addrBits level := by
  obtain ⟨bits, hcount, hcol⟩ := h
  have hlog (n : Nat) : calcLog2 (2 ^ n) = n := Nat.log2_two_pow
  cases level
  case column =>
    have hpre : prefetchSize = 2 ^ calcLog2 prefetchSize := by decide
    calc spec.orgEntry.count .column / prefetchSize
      _ = 2 ^ bits .column / 2 ^ calcLog2 prefetchSize  := by rw [hcount, ← hpre]
      _ = 2 ^ (bits .column - calcLog2 prefetchSize)    := Nat.pow_div hcol (by decide)
      _ = 2 ^ spec.addrBits .column                     := by rw [addrBits, hcount, hlog]
  all_goals simp only [units, addrBits, hcount, hlog]

theorem count_ne_zero (h : spec.Aligned) (level : Level) : spec.orgEntry.count level ≠ 0 := by
  obtain ⟨bits, hcount, -⟩ := h
  rw [hcount]
  exact (Nat.two_pow_pos _).ne'

theorem maxAddress_eq (h : spec.Aligned) : spec.maxAddress = tx * (levels.map spec.units).prod := by
  obtain ⟨bits, hcount, hcol⟩ := h
  have hdvd : prefetchSize ∣ spec.orgEntry.count .column := by
    rw [hcount]
    exact pow_dvd_pow 2 hcol
  obtain ⟨n, hn⟩ := hdvd
  have hunits : spec.units .column = n := by
    rw [units, hn]
    exact Nat.mul_div_cancel_left n (by decide)
  simp only [maxAddress, levels, List.foldl_cons, List.foldl_nil, List.map_cons, List.map_nil, List.prod_cons,
    List.prod_nil, hunits, hn]
  simp only [units, tx, channelWidth, prefetchSize]
  ring

end Aligned

end DDR4

namespace Memory

variable {spec : DDR4} {type : Memory.Type}

theorem nodup_order (type : Memory.Type) : type.order.Nodup := by
  cases type <;> decide

theorem order_perm (type : Memory.Type) : type.order.Perm levels := by
  cases type <;> decide

theorem mem_order (type : Memory.Type) (level : Level) : level ∈ type.order := by
  cases type <;> cases level <;> decide

theorem mapAddr_eq (spec : DDR4) (type : Memory.Type) (addr : Nat) :
    mapAddr spec type addr =
      levels.map fun level => ((BitFields.get spec.addrBits type.order (addr / tx) level : Nat) : Int) := by
  have htx : tx = 2 ^ txBits := by decide
  cases type <;>
    simp [mapAddr, Type.order, sliceLowerBits, clearLowerBits, BitFields.get, levels, Level.toNat, htx,
      Nat.shiftRight_eq_div_pow, Nat.one_shiftLeft, Nat.and_two_pow_sub_one_eq_mod]

theorem get_lt_count (hpos : ∀ level, spec.orgEntry.count level ≠ 0) (n : Nat) (level : Level) :
    BitFields.get spec.addrBits type.order n level < spec.orgEntry.count level := by
  have hbits : 2 ^ spec.addrBits level ≤ 2 ^ (spec.orgEntry.count level).log2 := by
    apply Nat.pow_le_pow_right (by decide)
    cases level
    case column => exact Nat.sub_le ..
    all_goals exact le_rfl
  calc BitFields.get spec.addrBits type.order n level
    _ < 2 ^ spec.addrBits level                  := BitFields.get_lt (mem_order type level)
    _ ≤ 2 ^ (spec.orgEntry.count level).log2     := hbits
    _ ≤ spec.orgEntry.count level                := Nat.log2_self_le (hpos level)

theorem two_pow_width_order (h : spec.Aligned) (type : Memory.Type) :
    2 ^ BitFields.width spec.addrBits type.order = spec.maxAddress / tx := by
  have hunits : (fun level => 2 ^ spec.addrBits level) = spec.units := funext fun level => (h.units_eq level).symm
  have hperm : (type.order.map spec.units).prod = (levels.map spec.units).prod := ((order_perm type).map _).prod_eq
  rw [BitFields.two_pow_width, hunits, hperm, h.maxAddress_eq, Nat.mul_div_cancel_left _ (by decide)]

theorem addresses_mapAddr (h : spec.Aligned) (type : Memory.Type) (addr : Nat) :
    spec.Addresses (mapAddr spec type addr) :=
  ⟨_, mapAddr_eq .., fun level => h.units_eq level ▸ BitFields.get_lt (mem_order type level)⟩

-- The addresses of a memory name its transactions, each of them by all its bytes and by no other address. Both
-- orders of the levels do, and so does what the addresses above the end of the memory wrap around to.
theorem mapAddr_bijective (org : Org) (speed : Speed) (channelBits rankBits : Nat) (type : Memory.Type) :
    let spec := make org speed channelBits rankBits
    let size := spec.maxAddress / tx
    Set.BijOn (fun t => mapAddr spec type (t * tx)) {t | t < size} {v | spec.Addresses v} ∧
      ∀ addr, mapAddr spec type addr = mapAddr spec type (addr / tx % size * tx) := by
  intro spec size
  have h : spec.Aligned := aligned_make ..
  have hsize : size = 2 ^ BitFields.width spec.addrBits type.order := (two_pow_width_order h type).symm
  have htx (t : Nat) : t * tx / tx = t := Nat.mul_div_cancel t (by decide)
  refine ⟨⟨?_, ?_, ?_⟩, ?_⟩
  case refine_1 => exact fun t _ => addresses_mapAddr h type _
  case refine_2 =>
    intro t ht t' ht' he
    have hget (level : Level) : BitFields.get spec.addrBits type.order t level =
        BitFields.get spec.addrBits type.order t' level := by
      simp only [mapAddr_eq, htx] at he
      have hl := List.map_inj_left.mp he level ((order_perm type).mem_iff.mp (mem_order type level))
      exact_mod_cast hl
    have hmod := BitFields.mod_eq_of_get_eq (nodup_order type) fun level _ => hget level
    rwa [← hsize, Nat.mod_eq_of_lt ht, Nat.mod_eq_of_lt ht'] at hmod
  case refine_3 =>
    rintro v ⟨f, rfl, hf⟩
    have hlt : ∀ level ∈ type.order, f level < 2 ^ spec.addrBits level := fun level _ => h.units_eq level ▸ hf level
    refine ⟨BitFields.put spec.addrBits type.order f, hsize ▸ BitFields.put_lt hlt, ?_⟩
    simp only [mapAddr_eq, htx]
    apply List.map_congr_left
    intro level _
    rw [BitFields.get_put hlt (mem_order type level)]
  case refine_4 =>
    intro addr
    rw [mapAddr_eq, mapAddr_eq, htx, hsize]
    apply List.map_congr_left
    intro level _
    rw [BitFields.get_mod (nodup_order type) (mem_order type level)]

end Memory

end Ramulator
