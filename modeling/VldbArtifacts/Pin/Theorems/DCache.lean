import VldbArtifacts.Lib.Forall
import VldbArtifacts.Pin.Theorems.Cache

-- What the records of the tool say about the misses.

namespace Pin

variable {cfg : CacheConfig} {t t' : Tool cfg} {c : Callback} {e : Event} {es : List Event}

-- The letter that the function prints.
def Callback.letter : Callback → Hyrise.AccessType
  | loadMulti .. | loadSingle .. | storeSingle .. => .R
  | storeMulti ..                                 => .W

theorem Callback.letter_eq_direction_iff : c.letter = c.direction ↔ ¬c.IsStoreSingle := by
  cases c <;> simp [letter, direction, accessType, IsStoreSingle]

namespace Tool

theorem log_records (t : Tool cfg) (letter : Hyrise.AccessType) (addr instId asize : Nat) (hit : Bool) :
    (t.log letter addr instId asize hit).records = t.records ++
      if t.isROI && !hit then [⟨t.numInsBetweenMisses, letter, addr, asize⟩] else [] := by
  cases hit <;> cases h : t.isROI <;> simp [log, h, records]

-- The functions ask the cache and differ in the letter.
theorem call_eq_some (h : t.call c = some t') : ∃ r instId asize,
    c.lookUp t.dl1 = some r ∧ t' = ({ t with dl1 := r.2 } : Tool cfg).log c.letter c.addr instId asize r.1 := by
  cases c
  case loadMulti addr size instId asize =>
    have ⟨r, hr, ht⟩ := Option.bind_eq_some_iff.mp h
    exact ⟨r, instId, asize, hr, (Option.some.inj ht).symm⟩
  case storeMulti addr size instId asize =>
    have ⟨r, hr, ht⟩ := Option.bind_eq_some_iff.mp h
    exact ⟨r, instId, asize, hr, (Option.some.inj ht).symm⟩
  case loadSingle addr instId asize  => exact ⟨_, instId, asize, rfl, (Option.some.inj h).symm⟩
  case storeSingle addr instId asize => exact ⟨_, instId, asize, rfl, (Option.some.inj h).symm⟩

def keys (t : Tool cfg) : List (Nat × Hyrise.AccessType) :=
  t.records.map fun r => (r.addr, r.type)

-- The records that the calls should make, up to the letter.
def missedKeys (calls : List (Cache cfg × Callback)) : List (Nat × Hyrise.AccessType) :=
  (calls.filter fun p => p.2.misses p.1).map fun p => (p.2.addr, p.2.letter)

theorem keys_step (h : t.step e = some t') : t'.keys = t.keys ++ missedKeys (t.roiCall e) := by
  cases e
  case startROI => obtain rfl := Option.some.inj h; simp [keys, records, startROI, roiCall, missedKeys]
  case stopROI  => obtain rfl := Option.some.inj h; simp [keys, records, stopROI, roiCall, missedKeys]
  case instruction r w =>
    obtain rfl := Option.some.inj h
    have : (t.instruction r w).trace = t.trace := by rw [instruction]; split <;> rfl
    simp [keys, records, roiCall, missedKeys, this]
  case call c =>
    have ⟨r, instId, asize, hr, ht⟩ := call_eq_some h
    have hm : c.misses t.dl1 = !r.1 := by simp [Callback.misses, hr]
    rw [ht, keys, log_records, List.map_append]
    cases hroi : t.isROI <;> cases hhit : r.1 <;> simp [roiCall, missedKeys, hroi, hm, hhit, keys, records]

theorem keys_run (h : t.run es = some t') : t'.keys = t.keys ++ missedKeys (t.roiCalls es) := by
  induction es generalizing t
  case nil =>
    obtain rfl := Option.some.inj h
    simp [roiCalls, missedKeys]
  case cons e es ih =>
    rw [run, List.foldlM_cons] at h
    have ⟨t₁, h₁, h₂⟩ := Option.bind_eq_some_iff.mp h
    rw [ih h₂, keys_step h₁, roiCalls, h₁, List.append_assoc]
    simp [missedKeys]

theorem keys_run_init (h : init.run es = some t) : t.keys = missedKeys ((init : Tool cfg).roiCalls es) :=
  keys_run h

-- Every call returns if no access reaches into the last line of the address space.
theorem run_isSome (h : ∀ c, Event.call c ∈ es → 0 < c.size ∧ c.addr + c.size ≤ 2 ^ 64 - cfg.lineSize)
    (t : Tool cfg) : (t.run es).isSome := by
  induction es generalizing t
  case nil => rfl
  case cons e es ih =>
    have ⟨t', ht'⟩ : ∃ t', t.step e = some t' := by
      cases e
      case call c =>
        have ⟨hsize, hend⟩ := h c List.mem_cons_self
        cases c
        case loadMulti =>
          have ⟨c', hc'⟩ := t.dl1.access_eq .load hsize hend
          exact ⟨_, Option.bind_eq_some_iff.mpr ⟨_, hc', rfl⟩⟩
        case storeMulti =>
          have ⟨c', hc'⟩ := t.dl1.access_eq .store hsize hend
          exact ⟨_, Option.bind_eq_some_iff.mpr ⟨_, hc', rfl⟩⟩
        all_goals exact ⟨_, rfl⟩
      all_goals exact ⟨_, rfl⟩
    rw [run, List.foldlM_cons, ht']
    exact ih (fun c hc => h c (List.mem_cons_of_mem e hc)) t'

theorem roiCalls_return (h : t.run es = some t') :
    ∀ p ∈ t.roiCalls es, Event.call p.2 ∈ es ∧ (p.2.lookUp p.1).isSome := by
  induction es generalizing t
  case nil => exact List.forall_mem_nil _
  case cons e es ih =>
    rw [run, List.foldlM_cons] at h
    have ⟨t₁, h₁, h₂⟩ := Option.bind_eq_some_iff.mp h
    rw [roiCalls, h₁, Option.elim_some, List.forall_mem_append]
    constructor
    · cases e
      case call c =>
        have ⟨r, _, _, hr, _⟩ := call_eq_some h₁
        rw [roiCall]
        split
        case isTrue  => simp [hr]
        case isFalse => exact List.forall_mem_nil _
      all_goals exact List.forall_mem_nil _
    · exact fun p hp => (ih h₂ p hp).imp_left (List.mem_cons_of_mem e)

end Tool

-- The line of the record of a call.
def Callback.recorded (c : Callback) (dl1 : Cache cfg) : List Nat :=
  if c.misses dl1 then [cfg.tag c.addr] else []

theorem Tool.lines_missedKeys (calls : List (Cache cfg × Callback)) :
    (missedKeys calls).map (fun k => cfg.tag k.1) = calls.flatMap fun p => p.2.recorded p.1 := by
  induction calls
  case nil => rfl
  case cons p calls ih =>
    rw [List.flatMap_cons, ← ih, Callback.recorded]
    cases h : p.2.misses p.1 <;> simp [missedKeys, h]

theorem Callback.fetched_eq (c : Callback) (dl1 : Cache cfg) :
    c.fetched dl1 = (if dl1.holds (cfg.tag c.addr) then [] else [cfg.tag c.addr]) ++
      (dl1.touch c.accessType (cfg.tag c.addr)).fetches c.accessType (cfg.lines c.addr c.size).tail := by
  rw [fetched, (cfg.lines_eq_cons c.addr c.size).left]
  rfl

-- A call that looks up all its lines misses if one of them is fetched; the others look at the first one only.
theorem Callback.misses_eq {dl1 : Cache cfg} (hsize : 0 < c.size) (haddr : c.addr + c.size < 2 ^ 64)
    (h : (c.lookUp dl1).isSome) :
    c.misses dl1 = !(c.fetched dl1).isEmpty ∨ c.misses dl1 = !dl1.holds (cfg.tag c.addr) := by
  have ⟨r, hr⟩ := Option.isSome_iff_exists.mp h
  have hm : c.misses dl1 = !r.1 := by simp [misses, hr]
  rw [hm]
  cases c
  case loadMulti   => exact .inl (congrArg _ (Cache.access_eq_some hsize haddr hr))
  case storeMulti  => exact .inl (congrArg _ (Cache.access_eq_some hsize haddr hr))
  case loadSingle  => exact .inr (congrArg (!·.1) (Option.some.inj hr).symm)
  case storeSingle => exact .inr (congrArg (!·.1) (Option.some.inj hr).symm)

theorem Callback.recorded_eq_iff {dl1 : Cache cfg} (hsize : 0 < c.size)
    (haddr : c.addr + c.size < 2 ^ 64) (h : (c.lookUp dl1).isSome) :
    (c.recorded dl1).length ≤ (c.fetched dl1).length ∧
      (c.recorded dl1 = c.fetched dl1 ↔ c.RestHeld dl1) := by
  rw [RestHeld, ← Cache.fetches_eq_nil_iff c.accessType]
  have hnot : ∀ line ∈ (dl1.touch c.accessType (cfg.tag c.addr)).fetches c.accessType
      (cfg.lines c.addr c.size).tail, line ≠ cfg.tag c.addr := fun line hl he =>
    (cfg.lines_eq_cons c.addr c.size).right (he ▸ Cache.mem_of_mem_fetches hl)
  have hm := c.misses_eq hsize haddr h
  rw [recorded]
  rw [fetched_eq] at hm ⊢
  cases hrest : (dl1.touch c.accessType (cfg.tag c.addr)).fetches c.accessType
      (cfg.lines c.addr c.size).tail
  case nil =>
    have hm : c.misses dl1 = !dl1.holds (cfg.tag c.addr) := by
      rw [hrest, List.append_nil] at hm
      refine hm.elim (fun hm => hm.trans ?_) id
      cases dl1.holds (cfg.tag c.addr) <;> rfl
    cases hh : dl1.holds (cfg.tag c.addr) <;> simp [hm, hh]
  case cons line rest =>
    have hne : line ≠ cfg.tag c.addr := hnot line (hrest ▸ List.mem_cons_self)
    cases hh : dl1.holds (cfg.tag c.addr) <;> cases hmiss : c.misses dl1 <;> simp [hne.symm]

-- The records are the calls inside the region of interest that miss. They have the right letters if none of
-- the calls is one of `StoreSingle`.
theorem records_direction_iff (cfg : CacheConfig) (es : List Event) (t : Tool cfg)
    (h : Tool.init.run es = some t) :
    t.records.map (·.addr) = ((Tool.init : Tool cfg).missedCalls es).map (·.addr) ∧
    (t.records.map (fun r => (r.addr, r.type)) =
        ((Tool.init : Tool cfg).missedCalls es).map (fun c => (c.addr, c.direction)) ↔
      ∀ c ∈ (Tool.init : Tool cfg).missedCalls es, ¬c.IsStoreSingle) := by
  have hkeys : t.records.map (fun r => (r.addr, r.type)) =
      ((Tool.init : Tool cfg).missedCalls es).map fun c => (c.addr, c.letter) := by
    rw [Tool.missedCalls, List.map_map]
    exact Tool.keys_run_init h
  constructor
  · have := congrArg (List.map Prod.fst) hkeys
    rwa [List.map_map, List.map_map] at this
  · rw [hkeys, List.map_inj_left]
    apply forall₂_congr
    intro c _
    rw [Prod.mk.injEq, and_iff_right rfl, Callback.letter_eq_direction_iff]

-- The cache that launch_pin.py asks for with -a 16 -b 64 -c 65536.
def CacheConfig.launched : CacheConfig where
  lineShift     := 6
  setBits       := 16
  tagsLastIndex := 15
  allocation    := .allocate
  lineShift_lt  := by decide
  setBits_le    := by decide
  tags_lt       := by decide

-- A store of four bytes is recorded as a read.
theorem store_recorded_as_read :
    ((Tool.init : Tool .launched).run [.startROI, .call (.ofOperand .store 0x7f0000001000 4 0)]).map
        Tool.records = some [⟨0, .R, 0x7f0000001000, 4⟩] ∧
    (Tool.init : Tool .launched).missedCalls
        [.startROI, .call (.ofOperand .store 0x7f0000001000 4 0)] =
      [.storeSingle 0x7f0000001000 0 4] ∧
    (Callback.storeSingle 0x7f0000001000 0 4).direction = .W := by
  decide +kernel

theorem store_recorded_as_write :
    ∃ t, (Tool.init : Tool .launched).run [.startROI, .call (.ofOperand .store 0x7f0000001000 8 0),
        .call (.ofOperand .load 0x7f0000002000 4 0), .stopROI] = some t ∧
      t.records.map (fun r => (r.addr, r.type)) = [(0x7f0000001000, .W), (0x7f0000002000, .R)] := by
  have ⟨t, ht⟩ : ∃ t, (Tool.init : Tool .launched).run [.startROI,
      .call (.ofOperand .store 0x7f0000001000 8 0), .call (.ofOperand .load 0x7f0000002000 4 0),
      .stopROI] = some t := Option.isSome_iff_exists.mp (by decide +kernel)
  have h := (records_direction_iff .launched _ t ht).right.mpr (by decide +kernel)
  exact ⟨t, ht, h.trans (by decide +kernel)⟩

-- The lines of the trace are those that are fetched if no access in the region of interest misses a line behind
-- its first one.
theorem recorded_lines_iff (cfg : CacheConfig) (es : List Event)
    (hes : ∀ c, Event.call c ∈ es → 0 < c.size ∧ c.addr + c.size < 2 ^ 64) (t : Tool cfg)
    (h : Tool.init.run es = some t) :
    t.records.map (fun r => cfg.tag r.addr) =
        ((Tool.init : Tool cfg).roiCalls es).flatMap (fun p => p.2.fetched p.1) ↔
      ∀ p ∈ (Tool.init : Tool cfg).roiCalls es, p.2.RestHeld p.1 := by
  have hcall := Tool.roiCalls_return h
  have hlines : t.records.map (fun r => cfg.tag r.addr) =
      ((Tool.init : Tool cfg).roiCalls es).flatMap fun p => p.2.recorded p.1 := by
    rw [← Tool.lines_missedKeys, ← Tool.keys_run_init h, Tool.keys, List.map_map]
    rfl
  have hrec : ∀ p ∈ (Tool.init : Tool cfg).roiCalls es,
      (p.2.recorded p.1).length ≤ (p.2.fetched p.1).length ∧
        (p.2.recorded p.1 = p.2.fetched p.1 ↔ p.2.RestHeld p.1) := by
    intro p hp
    have ⟨hmem, hsome⟩ := hcall p hp
    have ⟨hsize, haddr⟩ := hes p.2 hmem
    exact p.2.recorded_eq_iff hsize haddr hsome
  rw [hlines, List.flatMap_eq_flatMap_iff fun p hp => (hrec p hp).left]
  exact forall₂_congr fun p hp => (hrec p hp).right

-- The second line of an access is fetched, and the trace names the first one; the second line of an access of
-- four bytes is not looked up.
theorem fetched_line_not_recorded :
    ((Tool.init : Tool .launched).run [.startROI, .call (.ofOperand .load 0x7f0000001000 8 0),
        .call (.ofOperand .load 0x7f000000103c 8 0), .call (.ofOperand .load 0x7f000000203e 4 0)]).map
        (fun t => t.records.map fun r => CacheConfig.launched.tag r.addr) =
      some [0x1fc00000040, 0x1fc00000040, 0x1fc00000080] ∧
    ((Tool.init : Tool .launched).roiCalls [.startROI, .call (.ofOperand .load 0x7f0000001000 8 0),
        .call (.ofOperand .load 0x7f000000103c 8 0), .call (.ofOperand .load 0x7f000000203e 4 0)]).flatMap
        (fun p => p.2.fetched p.1) =
      [0x1fc00000040, 0x1fc00000041, 0x1fc00000080, 0x1fc00000081] := by
  decide +kernel

theorem fetched_lines_recorded :
    ∃ t, (Tool.init : Tool .launched).run [.startROI, .call (.ofOperand .store 0x7f0000001000 8 0),
        .call (.ofOperand .load 0x7f0000002000 4 0), .stopROI] = some t ∧
      t.records.map (fun r => CacheConfig.launched.tag r.addr) = [0x1fc00000040, 0x1fc00000080] := by
  have ⟨t, ht⟩ : ∃ t, (Tool.init : Tool .launched).run [.startROI,
      .call (.ofOperand .store 0x7f0000001000 8 0), .call (.ofOperand .load 0x7f0000002000 4 0),
      .stopROI] = some t := Option.isSome_iff_exists.mp (by decide +kernel)
  have h := (recorded_lines_iff .launched _ (by simp [Callback.ofOperand, Callback.size, Callback.addr]) t ht).mpr
    (by decide +kernel)
  exact ⟨t, ht, h.trans (by decide +kernel)⟩

end Pin
