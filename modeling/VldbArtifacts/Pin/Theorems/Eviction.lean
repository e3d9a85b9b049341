import VldbArtifacts.Pin.Eviction

-- What `EvictSingleLine` does. A tag of zero stands for an empty place, so only the other tags are lines.

namespace Pin

variable {p : CacheParams} {tag tag' addr size : Nat} {type : AccessType}

namespace WaySet

variable {s : WaySet p}

theorem find_eq_true : s.find tag = true ↔ ∃ i, i ≤ p.tagsLastIndex ∧ s.tags i = tag :=
  decide_eq_true_iff

theorem find_eq_false : s.find tag = false ↔ ∀ i, i ≤ p.tagsLastIndex → s.tags i ≠ tag := by
  simp [find]

-- No line is in the set twice, and there are none in the places that are not in use.
structure Exact (s : WaySet p) : Prop where
  inactive : ∀ i, p.tagsLastIndex < i → s.tags i = 0
  unique   : ∀ i j, s.tags i = s.tags j → s.tags i ≠ 0 → i = j

theorem init_exact : (init : WaySet p).Exact where
  inactive _ _  := rfl
  unique _ _ _ h := absurd rfl h

-- A line that `Find` does not see is in no place at all.
theorem Exact.not_mem (h : s.Exact) (hf : s.find tag = false) (ht : tag ≠ 0) (i) : s.tags i ≠ tag := by
  intro hi
  apply (Nat.lt_or_ge p.tagsLastIndex i).elim
  case left  => exact fun hlt => ht (hi.symm.trans (h.inactive i hlt))
  case right => exact fun hle => find_eq_false.mp hf i hle hi

theorem Exact.replace (h : s.Exact) (hf : s.find tag = false) : (s.replace tag).Exact where
  inactive i hi := by
    have hne : i ≠ s.nextReplaceIndex := fun e => Nat.not_le_of_lt (e ▸ hi) s.next_le
    exact (Function.update_of_ne hne ..).trans (h.inactive i hi)
  unique i j hij h0 := by
    -- The tag is at the index that was replaced, and nowhere else.
    simp only [WaySet.replace] at hij h0
    by_cases hi : i = s.nextReplaceIndex
    case pos =>
      rw [hi, Function.update_self] at hij h0
      by_contra hj
      rw [Function.update_of_ne (fun e => hj (hi.trans e.symm))] at hij
      exact h.not_mem hf h0 j hij.symm
    case neg =>
      rw [Function.update_of_ne hi] at hij h0
      by_cases hj : j = s.nextReplaceIndex
      case pos =>
        rw [hj, Function.update_self] at hij
        exact absurd hij (h.not_mem hf (hij ▸ h0) i)
      case neg => exact h.unique i j (hij.trans (Function.update_of_ne hj ..)) h0

-- What `EvictTag` does to the array: nothing, or one place that holds the tag is cleared.
theorem evictTag_cases (s : WaySet p) (tag : Nat) :
    ((∀ i, s.tags i ≠ tag) ∧ (s.evictTag tag).2 = s) ∨
      ∃ i, s.tags i = tag ∧ (s.evictTag tag).2 = { s with tags := Function.update s.tags i 0 } := by
  cases hf : (List.finRange p.maxAssociativity).find? (fun i => s.tags i = tag)
  case none =>
    have : ∀ i, s.tags i ≠ tag := by simpa using hf
    exact .inl ⟨this, by simp [evictTag, hf]⟩
  case some i =>
    have : s.tags i = tag := by simpa using List.find?_some hf
    exact .inr ⟨i, this, by simp [evictTag, hf]⟩

theorem Exact.evictTag (h : s.Exact) : (s.evictTag tag).2.Exact := by
  cases s.evictTag_cases tag
  case inl he => exact he.right.symm ▸ h
  case inr he =>
    obtain ⟨k, -, he⟩ := he
    have hcleared : ∀ i, (s.evictTag tag).2.tags i ≠ 0 → i ≠ k ∧ (s.evictTag tag).2.tags i = s.tags i := by
      intro i hi
      have hne : i ≠ k := fun e => hi (by simp [he, e])
      exact ⟨hne, by simp [he, hne]⟩
    constructor
    case inactive =>
      intro i hi
      by_contra h0
      have := hcleared i h0
      exact h0 (this.right.trans (h.inactive i hi))
    case unique =>
      intro i j hij h0
      have hi := (hcleared i h0).right
      have hj := (hcleared j (hij ▸ h0)).right
      exact h.unique i j (by rw [← hi, ← hj, hij]) (hi ▸ h0)

theorem Exact.find_evictTag (h : s.Exact) (ht : tag ≠ 0) : (s.evictTag tag).2.find tag = false := by
  apply find_eq_false.mpr
  intro i _
  cases s.evictTag_cases tag
  case inl he =>
    rw [he.right]
    exact he.left i
  case inr he =>
    obtain ⟨k, hk, he⟩ := he
    rw [he]
    by_cases hi : i = k
    case pos => simpa [hi] using ht.symm
    case neg =>
      have : s.tags i ≠ tag := fun e => hi (h.unique i k (e.trans hk.symm) (e ▸ ht))
      simpa [hi] using this

theorem find_evictTag_of_ne (h0 : tag' ≠ 0) (hne : tag' ≠ tag) :
    (s.evictTag tag).2.find tag' = s.find tag' := by
  cases s.evictTag_cases tag
  case inl he => rw [he.right]
  case inr he =>
    obtain ⟨k, hk, he⟩ := he
    have : ∀ i, (s.evictTag tag).2.tags i = tag' ↔ s.tags i = tag' := by
      intro i
      rw [he]
      by_cases hi : i = k
      case pos => simp [hi, hk, h0.symm, hne.symm]
      case neg => simp [hi]
    simp [find, this]

end WaySet

namespace WayCache

variable {c c' : WayCache p} {calls : List Call}

def Exact (c : WayCache p) : Prop :=
  ∀ i, (c.sets i).Exact

theorem Exact.setSet {i : Nat} {s : WaySet p} (h : c.Exact) (hs : s.Exact) : (c.setSet i s).Exact := by
  intro j
  by_cases hj : j = i
  case pos => simpa [WayCache.setSet, hj] using hs
  case neg => simpa [WayCache.setSet, hj] using h j

theorem Exact.touch (h : c.Exact) : (c.touch type tag).Exact := by
  rw [WayCache.touch]
  split
  case isTrue hm =>
    have hf : (c.sets (p.setIndex tag)).find tag = false := by
      simpa [holds] using (Bool.and_eq_true_iff.mp hm).left
    exact h.setSet ((h _).replace hf)
  case isFalse => exact h

theorem Exact.accessLoop {highAddr fuel : Nat} {allHit : Bool} {r : Bool × WayCache p}
    (h : c.Exact) (hr : accessLoop type highAddr fuel c addr allHit = some r) : r.2.Exact := by
  induction fuel generalizing c addr allHit
  case zero => cases hr
  case succ fuel ih =>
    rw [WayCache.accessLoop] at hr
    split at hr
    case isTrue  => exact ih h.touch hr
    case isFalse => exact Option.some.inj hr ▸ h.touch

theorem access_eq_some {r : Bool × WayCache p} (h : c.access addr size type = some r) :
    ∃ allHit c', accessLoop type ((addr + size) % 2 ^ 64) (2 ^ 64 + 1) c addr true = some (allHit, c') ∧
      r = (allHit, c'.count type allHit) := by
  obtain ⟨⟨allHit, c'⟩, hloop, hr⟩ := Option.bind_eq_some_iff.mp h
  exact ⟨allHit, c', hloop, (Option.some.inj hr).symm⟩

theorem Exact.evictSingleLine (h : c.Exact) : (c.evictSingleLine addr).2.Exact := by
  rw [WayCache.evictSingleLine]
  split
  case isTrue  => exact h
  case isFalse => exact h.setSet (h _).evictTag

theorem Exact.step {call : Call} (h : c.Exact) (hs : c.step call = some c') : c'.Exact := by
  cases call
  case access addr size type =>
    obtain ⟨r, hr, rfl⟩ := Option.map_eq_some_iff.mp hs
    obtain ⟨allHit, d, hloop, rfl⟩ := access_eq_some hr
    have : d.Exact := h.accessLoop hloop
    exact this
  case accessSingleLine => exact Option.some.inj hs ▸ h.touch
  case evictSingleLine  => exact Option.some.inj hs ▸ h.evictSingleLine

theorem Exact.run (h : c.Exact) (hr : c.run calls = some c') : c'.Exact := by
  induction calls generalizing c
  case nil => exact Option.some.inj hr ▸ h
  case cons call calls ih =>
    obtain ⟨d, hd, hr⟩ := Option.bind_eq_some_iff.mp hr
    exact ih (h.step hd) hr

-- An access whose first line misses reports no hit.
theorem accessLoop_miss {highAddr fuel : Nat} {r : Bool × WayCache p}
    (hr : accessLoop type highAddr fuel c addr false = some r) : r.1 = false := by
  induction fuel generalizing c addr
  case zero => cases hr
  case succ fuel ih =>
    rw [accessLoop] at hr
    split at hr
    case isTrue  => exact ih hr
    case isFalse => exact Option.some.inj hr ▸ rfl

theorem access_miss {r : Bool × WayCache p} (h : c.holds (p.tag addr) = false)
    (hr : c.access addr size type = some r) : r.1 = false := by
  obtain ⟨allHit, d, hloop, rfl⟩ := access_eq_some hr
  rw [accessLoop, h, Bool.and_false] at hloop
  split at hloop
  case isTrue =>
    have : allHit = false := accessLoop_miss hloop
    exact this
  case isFalse => exact (congrArg Prod.fst (Option.some.inj hloop)).symm

theorem evictSingleLine_fst : (c.evictSingleLine addr).1 = c.holds (p.tag addr) := by
  rw [evictSingleLine, holds]
  cases (c.sets (p.setIndex (p.tag addr))).find (p.tag addr)
  case false => rfl
  case true  => rfl

theorem Exact.holds_evictSingleLine (h : c.Exact) (ht : p.tag addr ≠ 0) :
    (c.evictSingleLine addr).2.holds (p.tag addr) = false := by
  rw [WayCache.evictSingleLine]
  split
  case isTrue hf => simpa [holds] using hf
  case isFalse   => simpa [holds, WayCache.setSet] using (h _).find_evictTag ht

theorem holds_evictSingleLine_of_ne (h0 : tag ≠ 0) (hne : tag ≠ p.tag addr) :
    (c.evictSingleLine addr).2.holds tag = c.holds tag := by
  rw [evictSingleLine]
  split
  case isTrue  => rfl
  case isFalse =>
    by_cases hs : p.setIndex tag = p.setIndex (p.tag addr)
    case pos => simpa [holds, setSet, hs] using WaySet.find_evictTag_of_ne h0 hne
    case neg => simp [holds, setSet, hs]

-- Over all calls from an empty cache. The condition on the tag leaves out the line at address zero, whose
-- tag an empty place has too.
theorem evictSingleLine_exact (p : CacheParams) (calls : List Call) (c : WayCache p)
    (h : init.run calls = some c) :
    (∀ k tag, tag ≠ 0 → ∀ i j, (c.sets k).tags i = tag → (c.sets k).tags j = tag → i = j) ∧
    ∀ addr, p.tag addr ≠ 0 →
      (c.evictSingleLine addr).1 = c.holds (p.tag addr) ∧
      (c.evictSingleLine addr).2.holds (p.tag addr) = false ∧
      (∀ type, ((c.evictSingleLine addr).2.accessSingleLine addr type).1 = false) ∧
      (∀ size type r, (c.evictSingleLine addr).2.access addr size type = some r → r.1 = false) ∧
      ∀ tag, tag ≠ 0 → tag ≠ p.tag addr → (c.evictSingleLine addr).2.holds tag = c.holds tag := by
  have hc : c.Exact := Exact.run (fun _ => WaySet.init_exact) h
  constructor
  case left =>
    intro k tag h0 i j hi hj
    exact (hc k).unique i j (hi.trans hj.symm) (hi ▸ h0)
  case right =>
    intro addr ht
    have hgone := hc.holds_evictSingleLine ht
    exact ⟨evictSingleLine_fst, hgone, fun _ => hgone, fun _ _ _ => access_miss hgone,
      fun _ => holds_evictSingleLine_of_ne⟩

-- Two of four ways in use, lines of 32 bytes, two sets.
def twoWays : CacheParams where
  maxAssociativity := 4
  tagsLastIndex    := ⟨1, by decide⟩
  lineShift        := 5
  setBits          := 1
  allocation       := .allocate
  lineShift_lt     := by decide

-- An access over the lines 3 and 4, and one to line 5, in the set of line 3: line 3 goes and line 5 stays.
theorem evictSingleLine_twoWays :
    ∃ c : WayCache twoWays, init.run [.access 100 40 .load, .accessSingleLine 160 .store] = some c ∧
      c.holds 3 = true ∧ c.holds 5 = true ∧
      (c.evictSingleLine 96).1 = true ∧ (c.evictSingleLine 96).2.holds 3 = false ∧
      (c.evictSingleLine 96).2.holds 5 = true := by
  have hrun : ((init : WayCache twoWays).run [.access 100 40 .load, .accessSingleLine 160 .store]).map
      (fun c => (c.holds 3, c.holds 5)) = some (true, true) := by decide +kernel
  obtain ⟨c, hc, hh⟩ := Option.map_eq_some_iff.mp hrun
  have h3 : c.holds 3 = true := congrArg Prod.fst hh
  have h5 : c.holds 5 = true := congrArg Prod.snd hh
  have hev := (evictSingleLine_exact twoWays _ c hc).right 96 (by decide)
  exact ⟨c, hc, h3, h5, hev.left.trans h3, hev.right.left,
    (hev.right.right.right.right 5 (by decide) (by decide)).trans h5⟩

end WayCache

-- `Find` and `Replace` see the tags in use only, so that those are the cache of the tool.
section Active

variable {cfg : CacheConfig}

@[simp]
theorem CacheConfig.params_tag (cfg : CacheConfig) : cfg.params.tag addr = cfg.tag addr :=
  rfl

@[simp]
theorem CacheConfig.params_setIndex (cfg : CacheConfig) : cfg.params.setIndex tag = cfg.setIndex tag :=
  rfl

@[simp]
theorem CacheConfig.params_nextLine (cfg : CacheConfig) : cfg.params.nextLine addr = cfg.nextLine addr :=
  rfl

@[simp]
theorem CacheConfig.params_allocation (cfg : CacheConfig) : cfg.params.allocation = cfg.allocation :=
  rfl

theorem RoundRobin.eq_of {last : Nat} {s t : RoundRobin last} (htags : s.tags = t.tags)
    (hnext : s.nextReplaceIndex = t.nextReplaceIndex) : s = t := by
  cases s
  cases t
  cases htags
  cases hnext
  rfl

namespace WaySet

theorem find_active (s : WaySet cfg.params) : s.active.find tag = s.find tag := by
  apply Bool.eq_iff_iff.mpr
  simp only [RoundRobin.find, decide_eq_true_iff, find_eq_true]
  constructor
  case mp =>
    rintro ⟨i, hi⟩
    exact ⟨cfg.way i, Nat.le_of_lt_succ i.isLt, hi⟩
  case mpr =>
    rintro ⟨i, hle, hi⟩
    exact ⟨⟨i.val, Nat.lt_succ_of_le hle⟩, hi⟩

theorem replace_active (s : WaySet cfg.params) : (s.replace tag).active = s.active.replace tag := by
  apply RoundRobin.eq_of
  case htags =>
    funext i
    have hiff : cfg.way i = s.nextReplaceIndex ↔ i = s.active.nextReplaceIndex := by
      rw [Fin.ext_iff, Fin.ext_iff]
      rfl
    calc
      _ = if cfg.way i = s.nextReplaceIndex then tag else s.active.tags i :=
        Function.update_apply ..
      _ = if i = s.active.nextReplaceIndex then tag else s.active.tags i := by simp only [hiff]
      _ = _ := (Function.update_apply ..).symm
  case hnext =>
    apply Fin.ext
    by_cases h0 : s.nextReplaceIndex.val = 0
    case pos => simp [active, replace, RoundRobin.replace, h0, CacheConfig.params]
    case neg => simp [active, replace, RoundRobin.replace, h0, predIndex]

end WaySet

namespace WayCache

variable {c : WayCache cfg.params}

theorem init_active : (init : WayCache cfg.params).active = .init :=
  rfl

theorem holds_active (c : WayCache cfg.params) : c.active.holds tag = c.holds tag :=
  (c.sets _).find_active

theorem touch_active (c : WayCache cfg.params) : (c.touch type tag).active = c.active.touch type tag := by
  rw [touch, Cache.touch, holds_active, apply_ite active]
  congr 1
  case e_t =>
    have hsets : ∀ k, (Function.update c.sets k ((c.sets k).replace tag) · |>.active) =
        Function.update c.active.sets k ((c.active.sets k).replace tag) := by
      intro k
      funext j
      by_cases hj : j = k
      case pos => simp [hj, active, WaySet.replace_active]
      case neg => simp [hj, active]
    exact congrArg (Cache.mk · c.counts) (hsets _)

theorem count_active {hit : Bool} (c : WayCache cfg.params) :
    (c.count type hit).active = c.active.count type hit :=
  rfl

theorem accessLoop_active {highAddr fuel : Nat} {allHit : Bool} :
    (accessLoop type highAddr fuel c addr allHit).map (Prod.map id active) =
      Cache.accessLoop type highAddr fuel c.active addr allHit := by
  induction fuel generalizing c addr allHit
  case zero => rfl
  case succ fuel ih =>
    have hc : (c.touch type (cfg.params.tag addr)).active = c.active.touch type (cfg.tag addr) :=
      c.touch_active
    have hh : c.holds (cfg.params.tag addr) = c.active.holds (cfg.tag addr) := c.holds_active.symm
    rw [accessLoop, Cache.accessLoop, hh, ← hc, cfg.params_nextLine]
    by_cases hnext : cfg.nextLine addr < highAddr
    case pos => simp only [hnext, if_true, ih]
    case neg => simp only [hnext, if_false, Option.map_some, Prod.map, id]

theorem access_active :
    (c.access addr size type).map (Prod.map id active) = c.active.access addr size type := by
  have hcount : ∀ r : Option (Bool × WayCache cfg.params),
      (r.bind fun x => some (x.1, x.2.count type x.1)).map (Prod.map id active) =
        (r.map (Prod.map id active)).bind fun x => some (x.1, x.2.count type x.1) := by
    rintro (_ | _) <;> rfl
  exact (hcount _).trans (congrArg (Option.bind · _) accessLoop_active)

theorem accessSingleLine_active :
    (c.accessSingleLine addr type).map id active = c.active.accessSingleLine addr type := by
  have hc : (c.touch type (cfg.params.tag addr)).active = c.active.touch type (cfg.tag addr) :=
    c.touch_active
  have hh : c.holds (cfg.params.tag addr) = c.active.holds (cfg.tag addr) := c.holds_active.symm
  rw [accessSingleLine, Cache.accessSingleLine, Prod.map_apply, count_active, hc, hh, id]

end WayCache

end Active

end Pin
