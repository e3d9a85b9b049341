import VldbArtifacts.Pin.Execution
import VldbArtifacts.Pin.Theorems.DCache

-- The counter of the tool against the number of instructions that were executed.

namespace Pin

variable {cfg : CacheConfig} {t t' : Tool cfg} {g g' : GapCount cfg} {c : Callback} {cs : List Callback}

-- The tool has counted right so far.
structure Tool.Agrees (t : Tool cfg) (g : GapCount cfg) : Prop where
  dl1   : t.dl1 = g.dl1
  isROI : t.isROI = g.isROI
  count : t.numInsBetweenMisses = UInt32.ofNat g.count
  gaps  : t.records.map (·.gap) = g.gaps.map UInt32.ofNat

namespace Tool

-- Everything but the counter and the cache is as before.
structure SameRecords (t t' : Tool cfg) : Prop where
  isROI   : t'.isROI = t.isROI
  records : t'.records = t.records

theorem call_hit {dl1 : Cache cfg} (h : t.call c = some t') (hc : c.lookUp t.dl1 = some (true, dl1)) :
    t'.dl1 = dl1 ∧ t'.numInsBetweenMisses = t.numInsBetweenMisses + 1 ∧ t.SameRecords t' := by
  obtain ⟨r, instId, asize, hr, rfl⟩ := call_eq_some h
  obtain rfl := Option.some.inj (hr.symm.trans hc)
  exact ⟨rfl, rfl, rfl, rfl⟩

theorem Agrees.call_miss {dl1 : Cache cfg} (ha : t.Agrees g) (h : t.call c = some t')
    (hc : c.lookUp t.dl1 = some (false, dl1)) : ∃ g', g.access c = some (false, g') ∧ t'.Agrees g' := by
  obtain ⟨r, instId, asize, hr, rfl⟩ := call_eq_some h
  obtain rfl := Option.some.inj (hr.symm.trans hc)
  rw [ha.dl1] at hc
  have hrecords := log_records { t with dl1 } c.letter c.addr instId asize false
  cases hroi : g.isROI
  case false =>
    have htroi : t.isROI = false := ha.isROI.trans hroi
    refine ⟨{ g with dl1 }, by simp [GapCount.access, hc, hroi], ?_⟩
    constructor
    case dl1   => simp [log, htroi]
    case isROI => simp [log, htroi, hroi]
    case count => simp [log, htroi, ha.count]
    case gaps  =>
      rw [hrecords]
      simpa [htroi, records] using ha.gaps
  case true =>
    have htroi : t.isROI = true := ha.isROI.trans hroi
    refine ⟨{ g with dl1, count := 0, gaps := g.gaps ++ [g.count] }, ?_, ?_⟩
    case _ => simp [GapCount.access, hc, hroi]
    constructor
    case dl1   => simp [log, htroi]
    case isROI => simp [log, htroi, hroi]
    case count => simp [log, htroi]
    case gaps  =>
      rw [hrecords]
      simpa [htroi, ha.count, records] using ha.gaps

-- Accesses that all hit are counted one by one.
theorem run_hits (h : t.run (cs.map .call) = some t') (hhits : (t.dl1.answers cs).all id = true)
    (hd : t.dl1 = g.dl1) : (t.dl1.answers cs).count true = cs.length ∧
      t'.numInsBetweenMisses = t.numInsBetweenMisses + UInt32.ofNat cs.length ∧ t.SameRecords t' ∧
      g.accesses cs = some (true, { g with dl1 := t'.dl1 }) := by
  induction cs generalizing t g
  case nil =>
    obtain rfl := Option.some.inj h
    refine ⟨rfl, by simp, ⟨rfl, rfl⟩, ?_⟩
    rw [GapCount.accesses, hd]
  case cons c cs ih =>
    obtain ⟨t₁, h₁, h⟩ := Option.bind_eq_some_iff.mp h
    obtain ⟨⟨hit, dl1⟩, _, _, hr, -⟩ := call_eq_some h₁
    simp only [Cache.answers, hr, Option.elim_some, List.all_cons, Bool.and_eq_true] at hhits
    obtain rfl : hit = true := hhits.left
    obtain ⟨hdl1, hnum, hsame⟩ := call_hit h₁ hr
    obtain ⟨hcount, hnum', hsame', hg⟩ :=
      ih (g := { g with dl1 }) h (hdl1.symm ▸ hhits.right) hdl1
    have haccess : g.access c = some (true, { g with dl1 }) := by
      rw [hd] at hr
      simp [GapCount.access, hr]
    refine ⟨?_, ?_, ⟨hsame'.isROI.trans hsame.isROI, hsame'.records.trans hsame.records⟩, ?_⟩
    case _ =>
      rw [hdl1] at hcount
      simp [Cache.answers, hr, hcount]
    case _ =>
      rw [hnum', hnum, List.length_cons, UInt32.ofNat_add]
      grind
    case _ => simp [GapCount.accesses, haccess, hg]

-- Accesses that all miss are recorded one by one.
theorem Agrees.run_misses (ha : t.Agrees g) (h : t.run (cs.map .call) = some t')
    (hmiss : (t.dl1.answers cs).count true = 0) :
    ∃ g', g.accesses cs = some (cs.isEmpty, g') ∧ t'.Agrees g' := by
  induction cs generalizing t g
  case nil =>
    obtain rfl := Option.some.inj h
    exact ⟨g, rfl, ha⟩
  case cons c cs ih =>
    obtain ⟨t₁, h₁, h⟩ := Option.bind_eq_some_iff.mp h
    obtain ⟨⟨hit, dl1⟩, _, _, hr, ht₁⟩ := call_eq_some h₁
    cases hit
    case true => simp [Cache.answers, hr] at hmiss
    case false =>
      obtain ⟨g₁, hg₁, ha₁⟩ := ha.call_miss h₁ hr
      have hdl1 : t₁.dl1 = dl1 := by
        rw [ht₁]
        cases t.isROI <;> simp [log]
      have hmiss' : (t₁.dl1.answers cs).count true = 0 := by
        rw [hdl1]
        simpa [Cache.answers, hr] using hmiss
      obtain ⟨g', hg', ha'⟩ := ih ha₁ h hmiss'
      exact ⟨g', by simp [GapCount.accesses, hg₁, hg'], ha'⟩

-- The instructions without memory operands are counted when they are translated.
theorem run_instructions (translated : List Ins) (t : Tool cfg) :
    t.run (translated.map fun i => .instruction i.isMemoryRead i.isMemoryWrite) = some { t with
      numInsBetweenMisses := t.numInsBetweenMisses + UInt32.ofNat (translated.countP (!·.isMemory)) } := by
  induction translated generalizing t
  case nil => simp [run]
  case cons i is ih =>
    have hstep : (t.instruction i.isMemoryRead i.isMemoryWrite).numInsBetweenMisses =
        t.numInsBetweenMisses + UInt32.ofNat (if !i.isMemory then 1 else 0) := by
      cases hr : i.isMemoryRead <;> cases hw : i.isMemoryWrite <;> simp [instruction, Ins.isMemory, hr, hw]
    have hrest : ∀ n, { t.instruction i.isMemoryRead i.isMemoryWrite with numInsBetweenMisses := n } =
        { t with numInsBetweenMisses := n } := by
      intro n
      rw [instruction]
      split <;> rfl
    have hcons : t.run ((i :: is).map fun i => .instruction i.isMemoryRead i.isMemoryWrite) =
        (t.instruction i.isMemoryRead i.isMemoryWrite).run
          (is.map fun i => .instruction i.isMemoryRead i.isMemoryWrite) := rfl
    rw [hcons, ih, hrest, hstep, List.countP_cons, UInt32.ofNat_add]
    grind

-- A step that is counted right keeps the agreement.
theorem Agrees.execute {s : Step} (ha : t.Agrees g) (hs : s.Counted t.dl1) (h : t.execute s = some t') :
    ∃ g', g.step s = some g' ∧ t'.Agrees g' := by
  cases s
  case startROI =>
    obtain rfl := Option.some.inj h
    exact ⟨_, rfl, ha.dl1, rfl, ha.count, by simpa [startROI, records] using ha.gaps⟩
  case stopROI =>
    obtain rfl := Option.some.inj h
    exact ⟨_, rfl, ha.dl1, rfl, ha.count, by simpa [stopROI, records] using ha.gaps⟩
  case execute translated ins addrs =>
    simp only [Tool.execute, Step.events, run, List.foldlM_append] at h
    obtain ⟨t₁, h₁, h⟩ := Option.bind_eq_some_iff.mp h
    obtain rfl := Option.some.inj ((run_instructions translated t).symm.trans h₁)
    simp only [Step.Counted] at hs
    cases hall : (t.dl1.answers (ins.calls addrs)).all id
    case true =>
      obtain ⟨hcount, hnum, hsame, hg⟩ := run_hits (g := g) h hall ha.dl1
      rw [hall, if_pos rfl, hcount] at hs
      refine ⟨{ g with dl1 := t'.dl1, count := g.count + 1 }, by simp [GapCount.step, hg], rfl, ?_, ?_, ?_⟩
      case _ => exact hsame.isROI.trans ha.isROI
      case _ =>
        calc
          t'.numInsBetweenMisses = t.numInsBetweenMisses +
              UInt32.ofNat (translated.countP (!·.isMemory)) + UInt32.ofNat (ins.calls addrs).length := hnum
          _ = UInt32.ofNat g.count + UInt32.ofNat 1 := by
            rw [ha.count, UInt32.add_assoc, ← UInt32.ofNat_add, hs]
          _ = UInt32.ofNat (g.count + 1) := (UInt32.ofNat_add ..).symm
      case _ =>
        rw [hsame.records]
        exact ha.gaps
    case false =>
      rw [hall] at hs
      obtain ⟨hzero, hmiss⟩ := Nat.add_eq_zero_iff.mp hs
      have ha₁ : Agrees { t with numInsBetweenMisses :=
          t.numInsBetweenMisses + UInt32.ofNat (translated.countP (!·.isMemory)) } g := by
        refine ⟨ha.dl1, ha.isROI, ?_, ha.gaps⟩
        rw [hzero]
        simpa using ha.count
      obtain ⟨g', hg', ha'⟩ := ha₁.run_misses h hmiss
      have hne : (ins.calls addrs).isEmpty = false := by
        cases hcalls : ins.calls addrs
        case nil  => simp [hcalls, Cache.answers] at hall
        case cons => rfl
      exact ⟨g', by simp [GapCount.step, hg', hne], ha'⟩

theorem Agrees.runSteps {steps : List Step} (ha : t.Agrees g) (hs : t.allCounted steps = true)
    (h : t.runSteps steps = some t') : ∃ g', g.run steps = some g' ∧ t'.Agrees g' := by
  induction steps generalizing t g
  case nil =>
    obtain rfl := Option.some.inj h
    exact ⟨g, rfl, ha⟩
  case cons s steps ih =>
    obtain ⟨t₁, h₁, h⟩ := Option.bind_eq_some_iff.mp h
    simp only [allCounted, h₁, Option.all_some, Bool.and_eq_true, decide_eq_true_eq] at hs
    obtain ⟨g₁, hg₁, ha₁⟩ := ha.execute hs.left h₁
    obtain ⟨g', hg', ha'⟩ := ih ha₁ hs.right h
    refine ⟨g', ?_, ha'⟩
    rw [GapCount.run, List.foldlM_cons, hg₁]
    exact hg'

end Tool

namespace GapCount

-- No more instructions can be counted than are executed.
structure Bounded (g : GapCount cfg) (n : Nat) : Prop where
  count : g.count ≤ n
  gaps  : ∀ x ∈ g.gaps, x ≤ n

theorem Bounded.access {n : Nat} {r : Bool × GapCount cfg} (hb : g.Bounded n) (h : g.access c = some r) :
    r.2.Bounded n := by
  obtain ⟨⟨hit, dl1⟩, _, h⟩ := Option.bind_eq_some_iff.mp h
  dsimp only at h
  split at h
  case isTrue =>
    cases h
    exact ⟨hb.count, hb.gaps⟩
  case isFalse =>
    cases h
    refine ⟨Nat.zero_le _, fun x hx => ?_⟩
    cases List.mem_append.mp hx
    case inl hx => exact hb.gaps x hx
    case inr hx => exact List.mem_singleton.mp hx ▸ hb.count

theorem Bounded.accesses {n : Nat} {r : Bool × GapCount cfg} (hb : g.Bounded n) (h : g.accesses cs = some r) :
    r.2.Bounded n := by
  induction cs generalizing g r
  case nil => exact Option.some.inj h ▸ hb
  case cons c cs ih =>
    obtain ⟨r₁, h₁, h⟩ := Option.bind_eq_some_iff.mp h
    obtain ⟨r₂, h₂, h⟩ := Option.bind_eq_some_iff.mp h
    have hb₂ : r₂.2.Bounded n := ih (hb.access h₁) h₂
    cases h
    exact hb₂

theorem Bounded.step {n : Nat} {s : Step} (hb : g.Bounded n) (h : g.step s = some g') :
    g'.Bounded (n + 1) := by
  have hmono : ∀ {g : GapCount cfg}, g.Bounded n → g.Bounded (n + 1) := fun hb =>
    ⟨Nat.le_succ_of_le hb.count, fun x hx => Nat.le_succ_of_le (hb.gaps x hx)⟩
  cases s
  case startROI => exact Option.some.inj h ▸ ⟨(hmono hb).count, (hmono hb).gaps⟩
  case stopROI  => exact Option.some.inj h ▸ ⟨(hmono hb).count, (hmono hb).gaps⟩
  case execute translated ins addrs =>
    obtain ⟨⟨allHit, g₁⟩, h₁, h⟩ := Option.bind_eq_some_iff.mp h
    have hb₁ : g₁.Bounded n := hb.accesses h₁
    cases h
    cases allHit
    case false => exact hmono hb₁
    case true  => exact ⟨Nat.succ_le_succ hb₁.count, (hmono hb₁).gaps⟩

theorem Bounded.run {n : Nat} {steps : List Step} (hb : g.Bounded n) (h : g.run steps = some g') :
    g'.Bounded (n + steps.length) := by
  induction steps generalizing g n
  case nil => exact Option.some.inj h ▸ hb
  case cons s steps ih =>
    obtain ⟨g₁, h₁, h⟩ := Option.bind_eq_some_iff.mp h
    rw [List.length_cons, ← Nat.add_assoc, Nat.add_right_comm]
    exact ih (hb.step h₁) h

end GapCount

-- If every step is counted right, so are the gaps. There are few enough steps for the counter, and for the sign
-- with which it is printed.
theorem recorded_gaps (cfg : CacheConfig) (e : Execution) (t : Tool cfg)
    (h : Tool.init.runSteps e.steps = some t) (hlen : e.steps.length < 2 ^ 31)
    (hs : (Tool.init : Tool cfg).allCounted e.steps = true) :
    ∃ g : GapCount cfg, GapCount.init.run e.steps = some g ∧ t.records.map (·.gap.toNat) = g.gaps := by
  have hinit : (Tool.init : Tool cfg).Agrees .init := ⟨rfl, rfl, rfl, rfl⟩
  obtain ⟨g, hg, ha⟩ := hinit.runSteps hs h
  have hb : g.Bounded (0 + e.steps.length) := GapCount.Bounded.run ⟨Nat.le_refl 0, List.forall_mem_nil _⟩ hg
  refine ⟨g, hg, ?_⟩
  calc
    t.records.map (·.gap.toNat) = (t.records.map (·.gap)).map UInt32.toNat := by rw [List.map_map]; rfl
    _ = (g.gaps.map UInt32.ofNat).map UInt32.toNat := by rw [ha.gaps]
    _ = g.gaps.map id := by
      rw [List.map_map]
      apply List.map_congr_left
      intro x hx
      have hle := hb.gaps x hx
      exact UInt32.toNat_ofNat_of_lt' (by simp only [UInt32.size]; omega)
    _ = g.gaps := List.map_id _

namespace Ins

-- An instruction without memory operands, and one that reads eight bytes.
def register : Ins :=
  ⟨0x401000, 0, []⟩

def load : Ins :=
  ⟨0x401003, 1, [⟨true, false, 8⟩]⟩

end Ins

-- Two rounds of a loop.
def twoRounds : Execution where
  steps           := [.startROI,
    .execute [.register, .load] .register [], .execute [] .load [0x7f0000001000],
    .execute [] .register [], .execute [] .load [0x7f0000002000]]
  translatedFirst := by simp [Step.TranslatedFirst, Ins.register, Ins.load]

-- The instruction without memory operands is executed in both rounds, but counted in the first only.
theorem gap_of_second_round :
    ((Tool.init : Tool .launched).runSteps twoRounds.steps).map (fun t => t.records.map (·.gap.toNat)) =
      some [1, 0] ∧
    ((GapCount.init : GapCount .launched).run twoRounds.steps).map (·.gaps) = some [1, 1] := by
  decide +kernel

-- The second access to a line hits.
def oneRound : Execution where
  steps           := [.startROI,
    .execute [.register, .load] .register [], .execute [] .load [0x7f0000001000],
    .execute [] .load [0x7f0000001008], .execute [] .load [0x7f0000002000]]
  translatedFirst := by simp [Step.TranslatedFirst, Ins.register, Ins.load]

theorem recorded_gaps_oneRound :
    ∃ t : Tool .launched, Tool.init.runSteps oneRound.steps = some t ∧
      t.records.map (·.gap.toNat) = [1, 1] := by
  have hrun : ((Tool.init : Tool .launched).runSteps oneRound.steps).isSome ∧
      (Tool.init : Tool .launched).allCounted oneRound.steps = true ∧
      ((GapCount.init : GapCount .launched).run oneRound.steps).map (·.gaps) = some [1, 1] := by
    decide +kernel
  obtain ⟨hsome, hs, hgaps⟩ := hrun
  obtain ⟨t, ht⟩ := Option.isSome_iff_exists.mp hsome
  obtain ⟨g, hg, hr⟩ := recorded_gaps .launched oneRound t ht (by decide) hs
  rw [hg] at hgaps
  exact ⟨t, ht, hr.trans (Option.some.inj hgaps)⟩

end Pin
