import VldbArtifacts.CXLSim.Theorems.Basic

-- A bus on its own: a sender that keeps the distance between two flits, a receiver that takes flits
-- out of `to_buf` when it likes, and one `CXLBus::update` in each tick.

namespace CXL

-- What the owner of the bus does to a flit before it adds it.
def Flit.sent (currTick : Int) (f : Flit) : Flit :=
  { f with time := { f.time with timeOfTransmission := currTick } }

-- What the bus does to a flit when it delivers it.
def Flit.received (busType : BusTerminals) (currTick : Int) (f : Flit) : Flit :=
  Flit.setTime { f with time := { f.time with timeOfReceipt := currTick } } busType.timeField
    currTick

-- One tick of the two ends: the flits that are added before and after the update of the bus, and
-- the number of flits that are taken out of `to_buf` afterwards.
structure BusTick where
  before : List Flit := []
  after  : List Flit := []
  taken  : Nat := 0

def BusTick.idle : BusTick :=
  {}

-- A bus with its `to_buf` and all that has been taken out of it.
structure Line (size bufSize : Nat) where
  bus   : CXLBus size
  toBuf : CXLBuf bufSize Flit
  taken : List Flit

namespace Line

variable {size bufSize : Nat} {p : CXLParams} {busType : BusTerminals} {name : BufName}

def init : Line size bufSize where
  bus   := .init
  toBuf := ∅
  taken := []

def delivered (l : Line size bufSize) : List Flit :=
  l.taken ++ l.toBuf.q

def add (currTick : Int) (b : CXLBus size) (fs : List Flit) : Sim (CXLBus size) :=
  fs.foldlM (fun b f => b.addToBus currTick (f.sent currTick)) b

def take (k : Nat) (l : Line size bufSize) : Line size bufSize where
  bus   := l.bus
  toBuf := ⟨l.toBuf.q.drop k, by have := l.toBuf.occupancy_le; simp only [List.length_drop]; omega⟩
  taken := l.taken ++ l.toBuf.q.take k

def tick (p : CXLParams) (busType : BusTerminals) (name : BufName) (currTick : Int)
    (l : Line size bufSize) (t : BusTick) : Sim (Line size bufSize) := do
  let bus ← add currTick l.bus t.before
  let r ← bus.update p currTick busType name l.toBuf
  let bus ← add currTick r.1 t.after
  return take t.taken { bus, toBuf := r.2, taken := l.taken }

def run (p : CXLParams) (busType : BusTerminals) (name : BufName) :
    Int → Line size bufSize → List BusTick → Sim (Line size bufSize)
  | _, l, []             => .ok l
  | currTick, l, t :: ts => do
    let l ← l.tick p busType name currTick t
    run p busType name (currTick + 1) l ts

-- The flits that are added in a run, each with its tick.
def added : Int → List BusTick → List (Int × Flit)
  | _, []             => []
  | currTick, t :: ts => (t.before ++ t.after).map (currTick, ·) ++ added (currTick + 1) ts

-- The distance that a sender keeps between two flits.
def Apart (p : CXLParams) (x y : Int × Flit) : Prop :=
  x.1 + 1 ≤ y.1 ∧ x.1 + p.cxlBusTicksPerDequeue ≤ y.1

instance {x y : Int × Flit} : Decidable (Apart p x y) :=
  inferInstanceAs (Decidable (_ ∧ _))

instance : Trans (Apart p) (Apart p) (Apart p) where
  trans hxy hyz := by
    unfold Apart at *
    omega

def transmitted (x : Int × Flit) : Flit :=
  x.2.sent x.1

def arrived (p : CXLParams) (busType : BusTerminals) (x : Int × Flit) : Flit :=
  (transmitted x).received busType (x.1 + p.cxlBusTotalLatency)

-- The flits `xs` are on the bus, none of them is due before the tick `due`, and the bus is ready
-- for the next delivery when each of them is due.
structure InFlight (p : CXLParams) (due : Int) (b : CXLBus size) (xs : List (Int × Flit)) :
    Prop where
  slots : b.flitSlots = xs.map transmitted
  due   : ∀ x ∈ xs, due ≤ x.1 + p.cxlBusTotalLatency
  ready : ∀ x ∈ xs, b.timeOfLastDequeue + p.cxlBusTicksPerDequeue ≤ x.1 + p.cxlBusTotalLatency
  apart : xs.Pairwise (Apart p)

variable {currTick due : Int} {b : CXLBus size} {xs ds : List (Int × Flit)}

theorem addToBus_inFlight {f : Flit} (hp : p.cxlBusTicksPerDequeue ≤ p.cxlBusTotalLatency)
    (hd : due ≤ currTick + p.cxlBusTotalLatency) (ha : ∀ x ∈ xs, Apart p x (currTick, f))
    (h : InFlight p due b xs) : (b.addToBus currTick (f.sent currTick)).Meets
      (InFlight p due · (xs ++ [(currTick, f)])) (· = .addingToFullBus) := by
  unfold CXLBus.addToBus
  split
  case isTrue  => rfl
  case isFalse =>
    refine ⟨by simp [h.slots, transmitted], ?due, ?ready, ?apart⟩
    case due =>
      intro x hx
      rcases List.mem_append.mp hx with hx | hx
      case inl => exact h.due x hx
      case inr => simpa [List.mem_singleton.mp hx] using hd
    case apart =>
      exact List.pairwise_append.mpr ⟨h.apart, List.pairwise_singleton .., by simpa using ha⟩
    case ready =>
      -- A flit that is added to an empty bus sets the clock of the bus. Otherwise the flit before
      -- it has been added earlier, and the bus is ready when that one is due.
      cases xs
      case nil => simpa [CXLBus.isEmpty, h.slots] using hp
      case cons y ys =>
        have hy := h.ready y (List.mem_cons_self ..)
        have hlt := (ha y (List.mem_cons_self ..)).left
        simp only [CXLBus.isEmpty, h.slots, List.map_cons, List.isEmpty_cons, Bool.false_eq_true,
          if_false]
        intro x hx
        rcases List.mem_append.mp hx with hx | hx
        case inl => exact h.ready x hx
        case inr =>
          rw [List.mem_singleton.mp hx]
          dsimp only at hlt ⊢
          omega

theorem add_inFlight {fs : List Flit} (hp : p.cxlBusTicksPerDequeue ≤ p.cxlBusTotalLatency)
    (hd : due ≤ currTick + p.cxlBusTotalLatency)
    (ha : (xs ++ fs.map (currTick, ·)).Pairwise (Apart p)) (h : InFlight p due b xs) :
    (add currTick b fs).Meets (InFlight p due · (xs ++ fs.map (currTick, ·)))
      (· = .addingToFullBus) := by
  unfold add
  induction fs generalizing b xs
  case nil => simpa using h
  case cons f fs hi =>
    rw [List.map_cons, List.append_cons] at ha ⊢
    have hf : ∀ x ∈ xs, Apart p x (currTick, f) := by
      simpa using (List.pairwise_append.mp (List.pairwise_append.mp ha).left).right.right
    exact (addToBus_inFlight hp hd hf h).bind fun b hb => hi ha hb

-- The head of the bus leaves in the tick in which it is due, and no flit leaves before.
theorem update_inFlight {toBuf : CXLBuf bufSize Flit} (h : InFlight p currTick b xs) :
    (b.update p currTick busType name toBuf).Meets
      (fun r => ∃ ds ys, xs = ds ++ ys ∧ (∀ x ∈ ds, x.1 + p.cxlBusTotalLatency = currTick) ∧
        r.2.q = toBuf.q ++ ds.map (arrived p busType) ∧ InFlight p (currTick + 1) r.1 ys)
      (· = .addingToFullBuffer name) := by
  obtain ⟨fs, last, hfs⟩ := b
  have hslots : fs = xs.map transmitted := h.slots
  subst hslots
  cases xs
  case nil =>
    have hu : CXLBus.update p currTick busType name ⟨[], last, hfs⟩ toBuf =
        .ok (⟨[], last, hfs⟩, toBuf) := by
      simp [CXLBus.update, CXL.assert, CXLBus.isFlitStagnant, CXLBus.isEmpty]
    exact .intro hu ⟨[], [], rfl, nofun, by simp, rfl, nofun, nofun, .nil⟩
  case cons x xs =>
    have hx := h.due x (List.mem_cons_self ..)
    have hr := h.ready x (List.mem_cons_self ..)
    have ⟨hxs, hp⟩ := List.pairwise_cons.mp h.apart
    have hstagnant : ¬CXLBus.isFlitStagnant p currTick ⟨(x :: xs).map transmitted, last, hfs⟩ := by
      simp only [CXLBus.isFlitStagnant, List.map_cons, transmitted, Flit.sent, decide_eq_true_eq]
      omega
    refine (assert_meets fun hn => absurd hfs hn).bind fun _ _ => ?_
    refine (assert_meets fun hn => absurd hstagnant hn).bind fun _ _ => ?_
    by_cases hdue : x.1 + p.cxlBusTotalLatency = currTick
    case pos =>
      rw [if_pos (by simp at hr; simp [CXLBus.isEmpty]; omega)]
      simp only [List.map_cons, CXLBus.sendToNode]
      rw [if_pos (by simp [transmitted, Flit.sent]; omega)]
      refine (CXLBuf.enqueue_meets.mono (fun _ => id) fun e he => he.left).bind fun buf hbuf => ?_
      refine ⟨[x], xs, rfl, by simpa using hdue, ?_, rfl, ?_, ?_, hp⟩
      case _ => rw [hbuf, ← hdue]; rfl
      case _ => exact fun y hy => by have := (hxs y hy).left; omega
      case _ => exact fun y hy => by have := (hxs y hy).right; dsimp only; omega
    case neg =>
      have hstay : InFlight p (currTick + 1) ⟨(x :: xs).map transmitted, last, hfs⟩ (x :: xs) := by
        refine { h with due := fun y hy => ?_ }
        rcases List.mem_cons.mp hy with rfl | hy
        case inl => omega
        case inr => have := (hxs y hy).left; omega
      refine .ite (fun _ => ?_) fun _ => ⟨[], x :: xs, rfl, nofun, by simp, hstay⟩
      simp only [List.map_cons, CXLBus.sendToNode]
      rw [if_neg (by simp [transmitted, Flit.sent]; omega)]
      exact ⟨[], x :: xs, rfl, nofun, by simp, hstay⟩

theorem take_delivered (k : Nat) (l : Line size bufSize) : (l.take k).delivered = l.delivered := by
  simp [take, delivered]

-- At the beginning of a tick, the flits `ds` have been delivered, each in the tick it was due in,
-- and the flits `xs` that have been added after them are on the bus.
structure Punctual (p : CXLParams) (busType : BusTerminals) (currTick : Int)
    (l : Line size bufSize) (ds xs : List (Int × Flit)) : Prop where
  delivered : l.delivered = ds.map (arrived p busType)
  past      : ∀ x ∈ ds, x.1 + p.cxlBusTotalLatency < currTick
  inFlight  : InFlight p currTick l.bus xs

variable {l : Line size bufSize}

theorem tick_punctual {t : BusTick} (hL : 1 ≤ p.cxlBusTotalLatency)
    (hp : p.cxlBusTicksPerDequeue ≤ p.cxlBusTotalLatency)
    (ha : (xs ++ (t.before ++ t.after).map (currTick, ·)).Pairwise (Apart p))
    (h : Punctual p busType currTick l ds xs) : (l.tick p busType name currTick t).Meets
      (fun l' => ∃ ds' xs', ds ++ xs ++ (t.before ++ t.after).map (currTick, ·) = ds' ++ xs' ∧
        Punctual p busType (currTick + 1) l' ds' xs')
      (fun e => e = .addingToFullBus ∨ e = .addingToFullBuffer name) := by
  rw [List.map_append, ← List.append_assoc] at ha
  have hb := add_inFlight hp (by omega) (List.pairwise_append.mp ha).left h.inFlight
  refine (hb.mono (fun _ => id) fun e => .inl).bind fun b hb => ?_
  refine ((update_inFlight hb).mono (fun _ => id) fun e => .inr).bind fun r hr => ?_
  obtain ⟨fs, ys, hys, hfs, hq, hr⟩ := hr
  rw [hys, List.append_assoc] at ha
  have hb := add_inFlight hp (by omega) (List.pairwise_append.mp ha).right.left hr
  refine (hb.mono (fun _ => id) fun e => .inl).bind fun b hb => ?_
  refine ⟨ds ++ fs, ys ++ t.after.map (currTick, ·), ?_, ?_, ?_, hb⟩
  case _ =>
    rw [List.map_append, ← List.append_assoc, List.append_assoc ds, hys]
    simp only [List.append_assoc]
  case _ =>
    rw [take_delivered, List.map_append, ← h.delivered]
    simp only [Line.delivered, hq, List.append_assoc]
  case _ =>
    intro x hx
    rcases List.mem_append.mp hx with hx | hx
    case inl => have := h.past x hx; omega
    case inr => have := hfs x hx; omega

theorem run_punctual {ts : List BusTick} (hL : 1 ≤ p.cxlBusTotalLatency)
    (hp : p.cxlBusTicksPerDequeue ≤ p.cxlBusTotalLatency)
    (ha : (ds ++ xs ++ added currTick ts).Pairwise (Apart p))
    (h : Punctual p busType currTick l ds xs) : (run p busType name currTick l ts).Meets
      (fun l' => ∃ ds' xs', ds ++ xs ++ added currTick ts = ds' ++ xs' ∧
        Punctual p busType (currTick + ts.length) l' ds' xs')
      (fun e => e = .addingToFullBus ∨ e = .addingToFullBuffer name) := by
  induction ts generalizing currTick l ds xs
  case nil => exact ⟨ds, xs, by simp [added], by simpa using h⟩
  case cons t ts hi =>
    rw [added, ← List.append_assoc] at ha ⊢
    have ha' := (List.pairwise_append.mp ha).left
    rw [List.append_assoc] at ha'
    have ha' := (List.pairwise_append.mp ha').right.left
    refine (tick_punctual hL hp ha' h).bind fun l' hl' => ?_
    obtain ⟨ds', xs', hxs', hl'⟩ := hl'
    rw [hxs'] at ha ⊢
    have hlen : currTick + (t :: ts).length = currTick + 1 + ts.length := by
      simp only [List.length_cons]
      omega
    rw [hlen]
    exact hi ha hl'

theorem init_punctual : Punctual p busType currTick (init : Line size bufSize) [] [] :=
  ⟨rfl, nofun, rfl, nofun, nofun, .nil⟩

-- Flits added in the ticks 0 and 9, before and after the update of the bus, and then nothing until
-- the tick 154.
@[irreducible]
def twoFlits : List BusTick :=
  { before := [{}] } :: (List.replicate 8 .idle ++ { after := [{}] } :: List.replicate 145 .idle)

end Line

end CXL
