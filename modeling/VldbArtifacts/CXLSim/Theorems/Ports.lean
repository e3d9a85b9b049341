import VldbArtifacts.CXLSim.Ports
import VldbArtifacts.CXLSim.Theorems.Data
import VldbArtifacts.CXLSim.Theorems.Refinement

-- No device is kept waiting at the switch for long.

namespace CXL

variable {n busSize : Nat} {cfg : Config n}

namespace CXLSwitch

variable {s s' : CXLSwitch cfg} {tick : Int}

theorem updatePort_steps {delay : Int}
    (h : ∀ h : s.currPort < n, readyHead? tick (s.downstreamRx ⟨s.currPort, h⟩) delay = none) :
    Ports.Steps delay tick s.ports s.updatePort.ports := by
  rw [updatePort]
  split
  case isTrue h₀ => exact .single (.turn h₀ h)
  case isFalse   => exact .refl

theorem ports_updatePort_move {d : Fin n} {f : Flit} {b b' : CXLBuf cfg.switchBufSize Flit} :
    ({ s with
        arbNocD2H    := b
        downstreamRx := Function.update s.downstreamRx d b'
        moved        := s.moved ++ [(d, f)] }.updateRollover f).updatePort.ports =
      { port     := if f.roll s.expectedRollover = 0 then Arbiter.next n s.currPort else s.currPort
        expected := f.roll s.expectedRollover
        rx       := Function.update s.ports.rx d b'.q
        moved    := s.moved ++ [(d, f)] } := by
  have hrx : (fun i => (Function.update s.downstreamRx d b' i).q) =
      Function.update (fun i => (s.downstreamRx i).q) d b'.q := by
    funext i
    by_cases hi : i = d
    case pos => simp [hi]
    case neg => simp [hi]
  rw [updatePort]
  split
  case isTrue h =>
    have h : f.roll s.expectedRollover = 0 := h
    simp only [ports, updateRollover, hrx, if_pos h]
    rfl
  case isFalse h =>
    have h : ¬f.roll s.expectedRollover = 0 := h
    simp only [ports, updateRollover, hrx, if_neg h]
    rfl

theorem arbitrate_steps (k : Nat) (s : CXLSwitch cfg) : (arbitrate tick k s).Meets
    (fun r => Ports.Steps cfg.params.delayCxlPortSwitch tick s.ports r.2.ports) fun _ => True := by
  induction k generalizing s
  case zero => exact Relation.ReflTransGen.refl
  case succ k ih =>
    rw [arbitrate]
    split
    case isFalse hp =>
      apply (ih s.updatePort).imp
      exact fun r hr => (updatePort_steps fun h => absurd h hp).trans hr
    case isTrue hp =>
      dsimp only
      split
      case _ f hf =>
        apply Except.Meets.bind (Except.Meets.any _)
        rintro b -
        apply Except.meets_pure.mpr
        rw [ports_updatePort_move]
        exact .single (.move rfl (readyHead?_eq hf))
      case _ hnone =>
        apply (ih s.updatePort).bind
        intro r hr
        apply Except.meets_pure.mpr
        exact (updatePort_steps fun _ => hnone).trans hr

theorem route_ports : (s.route tick).Meets (fun s' => s'.ports = s.ports) fun _ => True := by
  rw [route]
  split
  case _ => exact Except.meets_pure.mpr rfl
  case _ f hf =>
    apply (Except.Meets.any _).bind
    rintro dest -
    split
    case isTrue =>
      apply (Except.Meets.any _).bind
      rintro b -
      exact Except.meets_pure.mpr rfl
    case isFalse => trivial

theorem updateH2D_ports (busToDevice : Fin n → CXLBus busSize) :
    (s.updateH2D tick busToDevice).Meets (fun r => r.2.1.ports = s.ports) fun _ => True := by
  apply (Except.Meets.any _).bind
  rintro ⟨upstreamRx, arbNocH2D⟩ -
  apply route_ports.bind
  intro s' hs'
  apply (Except.Meets.any _).bind
  rintro ports -
  exact Except.meets_pure.mpr hs'

theorem updateD2H_steps (busToHost : CXLBus busSize) : (s.updateD2H tick busToHost).Meets
    (fun r => Ports.Steps cfg.params.delayCxlPortSwitch tick s.ports r.2.1.ports) fun _ => True := by
  apply (arbitrate_steps n s).bind
  intro r hr
  apply (Except.Meets.any _).bind
  rintro ⟨arbNocD2H, upstreamTx⟩ -
  apply (Except.Meets.any _).bind
  rintro ⟨upstreamTx, lastTransmission, busToHost⟩ -
  exact Except.meets_pure.mpr hr

theorem update_steps (b : Build) (busToHost : CXLBus busSize) (busToDevice : Fin n → CXLBus busSize) :
    (s.update tick b busToHost busToDevice).Meets
      (fun r => Ports.Steps cfg.params.delayCxlPortSwitch tick s.ports r.1.ports) fun _ => True := by
  rw [update]
  apply Except.Meets.ite
  case hx => exact fun _ => Except.meets_pure.mpr .refl
  case hy =>
    intro _
    apply (updateH2D_ports busToDevice).bind
    intro r hr
    apply (updateD2H_steps busToHost).bind
    intro r' hr'
    apply Except.meets_pure.mpr
    rw [hr] at hr'
    split
    case isTrue  => exact hr'
    case isFalse => exact hr'

end CXLSwitch

namespace Ports

variable {delay tick : Int} {x y : Ports n} {d : Fin n}

-- What is expected after all of the flits.
def rollAll (expected : Nat) (xs : List (Fin n × Flit)) : Nat :=
  xs.foldl (fun e x => x.2.roll e) expected

theorem movesFrom_concat (e : Nat) (xs : List (Fin n × Flit)) (y : Fin n × Flit) :
    movesFrom e (xs ++ [y]) = movesFrom e xs ++ [⟨y.1, y.2, y.2.roll (rollAll e xs)⟩] := by
  induction xs generalizing e
  case nil          => rfl
  case cons x xs ih => exact congrArg _ (ih _)

theorem rollAll_concat (e : Nat) (xs : List (Fin n × Flit)) (y : Fin n × Flit) :
    rollAll e (xs ++ [y]) = y.2.roll (rollAll e xs) := by
  simp [rollAll]

structure Inv (x : Ports n) : Prop where
  expected : x.expected = rollAll 0 x.moved
  wf       : Arbiter.Wf n x.arbiter

theorem arbiter_move (hx : x.Inv) (hp : x.port = d.val) (f : Flit) (port : Nat)
    (rx : Fin n → List Flit) :
    arbiter ⟨port, f.roll x.expected, rx, x.moved ++ [(d, f)]⟩ =
      ⟨port, f.roll x.expected, x.arbiter.log ++ [⟨x.port, f, f.roll x.expected⟩]⟩ := by
  rw [arbiter, movesFrom_concat, ← hx.expected, hp]
  rfl

theorem Step.arbiter (h : Step delay tick x y) (hx : x.Inv) (waiting : Nat → Prop)
    (hw : waiting x.port → ∃ h : x.port < n, (readyAt delay tick (x.rx ⟨x.port, h⟩)).isSome) :
    Arbiter.Step n waiting x.arbiter y.arbiter := by
  cases h
  case turn h₀ hnone =>
    refine .skip h₀ fun h => ?_
    have ⟨hp, hr⟩ := hw h
    simp [hnone hp] at hr
  case move f rest d hp _ =>
    rw [arbiter_move hx hp]
    exact .move f _

theorem Step.inv (h : Step delay tick x y) (hx : x.Inv) : y.Inv := by
  have hwf := (h.arbiter hx (fun _ => False) nofun).wf hx.wf
  cases h
  case turn => exact ⟨hx.expected, hwf⟩
  case move f rest d _ _ =>
    refine ⟨?_, hwf⟩
    rw [rollAll_concat, ← hx.expected]

theorem Steps.inv (h : Steps delay tick x y) (hx : x.Inv) : y.Inv := by
  induction h
  case refl        => exact hx
  case tail _ h ih => exact h.inv ih

section Pending

variable {t : Int} {k : Nat}

theorem readyAt_mono {q : List Flit} (h : (readyAt delay t q).isSome) (ht : t ≤ tick)
    (fs : List Flit) : (readyAt delay tick (q ++ fs)).isSome := by
  cases q
  case nil => simp [readyAt] at h
  case cons f q =>
    simp [readyAt] at h ⊢
    omega

-- The head of device `d` has waited long enough at tick `t`, and it is still there unless it was moved
-- after the first `k` flits.
structure Pending (delay t : Int) (d : Fin n) (k : Nat) (x : Ports n) : Prop where
  le    : k ≤ x.arbiter.log.length
  ready : (∀ m ∈ x.arbiter.log.drop k, m.port ≠ d) → (readyAt delay t (x.rx d)).isSome

theorem Step.stepFor (h : Step delay tick x y) (hx : x.Inv) (ht : t ≤ tick)
    (hp : x.Pending delay t d k) : Arbiter.StepFor n d k x.arbiter y.arbiter := by
  apply h.arbiter hx
  rintro ⟨hd, hlog⟩
  have hd : x.port = d := hd
  refine ⟨hd ▸ d.isLt, ?_⟩
  have := readyAt_mono (hp.ready hlog) ht []
  simpa [hd] using this

theorem Step.pending (h : Step delay tick x y) (hx : x.Inv) (hp : x.Pending delay t d k) :
    y.Pending delay t d k := by
  cases h
  case turn => exact ⟨hp.le, hp.ready⟩
  case move f rest d' hd' hq =>
    have harb := arbiter_move hx hd' f
      (if f.roll x.expected = 0 then Arbiter.next n x.port else x.port) (Function.update x.rx d' rest)
    constructor
    case le =>
      rw [harb, List.length_append]
      exact Nat.le_add_right_of_le hp.le
    case ready =>
      rw [harb, List.drop_append_of_le_length hp.le]
      intro hlog
      have hne : d ≠ d' := by
        rintro rfl
        exact hlog _ (List.mem_append_right _ List.mem_cons_self) hd'
      dsimp only
      rw [Function.update_of_ne hne]
      exact hp.ready fun m hm => hlog m (List.mem_append_left _ hm)

theorem Steps.pending (h : Steps delay tick x y) (hx : x.Inv) (ht : t ≤ tick)
    (hp : x.Pending delay t d k) :
    y.Pending delay t d k ∧ Relation.ReflTransGen (Arbiter.StepFor n d k) x.arbiter y.arbiter := by
  induction h
  case refl => exact ⟨hp, .refl⟩
  case tail hr h ih =>
    have hx' := Steps.inv hr hx
    exact ⟨h.pending hx' ih.left, ih.right.tail (h.stepFor hx' ht ih.left)⟩

end Pending

-- The flits of device `d` that were moved, and all that reached the switch.
def movedOf (d : Fin n) (xs : List (Fin n × Flit)) : List Flit :=
  xs.filterMap fun x => if x.1 = d then some x.2 else none

def received (x : Ports n) (d : Fin n) : List Flit :=
  movedOf d x.moved ++ x.rx d

theorem Step.received (h : Step delay tick x y) (d : Fin n) : y.received d = x.received d := by
  cases h
  case turn => rfl
  case move f rest d' _ hq =>
    by_cases hd : d' = d
    case pos =>
      subst hd
      simp [Ports.received, movedOf, hq]
    case neg =>
      simp [Ports.received, movedOf, hd, Function.update_of_ne (Ne.symm hd)]

theorem Steps.received (h : Steps delay tick x y) (d : Fin n) : y.received d = x.received d := by
  induction h
  case refl        => rfl
  case tail _ h ih => exact (h.received d).trans ih

end Ports

-- What is expected after the flits of one device.
def rollFlits (fs : List Flit) : Nat :=
  fs.foldl Flit.roll 0

theorem rollFlits_concat (fs : List Flit) (f : Flit) :
    rollFlits (fs ++ [f]) = f.roll (rollFlits fs) := by
  simp [rollFlits]

-- The data that is owed grows from flit to flit until it is paid at once.
def Grows (owed owed' : Nat) : Prop :=
  owed' ≤ 4 ∧ (owed' = 0 ∨ owed < owed')

def Compact (fs : List Flit) : Prop :=
  ∀ pre f, pre ++ [f] <+: fs → Grows (rollFlits pre) (f.roll (rollFlits pre))

section Compact

variable {fs : List Flit}

theorem Compact.of_initial {gs : List Flit} (h : Compact fs) (hg : gs <+: fs) : Compact gs :=
  fun pre f hp => h pre f (hp.trans hg)

theorem compact_nil : Compact [] := by
  intro pre f hp
  simp at hp

theorem Compact.concat {f : Flit} (h : Compact fs) (hf : Grows (rollFlits fs) (f.roll (rollFlits fs))) :
    Compact (fs ++ [f]) := by
  intro pre g hp
  rcases List.prefix_concat_iff.mp hp with he | hp
  · have ⟨h₁, h₂⟩ := List.append_inj' he rfl
    cases h₁
    cases h₂
    exact hf
  · exact h pre g hp

theorem roll_core (f : Flit) (e : Nat) : f.core.roll e = f.roll e :=
  rfl

theorem rollFlits_map_core (fs : List Flit) : rollFlits (fs.map Flit.core) = rollFlits fs := by
  rw [rollFlits, List.foldl_map]
  rfl

theorem Compact.of_core (h : Compact (fs.map Flit.core)) : Compact fs := by
  intro pre f hp
  have hp' := hp.map Flit.core
  rw [List.map_append] at hp'
  have := h _ _ hp'
  rwa [rollFlits_map_core, roll_core] at this

theorem frame_grows {fr : Framing.Frame Message} (h : fr.Valid) : Grows fr.owed fr.nextOwed := by
  refine ⟨h.nextOwed_le, ?_⟩
  rw [Framing.Frame.nextOwed]
  split
  case _ => exact .inl rfl
  case _ => exact .inr (by omega)

-- The switch expects what the packer owes.
theorem roll_frameFlit (cfg : Config n) {fr : Framing.Frame Message} (hv : fr.Valid)
    (hn : ¬fr.IsEmpty) (c : Credits) :
    (frameFlit (devicePackerRules cfg) fr c).roll fr.owed = fr.nextOwed := by
  have hm : (frameFlit (devicePackerRules cfg) fr c).IsMade (devicePackerRules cfg) :=
    ⟨fr, c, hv, hn, rfl⟩
  have hw : (frameFlit (devicePackerRules cfg) fr c).weight .s2m = fr.nextOwed - fr.owed :=
    Flit.weight_frame hv rfl
  have hlt : fr.owed < 2 ^ 64 := by have := hv.fits; omega
  have hmod := foldl_countRollover_modEq (frameFlit (devicePackerRules cfg) fr c).header.slots fr.owed
  have hlt' := foldl_countRollover_lt (frameFlit (devicePackerRules cfg) fr c).header.slots hlt
  have hnext := hv.nextOwed_le
  have hcount := hm.count_marks
  rw [Flit.roll]
  simp only [Int.ModEq] at hmod
  omega

structure Sender.Compact (x : Sender DeviceFlow) : Prop where
  valid : x.frame.Valid
  owed  : rollFlits x.sent = x.frame.owed
  sent  : CXL.Compact x.sent

theorem Sender.Step.compact {tick : Int} {x y : Sender DeviceFlow}
    (h : Step (devicePackerRules cfg) tick x y) (hx : x.Compact) : y.Compact := by
  cases h
  case start        => exact ⟨hx.valid, hx.owed, hx.sent⟩
  case refuse       => exact ⟨hx.valid, hx.owed, hx.sent⟩
  case single hv _ _ _ _ => exact ⟨hv, hx.owed, hx.sent⟩
  case hdr hv _ _ _ _    => exact ⟨hv, hx.owed, hx.sent⟩
  case emit c _ _ hn _ _ _ =>
    have hroll := roll_frameFlit cfg hx.valid hn c
    refine ⟨hx.valid.next, ?_, hx.sent.concat ?_⟩
    · rw [rollFlits_concat, hx.owed]
      exact hroll
    · rw [hx.owed, hroll]
      exact frame_grows hx.valid

theorem Sender.Steps.compact {tick : Int} {x y : Sender DeviceFlow}
    (h : Steps (devicePackerRules cfg) tick x y) (hx : x.Compact) : y.Compact := by
  induction h
  case refl        => exact hx
  case tail _ h ih => exact h.compact ih

theorem Produced.compact {vcSize bufSize : Nat} {p : TxPort .s2m vcSize bufSize DeviceFlow}
    (h : Produced cfg p) : ∃ fr, p.Shape (devicePackerRules cfg) fr ∧ (p.sender fr).Compact := by
  induction h
  case init flow =>
    refine ⟨.fresh 0 {}, CXLSystem.shape_init _ flow, Framing.Frame.fresh_valid _ (by simp), rfl, ?_⟩
    exact compact_nil
  case between hs ih =>
    obtain ⟨fr, hshape, hc⟩ := ih
    refine ⟨fr, hshape.congr hs.waiting hs.state hs.rollover hs.flit hs.lastHdr, hc.valid, ?_, ?_⟩
    · rw [TxPort.sender, hs.sent]
      exact hc.owed
    · rw [TxPort.sender, hs.sent]
      exact hc.sent
  case pack hp ih =>
    obtain ⟨fr, hshape, hc⟩ := ih
    obtain ⟨fr', hr⟩ := (TxPort.flitPacker_meets (devicePackerRules_lawful cfg) hshape).of_ok hp
    exact ⟨fr', hr.shape, Sender.Steps.compact hr.steps hc⟩

theorem Produced.foldlM {vcSize bufSize : Nat} {p p' : TxPort .s2m vcSize bufSize DeviceFlow}
    (h : Produced cfg p) (ticks : List Int)
    (hp : ticks.foldlM (fun p tick => p.flitPacker (devicePackerRules cfg) tick) p = .ok p') :
    Produced cfg p' := by
  induction ticks generalizing p
  case nil =>
    cases hp
    exact h
  case cons tick ticks ih =>
    have ⟨p₁, h₁, h₂⟩ := Except.bind_eq_ok.mp hp
    exact ih (h.pack h₁) h₂

end Compact

namespace Ports

variable {xs : List (Fin n × Flit)}

theorem getLast?_movesFrom (e : Nat) (xs : List (Fin n × Flit)) :
    (movesFrom e xs).getLast? = xs.getLast?.map fun x => ⟨x.1, x.2, rollAll e xs⟩ := by
  induction xs using List.reverseRecOn
  case nil               => rfl
  case append_singleton xs x _ =>
    rw [movesFrom_concat, List.getLast?_concat, List.getLast?_concat, rollAll_concat]
    rfl

-- Each flit comes from where the one before it holds the port.
def Kept (xs : List (Fin n × Flit)) : Prop :=
  (movesFrom 0 xs).IsChain fun x y => x.hold ≠ 0 → y.port = x.port

theorem kept_concat {d : Fin n} {f : Flit} : Kept (xs ++ [(d, f)]) ↔
    Kept xs ∧ ∀ x ∈ xs.getLast?, rollAll 0 xs ≠ 0 → d = x.1 := by
  rw [Kept, movesFrom_concat, List.isChain_append, getLast?_movesFrom]
  cases xs.getLast?
  case none   => simp [Kept]
  case some x => simp [Kept, Fin.ext_iff]

theorem movedOf_concat (d : Fin n) (x : Fin n × Flit) :
    movedOf d (xs ++ [x]) = if x.1 = d then movedOf d xs ++ [x.2] else movedOf d xs := by
  rw [movedOf, List.filterMap_append]
  split
  case isTrue h  => simp [movedOf, h]
  case isFalse h => simp [movedOf, h]

-- What the switch expects is owed by the device of the last flit.
structure OwedByLast (xs : List (Fin n × Flit)) (d : Fin n) : Prop where
  last  : (∀ x ∈ xs.getLast?, x.1 = d) → rollFlits (movedOf d xs) = rollAll 0 xs
  other : ∀ x ∈ xs.getLast?, x.1 ≠ d → rollFlits (movedOf d xs) = 0

-- The device that may send owes all that is expected.
theorem OwedByLast.next {d : Fin n} (h : OwedByLast xs d)
    (hd : ∀ x ∈ xs.getLast?, rollAll 0 xs ≠ 0 → d = x.1) :
    rollFlits (movedOf d xs) = rollAll 0 xs := by
  by_cases hl : ∀ x ∈ xs.getLast?, x.1 = d
  case pos => exact h.last hl
  case neg =>
    push Not at hl
    have ⟨x, hx, hne⟩ := hl
    have h₀ : rollAll 0 xs = 0 := by_contra fun h₀ => hne (hd x hx h₀).symm
    exact (h.other x hx hne).trans h₀.symm

theorem Kept.owedByLast (h : Kept xs) (d : Fin n) : OwedByLast xs d := by
  induction xs using List.reverseRecOn generalizing d
  case nil => exact ⟨fun _ => rfl, nofun⟩
  case append_singleton xs x ih =>
    have ⟨hxs, hlast⟩ := kept_concat.mp h
    have ih := ih hxs
    constructor
    case last =>
      intro hd
      have hd : x.1 = d := hd x (by simp)
      rw [movedOf_concat, if_pos hd, rollFlits_concat, rollAll_concat, (ih d).next (hd ▸ hlast)]
    case other =>
      intro y hy hne
      cases Option.some.inj (List.getLast?_concat ▸ hy)
      rw [movedOf_concat, if_neg hne]
      cases hl : xs.getLast?
      case none =>
        rw [List.getLast?_eq_none_iff.mp hl]
        rfl
      case some y =>
        by_cases hy : y.1 = d
        case neg => exact (ih d).other y hl hy
        case pos =>
          have h₀ : rollAll 0 xs = 0 := by_contra fun h₀ => hne ((hlast y hl h₀).trans hy)
          rw [(ih d).last (by simp [hl, hy]), h₀]

theorem Kept.grows (h : Kept xs) (hc : ∀ d, Compact (movedOf d xs)) :
    (∀ x ∈ movesFrom 0 xs, x.hold ≤ 4) ∧
      (movesFrom 0 xs).IsChain fun x y => y.hold = 0 ∨ x.hold < y.hold := by
  induction xs using List.reverseRecOn
  case nil => exact ⟨nofun, .nil⟩
  case append_singleton xs x ih =>
    have ⟨hxs, hlast⟩ := kept_concat.mp h
    have hgrows : Grows (rollAll 0 xs) (x.2.roll (rollAll 0 xs)) := by
      have hx := hc x.1
      rw [movedOf_concat, if_pos rfl] at hx
      have := hx _ _ (List.prefix_refl _)
      rwa [(hxs.owedByLast x.1).next hlast] at this
    have ⟨hle, hchain⟩ := ih hxs fun d => (hc d).of_initial (by
      rw [movedOf_concat]
      split
      case isTrue  => exact List.prefix_append _ _
      case isFalse => exact List.prefix_refl _)
    rw [movesFrom_concat]
    constructor
    case left =>
      simpa [or_imp, forall_and] using ⟨hle, hgrows.left⟩
    case right =>
      apply List.isChain_append.mpr
      refine ⟨hchain, List.isChain_singleton _, ?_⟩
      intro y hy z hz
      cases Option.some.inj hz
      rw [getLast?_movesFrom] at hy
      have ⟨w, _, hw⟩ := Option.map_eq_some_iff.mp hy
      cases hw
      exact hgrows.right

end Ports

section Runs

open SwitchEvent (arrivals)

variable {b : Build} {s s' : CXLSwitch cfg} {e : SwitchEvent n busSize}
variable {es : List (SwitchEvent n busSize)}

namespace Ports.On

variable {delay t : Int} {x y : Ports n} {d : Fin n} {k : Nat}

theorem inv (h : On delay e x y) (hx : x.Inv) : y.Inv := by
  cases h
  case fromDevice => exact ⟨hx.expected, hx.wf⟩
  case fromHost   => exact hx
  case update h   => exact Steps.inv h hx

theorem pending (h : On delay e x y) (he : e.IsFrom t) (hx : x.Inv) (hp : x.Pending delay t d k) :
    y.Pending delay t d k ∧ Relation.ReflTransGen (Arbiter.StepFor n d k) x.arbiter y.arbiter := by
  cases h
  case fromDevice d' f =>
    refine ⟨⟨hp.le, fun hlog => ?_⟩, .refl⟩
    have hr := hp.ready hlog
    by_cases hd : d = d'
    case pos =>
      cases hd
      dsimp only
      rw [Function.update_self]
      exact readyAt_mono hr (Int.le_refl t) [f]
    case neg =>
      dsimp only
      rwa [Function.update_of_ne hd]
  case fromHost => exact ⟨hp, .refl⟩
  case update h => exact Steps.pending h hx he hp

theorem received (h : On delay e x y) (d : Fin n) : y.received d = x.received d ++ arrivals d [e] := by
  cases h
  case fromDevice d' f =>
    by_cases hd : d' = d
    case pos =>
      subst hd
      simp [Ports.received, arrivals]
    case neg => simp [Ports.received, arrivals, hd, Function.update_of_ne (Ne.symm hd)]
  case fromHost => simp [arrivals]
  case update h => simp [arrivals, Steps.received h d]

end Ports.On

namespace CXLSwitch

theorem on_ports (h : s.on b e = .ok s') :
    Ports.On cfg.params.delayCxlPortSwitch e s.ports s'.ports := by
  cases e
  case fromDevice d f =>
    have ⟨buf, hbuf, hs'⟩ := Except.bind_eq_ok.mp h
    cases hs'
    have hq : buf.q = (s.downstreamRx d).q ++ [f] := CXLBuf.enqueue_meets.of_ok hbuf
    have hrx : (fun i => (Function.update s.downstreamRx d buf i).q) =
        Function.update (fun i => (s.downstreamRx i).q) d ((s.downstreamRx d).q ++ [f]) := by
      funext i
      by_cases hi : i = d
      case pos => subst hi; simp [hq]
      case neg => simp [hi]
    have hon : Ports.On cfg.params.delayCxlPortSwitch (.fromDevice d f : SwitchEvent n busSize) s.ports
        { s.ports with rx := Function.update s.ports.rx d (s.ports.rx d ++ [f]) } := .fromDevice d f
    simp only [ports, hrx]
    exact hon
  case fromHost f =>
    have ⟨buf, _, hs'⟩ := Except.bind_eq_ok.mp h
    cases hs'
    exact .fromHost f
  case update tick busToHost busToDevice =>
    have ⟨r, hr, hs'⟩ := Except.bind_eq_ok.mp h
    cases hs'
    exact .update ((update_steps b busToHost busToDevice).of_ok hr)

theorem runs_inv (h : s.runs b es = .ok s') (hs : s.ports.Inv) : s'.ports.Inv := by
  induction es generalizing s
  case nil =>
    cases h
    exact hs
  case cons e es ih =>
    have ⟨s₁, h₁, h₂⟩ := Except.bind_eq_ok.mp h
    exact ih h₂ ((on_ports h₁).inv hs)

theorem runs_received (h : s.runs b es = .ok s') (d : Fin n) :
    s'.ports.received d = s.ports.received d ++ arrivals d es := by
  induction es generalizing s
  case nil =>
    cases h
    simp [arrivals]
  case cons e es ih =>
    have ⟨s₁, h₁, h₂⟩ := Except.bind_eq_ok.mp h
    have harr : arrivals d (e :: es) = arrivals d [e] ++ arrivals d es := by
      cases e <;> grind [arrivals]
    rw [ih h₂, (on_ports h₁).received, harr, List.append_assoc]

theorem runs_pending {t : Int} {d : Fin n} {k : Nat} (h : s.runs b es = .ok s')
    (ht : ∀ e ∈ es, e.IsFrom t) (hs : s.ports.Inv)
    (hp : s.ports.Pending cfg.params.delayCxlPortSwitch t d k) :
    Relation.ReflTransGen (Arbiter.StepFor n d k) s.ports.arbiter s'.ports.arbiter := by
  induction es generalizing s
  case nil =>
    cases h
    exact .refl
  case cons e es ih =>
    have ⟨s₁, h₁, h₂⟩ := Except.bind_eq_ok.mp h
    have ⟨he, hes⟩ := List.forall_mem_cons.mp ht
    have ⟨hp₁, hsteps⟩ := (on_ports h₁).pending he hs hp
    exact hsteps.trans (ih h₂ hes ((on_ports h₁).inv hs) hp₁)

theorem init_inv : (init : CXLSwitch cfg).ports.Inv where
  expected := rfl
  wf       := ⟨id, nofun, .nil⟩

theorem waits_few_groups (b : Build) {es : List (SwitchEvent n busSize)} {s : CXLSwitch cfg}
    (h : (init : CXLSwitch cfg).runs b es = .ok s) :
    (∀ g ∈ Arbiter.groups s.ports.arbiter.log, ∃ d, ∀ x ∈ g, x.port = d) ∧
    (∀ (d : Fin n) (t : Int),
      (readyHead? t (s.downstreamRx d) cfg.params.delayCxlPortSwitch).isSome →
      ∀ (es' : List (SwitchEvent n busSize)) (s' : CXLSwitch cfg),
        (∀ e ∈ es', e.IsFrom t) → s.runs b es' = .ok s' →
        (Arbiter.groups (Arbiter.movesBefore d s.ports.arbiter s'.ports.arbiter)).length ≤ n - 1) ∧
    ((∀ d, ∃ (vcSize bufSize : Nat) (p : TxPort .s2m vcSize bufSize DeviceFlow), Produced cfg p ∧
        (arrivals d es).map Flit.core <+: p.sent.map Flit.core) →
      ∀ g ∈ Arbiter.groups s.ports.arbiter.log, g.length ≤ 5) := by
  have hs := runs_inv h init_inv
  refine ⟨?one, ?few, ?five⟩
  case one => exact fun g hg => Arbiter.port_of_mem_groups hg hs.wf.chain
  case few =>
    intro d t hready es' s' ht hr
    have hp : s.ports.Pending cfg.params.delayCxlPortSwitch t d s.ports.arbiter.log.length :=
      ⟨Nat.le_refl _, fun _ => hready⟩
    exact Nat.le_sub_one_of_lt (Arbiter.few_groups_before (runs_pending hr ht hs hp) hs.wf d.isLt)
  case five =>
    intro hsent g hg
    have hc (d : Fin n) : Compact (Ports.movedOf d s.moved) := by
      have ⟨_, _, p, hp, hpre⟩ := hsent d
      have ⟨fr, _, hcompact⟩ := hp.compact
      have harr : s.ports.received d = arrivals d es := runs_received h d
      have hmoved : Ports.movedOf d s.moved <+: arrivals d es := harr ▸ List.prefix_append _ _
      exact (hcompact.sent.of_initial ((hmoved.map Flit.core).trans hpre)).of_core
    have ⟨hle, hchain⟩ := Ports.Kept.grows hs.wf.chain hc
    exact Arbiter.length_of_mem_groups hg hle hchain

-- Two devices, each of which answers a read. The answer takes two flits.
def pair : Config 2 where
  addressIntervals i := (64 * i, 64 * (i + 1))
  damInterval        := (128, 192)
  devVcSize_pos      := Config.main.devVcSize_pos

def readAnswer : VcArray 1 Dir.s2m.hdrOp where
  vcs       := Function.update (fun _ => ∅) 0 ⟨[{ opCode := .drs }], by decide⟩
  opCode_eq := by decide

def answering : TxPort .s2m 1 2 DeviceFlow :=
  { TxPort.init ⟨⟨0, 0, 1⟩, ⟨0, 0, 0⟩, 0⟩ with hdr := readAnswer }

def packedAnswer : Sim (TxPort .s2m 1 2 DeviceFlow) :=
  [20, 21, 22, 24].foldlM (fun p tick => p.flitPacker (devicePackerRules pair) tick) answering

def answerFlits : List Flit :=
  match packedAnswer with
  | .ok p    => p.sent
  | .error _ => []

def bothAnswer : List (SwitchEvent 2 15) :=
  answerFlits.map (.fromDevice 0) ++ answerFlits.map (.fromDevice 1)

def threeUpdates : List (SwitchEvent 2 15) :=
  [130, 131, 132].map fun tick => .update tick .init fun _ => .init

theorem produced_answer :
    ∃ p : TxPort .s2m 1 2 DeviceFlow, Produced pair p ∧ p.sent = answerFlits := by
  have hok : packedAnswer.toOption.isSome := by decide +kernel
  have hinit : Produced pair answering :=
    .between (.init answering.flow) ⟨rfl, rfl, rfl, rfl, rfl, rfl⟩
  match hp : packedAnswer, hok with
  | .ok p, _ => exact ⟨p, hinit.foldlM _ hp, by rw [answerFlits, hp]⟩

-- The second device is ready and waits for the two flits of the first one.
theorem waits_few_groups_pair : ∃ s s' : CXLSwitch pair,
    init.runs {} bothAnswer = .ok s ∧ s.runs {} threeUpdates = .ok s' ∧
    s'.moved.map Prod.fst = [0, 0, 1] ∧
    (Arbiter.groups (Arbiter.movesBefore 1 s.ports.arbiter s'.ports.arbiter)).length ≤ 1 ∧
    ∀ g ∈ Arbiter.groups s'.ports.arbiter.log, g.length ≤ 5 := by
  have hready : ((init : CXLSwitch pair).runs {} bothAnswer).toOption.any
      (fun s => (readyHead? 130 (s.downstreamRx 1) 130).isSome) := by decide +kernel
  have hmoved : ((init : CXLSwitch pair).runs {} (bothAnswer ++ threeUpdates)).toOption.map
      (fun s => s.moved.map Prod.fst) = some [0, 0, 1] := by decide +kernel
  match hr : (init : CXLSwitch pair).runs {} bothAnswer, hready with
  | .ok s, hready =>
    match hr' : (init : CXLSwitch pair).runs {} (bothAnswer ++ threeUpdates), hmoved with
    | .ok s', hmoved =>
      have hrun : s.runs {} threeUpdates = .ok s' := by
        rw [runs, List.foldlM_append] at hr'
        have ⟨s₁, h₁, h₂⟩ := Except.bind_eq_ok.mp hr'
        cases hr.symm.trans h₁
        exact h₂
      have ht : ∀ e ∈ threeUpdates, e.IsFrom 130 := by
        simp [threeUpdates, SwitchEvent.IsFrom]
      have hsent (d : Fin 2) : arrivals d (bothAnswer ++ threeUpdates) = answerFlits := by
        decide +revert +kernel
      have ⟨p, hp, hflits⟩ := produced_answer
      have hfew := (waits_few_groups {} hr).right.left 1 130 hready threeUpdates s' ht hrun
      have hfive := (waits_few_groups {} hr').right.right fun d =>
        ⟨1, 2, p, hp, by rw [hsent, hflits]⟩
      exact ⟨s, s', rfl, hrun, Option.some.inj hmoved, hfew, hfive⟩

end CXLSwitch

end Runs

end CXL
