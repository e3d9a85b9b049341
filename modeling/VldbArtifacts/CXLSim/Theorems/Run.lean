import VldbArtifacts.CXLSim.Theorems.Basic
import VldbArtifacts.CXLSim.Action

-- A tick makes nothing but the calls of `Action`.

namespace CXL

namespace CXLSystem

open CXLSwitch

variable {n : Nat} {cfg : Config n} {M : Memory} {s : CXLSystem cfg M} {b : Build}
  {rule : CXLSystem cfg M → Action n → Prop}

namespace IsRunOf

theorem ok (s : CXLSystem cfg M) : s.IsRunOf rule (.ok s) :=
  ⟨[], rfl, trivial⟩

theorem cons {s' : CXLSystem cfg M} {x : Sim (CXLSystem cfg M)} (a : Action n) (hr : rule s a)
    (ha : s.perform a = .ok s') (hx : s'.IsRunOf rule x) : s.IsRunOf rule x := by
  have ⟨as, has, hadm⟩ := hx
  exact ⟨a :: as, by simpa [ha] using has, hr, by simpa [ha] using hadm⟩

theorem perform (s : CXLSystem cfg M) (a : Action n) (hr : rule s a) :
    s.IsRunOf rule (s.perform a) := by
  cases h : s.perform a
  case ok s'   => exact .cons a hr h (.ok s')
  case error e => exact ⟨[a], by simp [h], hr, by simp [h]⟩

theorem bind {x : Sim (CXLSystem cfg M)} {f : CXLSystem cfg M → Sim (CXLSystem cfg M)}
    (hx : s.IsRunOf rule x) (hf : ∀ s', x = .ok s' → s'.IsRunOf rule (f s')) :
    s.IsRunOf rule (x >>= f) := by
  have ⟨as, has, hadm⟩ := hx
  induction as generalizing s
  case nil =>
    cases has
    exact hf s rfl
  case cons a as ih =>
    rw [List.foldlM_cons] at has
    cases h : s.perform a
    case error e =>
      rw [h, Except.error_bind] at has
      subst has
      exact ⟨[a], by simp [h], hadm.left, by simp [h]⟩
    case ok s' =>
      rw [h, Except.ok_bind] at has
      have hadm' : Admits rule s' as := by simpa [h] using hadm.right
      exact .cons a hadm.left h (ih ⟨as, has, hadm'⟩ has hadm')

-- The first part of a computation is one of the calls, which puts what it computes into the state.
theorem step {β : Type} {x : Sim β} {f : β → Sim (CXLSystem cfg M)} (a : Action n) (hr : rule s a)
    (put : β → CXLSystem cfg M) (ha : s.perform a = x >>= fun r => .ok (put r))
    (h : ∀ r, x = .ok r → (put r).IsRunOf rule (f r)) : s.IsRunOf rule (x >>= f) := by
  cases x
  case error e => exact ⟨[a], by simp [ha], hr, by simp [ha]⟩
  case ok r    => exact .cons a hr ha (h r rfl)

theorem ite {c : Prop} [Decidable c] {x y : Sim (CXLSystem cfg M)} (hx : c → s.IsRunOf rule x)
    (hy : ¬c → s.IsRunOf rule y) : s.IsRunOf rule (if c then x else y) := by
  by_cases h : c
  case pos => simpa [h] using hx h
  case neg => simpa [h] using hy h

theorem foldlM {γ : Type} {g : CXLSystem cfg M → γ → Sim (CXLSystem cfg M)}
    (h : ∀ s c, IsRunOf rule s (g s c)) (l : List γ) (s : CXLSystem cfg M) :
    s.IsRunOf rule (l.foldlM g s) := by
  induction l generalizing s
  case nil => exact .ok s
  case cons c l hi =>
    rw [List.foldlM_cons]
    exact (h s c).bind fun s' _ => hi s'

-- A loop over the devices.
theorem traverse {α : Type} {f : Fin n → Sim α} {g : (Fin n → α) → Sim (CXLSystem cfg M)}
    (put : (Fin n → α) → CXLSystem cfg M) (step : CXLSystem cfg M → Fin n → Sim (CXLSystem cfg M))
    (x : Fin n → α) (hr : ∀ s i, IsRunOf rule s (step s i))
    (hs : ∀ y i, y i = x i → step (put y) i = f i >>= fun a => .ok (put (Function.update y i a)))
    (hg : ∀ r, (put r).IsRunOf rule (g r)) : (put x).IsRunOf rule (Except.traverseFin f >>= g) := by
  have h := Except.traverseFin_eq_foldlM put step x hs
  have hf : (put x).IsRunOf rule (Except.traverseFin f >>= fun r => .ok (put r)) :=
    h ▸ foldlM hr (List.finRange n) (put x)
  cases ht : Except.traverseFin f
  case error e =>
    rw [ht] at hf
    exact hf
  case ok r =>
    rw [ht] at hf
    exact hf.bind fun s' hs' => Except.ok.inj hs' ▸ hg r

end IsRunOf

theorem tick_eq (b : Build) (s : CXLSystem cfg M) :
    s.tick b = s.updateOthers b >>= fun s => s.updateTrace b >>= updateRest b := by
  simp only [tick, update, updateOthers, updateHost, bind_assoc]
  apply bind_congr; intro s
  apply bind_congr; intro s
  apply bind_congr; intro s
  apply bind_congr; intro s
  apply bind_congr; intro s
  apply bind_congr; intro r
  rw [pure_bind]
  split
  case isTrue h  => simp only [Except.pure_def, Except.ok_bind, if_pos h]
  case isFalse h => simp only [Except.pure_def, Except.ok_bind, if_neg h]

-- A rule that admits every call, except perhaps some of those that set the tick.
variable (hrule : ∀ (s : CXLSystem cfg M) a, a.tick? = none → rule s a)

include hrule in
theorem updateHostBuses_isRunOf : s.IsRunOf rule s.updateHostBuses := by
  unfold updateHostBuses
  refine .step .busToHost (hrule _ _ rfl) _ rfl fun r _ => ?_
  refine .step .busFromHost (hrule _ _ rfl) _ rfl fun r' _ => ?_
  exact .ok _

-- A family of tuples is updated in each of its components.
theorem update_comp {α β : Type} (g : Fin n → α → β) (y : Fin n → α) (i : Fin n) (a : α) :
    (fun j => g j (Function.update y i a j)) = Function.update (fun j => g j (y j)) i (g i a) :=
  funext fun j => Function.apply_update g y i a j

-- What the loop over the downstream ports puts into the state.
def putDown (s : CXLSystem cfg M)
    (r : Fin n → CXLBuf cfg.switchBufSize Flit × Nat × CXLBus cfg.busSize) : CXLSystem cfg M :=
  { s with
    switch      := { s.switch with
      downstreamTx := fun i => (r i).1, downstreamLastTransmission := fun i => (r i).2.1 }
    busToDevice := fun i => (r i).2.2 }

include hrule in
theorem updateSwitch_isRunOf : s.IsRunOf rule (s.updateSwitch b) := by
  unfold updateSwitch CXLSwitch.update
  split
  case isTrue => exact .ok _
  case isFalse =>
    unfold updateH2D updateD2H
    simp only [bind_assoc, pure_bind]
    refine .step .forwardH2D (hrule _ _ rfl) _ rfl fun r _ => ?_
    refine .step .route (hrule _ _ rfl) _ rfl fun sw _ => ?_
    refine IsRunOf.traverse (putDown { s with switch := sw }) (fun s i => s.perform (.sendDown i))
      (fun i => (sw.downstreamTx i, sw.downstreamLastTransmission i, s.busToDevice i))
      (fun s i => .perform s _ (hrule _ _ rfl)) ?_ fun r => ?_
    case _ =>
      intro y i hy
      simp only [perform, putDown, hy, update_comp (fun _ r => r.1) y,
        update_comp (fun _ r => r.2.1) y, update_comp (fun _ r => r.2.2) y]
      rfl
    case _ =>
      refine .step .arbitrate (hrule _ _ rfl) _ rfl fun sw _ => ?_
      refine .step .forwardD2H (hrule _ _ rfl) _ rfl fun r _ => ?_
      refine .step .sendUp (hrule _ _ rfl) _ rfl fun r _ => ?_
      split
      case isTrue  => exact .perform _ (.setSkipCycle _) (hrule _ _ rfl)
      case isFalse => exact .ok _

-- What the loops over the buses of the devices put into the state.
def putBuses (s : CXLSystem cfg M)
    (r : Fin n → (CXLBus cfg.busSize × CXLBuf cfg.devBufSize Flit) ×
      (CXLBus cfg.busSize × CXLBuf cfg.switchBufSize Flit)) : CXLSystem cfg M :=
  { s with
    devices       := fun i => { s.devices i with
      rx := { (s.devices i).rx with rxBuffer := (r i).1.2 } }
    switch        := { s.switch with downstreamRx := fun i => (r i).2.2 }
    busToDevice   := fun i => (r i).1.1
    busFromDevice := fun i => (r i).2.1 }

include hrule in
theorem updateDeviceBuses_isRunOf : s.IsRunOf rule s.updateDeviceBuses := by
  unfold updateDeviceBuses
  refine IsRunOf.traverse (putBuses s)
    (fun s i => s.perform (.busToDevice i) >>= (·.perform (.busFromDevice i)))
    (fun i => ((s.busToDevice i, (s.devices i).rx.rxBuffer),
      (s.busFromDevice i, s.switch.downstreamRx i)))
    (fun s i => (IsRunOf.perform s _ (hrule _ _ rfl)).bind fun s' _ =>
      .perform s' _ (hrule _ _ rfl)) ?_ fun r => .ok _
  intro y i hy
  have hd := update_comp (fun j r => ({ s.devices j with
    rx := { (s.devices j).rx with rxBuffer := r.1.2 } } : CXLDevice cfg M)) y i
  simp only [perform, putBuses, setDevice, hy, bind_assoc, pure_bind, hd, update_comp (fun _ r => r.1.1) y,
    update_comp (fun _ r => r.2.1) y, update_comp (fun _ r => r.2.2) y]
  rfl

theorem IsRunOf.skipIf {β : Type} {c : Prop} [Decidable c] {d : β} {x : Sim β}
    {f : β → Sim (CXLSystem cfg M)} (a : Action n) (hr : ∀ s, rule s a)
    (put : β → CXLSystem cfg M)
    (ha : (put d).perform a = x >>= fun r => .ok (put r)) (h : ∀ r, (put r).IsRunOf rule (f r)) :
    (put d).IsRunOf rule (CXL.skipIf c d x >>= f) := by
  unfold CXL.skipIf
  split
  case isTrue  => exact h d
  case isFalse => exact .step a (hr _) put ha fun r _ => h r

def putDevice (s : CXLSystem cfg M) (i : Fin n) (r : CXLDevice cfg M × CXLBus cfg.busSize) :
    CXLSystem cfg M :=
  { s.setDevice i r.1 with busFromDevice := Function.update s.busFromDevice i r.2 }

include hrule in
theorem updateDevice_isRunOf (s : CXLSystem cfg M) (i : Fin n) :
    s.IsRunOf rule ((s.devices i).update s.currTick b (s.busFromDevice i) >>=
      fun r => .ok (s.putDevice i r)) := by
  have hs : s = s.putDevice i (s.devices i, s.busFromDevice i) := by
    simp [putDevice, setDevice, Function.update_eq_self]
  generalize s.busFromDevice i = bus at hs ⊢
  conv => arg 2; rw [hs]
  unfold CXLDevice.update
  simp only [bind_assoc, pure_bind]
  refine .skipIf (.packDevice i) (hrule · _ rfl) (fun d => s.putDevice i (d, bus)) ?_ fun d => ?_
  case _ => simp [perform, putDevice, setDevice]
  refine .skipIf (.unpackDevice i) (hrule · _ rfl) (fun d => s.putDevice i (d, bus)) ?_ fun d => ?_
  case _ => simp [perform, putDevice, setDevice]
  refine .skipIf (.sendToRamulator i) (hrule · _ rfl) (fun d => s.putDevice i (d, bus)) ?_ fun d => ?_
  case _ => simp [perform, putDevice, setDevice]
  refine IsRunOf.skipIf (d := (d, bus)) (.transmitDevice i) (hrule · _ rfl) (s.putDevice i ·) ?_ fun r => ?_
  case _ => simp [perform, putDevice, setDevice]
  obtain ⟨d, bus⟩ := r
  refine .skipIf (.updateDram i) (hrule · _ rfl) (fun d => s.putDevice i (d, bus)) ?_ fun d => .ok _
  simp [perform, putDevice, setDevice]

def putDevices (s : CXLSystem cfg M) (r : Fin n → CXLDevice cfg M × CXLBus cfg.busSize) :
    CXLSystem cfg M :=
  { s with devices := fun i => (r i).1, busFromDevice := fun i => (r i).2 }

include hrule in
theorem updateDevices_isRunOf : s.IsRunOf rule (s.updateDevices b) := by
  unfold updateDevices
  refine IsRunOf.traverse (putDevices s)
    (fun s i => (s.devices i).update s.currTick b (s.busFromDevice i) >>=
      fun r => .ok (s.putDevice i r))
    (fun i => (s.devices i, s.busFromDevice i)) (fun s i => updateDevice_isRunOf hrule s i) ?_ fun r => .ok _
  intro y i hy
  simp only [putDevices, putDevice, setDevice, hy, update_comp (fun _ r => r.1) y,
    update_comp (fun _ r => r.2) y]

include hrule in
theorem updateMemories_isRunOf (s : CXLSystem cfg M) : s.IsRunOf rule s.updateMemories := by
  unfold updateMemories
  refine IsRunOf.traverse (fun r => { s with devices := r }) (fun s i => s.perform (.updateDram i))
    s.devices (fun s i => .perform s _ (hrule _ _ rfl)) ?_ fun r => .ok _
  intro y i hy
  simp only [perform, setDevice, hy]
  rfl

include hrule in
theorem catchUp_isRunOf (rounds : Nat) (i : Int) (s : CXLSystem cfg M) :
    s.IsRunOf rule (catchUp rounds i s) := by
  induction rounds generalizing i s
  case zero => exact .ok s
  case succ rounds hi =>
    unfold catchUp
    by_cases h : i = s.currTick
    case pos =>
      simp only [h, true_or, assert, ↓reduceIte]
      exact (updateMemories_isRunOf hrule s).bind fun s' _ => hi _ s'
    case neg =>
      simp only [h, false_or, ↓reduceIte]
      refine .step .checkDAM (hrule _ _ rfl) (fun _ => s) rfl fun _ _ => ?_
      refine .cons .updateDam (hrule _ _ rfl) rfl ?_
      exact (updateMemories_isRunOf hrule _).bind fun s' _ => hi _ s'

include hrule in
theorem skipIdleTicks_isRunOf (s : CXLSystem cfg M) (hf : b.fastForward)
    (hjump : rule s (.setTick (s.jumpTick b))) : s.IsRunOf rule s.skipIdleTicks := by
  unfold skipIdleTicks
  cases hq : s.host.textToTraceBuf.q
  case nil => exact .ok s
  case cons x q =>
    refine .ite (fun ha => ?_) fun _ => .ok s
    have ht : s.jumpTick b = s.jumpTarget x.1 := by simp [jumpTick, jumps, hf, ha, hq]
    rw [ht] at hjump
    exact .cons (.setTick _) hjump rfl (catchUp_isRunOf hrule _ _ _)

include hrule in
theorem finishTrace_isRunOf (s : CXLSystem cfg M) (more : Bool) :
    s.IsRunOf rule (.ok { s with host := { s.host with
      isTraceFinished := s.host.isTraceFinished || !more } }) := by
  cases more
  case true  => simpa using IsRunOf.ok s
  case false => simpa [perform] using IsRunOf.perform s .finishTrace (hrule _ _ rfl)

include hrule in
theorem updateTrace_isRunOf (s : CXLSystem cfg M) (hjump : rule s (.setTick (s.jumpTick b))) :
    s.IsRunOf rule (s.updateTrace b) := by
  unfold updateTrace textToTrace
  split
  case isFalse => exact .ok s
  case isTrue =>
    simp only [bind_assoc]
    have hskip : s.IsRunOf rule (skipIf (¬b.fastForward) s s.skipIdleTicks) := by
      unfold skipIf
      exact .ite (fun _ => .ok s) fun hf => skipIdleTicks_isRunOf hrule s (not_not.mp hf) hjump
    refine hskip.bind fun s _ => ?_
    refine .step .issueHead (hrule _ _ rfl) (fun r => r.2) rfl fun r _ => ?_
    split
    case isTrue =>
      rw [bind_assoc]
      refine .step .readTrace (hrule _ _ rfl) (fun r' => { r.2 with host := r'.2 }) rfl fun r' _ => ?_
      exact finishTrace_isRunOf hrule _ _
    case isFalse => exact finishTrace_isRunOf hrule _ _

include hrule in
theorem updateOthers_isRunOf (b : Build) (s : CXLSystem cfg M) : s.IsRunOf rule (s.updateOthers b) := by
  refine (updateHostBuses_isRunOf hrule).bind fun s _ => ?_
  refine (updateSwitch_isRunOf hrule).bind fun s _ => ?_
  exact (updateDeviceBuses_isRunOf hrule).bind fun s _ => updateDevices_isRunOf hrule

include hrule in
theorem updateRest_isRunOf (b : Build) (s : CXLSystem cfg M)
    (hnext : ∀ s, rule s (.setTick (s.currTick + 1))) : s.IsRunOf rule (s.updateRest b) := by
  unfold updateRest CXLHost.updateNode
  simp only [bind_assoc, pure_bind]
  refine .step .checkCreds (hrule _ _ rfl) (fun _ => s) rfl fun _ _ => ?_
  refine .skipIf .packHost (hrule · _ rfl) (fun host => { s with host }) rfl fun h => ?_
  refine IsRunOf.skipIf (d := (h, s.busFromHost)) .transmitHost (hrule · _ rfl)
    (fun r => { s with host := r.1, busFromHost := r.2 }) rfl fun r => ?_
  refine .skipIf .unpackHost (hrule · _ rfl) (fun h => { s with host := h, busFromHost := r.2 }) rfl
    fun h => ?_
  refine .skipIf .completeReq (hrule · _ rfl) (fun h => { s with host := h, busFromHost := r.2 }) rfl
    fun h => ?_
  split
  case isTrue  => exact .cons .updateDam (hrule _ _ rfl) rfl (.perform _ (.setTick _) (hnext _))
  case isFalse => exact .perform _ (.setTick _) (hnext _)

include hrule in
theorem tick_isRunOf (b : Build) (s : CXLSystem cfg M)
    (hjump : ∀ s', s.updateOthers b = .ok s' → rule s' (.setTick (s'.jumpTick b)))
    (hnext : ∀ s, rule s (.setTick (s.currTick + 1))) : s.IsRunOf rule (s.tick b) := by
  rw [tick_eq]
  refine (updateOthers_isRunOf hrule b s).bind fun s hs => ?_
  exact (updateTrace_isRunOf hrule s (hjump s hs)).bind fun s _ => updateRest_isRunOf hrule b s hnext

omit hrule in
theorem tick_isRun (b : Build) (s : CXLSystem cfg M) : s.IsRun (s.tick b) := by
  have h : s.IsRunOf (fun _ _ => True) (s.tick b) :=
    tick_isRunOf (fun _ _ _ => trivial) b s (fun _ _ => trivial) fun _ => trivial
  exact h.imp fun _ => And.left

theorem run_isRunOf (b : Build) (k : Nat) (s : CXLSystem cfg M)
    (h : ∀ j < k, ∀ s', s.run b j = .ok s' → s'.IsRunOf rule (s'.tick b)) : s.IsRunOf rule (s.run b k) := by
  induction k generalizing s
  case zero => exact .ok s
  case succ k ih =>
    refine (h 0 (Nat.succ_pos k) s rfl).bind fun s' hs' => ih s' fun j hj s'' hs'' => ?_
    refine h (j + 1) (Nat.succ_lt_succ hj) s'' ?_
    rw [run, hs']
    exact hs''

theorem run_isRun (b : Build) (k : Nat) (s : CXLSystem cfg M) : s.IsRun (s.run b k) := by
  have h : s.IsRunOf (fun _ _ => True) (s.run b k) := run_isRunOf b k s fun _ _ s' _ =>
    tick_isRunOf (fun _ _ _ => trivial) b s' (fun _ _ => trivial) fun _ => trivial
  exact h.imp fun _ => And.left

-- What every call keeps, a tick keeps.
theorem tick_meets {P : CXLSystem cfg M → Prop} {E : Failure → Prop}
    (h : ∀ s a, P s → (s.perform a).Meets P E) (hs : P s) : (s.tick b).Meets P E := by
  have ⟨as, has⟩ := tick_isRun b s
  rw [← has]
  exact Except.Meets.foldlM (fun s a _ => h s a) hs

end CXLSystem

end CXL
