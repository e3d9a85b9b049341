import Mathlib.Tactic

-- Computations that may abort: inversion of binds and loops over the components of a family.

namespace Except

variable {ε α β : Type}

theorem bind_eq_ok {x : Except ε α} {f : α → Except ε β} {b : β} :
    (x >>= f) = .ok b ↔ ∃ a, x = .ok a ∧ f a = .ok b := by
  cases x <;> simp [bind, Except.bind]

theorem bind_eq_error {x : Except ε α} {f : α → Except ε β} {e : ε} :
    (x >>= f) = .error e ↔ x = .error e ∨ ∃ a, x = .ok a ∧ f a = .error e := by
  cases x <;> simp [bind, Except.bind]

@[simp]
theorem ok_bind (a : α) (f : α → Except ε β) : (Except.ok a >>= f) = f a :=
  rfl

@[simp]
theorem error_bind (e : ε) (f : α → Except ε β) : (Except.error e >>= f) = .error e :=
  rfl

@[simp]
theorem pure_def (a : α) : (pure a : Except ε α) = .ok a :=
  rfl

-- The failure that the computation aborts with.
def failure? : Except ε α → Option ε
  | .ok _    => none
  | .error e => some e

theorem failure?_eq_some {x : Except ε α} {e : ε} : x.failure? = some e ↔ x = .error e := by
  cases x <;> simp [failure?]

theorem toOption_eq_some {x : Except ε α} {a : α} : x.toOption = some a ↔ x = .ok a := by
  cases x <;> simp [Except.toOption]

-- The loop `for (i = 0; i < n; i++)` whose `i`-th round computes the new value of the `i`-th
-- component and touches nothing else. The first round that aborts aborts the loop.
def traverseFin : {n : Nat} → (Fin n → Except ε α) → Except ε (Fin n → α)
  | 0, _     => .ok Fin.elim0
  | _ + 1, f => do
    let a ← f 0
    let g ← traverseFin fun i => f i.succ
    return Fin.cons a g

theorem traverseFin_eq_ok {n : Nat} {f : Fin n → Except ε α} {g : Fin n → α} :
    traverseFin f = .ok g ↔ ∀ i, f i = .ok (g i) := by
  induction n
  case zero =>
    simp only [traverseFin, Except.ok.injEq]
    exact ⟨fun _ i => i.elim0, fun _ => funext fun i => i.elim0⟩
  case succ n hi =>
    simp only [traverseFin, bind_eq_ok, pure_def, Except.ok.injEq]
    constructor
    case mp =>
      rintro ⟨a, ha, g', hg', rfl⟩ i
      cases i using Fin.cases
      case zero   => simpa using ha
      case succ i => simpa using hi.mp hg' i
    case mpr =>
      intro h
      exact ⟨g 0, h 0, fun i => g i.succ, hi.mpr fun i => h i.succ, Fin.cons_self_tail g⟩

theorem traverseFin_eq_error {n : Nat} {f : Fin n → Except ε α} {e : ε}
    (h : traverseFin f = .error e) : ∃ i, f i = .error e := by
  induction n
  case zero => simp [traverseFin] at h
  case succ n hi =>
    simp only [traverseFin, bind_eq_error, pure_def, reduceCtorEq, and_false, exists_false,
      or_false] at h
    rcases h with h | ⟨_, _, h⟩
    case inl => exact ⟨0, h⟩
    case inr =>
      have ⟨i, hi⟩ := hi h
      exact ⟨i.succ, hi⟩

-- The loop over the components, as a loop over the state that holds them.
theorem traverseFin_eq_foldlM {n : Nat} {S : Type} {f : Fin n → Except ε α} (put : (Fin n → α) → S)
    (step : S → Fin n → Except ε S) (x : Fin n → α)
    (h : ∀ y i, y i = x i → step (put y) i = f i >>= fun a => .ok (put (Function.update y i a))) :
    (List.finRange n).foldlM step (put x) = traverseFin f >>= fun g => .ok (put g) := by
  induction n generalizing S
  case zero => simp [traverseFin, Subsingleton.elim x Fin.elim0]
  case succ n hi =>
    rw [List.finRange_succ, List.foldlM_cons, h x 0 rfl, traverseFin]
    cases h0 : f 0
    case error e => rfl
    case ok a =>
      have hx : Function.update x 0 a = Fin.cons a (Fin.tail x) := by
        rw [← Fin.cons_self_tail (Function.update x 0 a)]
        simp [Fin.tail_update_zero]
      simp only [ok_bind, pure_def, List.foldlM_map, hx]
      refine (hi (f := fun i => f i.succ) (fun y => put (Fin.cons a y)) (fun s i => step s i.succ)
        (Fin.tail x) fun y i hy => ?_).trans ?_
      case _ =>
        rw [h _ _ (by simpa [Fin.tail] using hy)]
        simp only [Fin.cons_update]
      case _ =>
        cases traverseFin fun i => f i.succ <;> rfl

-- A loop over a list aborts in one of its rounds.
theorem foldlM_eq_error {γ : Type} {g : α → γ → Except ε α} {l : List γ} {a : α} {e : ε} :
    l.foldlM g a = .error e ↔
      ∃ l₁ c l₂ a', l = l₁ ++ c :: l₂ ∧ l₁.foldlM g a = .ok a' ∧ g a' c = .error e := by
  constructor
  case mp =>
    intro h
    induction l generalizing a
    case nil => cases h
    case cons c l hi =>
      rw [List.foldlM_cons] at h
      rcases bind_eq_error.mp h with h | ⟨a', ha', h⟩
      case inl => exact ⟨[], c, l, a, rfl, rfl, h⟩
      case inr =>
        have ⟨l₁, d, l₂, a'', hl, ha'', he⟩ := hi h
        exact ⟨c :: l₁, d, l₂, a'', by rw [hl]; rfl, by rw [List.foldlM_cons, ha']; exact ha'', he⟩
  case mpr =>
    rintro ⟨l₁, c, l₂, a', rfl, ha', he⟩
    rw [List.foldlM_append, ha', ok_bind, List.foldlM_cons, he, error_bind]

-- The loop over a list that collects its results.
theorem mapM_ok {f : α → Except ε β} {g : α → β} {l : List α} (h : ∀ a ∈ l, f a = .ok (g a)) :
    l.mapM f = .ok (l.map g) := by
  induction l
  case nil => rfl
  case cons a l ih =>
    rw [List.forall_mem_cons] at h
    rw [List.mapM_cons, h.left, ih h.right]
    rfl

theorem mapM_forall₂ {f : α → Except ε β} {l : List α} {l' : List β}
    (h : List.Forall₂ (fun a b => f a = .ok b) l l') : l.mapM f = .ok l' := by
  induction h
  case nil => rfl
  case cons h _ ih =>
    rw [List.mapM_cons, h, ih]
    rfl

theorem forall₂_of_mapM {f : α → Except ε β} {l : List α} {l' : List β} (h : l.mapM f = .ok l') :
    List.Forall₂ (fun a b => f a = .ok b) l l' := by
  induction l generalizing l'
  case nil => cases h; exact .nil
  case cons a l ih =>
    rw [List.mapM_cons] at h
    obtain ⟨b, hb, h⟩ := bind_eq_ok.mp h
    obtain ⟨l₁, hl, h⟩ := bind_eq_ok.mp h
    cases Except.ok.inj h
    exact .cons hb (ih hl)

theorem exists_of_mapM_error {f : α → Except ε β} {l : List α} {e : ε} (h : l.mapM f = .error e) :
    ∃ a ∈ l, f a = .error e := by
  induction l
  case nil => cases h
  case cons a l ih =>
    rw [List.mapM_cons] at h
    rcases bind_eq_error.mp h with h | ⟨b, -, h⟩
    case inl => exact ⟨a, List.mem_cons_self, h⟩
    case inr =>
      rcases bind_eq_error.mp h with h | ⟨_, -, h⟩
      case inl =>
        obtain ⟨a', ha', he⟩ := ih h
        exact ⟨a', List.mem_cons_of_mem _ ha', he⟩
      case inr => cases h

theorem exists_of_mapM {f : α → Except ε β} {l : List α} {l' : List β} (h : l.mapM f = .ok l') :
    ∀ a ∈ l, ∃ b, f a = .ok b := by
  induction l generalizing l'
  case nil => exact List.forall_mem_nil _
  case cons a l ih =>
    rw [List.mapM_cons] at h
    obtain ⟨b, hb, h⟩ := bind_eq_ok.mp h
    obtain ⟨l', hl, _⟩ := bind_eq_ok.mp h
    exact List.forall_mem_cons.mpr ⟨⟨b, hb⟩, ih hl⟩

-- The loop whose rounds compute something that does not depend on the state.
section rounds

variable {S : Type} {f : α → Except ε β} {g : S → α → β → S} {l : List α}

theorem foldlM_ok {b : α → β} (h : ∀ a ∈ l, f a = .ok (b a)) (s : S) :
    (l.foldlM (fun s a => do return g s a (← f a)) s : Except ε S) =
      .ok (l.foldl (fun s a => g s a (b a)) s) := by
  induction l generalizing s
  case nil => rfl
  case cons a l ih =>
    rw [List.forall_mem_cons] at h
    rw [List.foldlM_cons, h.left]
    exact ih h.right _

theorem exists_of_foldlM {s s' : S}
    (h : (l.foldlM (fun s a => do return g s a (← f a)) s : Except ε S) = .ok s') :
    ∀ a ∈ l, ∃ b, f a = .ok b := by
  induction l generalizing s
  case nil => exact List.forall_mem_nil _
  case cons a l ih =>
    rw [List.foldlM_cons] at h
    obtain ⟨s₁, h₁, h⟩ := bind_eq_ok.mp h
    obtain ⟨b, hb, _⟩ := bind_eq_ok.mp h₁
    exact List.forall_mem_cons.mpr ⟨⟨b, hb⟩, ih h⟩

end rounds

-- The computation returns a value with property `Q`, or it aborts with a failure that is in `E`.
def Meets (x : Except ε α) (Q : α → Prop) (E : ε → Prop) : Prop :=
  match x with
  | .ok a    => Q a
  | .error e => E e

variable {x : Except ε α} {f : α → Except ε β} {P Q : α → Prop} {R : β → Prop} {E E' : ε → Prop}

@[simp]
theorem meets_ok {a : α} : (Except.ok a : Except ε α).Meets Q E ↔ Q a :=
  Iff.rfl

@[simp]
theorem meets_error {e : ε} : (Except.error e : Except ε α).Meets Q E ↔ E e :=
  Iff.rfl

@[simp]
theorem meets_pure {a : α} : (pure a : Except ε α).Meets Q E ↔ Q a :=
  Iff.rfl

theorem meets_self (x : Except ε α) : x.Meets (x = .ok ·) (x = .error ·) := by
  cases x <;> rfl

theorem meets_iff : x.Meets Q E ↔ (∀ a, x = .ok a → Q a) ∧ (∀ e, x = .error e → E e) := by
  cases x <;> simp [Meets]

namespace Meets

theorem intro {a : α} (hx : x = .ok a) (h : Q a) : x.Meets Q E := by
  rw [hx]
  exact h

theorem of_ok {a : α} (h : x.Meets Q E) (hx : x = .ok a) : Q a :=
  (meets_iff.mp h).left a hx

theorem of_error {e : ε} (h : x.Meets Q E) (hx : x = .error e) : E e :=
  (meets_iff.mp h).right e hx

theorem any (x : Except ε α) : x.Meets (fun _ => True) fun _ => True := by
  cases x <;> trivial

theorem mono (h : x.Meets P E) (hQ : ∀ a, P a → Q a) (hE : ∀ e, E e → E' e) : x.Meets Q E' :=
  meets_iff.mpr ⟨fun a ha => hQ a (h.of_ok ha), fun e he => hE e (h.of_error he)⟩

theorem imp (h : x.Meets P E) (hQ : ∀ a, P a → Q a) : x.Meets Q E :=
  h.mono hQ fun _ => id

theorem bind (hx : x.Meets P E) (hf : ∀ a, P a → (f a).Meets R E) : (x >>= f).Meets R E := by
  cases x
  case error => exact hx
  case ok a  => exact hf a hx

theorem ite {c : Prop} [Decidable c] {y : Except ε α} (hx : c → x.Meets Q E)
    (hy : ¬c → y.Meets Q E) : (if c then x else y).Meets Q E := by
  by_cases h : c
  case pos => simpa [h] using hx h
  case neg => simpa [h] using hy h

-- A loop over the components establishes in each component what its round establishes.
theorem traverseFin {n : Nat} {f : Fin n → Except ε α} {Q : Fin n → α → Prop}
    (h : ∀ i, (f i).Meets (Q i) E) : (Except.traverseFin f).Meets (fun g => ∀ i, Q i (g i)) E := by
  refine meets_iff.mpr ⟨fun g hg i => ?_, fun e he => ?_⟩
  case _ => exact (h i).of_ok (traverseFin_eq_ok.mp hg i)
  case _ =>
    have ⟨i, hi⟩ := traverseFin_eq_error he
    exact (h i).of_error hi

-- A loop over a list keeps an invariant that every round keeps.
theorem foldlM {γ : Type} {g : α → γ → Except ε α} {l : List γ} (hg : ∀ a c, c ∈ l → P a →
    (g a c).Meets P E) {a : α} (ha : P a) : (l.foldlM g a).Meets P E := by
  induction l generalizing a
  case nil => exact ha
  case cons c l hi =>
    rw [List.foldlM_cons]
    refine (hg a c (List.mem_cons_self ..) ha).bind fun a' ha' => ?_
    exact hi (fun b d hd => hg b d (List.mem_cons_of_mem _ hd)) ha'

end Meets

theorem ok_map (g : α → β) (a : α) : (Except.ok a : Except ε α).map g = .ok (g a) :=
  rfl

theorem map_bind {γ : Type} (g : β → γ) (x : Except ε α) (f : α → Except ε β) :
    (x >>= f).map g = x >>= fun a => (f a).map g := by
  cases x <;> rfl

-- A loop whose rounds commute with `norm`.
theorem foldlM_map {γ : Type} {norm : α → β} {f : α → γ → Except ε α} {g : β → γ → Except ε β}
    (h : ∀ a c, g (norm a) c = (f a c).map norm) (l : List γ) (a : α) :
    l.foldlM g (norm a) = (l.foldlM f a).map norm := by
  induction l generalizing a
  case nil => rfl
  case cons c l ih =>
    rw [List.foldlM_cons, List.foldlM_cons, h, map_bind]
    cases f a c
    case error => rfl
    case ok a' => exact ih a'

theorem traverseFin_map {n : Nat} {norm : α → β} {f : Fin n → Except ε α} {g : Fin n → Except ε β}
    (h : ∀ i, g i = (f i).map norm) : traverseFin g = (traverseFin f).map fun a i => norm (a i) := by
  induction n
  case zero => exact congrArg Except.ok (funext fun i => i.elim0)
  case succ n ih =>
    rw [traverseFin, traverseFin, h 0, map_bind, ih fun i => h i.succ]
    cases f 0
    case error => rfl
    case ok a =>
      cases traverseFin fun i => f i.succ
      case error => rfl
      case ok b =>
        refine congrArg Except.ok (funext fun i => ?_)
        cases i using Fin.cases <;> rfl

-- Whenever both computations return a value, the values are related.
def Agree (R : α → β → Prop) (x : Except ε α) (y : Except ε β) : Prop :=
  ∀ a b, x = .ok a → y = .ok b → R a b

namespace Agree

variable {γ δ : Type} {y : Except ε β} {R : α → β → Prop} {S : γ → δ → Prop}

theorem ok {a : α} {b : β} (h : R a b) : Agree R (.ok a : Except ε α) (.ok b) := by
  intro a' b' ha hb
  cases ha
  cases hb
  exact h

theorem bind {f : α → Except ε γ} {g : β → Except ε δ} (h : Agree R x y)
    (hf : ∀ a b, R a b → Agree S (f a) (g b)) : Agree S (x >>= f) (y >>= g) := by
  intro c d hc hd
  obtain ⟨a, ha, hc⟩ := bind_eq_ok.mp hc
  obtain ⟨b, hb, hd⟩ := bind_eq_ok.mp hd
  exact hf a b (h a b ha hb) c d hc hd

-- The first part of both computations is the same.
theorem bind_left {f : α → Except ε γ} {g : α → Except ε δ} (hf : ∀ a, x = .ok a → Agree S (f a) (g a)) :
    Agree S (x >>= f) (x >>= g) := by
  intro c d hc hd
  obtain ⟨a, ha, hc⟩ := bind_eq_ok.mp hc
  obtain ⟨b, hb, hd⟩ := bind_eq_ok.mp hd
  cases Except.ok.inj (ha.symm.trans hb)
  exact hf a ha c d hc hd

theorem traverseFin {n : Nat} {f : Fin n → Except ε α} {g : Fin n → Except ε β}
    (h : ∀ i, Agree R (f i) (g i)) :
    Agree (fun a b => ∀ i, R (a i) (b i)) (Except.traverseFin f) (Except.traverseFin g) := by
  intro a b ha hb i
  exact h i _ _ (traverseFin_eq_ok.mp ha i) (traverseFin_eq_ok.mp hb i)

theorem meets (h : Agree R x y) (hx : x.Meets P fun _ => True) : Agree (fun a b => P a ∧ R a b) x y :=
  fun a b ha hb => ⟨hx.of_ok ha, h a b ha hb⟩

-- A function that commutes with `norm` keeps its kernel.
theorem of_map {norm : α → γ} {norm' : β → δ} {f : α → Except ε β} {g : γ → Except ε δ} {a a' : α}
    (h : ∀ a, g (norm a) = (f a).map norm') (ha : norm a = norm a') :
    Agree (fun b b' => norm' b = norm' b') (f a) (f a') := by
  intro b b' hb hb'
  have h₁ := h a
  rw [ha, h a', hb, hb'] at h₁
  exact (Except.ok.inj h₁).symm

end Agree

end Except
