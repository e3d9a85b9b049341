import Mathlib.Tactic

-- Dictionaries as Python has them: a key keeps the place of its first assignment.

namespace Dict

variable {α β : Type} [DecidableEq α] {k k' : α} {v : β}

def get? (k : α) : List (α × β) → Option β
  | []          => none
  | (k', v) :: d => if k' = k then some v else get? k d

def set (k : α) (v : β) : List (α × β) → List (α × β)
  | []           => [(k, v)]
  | (k', v') :: d => if k' = k then (k, v) :: d else (k', v') :: set k v d

-- The dictionary of a comprehension.
def ofList (kvs : List (α × β)) : List (α × β) :=
  kvs.foldl (fun d p => set p.1 p.2 d) []

theorem get?_set (d : List (α × β)) : get? k' (set k v d) = if k = k' then some v else get? k' d := by
  induction d
  case nil => rfl
  case cons p d ih =>
    rw [set]
    by_cases h : p.1 = k
    case pos => simp only [h, if_true, get?]; split <;> rfl
    case neg =>
      simp only [h, if_false, get?, ih]
      by_cases h' : p.1 = k'
      case pos => rw [if_pos h', if_pos h', if_neg fun hk => h (h'.trans hk.symm)]
      case neg => rw [if_neg h', if_neg h']

theorem mem_keys_set (d : List (α × β)) :
    k' ∈ (set k v d).map Prod.fst ↔ k' = k ∨ k' ∈ d.map Prod.fst := by
  induction d
  case nil => simp [set]
  case cons p d ih =>
    rw [set]
    by_cases h : p.1 = k
    case pos => simp [h]
    case neg => simp [h, ih, or_left_comm]

theorem mem_keys_iff {d : List (α × β)} : k ∈ d.map Prod.fst ↔ ∃ v, get? k d = some v := by
  induction d
  case nil => simp [get?]
  case cons p d ih =>
    rw [List.map_cons, List.mem_cons, get?]
    by_cases h : p.1 = k
    case pos => simp [h]
    case neg => simp [h, Ne.symm h, ih]

theorem nodup_set {d : List (α × β)} (h : (d.map Prod.fst).Nodup) :
    ((set k v d).map Prod.fst).Nodup := by
  induction d
  case nil => simp [set]
  case cons p d ih =>
    rw [List.map_cons, List.nodup_cons] at h
    rw [set]
    by_cases hk : p.1 = k
    case pos => simpa [hk] using h
    case neg =>
      rw [if_neg hk, List.map_cons, List.nodup_cons, mem_keys_set]
      exact ⟨not_or.mpr ⟨hk, h.left⟩, ih h.right⟩

theorem set_of_not_mem {d : List (α × β)} (h : k ∉ d.map Prod.fst) : set k v d = d ++ [(k, v)] := by
  induction d
  case nil => rfl
  case cons p d ih =>
    rw [List.map_cons, List.mem_cons, not_or] at h
    rw [set, if_neg (Ne.symm h.left), ih h.right, List.cons_append]

-- Assignments to new keys.
theorem foldl_set {γ : Type} {d : List (α × β)} (key : γ → α) (value : γ → β) (l : List γ)
    (h : (d.map Prod.fst ++ l.map key).Nodup) :
    l.foldl (fun d c => set (key c) (value c) d) d = d ++ l.map fun c => (key c, value c) := by
  induction l generalizing d
  case nil => simp
  case cons c l ih =>
    have hc : key c ∉ d.map Prod.fst := by
      rw [List.map_cons, List.nodup_append] at h
      exact fun hm => h.right.right _ hm _ (List.mem_cons_self ..) rfl
    rw [List.foldl_cons, set_of_not_mem hc, ih, List.append_assoc, List.map_cons, List.singleton_append]
    simpa using h

theorem nodup_ofList (kvs : List (α × β)) : ((ofList kvs).map Prod.fst).Nodup := by
  suffices h : ∀ d : List (α × β), (d.map Prod.fst).Nodup →
      ((kvs.foldl (fun d p => set p.1 p.2 d) d).map Prod.fst).Nodup from h [] List.nodup_nil
  induction kvs
  case nil           => exact fun _ => id
  case cons p kvs ih => exact fun d hd => ih _ (nodup_set hd)

theorem get?_eq_some_iff {d : List (α × β)} (h : (d.map Prod.fst).Nodup) :
    get? k d = some v ↔ (k, v) ∈ d := by
  induction d
  case nil => simp [get?]
  case cons p d ih =>
    rw [List.map_cons, List.nodup_cons] at h
    rw [get?, List.mem_cons]
    by_cases hk : p.1 = k
    case pos =>
      have : (k, v) ∉ d := fun hm => h.left (hk ▸ List.mem_map_of_mem hm)
      rw [if_pos hk, or_iff_left this, Prod.ext_iff]
      exact ⟨fun h => ⟨hk.symm, (Option.some.inj h).symm⟩, fun h => congrArg some h.right.symm⟩
    case neg =>
      rw [if_neg hk, ih h.right]
      exact ⟨.inr, Or.rec (fun he => absurd (congrArg Prod.fst he).symm hk) id⟩

theorem get?_perm {d d' : List (α × β)} (h : d.Perm d') (hd : (d.map Prod.fst).Nodup) (k : α) :
    get? k d = get? k d' := by
  apply Option.ext
  intro v
  rw [get?_eq_some_iff hd, get?_eq_some_iff ((h.map Prod.fst).nodup_iff.mp hd), h.mem_iff]

theorem perm_of_get? {d d' : List (α × β)} (hd : (d.map Prod.fst).Nodup)
    (hd' : (d'.map Prod.fst).Nodup) (h : ∀ k, get? k d = get? k d') : d.Perm d' := by
  apply (List.perm_ext_iff_of_nodup hd.of_map hd'.of_map).mpr
  intro p
  rw [← get?_eq_some_iff hd, ← get?_eq_some_iff hd', h]

-- The last assignment counts.
theorem get?_ofList (kvs : List (α × β)) :
    get? k (ofList kvs) = (kvs.reverse.find? (·.1 = k)).map Prod.snd := by
  induction kvs using List.reverseRecOn
  case nil => rfl
  case append_singleton kvs p ih =>
    have : ofList (kvs ++ [p]) = set p.1 p.2 (ofList kvs) := by simp [ofList]
    rw [this, get?_set, List.reverse_append, List.reverse_singleton, List.singleton_append,
      List.find?_cons]
    by_cases h : p.1 = k
    case pos => simp [h]
    case neg => simp [h, ih]

theorem mem_of_get?_ofList {kvs : List (α × β)} (h : get? k (ofList kvs) = some v) : (k, v) ∈ kvs := by
  rw [get?_ofList, Option.map_eq_some_iff] at h
  have ⟨p, hp, hv⟩ := h
  have hk : p.1 = k := by simpa using List.find?_some hp
  exact hk ▸ hv ▸ List.mem_reverse.mp (List.mem_of_find?_eq_some hp)

theorem exists_get?_ofList {kvs : List (α × β)} (h : k ∈ kvs.map Prod.fst) :
    ∃ v, get? k (ofList kvs) = some v := by
  have ⟨p, hp, hk⟩ := List.mem_map.mp h
  have : (kvs.reverse.find? (·.1 = k)).isSome := by
    rw [List.find?_isSome]
    exact ⟨p, List.mem_reverse.mpr hp, by simpa using hk⟩
  rw [get?_ofList]
  exact Option.isSome_iff_exists.mp (by simpa using this)

theorem get?_ofList_iff {kvs : List (α × β)} (h : (kvs.map Prod.fst).Nodup) :
    get? k (ofList kvs) = some v ↔ (k, v) ∈ kvs := by
  refine ⟨mem_of_get?_ofList, fun hm => ?_⟩
  have ⟨v', hv'⟩ := exists_get?_ofList (List.mem_map_of_mem (f := Prod.fst) hm)
  have he := List.inj_on_of_nodup_map h hm (mem_of_get?_ofList hv') rfl
  rw [hv', (Prod.mk.inj he).right]

end Dict
