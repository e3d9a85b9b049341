import Mathlib.Algebra.BigOperators.Group.List.Basic
import Mathlib.Data.List.AList
import Mathlib.Tactic

-- Finite maps with the operations of `std::map`.

namespace AList

variable {α β : Type} [DecidableEq α]

-- `std::map::insert` keeps the value of a key that is present.
def insertNew (m : AList fun _ : α => β) (a : α) (b : β) : AList fun _ : α => β :=
  if a ∈ m then m else m.insert a b

theorem keys_insertNew (m : AList fun _ : α => β) (a : α) (b : β) :
    (m.insertNew a b).keys = if a ∈ m.keys then m.keys else a :: m.keys := by
  unfold insertNew
  split
  case isTrue h  => rw [if_pos (mem_keys.mp h)]
  case isFalse h => rw [keys_insert, List.erase_of_not_mem h, if_neg (h ∘ mem_keys.mpr)]

theorem mem_insertNew {m : AList fun _ : α => β} {a k : α} {b : β} :
    k ∈ m.insertNew a b ↔ k = a ∨ k ∈ m := by
  rw [mem_keys, keys_insertNew]
  split
  case isTrue h  => exact ⟨.inr, Or.rec (· ▸ h) id⟩
  case isFalse h => exact List.mem_cons

theorem lookup_insertNew {m : AList fun _ : α => β} {a k : α} {b : β} :
    (m.insertNew a b).lookup k = if k = a ∧ a ∉ m then some b else m.lookup k := by
  unfold insertNew
  split
  case isTrue h  => rw [if_neg (·.right h)]
  case isFalse h =>
    split
    case isTrue hk  => rw [hk.left, lookup_insert]
    case isFalse hk => rw [lookup_insert_ne (hk ⟨·, h⟩)]

-- An entry and the map without it.
theorem entries_perm_erase {m : AList fun _ : α => β} {k : α} {b : β} (h : m.lookup k = some b) :
    m.entries.Perm (⟨k, b⟩ :: (m.erase k).entries) := by
  have hk : k ∈ m.keys := AList.lookup_isSome.mp (by simp [h])
  have ⟨c, l₁, l₂, _, he, hr⟩ := List.exists_of_kerase hk
  have hc : m.lookup k = some c := AList.mem_lookup_iff.mpr (by simp [he])
  cases h.symm.trans hc
  rw [show (m.erase k).entries = l₁ ++ l₂ from hr, he]
  exact List.perm_middle

-- Entries written one after the other.
def insertAll (m : AList fun _ : α => β) (es : List (Sigma fun _ : α => β)) :
    AList fun _ : α => β :=
  es.foldl (fun m e => m.insert e.1 e.2) m

theorem insertAll_append (m : AList fun _ : α => β) (es es' : List (Sigma fun _ : α => β)) :
    m.insertAll (es ++ es') = (m.insertAll es).insertAll es' :=
  List.foldl_append

theorem entries_insertAll {m : AList fun _ : α => β} {es : List (Sigma fun _ : α => β)}
    (hes : (es.map Sigma.fst).Nodup) (hm : ∀ e ∈ es, e.1 ∉ m) :
    (m.insertAll es).entries = es.reverse ++ m.entries := by
  induction es generalizing m
  case nil => rfl
  case cons e es ih =>
    rw [List.map_cons, List.nodup_cons] at hes
    rw [List.forall_mem_cons] at hm
    have hnext : ∀ e' ∈ es, e'.1 ∉ m.insert e.1 e.2 := by
      intro e' he' h
      rcases (mem_insert m).mp h with h | h
      · exact hes.left (h ▸ List.mem_map_of_mem he')
      · exact hm.right e' he' h
    have := ih hes.right hnext
    rw [entries_insert_of_notMem hm.left] at this
    rw [List.reverse_cons, List.append_assoc, List.singleton_append]
    exact this

theorem entries_insertAll_empty {es : List (Sigma fun _ : α => β)} (h : (es.map Sigma.fst).Nodup) :
    ((∅ : AList fun _ : α => β).insertAll es).entries.Perm es := by
  rw [entries_insertAll h fun _ _ => notMem_empty _]
  simp

section Sum

variable {M : Type} [AddCommMonoid M]

def sumValues (f : β → M) (m : AList fun _ : α => β) : M :=
  (m.entries.map fun e => f e.2).sum

-- A value takes the place of the one that was there, or of a default that does not count.
theorem sumValues_insert (f : β → M) (m : AList fun _ : α => β) (k : α) (b d : β) (hd : f d = 0) :
    (m.insert k b).sumValues f + f ((m.lookup k).getD d) = m.sumValues f + f b := by
  cases hk : m.lookup k
  case none =>
    have hm : k ∉ m := lookup_eq_none.mp hk
    simp only [sumValues, entries_insert_of_notMem hm, List.map_cons, List.sum_cons,
      Option.getD_none, hd, add_zero]
    exact add_comm _ _
  case some c =>
    have hp := (entries_perm_erase hk).map fun e => f e.2
    have he : (m.erase k).entries = List.kerase k m.entries := rfl
    simp only [sumValues, hp.sum_eq, entries_insert, List.map_cons, List.sum_cons,
      Option.getD_some, he]
    rw [add_comm, add_comm (f b), add_assoc]

end Sum

section Floor

variable {m : AList fun _ : Nat => β} {a k : Nat} {b : β}

-- The value that `--upper_bound(a)` points to: that of the greatest key up to `a`.
def floor? (m : AList fun _ : Nat => β) (a : Nat) : Option β :=
  (m.keys.filter (· ≤ a)).max?.bind m.lookup

theorem floor?_eq_some
    (hk : m.lookup k = some b) (hle : k ≤ a) (hmax : ∀ k' ∈ m, k' ≤ a → k' ≤ k) :
    m.floor? a = some b := by
  have : (m.keys.filter (· ≤ a)).max? = some k := by
    rw [List.max?_eq_some_iff]
    constructor
    · have : k ∈ m := lookup_isSome.mp (hk ▸ rfl)
      simpa [hle] using mem_keys.mp this
    · intro k' hk'
      rw [List.mem_filter] at hk'
      exact hmax _ (mem_keys.mpr hk'.left) (by simpa using hk'.right)
  rw [floor?, this, Option.bind_some, hk]

theorem floor?_mem (h : m.floor? a = some b) : ∃ k, m.lookup k = some b :=
  have ⟨k, _, hk⟩ := Option.bind_eq_some_iff.mp h
  ⟨k, hk⟩

end Floor

-- The entries in the order in which `std::map` is iterated.
def inOrder (m : AList fun _ : Nat => β) : List (Sigma fun _ : Nat => β) :=
  m.entries.mergeSort fun e e' => e.1 ≤ e'.1

theorem inOrder_perm (m : AList fun _ : Nat => β) : m.inOrder.Perm m.entries :=
  List.mergeSort_perm ..

end AList
