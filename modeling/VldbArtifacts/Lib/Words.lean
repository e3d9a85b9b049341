import Mathlib.Tactic
import Mathlib.Data.List.DropRight

-- The words of a text: the longest parts in which every letter is in the alphabet `p`.

namespace List

variable {α : Type} {p : α → Bool} {s : α} {w c l l' sep : List α}

def wordsBy (p : α → Bool) (l : List α) : List (List α) :=
  (l.splitOnP (!p ·)).filter (!·.isEmpty)

@[simp]
theorem wordsBy_nil : wordsBy p [] = [] := by
  simp [wordsBy]

-- A letter that is not in the alphabet separates words.
theorem wordsBy_append_cons (hs : p s = false) (l l' : List α) :
    wordsBy p (l ++ s :: l') = wordsBy p l ++ wordsBy p l' := by
  rw [wordsBy, splitOnP_append_cons _ _ (by simp [hs]), filter_append]
  rfl

theorem wordsBy_cons (hs : p s = false) (l : List α) : wordsBy p (s :: l) = wordsBy p l :=
  wordsBy_append_cons hs [] l

theorem wordsBy_word (hw : ∀ a ∈ w, p a = true) (hne : w ≠ []) : wordsBy p w = [w] := by
  have : w.splitOnP (!p ·) = [w] := splitOnP_eq_singleton fun a ha => by simp [hw a ha]
  rw [wordsBy, this]
  simpa using hne

theorem wordsBy_append_left (hsep : ∀ a ∈ sep, p a = false) (l : List α) :
    wordsBy p (sep ++ l) = wordsBy p l := by
  induction sep
  case nil => rfl
  case cons s sep ih =>
    rw [forall_mem_cons] at hsep
    rw [cons_append, wordsBy_cons hsep.left, ih hsep.right]

theorem wordsBy_append_right (hsep : ∀ a ∈ sep, p a = false) (l : List α) :
    wordsBy p (l ++ sep) = wordsBy p l := by
  cases sep
  case nil => rw [append_nil]
  case cons s sep =>
    rw [forall_mem_cons] at hsep
    have := wordsBy_append_left hsep.right []
    rw [wordsBy_append_cons hsep.left, ← append_nil sep, this, wordsBy_nil, append_nil]

theorem wordsBy_append_append (hsep : ∀ a ∈ sep, p a = false) (hne : sep ≠ []) (l l' : List α) :
    wordsBy p (l ++ (sep ++ l')) = wordsBy p l ++ wordsBy p l' := by
  cases sep
  case nil => contradiction
  case cons s sep =>
    rw [forall_mem_cons] at hsep
    rw [cons_append, wordsBy_append_cons hsep.left, wordsBy_append_left hsep.right]

theorem wordsBy_intercalate (hsep : ∀ a ∈ sep, p a = false) (hne : sep ≠ []) (ls : List (List α)) :
    wordsBy p (sep.intercalate ls) = ls.flatMap (wordsBy p) := by
  induction ls
  case nil => simp
  case cons l ls ih =>
    cases ls
    case nil => simp
    case cons l' ls =>
      rw [intercalate_cons_cons, append_assoc, wordsBy_append_append hsep hne, ih]
      rfl

-- The words of the parts of a text that is cut at a separator.
theorem flatMap_wordsBy_splitOn [BEq α] [LawfulBEq α] (hs : p s = false) (l : List α) :
    (l.splitOn s).flatMap (wordsBy p) = wordsBy p l := by
  have hsep : ∀ a ∈ [s], p a = false := by simpa using hs
  rw [← wordsBy_intercalate hsep (by simp), intercalate_splitOn]

-- The letters before and after a word are not in the alphabet.
def IsBoundary (p : α → Bool) (a? : Option α) : Prop :=
  ∀ a ∈ a?, p a = false

theorem wordsBy_append_word (hw : ∀ a ∈ w, p a = true) (hne : w ≠ []) {l l' : List α}
    (hl : IsBoundary p l.getLast?) (hl' : IsBoundary p l'.head?) :
    wordsBy p (l ++ w ++ l') = wordsBy p l ++ [w] ++ wordsBy p l' := by
  have hright : wordsBy p (w ++ l') = [w] ++ wordsBy p l' := by
    cases l'
    case nil => simp [wordsBy_word hw hne]
    case cons s l' =>
      have hs := hl' s rfl
      rw [wordsBy_append_cons hs, wordsBy_word hw hne, wordsBy_cons hs]
  rcases l.eq_nil_or_concat with rfl | ⟨l, s, rfl⟩
  case inl => simpa using hright
  case inr =>
    have hs : p s = false := hl s (by simp)
    rw [append_assoc, concat_eq_append, append_assoc, singleton_append, wordsBy_append_cons hs, hright,
      wordsBy_append_cons hs, wordsBy_nil, append_nil, append_assoc]

-- The first word, and the words behind the first separator.
theorem mem_wordsBy_cases (h : w ∈ wordsBy p l) :
    (∃ post, l = w ++ post ∧ IsBoundary p post.head? ∧ w ≠ [] ∧ ∀ a ∈ w, p a = true) ∨
      ∃ pre s rest, l = pre ++ s :: rest ∧ p s = false ∧ w ∈ wordsBy p rest := by
  have hall : all (l.takeWhile p) p = true := all_takeWhile
  rw [all_eq_true] at hall
  have hfirst (h : w ∈ wordsBy p (l.takeWhile p)) : w = l.takeWhile p ∧ w ≠ [] := by
    by_cases hne : l.takeWhile p = []
    case pos => simp [hne] at h
    case neg =>
      rw [wordsBy_word hall hne, mem_singleton] at h
      exact ⟨h, h ▸ hne⟩
  cases hrest : l.dropWhile p
  case nil =>
    have hspan := takeWhile_append_dropWhile (p := p) (l := l)
    rw [hrest, append_nil] at hspan
    rw [← hspan] at h
    obtain ⟨rfl, hne⟩ := hfirst h
    exact .inl ⟨[], by rw [append_nil, hspan], by simp [IsBoundary], hne, hall⟩
  case cons s rest =>
    have hspan := takeWhile_append_dropWhile (p := p) (l := l)
    have hs : p s = false := by
      have := head?_dropWhile_not p l
      simpa [hrest] using this
    rw [hrest] at hspan
    rw [← hspan, wordsBy_append_cons hs, mem_append] at h
    rcases h with h | h
    case inl =>
      obtain ⟨rfl, hne⟩ := hfirst h
      exact .inl ⟨s :: rest, hspan.symm, by simpa [IsBoundary] using hs, hne, hall⟩
    case inr => exact .inr ⟨_, s, rest, hspan.symm, hs, h⟩

-- A word is a part of the text in the alphabet that has boundaries on both sides.
theorem mem_wordsBy_iff : w ∈ wordsBy p l ↔ w ≠ [] ∧ (∀ a ∈ w, p a = true) ∧
    ∃ pre post, l = pre ++ w ++ post ∧ IsBoundary p pre.getLast? ∧ IsBoundary p post.head? := by
  constructor
  case mp =>
    intro h
    induction hn : l.length using Nat.strong_induction_on generalizing l
    case h n ih =>
      rcases mem_wordsBy_cases h with ⟨post, rfl, hpost, hne, hp⟩ | ⟨pre, s, rest, rfl, hs, hw⟩
      case inl => exact ⟨hne, hp, [], post, rfl, by simp [IsBoundary], hpost⟩
      case inr =>
        have hlt : rest.length < n := by
          rw [← hn, length_append, length_cons]
          omega
        obtain ⟨hne, hp, pre', post, rfl, hpre, hpost⟩ := ih _ hlt hw rfl
        refine ⟨hne, hp, pre ++ s :: pre', post, by simp, ?_, hpost⟩
        rcases pre'.eq_nil_or_concat with rfl | ⟨pre', a, rfl⟩
        case inl => simpa [IsBoundary] using hs
        case inr =>
          rw [concat_eq_append, getLast?_concat] at hpre
          rwa [concat_eq_append, ← cons_append, ← append_assoc, getLast?_concat]
  case mpr =>
    rintro ⟨hne, hp, pre, post, rfl, hpre, hpost⟩
    rw [wordsBy_append_word hp hne hpre hpost]
    simp

theorem infix_of_mem_wordsBy (h : w ∈ wordsBy p l) : w <:+: l := by
  obtain ⟨_, _, pre, post, hl, _⟩ := mem_wordsBy_iff.mp h
  exact ⟨pre, post, hl.symm⟩

-- A part of the text in the alphabet grows to the word around it.
theorem infix_iff_exists_word (hc : ∀ a ∈ c, p a = true) (hne : c ≠ []) :
    c <:+: l ↔ ∃ w ∈ wordsBy p l, c <:+: w := by
  constructor
  case mp =>
    rintro ⟨pre, post, rfl⟩
    refine ⟨pre.rtakeWhile p ++ c ++ post.takeWhile p, mem_wordsBy_iff.mpr ⟨?_, ?_, ?_⟩, _, _, rfl⟩
    case refine_1 => simp [hne]
    case refine_2 =>
      have hpost : all (post.takeWhile p) p = true := all_takeWhile
      rw [all_eq_true] at hpost
      simp only [mem_append]
      rintro a ((ha | ha) | ha)
      case inl.inl => exact mem_rtakeWhile_imp ha
      case inl.inr => exact hc a ha
      case inr     => exact hpost a ha
    case refine_3 =>
      refine ⟨pre.rdropWhile p, post.dropWhile p, ?_, ?_, ?_⟩
      case refine_1 =>
        have hpre := rdropWhile_append_rtakeWhile (p := p) (l := pre)
        have hpost := takeWhile_append_dropWhile (p := p) (l := post)
        simp only [← append_assoc, hpre]
        simp only [append_assoc, hpost]
      case refine_2 =>
        intro a ha
        obtain ⟨hne, hlast⟩ := mem_getLast?_eq_getLast ha
        have := rdropWhile_last_not p pre hne
        simpa [hlast] using this
      case refine_3 =>
        have := head?_dropWhile_not p post
        intro a ha
        simpa [Option.mem_def.mp ha] using this
  case mpr =>
    rintro ⟨w, hw, hinfix⟩
    exact hinfix.trans (infix_of_mem_wordsBy hw)

end List
