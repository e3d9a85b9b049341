import VldbArtifacts.Lib.Digits
import VldbArtifacts.Hyrise.Trace

-- Numbers, words and lines are read back as they were written.

namespace CXL

variable {delim : Char} {w rest : List Char}

theorem split_append (h : delim ∉ w) : split delim (w ++ delim :: rest) = w :: split delim rest := by
  induction w
  case nil => simp [split]
  case cons c w ih =>
    rw [List.mem_cons, not_or] at h
    rw [List.cons_append, split, if_neg (Ne.symm h.left), ih h.right]

theorem split_singleton (h : delim ∉ w) (hne : w ≠ []) : split delim w = [w] := by
  induction w
  case nil => contradiction
  case cons c w ih =>
    rw [List.mem_cons, not_or] at h
    rw [split, if_neg (Ne.symm h.left)]
    cases w
    case nil       => rfl
    case cons c' w => rw [ih h.right (List.cons_ne_nil _ _)]

theorem digitValue_digitChar : ∀ d < 16, digitValue d.digitChar = some d := by
  decide

theorem readDigits_map {b : Nat} {ds : List Nat} (hb : b ≤ 16) (h : ∀ d ∈ ds, d < b) :
    readDigits b (ds.map Nat.digitChar) = ds := by
  induction ds
  case nil => rfl
  case cons d ds ih =>
    rw [List.forall_mem_cons] at h
    rw [List.map_cons, readDigits, digitValue_digitChar d (by omega)]
    simp only [if_pos h.left, ih h.right]

end CXL

namespace Hyrise

open CXL

variable {n m : Nat}

theorem exists_toDigits {b : Nat} (hb : 1 < b) (hb' : b ≤ 16) (n : Nat) :
    ∃ d ds, Nat.toDigits b n = d.digitChar :: ds.map Nat.digitChar ∧ d < b ∧ (n ≠ 0 → d ≠ 0) ∧
      readDigits b (d.digitChar :: ds.map Nat.digitChar) = d :: ds ∧ ds.foldl (· * b + ·) d = n := by
  have ⟨d, ds, hd, hlt, hval, hne⟩ := Nat.exists_digits hb n
  exact ⟨d, ds, hd, hlt d List.mem_cons_self, hne, readDigits_map hb' hlt, by simpa using hval⟩

theorem hexText_injective : Function.Injective hexText := by
  intro n m h
  have ⟨d, ds, hd, _, _, hr, hval⟩ := exists_toDigits (by decide : 1 < 16) (Nat.le_refl 16) n
  have ⟨e, es, he, _, _, hr', hval'⟩ := exists_toDigits (by decide : 1 < 16) (Nat.le_refl 16) m
  simp only [hexText, hd, he, List.cons.injEq, true_and] at h
  have : d :: ds = e :: es := by rw [← hr, ← hr', h.left, h.right]
  rw [← hval, ← hval', List.head_eq_of_cons_eq this, List.tail_eq_of_cons_eq this]

theorem stoull16_hexText (h : n < 2 ^ 64) : stoull16 (hexText n) = .ok n := by
  have ⟨d, ds, hd, hlt, _, hr, hval⟩ := exists_toDigits (by decide : 1 < 16) (Nat.le_refl 16) n
  have hs : (hexText n).dropWhile isSpace = '0' :: 'x' :: d.digitChar :: ds.map Nat.digitChar := by
    rw [hexText, hd]
    rfl
  simp [stoull16, hs, digitValue_digitChar d hlt, hlt, hr, hval]
  exact h

theorem stoul_hexText (h : n < 2 ^ 64) : stoul (hexText n) = .ok n := by
  have ⟨d, ds, hd, hlt, _, hr, hval⟩ := exists_toDigits (by decide : 1 < 16) (Nat.le_refl 16) n
  have hs : (hexText n).dropWhile isSpace = '0' :: 'x' :: d.digitChar :: ds.map Nat.digitChar := by
    rw [hexText, hd]
    rfl
  simp [stoul, detectBase, hs, digitValue_digitChar d hlt, hlt, hr, hval]
  exact h

theorem mapM_digitValue {es : List Nat} (h : ∀ e ∈ es, e < 16) :
    (es.map Nat.digitChar).mapM digitValue = some es := by
  induction es
  case nil => rfl
  case cons e es ih =>
    rw [List.forall_mem_cons] at h
    rw [List.map_cons, List.mapM_cons, digitValue_digitChar e h.left, ih h.right]
    rfl

theorem pyInt_map {b : Nat} {es : List Nat} (hb : b ≤ 16) (h : ∀ e ∈ es, e < b) (hne : es ≠ []) :
    pyInt b (es.map Nat.digitChar) = .ok (es.foldl (· * b + ·) 0) := by
  have hlt : ¬∃ e ∈ es, b ≤ e := by
    rintro ⟨e, he, hge⟩
    exact absurd (h e he) (Nat.not_lt.mpr hge)
  rw [pyInt, mapM_digitValue fun e he => Nat.lt_of_lt_of_le (h e he) hb]
  simp only [hne, hlt, or_self, if_false]

theorem pyInt_toDigits {b : Nat} (hb : 1 < b) (hb' : b ≤ 16) (n : Nat) :
    pyInt b (Nat.toDigits b n) = .ok n := by
  have ⟨d, ds, hd, hlt, hval, _⟩ := Nat.exists_digits hb n
  rw [hd, pyInt_map hb' hlt (List.cons_ne_nil d ds), hval]

-- A number other than zero does not start with a zero, which would stand for base 8.
theorem stoul_decText (h : n < 2 ^ 64) : stoul (decText n) = .ok n := by
  have ⟨d, ds, hd, hlt, hne, hr, hval⟩ := exists_toDigits (by decide : 1 < 10) (by decide) n
  by_cases hn : n = 0
  case pos => exact hn ▸ rfl
  case neg =>
    have hspace : ∀ d < 10, isSpace d.digitChar = false := by decide
    have hsign : ∀ d < 10, d ≠ 0 → ¬(d.digitChar = '-' ∨ d.digitChar = '+' ∨ d.digitChar = '0') := by
      decide
    have hs : (decText n).dropWhile isSpace = d.digitChar :: ds.map Nat.digitChar := by
      rw [decText, hd, List.dropWhile_cons_of_neg (by simp [hspace d hlt])]
    have hsign := hsign d hlt (hne hn)
    have hbase : detectBase (d.digitChar :: ds.map Nat.digitChar) =
        (10, d.digitChar :: ds.map Nat.digitChar) := by
      unfold detectBase
      split <;> simp_all
    rw [not_or, not_or] at hsign
    simp [stoul, hs, hbase, hr, hval]
    exact h

theorem not_mem_hexText {c : Char} (hx : 'x' ≠ c) (hc : ∀ d < 16, Nat.digitChar d ≠ c) (n : Nat) :
    c ∉ hexText n := by
  have h₀ := hc 0 (by decide)
  simp only [hexText, List.mem_cons, not_or]
  exact ⟨h₀.symm, hx.symm, Nat.not_mem_toDigits (by decide) (Nat.le_refl _) hc⟩

theorem not_mem_decText {c : Char} (hc : ∀ d < 16, Nat.digitChar d ≠ c) (n : Nat) : c ∉ decText n :=
  Nat.not_mem_toDigits (by decide) (by decide) hc

theorem AccessType.not_mem_text {c : Char} (h : c ∉ ['R', 'W']) (t : AccessType) : c ∉ t.text := by
  cases t <;> simp_all [text]

theorem unlines_cons (l : List Char) (ls : List (List Char)) :
    unlines (l :: ls) = l ++ '\n' :: unlines ls := by
  simp [unlines]

theorem flatten_lines (ls : List (List Char)) : (ls.map (· ++ ['\n'])).flatten = unlines ls :=
  (List.flatMap_def ..).symm

theorem split_unlines {ls : List (List Char)} (h : ∀ l ∈ ls, '\n' ∉ l) :
    split '\n' (unlines ls) = ls := by
  induction ls
  case nil => rfl
  case cons l ls ih =>
    rw [List.forall_mem_cons] at h
    rw [unlines_cons, split_append h.left, ih h.right]

theorem unlines_injOn {ls ls' : List (List Char)}
    (h : ∀ l ∈ ls, '\n' ∉ l) (h' : ∀ l ∈ ls', '\n' ∉ l) (he : unlines ls = unlines ls') : ls = ls' := by
  rw [← split_unlines h, he, split_unlines h']

theorem Access.not_mem_line (a : Access) : '\n' ∉ a.line := by
  have hc : ∀ d < 16, Nat.digitChar d ≠ '\n' := by decide
  have h₁ := not_mem_hexText (by decide) hc a.addr
  have h₂ := a.type.not_mem_text (by decide : '\n' ∉ _)
  have h₃ := not_mem_decText hc a.gap
  simp [line, words, h₁, h₂, h₃]

theorem Access.split_line (a : Access) :
    split ' ' a.line = [hexText a.addr, a.type.text, decText a.gap] := by
  have hc : ∀ d < 16, Nat.digitChar d ≠ ' ' := by decide
  have hne : decText a.gap ≠ [] := Nat.toDigits_ne_nil
  rw [line, split_append (not_mem_hexText (by decide) hc _), words,
    split_append (a.type.not_mem_text (by decide)), split_singleton (not_mem_decText hc _) hne]

theorem Access.unlines_injective (as as' : List Access)
    (h : unlines (as.map line) = unlines (as'.map line)) : as.map (·.addr) = as'.map (·.addr) := by
  have hl : as.map line = as'.map line := by
    apply unlines_injOn _ _ h <;> simpa using fun a _ => a.not_mem_line
  have hw : ∀ as : List Access, (as.map line).map (fun ln => (split ' ' ln).head?) =
      (as.map (·.addr)).map fun n => some (hexText n) := by
    intro as
    simp [Function.comp_def, split_line]
  have := (hw as).symm.trans (hl ▸ hw as')
  exact List.map_injective_iff.mpr (fun n m h => hexText_injective (Option.some.inj h)) this

theorem Access.line_lead {a : Access} {d k r : Nat} (ha : a.addr = d * 16 ^ k + r) (hd : d < 16)
    (hr : r < 16 ^ k) (h₀ : d = 0 → k = 0) :
    a.line = '0' :: 'x' :: d.digitChar :: (Nat.padDigits 16 k r ++ ' ' :: a.words) := by
  rw [line, hexText, ha, Nat.toDigits_lead (by decide) hd hr h₀]
  rfl

-- The characters 0x are only at the start of a line.
theorem Access.not_mem_lead (a : Access) (k r : Nat) : 'x' ∉ Nat.padDigits 16 k r ++ ' ' :: a.words := by
  have hc : ∀ d < 16, Nat.digitChar d ≠ 'x' := by decide
  have h₁ := Nat.not_mem_padDigits (by decide : 1 < 16) (Nat.le_refl _) hc k r
  have h₂ := a.type.not_mem_text (by decide : 'x' ∉ _)
  have h₃ := not_mem_decText hc a.gap
  simp [words, h₁, h₂, h₃]

end Hyrise
