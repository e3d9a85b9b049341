import VldbArtifacts.Lib.Except
import VldbArtifacts.Lib.Forall
import VldbArtifacts.Hyrise.Interleave
import VldbArtifacts.Hyrise.Theorems.Trace

namespace Hyrise

open CXL

variable {a : Access} {ln rest text : List Char} {as : List Access}

section Reading

theorem readline_line (rest : List Char) (h : '\n' ∉ ln) : readline (ln ++ '\n' :: rest) = (ln ++ ['\n'], rest) := by
  induction ln
  case nil => simp [readline]
  case cons c ln ih =>
    rw [List.mem_cons, not_or] at h
    rw [List.cons_append, readline, if_neg (Ne.symm h.left), ih h.right, List.cons_append]

theorem readline_last (h : '\n' ∉ ln) : readline ln = (ln, []) := by
  induction ln
  case nil => rfl
  case cons c ln ih =>
    rw [List.mem_cons, not_or] at h
    rw [readline, if_neg (Ne.symm h.left), ih h.right]

theorem splitOn_line (a : Access) (nl : List Char) (h : ' ' ∉ nl) :
    (a.line ++ nl).splitOn ' ' = [hexText a.addr, a.type.text, decText a.gap ++ nl] := by
  have hc : ∀ d < 16, Nat.digitChar d ≠ ' ' := by decide
  have hspace {w : List Char} (hw : ' ' ∉ w) : ∀ c ∈ w, (c == ' ') = false :=
    fun c hc => by simpa using ne_of_mem_of_not_mem hc hw
  have h₁ := hspace (not_mem_hexText (by decide) hc a.addr)
  have h₂ := hspace (a.type.not_mem_text (by decide : ' ' ∉ _))
  have h₃ : ' ' ∉ decText a.gap ++ nl := by simpa [h] using not_mem_decText hc a.gap
  rw [Access.line, Access.words, List.append_assoc, List.cons_append, List.append_assoc,
    List.cons_append, List.splitOn_eq_splitOnP, List.splitOnP_append_cons_of_forall_mem h₁ _ rfl,
    List.splitOnP_append_cons_of_forall_mem h₂ _ rfl, List.splitOnP_eq_singleton (hspace h₃)]

theorem pyHex_hexText (n : Nat) : pyHex (hexText n) = .ok n :=
  pyInt_toDigits (by decide) (Nat.le_refl 16) n

theorem getAccessDetails_line (a : Access) : getAccessDetails (a.line ++ ['\n']) = .ok (some a) := by
  have hne : a.line ++ ['\n'] ≠ [] := by simp
  have hgap : pyInt 10 (decText a.gap) = .ok a.gap := pyInt_toDigits (by decide) (by decide) _
  have htype : (if 'R' ∈ a.type.text then AccessType.R else .W) = a.type := by cases a.type <;> rfl
  rw [getAccessDetails, if_neg hne, splitOn_line a _ (by decide)]
  simp only [pyHex_hexText, List.dropLast_concat, hgap, htype]
  rfl

-- Without a newline the last digit is lost.
theorem getAccessDetails_last (a : Access) :
    getAccessDetails a.line =
      if a.gap < 10 then .error .valueError else .ok (some { a with gap := a.gap / 10 }) := by
  have hne : a.line ≠ [] := by simp [Access.line, hexText]
  have hgap : pyInt 10 (decText a.gap).dropLast =
      if a.gap < 10 then .error .valueError else .ok (a.gap / 10) := by
    split
    case isTrue h  => rw [decText, Nat.toDigits_of_lt_base h]; rfl
    case isFalse h =>
      rw [decText, Nat.toDigits_of_base_le (by decide) (Nat.le_of_not_lt h), List.dropLast_concat]
      exact pyInt_toDigits (by decide) (by decide) _
  have htype : (if 'R' ∈ a.type.text then AccessType.R else .W) = a.type := by cases a.type <;> rfl
  have hs := splitOn_line a [] (by decide)
  rw [List.append_nil, List.append_nil] at hs
  rw [getAccessDetails, if_neg hne, hs]
  simp only [pyHex_hexText, hgap, htype]
  split <;> rfl

theorem split_eq_nil {delim : Char} (h : split delim text = []) : text = [] := by
  cases text
  case nil => rfl
  case cons c text =>
    rw [split] at h
    split at h
    case isTrue  => contradiction
    case isFalse => split at h <;> contradiction

theorem split_eq_cons {delim : Char} {w text : List Char} {ws : List (List Char)}
    (h : split delim text = w :: ws) :
    (∃ rest, text = w ++ delim :: rest ∧ split delim rest = ws) ∨ text = w ∧ ws = [] := by
  induction text generalizing w
  case nil => simp [split] at h
  case cons c text ih =>
    rw [split] at h
    split at h
    case isTrue hc =>
      obtain ⟨rfl, rfl⟩ := List.cons.inj h
      exact .inl ⟨text, by rw [hc]; rfl, rfl⟩
    case isFalse hc =>
      split at h
      case h_1 hn =>
        obtain ⟨rfl, rfl⟩ := List.cons.inj h
        exact .inr ⟨by rw [split_eq_nil hn], rfl⟩
      case h_2 w' ws' hs =>
        obtain ⟨rfl, rfl⟩ := List.cons.inj h
        obtain ⟨rest, rfl, hr⟩ | ⟨rfl, rfl⟩ := ih hs
        case inl => exact .inl ⟨rest, rfl, hr⟩
        case inr => exact .inr ⟨rfl, rfl⟩

theorem terminated_append : Terminated (ln ++ '\n' :: rest) ↔ Terminated rest := by
  cases rest
  case nil         => simp [Terminated]
  case cons c rest => simp [Terminated, List.getLast?_append, List.getLast?_cons_cons]

theorem terminated_line (a : Access) : ¬Terminated a.line := by
  rintro (h | h)
  case inl => simp [Access.line, hexText] at h
  case inr => exact a.not_mem_line (List.mem_of_getLast? h)

theorem reads_of_terminated (h : split '\n' text = as.map Access.line) (ht : Terminated text) :
    Reads text as := by
  induction as generalizing text
  case nil => exact split_eq_nil h ▸ .eof
  case cons a as ih =>
    obtain ⟨rest, rfl, hr⟩ | ⟨rfl, _⟩ := split_eq_cons h
    case inl =>
      have hl := readline_line rest a.not_mem_line
      apply Reads.line (by simp)
      · rw [hl, getAccessDetails_line]
      · rw [hl]
        exact ih hr (terminated_append.mp ht)
    case inr => exact absurd ht (terminated_line a)

theorem Reads.eq_nil (h : Reads [] as) : as = [] := by
  cases h
  case eof           => rfl
  case line hne _ _ => contradiction

theorem Reads.exists_cons (h : Reads text as) (hne : text ≠ []) :
    ∃ a as', as = a :: as' ∧ getAccessDetails (readline text).1 = .ok (some a) ∧
      Reads (readline text).2 as' := by
  cases h
  case eof              => contradiction
  case line a as _ ha h => exact ⟨a, as, rfl, ha, h⟩

-- The sum of the times.
def total (t : Nat) (as : List Access) : Nat :=
  ((Timed.times t (as.map Access.item)).map Prod.fst).sum

theorem total_cons (t : Nat) (a : Access) (as : List Access) :
    total t (a :: as) = t + a.gap + total (t + a.gap) as := by
  simp [total, Timed.times, Access.item]

-- A file that ends inside of a line is read with an access that is too early.
theorem Reads.total {as' : List Access} (hr : Reads text as')
    (h : split '\n' text = as.map Access.line) :
    (Terminated text → as' = as) ∧ (¬Terminated text → ∀ t, total t as' < Hyrise.total t as) := by
  induction as generalizing text as'
  case nil =>
    obtain rfl := split_eq_nil h
    exact ⟨fun _ => hr.eq_nil, fun ht => absurd (.inl rfl) ht⟩
  case cons a as ih =>
    obtain ⟨rest, rfl, hs⟩ | ⟨rfl, hs⟩ := split_eq_cons h
    case inl =>
      obtain ⟨a', as', rfl, ha, hr'⟩ := hr.exists_cons (by simp)
      rw [readline_line rest a.not_mem_line] at ha hr'
      obtain rfl := Option.some.inj (Except.ok.inj ((getAccessDetails_line a).symm.trans ha))
      have ⟨h₁, h₂⟩ := ih hr' hs
      rw [terminated_append]
      refine ⟨fun ht => by rw [h₁ ht], fun ht t => ?_⟩
      rw [total_cons, total_cons]
      exact Nat.add_lt_add_left (h₂ ht _) _
    case inr =>
      obtain rfl : as = [] := by simpa using hs
      refine ⟨fun ht => absurd ht (terminated_line a), fun _ t => ?_⟩
      obtain ⟨a', as', rfl, ha, hr'⟩ := hr.exists_cons (by simp [Access.line, hexText])
      rw [readline_last a.not_mem_line] at ha hr'
      rw [getAccessDetails_last] at ha
      obtain rfl := hr'.eq_nil
      split at ha
      case isTrue      => contradiction
      case isFalse hge =>
        obtain rfl := Option.some.inj (Except.ok.inj ha)
        rw [total_cons, total_cons]
        simp only [Hyrise.total, List.map_nil, Timed.times, List.sum_nil]
        omega

end Reading

section Lowest

-- The index and the gap of the lowest access.
def IsLowest (accesses : List (Option Access)) : Option (Nat × Nat) → Prop
  | none        => ∀ x ∈ accesses, x = none
  | some (i, g) =>
    (∃ a, accesses[i]? = some (some a) ∧ a.gap = g) ∧ ∀ b, some b ∈ accesses → g ≤ b.gap

variable {pre accesses : List (Option Access)} {i g : Nat}

theorem getElem?_append_of_some {α : Type} {xs : List α} {x : α} (h : xs[i]? = some x) (ys : List α) :
    (xs ++ ys)[i]? = some x := by
  have ⟨hlt, _⟩ := List.getElem?_eq_some_iff.mp h
  rw [List.getElem?_append_left hlt, h]

theorem IsLowest.nil : IsLowest [] none :=
  fun _ hx => absurd hx List.not_mem_nil

theorem IsLowest.append_none {lowest : Option (Nat × Nat)} (h : IsLowest pre lowest) :
    IsLowest (pre ++ [none]) lowest := by
  cases lowest
  case none =>
    intro x hx
    exact (List.mem_append.mp hx).elim (h x) List.mem_singleton.mp
  case some p =>
    have ⟨⟨a, ha, hg⟩, hmin⟩ := h
    exact ⟨⟨a, getElem?_append_of_some ha _, hg⟩, by simpa using hmin⟩

theorem IsLowest.append_first (h : IsLowest pre none) (a : Access) :
    IsLowest (pre ++ [some a]) (some (pre.length, a.gap)) := by
  refine ⟨⟨a, by simp, rfl⟩, fun b hb => ?_⟩
  obtain hb | hb := List.mem_append.mp hb
  case inl => exact absurd (h _ hb) nofun
  case inr => exact (Option.some.inj (List.mem_singleton.mp hb)) ▸ Nat.le_refl _

theorem IsLowest.append_some (h : IsLowest pre (some (i, g))) (a : Access) :
    IsLowest (pre ++ [some a]) (if a.gap < g then some (pre.length, a.gap) else some (i, g)) := by
  have ⟨⟨a', ha, hg⟩, hmin⟩ := h
  split
  case isTrue hlt =>
    refine ⟨⟨a, by simp, rfl⟩, fun b hb => ?_⟩
    obtain hb | hb := List.mem_append.mp hb
    case inl => exact hlt.le.trans (hmin b hb)
    case inr => exact (Option.some.inj (List.mem_singleton.mp hb)) ▸ Nat.le_refl _
  case isFalse hge =>
    refine ⟨⟨a', getElem?_append_of_some ha _, hg⟩, fun b hb => ?_⟩
    obtain hb | hb := List.mem_append.mp hb
    case inl => exact hmin b hb
    case inr => exact (Option.some.inj (List.mem_singleton.mp hb)) ▸ Nat.le_of_not_lt hge

theorem IsLowest.lowestFrom {lowest : Option (Nat × Nat)} (h : IsLowest pre lowest)
    (accesses : List (Option Access)) :
    IsLowest (pre ++ accesses) (lowestFrom accesses pre.length lowest) := by
  induction accesses generalizing pre lowest
  case nil => simpa [Hyrise.lowestFrom] using h
  case cons x accesses ih =>
    rw [List.append_cons]
    cases x
    case none => simpa [Hyrise.lowestFrom] using ih h.append_none
    case some a =>
      cases lowest
      case none   => simpa [Hyrise.lowestFrom] using ih (h.append_first a)
      case some p => simpa [Hyrise.lowestFrom] using ih (h.append_some a)

theorem getLowestGapIdx_eq_ok (h : getLowestGapIdx accesses = .ok i) :
    ∃ a, accesses[i]? = some (some a) ∧ ∀ b, some b ∈ accesses → a.gap ≤ b.gap := by
  have hl : IsLowest accesses (lowestFrom accesses 0 none) :=
    IsLowest.nil.lowestFrom accesses
  rw [getLowestGapIdx] at h
  split at h
  case h_1        => contradiction
  case h_2 j g hj =>
    obtain rfl := Except.ok.inj h
    rw [hj] at hl
    have ⟨⟨a, ha, hg⟩, hmin⟩ := hl
    exact ⟨a, ha, hg ▸ hmin⟩

theorem exists_getLowestGapIdx (h : ¬∀ a ∈ accesses, a = none) : ∃ i, getLowestGapIdx accesses = .ok i := by
  have hl : IsLowest accesses (lowestFrom accesses 0 none) :=
    IsLowest.nil.lowestFrom accesses
  rw [getLowestGapIdx]
  split
  case h_1 hn     => rw [hn] at hl; exact absurd hl h
  case h_2 j g hj => exact ⟨j, rfl⟩

end Lowest

section Loop

variable {accesses : List (Option Access)} {files : List (List Char)} {tails : List (List Access)}
  {file : List Char} {i g : Nat} {new : Option Access}

theorem Reads.next (h : Reads file as) :
    getAccessDetails (readline file).1 = .ok as.head? ∧ Reads (readline file).2 as.tail := by
  cases h
  case eof              => exact ⟨rfl, .eof⟩
  case line a as _ ha h => exact ⟨ha, h⟩

theorem elapse_item (g : Nat) (a : Access) (as : List Access) :
    ((a.elapse g) :: as).map Access.item = Timed.elapse g ((a :: as).map Access.item) :=
  rfl

-- A file without a head is at its end.
def Idle (accesses : List (Option Access)) (tails : List (List Access)) : Prop :=
  ∀ i : Nat, accesses[i]? = some none → ∀ as, tails[i]? = some as → as = []

theorem streams_step (hidle : Idle accesses tails) (g : Nat) (new : Option Access) (as : List Access) :
    streams ((updateAccesses accesses i g).set i new) (tails.set i as) =
      ((streams accesses tails).map (Timed.elapse g)).set i ((new.toList ++ as).map Access.item) := by
  apply List.ext_getElem?
  intro j
  simp only [streams, updateAccesses, List.getElem?_zipWith, List.getElem?_set, List.getElem?_map,
    List.getElem?_mapIdx, List.length_mapIdx, List.length_map, List.length_zipWith]
  by_cases hj : i = j
  case pos =>
    subst hj
    by_cases ha : i < accesses.length <;> by_cases ht : i < tails.length <;> simp [ha, ht]
  case neg =>
    simp only [hj, Ne.symm hj, if_false]
    cases ha : accesses[j]?
    case none => rfl
    case some a =>
      cases ht : tails[j]?
      case none => rfl
      case some tail =>
        cases a
        case some a => rfl
        case none   => rw [hidle j ha tail ht]; rfl

theorem getElem?_streams (ha : accesses[i]? = some new) (ht : tails[i]? = some as) :
    (streams accesses tails)[i]? = some ((new.toList ++ as).map Access.item) := by
  rw [streams, List.getElem?_zipWith, ha, ht]

theorem head_mem_streams {s : List (Nat × Nat × AccessType)} {q : Nat × Nat × AccessType}
    (hidle : Idle accesses tails) (hs : s ∈ streams accesses tails) (hq : q ∈ s.head?) :
    ∃ b, some b ∈ accesses ∧ q = b.item := by
  have ⟨j, hj⟩ := List.mem_iff_getElem?.mp hs
  rw [streams, List.getElem?_zipWith] at hj
  split at hj
  case h_2 => contradiction
  case h_1 a tail ha ht =>
    cases a
    case none =>
      rw [hidle j ha tail ht] at hj
      rw [← Option.some.inj hj] at hq
      contradiction
    case some b =>
      rw [← Option.some.inj hj] at hq
      exact ⟨b, List.mem_of_getElem? ha, (Option.some.inj hq).symm⟩

theorem streams_eq_nil (hidle : Idle accesses tails) (h : ∀ a ∈ accesses, a = none) :
    ∀ s ∈ streams accesses tails, s = [] := by
  intro s hs
  cases s
  case nil => rfl
  case cons q s =>
    have ⟨b, hb, _⟩ := head_mem_streams hidle hs rfl
    exact absurd (h _ hb) nofun

theorem Idle.step (hidle : Idle accesses tails) (ht : tails[i]? = some as) (g : Nat) :
    Idle ((updateAccesses accesses i g).set i as.head?) (tails.set i as.tail) := by
  intro j ha tail htail
  by_cases hj : i = j
  case pos =>
    subst hj
    have ⟨hi, _⟩ := List.getElem?_eq_some_iff.mp ht
    have ⟨hlt, he⟩ := List.getElem?_eq_some_iff.mp ha
    rw [List.getElem_set_self, List.head?_eq_none_iff] at he
    rw [List.getElem?_set_self hi, he] at htail
    exact (Option.some.inj htail).symm
  case neg =>
    rw [List.getElem?_set_ne hj] at ha htail
    rw [updateAccesses, List.getElem?_mapIdx, Option.map_eq_some_iff] at ha
    have ⟨a, ha, he⟩ := ha
    rw [if_neg (Ne.symm hj), Option.map_eq_none_iff] at he
    exact hidle j (he ▸ ha) tail htail

-- There is a file for each head.
def HasFiles (accesses : List (Option Access)) (files : List (List Char)) : Prop :=
  ∀ (i : Nat) a, accesses[i]? = some (some a) → i < files.length

theorem HasFiles.step (h : HasFiles accesses files) (hi : i < files.length) :
    HasFiles ((updateAccesses accesses i g).set i new) (files.set i file) := by
  intro j b hb
  rw [List.length_set]
  by_cases hj : i = j
  case pos => exact hj ▸ hi
  case neg =>
    rw [List.getElem?_set_ne hj, updateAccesses, List.getElem?_mapIdx, Option.map_eq_some_iff] at hb
    have ⟨a, ha, he⟩ := hb
    rw [if_neg (Ne.symm hj)] at he
    have ⟨a', ha', _⟩ := Option.map_eq_some_iff.mp he
    exact h j a' (ha' ▸ ha)

-- The script gets through if there is a file for each head, and merges what it reads.
theorem interleaveLoop_merges {fuel : Nat} (hread : List.Forall₂ Reads files tails)
    (hidle : Idle accesses tails) (hfile : HasFiles accesses files)
    (hfuel : (streams accesses tails).flatten.length < fuel) :
    ∃ out : List Access, interleaveLoop fuel accesses files = .ok (unlines (out.map Access.line)) ∧
      Timed.Merge (streams accesses tails) (out.map Access.item) := by
  induction fuel generalizing accesses files tails
  case zero => contradiction
  case succ fuel ih =>
    by_cases hall : ∀ a ∈ accesses, a = none
    case pos =>
      refine ⟨[], ?_, .done (streams_eq_nil hidle hall)⟩
      rw [interleaveLoop, if_pos hall]
      rfl
    case neg =>
      have ⟨i, hi⟩ := exists_getLowestGapIdx hall
      have ⟨a, ha, hmin⟩ := getLowestGapIdx_eq_ok hi
      have ⟨file, hf⟩ : ∃ file, files[i]? = some file := ⟨_, List.getElem?_eq_getElem (hfile i a ha)⟩
      have ⟨tail, ht, hr⟩ := hread.exists_getElem? hf
      have hstream : (streams accesses tails)[i]? = some (a.item :: tail.map Access.item) :=
        getElem?_streams ha ht
      have hhead : tail.head?.toList ++ tail.tail = tail := by cases tail <;> rfl
      have hstep := streams_step (i := i) hidle a.gap tail.head? tail.tail
      rw [hhead] at hstep
      have ⟨out, hok, hmerge⟩ := ih (hread.set i hr.next.right) (hidle.step ht a.gap)
        (hfile.step (hfile i a ha)) (by
          rw [hstep]
          have := Timed.length_flatten_step (g := a.gap) hstream
          omega)
      refine ⟨a :: out, ?_, ?_⟩
      · rw [interleaveLoop, if_neg hall, hi]
        simp only [bind, Except.bind, ha, hf, hr.next.left, hok, List.map_cons, unlines_cons]
        rfl
      · rw [hstep] at hmerge
        apply Timed.Merge.step hstream _ hmerge
        intro s hs q hq
        have ⟨b, hb, he⟩ := head_mem_streams hidle hs hq
        exact he ▸ hmin b hb

theorem getAccessDetails_isSome (h : getAccessDetails ln = .ok new) : new.isSome ↔ ln ≠ [] := by
  rw [getAccessDetails] at h
  split at h
  case isTrue hn =>
    obtain rfl := Except.ok.inj h
    simp [hn]
  case isFalse hn =>
    split at h
    case h_2 => contradiction
    case h_1 =>
      have ⟨_, _, h⟩ := Except.bind_eq_ok.mp h
      have ⟨_, _, h⟩ := Except.bind_eq_ok.mp h
      obtain rfl := Except.ok.inj h
      simp [hn]

theorem readline_eq_nil : (readline file).1 = [] ↔ file = [] := by
  cases file
  case nil         => simp [readline]
  case cons c file =>
    rw [readline]
    split <;> simp

theorem reads_of_next (h : getAccessDetails (readline file).1 = .ok new)
    (hr : Reads (readline file).2 as) : Reads file (new.toList ++ as) := by
  have hsome := (getAccessDetails_isSome h).trans readline_eq_nil.not
  cases new
  case none =>
    obtain rfl : file = [] := by simpa using hsome
    exact hr
  case some a => exact .line (hsome.mp rfl) h hr

-- A file without a head is at its end, and each file has a place for one.
def Watched (accesses : List (Option Access)) (files : List (List Char)) : Prop :=
  ∀ (i : Nat) file, files[i]? = some file → ∃ a, accesses[i]? = some a ∧ (a = none → file = [])

theorem Watched.step (h : Watched accesses files) (hf : files[i]? = some file)
    (hnew : getAccessDetails (readline file).1 = .ok new) (g : Nat) :
    Watched ((updateAccesses accesses i g).set i new) (files.set i (readline file).2) := by
  intro j file' hf'
  have ⟨hlt, _⟩ := List.getElem?_eq_some_iff.mp hf
  by_cases hj : i = j
  case pos =>
    subst hj
    have ⟨a, ha, _⟩ := h i file hf
    have ⟨hlt', _⟩ := List.getElem?_eq_some_iff.mp ha
    rw [List.getElem?_set_self hlt] at hf'
    refine ⟨new, List.getElem?_set_self (by simpa [updateAccesses] using hlt'), fun hn => ?_⟩
    have := (getAccessDetails_isSome hnew).trans readline_eq_nil.not
    obtain rfl : file = [] := by simpa [hn] using this
    exact (Option.some.inj hf').symm
  case neg =>
    rw [List.getElem?_set_ne hj] at hf'
    have ⟨a, ha, hidle⟩ := h j file' hf'
    refine ⟨a.map (Access.elapse g), ?_, fun hn => hidle (Option.map_eq_none_iff.mp hn)⟩
    rw [List.getElem?_set_ne hj, updateAccesses, List.getElem?_mapIdx, ha]
    simp [Ne.symm hj]

-- If the script gets through, then it has read all files to their end.
theorem exists_reads {fuel : Nat} {out : List Char} (h : interleaveLoop fuel accesses files = .ok out)
    (hw : Watched accesses files) : ∃ tails, List.Forall₂ Reads files tails := by
  induction fuel generalizing accesses files out
  case zero => contradiction
  case succ fuel ih =>
    rw [interleaveLoop] at h
    split at h
    case isTrue hall =>
      apply List.exists_forall₂
      intro file hfile
      have ⟨i, hi⟩ := List.mem_iff_getElem?.mp hfile
      have ⟨a, ha, hidle⟩ := hw i file hi
      obtain rfl := hidle (hall a (List.mem_of_getElem? ha))
      exact ⟨[], .eof⟩
    case isFalse =>
      have ⟨i, _, h⟩ := Except.bind_eq_ok.mp h
      split at h
      case h_2 => contradiction
      case h_1 a file ha hf =>
        have ⟨new, hnew, h⟩ := Except.bind_eq_ok.mp h
        have ⟨out', hloop, _⟩ := Except.bind_eq_ok.mp h
        have ⟨tails, ht⟩ := ih hloop (hw.step hf hnew _)
        have ⟨hlt, he⟩ := List.getElem?_eq_some_iff.mp hf
        have ⟨tail, _, hr⟩ := ht.exists_getElem? (List.getElem?_set_self hlt)
        have := ht.set i (reads_of_next hnew hr)
        rw [List.set_set, ← he, List.set_getElem_self] at this
        exact ⟨_, this⟩

-- The head at an index without a file is never replaced.
theorem interleaveLoop_ne_ok {fuel : Nat} {out : List Char} (ha : accesses[i]? = some (some a))
    (hi : files.length ≤ i) : interleaveLoop fuel accesses files ≠ .ok out := by
  induction fuel generalizing accesses files out a
  case zero => exact nofun
  case succ fuel ih =>
    intro h
    rw [interleaveLoop] at h
    split at h
    case isTrue hall => exact absurd (hall _ (List.mem_of_getElem? ha)) nofun
    case isFalse =>
      have ⟨j, hj, h⟩ := Except.bind_eq_ok.mp h
      split at h
      case h_2 => contradiction
      case h_1 b file hb hf =>
        have ⟨new, _, h⟩ := Except.bind_eq_ok.mp h
        have ⟨out', hloop, _⟩ := Except.bind_eq_ok.mp h
        have ⟨hlt, _⟩ := List.getElem?_eq_some_iff.mp hf
        have hne : j ≠ i := by omega
        refine ih (a := a.elapse b.gap) ?_ ?_ hloop
        · rw [List.getElem?_set_ne hne, updateAccesses, List.getElem?_mapIdx, ha]
          simp [hne.symm]
        · simpa using hi

end Loop

section Files

variable {texts lns : List (List Char)} {heads dets : List (Option Access)} {ass : List (List Access)}

theorem getAllAccesses_cons_eq_ok (h : getAllAccesses (ln :: lns) = .ok dets) :
    ∃ a dets', getAccessDetails ln = .ok a ∧ getAllAccesses lns = .ok dets' ∧
      dets = if ln = [] then none :: a :: dets' else a :: dets' := by
  have ⟨a, ha, h⟩ := Except.bind_eq_ok.mp h
  have ⟨dets', hd, h⟩ := Except.bind_eq_ok.mp h
  exact ⟨a, dets', ha, hd, (Except.ok.inj h).symm⟩

theorem getAllAccesses_eq_none (h : getAllAccesses lns = .ok dets) (hn : ∀ ln ∈ lns, ln = []) :
    ∀ a ∈ dets, a = none := by
  induction lns generalizing dets
  case nil =>
    obtain rfl := Except.ok.inj h
    exact fun _ ha => absurd ha List.not_mem_nil
  case cons ln lns ih =>
    have ⟨a, dets', ha, hd, he⟩ := getAllAccesses_cons_eq_ok h
    have ⟨hln, hlns⟩ := List.forall_mem_cons.mp hn
    have hnone : a = none := by simpa [hln] using getAccessDetails_isSome ha
    have := ih hd hlns
    simp only [he, if_pos hln, List.forall_mem_cons, hnone, true_and]
    exact this

-- The accesses are the heads of the files if the empty files are the last ones.
theorem getAllAccesses_emptyLast (he : EmptyLast texts)
    (h : getAllAccesses (texts.map fun text => (readline text).1) = .ok dets) :
    ∃ heads z, dets = heads ++ List.replicate z none ∧
      List.Forall₂ (fun text a => getAccessDetails (readline text).1 = .ok a) texts heads := by
  induction texts generalizing dets
  case nil => exact ⟨[], 0, (Except.ok.inj h).symm, .nil⟩
  case cons text texts ih =>
    have ⟨a, dets', ha, hd, hdets⟩ := getAllAccesses_cons_eq_ok h
    have ⟨hempty, hrest⟩ := List.pairwise_cons.mp he
    have ⟨heads, z, hdets', hheads⟩ := ih hrest hd
    by_cases htext : text = []
    case neg =>
      rw [if_neg (readline_eq_nil.not.mpr htext), hdets'] at hdets
      exact ⟨a :: heads, z, hdets, .cons ha hheads⟩
    case pos =>
      -- The second entry for the file comes behind the heads, which are all empty from here on.
      have hnone : ∀ x ∈ dets', x = none :=
        getAllAccesses_eq_none hd (by simpa [readline_eq_nil] using fun t ht => hempty t ht htext)
      have hrep : heads = List.replicate heads.length none :=
        List.eq_replicate_iff.mpr ⟨rfl, fun x hx => hnone x (hdets' ▸ List.mem_append_left _ hx)⟩
      have ha' : a = none := by simpa [readline_eq_nil, htext] using getAccessDetails_isSome ha
      refine ⟨a :: heads, z + 1, ?_, .cons ha hheads⟩
      have hcomm : none :: heads = heads ++ [none] := by
        rw [hrep, ← List.replicate_succ, List.replicate_succ']
      have hcons : none :: (heads ++ List.replicate z none) = heads ++ none :: List.replicate z none := by
        rw [← List.cons_append, hcomm, List.append_assoc]
        rfl
      rw [hdets, if_pos (readline_eq_nil.mpr htext), hdets', ha', hcons]
      rfl

theorem length_getAllAccesses (h : getAllAccesses lns = .ok dets) :
    dets.length = lns.length + lns.count [] := by
  induction lns generalizing dets
  case nil =>
    obtain rfl := Except.ok.inj h
    rfl
  case cons ln lns ih =>
    have ⟨a, dets', _, hd, he⟩ := getAllAccesses_cons_eq_ok h
    have := ih hd
    by_cases hn : ln = []
    case pos => simp [he, hn, this]; omega
    case neg => simp [he, hn, this]; omega

theorem getAllAccesses_append_eq_ok {lns' : List (List Char)}
    (h : getAllAccesses (lns ++ lns') = .ok dets) :
    ∃ dets₁ dets₂, getAllAccesses lns = .ok dets₁ ∧ getAllAccesses lns' = .ok dets₂ ∧
      dets = dets₁ ++ dets₂ := by
  induction lns generalizing dets
  case nil => exact ⟨[], dets, rfl, h, rfl⟩
  case cons ln lns ih =>
    have ⟨a, dets', ha, hd, he⟩ := getAllAccesses_cons_eq_ok h
    have ⟨dets₁, dets₂, h₁, h₂, hd'⟩ := ih hd
    refine ⟨if ln = [] then none :: a :: dets₁ else a :: dets₁, dets₂, ?_, h₂, ?_⟩
    · rw [getAllAccesses, ha, h₁]
      rfl
    · rw [he, hd']
      split <;> rfl

theorem Reads.length_le (h : Reads text as) : as.length ≤ text.length := by
  have hlt : ∀ text, text ≠ [] → (readline text).2.length < text.length := by
    intro text
    induction text
    case nil => simp
    case cons c text ih =>
      intro _
      rw [readline]
      split
      case isTrue  => exact Nat.lt_succ_self _
      case isFalse =>
        by_cases hn : text = []
        case pos => simp [hn, readline]
        case neg => exact (ih hn).trans (Nat.lt_succ_self _)
  induction h
  case eof => exact Nat.le_refl 0
  case line hne _ _ ih => exact Nat.lt_of_le_of_lt ih (hlt _ hne)

theorem streams_heads (ass : List (List Access)) (z : Nat) :
    streams (ass.map List.head? ++ List.replicate z none) (ass.map List.tail) =
      ass.map (·.map Access.item) := by
  induction ass
  case nil => cases z <;> rfl
  case cons as ass ih =>
    have : as.head?.toList ++ as.tail = as := by cases as <;> rfl
    have hcons : streams (as.head? :: (ass.map List.head? ++ List.replicate z none))
        (as.tail :: ass.map List.tail) = as.map Access.item ::
          streams (ass.map List.head? ++ List.replicate z none) (ass.map List.tail) := by
      rw [streams, List.zipWith_cons_cons, this]
      rfl
    rw [List.map_cons, List.map_cons, List.map_cons, List.cons_append, hcons, ih]

theorem getElem?_heads {j z : Nat} {a : Access}
    (h : (ass.map List.head? ++ List.replicate z none)[j]? = some (some a)) : j < ass.length := by
  by_contra hge
  rw [List.getElem?_append_right (by simpa using hge)] at h
  have := List.eq_of_mem_replicate (List.mem_of_getElem? h)
  contradiction

theorem exists_getAllAccesses (h : ∀ ln ∈ lns, ∃ a, getAccessDetails ln = .ok a) :
    ∃ dets, getAllAccesses lns = .ok dets := by
  induction lns
  case nil => exact ⟨[], rfl⟩
  case cons ln lns ih =>
    rw [List.forall_mem_cons] at h
    have ⟨a, ha⟩ := h.left
    have ⟨dets, hd⟩ := ih h.right
    exact ⟨_, by rw [getAllAccesses, ha, hd]; rfl⟩

theorem heads_eq (hr : List.Forall₂ Reads texts ass)
    (hh : List.Forall₂ (fun text a => getAccessDetails (readline text).1 = .ok a) texts heads) :
    heads = ass.map List.head? := by
  induction hr generalizing heads
  case nil => cases hh; rfl
  case cons text as texts ass hr _ ih =>
    cases hh
    case cons a heads ha hh =>
      rw [List.map_cons, ih hh, Except.ok.inj (ha.symm.trans hr.next.left)]

-- The script merges what it reads from the files.
theorem interleaveMemAccesses_merges (he : EmptyLast texts) (hr : List.Forall₂ Reads texts ass) :
    ∃ out : List Access, interleaveMemAccesses texts = .ok (unlines (out.map Access.line)) ∧
      IsTimedMerge ass out := by
  have ⟨dets, hd⟩ : ∃ dets, getAllAccesses (texts.map fun text => (readline text).1) = .ok dets := by
    apply exists_getAllAccesses
    rw [List.forall_mem_map]
    intro text htext
    have ⟨i, hi⟩ := List.mem_iff_getElem?.mp htext
    have ⟨as, _, has⟩ := hr.exists_getElem? hi
    exact ⟨_, has.next.left⟩
  have ⟨heads, z, hdets, hheads⟩ := getAllAccesses_emptyLast he hd
  rw [heads_eq hr hheads] at hdets
  subst hdets
  have hread : List.Forall₂ Reads (texts.map fun text => (readline text).2) (ass.map List.tail) :=
    List.forall₂_map_left_iff.mpr (List.forall₂_map_right_iff.mpr (hr.imp fun _ _ h => h.next.right))
  have hidle : Idle (ass.map List.head? ++ List.replicate z none) (ass.map List.tail) := by
    intro i ha tail ht
    rw [List.getElem?_map, Option.map_eq_some_iff] at ht
    have ⟨as, has, he⟩ := ht
    have ⟨hlt, _⟩ := List.getElem?_eq_some_iff.mp has
    rw [List.getElem?_append_left (by simpa using hlt), List.getElem?_map, has] at ha
    rw [← he, List.head?_eq_none_iff.mp (Option.some.inj ha)]
    rfl
  have hfile : HasFiles (ass.map List.head? ++ List.replicate z none)
      (texts.map fun text => (readline text).2) := by
    intro i a ha
    rw [List.length_map, hr.length_eq]
    exact getElem?_heads ha
  have hfuel : (ass.map (·.map Access.item)).flatten.length < (texts.map List.length).sum + 1 := by
    have : (ass.map List.length).sum ≤ (texts.map List.length).sum :=
      (hr.imp fun _ _ h => h.length_le).sum_le
    simpa [List.length_flatten, Function.comp_def, Nat.lt_succ_iff] using this
  have ⟨out, hok, hm⟩ := interleaveLoop_merges hread hidle hfile ((streams_heads ass z).symm ▸ hfuel)
  refine ⟨out, ?_, ?_⟩
  · rw [interleaveMemAccesses, hd]
    exact hok
  · rw [streams_heads] at hm
    have := hm.interleaves 0
    rwa [List.map_map] at this

theorem exists_reads_of_ok {out : List Char} (he : EmptyLast texts)
    (h : interleaveMemAccesses texts = .ok out) : ∃ ass, List.Forall₂ Reads texts ass := by
  have ⟨dets, hd, hloop⟩ := Except.bind_eq_ok.mp h
  have ⟨heads, z, hdets, hheads⟩ := getAllAccesses_emptyLast he hd
  have hw : Watched dets (texts.map fun text => (readline text).2) := by
    intro i file hf
    rw [List.getElem?_map, Option.map_eq_some_iff] at hf
    have ⟨text, htext, hfile⟩ := hf
    have ⟨a, ha, hdet⟩ := hheads.exists_getElem? htext
    refine ⟨a, hdets ▸ getElem?_append_of_some ha _, fun hn => ?_⟩
    have := (getAccessDetails_isSome hdet).trans readline_eq_nil.not
    obtain rfl : text = [] := by simpa [hn] using this
    exact hfile.symm
  have ⟨tails, ht⟩ := exists_reads hloop hw
  apply List.exists_forall₂
  intro text htext
  have ⟨i, hi⟩ := List.mem_iff_getElem?.mp htext
  have ⟨a, _, hdet⟩ := hheads.exists_getElem? hi
  have hf : (texts.map fun text => (readline text).2)[i]? = some (readline text).2 := by
    rw [List.getElem?_map, hi]
    rfl
  have ⟨tail, _, hr⟩ := ht.exists_getElem? hf
  exact ⟨_, reads_of_next hdet hr⟩

-- The last file that is not empty, with the files behind it.
theorem exists_last (h : ∃ text ∈ texts, text ≠ []) :
    ∃ pre text z, texts = pre ++ text :: List.replicate z [] ∧ text ≠ [] := by
  induction texts using List.reverseRecOn
  case nil => simp at h
  case append_singleton texts text ih =>
    by_cases ht : text = []
    case neg => exact ⟨texts, text, 0, rfl, ht⟩
    case pos =>
      have ⟨pre, text', z, he, hne⟩ := ih (by simpa [ht] using h)
      refine ⟨pre, text', z + 1, ?_, hne⟩
      rw [he, ht, List.replicate_succ', List.append_assoc]
      rfl

theorem absorbed_of_ok {out : List Char} (hn : ¬EmptyLast texts)
    (h : interleaveMemAccesses texts = .ok out) : Absorbed texts := by
  have hsome : ∃ text ∈ texts, text ≠ [] := by
    by_contra hall
    rw [not_exists] at hall
    exact hn (List.pairwise_of_forall_mem_list fun _ _ t ht _ => by simpa [ht] using hall t)
  have ⟨pre, text, z, he, hne⟩ := exists_last hsome
  refine ⟨pre, text, z, he, hne, ?_, ?_⟩
  case refine_1 =>
    by_contra hpre
    apply hn
    rw [he, EmptyLast, List.pairwise_append, List.pairwise_cons]
    have hrep : ∀ t ∈ List.replicate z ([] : List Char), t = [] := fun t => List.eq_of_mem_replicate
    refine ⟨?_, ⟨fun t ht _ => hrep t ht, ?_⟩, fun t ht _ _ hnil => absurd (hnil ▸ ht) hpre⟩
    · exact List.pairwise_of_forall_mem_list fun t ht _ _ hnil => absurd (hnil ▸ ht) hpre
    · exact List.pairwise_of_forall_mem_list fun _ _ t ht _ => hrep t ht
  case refine_2 =>
    by_contra hlt
    have ⟨dets, hd, hloop⟩ := Except.bind_eq_ok.mp h
    rw [he, List.map_append, List.map_cons] at hd
    have ⟨dets₁, dets₂, h₁, h₂, hdets⟩ := getAllAccesses_append_eq_ok hd
    have ⟨a, dets', ha, _, hdets₂⟩ := getAllAccesses_cons_eq_ok h₂
    rw [if_neg (readline_eq_nil.not.mpr hne)] at hdets₂
    have hlen := length_getAllAccesses h₁
    have hcount : (pre.map fun text => (readline text).1).count [] = pre.count [] := by
      rw [List.count_eq_countP, List.count_eq_countP, List.countP_map]
      exact List.countP_congr fun text _ => by simp [readline_eq_nil]
    have hsome := (getAccessDetails_isSome ha).mpr (readline_eq_nil.not.mpr hne)
    have ⟨b, hb⟩ := Option.isSome_iff_exists.mp hsome
    rw [List.length_map, hcount] at hlen
    refine interleaveLoop_ne_ok (i := dets₁.length) (a := b) ?_ ?_ hloop
    · rw [hdets, hdets₂, hb]
      simp
    · simp [he, hlen]
      omega

theorem Access.line_injective : Function.Injective Access.line := by
  intro a a' h
  have := (getAccessDetails_line a).symm.trans ((congrArg _ (by rw [h])).trans (getAccessDetails_line a'))
  exact Option.some.inj (Except.ok.inj this)

-- The sum of the times of all accesses.
theorem sum_total {out : List Access} (h : IsTimedMerge ass out) :
    (ass.map (total 0)).sum = total 0 out := by
  have := (h.perm.map Prod.fst).sum_eq
  rw [total, ← timed, this, List.map_flatten, List.sum_flatten, List.map_map, List.map_map]
  rfl

variable {files : List (List Access)}

theorem Hold.reads (hf : Hold texts files) (ht : ∀ text ∈ texts, Terminated text) :
    List.Forall₂ Reads texts files := by
  induction hf
  case nil => exact .nil
  case cons hs _ ih =>
    rw [List.forall_mem_cons] at ht
    exact .cons (reads_of_terminated hs ht.left) (ih ht.right)

theorem Hold.sum_total (hf : Hold texts files) (hr : List.Forall₂ Reads texts ass) :
    (ass.map (total 0)).sum ≤ (files.map (total 0)).sum ∧
      ((ass.map (total 0)).sum = (files.map (total 0)).sum → ∀ text ∈ texts, Terminated text) := by
  induction hf generalizing ass
  case nil =>
    cases hr
    exact ⟨Nat.le_refl _, fun _ _ h => absurd h List.not_mem_nil⟩
  case cons text as texts files hs _ ih =>
    cases hr
    case cons as' ass hr hrs =>
      have ⟨hle, heq⟩ := ih hrs
      have ⟨hsame, hless⟩ := hr.total hs
      simp only [List.map_cons, List.sum_cons, List.forall_mem_cons]
      by_cases ht : Terminated text
      case pos =>
        rw [hsame ht]
        exact ⟨by omega, fun h => ⟨ht, heq (by omega)⟩⟩
      case neg =>
        have := hless ht 0
        exact ⟨by omega, fun h => absurd h (by omega)⟩

theorem terminated_of_interleaved (he : EmptyLast texts)
    (hf : Hold texts files) (h : Interleaved texts files) : ∀ text ∈ texts, Terminated text := by
  have ⟨out, as, hok, hsplit, hmerge⟩ := h
  have ⟨ass, hr⟩ := exists_reads_of_ok he hok
  have ⟨as', hok', hmerge'⟩ := interleaveMemAccesses_merges he hr
  have hout := Except.ok.inj (hok.symm.trans hok')
  have heq : as = as' := by
    rw [hout, split_unlines (by simpa using fun a _ => a.not_mem_line)] at hsplit
    exact (List.map_injective_iff.mpr Access.line_injective hsplit).symm
  have hsum : (ass.map (total 0)).sum = (files.map (total 0)).sum := by
    rw [sum_total hmerge', sum_total hmerge, heq]
  exact (hf.sum_total hr).right hsum

-- The script is right if the empty files are the last ones and no file ends inside of a line. Otherwise it
-- can only be right if there are enough empty files behind the others.
theorem interleaveMemAccesses_correct (texts : List (List Char)) (files : List (List Access))
    (hf : Hold texts files) :
    (EmptyLast texts ∧ (∀ text ∈ texts, Terminated text) → Interleaved texts files) ∧
    (Interleaved texts files →
      EmptyLast texts ∧ (∀ text ∈ texts, Terminated text) ∨ Absorbed texts) := by
  constructor
  case left =>
    rintro ⟨he, ht⟩
    have ⟨out, hok, hmerge⟩ := interleaveMemAccesses_merges he (hf.reads ht)
    exact ⟨_, out, hok, split_unlines (by simpa using fun a _ => a.not_mem_line), hmerge⟩
  case right =>
    intro h
    by_cases he : EmptyLast texts
    case pos => exact .inl ⟨he, terminated_of_interleaved he hf h⟩
    case neg =>
      have ⟨_, _, hok, _⟩ := h
      exact .inr (absorbed_of_ok he hok)

-- The empty file makes two entries, and the second file has no third one behind it.
theorem interleaveMemAccesses_empty_first :
    interleaveMemAccesses [[], "0x30 R 6\n".toList] = .error .indexError ∧
    Hold [[], "0x30 R 6\n".toList] [[], [⟨0x30, .R, 6⟩]] ∧
    ¬Interleaved [[], "0x30 R 6\n".toList] [[], [⟨0x30, .R, 6⟩]] := by
  have herror : interleaveMemAccesses [[], "0x30 R 6\n".toList] = .error .indexError := by
    decide +kernel
  refine ⟨herror, .cons (by decide +kernel) (.cons (by decide +kernel) .nil), ?_⟩
  rintro ⟨out, as, hok, _⟩
  rw [herror] at hok
  contradiction

-- With another empty file behind it, that one is read instead.
example : interleaveMemAccesses [[], "0x30 R 6\n".toList, []] = .ok "0x30 R 6\n".toList := by
  decide +kernel

theorem interleaveMemAccesses_two_files :
    Interleaved ["0x10 R 5\n0x20 W 7\n".toList, "0x30 R 6\n".toList, []]
      [[⟨0x10, .R, 5⟩, ⟨0x20, .W, 7⟩], [⟨0x30, .R, 6⟩], []] :=
  (interleaveMemAccesses_correct _ _ (.cons (by decide +kernel) (.cons (by decide +kernel)
    (.cons (by decide +kernel) .nil)))).left (by decide +kernel)

end Files

end Hyrise
