import VldbArtifacts.Hyrise.PhysicalPlan
import VldbArtifacts.Hyrise.Theorems.PlanReaders

namespace Hyrise

open CXL (isSpace)

variable {columns : List String} {col : String} {sub key s t w : List Char} {c : Char}

section split

theorem splitText_ne_nil (sub : List Char) (n : Nat) (s : List Char) : splitText sub n s ≠ [] := by
  induction s generalizing n
  case nil => simp [splitText]
  case cons c s ih =>
    cases n
    case succ n => exact ih n
    case zero =>
      rw [splitText]
      split
      case isTrue  => simp
      case isFalse => simpa using ih 0

-- There is no cut before a blank if there is no part `sub` before it.
theorem splitText_word (hsub : ' ' ∉ sub) (hne : sub ≠ []) (hw : ¬sub <:+: w) (s : List Char) :
    splitText sub 0 (w ++ ' ' :: s) = (splitText sub 0 s).modifyHead (w ++ ' ' :: ·) := by
  induction w
  case nil =>
    have hstart : ¬sub.isPrefixOf (' ' :: s) = true := by
      rw [List.isPrefixOf_iff_prefix]
      intro h
      obtain ⟨d, sub, rfl⟩ := List.exists_cons_of_ne_nil hne
      obtain ⟨rfl, _⟩ := List.cons_prefix_cons.mp h
      exact hsub (List.mem_cons_self ..)
    rw [List.nil_append, splitText, if_neg hstart]
    rfl
  case cons c w ih =>
    have hstart : ¬sub.isPrefixOf (c :: w ++ ' ' :: s) = true := by
      rw [List.isPrefixOf_iff_prefix]
      intro h
      rcases List.prefix_or_prefix_of_prefix h (List.prefix_append (c :: w) _) with h' | ⟨t, rfl⟩
      case inl => exact hw h'.isInfix
      case inr =>
        rw [List.prefix_append_right_inj] at h
        cases t
        case nil => exact hw (by simp)
        case cons d t =>
          obtain ⟨rfl, _⟩ := List.cons_prefix_cons.mp h
          exact hsub (by simp)
    have hrest : ¬sub <:+: w := fun h => hw (h.trans (List.suffix_cons c w).isInfix)
    rw [List.cons_append] at hstart ⊢
    rw [splitText, if_neg hstart, ih hrest, List.modifyHead_modifyHead]
    rfl

theorem splitText_skip (sub w s : List Char) : splitText sub w.length (w ++ s) = splitText sub 0 s := by
  induction w
  case nil => rfl
  case cons c w ih => exact ih

theorem splitText_self (hne : sub ≠ []) (s : List Char) :
    splitText sub 0 (sub ++ s) = [] :: splitText sub 0 s := by
  obtain ⟨c, w, rfl⟩ := List.exists_cons_of_ne_nil hne
  have hstart : (c :: w).isPrefixOf (c :: (w ++ s)) = true :=
    List.isPrefixOf_iff_prefix.mpr (List.prefix_append (c :: w) s)
  rw [List.cons_append, splitText, if_pos hstart, List.length_cons, Nat.add_sub_cancel, splitText_skip]

theorem splitOn_append_of_not_mem {a : Char} (h : a ∉ w) (s : List Char) :
    (w ++ s).splitOn a = (s.splitOn a).modifyHead (w ++ ·) := by
  induction w
  case nil =>
    rw [List.nil_append]
    cases s.splitOn a <;> rfl
  case cons c w ih =>
    rw [List.mem_cons, not_or] at h
    rw [List.cons_append, List.splitOn_cons_eq_if_modifyHead, if_neg (by simpa using Ne.symm h.left),
      ih h.right, List.modifyHead_modifyHead]
    rfl

end split

section strip

-- A text that is stripped at its end keeps what stands before the last letter.
theorem rdropWhile_append_word (hw : ∀ c ∈ w, isSpace c = false) (hne : w ≠ []) (t s : List Char) :
    (t ++ (w ++ s)).rdropWhile isSpace = t ++ (w ++ s.rdropWhile isSpace) := by
  induction s using List.reverseRecOn
  case nil =>
    obtain ⟨w, c, rfl⟩ := List.eq_nil_or_concat w |>.resolve_left hne
    have hc : ¬isSpace c = true := by simp [hw c]
    rw [List.rdropWhile_nil, List.append_nil, List.concat_eq_append, ← List.append_assoc,
      List.rdropWhile_concat_neg _ _ _ hc]
  case append_singleton s c ih =>
    rw [← List.append_assoc, ← List.append_assoc]
    by_cases hc : isSpace c = true
    case pos => rw [List.rdropWhile_concat_pos _ _ _ hc, List.rdropWhile_concat_pos _ _ _ hc, List.append_assoc, ih]
    case neg =>
      rw [List.rdropWhile_concat_neg _ _ _ hc, List.rdropWhile_concat_neg _ _ _ hc]
      simp

theorem rdropWhile_blank : [' '].rdropWhile isSpace = [] := rfl

theorem strip_blank (s : List Char) : strip (' ' :: s) = strip s := rfl

theorem strip_word (hw : ∀ c ∈ w, isSpace c = false) (hne : w ≠ []) (s : List Char) :
    strip (w ++ s) = w ++ s.rdropWhile isSpace := by
  have hdrop : (w ++ s).dropWhile isSpace = w ++ s := by
    obtain ⟨c, w, rfl⟩ := List.exists_cons_of_ne_nil hne
    have hc : ¬isSpace c = true := by simp [hw c]
    exact List.dropWhile_cons_of_neg hc
  have := rdropWhile_append_word hw hne [] s
  rwa [strip, hdrop]

theorem lastWord_append (hw : ' ' ∉ w) (s : List Char) : lastWord (s ++ ' ' :: w) = w := by
  rw [lastWord, List.splitOn_append_cons_self, List.splitOn_eq_singleton hw]
  simp

theorem lastWord_word (hw : ' ' ∉ w) : lastWord w = w := by
  rw [lastWord, List.splitOn_eq_singleton hw]
  rfl

end strip

section find

theorem drop_length_takeWhile (p : Char → Bool) (s : List Char) :
    s.drop (s.takeWhile p).length = s.dropWhile p := by
  induction s
  case nil => rfl
  case cons c s ih => cases hc : p c <;> simp [hc, ih]

theorem findWordsBefore_skip (key w s : List Char) :
    findWordsBefore key w.length (w ++ s) = findWordsBefore key 0 s := by
  induction w
  case nil => rfl
  case cons c w ih => exact ih

-- A part without blanks is passed over if the key does not follow.
theorem findWordsBefore_break (hw : ∀ c ∈ w, isSpace c = false) (hc : isWordChar c = false)
    (hs : isSpace c = true → ¬key <+: s.dropWhile isSpace) :
    findWordsBefore key 0 (w ++ c :: s) = findWordsBefore key 0 s := by
  induction w
  case nil =>
    rw [List.nil_append, findWordsBefore, if_neg]
    simp [hc]
  case cons d w ih =>
    rw [List.cons_append, findWordsBefore, if_neg, ih fun c hc => hw c (List.mem_cons_of_mem _ hc)]
    rintro ⟨_, hspace, hprefix⟩
    rw [drop_length_takeWhile, drop_length_takeWhile, ← List.cons_append, List.dropWhile_append] at hprefix
    rw [drop_length_takeWhile, ← List.cons_append, List.dropWhile_append] at hspace
    -- The word ends at `c`, or at another character in `w`.
    cases hrest : (d :: w).dropWhile isWordChar
    case nil =>
      simp only [hrest, List.isEmpty_nil, if_true, List.dropWhile_cons, hc] at hspace hprefix
      cases hsp : isSpace c
      case false => simp [hsp] at hspace
      case true => exact hs hsp (by simpa [hsp] using hprefix)
    case cons e rest =>
      have he := hw e ((List.dropWhile_sublist _).subset (hrest ▸ List.mem_cons_self ..))
      simp [hrest, he] at hspace

theorem findWordsBefore_blank (hw : ∀ c ∈ w, isSpace c = false) (hs : ¬key <+: s.dropWhile isSpace) :
    findWordsBefore key 0 (w ++ ' ' :: s) = findWordsBefore key 0 s :=
  findWordsBefore_break hw rfl fun _ => hs

theorem findWordsBefore_match (hkey : key.head?.any (!isSpace ·) = true)
    (hw : ∀ c ∈ w, isWordChar c = true) (hne : w ≠ []) (s : List Char) :
    findWordsBefore key 0 (w ++ ' ' :: (key ++ s)) = w :: findWordsBefore key 0 s := by
  obtain ⟨c, w, rfl⟩ := List.exists_cons_of_ne_nil hne
  have hword : ((c :: w) ++ ' ' :: (key ++ s)).takeWhile isWordChar = c :: w := by
    rw [List.takeWhile_append_of_pos hw]
    simp [show isWordChar ' ' = false from rfl]
  have hspace : (' ' :: (key ++ s)).takeWhile isSpace = [' '] := by
    cases key
    case nil => cases hkey
    case cons d key =>
      have hd : isSpace d = false := by simpa using hkey
      simp [hd, show isSpace ' ' = true from rfl]
  have hlen : (c :: w).length + [' '].length + key.length - 1 = (w ++ ' ' :: key).length := by
    simp
    omega
  rw [List.cons_append] at hword ⊢
  rw [findWordsBefore, hword, ← List.cons_append, List.drop_left, hspace, if_pos]
  case hc => exact ⟨by simp, by simp, List.prefix_append key s⟩
  rw [hlen, show w ++ ' ' :: (key ++ s) = (w ++ ' ' :: key) ++ s by simp, findWordsBefore_skip]

end find

namespace IsVocabulary

variable (hv : IsVocabulary columns) (hcol : col ∈ columns)
include hv hcol

theorem not_mem_of_not_lower (h : c.toLower ≠ c) : c ∉ col.toList :=
  fun hc => h (hv.lower col hcol c hc)

theorem not_mem_of_not_word (h : isWordChar c = false) : c ∉ col.toList := by
  intro hc
  rw [hv.word col hcol c hc] at h
  cases h

theorem not_isSpace : ∀ c ∈ col.toList, isSpace c = false := by
  intro c hc
  by_contra hs
  have := not_isWordChar_of_isSpace (Bool.eq_true_of_not_eq_false hs)
  exact hv.not_mem_of_not_word hcol this hc

theorem not_infix_of_not_lower (hc : c ∈ key) (h : c.toLower ≠ c) : ¬key <:+: col.toList :=
  fun hi => hv.not_mem_of_not_lower hcol h (hi.subset hc)

end IsVocabulary

theorem appendKnown_column (hcol : col ∈ columns) (cs : List String) :
    appendKnown columns col.toList cs = cs ++ [col] := by
  rw [appendKnown, String.ofList_toList, if_pos (List.contains_iff_mem.mpr hcol)]

namespace HashJoin

variable {j : HashJoin} {p : String × String} {ps : List (String × String)} {kind : List Char}

-- The operator and the mode.
def header (j : HashJoin) : List Char :=
  "JoinHash (".toList ++ (j.modeText ++ [')'])

def modeTexts : List (List Char) :=
  ["Inner", "Left", "Right", "FullOuter", "Cross", "Semi", "Semi Reduction", "AntiNullAsTrue",
    "AntiNullAsFalse"].map String.toList

theorem modeText_mem (j : HashJoin) : j.modeText ∈ modeTexts := by
  obtain ⟨mode, isSemiReduction, _, _⟩ := j
  simp only [modeText]
  cases mode <;> cases isSemiReduction <;> decide +kernel

-- The mode is one word, or two.
theorem modeTexts_spec : ∀ mode ∈ modeTexts,
    ((mode.all (!isSpace ·) = true ∨ mode = "Semi".toList ++ ' ' :: "Reduction".toList) ∧ ')' ∉ mode ∧ '\n' ∉ mode) ∧
      ¬"FromLeft".toList <:+: "JoinHash (".toList ++ (mode ++ [')']) ∧
      ¬"AND".toList <:+: "JoinHash (".toList ++ (mode ++ [')']) ∧
      'D' ∉ "JoinHash (".toList ++ (mode ++ [')']) ∧ '=' ∉ "JoinHash (".toList ++ (mode ++ [')']) := by
  decide +kernel

theorem modeText_spec (j : HashJoin) :
    (j.modeText.all (!isSpace ·) = true ∨ j.modeText = "Semi".toList ++ ' ' :: "Reduction".toList) ∧
      ')' ∉ j.modeText ∧ '\n' ∉ j.modeText :=
  (modeTexts_spec _ j.modeText_mem).left

theorem header_spec (j : HashJoin) :
    ¬"FromLeft".toList <:+: j.header ∧ ¬"AND".toList <:+: j.header ∧ 'D' ∉ j.header ∧ '=' ∉ j.header :=
  (modeTexts_spec _ j.modeText_mem).right

theorem predicateText_eq (kind : List Char) (p : String × String) (s : List Char) :
    predicateText kind p ++ s = p.1.toList ++ ' ' :: ("FromLeft".toList ++ ' ' :: (kind ++ ' ' :: (['='] ++ ' ' ::
      (p.2.toList ++ ' ' :: ("FromRight".toList ++ ' ' :: (kind ++ ' ' :: s)))))) := by
  have hleft : " FromLeft ".toList = ' ' :: ("FromLeft".toList ++ [' ']) := by simp
  have hright : " FromRight ".toList = ' ' :: ("FromRight".toList ++ [' ']) := by simp
  have hequals : " = ".toList = [' ', '=', ' '] := by simp
  rw [predicateText, hleft, hright, hequals]
  simp only [List.append_assoc, List.cons_append, List.nil_append]

theorem secondaryText_eq (p : String × String) (s : List Char) :
    secondaryText p ++ s = [] ++ ' ' :: ("AND".toList ++ ' ' :: (predicateText "Secondary".toList p ++ s)) := by
  have hand : " AND ".toList = ' ' :: ("AND".toList ++ [' ']) := by simp
  rw [secondaryText, hand]
  simp only [List.append_assoc, List.cons_append, List.nil_append]

theorem description_eq (j : HashJoin) : j.description = j.header ++ ' ' ::
    (predicateText "Primary".toList j.primary ++ j.secondary.flatMap secondaryText) := by
  have hclose : ") ".toList = [')', ' '] := by simp
  unfold description header
  rw [hclose]
  simp only [List.append_assoc, List.cons_append, List.nil_append]

section find

-- A part between two blanks that is not a key.
structure IsToken (w : List Char) : Prop where
  ne_nil  : w ≠ []
  noSpace : ∀ c ∈ w, isSpace c = false
  noKey   : 'F' ∉ w

theorem IsToken.not_follows (hw : IsToken w) (hkey : key.head? = some 'F') (s : List Char) :
    ¬key <+: (w ++ s).dropWhile isSpace := by
  obtain ⟨c, w, rfl⟩ := List.exists_cons_of_ne_nil hw.ne_nil
  obtain ⟨d, key, rfl⟩ := List.exists_cons_of_ne_nil (l := key) (by rintro rfl; cases hkey)
  obtain rfl := Option.some.inj hkey
  have hc : ¬isSpace c = true := by simp [hw.noSpace c]
  rw [List.cons_append, List.dropWhile_cons_of_neg hc]
  intro h
  obtain ⟨rfl, _⟩ := List.cons_prefix_cons.mp h
  exact hw.noKey (List.mem_cons_self ..)

theorem isToken_column (hv : IsVocabulary columns) (hcol : col ∈ columns) : IsToken col.toList :=
  ⟨hv.ne_nil hcol, hv.not_isSpace hcol, hv.not_mem_of_not_lower hcol (by decide)⟩

theorem isToken_equals : IsToken ['='] :=
  ⟨by simp, by simp [isSpace], by simp⟩

theorem isToken_and : IsToken "AND".toList :=
  ⟨by simp, by simp [isSpace], by simp⟩

theorem isToken_primary : IsToken "Primary".toList :=
  ⟨by simp, by simp [isSpace], by simp⟩

theorem isToken_secondary : IsToken "Secondary".toList :=
  ⟨by simp, by simp [isSpace], by simp⟩

theorem header_eq (j : HashJoin) (s : List Char) :
    j.header ++ s = "JoinHash".toList ++ ' ' :: ([] ++ '(' :: (j.modeText ++ ')' :: s)) := by
  have hopen : "JoinHash (".toList = "JoinHash".toList ++ [' ', '('] := by simp
  unfold header
  rw [hopen]
  simp only [List.append_assoc, List.cons_append, List.nil_append]

theorem findWordsBefore_header (j : HashJoin) (hkey : key.head? = some 'F') (s : List Char) :
    findWordsBefore key 0 (j.header ++ ' ' :: s) = findWordsBefore key 0 (' ' :: s) := by
  have hparen (s : List Char) : ¬key <+: ([] ++ '(' :: s).dropWhile isSpace :=
    IsToken.not_follows (w := ['(']) ⟨by simp, by simp [isSpace], by simp⟩ hkey s
  have hnext : findWordsBefore key 0 (j.modeText ++ ')' :: ' ' :: s) = findWordsBefore key 0 (' ' :: s) := by
    rcases j.modeText_spec.left with h | h
    case inl => exact findWordsBefore_break (by simpa using h) rfl (by simp [isSpace])
    case inr =>
      have hred : IsToken "Reduction".toList := ⟨by simp, by simp [isSpace], by simp⟩
      rw [h, List.append_assoc, List.cons_append,
        findWordsBefore_blank (by simp [isSpace]) (hred.not_follows hkey _),
        findWordsBefore_break hred.noSpace rfl (by simp [isSpace])]
  rw [header_eq, findWordsBefore_blank (by simp [isSpace]) (hparen _), findWordsBefore_break (by simp) rfl (by simp [isSpace]),
    hnext]

variable (hv : IsVocabulary columns) (hp : p.1 ∈ columns ∧ p.2 ∈ columns)
include hv hp

theorem findLeft_predicateText (hkind : IsToken kind) (hs : ¬"FromLeft".toList <+: s.dropWhile isSpace) :
    findWordsBefore "FromLeft".toList 0 (predicateText kind p ++ s) =
      p.1.toList :: findWordsBefore "FromLeft".toList 0 s := by
  have hkey : "FromLeft".toList.head? = some 'F' := by simp
  have hright (s : List Char) : ¬"FromLeft".toList <+: ("FromRight".toList ++ s).dropWhile isSpace := by
    simp [isSpace]
  have hl := isToken_column hv hp.left
  have hr := isToken_column hv hp.right
  rw [predicateText_eq, findWordsBefore_match (by simp [isSpace]) (hv.word _ hp.left) hl.ne_nil,
    ← List.nil_append (' ' :: _), findWordsBefore_blank (by simp) (hkind.not_follows hkey _),
    findWordsBefore_blank hkind.noSpace (isToken_equals.not_follows hkey _),
    findWordsBefore_blank isToken_equals.noSpace (hr.not_follows hkey _),
    findWordsBefore_blank hr.noSpace (hright _),
    findWordsBefore_blank (by simp [isSpace]) (hkind.not_follows hkey _),
    findWordsBefore_blank hkind.noSpace hs]

theorem findRight_predicateText (hkind : IsToken kind) (hs : ¬"FromRight".toList <+: s.dropWhile isSpace) :
    findWordsBefore "FromRight".toList 0 (predicateText kind p ++ s) =
      p.2.toList :: findWordsBefore "FromRight".toList 0 s := by
  have hkey : "FromRight".toList.head? = some 'F' := by simp
  have hleft (s : List Char) : ¬"FromRight".toList <+: ("FromLeft".toList ++ s).dropWhile isSpace := by
    simp [isSpace]
  have hl := isToken_column hv hp.left
  have hr := isToken_column hv hp.right
  rw [predicateText_eq, findWordsBefore_blank hl.noSpace (hleft _),
    findWordsBefore_blank (by simp [isSpace]) (hkind.not_follows hkey _),
    findWordsBefore_blank hkind.noSpace (isToken_equals.not_follows hkey _),
    findWordsBefore_blank isToken_equals.noSpace (hr.not_follows hkey _),
    findWordsBefore_match (by simp [isSpace]) (hv.word _ hp.right) hr.ne_nil,
    ← List.nil_append (' ' :: _), findWordsBefore_blank (by simp) (hkind.not_follows hkey _),
    findWordsBefore_blank hkind.noSpace hs]

omit hv hp in
theorem secondary_not_follows (hkey : key.head? = some 'F') (ps : List (String × String)) :
    ¬key <+: (ps.flatMap secondaryText).dropWhile isSpace := by
  cases ps
  case nil =>
    intro h
    rw [List.flatMap_nil, List.dropWhile_nil, List.prefix_nil] at h
    simp [h] at hkey
  case cons p ps =>
    rw [List.flatMap_cons, secondaryText_eq]
    exact isToken_and.not_follows hkey _

omit hp in
-- Each predicate adds the column before the key.
theorem findWordsBefore_secondary {column : String × String → String} (hkey : key.head? = some 'F')
    (hadd : ∀ p, p.1 ∈ columns ∧ p.2 ∈ columns → ∀ kind s, IsToken kind → ¬key <+: s.dropWhile isSpace →
      findWordsBefore key 0 (predicateText kind p ++ s) = (column p).toList :: findWordsBefore key 0 s)
    (hps : ∀ p ∈ ps, p.1 ∈ columns ∧ p.2 ∈ columns) :
    findWordsBefore key 0 (ps.flatMap secondaryText) = ps.map fun p => (column p).toList := by
  induction ps
  case nil => rfl
  case cons p ps ih =>
    rw [List.forall_mem_cons] at hps
    have hfirst (s : List Char) : ¬key <+: (predicateText "Secondary".toList p ++ s).dropWhile isSpace := by
      rw [predicateText_eq]
      exact (isToken_column hv hps.left.left).not_follows hkey _
    rw [List.flatMap_cons, secondaryText_eq, findWordsBefore_blank (by simp) (isToken_and.not_follows hkey _),
      findWordsBefore_blank isToken_and.noSpace (hfirst _),
      hadd p hps.left _ _ isToken_secondary (secondary_not_follows hkey ps), ih hps.right, List.map_cons]

omit hp in
theorem findWordsBefore_description {column : String × String → String} (hkey : key.head? = some 'F')
    (hadd : ∀ p, p.1 ∈ columns ∧ p.2 ∈ columns → ∀ kind s, IsToken kind → ¬key <+: s.dropWhile isSpace →
      findWordsBefore key 0 (predicateText kind p ++ s) = (column p).toList :: findWordsBefore key 0 s)
    (hj : ∀ p ∈ j.predicates, p.1 ∈ columns ∧ p.2 ∈ columns) :
    findWordsBefore key 0 j.description = j.predicates.map fun p => (column p).toList := by
  rw [predicates, List.forall_mem_cons] at hj
  have hfirst (s : List Char) : ¬key <+: (predicateText "Primary".toList j.primary ++ s).dropWhile isSpace := by
    rw [predicateText_eq]
    exact (isToken_column hv hj.left.left).not_follows hkey _
  rw [description_eq, findWordsBefore_header j hkey, ← List.nil_append (' ' :: _),
    findWordsBefore_blank (by simp) (hfirst _),
    hadd _ hj.left _ _ isToken_primary (secondary_not_follows hkey _),
    findWordsBefore_secondary hv hkey hadd hj.right, predicates, List.map_cons]

end find

theorem joinType_header (j : HashJoin) (s : List Char) : joinType (j.header ++ s) = .ok j.header := by
  obtain ⟨_, hclose, hline⟩ := j.modeText_spec
  have hop (s : List Char) : ("JoinHash".toList ++ ' ' :: s).takeWhile (!isSpace ·) = "JoinHash".toList := by
    simp [isSpace]
  have htake : (j.modeText ++ ')' :: s).takeWhile (· ≠ ')') = j.modeText := by
    rw [List.takeWhile_append_of_pos fun c hc => by simpa using ne_of_mem_of_not_mem hc hclose]
    simp
  have hheader := j.header_eq []
  rw [List.append_nil, List.nil_append] at hheader
  rw [header_eq, joinType, hop, List.drop_left, List.nil_append]
  simp only [htake]
  rw [if_pos, hheader]
  case hc => exact ⟨by simp, rfl, by simp, hline⟩
  rfl

theorem occursIn_join (j : HashJoin) : occursIn "join".toList (j.description.map Char.toLower) = true := by
  have hlower : "JoinHash".toList.map Char.toLower = "join".toList ++ "hash".toList := by simp
  rw [occursIn_iff, description_eq, header_eq, List.map_append, hlower, List.append_assoc]
  exact (List.prefix_append _ _).isInfix

theorem readJoin_description (hv : IsVocabulary columns) (hj : ∀ p ∈ j.predicates, p.1 ∈ columns ∧ p.2 ∈ columns) :
    readJoin j.description = .ok (some {
      joinType     := j.header
      leftColumns  := j.predicates.map (·.1.toList)
      rightColumns := j.predicates.map (·.2.toList) }) := by
  have hleft : findWordsBefore "FromLeft".toList 0 j.description = j.predicates.map (·.1.toList) :=
    findWordsBefore_description hv (by simp)
      (fun p hp _ _ hkind => findLeft_predicateText hv hp hkind) hj
  have hright : findWordsBefore "FromRight".toList 0 j.description = j.predicates.map (·.2.toList) :=
    findWordsBefore_description hv (by simp)
      (fun p hp _ _ hkind => findRight_predicateText hv hp hkind) hj
  have htype : joinType j.description = .ok j.header := by
    rw [description_eq, joinType_header]
  rw [readJoin, if_pos j.occursIn_join, htype, hleft, hright]
  rfl

section lists

theorem infix_secondaryText (p : String × String) :
    "AND".toList <:+: secondaryText p ∧ "Secondary".toList <:+: secondaryText p := by
  have h := secondaryText_eq p []
  rw [predicateText_eq, List.append_nil] at h
  rw [h]
  constructor
  case left => exact ⟨[' '], _, by simp only [List.cons_append, List.nil_append]; rfl⟩
  case right =>
    exact ⟨' ' :: ("AND".toList ++ ' ' :: (p.1.toList ++ ' ' :: ("FromLeft".toList ++ [' ']))), _,
      by simp only [List.cons_append, List.nil_append, List.append_assoc]; rfl⟩

theorem infix_description (hsec : j.secondary = p :: ps) : secondaryText p <:+: j.description := by
  rw [description_eq, hsec, List.flatMap_cons]
  exact ⟨j.header ++ ' ' :: predicateText "Primary".toList j.primary, ps.flatMap secondaryText,
    by simp only [List.cons_append, List.append_assoc]⟩

variable (hv : IsVocabulary columns) (hj : ∀ p ∈ j.predicates, p.1 ∈ columns ∧ p.2 ∈ columns)
include hv

theorem not_blank (hcol : col ∈ columns) : ' ' ∉ col.toList :=
  hv.not_mem_of_not_word hcol rfl

-- A column ends a text that is stripped.
theorem rdropWhile_column (hcol : col ∈ columns) (t : List Char) :
    (t ++ (col.toList ++ [' '])).rdropWhile isSpace = t ++ col.toList := by
  rw [rdropWhile_append_word (hv.not_isSpace hcol) (hv.ne_nil hcol), rdropWhile_blank, List.append_nil]

theorem strip_column (hcol : col ∈ columns) : strip (col.toList ++ [' ']) = col.toList := by
  rw [strip_word (hv.not_isSpace hcol) (hv.ne_nil hcol), rdropWhile_blank, List.append_nil]

-- A part of the description that starts with a column.
theorem beforeFromLeft_strip (hcol : col ∈ columns) (s : List Char) :
    beforeFromLeft (strip (' ' :: (col.toList ++ ' ' :: ("FromLeft".toList ++ s)))) = col.toList := by
  have hstrip : strip (' ' :: (col.toList ++ ' ' :: ("FromLeft".toList ++ s))) =
      col.toList ++ ' ' :: ("FromLeft".toList ++ s.rdropWhile isSpace) := by
    have := rdropWhile_append_word (w := "FromLeft".toList) (by simp [isSpace]) (by simp) [' '] s
    rw [strip_blank, strip_word (hv.not_isSpace hcol) (hv.ne_nil hcol)]
    exact congrArg _ this
  rw [hstrip, beforeFromLeft, splitText_word (by simp) (by simp)
      (hv.not_infix_of_not_lower (c := 'F') hcol (by simp) (by decide)),
    splitText_self (by simp)]
  simp only [List.modifyHead_cons, List.head?_cons, Option.getD_some, strip_column hv hcol,
    lastWord_word (not_blank hv hcol)]

include hj

theorem beforeFromLeft_description : beforeFromLeft j.description = j.primary.1.toList := by
  have hcol := (hj _ (List.mem_cons_self ..)).left
  have hstrip : strip (j.header ++ ' ' :: (j.primary.1.toList ++ [' '])) =
      j.header ++ ' ' :: j.primary.1.toList := by
    have hlast := rdropWhile_column hv hcol (' ' :: '(' :: (j.modeText ++ [')', ' ']))
    simp only [List.cons_append, List.append_assoc, List.nil_append] at hlast
    rw [header_eq, header_eq, strip_word (by simp [isSpace]) (by simp)]
    exact congrArg _ hlast
  rw [beforeFromLeft, description_eq, predicateText_eq,
    splitText_word (by simp) (by simp) j.header_spec.left,
    splitText_word (by simp) (by simp)
      (hv.not_infix_of_not_lower (c := 'F') hcol (by simp) (by decide)),
    splitText_self (by simp)]
  simp only [List.modifyHead_cons, List.head?_cons, Option.getD_some, hstrip, lastWord_append (not_blank hv hcol)]

-- The first predicate is cut at its equals sign.
theorem splitOn_description : ∃ s, itemAt (j.description.splitOn '=') 1 =
    .ok ([] ++ ' ' :: (j.primary.2.toList ++ ' ' :: ("FromRight".toList ++ s))) := by
  obtain ⟨hl, hr⟩ := hj _ (List.mem_cons_self ..)
  have hbefore : '=' ∉ j.header ++ ' ' :: (j.primary.1.toList ++ ' ' :: ("FromLeft".toList ++ ' ' ::
      ("Primary".toList ++ [' ']))) := by
    have hcol := hv.not_mem_of_not_word (c := '=') hl rfl
    simp [j.header_spec.right.right.right, hcol]
  have hafter : '=' ∉ ' ' :: (j.primary.2.toList ++ ' ' :: "FromRight".toList) := by
    have hcol := hv.not_mem_of_not_word (c := '=') hr rfl
    simp [hcol]
  have hsplit := List.splitOn_append_cons_self_of_not_mem hbefore
    ((' ' :: (j.primary.2.toList ++ ' ' :: "FromRight".toList)) ++
      (' ' :: ("Primary".toList ++ ' ' :: j.secondary.flatMap secondaryText)))
  rw [splitOn_append_of_not_mem hafter] at hsplit
  obtain ⟨s, ss, hs⟩ := List.exists_cons_of_ne_nil (List.splitOn_ne_nil '='
    (' ' :: ("Primary".toList ++ ' ' :: j.secondary.flatMap secondaryText)))
  rw [hs] at hsplit
  simp only [List.append_assoc, List.cons_append, List.nil_append, List.modifyHead_cons] at hsplit
  use s
  rw [description_eq, predicateText_eq]
  simp only [List.cons_append, List.nil_append, hsplit]
  rfl

theorem beforeFromRight_description : beforeFromRight j.description = .ok j.primary.2.toList := by
  have hr := (hj _ (List.mem_cons_self ..)).right
  obtain ⟨s, hs⟩ := splitOn_description hv hj
  rw [beforeFromRight, hs, Except.ok_bind, splitText_word (by simp) (by simp) (by simp),
    splitText_word (by simp) (by simp)
      (hv.not_infix_of_not_lower (c := 'F') hr (by simp) (by decide)),
    splitText_self (by simp)]
  simp only [List.modifyHead_cons, List.head?_cons, Option.getD_some, List.nil_append, strip_blank, strip_column hv hr]
  rfl

-- The first secondary predicate stands behind the first `AND`.
theorem splitText_description (hsec : j.secondary = p :: ps) :
    ∃ s, itemAt (splitText "AND".toList 0 j.description) 1 =
      .ok (' ' :: (p.1.toList ++ ' ' :: ("FromLeft".toList ++ ' ' :: s))) := by
  have hcols := hj _ (List.mem_cons_self ..)
  have hp := (hj p (by simp [predicates, hsec])).left
  have hand : ' ' ∉ "AND".toList ∧ "AND".toList ≠ [] := by simp
  have hcol {col : String} (h : col ∈ columns) : ¬"AND".toList <:+: col.toList :=
    hv.not_infix_of_not_lower (c := 'A') h (by simp) (by decide)
  have hword {w : List Char} (hw : ¬"AND".toList <:+: w) (s : List Char) :=
    splitText_word hand.left hand.right hw s
  have hother {w : List Char} (hw : 'A' ∉ w) (s : List Char) := hword (fun h => hw (h.subset (by simp))) s
  rw [description_eq, predicateText_eq, hsec, List.flatMap_cons, secondaryText_eq,
    hword j.header_spec.right.left, hword (hcol hcols.left), hother (by simp), hother (by simp),
    hother (by simp), hword (hcol hcols.right), hother (by simp), hother (by simp), hother (by simp),
    splitText_self hand.right, predicateText_eq, ← List.nil_append (' ' :: (p.1.toList ++ _)),
    hother (by simp), hword (hcol hp), hother (by simp)]
  obtain ⟨s, ss, hs⟩ := List.exists_cons_of_ne_nil (splitText_ne_nil "AND".toList 0 _)
  use s
  rw [hs]
  rfl

theorem occursIn_and (hsec : j.secondary = []) : occursIn "AND".toList j.description = false := by
  obtain ⟨hl, hr⟩ := hj _ (List.mem_cons_self ..)
  have hD : 'D' ∉ j.description := by
    have hcol {col : String} (h : col ∈ columns) : 'D' ∉ col.toList := hv.not_mem_of_not_lower h (by decide)
    rw [description_eq, predicateText_eq, hsec]
    simp [j.header_spec.right.right.left, hcol hl, hcol hr]
  rw [Bool.eq_false_iff, Ne, occursIn_iff]
  exact fun h => hD (h.subset (by simp))

theorem joinHashLists_nil (hsec : j.secondary = []) :
    joinHashLists columns j.description = .ok [("lcolumn", [j.primary.1]), ("rcolumn", [j.primary.2])] := by
  have hcols := hj _ (List.mem_cons_self ..)
  rw [joinHashLists, beforeFromLeft_description hv hj, beforeFromRight_description hv hj, Except.ok_bind,
    occursIn_and hv hj hsec, appendKnown_column hcols.left, appendKnown_column hcols.right]
  rfl

-- The right column is that of the first predicate again.
theorem joinHashLists_cons (hsec : j.secondary = p :: ps) :
    joinHashLists columns j.description =
      .ok [("lcolumn", [j.primary.1, p.1]), ("rcolumn", [j.primary.2, j.primary.2])] := by
  have hcols := hj _ (List.mem_cons_self ..)
  have hp := (hj p (by simp [predicates, hsec])).left
  have hoccurs : (occursIn "AND".toList j.description && occursIn "Secondary".toList j.description) = true := by
    rw [Bool.and_eq_true, occursIn_iff, occursIn_iff]
    exact ⟨(infix_secondaryText p).left.trans (infix_description hsec),
      (infix_secondaryText p).right.trans (infix_description hsec)⟩
  obtain ⟨s, hs⟩ := splitText_description hv hj hsec
  rw [joinHashLists, beforeFromLeft_description hv hj, beforeFromRight_description hv hj, Except.ok_bind,
    if_pos hoccurs, hs, Except.ok_bind, Except.ok_bind, beforeFromLeft_strip hv hp,
    appendKnown_column hcols.left, appendKnown_column hcols.right, appendKnown_column hp, appendKnown_column hcols.right]
  rfl

end lists

theorem preprocess_join {left right : Exported} {leftCard rightCard : Option (List Char)} :
    preprocessPqpNode columns (.node j.description leftCard rightCard left right) = (do
      let lchild ← preprocessPqpNode columns left
      let rchild ← preprocessPqpNode columns right
      let lcard ← firstRows leftCard
      let rcard ← firstRows rightCard
      let lists ← joinHashLists columns j.description
      return .node (tempNode "JoinHash" (some lcard) (some rcard) lists) lchild rchild) := by
  have hdesc : ∃ s, j.description = "JoinHash".toList ++ s := ⟨_, by rw [description_eq, header_eq]⟩
  obtain ⟨s, hs⟩ := hdesc
  rw [preprocessPqpNode]
  simp only [hs]
  simp

end HashJoin

-- The first secondary predicate is read, with the right column of the primary one, and the others are not.
theorem joinHash_columns_iff {left right : Exported} {l r : Plan} {lcard rcard : List Char} {lrows rrows : Int}
    {lres rres : Combined} {lout rout : PqpCombined} (j : HashJoin)
    (hj : ∀ p ∈ j.predicates, p.1 ∈ allTpchCols ∧ p.2 ∈ allTpchCols)
    (hleft : preprocessPqpNode allTpchCols left = .ok l) (hright : preprocessPqpNode allTpchCols right = .ok r)
    (hlcard : firstRows (some lcard) = .ok lrows) (hrcard : firstRows (some rcard) = .ok rrows)
    (hlres : lres ≠ .missing) (hrres : rres ≠ .missing)
    (hlout : traversePqpHelper left lres = .ok lout) (hrout : traversePqpHelper right rres = .ok rout) :
    (preprocessPqpNode allTpchCols (.node j.description (some lcard) (some rcard) left right) =
        .ok (.node (tempNode "JoinHash" (some lrows) (some rrows)
          [("lcolumn", j.predicates.map Prod.fst), ("rcolumn", j.predicates.map Prod.snd)]) l r) ↔
      j.secondary = [] ∨ ∃ p, j.secondary = [p] ∧ p.2 = j.primary.2) ∧
    ∀ ops lists, ∃ joinType,
      traversePqpHelper (.node j.description (some lcard) (some rcard) left right) (.node ops lists lres rres) =
        .ok (.node (some ⟨joinType, j.predicates.map (·.1.toList), j.predicates.map (·.2.toList)⟩)
          (some lcard) (some rcard) lout rout) := by
  have hv := isVocabulary_allTpchCols
  constructor
  case left =>
    rw [HashJoin.preprocess_join, hleft, hright, hlcard, hrcard]
    simp only [Except.ok_bind]
    cases hsec : j.secondary
    case nil =>
      rw [HashJoin.joinHashLists_nil hv hj hsec, HashJoin.predicates, hsec]
      exact iff_of_true rfl (.inl rfl)
    case cons p ps =>
      rw [HashJoin.joinHashLists_cons hv hj hsec, HashJoin.predicates, hsec]
      obtain ⟨pl, pr⟩ := p
      simp only [tempNode, Except.ok_bind, Except.pure_def, List.map_cons, Except.ok.injEq, Plan.node.injEq,
        DictNode.mk.injEq, List.cons.injEq, Prod.mk.injEq, true_and, and_true, List.nil_eq, List.map_eq_nil_iff,
        reduceCtorEq, false_or]
      constructor
      case mp =>
        rintro ⟨hps, hright, _⟩
        exact ⟨(pl, pr), ⟨rfl, hps⟩, hright.symm⟩
      case mpr =>
        rintro ⟨_, ⟨rfl, hps⟩, hright⟩
        exact ⟨hps, hright.symm, hps⟩
  case right =>
    intro ops lists
    use j.header
    have hl : left ≠ .missing := by rintro rfl; cases hleft
    have hr : right ≠ .missing := by rintro rfl; cases hright
    have hlget : (Combined.node ops lists lres rres).left? = .ok lres := by
      cases lres <;> first | rfl | contradiction
    have hrget : (Combined.node ops lists lres rres).right? = .ok rres := by
      cases rres <;> first | rfl | contradiction
    rw [traversePqpHelper, HashJoin.readJoin_description hv hj, Except.ok_bind, if_neg hl, hlget, Except.ok_bind,
      hlout, Except.ok_bind]
    simp only [if_neg hr, hrget, Except.ok_bind, hrout]
    rfl

section query9

def HashJoin.lineitem (secondary : List (String × String)) : HashJoin :=
  ⟨.Inner, false, ("ps_partkey", "l_partkey"), secondary⟩

def Exported.partsuppTable : Exported :=
  node "GetTable (partsupp) pruned: 0/13 chunk(s), 2/5 column(s)".toList none none missing missing

def Exported.lineitemTable : Exported :=
  node "GetTable (lineitem) pruned: 0/92 chunk(s), 10/16 column(s)".toList none none missing missing

def HashJoin.exported (j : HashJoin) : Exported :=
  .node j.description (some "800,000 row(s)/13 chunk(s)".toList) (some "6,001,215 row(s)/92 chunk(s)".toList)
    .partsuppTable .lineitemTable

def tableResult : Combined :=
  .node "StoredTable".toList [] .missing .missing

theorem readers_query9 :
    (preprocessPqpNode allTpchCols .partsuppTable = .ok (.node (tempNode "GetTable" none none []) .none .none) ∧
      preprocessPqpNode allTpchCols .lineitemTable = .ok (.node (tempNode "GetTable" none none []) .none .none)) ∧
    (firstRows (some "800,000 row(s)/13 chunk(s)".toList) = .ok 800000 ∧
      firstRows (some "6,001,215 row(s)/92 chunk(s)".toList) = .ok 6001215) ∧
    traversePqpHelper .partsuppTable tableResult = .ok (.node none none none .untouched .untouched) ∧
    traversePqpHelper .lineitemTable tableResult = .ok (.node none none none .untouched .untouched) := by
  decide +kernel

-- The right column of the second predicate is `l_suppkey`.
theorem joinHash_query9 :
    (HashJoin.lineitem [("ps_suppkey", "l_suppkey")]).description =
      "JoinHash (Inner) ps_partkey FromLeft Primary = l_partkey FromRight Primary ".toList ++
        " AND ps_suppkey FromLeft Secondary = l_suppkey FromRight Secondary ".toList ∧
    preprocessPqpNode allTpchCols (HashJoin.lineitem [("ps_suppkey", "l_suppkey")]).exported =
      .ok (.node (tempNode "JoinHash" (some 800000) (some 6001215)
          [("lcolumn", ["ps_partkey", "ps_suppkey"]), ("rcolumn", ["l_partkey", "l_partkey"])])
        (.node (tempNode "GetTable" none none []) .none .none)
        (.node (tempNode "GetTable" none none []) .none .none)) ∧
    traversePqpHelper (HashJoin.lineitem [("ps_suppkey", "l_suppkey")]).exported
        (.node "Join".toList [] tableResult tableResult) =
      .ok (.node (some {
          joinType     := "JoinHash (Inner)".toList
          leftColumns  := ["ps_partkey".toList, "ps_suppkey".toList]
          rightColumns := ["l_partkey".toList, "l_suppkey".toList] })
        (some "800,000 row(s)/13 chunk(s)".toList) (some "6,001,215 row(s)/92 chunk(s)".toList)
        (.node none none none .untouched .untouched) (.node none none none .untouched .untouched)) := by
  refine ⟨by decide +kernel, ?_, by decide +kernel⟩
  obtain ⟨⟨hleft, hright⟩, ⟨hlcard, hrcard⟩, _⟩ := readers_query9
  rw [HashJoin.exported, HashJoin.preprocess_join, hleft, hright, hlcard, hrcard]
  decide +kernel

theorem joinHash_partkey :
    preprocessPqpNode allTpchCols (HashJoin.lineitem []).exported =
      .ok (.node (tempNode "JoinHash" (some 800000) (some 6001215)
          [("lcolumn", ["ps_partkey"]), ("rcolumn", ["l_partkey"])])
        (.node (tempNode "GetTable" none none []) .none .none)
        (.node (tempNode "GetTable" none none []) .none .none)) := by
  have hj : ∀ p ∈ (HashJoin.lineitem []).predicates, p.1 ∈ allTpchCols ∧ p.2 ∈ allTpchCols := by
    rintro p (_ | ⟨_, h⟩)
    case head => decide +kernel
    case tail => cases h
  obtain ⟨⟨hleft, hright⟩, ⟨hlcard, hrcard⟩, hlout, hrout⟩ := readers_query9
  have hres : tableResult ≠ .missing := by simp [tableResult]
  have h := joinHash_columns_iff _ hj hleft hright hlcard hrcard hres hres hlout hrout
  exact h.left.mpr (.inl rfl)

end query9

end Hyrise
