import VldbArtifacts.Lib.TimedMerge
import VldbArtifacts.Hyrise.Trace

-- interleave.py. A file object is the text behind its position.

namespace Hyrise

open CXL (split)

-- The line with its newline, and the rest. At the end of the file the line is empty.
def readline : List Char → List Char × List Char
  | []      => ([], [])
  | c :: cs => if c = '\n' then (['\n'], cs) else (c :: (readline cs).1, (readline cs).2)

-- `int(s, 16)`.
def pyHex : List Char → Script Nat
  | '0' :: 'x' :: cs => pyInt 16 cs
  | cs               => pyInt 16 cs

-- The last character of the line is taken for the newline.
def getAccessDetails (ln : List Char) : Script (Option Access) :=
  if ln = [] then
    return none
  else
    match ln.splitOn ' ' with
    | w₀ :: w₁ :: w₂ :: _ => do
      let addr ← pyHex w₀
      let gap ← pyInt 10 w₂.dropLast
      return some ⟨addr, if 'R' ∈ w₁ then .R else .W, gap⟩
    | _ => .error .indexError

-- An empty line is appended twice.
def getAllAccesses : List (List Char) → Script (List (Option Access))
  | []        => return []
  | ln :: lns => do
    let a ← getAccessDetails ln
    let dets ← getAllAccesses lns
    return if ln = [] then none :: a :: dets else a :: dets

-- The loop of `get_lowest_gap_idx` from `idx` on. The lowest access so far comes with its gap.
def lowestFrom : List (Option Access) → Nat → Option (Nat × Nat) → Option (Nat × Nat)
  | [], _, lowest                       => lowest
  | none :: accesses, idx, lowest       => lowestFrom accesses (idx + 1) lowest
  | some a :: accesses, idx, none       => lowestFrom accesses (idx + 1) (some (idx, a.gap))
  | some a :: accesses, idx, some (i, g) =>
    lowestFrom accesses (idx + 1) (if a.gap < g then some (idx, a.gap) else some (i, g))

def getLowestGapIdx (accesses : List (Option Access)) : Script Nat :=
  match lowestFrom accesses 0 none with
  | none        => .error .exit
  | some (i, _) => .ok i

def Access.elapse (g : Nat) (a : Access) : Access :=
  { a with gap := a.gap - g }

-- No gap is lower than the one that is subtracted.
def updateAccesses (accesses : List (Option Access)) (lowestIdx g : Nat) : List (Option Access) :=
  accesses.mapIdx fun idx a => if idx = lowestIdx then a else a.map (Access.elapse g)

def interleaveLoop : Nat → List (Option Access) → List (List Char) → Script (List Char)
  | 0, _, _ => .error .outOfFuel
  | fuel + 1, accesses, files =>
    if ∀ a ∈ accesses, a = none then
      return []
    else do
      let i ← getLowestGapIdx accesses
      match accesses[i]?, files[i]? with
      | some (some a), some file => do
        let new ← getAccessDetails (readline file).1
        let out ← interleaveLoop fuel ((updateAccesses accesses i a.gap).set i new)
          (files.set i (readline file).2)
        return a.line ++ '\n' :: out
      | _, _ => .error .indexError

-- An access is at least one character long, so there are not more rounds than characters.
def interleaveMemAccesses (files : List (List Char)) : Script (List Char) := do
  let accesses ← getAllAccesses (files.map fun file => (readline file).1)
  interleaveLoop ((files.map List.length).sum + 1) accesses (files.map fun file => (readline file).2)

-- What the script reads from a file, line by line.
inductive Reads : List Char → List Access → Prop
  | eof : Reads [] []
  | line {text a as} (hne : text ≠ []) (ha : getAccessDetails (readline text).1 = .ok (some a))
      (h : Reads (readline text).2 as) : Reads text (a :: as)

def Access.item (a : Access) : Nat × Nat × AccessType :=
  (a.gap, a.addr, a.type)

-- What is left to merge: each head with what the script will read behind it.
def streams (accesses : List (Option Access)) (tails : List (List Access)) :
    List (List (Nat × Nat × AccessType)) :=
  List.zipWith (fun a as => (a.toList ++ as).map Access.item) accesses tails

-- The accesses with the instructions up to them.
def timed (as : List Access) : List (Nat × Nat × AccessType) :=
  Timed.times 0 (as.map Access.item)

-- Each access of the files is in the output once, those of a file are in order, and as many instructions
-- are up to the access as in its own file.
def IsTimedMerge (files : List (List Access)) (out : List Access) : Prop :=
  Interleaves (files.map timed) (timed out)

-- The files of the script hold the accesses, one on each line.
def Hold (texts : List (List Char)) (files : List (List Access)) : Prop :=
  List.Forall₂ (fun text as => split '\n' text = as.map Access.line) texts files

def Interleaved (texts : List (List Char)) (files : List (List Access)) : Prop :=
  ∃ out as, interleaveMemAccesses texts = .ok out ∧ split '\n' out = as.map Access.line ∧
    IsTimedMerge files as

-- No empty file is before one that is not.
def EmptyLast (texts : List (List Char)) : Prop :=
  texts.Pairwise fun text text' => text = [] → text' = []

instance (texts : List (List Char)) : Decidable (EmptyLast texts) :=
  inferInstanceAs (Decidable (List.Pairwise _ _))

-- There are empty files before the last one that is not, and not less of them behind it.
def Absorbed (texts : List (List Char)) : Prop :=
  ∃ pre text z, texts = pre ++ text :: List.replicate z [] ∧ text ≠ [] ∧ [] ∈ pre ∧ pre.count [] ≤ z

-- The file does not end inside of a line.
def Terminated (text : List Char) : Prop :=
  text = [] ∨ text.getLast? = some '\n'

instance (text : List Char) : Decidable (Terminated text) :=
  inferInstanceAs (Decidable (_ ∨ _))

end Hyrise
