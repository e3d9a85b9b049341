import VldbArtifacts.Hyrise.Counter

-- remap_job.py and postprocess_job_trace.py.

namespace Hyrise

-- The texts that `readline` returns until it returns an empty one. Each keeps its newline.
def readLines : List Char → List (List Char)
  | []      => []
  | c :: cs =>
    if c = '\n' then
      [c] :: readLines cs
    else
      match readLines cs with
      | []      => [[c]]
      | l :: ls => (c :: l) :: ls

def isMarked (ln : List Char) : Bool :=
  (find ['0', 'x', 'a'] ln).isSome || (find ['0', 'x', 'b'] ln).isSome

-- `line.replace('0xb','0xa')`.
def damReplace : List Char → List Char
  | '0' :: 'x' :: 'b' :: cs => '0' :: 'x' :: 'a' :: damReplace cs
  | c :: cs                 => c :: damReplace cs
  | []                      => []

-- `addr[3:5]` and `addr[5]`.
def addrIds (addr : List Char) : Script (Nat × Nat) := do
  let tableId ← pyInt 16 ((addr.drop 3).take 2)
  match addr[5]? with
  | none   => .error .indexError
  | some c => return (tableId, ← pyInt 16 [c])

-- `mapping[column_details[ids]]`.
def isCxl (columns : List Column) (mapping : List (String × Bool)) (ids : Nat × Nat) : Option Bool :=
  (Dict.get? ids (loadColDetails columns)).bind fun name => Dict.get? name (Dict.ofList mapping)

-- A round of the loop of remap_job.py.
def remapJobLine (columns : List Column) (mapping : List (String × Bool)) (ln : List Char) :
    Script (List Char) :=
  if isMarked ln then do
    let ids ← addrIds (ln.takeWhile (· ≠ ' '))
    match isCxl columns mapping ids with
    | none     => .error .keyError
    | some cxl => return if cxl then ln else damReplace ln
  else
    return ln

def remapJob (columns : List Column) (mapping : List (String × Bool)) (text : List Char) :
    Script (List Char) := do
  let lines ← (readLines (blanketReplace text)).mapM (remapJobLine columns mapping)
  return lines.flatten

-- A round of the loop of postprocess_job_trace.py.
def postprocessJobLine (ln : List Char) : List Char :=
  if isMarked ln then
    let words := ln.splitOn ' '
    let addr  := words.headD []
    let addr  := if 17 ≤ addr.length then addr.take 17 else addr
    addr ++ ' ' :: [' '].intercalate words.tail
  else
    ln

def postprocessJobTrace (text : List Char) : List Char :=
  (readLines text).flatMap postprocessJobLine

-- An access of the recorded trace, and that access when the simulator reads it.
structure PlacedJob (l : Layout) (columns : List Column) (mapping : List (String × Bool))
    (a a' : Access) : Prop where
  type     : a'.type = a.type
  gap      : a'.gap = a.gap
  read     : a.gap < 2 ^ 64 → CXL.parseLine a'.line = .ok (a.type.opcode, a'.addr, a.gap)
  untagged : l.tagOf? a.addr = none → a'.addr = a.addr
  dam      : ∀ ids, l.tagOf? a.addr = some ids → isCxl columns mapping ids = some false →
    place CXL.Config.main a'.addr = .ok .dam
  device   : ∀ ids, l.tagOf? a.addr = some ids → isCxl columns mapping ids = some true →
    place CXL.Config.main a'.addr = .ok (.device 0)

namespace Layout

-- Two accesses of a column that are in different blocks of the size.
def Apart (l : Layout) (size : Nat) (a b : Access) : Prop :=
  (l.tagOf? a.addr ≠ none ∧ l.tagOf? b.addr = l.tagOf? a.addr) ∧ a.addr / size ≠ b.addr / size

instance (l : Layout) (size : Nat) (a b : Access) : Decidable (l.Apart size a b) :=
  inferInstanceAs (Decidable ((_ ∧ _) ∧ _))

-- The lines of a column stay apart.
def KeepsLines (l : Layout) (as : List RoiAccess) (as' : List Access) : Prop :=
  ∀ p ∈ as.zip as', ∀ q ∈ as.zip as', l.Apart 64 p.1.toAccess q.1.toAccess →
    p.2.addr / 64 ≠ q.2.addr / 64

instance (l : Layout) (as : List RoiAccess) (as' : List Access) : Decidable (l.KeepsLines as as') :=
  inferInstanceAs (Decidable (∀ p ∈ as.zip as', ∀ q ∈ as.zip as', _))

end Layout

end Hyrise
