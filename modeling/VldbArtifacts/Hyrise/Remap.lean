import VldbArtifacts.Lib.Dict
import VldbArtifacts.CXLSim.System
import VldbArtifacts.Hyrise.Isolate

-- remap.py and string_replace.cpp, and where the simulator sends an address.

namespace Hyrise

open CXL (split Config Sim)

-- `sed -i 's/0xa/0xb/g'`.
def blanketReplace : List Char → List Char
  | '0' :: 'x' :: 'a' :: cs => '0' :: 'x' :: 'b' :: blanketReplace cs
  | c :: cs                 => c :: blanketReplace cs
  | []                      => []

-- `std::string::find`.
def find (search : List Char) : List Char → Option Nat
  | []      => if search = [] then some 0 else none
  | c :: cs => if search.isPrefixOf (c :: cs) then some 0 else (find search cs).map (· + 1)

-- The length that is cut out is that of the replacement.
def replaceInLine (ln search replace : List Char) : Option (List Char) :=
  (find search ln).map fun pos => ln.take pos ++ replace ++ ln.drop (pos + replace.length)

-- A round of the loop of `replace_in_file`.
def replaceLine (terms : List (List Char × List Char)) (ln : List Char) : List Char :=
  if (find ['0', 'x', 'a'] ln).isSome ∨ (find ['0', 'x', 'b'] ln).isSome then
    (terms.findSome? fun s => replaceInLine ln s.1 s.2).getD ln
  else
    ln

def replaceInFile (terms : List (List Char × List Char)) (text : List Char) : List Char :=
  unlines ((split '\n' text).map (replaceLine terms))

def columnDigits (ids : Nat × Nat) : List Char :=
  decText ids.1 ++ Nat.toDigits 16 ids.2

def remapTerm (ids : Nat × Nat) : List Char × List Char :=
  ('0' :: 'x' :: 'b' :: columnDigits ids, '0' :: 'x' :: 'a' :: columnDigits ids)

-- What becomes of a line of the trace.
def remapLine (ids : List (Nat × Nat)) (ln : List Char) : List Char :=
  replaceLine (ids.map remapTerm) (blanketReplace ln)

def columnDetails (columns : List Column) : List (String × Nat × Nat) :=
  Dict.ofList (columns.map fun c => (c.name, c.tableId, c.columnId))

-- The columns that the file does not map to CXL.
def damColumns (mapping : List (String × Bool)) : List String :=
  ((Dict.ofList mapping).filter fun p => !p.2).map Prod.fst

def damIds (columns : List Column) (mapping : List (String × Bool)) : Script (List (Nat × Nat)) :=
  (damColumns mapping).mapM fun col =>
    match Dict.get? col (columnDetails columns) with
    | none     => .error .keyError
    | some ids => .ok ids

def remapPy (columns : List Column) (mapping : List (String × Bool)) (text : List Char) :
    Script (List Char) := do
  let text := blanketReplace text
  return replaceInFile ((← damIds columns mapping).map remapTerm) text

-- A line of the mapping file does not map the column to CXL, and no later one does.
def MappedToDam (columns : List Column) (mapping : List (String × Bool)) (ids : Nat × Nat) : Prop :=
  ∃ col, Dict.get? col (Dict.ofList mapping) = some false ∧
    Dict.get? col (columnDetails columns) = some ids

-- The table and the column whose tag is in the output of isolate_hash and isolate_job.
def Layout.tagOf? (l : Layout) (addr : Nat) : Option (Nat × Nat) :=
  if l.Hides addr then none
  else (l.rangeOf? addr).map fun r => (r.tableId.toNat, r.columnId.toNat)

inductive Place (n : Nat)
  | dam
  | device (i : Fin n)
  deriving DecidableEq, Repr

-- `CXLHost::text_to_trace` takes what is in the interval of the direct attached memory; the rest is packed
-- for the device that `destination_device` finds.
def place {n : Nat} (cfg : Config n) (addr : Nat) : Sim (Place n) :=
  if CXL.CXLSystem.isInDam cfg addr then
    .ok .dam
  else do
    return .device (← cfg.destinationDevice addr)

def AccessType.opcode : AccessType → CXL.Opcode
  | R => .req
  | W => .rwd

-- An access of the recorded trace, and that access when the simulator reads it.
structure Placed (l : Layout) (columns : List Column) (mapping : List (String × Bool)) (a a' : Access) :
    Prop where
  type     : a'.type = a.type
  gap      : a'.gap = a.gap
  read     : a.gap < 2 ^ 64 → CXL.parseLine a'.line = .ok (a.type.opcode, a'.addr, a.gap)
  untagged : l.tagOf? a.addr = none → place Config.main a'.addr = .ok .dam
  dam      : ∀ ids, l.tagOf? a.addr = some ids → MappedToDam columns mapping ids →
    place Config.main a'.addr = .ok .dam
  device   : ∀ ids, l.tagOf? a.addr = some ids → ¬MappedToDam columns mapping ids →
    place Config.main a'.addr = .ok (.device 0)

end Hyrise
