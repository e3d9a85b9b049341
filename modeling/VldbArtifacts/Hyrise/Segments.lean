import Mathlib.Data.List.DropRight
import VldbArtifacts.Hyrise.Remap

-- The addresses of the segments in memory: `Console::_seg` and `get_dict_seg` in
-- src/bin/console/console.cpp write them, `parse_mem_blk_file` in myscripts/isolate_hash.cpp reads
-- them.

namespace Hyrise

open CXL (split readDigits isSpace)

-- A pointer is written in hexadecimal with `0x` in front, unless it is null.
def pointerText (addr : Nat) : List Char :=
  if addr = 0 then ['0'] else hexText addr

-- A place in memory.
structure Range where
  start : Nat
  size  : Nat
  fits  : start + size < 2 ^ 64

inductive DataType
  | int | long | float | double
  deriving DecidableEq, Repr

def DataType.sizeof : DataType → Nat
  | int | float   => 4
  | long | double => 8

def DataType.name : DataType → List Char
  | int    => "Int".toList
  | long   => "Long".toList
  | float  => "Float".toList
  | double => "Double".toList

-- `FixedWidthIntegerVector<T>`.
inductive VectorType
  | uint8 | uint16 | uint32
  deriving DecidableEq, Repr

def VectorType.sizeof : VectorType → Nat
  | uint8  => 1
  | uint16 => 2
  | uint32 => 4

def VectorType.name : VectorType → List Char
  | uint8  => "UINT8".toList
  | uint16 => "UINT16".toList
  | uint32 => "UINT32".toList

-- An array of `count` values at `data`.
structure Values (sizeof : Nat) where
  data  : Nat
  count : Nat
  fits  : data + count * sizeof < 2 ^ 64

def Values.range {sizeof : Nat} (v : Values sizeof) : Range where
  start := v.data
  size  := v.count * sizeof
  fits  := v.fits

-- The dictionary of strings is written string by string.
inductive Dictionary
  | values (type : DataType) (v : Values type.sizeof)
  | strings (rs : List Range)

structure AttributeVector where
  type   : VectorType
  values : Values type.sizeof

-- None of the characters at which the reader cuts.
def Plain (name : List Char) : Prop :=
  ',' ∉ name ∧ ':' ∉ name ∧ '\n' ∉ name

instance (name : List Char) : Decidable (Plain name) :=
  inferInstanceAs (Decidable (_ ∧ _))

-- A dictionary segment and where it belongs. Of the column the console only knows the name.
structure Segment where
  tableName  : List Char
  chunkId    : Nat
  column     : Column
  dictionary : Dictionary
  vector     : AttributeVector
  plain      : Plain tableName
  chunk_lt   : chunkId < 2 ^ 32

def headerLine (tableName : List Char) (chunkId : Nat) (columnName : List Char) : List Char :=
  "Table: ".toList ++ (tableName ++ ',' :: (" Chunk: ".toList ++ (decText chunkId ++
    ',' :: (" Column: ".toList ++ columnName))))

-- `std::dec << name << i << "(" << size << "): " << std::hex << start`.
def rangeLine (name : List Char) (i : Nat) (r : Range) : List Char :=
  name ++ ' ' :: (decText i ++ '(' :: (decText r.size ++ ')' :: ':' :: ' ' :: pointerText r.start))

def Dictionary.lines : Dictionary → List (List Char)
  | values type v => [rangeLine type.name 0 v.range]
  | strings rs    => rs.mapIdx fun i r => rangeLine "String".toList i r

def Dictionary.ranges : Dictionary → List Range
  | values _ v => [v.range]
  | strings rs => rs

def AttributeVector.line (v : AttributeVector) : List Char :=
  rangeLine v.type.name 0 v.values.range

def Segment.lines (s : Segment) : List (List Char) :=
  headerLine s.tableName s.chunkId s.column.name.toList :: "-----".toList :: s.dictionary.lines ++
    ["VEC".toList, "-----".toList, s.vector.line]

def Segment.ranges (s : Segment) : List Range :=
  s.dictionary.ranges ++ [s.vector.values.range]

-- The file that `_seg` writes.
def memBlkText (segments : List Segment) : List Char :=
  unlines (segments.flatMap Segment.lines)

def isBlank (c : Char) : Bool :=
  c = ' ' || c = '\t' || c = '\n' || c = '\r'

def trim (s : List Char) : List Char :=
  (s.dropWhile isBlank).rdropWhile isBlank

-- What `strtoull` and `strtol` make of a text in base 10: the sign and the value of the digits.
def readDecimal (s : List Char) : Option (Bool × Nat) :=
  let (negative, s) := match s.dropWhile isSpace with
    | '-' :: s => (true, s)
    | '+' :: s => (false, s)
    | s        => (false, s)
  let digits := readDigits 10 s
  if digits.isEmpty then none else some (negative, digits.foldl (· * 10 + ·) 0)

-- `std::stoull(s)`.
def stoull10 (s : List Char) : Script Nat :=
  match readDecimal s with
  | none                   => .error .stoullException
  | some (negative, value) =>
    if value ≥ 2 ^ 64 then .error .stoullException
    else .ok (if negative then (2 ^ 64 - value) % 2 ^ 64 else value)

-- `static_cast<uint8_t>(std::stoi(s))`.
def stoiU8 (s : List Char) : Script UInt8 :=
  match readDecimal s with
  | none                   => .error .stoullException
  | some (negative, value) =>
    if value > 2 ^ 31 ∨ (value = 2 ^ 31 ∧ ¬negative) then .error .stoullException
    else .ok (if negative then -UInt8.ofNat value else UInt8.ofNat value)

-- What details.dat lists, and how.
structure Catalog where
  columns : List Column
  names   : (columns.map (·.name)).Nodup
  plain   : ∀ c ∈ columns, Plain c.name.toList ∧ trim c.name.toList = c.name.toList
  ids     : ∀ c ∈ columns, c.tableId < 256 ∧ c.columnId < 256

def Column.line (c : Column) : List Char :=
  c.name.toList ++ ',' :: (decText c.tableId ++ ',' :: decText c.columnId)

def Catalog.IsText (d : Catalog) (details : List Char) : Prop :=
  split '\n' details = d.columns.map Column.line

def Column.ids (c : Column) : UInt8 × UInt8 :=
  (UInt8.ofNat c.tableId, UInt8.ofNat c.columnId)

abbrev ColumnDetails :=
  AList fun _ : List Char => UInt8 × UInt8

def columnDetailsLine (m : ColumnDetails) (ln : List Char) : Script ColumnDetails :=
  match split ',' ln with
  | name :: tableId :: columnId :: _ => do
    return m.insert name (← stoiU8 tableId, ← stoiU8 columnId)
  | _ => .error .missingField

def parseColumnDetails (details : List Char) : Script ColumnDetails :=
  (split '\n' details).foldlM columnDetailsLine ∅

-- `hash_table_value`.
structure HashTableValue where
  startAddr : Nat
  endAddr   : Nat
  tableId   : UInt8
  chunkId   : Nat
  columnId  : UInt8
  deriving DecidableEq, Repr

-- The variables of `parse_mem_blk_file`. The chunk has no value before the first header.
structure MemBlk where
  addrTable : AList fun _ : Nat => HashTableValue := ∅
  ids       : UInt8 × UInt8 := (0, 0)
  chunkId   : Nat := 0

-- `splitString(s, delim)[i]`.
def field (delim : Char) (i : Nat) (s : List Char) : Script (List Char) :=
  match (split delim s)[i]? with
  | none   => .error .missingField
  | some w => .ok w

def memBlkHeader (details : ColumnDetails) (s : MemBlk) (ln : List Char) : Script MemBlk := do
  let columnName := trim (← field ':' 3 ln)
  let chunk ← field ',' 1 ln
  let chunkId ← stoull10 (trim (← field ':' 1 chunk))
  -- `operator[]` makes an entry of zeros for an unknown column.
  return { s with ids := (details.lookup columnName).getD (0, 0), chunkId }

def memBlkRange (s : MemBlk) (ln : List Char) : Script MemBlk := do
  let startAddr ← stoull16 (trim (← field ':' 1 ln))
  let name ← field ':' 0 ln
  let rest ← field '(' 1 name
  let size ← stoull10 (← field ')' 0 rest)
  return { s with addrTable := s.addrTable.insert startAddr {
    startAddr
    endAddr  := (startAddr + size) % 2 ^ 64
    tableId  := s.ids.1
    chunkId  := s.chunkId
    columnId := s.ids.2 } }

def memBlkLine (details : ColumnDetails) (s : MemBlk) (ln : List Char) : Script MemBlk :=
  if (find "Table".toList ln).isSome then
    memBlkHeader details s ln
  else if (find "-----".toList ln).isSome ∨ (find "VEC".toList ln).isSome then
    .ok s
  else
    memBlkRange s ln

def parseMemBlkFile (details text : List Char) : Script (AList fun _ : Nat => HashTableValue) := do
  let details ← parseColumnDetails details
  return (← (split '\n' text).foldlM (memBlkLine details) {}).addrTable

end Hyrise
