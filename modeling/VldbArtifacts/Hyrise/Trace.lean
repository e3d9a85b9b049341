import VldbArtifacts.CXLSim.Trace

-- The traces that the scripts of hyrise/myscripts read and write. A file is the list of its characters.

namespace Hyrise

open CXL (split digitValue readDigits isSpace)

-- The ways in which a script ends before it is done: an exception of `stoull`, an access behind the end of
-- a vector, the exceptions of Python, and a call of `exit`. The last one is none of the code.
inductive Failure
  | stoullException | missingField | valueError | keyError | indexError | attributeError
  | arithmeticError | exit | outOfFuel
  deriving DecidableEq, Repr

abbrev Script := Except Failure

inductive AccessType
  | R | W
  deriving DecidableEq, Repr

def AccessType.text : AccessType → List Char
  | R => ['R']
  | W => ['W']

-- A line of a trace of the simulator.
structure Access where
  addr : Nat
  type : AccessType
  gap  : Nat
  deriving DecidableEq, Repr

def hexText (n : Nat) : List Char :=
  '0' :: 'x' :: Nat.toDigits 16 n

def decText (n : Nat) : List Char :=
  Nat.toDigits 10 n

def Access.words (a : Access) : List Char :=
  a.type.text ++ ' ' :: decText a.gap

def Access.line (a : Access) : List Char :=
  hexText a.addr ++ ' ' :: a.words

-- A line of a roitrace.csv: `%d,R,0x%lx,%d` in source/tools/Memory/dcache_hyrise.cpp.
structure RoiAccess extends Access where
  size : Nat
  deriving DecidableEq, Repr

def RoiAccess.line (a : RoiAccess) : List Char :=
  decText a.gap ++ ',' :: (a.type.text ++ ',' :: (hexText a.addr ++ ',' :: decText a.size))

-- A file with a newline at the end of each line.
def unlines (ls : List (List Char)) : List Char :=
  ls.flatMap (· ++ ['\n'])

-- `std::stoull(s, nullptr, 16)`.
def stoull16 (s : List Char) : Script Nat :=
  let (negative, s) := match s.dropWhile isSpace with
    | '-' :: s => (true, s)
    | '+' :: s => (false, s)
    | s        => (false, s)
  let s := match s with
    | '0' :: x :: c :: cs =>
      if (x = 'x' ∨ x = 'X') ∧ (digitValue c).any (· < 16) then c :: cs else '0' :: x :: c :: cs
    | s => s
  let digits := readDigits 16 s
  let value  := digits.foldl (· * 16 + ·) 0
  if digits.isEmpty ∨ value ≥ 2 ^ 64 then
    .error .stoullException
  else
    .ok (if negative then (2 ^ 64 - value) % 2 ^ 64 else value)

-- `int(s, base)` of Python on a text of digits.
def pyInt (base : Nat) (s : List Char) : Script Nat :=
  match s.mapM digitValue with
  | none    => .error .valueError
  | some ds =>
    if ds = [] ∨ ∃ d ∈ ds, base ≤ d then .error .valueError else .ok (ds.foldl (· * base + ·) 0)

-- A line of details.dat or job_columns.dat.
structure Column where
  name     : String
  tableId  : Nat
  columnId : Nat
  deriving DecidableEq, Repr

end Hyrise
