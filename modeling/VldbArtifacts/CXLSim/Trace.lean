import VldbArtifacts.CXLSim.Buf

-- Reading the trace file (`split` and the end of `CXLHost::text_to_trace` in src/CXLHost.cpp, and what
-- they use of the standard library). A text is the list of its characters.

namespace CXL

-- `std::getline`: the characters up to the delimiter, which is dropped, and the rest. It fails if there
-- is nothing left to extract.
def getline (delim : Char) : List Char → Option (List Char × List Char)
  | []      => none
  | c :: cs =>
    if c = delim then
      some ([], cs)
    else
      match getline delim cs with
      | none            => some ([c], [])
      | some (ln, rest) => some (c :: ln, rest)

-- Repeated `getline`, so that a delimiter at the end of the text does not start another word.
def split (delim : Char) : List Char → List (List Char)
  | []      => []
  | c :: cs =>
    if c = delim then
      [] :: split delim cs
    else
      match split delim cs with
      | []      => [[c]]
      | w :: ws => (c :: w) :: ws

def isSpace (c : Char) : Bool :=
  c = ' ' || ('\t' ≤ c && c ≤ '\r')

def digitValue (c : Char) : Option Nat :=
  if '0' ≤ c ∧ c ≤ '9' then some (c.toNat - '0'.toNat)
  else if 'a' ≤ c ∧ c ≤ 'z' then some (c.toNat - 'a'.toNat + 10)
  else if 'A' ≤ c ∧ c ≤ 'Z' then some (c.toNat - 'A'.toNat + 10)
  else none

-- The values of the longest run of digits at the start of the text.
def readDigits (base : Nat) : List Char → List Nat
  | []      => []
  | c :: cs =>
    match digitValue c with
    | none   => []
    | some d => if d < base then d :: readDigits base cs else []

-- The base and the text it applies to, when `strtoul` is called with base 0.
def detectBase : List Char → Nat × List Char
  | '0' :: x :: c :: cs =>
    if (x = 'x' ∨ x = 'X') ∧ (digitValue c).any (· < 16) then (16, c :: cs)
    else (8, '0' :: x :: c :: cs)
  | '0' :: cs => (8, '0' :: cs)
  | cs        => (10, cs)

-- `std::stoul(s, NULL, 0)`. It throws if there is no number or if the number does not fit.
def stoul (s : List Char) : Sim Nat :=
  let (negative, s) := match s.dropWhile isSpace with
    | '-' :: s => (true, s)
    | '+' :: s => (false, s)
    | s        => (false, s)
  let (base, s) := detectBase s
  let digits := readDigits base s
  let value  := digits.foldl (· * base + ·) 0
  if digits.isEmpty ∨ value ≥ 2 ^ 64 then
    .error .stoulException
  else
    .ok (if negative then (2 ^ 64 - value) % 2 ^ 64 else value)

-- A line of the trace: the type of the access, its address and the number of instructions before it.
def parseLine (s : List Char) : Sim (Opcode × Nat × Nat) :=
  match split ' ' s with
  | [w₀, w₁, w₂] => do
    let addr ← stoul w₀
    let opCode ← if w₁ = ['R'] then .ok .req
      else if w₁ = ['W'] then .ok .rwd
      else .error .illegalOpcode
    let clkInterval ← stoul w₂
    return (opCode, addr, clkInterval)
  | _ => .error .incorrectStringSplitting

end CXL
