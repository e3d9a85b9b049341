import VldbArtifacts.CXLSim.System

-- The latency files (the end of src/Main.cpp) and the script that merges them (merge_results.py).
-- What the files hold are exact numbers here, not their decimal texts.

namespace CXL

-- A row of a latency file. The first column is 0 for the direct attached memory and 1 for the
-- devices. Only the rows of the devices have a last column.
structure ResultRow where
  kind    : Nat
  table   : Nat
  count   : Nat
  avg     : Rat
  avgDram : Option Rat

def CXLHost.resultRows {n : Nat} {cfg : Config n} (h : CXLHost cfg) : List ResultRow :=
  h.amatPerTableDam.inOrder.map (fun e => ⟨0, e.1, e.2.count, e.2.avg, none⟩) ++
  h.amatPerTableCxl.inOrder.map (fun e => ⟨1, e.1, e.2.count, e.2.avg, some e.2.avgDram⟩)

-- The variables of merge_results.py.
@[ext]
structure MergedResults where
  totalAccesses : Nat := 0
  finalAvg      : Rat := 0
  cxlAccesses   : Nat := 0
  damAccesses   : Nat := 0

-- A round of the loop over the rows, `none` for a division by zero.
def MergedResults.addRow (r : MergedResults) (row : ResultRow) : Option MergedResults :=
  let r := if row.kind = 1 then { r with cxlAccesses := r.cxlAccesses + row.count }
    else { r with damAccesses := r.damAccesses + row.count }
  if r.totalAccesses + row.count = 0 then
    none
  else
    some { r with
      finalAvg      := (r.finalAvg * r.totalAccesses + row.count * row.avg) /
        (r.totalAccesses + row.count)
      totalAccesses := r.totalAccesses + row.count }

def mergeResults (files : List (List ResultRow)) : Option MergedResults :=
  files.foldlM (fun r rows => rows.foldlM MergedResults.addRow r) {}

end CXL
