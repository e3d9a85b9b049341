import VldbArtifacts.Lib.Framing

-- The receiver of a stream of frames. It keeps the header whose data it is waiting for, and records the
-- messages without data and the headers together with their data.

namespace Framing

variable {α β : Type}

namespace Cell

def single? : Cell α β → Option α
  | single a => some a
  | _        => none

def hdr? : Cell α β → Option α
  | hdr a => some a
  | _     => none

def isData : Cell α β → Bool
  | data _ => true
  | _      => false

end Cell

namespace Frame

variable (mark : α → β) (fr : Frame α)

theorem filterMap_single_cells : (fr.cells mark).filterMap Cell.single? = fr.singles := by
  have hb : (fr.body mark).filterMap Cell.single? = fr.singles := by
    unfold body
    cases fr.hdr <;> simp [Cell.single?, Function.comp_def]
  conv_rhs => rw [← hb, ← List.take_append_drop 1 (fr.body mark)]
  simp [cells, Cell.single?]

theorem filterMap_hdr_cells : (fr.cells mark).filterMap Cell.hdr? = fr.hdr.toList := by
  have hb : (fr.body mark).filterMap Cell.hdr? = fr.hdr.toList := by
    unfold body
    cases fr.hdr <;> simp [Cell.hdr?, Function.comp_def]
  conv_rhs => rw [← hb, ← List.take_append_drop 1 (fr.body mark)]
  simp [cells, Cell.hdr?]

-- What is owed after the frame is what was owed before it and the data of its header, without the data
-- that it carries.
theorem countP_data_cells (hv : fr.Valid) : (fr.cells mark).countP Cell.isData + fr.nextOwed =
    fr.owed + 4 * fr.hdr.toList.length := by
  have hf := hv.fits
  have hs : (fr.singles.map (Cell.single : α → Cell α β)).countP Cell.isData = 0 := by
    simp [List.countP_eq_zero, Cell.isData]
  have hb : (fr.body mark).countP Cell.isData + fr.nextOwed = 4 * fr.hdr.toList.length := by
    unfold body nextOwed
    rw [List.countP_append, hs]
    cases hh : fr.hdr <;> simp [hh, Cell.isData, List.countP_replicate] at hf ⊢
    omega
  have hc : (fr.cells mark).countP Cell.isData = fr.owed + (fr.body mark).countP Cell.isData := by
    rw [(cells_perm mark fr).countP_eq, List.countP_append, List.countP_replicate]
    rfl
  omega

end Frame

@[ext]
structure Deframer (α β : Type) where
  owed    : Nat
  last    : α
  ids     : List β
  singles : List α
  hdrs    : List (α × List β)

namespace Deframer

-- The header whose data has not arrived yet.
def pending (r : Deframer α β) : List α :=
  if r.owed = 0 then [] else [r.last]

def consume (r : Deframer α β) (b : β) : Deframer α β :=
  if r.owed = 1 then
    { r with owed := 0, ids := r.ids ++ [b], hdrs := r.hdrs ++ [(r.last, r.ids ++ [b])] }
  else
    { r with owed := r.owed - 1, ids := r.ids ++ [b] }

def receive (r : Deframer α β) : Cell α β → Option (Deframer α β)
  | .single a => some { r with singles := r.singles ++ [a] }
  | .hdr a    => if r.owed = 0 then some { r with owed := 4, last := a, ids := [] } else none
  | .data b   => if r.owed = 0 then none else some (r.consume b)
  | .blank    => some r

-- The data that is owed is read before everything else in a frame.
def front : Nat → List (Cell α β) → List (Cell α β)
  | 0, _                => []
  | _ + 1, []           => []
  | k + 1, .data b :: cs => .data b :: front k cs
  | k + 1, _ :: cs       => front (k + 1) cs

def back : Nat → List (Cell α β) → List (Cell α β)
  | 0, cs                => cs
  | _ + 1, []            => []
  | k + 1, .data _ :: cs => .blank :: back k cs
  | k + 1, c :: cs       => c :: back (k + 1) cs

def receiveAll (r : Deframer α β) (cs : List (Cell α β)) : Option (Deframer α β) :=
  cs.foldlM receive r

def receiveFrame (r : Deframer α β) (cs : List (Cell α β)) : Option (Deframer α β) :=
  r.receiveAll (front r.owed cs ++ back r.owed cs)

section Front

variable {k : Nat} {cs : List (Cell α β)}

theorem filterMap_single_front : (front k cs).filterMap Cell.single? = [] := by
  fun_induction front k cs <;> simp_all [Cell.single?]

theorem filterMap_hdr_front : (front k cs).filterMap Cell.hdr? = [] := by
  fun_induction front k cs <;> simp_all [Cell.hdr?]

theorem filterMap_single_back : (back k cs).filterMap Cell.single? = cs.filterMap Cell.single? := by
  fun_induction back k cs <;> simp_all [Cell.single?, List.filterMap_cons]

theorem filterMap_hdr_back : (back k cs).filterMap Cell.hdr? = cs.filterMap Cell.hdr? := by
  fun_induction back k cs <;> simp_all [Cell.hdr?, List.filterMap_cons]

theorem countP_front_add_back (k : Nat) (cs : List (Cell α β)) :
    (front k cs).countP Cell.isData + (back k cs).countP Cell.isData = cs.countP Cell.isData := by
  fun_induction back k cs <;> simp_all [front, Cell.isData, List.countP_cons]; omega

end Front

-- What has arrived after the cells, whether or not they are those of frames.
structure Received (r : Deframer α β) (cs : List (Cell α β)) (r' : Deframer α β) : Prop where
  singles : r'.singles = r.singles ++ cs.filterMap Cell.single?
  hdrs    : r'.hdrs.map Prod.fst ++ r'.pending =
              r.hdrs.map Prod.fst ++ r.pending ++ cs.filterMap Cell.hdr?
  data    : r'.owed + cs.countP Cell.isData = r.owed + 4 * (cs.filterMap Cell.hdr?).length
  log     : r.hdrs <+: r'.hdrs

variable {r r' : Deframer α β}

theorem consume_received {b : β} (h : r.owed ≠ 0) : r.Received [.data b] (r.consume b) := by
  unfold consume
  split
  case isTrue h₁ =>
    refine ⟨?_, ?_, ?_, ?_⟩ <;> simp [pending, h₁, Cell.single?, Cell.hdr?, Cell.isData, List.filterMap_cons]
  case isFalse h₁ =>
    have : r.owed - 1 ≠ 0 := by omega
    refine ⟨?_, ?_, ?_, ?_⟩ <;> simp [pending, h, this, Cell.single?, Cell.hdr?, Cell.isData, List.filterMap_cons]
    omega

theorem receive_received {c : Cell α β} (h : r.receive c = some r') : r.Received [c] r' := by
  cases c
  case single a =>
    cases h
    refine ⟨?_, ?_, ?_, ?_⟩ <;> simp [pending, Cell.single?, Cell.hdr?, Cell.isData, List.filterMap_cons]
  case hdr a =>
    simp only [receive, Option.ite_none_right_eq_some] at h
    obtain ⟨h₀, ⟨⟩⟩ := h
    refine ⟨?_, ?_, ?_, ?_⟩ <;> simp [pending, h₀, Cell.single?, Cell.hdr?, Cell.isData, List.filterMap_cons]
  case data b =>
    simp only [receive, Option.ite_none_left_eq_some] at h
    obtain ⟨h₀, ⟨⟩⟩ := h
    exact consume_received h₀
  case blank =>
    cases h
    refine ⟨?_, ?_, ?_, ?_⟩ <;> simp [Cell.single?, Cell.hdr?, Cell.isData, List.filterMap_cons]

theorem receiveAll_received {cs : List (Cell α β)} (h : r.receiveAll cs = some r') :
    r.Received cs r' := by
  induction cs generalizing r
  case nil =>
    cases h
    refine ⟨?_, ?_, ?_, ?_⟩ <;> simp
  case cons c cs ih =>
    simp only [receiveAll, List.foldlM_cons, Option.bind_eq_bind, Option.bind_eq_some_iff] at h
    have ⟨r₁, h₁, h₂⟩ := h
    have hc := receive_received h₁
    have hr := ih h₂
    rw [← List.singleton_append]
    constructor
    case singles => rw [hr.singles, hc.singles, List.filterMap_append, List.append_assoc]
    case hdrs    => rw [hr.hdrs, hc.hdrs, List.filterMap_append, List.append_assoc _ _ (cs.filterMap _)]
    case data    =>
      have := hr.data
      have := hc.data
      rw [List.countP_append, List.filterMap_append, List.length_append]
      omega
    case log     => exact hc.log.trans hr.log

theorem receiveFrame_received {cs : List (Cell α β)} (h : r.receiveFrame cs = some r') :
    r.Received cs r' := by
  have hr := receiveAll_received h
  refine ⟨?_, ?_, ?_, hr.log⟩
  case _ => simpa [filterMap_single_front, filterMap_single_back] using hr.singles
  case _ => simpa [filterMap_hdr_front, filterMap_hdr_back] using hr.hdrs
  case _ =>
    have hd := hr.data
    rwa [List.countP_append, countP_front_add_back, List.filterMap_append, filterMap_hdr_front,
      filterMap_hdr_back, List.nil_append] at hd

-- All the data that is owed has arrived.
def finish (r : Deframer α β) (b : β) : Deframer α β :=
  if r.owed = 0 then r
  else
    let ids := r.ids ++ List.replicate r.owed b
    { r with owed := 0, ids, hdrs := r.hdrs ++ [(r.last, ids)] }

def addSingles (r : Deframer α β) (as : List α) : Deframer α β :=
  { r with singles := r.singles ++ as }

-- The receiver after a frame that carries the data it is waiting for.
def deliver (mark : α → β) (r : Deframer α β) (fr : Frame α) : Deframer α β :=
  let r := (r.finish (mark fr.last)).addSingles fr.singles
  match fr.hdr with
  | none   => r
  | some a => { r with
      owed := fr.nextOwed, last := a, ids := List.replicate (4 - fr.nextOwed) (mark a) }

theorem receiveAll_append (r : Deframer α β) (cs cs' : List (Cell α β)) :
    r.receiveAll (cs ++ cs') = r.receiveAll cs >>= fun r => r.receiveAll cs' :=
  List.foldlM_append ..

theorem receiveAll_data {k : Nat} (b : β) (h : k < r.owed) :
    r.receiveAll (List.replicate k (.data b)) =
      some { r with owed := r.owed - k, ids := r.ids ++ List.replicate k b } := by
  induction k generalizing r
  case zero => simp [receiveAll]
  case succ k ih =>
    have h₀ : r.owed ≠ 0 := by omega
    have h₁ : r.owed ≠ 1 := by omega
    have hk : k < (r.consume b).owed := by simp [consume, h₁]; omega
    rw [List.replicate_succ, receiveAll, List.foldlM_cons, receive, if_neg h₀]
    refine (ih hk).trans ?_
    simp [consume, h₁, List.replicate_succ, Nat.sub_sub, Nat.add_comm]

theorem receiveAll_finish (r : Deframer α β) (b : β) :
    r.receiveAll (List.replicate r.owed (.data b)) = some (r.finish b) := by
  unfold finish
  cases ho : r.owed
  case zero => rfl
  case succ k =>
    rw [List.replicate_succ', receiveAll_append, receiveAll_data b (by omega)]
    simp [receiveAll, receive, consume, ho, List.replicate_succ', List.append_assoc]

theorem receiveAll_singles (r : Deframer α β) (as : List α) :
    r.receiveAll (as.map .single) = some (r.addSingles as) := by
  induction as generalizing r
  case nil => simp [receiveAll, addSingles]
  case cons a as ih =>
    simpa [addSingles, receiveAll, receive] using ih { r with singles := r.singles ++ [a] }

theorem receiveAll_blank (r : Deframer α β) (k : Nat) :
    r.receiveAll (List.replicate k .blank) = some r := by
  induction k
  case zero      => rfl
  case succ k ih => simpa [List.replicate_succ, receiveAll, receive] using ih

theorem receiveAll_body (mark : α → β) (fr : Frame α) (hv : fr.Valid) (h : r.owed = 0) :
    r.receiveAll (fr.body mark) = some (match fr.hdr with
      | none   => r.addSingles fr.singles
      | some a => { r.addSingles fr.singles with
          owed := fr.nextOwed, last := a, ids := List.replicate (4 - fr.nextOwed) (mark a) }) := by
  have hf := hv.fits
  unfold Frame.body
  rw [receiveAll_append, receiveAll_singles, Option.bind_eq_bind, Option.bind_some]
  cases hh : fr.hdr
  case none => exact receiveAll_blank _ _
  case some a =>
    have h₀ : (r.addSingles fr.singles).owed = 0 := h
    simp only [receiveAll, List.foldlM_cons, receive, h₀, ↓reduceIte]
    refine (receiveAll_data _ (by simp; omega)).trans ?_
    simp only [hh, Option.toList_some, List.length_singleton] at hf
    simp [Frame.nextOwed, hh]
    omega

theorem front_data (k : Nat) (b : β) (cs : List (Cell α β)) :
    front k (List.replicate k (.data b) ++ cs) = List.replicate k (.data b) := by
  induction k
  case zero      => simp [front]
  case succ k ih => simp [List.replicate_succ, front, ih]

theorem back_data (k : Nat) (b : β) (cs : List (Cell α β)) :
    back k (List.replicate k (.data b) ++ cs) = List.replicate k .blank ++ cs := by
  induction k
  case zero      => simp [back]
  case succ k ih => simp [List.replicate_succ, back, ih]

theorem front_skip (k : Nat) {c : Cell α β} (cs : List (Cell α β)) (h : c.isData = false) :
    front k (c :: cs) = front k cs := by
  cases k <;> cases c <;> simp_all [front, Cell.isData]

theorem back_skip (k : Nat) {c : Cell α β} (cs : List (Cell α β)) (h : c.isData = false) :
    back k (c :: cs) = c :: back k cs := by
  cases k <;> cases c <;> simp_all [back, Cell.isData]

-- The first cell of the body stands before the data that is owed. It is not data itself.
theorem head?_body_isData (mark : α → β) (fr : Frame α) :
    ∀ c ∈ (fr.body mark).head?, c.isData = false := by
  intro c hc
  unfold Frame.body at hc
  cases hs : fr.singles
  case cons a as =>
    simp only [hs, List.map_cons, List.cons_append, List.head?_cons, Option.mem_some_iff] at hc
    simp [← hc, Cell.isData]
  case nil =>
    cases hh : fr.hdr
    case none =>
      simp only [hs, hh, List.map_nil, List.nil_append] at hc
      have := List.eq_of_mem_replicate (List.mem_of_mem_head? hc)
      simp [this, Cell.isData]
    case some a =>
      simp only [hs, hh, List.map_nil, List.nil_append, List.head?_cons, Option.mem_some_iff] at hc
      simp [← hc, Cell.isData]

theorem receiveAll_skip_blank (r : Deframer α β) (k : Nat) (cs cs' : List (Cell α β)) :
    r.receiveAll (cs ++ (List.replicate k .blank ++ cs')) = r.receiveAll (cs ++ cs') := by
  rw [receiveAll_append, receiveAll_append r cs]
  congr 1
  funext r'
  rw [receiveAll_append, receiveAll_blank]
  rfl

theorem receiveFrame_cells (mark : α → β) {fr : Frame α} (hv : fr.Valid) (h : r.owed = fr.owed) :
    r.receiveFrame (fr.cells mark) = some (r.deliver mark fr) := by
  have hd := head?_body_isData mark fr
  have h₀ : (r.finish (mark fr.last)).owed = 0 := by unfold finish; split <;> simp_all
  have hf : r.receiveFrame (fr.cells mark) =
      (r.finish (mark fr.last)).receiveAll (fr.body mark) := by
    unfold receiveFrame Frame.cells
    generalize fr.body mark = body at hd ⊢
    rw [← h, ← Option.bind_some (r.finish _) (receiveAll · body), ← receiveAll_finish]
    cases body
    case nil =>
      simp only [List.take_nil, List.drop_nil, List.nil_append, front_data, back_data]
      rw [receiveAll_append]
      congr 1
      funext r'
      exact receiveAll_skip_blank r' _ [] []
    case cons c cs =>
      have hc := hd c (by simp)
      simp only [List.take_succ_cons, List.take_zero, List.drop_succ_cons, List.drop_zero,
        List.cons_append, List.nil_append, front_skip _ _ hc, back_skip _ _ hc, front_data, back_data]
      rw [receiveAll_append]
      congr 1
      funext r'
      exact receiveAll_skip_blank r' _ [c] cs
  rw [hf, receiveAll_body mark fr hv h₀]
  unfold deliver
  cases fr.hdr <;> rfl

end Deframer

end Framing
