import VldbArtifacts.Ramulator.Protocol
import VldbArtifacts.Ramulator.Theorems.DRAM

-- The tables of a controller are what the trace of its commands says: the timing of each node, the open row
-- of each bank and the row table.

namespace Ramulator

open DDR4 DRAM

section RowTable

variable {t : RowTable} {group group' : List Int}

namespace RowTable

theorem find_insert_self {e : Entry} (h : t.find group = none) : (t.insert group e).find group = some e := by
  rw [insert, if_neg (by simp [h])]
  simp [find]

theorem find_insert_of_ne {e : Entry} (h : group' ≠ group) : (t.insert group e).find group' = t.find group' := by
  unfold insert
  split
  case isTrue  => rfl
  case isFalse => simp [find, Ne.symm h]

theorem find_modify {f : Entry → Entry} :
    (t.modify group f).find group' = (t.find group').map fun e => if group' = group then f e else e := by
  have hfun : (fun x : List Int × Entry => decide ((if x.1 = group then (x.1, f x.2) else (x.1, x.2)).1 = group')) =
      fun x => decide (x.1 = group') := by
    funext x
    split <;> rfl
  simp only [find, modify, List.find?_map, Function.comp_def, hfun]
  cases h : t.table.find? fun x => decide (x.1 = group')
  case none => rfl
  case some x =>
    obtain rfl : x.1 = group' := by simpa using List.find?_some h
    by_cases hx : x.1 = group <;> simp [hx]

theorem find_filter {p : List Int → Bool} :
    (RowTable.mk (t.table.filter fun x => p x.1)).find group = if p group then t.find group else none := by
  simp only [find, List.find?_filter]
  by_cases hp : p group
  case pos =>
    have hfun : (fun x : List Int × Entry => p x.1 && decide (x.1 = group)) = fun x => decide (x.1 = group) := by
      funext x
      by_cases hx : x.1 = group <;> simp [hx, hp]
    simp [hp, hfun]
  case neg =>
    have hnone : t.table.find? (fun x => p x.1 && decide (x.1 = group)) = none := by
      rw [List.find?_eq_none]
      intro x _
      by_cases hx : x.1 = group <;> simp [hx, hp]
    simp [hp, hnone]

theorem length_filter_ne {p : List Int → Bool} {e : Entry} (h : t.find group = some e) (hp : p group = false) :
    (t.table.filter fun x => p x.1).length ≠ t.table.length := by
  intro hlen
  simp only [find, Option.map_eq_some_iff] at h
  obtain ⟨x, hx, -⟩ := h
  have hall := List.length_filter_eq_length_iff.mp hlen x (List.mem_of_find?_eq_some hx)
  have hgroup : x.1 = group := by simpa using List.find?_some hx
  rw [hgroup, hp] at hall
  cases hall

-- The rows that are closed are those of the banks in the scope of the command.
theorem update_of_closing {cmd : Command} (hc : cmd = .pre ∨ cmd = .prea) (addr : AddrVec) (clk : Int) {e : Entry}
    (h : t.find group = some e) (hg : addr.take ((scope cmd).toNat + 1) = group.take ((scope cmd).toNat + 1)) :
    ∃ t', t.update cmd addr clk = .ok t' ∧ ∀ bank, t'.find bank =
      if addr.take ((scope cmd).toNat + 1) ≠ bank.take ((scope cmd).toNat + 1) then t.find bank else none := by
  let p (g : List Int) : Bool := addr.take ((scope cmd).toNat + 1) ≠ g.take ((scope cmd).toNat + 1)
  have hne : (t.table.filter fun x => p x.1).length ≠ t.table.length := length_filter_ne h (by simp [p, hg])
  refine ⟨⟨t.table.filter fun x => p x.1⟩, ?_, ?_⟩
  case refine_1 =>
    have hacc : isAccessing cmd = false := by rcases hc with rfl | rfl <;> rfl
    have hclose : t.close cmd addr = .ok ⟨t.table.filter fun x => p x.1⟩ := by
      simp only [close, hacc, Bool.false_eq_true, ↓reduceIte]
      exact if_neg hne
    rw [← hclose]
    rcases hc with rfl | rfl <;> rfl
  case refine_2 =>
    intro bank
    rw [find_filter]
    simp [p]

end RowTable

end RowTable

-- The address of a bank of the `k`-th channel, and that of a rank.
def OfBank (spec : DDR4) (k : Nat) (addr : AddrVec) : Prop :=
  ∃ (r g b : Nat) (row col : Int), addr = [(k : Int), r, g, b, row, col] ∧ InRange spec 3 [r, g, b]

def OfRank (spec : DDR4) (k : Nat) (addr : AddrVec) : Prop :=
  ∃ (r : Nat) (rest : List Int), addr = (k : Int) :: r :: rest ∧ InRange spec 3 [r]

theorem OfBank.ofRank {spec : DDR4} {k : Nat} {addr : AddrVec} (h : OfBank spec k addr) : OfRank spec k addr := by
  obtain ⟨r, g, b, row, col, rfl, hr, -⟩ := h
  exact ⟨r, _, rfl, hr, trivial⟩

-- The commands of a trace as a node sees them.
def events (q : List Nat) (is : List Issue) : List (Timing.Event Command) :=
  is.filterMap fun i => event? q i.addr i.cmd i.clk

-- What a node counts of the requests that are being served.
def Node.serving (n : Node) : Int × Int :=
  (n.curServingRequests, n.beginOfServing)

-- The state of a bank in which a row is open, or none.
def bankStateOf (row : Option Int) : BankState × List Int :=
  match row with
  | none     => (.closed, [])
  | some row => (.opened, [row])

structure Tracks (spec : DDR4) (k : Nat) (is : List Issue) (d : DRAM 3) (t : RowTable) : Prop where
  shape : ∀ p, (d.node? p).map Node.id = ((DRAM.new spec 3 k).node? p).map Node.id
  clock : ∀ p n, d.node? p = some n →
            n.clock = .after (spec.timing (level (3 - p.length))) (events (k :: p) is)
  up    : ∀ r n, d.node? [r] = some n → n.rankState = .powerUp
  bank  : ∀ r g b n, d.node? [r, g, b] = some n →
            (n.bankState, n.rowState) = bankStateOf (Issue.openRow [(k : Int), r, g, b] is)
  table : ∀ bank, (t.find bank).map (·.row) = Issue.openRow bank is
  range : ∀ bank, Issue.openRow bank is ≠ none →
            ∃ r g b : Nat, bank = [(k : Int), r, g, b] ∧ InRange spec 3 [r, g, b]
  time  : ∀ i ∈ is, 0 ≤ i.clk

-- A command that can be issued is tracked, and leaves the requests that are being served alone.
def CanIssue (spec : DDR4) (k : Nat) (is : List Issue) (d : DRAM 3) (t : RowTable) (i : Issue) : Prop :=
  ∃ t', t.update i.cmd i.addr i.clk = .ok t' ∧ Tracks spec k (i :: is) (d.update spec i.cmd i.addr i.clk) t' ∧
    ∀ p, ((d.update spec i.cmd i.addr i.clk).node? p).map Node.serving = (d.node? p).map Node.serving

namespace Tracks

variable {spec : DDR4} {k : Nat} {is : List Issue} {d : DRAM 3} {t : RowTable}

theorem new : Tracks spec k [] (DRAM.new spec 3 k) {} where
  shape _ := rfl
  clock p n hn := by rw [node?_new spec hn]; rfl
  up r n hn := by rw [node?_new spec hn]
  bank r g b n hn := by rw [node?_new spec hn]; rfl
  table _ := rfl
  range _ h := absurd rfl h
  time := by simp

theorem isSome_iff (h : Tracks spec k is d t) (p : List Nat) : (d.node? p).isSome ↔ InRange spec 3 p := by
  rw [← isSome_node?_new spec k p, ← Option.isSome_map (f := Node.id), h.shape p, Option.isSome_map]

theorem exists_node (h : Tracks spec k is d t) {p : List Nat} (hp : InRange spec 3 p) : ∃ n, d.node? p = some n :=
  Option.isSome_iff_exists.mp ((h.isSome_iff p).mpr hp)

theorem id_eq (h : Tracks spec k is d t) {p : List Nat} {n : Node} (hn : d.node? p = some n) :
    n.id = (k :: p).getLast (by simp) := by
  have hs := h.shape p
  rw [hn, Option.map_some, eq_comm, Option.map_eq_some_iff] at hs
  obtain ⟨n', hn', hid⟩ := hs
  rw [← hid, node?_new spec hn']

theorem hasIds (h : Tracks spec k is d t) : d.HasIds := by
  intro p i n hn
  rw [h.id_eq hn]
  simp

theorem id_channel (h : Tracks spec k is d t) : d.node.id = k :=
  h.id_eq (node?_nil d)

-- The tables of requests that are being served are apart from what is tracked.
theorem of_core (h : Tracks spec k is d t) {d' : DRAM 3} {f : List Nat → Node → Node}
    (hd : ∀ p, d'.node? p = (d.node? p).map (f p))
    (hf : ∀ p n, (f p n).id = n.id ∧ (f p n).clock = n.clock ∧ (f p n).rankState = n.rankState ∧
      (f p n).bankState = n.bankState ∧ (f p n).rowState = n.rowState) :
    Tracks spec k is d' t where
  shape p := by
    rw [hd, Option.map_map, ← h.shape p]
    congr 1
    funext n
    exact (hf p n).1
  clock p n hn := by
    rw [hd, Option.map_eq_some_iff] at hn
    obtain ⟨m, hm, rfl⟩ := hn
    rw [(hf p m).2.1, h.clock p m hm]
  up r n hn := by
    rw [hd, Option.map_eq_some_iff] at hn
    obtain ⟨m, hm, rfl⟩ := hn
    rw [(hf [r] m).2.2.1, h.up r m hm]
  bank r g b n hn := by
    rw [hd, Option.map_eq_some_iff] at hn
    obtain ⟨m, hm, rfl⟩ := hn
    rw [(hf _ m).2.2.2.1, (hf _ m).2.2.2.2, h.bank r g b m hm]
  table := h.table
  range := h.range
  time  := h.time

-- What a command does to the state of the nodes, apart from the timing.
structure Effect (d : DRAM 3) (cmd : Command) (addr : AddrVec) (E : List Nat → Node → Node) : Prop where
  eq    : ∀ p, (d.updateState cmd addr).node? p = (d.node? p).map (E p)
  id    : ∀ p n, (E p n).id = n.id
  clock : ∀ p n, (E p n).clock = n.clock
  rank  : ∀ p n, (E p n).rankState = n.rankState
  serv  : ∀ p n, (E p n).serving = n.serving

section Step

variable {cmd : Command} {addr : AddrVec} {clk : Int} {E : List Nat → Node → Node}

theorem node?_update (h : Tracks spec k is d t) (hE : Effect d cmd addr E) (p : List Nat) :
    (d.update spec cmd addr clk).node? p = (d.node? p).map fun n =>
      { E p n with clock := (event? (k :: p) addr cmd clk).elim n.clock
                              (n.clock.step (spec.timing (level (3 - p.length)))) } := by
  have hids : (d.updateState cmd addr).HasIds := by
    intro p i n hn
    rw [hE.eq, Option.map_eq_some_iff] at hn
    obtain ⟨m, hm, rfl⟩ := hn
    rw [hE.id, h.hasIds p i m hm]
  have hid : (d.updateState cmd addr).node.id = k := by
    have hn := hE.eq []
    rw [node?_nil, node?_nil, Option.map_some, Option.some.injEq] at hn
    rw [hn, hE.id, h.id_channel]
  rw [update, node?_updateTiming spec le_rfl hids, hid, hE.eq, Option.map_map]
  simp [Function.comp_def, hE.clock]

-- A command is tracked if its effect on the banks and on the row table is.
theorem step (h : Tracks spec k is d t) (hE : Effect d cmd addr E) (hclk : 0 ≤ clk) {t' : RowTable}
    (ht : t.update cmd addr clk = .ok t')
    (hbank : ∀ r g b n, d.node? [r, g, b] = some n → ((E [r, g, b] n).bankState, (E [r, g, b] n).rowState) =
      bankStateOf (Issue.openRow [(k : Int), r, g, b] (⟨cmd, addr, clk⟩ :: is)))
    (htable : ∀ bank, (t'.find bank).map (·.row) = Issue.openRow bank (⟨cmd, addr, clk⟩ :: is))
    (hrange : ∀ bank, Issue.openRow bank (⟨cmd, addr, clk⟩ :: is) ≠ none →
      ∃ r g b : Nat, bank = [(k : Int), r, g, b] ∧ InRange spec 3 [r, g, b]) :
    CanIssue spec k is d t ⟨cmd, addr, clk⟩ := by
  refine ⟨t', ht, ?_, ?_⟩
  case refine_1 =>
    constructor
    case shape =>
      intro p
      rw [h.node?_update hE, Option.map_map, ← h.shape p]
      congr 1
      funext n
      exact hE.id p n
    case clock =>
      intro p n hn
      rw [h.node?_update hE, Option.map_eq_some_iff] at hn
      obtain ⟨m, hm, rfl⟩ := hn
      simp only [h.clock p m hm, events, List.filterMap_cons]
      cases event? (k :: p) addr cmd clk <;> rfl
    case up =>
      intro r n hn
      rw [h.node?_update hE, Option.map_eq_some_iff] at hn
      obtain ⟨m, hm, rfl⟩ := hn
      exact (hE.rank [r] m).trans (h.up r m hm)
    case bank =>
      intro r g b n hn
      rw [h.node?_update hE, Option.map_eq_some_iff] at hn
      obtain ⟨m, hm, rfl⟩ := hn
      exact hbank r g b m hm
    case table => exact htable
    case range => exact hrange
    case time  => simpa using ⟨hclk, h.time⟩
  case refine_2 =>
    intro p
    rw [h.node?_update hE, Option.map_map]
    congr 1
    funext n
    exact hE.serv p n

end Step

section BankCommands

variable {cmd : Command} {r g b : Nat} {row col clk : Int}

-- The effect of a command on the bank it goes to.
def bankEffect (cmd : Command) (r g b : Nat) (row : Int) (p : List Nat) (n : Node) : Node :=
  if p = [r, g, b] then bankLambda n cmd row else n

theorem effect_bank (hc : cmd ∈ [Command.act, .pre, .rd, .wr]) :
    Effect d cmd [(k : Int), r, g, b, row, col] (bankEffect cmd r g b row) where
  eq p := by
    rw [node?_updateState (isBankCmd_of_mem hc) le_rfl]
    case _ =>
      congr 1
      funext n
      have hp : (p.length = 3 ∧ ids p <+: [(r : Int), g, b, row, col]) ↔ p = [r, g, b] := by
        rcases p with _ | ⟨r', _ | ⟨g', _ | ⟨b', _ | ⟨i, p⟩⟩⟩⟩ <;> simp [List.cons_prefix_cons]
      simp only [bankEffect, ← hp]
      rfl
    case _ =>
      intro j hj
      interval_cases j <;> simp [level, AddrVec.at, Level.toNat]
  id p n    := by unfold bankEffect; split; (fin_cases hc <;> rfl); rfl
  clock p n := by unfold bankEffect; split; (fin_cases hc <;> rfl); rfl
  rank p n  := by unfold bankEffect; split; (fin_cases hc <;> rfl); rfl
  serv p n  := by unfold bankEffect; split; (fin_cases hc <;> rfl); rfl

theorem act (h : Tracks spec k is d t) (hb : InRange spec 3 [r, g, b])
    (hopen : Issue.openRow [(k : Int), r, g, b] is = none) (hclk : 0 ≤ clk) :
    CanIssue spec k is d t ⟨.act, [(k : Int), r, g, b, row, col], clk⟩ := by
  have hrow (bank : List Int) : Issue.openRow bank (⟨.act, [(k : Int), r, g, b, row, col], clk⟩ :: is) =
      if [(k : Int), r, g, b] = bank then some row else Issue.openRow bank is := rfl
  have hins : t.update .act [(k : Int), r, g, b, row, col] clk = .ok (t.insert [(k : Int), r, g, b] ⟨row, 0, clk⟩) := rfl
  refine h.step (effect_bank (by simp)) hclk hins ?_ ?_ ?_
  case refine_1 =>
    intro r' g' b' n hn
    have hn := h.bank r' g' b' n hn
    rw [hrow]
    by_cases he : [r', g', b'] = [r, g, b]
    case pos =>
      obtain ⟨rfl, rfl, rfl⟩ : r' = r ∧ g' = g ∧ b' = b := by simpa using he
      rw [hopen] at hn
      have hclosed : n.rowState = [] := congrArg Prod.snd hn
      simp [bankEffect, bankLambda, hclosed, bankStateOf]
    case neg =>
      have hne : [(k : Int), r, g, b] ≠ [(k : Int), r', g', b'] := by simpa [eq_comm] using he
      simpa [bankEffect, he, hne] using hn
  case refine_2 =>
    intro bank
    rw [hrow]
    split
    case isTrue heq =>
      have hnone : t.find [(k : Int), r, g, b] = none := by simpa [hopen] using h.table [(k : Int), r, g, b]
      rw [← heq, RowTable.find_insert_self hnone]
      rfl
    case isFalse hne => rw [RowTable.find_insert_of_ne (Ne.symm hne), h.table]
  case refine_3 =>
    intro bank hbank
    rw [hrow] at hbank
    split at hbank
    case isTrue heq  => exact ⟨r, g, b, heq.symm, hb⟩
    case isFalse hne => exact h.range bank hbank

theorem access (h : Tracks spec k is d t) (hc : cmd = .rd ∨ cmd = .wr)
    (hopen : Issue.openRow [(k : Int), r, g, b] is = some row) (hclk : 0 ≤ clk) :
    CanIssue spec k is d t ⟨cmd, [(k : Int), r, g, b, row, col], clk⟩ := by
  have hrow (bank : List Int) : Issue.openRow bank (⟨cmd, [(k : Int), r, g, b, row, col], clk⟩ :: is) =
      Issue.openRow bank is := by rcases hc with rfl | rfl <;> rfl
  obtain ⟨e, he, her⟩ : ∃ e, t.find [(k : Int), r, g, b] = some e ∧ e.row = row := by
    simpa [Option.map_eq_some_iff, hopen] using h.table [(k : Int), r, g, b]
  have hacc : t.access [(k : Int), r, g, b, row, col] clk = .ok (t.modify [(k : Int), r, g, b]
      fun e => { e with hits := e.hits + 1, timestamp := clk }) := by
    simp [RowTable.access, RowTable.rowgroup, Level.toNat, he, AddrVec.at, her]
  have hupd : t.update cmd [(k : Int), r, g, b, row, col] clk = t.access [(k : Int), r, g, b, row, col] clk := by
    rcases hc with rfl | rfl <;> simp [RowTable.update, isOpening, isAccessing, isClosing, hacc]
  refine h.step (effect_bank (by rcases hc with rfl | rfl <;> simp)) hclk (hupd.trans hacc) ?_ ?_ ?_
  case refine_1 =>
    intro r' g' b' n hn
    have hn := h.bank r' g' b' n hn
    have heff : bankEffect cmd r g b row [r', g', b'] n = n := by
      unfold bankEffect
      split
      case isTrue  => rcases hc with rfl | rfl <;> rfl
      case isFalse => rfl
    rw [hrow, heff, hn]
  case refine_2 =>
    intro bank
    rw [hrow, RowTable.find_modify, Option.map_map, ← h.table]
    congr 1
    funext e
    simp only [Function.comp]
    split <;> rfl
  case refine_3 =>
    intro bank hbank
    exact h.range bank (by rwa [hrow] at hbank)

-- A row that is closed is closed in the table as well.
theorem table_of_closing (h : Tracks spec k is d t) {t' : RowTable} {addr : AddrVec} {m : Nat}
    (hfind : ∀ bank, t'.find bank = if addr.take m ≠ bank.take m then t.find bank else none)
    {is' : List Issue} {P : List Int → Prop} [DecidablePred P]
    (hrow : ∀ bank, Issue.openRow bank is' = if P bank then none else Issue.openRow bank is)
    (hP : ∀ r g b : Nat, P [(k : Int), r, g, b] ↔ addr.take m = [(k : Int), r, g, b].take m) (bank : List Int) :
    (t'.find bank).map (·.row) = Issue.openRow bank is' := by
  rw [hfind, hrow]
  by_cases hopen : Issue.openRow bank is = none
  case pos =>
    have hnone : t.find bank = none := by simpa [hopen] using h.table bank
    simp [hnone, hopen]
  case neg =>
    obtain ⟨r, g, b, rfl, -⟩ := h.range bank hopen
    rw [← h.table]
    simp only [hP, ne_eq, ite_not]
    split <;> rfl

theorem pre (h : Tracks spec k is d t) (hopen : (Issue.openRow [(k : Int), r, g, b] is).isSome) (hclk : 0 ≤ clk) :
    CanIssue spec k is d t ⟨.pre, [(k : Int), r, g, b, row, col], clk⟩ := by
  have hrow (bank : List Int) : Issue.openRow bank (⟨.pre, [(k : Int), r, g, b, row, col], clk⟩ :: is) =
      if [(k : Int), r, g, b] = bank then none else Issue.openRow bank is := rfl
  obtain ⟨e, he⟩ : ∃ e, t.find [(k : Int), r, g, b] = some e := by
    rw [← h.table, Option.isSome_map] at hopen
    exact Option.isSome_iff_exists.mp hopen
  obtain ⟨t', ht', hfind⟩ := RowTable.update_of_closing (.inl rfl) [(k : Int), r, g, b, row, col] clk he rfl
  refine h.step (effect_bank (by simp)) hclk ht' ?_ ?_ ?_
  case refine_1 =>
    intro r' g' b' n hn
    have hn := h.bank r' g' b' n hn
    rw [hrow]
    by_cases he : [r', g', b'] = [r, g, b]
    case pos =>
      obtain ⟨rfl, rfl, rfl⟩ : r' = r ∧ g' = g ∧ b' = b := by simpa using he
      simp [bankEffect, bankLambda, close, bankStateOf]
    case neg =>
      have hne : [(k : Int), r, g, b] ≠ [(k : Int), r', g', b'] := by simpa [eq_comm] using he
      simpa [bankEffect, he, hne] using hn
  case refine_2 => exact h.table_of_closing hfind hrow fun r' g' b' => Iff.rfl
  case refine_3 =>
    intro bank hbank
    rw [hrow] at hbank
    split at hbank
    case isTrue      => exact absurd rfl hbank
    case isFalse hne => exact h.range bank hbank

end BankCommands

section RankCommands

variable {r : Nat} {rest : List Int} {clk : Int}

def preaEffect (r : Nat) (p : List Nat) (n : Node) : Node :=
  if p.length = 3 ∧ p.headD 0 = r then close n else n

theorem effect_prea : Effect d .prea ((k : Int) :: r :: rest) (preaEffect r) where
  eq p := by
    rw [node?_updateState_prea _ (by simp [AddrVec.at, Level.toNat])]
    congr 1
    funext n
    have hat : AddrVec.at ((k : Int) :: r :: rest) .rank = p.headD 0 ↔ p.headD 0 = r := by
      simp [AddrVec.at, Level.toNat, eq_comm]
    simp only [hat, preaEffect]
  id p n    := by unfold preaEffect; split <;> rfl
  clock p n := by unfold preaEffect; split <;> rfl
  rank p n  := by unfold preaEffect; split <;> rfl
  serv p n  := by unfold preaEffect; split <;> rfl

theorem prea (h : Tracks spec k is d t) {bank : List Int} (hbank : bank.take 2 = [(k : Int), r])
    (hopen : (Issue.openRow bank is).isSome) (hclk : 0 ≤ clk) :
    CanIssue spec k is d t ⟨.prea, (k : Int) :: r :: rest, clk⟩ := by
  have hrow (bank : List Int) : Issue.openRow bank (⟨.prea, (k : Int) :: r :: rest, clk⟩ :: is) =
      if [(k : Int), r] = bank.take 2 then none else Issue.openRow bank is := rfl
  obtain ⟨e, he⟩ : ∃ e, t.find bank = some e := by
    rw [← h.table, Option.isSome_map] at hopen
    exact Option.isSome_iff_exists.mp hopen
  obtain ⟨t', ht', hfind⟩ := RowTable.update_of_closing (.inr rfl) ((k : Int) :: r :: rest) clk he hbank.symm
  refine h.step effect_prea hclk ht' ?_ ?_ ?_
  case refine_1 =>
    intro r' g' b' n hn
    have hn := h.bank r' g' b' n hn
    rw [hrow]
    by_cases he : r' = r
    case pos => simp [he, preaEffect, close, bankStateOf]
    case neg => simpa [preaEffect, he, Ne.symm he] using hn
  case refine_2 => exact h.table_of_closing hfind hrow fun r' g' b' => Iff.rfl
  case refine_3 =>
    intro bank hbank
    rw [hrow] at hbank
    split at hbank
    case isTrue      => exact absurd rfl hbank
    case isFalse hne => exact h.range bank hbank

theorem ref (h : Tracks spec k is d t) {addr : AddrVec} (hclk : 0 ≤ clk) :
    CanIssue spec k is d t ⟨.ref, addr, clk⟩ := by
  have hE : Effect d .ref addr (fun _ n => n) :=
    { eq := fun p => by rw [node?_updateState_ref]; simp, id := fun _ _ => rfl, clock := fun _ _ => rfl,
      rank := fun _ _ => rfl, serv := fun _ _ => rfl }
  exact h.step hE hclk rfl h.bank h.table h.range

end RankCommands

end Tracks

end Ramulator
