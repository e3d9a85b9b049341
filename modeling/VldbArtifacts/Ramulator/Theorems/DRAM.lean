import VldbArtifacts.Ramulator.DRAM
import VldbArtifacts.Lib.Except

-- The tree of a channel by its nodes: what each operation does to the node at a path of indices.

namespace Ramulator

open DDR4

namespace DRAM

-- The node that a path of indices leads to.
def node? : {h : Nat} → DRAM h → List Nat → Option Node
  | _, d, []         => some d.node
  | 0, _, _ :: _     => none
  | _ + 1, d, i :: p => d.children[i]?.bind fun sub => sub.node? p

theorem node?_nil {h : Nat} (d : DRAM h) : d.node? [] = some d.node := by
  cases h <;> rfl

theorem node?_bank_cons (d : DRAM 0) (i : Nat) (p : List Nat) : d.node? (i :: p) = none :=
  rfl

theorem node?_cons {h : Nat} (d : DRAM (h + 1)) (i : Nat) (p : List Nat) :
    d.node? (i :: p) = d.children[i]?.bind fun sub => sub.node? p :=
  rfl

@[simp]
theorem node_setNode {h : Nat} (d : DRAM h) (n : Node) : (d.setNode n).node = n := by
  cases h <;> rfl

@[simp]
theorem children_setNode {h : Nat} (d : DRAM (h + 1)) (n : Node) : (d.setNode n).children = d.children :=
  rfl

@[simp]
theorem node_mk {h : Nat} (n : Node) (cs : List (DRAM h)) : (mk n cs).node = n :=
  rfl

@[simp]
theorem children_mk {h : Nat} (n : Node) (cs : List (DRAM h)) : (mk n cs).children = cs :=
  rfl

-- The indices of a path, as an address has them.
def ids (p : List Nat) : List Int :=
  p.map fun i : Nat => (i : Int)

@[simp]
theorem ids_nil : ids [] = [] :=
  rfl

@[simp]
theorem ids_cons (i : Nat) (p : List Nat) : ids (i :: p) = (i : Int) :: ids p :=
  rfl

@[simp]
theorem length_ids (p : List Nat) : (ids p).length = p.length :=
  List.length_map _

theorem ids_dropLast (p : List Nat) : ids p.dropLast = (ids p).dropLast :=
  List.map_dropLast

-- What is left of an address below a level.
theorem drop_level {h : Nat} (hh : h < 3) (addr : AddrVec) :
    addr.drop (3 - h) = (addr.drop (3 - (h + 1))).tail := by
  rw [List.tail_drop]
  congr 1
  omega

theorem toNat_level {h : Nat} (hh : h ≤ 3) : (level h).toNat = 3 - h := by
  interval_cases h <;> rfl

theorem at_level {h : Nat} (hh : h ≤ 3) (addr : AddrVec) :
    addr.at (level h) = ((addr.drop (3 - h)).head?).getD (-1) := by
  rw [List.head?_drop, AddrVec.at, toNat_level hh, List.getD_eq_getElem?_getD]

theorem at_level_eq {h : Nat} (hh : h ≤ 3) {addr : AddrVec} {i : Nat} :
    addr.at (level h) = i ↔ [(i : Int)] <+: addr.drop (3 - h) := by
  rw [at_level hh]
  cases addr.drop (3 - h)
  case nil => simp
  case cons x xs => simp [eq_comm]

theorem cons_isPrefix_drop {h : Nat} (hh : h ≤ 3) {addr : AddrVec} {i : Nat} {q : List Int} :
    (i : Int) :: q <+: addr.drop (3 - h) ↔ addr.at (level h) = i ∧ q <+: (addr.drop (3 - h)).tail := by
  rw [at_level_eq hh]
  cases addr.drop (3 - h)
  case nil => simp
  case cons x xs => simp [List.cons_prefix_cons]

-- How a command concerns the node that a path leads to.
def event? (q : List Nat) (addr : List Int) (cmd : Command) (clk : Int) : Option (Timing.Event Command) :=
  if ids q <+: addr then some (.target cmd clk)
  else if ids q.dropLast <+: addr then some (.sibling cmd clk)
  else none

theorem event?_cons {h i j : Nat} (hh : h < 3) {q : List Nat} {addr : AddrVec} {cmd : Command} {clk : Int} :
    event? (i :: j :: q) (addr.drop (3 - (h + 1))) cmd clk =
      if addr.at (level (h + 1)) = i then event? (j :: q) (addr.drop (3 - h)) cmd clk else none := by
  have hcons (q : List Nat) : ids (i :: q) <+: addr.drop (3 - (h + 1)) ↔
      addr.at (level (h + 1)) = i ∧ ids q <+: addr.drop (3 - h) := by
    rw [drop_level hh, ids_cons, cons_isPrefix_drop hh]
  simp only [event?, List.dropLast_cons_cons, hcons]
  split_ifs <;> simp_all

-- The children of each node have their indices as identifiers.
def HasIds {h : Nat} (d : DRAM h) : Prop :=
  ∀ p i n, d.node? (p ++ [i]) = some n → n.id = i

theorem HasIds.child {h : Nat} {d : DRAM (h + 1)} (hd : d.HasIds) {i : Nat} {sub : DRAM h}
    (hi : d.children[i]? = some sub) : sub.node.id = i ∧ sub.HasIds := by
  constructor
  case left => exact hd [] i _ (by simp [node?_cons, hi, node?_nil])
  case right =>
    intro p j n hn
    exact hd (i :: p) j n (by simpa [node?_cons, hi] using hn)

theorem updateTiming_node (spec : DDR4) {h : Nat} (hh : h ≤ 3) (d : DRAM h) (cmd : Command) (addr : AddrVec)
    (clk : Int) :
    (d.updateTiming spec cmd addr clk).node = d.node.updateTiming spec (level h) cmd addr clk := by
  cases h <;> rfl

theorem updateTiming_eq_step {n : Node} {spec : DDR4} {h : Nat} (hh : h ≤ 3) {cmd : Command} {addr : AddrVec}
    {clk : Int} :
    n.updateTiming spec (level h) cmd addr clk =
      { n with clock := (event? [n.id] (addr.drop (3 - h)) cmd clk).elim n.clock
                          (n.clock.step (spec.timing (level h))) } := by
  have hat : ids [n.id] <+: addr.drop (3 - h) ↔ (n.id : Int) = addr.at (level h) := by
    rw [eq_comm, at_level_eq hh]; rfl
  simp only [Node.updateTiming, event?, hat]
  split <;> simp_all [Timing.Clock.step]

theorem node?_updateTiming (spec : DDR4) {h : Nat} (hh : h ≤ 3) {d : DRAM h} (hd : d.HasIds) (cmd : Command)
    (addr : AddrVec) (clk : Int) (p : List Nat) :
    (d.updateTiming spec cmd addr clk).node? p = (d.node? p).map fun n =>
      { n with clock := (event? (d.node.id :: p) (addr.drop (3 - h)) cmd clk).elim n.clock
                          (n.clock.step (spec.timing (level (h - p.length)))) } := by
  induction h generalizing p
  case zero =>
    cases p
    case nil => simp [node?_nil, updateTiming_node, updateTiming_eq_step]
    case cons i p => rfl
  case succ h hi =>
    cases p
    case nil => simp [node?_nil, updateTiming_node spec hh, updateTiming_eq_step hh]
    case cons i p =>
      rw [node?_cons, node?_cons, event?_cons (by omega)]
      simp only [updateTiming, children_mk, ne_eq, ite_not]
      by_cases hat : addr.at (level (h + 1)) = d.node.id
      case neg => simp [hat, Ne.symm hat]
      case pos =>
        simp only [hat, ↓reduceIte, List.getElem?_map]
        cases hc : d.children[i]?
        case none => rfl
        case some sub =>
          obtain ⟨hid, hsub⟩ := hd.child hc
          simpa [hid] using hi (by omega) hsub p

theorem toNat_injective : Function.Injective Level.toNat := by
  intro l l'
  cases l <;> cases l' <;> simp [Level.toNat]

theorem child_eq_some {h : Nat} {d : DRAM (h + 1)} {addr : AddrVec} {sub : DRAM h} :
    d.child addr = some sub ↔ ∃ i : Nat, addr.at (level h) = i ∧ d.children[i]? = some sub := by
  unfold child
  split
  case isTrue hneg => simp; omega
  case isFalse hnn =>
    constructor
    case mp  => exact fun hc => ⟨_, by omega, hc⟩
    case mpr =>
      rintro ⟨i, hi, hc⟩
      rwa [hi, Int.toNat_natCast]

-- A command is ready if it is ready at each node that its address leads to, down to its scope.
theorem check_iff {h : Nat} (hh : h ≤ 3) {d : DRAM h} {cmd : Command} {addr : AddrVec} {clk : Int}
    (hs : 3 - h ≤ (scope cmd).toNat) :
    d.check cmd addr clk = true ↔ ∀ p n, d.node? p = some n → ids p <+: (addr.drop (3 - h)).tail →
      3 - h + p.length ≤ (scope cmd).toNat → isReady n cmd clk = true := by
  induction h
  case zero =>
    simp only [check]
    constructor
    case mp =>
      intro hc p n hp _ _
      cases p
      case nil      => rw [node?_nil, Option.some.injEq] at hp; exact hp ▸ hc
      case cons i p => rw [node?_bank_cons] at hp; cases hp
    case mpr => exact fun hn => hn [] d.node (node?_nil d) (List.nil_prefix) hs
  case succ h hi =>
    simp only [check, Bool.and_eq_true]
    constructor
    case mp =>
      rintro ⟨hc, hsub⟩ p n hp hpre hlen
      cases p
      case nil => rw [node?_nil, Option.some.injEq] at hp; exact hp ▸ hc
      case cons i p =>
        rw [← drop_level (by omega), ids_cons, cons_isPrefix_drop (by omega)] at hpre
        simp only [List.length_cons] at hlen
        have hne : level (h + 1) ≠ scope cmd := fun he => by
          have := toNat_level hh
          rw [he] at this
          omega
        rw [node?_cons, Option.bind_eq_some_iff] at hp
        obtain ⟨sub, hc, hp⟩ := hp
        rw [if_neg hne, child_eq_some.mpr ⟨i, hpre.1, hc⟩] at hsub
        exact (hi (by omega) (by omega)).mp hsub p n hp hpre.2 (by omega)
    case mpr =>
      intro hn
      refine ⟨hn [] d.node (node?_nil d) List.nil_prefix hs, ?_⟩
      split
      case isTrue => rfl
      case isFalse hne =>
        cases hc : d.child addr
        case none => rfl
        case some sub =>
          obtain ⟨i, hat, hc⟩ := child_eq_some.mp hc
          have hlt : 3 - (h + 1) ≠ (scope cmd).toNat := fun he =>
            hne (toNat_injective ((toNat_level hh).trans he))
          apply (hi (by omega) (by omega)).mpr
          intro p n hp hpre hlen
          apply hn (i :: p) n (by simp [node?_cons, hc, hp])
          case _ =>
            rw [← drop_level (by omega), ids_cons, cons_isPrefix_drop (by omega)]
            exact ⟨hat, hpre⟩
          case _ => simp only [List.length_cons]; omega

section New

variable (spec : DDR4)

-- The paths to the nodes of a tree of the organization.
def InRange : Nat → List Nat → Prop
  | _, []         => True
  | 0, _ :: _     => False
  | h + 1, i :: p => i < spec.orgEntry.count (level h) ∧ InRange h p

theorem children_new (h id : Nat) :
    (new spec (h + 1) id).children = (List.range (spec.orgEntry.count (level h))).map (new spec h) :=
  rfl

theorem isSome_node?_new {h : Nat} (id : Nat) (p : List Nat) :
    ((new spec h id).node? p).isSome ↔ InRange spec h p := by
  induction p generalizing h id
  case nil => simp [node?_nil, InRange]
  case cons i p hi =>
    cases h
    case zero => simp [node?_bank_cons, InRange]
    case succ h =>
      rw [node?_cons, children_new, List.getElem?_map, InRange]
      by_cases hlt : i < spec.orgEntry.count (level h)
      case pos => simp [hlt, hi]
      case neg => simp [hlt]

theorem node?_new {h : Nat} {id : Nat} {p : List Nat} {n : Node} (hn : (new spec h id).node? p = some n) :
    n = { id := (id :: p).getLast (by simp), clock := .init (spec.timing (level (h - p.length))) } := by
  induction p generalizing h id
  case nil =>
    rw [node?_nil, Option.some.injEq] at hn
    cases h <;> exact hn.symm
  case cons i p hi =>
    cases h
    case zero => rw [node?_bank_cons] at hn; cases hn
    case succ h =>
      simp only [node?_cons, children_new, List.getElem?_map, Option.bind_eq_some_iff,
        Option.map_eq_some_iff] at hn
      obtain ⟨_, ⟨j, hj, rfl⟩, hn⟩ := hn
      obtain ⟨hlt, hij⟩ := List.getElem?_eq_some_iff.mp hj
      obtain rfl : i = j := by simpa using hij
      simpa using hi hn

end New

-- The children of which one is changed.
theorem node?_modify {h : Nat} (n : Node) (cs : List (DRAM h)) (i : Nat) (f : DRAM h → DRAM h) (j : Nat)
    (p : List Nat) :
    (mk n (cs.modify i f)).node? (j :: p) =
      cs[j]?.bind fun sub => if j = i then (f sub).node? p else sub.node? p := by
  rw [node?_cons, children_mk, List.getElem?_modify]
  by_cases hij : i = j
  case pos => subst hij; cases cs[i]? <;> simp
  case neg => cases cs[j]? <;> simp [hij, Ne.symm hij]

section UpdateState

variable {cmd : Command} {addr : AddrVec}

-- The commands that change the state of banks only.
structure IsBankCmd (cmd : Command) : Prop where
  rankLambda : ∀ d : DRAM 2, d.rankLambda cmd = d
  scope      : ∀ h < 3, level (h + 1) ≠ scope cmd

theorem IsBankCmd.lambda (hc : IsBankCmd cmd) {h : Nat} (hh : h < 3) (d : DRAM (h + 1)) (i : Int) :
    d.lambda cmd i = d := by
  interval_cases h
  case «1» => exact hc.rankLambda d
  all_goals rfl

theorem isBankCmd_of_mem (hc : cmd ∈ [Command.act, .pre, .rd, .wr]) : IsBankCmd cmd where
  rankLambda d := by fin_cases hc <;> rfl
  scope h hh   := by fin_cases hc <;> interval_cases h <;> simp [level, DDR4.scope]

theorem updateState_succ (hc : IsBankCmd cmd) {h : Nat} (hh : h < 3) (d : DRAM (h + 1)) :
    d.updateState cmd addr =
      mk d.node (d.children.modify (addr.at (level h)).toNat fun sub => sub.updateState cmd addr) := by
  rw [updateState, hc.lambda hh, if_neg (hc.scope h hh)]

theorem node?_updateState (hc : IsBankCmd cmd) {h : Nat} (hh : h ≤ 3) (d : DRAM h)
    (hnn : ∀ k < h, 0 ≤ addr.at (level k)) (p : List Nat) :
    (d.updateState cmd addr).node? p = (d.node? p).map fun n =>
      if p.length = h ∧ ids p <+: (addr.drop (3 - h)).tail then bankLambda n cmd (addr.at .row) else n := by
  induction h generalizing p
  case zero =>
    cases p
    case nil      => simp [node?_nil, updateState, lambda]
    case cons i p => rfl
  case succ h hi =>
    rw [updateState_succ hc (by omega)]
    cases p
    case nil => simp [node?_nil, node_mk]
    case cons i p =>
      have hnn' := hnn h (by omega)
      have hpre : ids (i :: p) <+: (addr.drop (3 - (h + 1))).tail ↔
          addr.at (level h) = i ∧ ids p <+: (addr.drop (3 - h)).tail := by
        rw [← drop_level (by omega), ids_cons, cons_isPrefix_drop (by omega)]
      rw [node?_modify, node?_cons]
      simp only [hpre]
      cases d.children[i]?
      case none => rfl
      case some sub =>
        have hat : i = (addr.at (level h)).toNat ↔ addr.at (level h) = i := by omega
        have hsub := hi (by omega) sub (fun k hk => hnn k (by omega)) p
        by_cases he : addr.at (level h) = i
        case pos => simp [he, hsub]
        case neg => simp [he, hat]

theorem updateState_of_scope_rank (hc : scope cmd = .rank) (d : DRAM 3) :
    d.updateState cmd addr =
      mk d.node (d.children.modify (addr.at .rank).toNat fun rank => rank.rankLambda cmd) := by
  simp only [updateState, hc, level, lambda, reduceCtorEq, ↓reduceIte]

theorem node?_updateState_ref (d : DRAM 3) (p : List Nat) : (d.updateState .ref addr).node? p = d.node? p := by
  rw [updateState_of_scope_rank rfl]
  cases p
  case nil      => simp [node?_nil]
  case cons i p => rw [node?_modify, node?_cons]; simp [rankLambda]

theorem node?_map {h : Nat} (n : Node) (cs : List (DRAM h)) (f : DRAM h → DRAM h) (i : Nat) (p : List Nat) :
    (mk n (cs.map f)).node? (i :: p) = cs[i]?.bind fun sub => (f sub).node? p := by
  rw [node?_cons, children_mk, List.getElem?_map, Option.bind_map]
  rfl

theorem node?_closeBanks (group : DRAM 1) (p : List Nat) :
    (mk group.node (group.children.map fun bank => bank.setNode (close bank.node))).node? p =
      (group.node? p).map fun n => if p.length = 1 then close n else n := by
  cases p
  case nil => simp [node?_nil]
  case cons b p =>
    rw [node?_map, node?_cons]
    cases group.children[b]?
    case none => rfl
    case some bank => cases p <;> simp [node?_nil, node?_bank_cons]

theorem node?_rankLambda_prea (rank : DRAM 2) (p : List Nat) :
    (rank.rankLambda .prea).node? p = (rank.node? p).map fun n => if p.length = 2 then close n else n := by
  cases p
  case nil => simp [node?_nil, rankLambda]
  case cons g p =>
    rw [rankLambda, node?_map, node?_cons]
    cases rank.children[g]?
    case none => rfl
    case some group => simp [node?_closeBanks]

theorem node?_updateState_prea (d : DRAM 3) (hnn : 0 ≤ addr.at .rank) (p : List Nat) :
    (d.updateState .prea addr).node? p = (d.node? p).map fun n =>
      if p.length = 3 ∧ addr.at .rank = p.headD 0 then close n else n := by
  rw [updateState_of_scope_rank rfl]
  cases p
  case nil => simp [node?_nil]
  case cons i p =>
    rw [node?_modify, node?_cons]
    cases d.children[i]?
    case none => rfl
    case some rank =>
      have hat : i = (addr.at .rank).toNat ↔ addr.at .rank = i := by omega
      by_cases he : addr.at .rank = i
      case pos => simp [he, node?_rankLambda_prea]
      case neg => simp [he, hat]

end UpdateState

section Decode

variable {d : DRAM 3} {addr : AddrVec} {r g b : Nat}

theorem node?_eq_some_bank {n : Node} :
    d.node? [r, g, b] = some n ↔ ∃ rank group bank, d.children[r]? = some rank ∧
      rank.children[g]? = some group ∧ group.children[b]? = some bank ∧ bank.node = n := by
  simp [node?_cons, node?_nil, Option.bind_eq_some_iff]

-- A read or a write is preceded by what its bank needs, if the rank is powered up.
theorem decode_access {cmd : Command} (hcmd : cmd = .rd ∨ cmd = .wr) {rn n : Node} (hr : d.node? [r] = some rn)
    (hup : rn.rankState = .powerUp) (hb : d.node? [r, g, b] = some n) (har : addr.at .rank = r)
    (hag : addr.at .bankGroup = g) (hab : addr.at .bank = b) :
    d.decode cmd addr = (bankPrereq n cmd (addr.at .row)).getD cmd := by
  obtain ⟨rank, group, bank, hrank, hgroup, hbank, rfl⟩ := node?_eq_some_bank.mp hb
  have hrn : rank.node = rn := by simpa [node?_cons, hrank, node?_nil] using hr
  have h₂ : d.child addr = some rank := child_eq_some.mpr ⟨r, har, hrank⟩
  have h₁ : rank.child addr = some group := child_eq_some.mpr ⟨g, hag, hgroup⟩
  have h₀ : group.child addr = some bank := child_eq_some.mpr ⟨b, hab, hbank⟩
  have hnone : rank.rankPrereq cmd = none := by
    rcases hcmd with rfl | rfl <;> simp [rankPrereq, hrn, hup]
  simp [decode, prereq, h₂, h₁, h₀, hnone]

theorem allClosed_iff {rank : DRAM 2} :
    rank.allClosed = true ↔ ∀ g b n, rank.node? [g, b] = some n → n.bankState = .closed := by
  simp only [allClosed, List.all_eq_true, decide_eq_true_eq, node?_cons, node?_nil, Option.bind_eq_some_iff,
    Option.some.injEq]
  constructor
  case mp =>
    rintro h g b n ⟨group, hg, bank, hb, rfl⟩
    exact h group (List.mem_of_getElem? hg) bank (List.mem_of_getElem? hb)
  case mpr =>
    intro h group hg bank hb
    obtain ⟨i, hi⟩ := List.mem_iff_getElem?.mp hg
    obtain ⟨j, hj⟩ := List.mem_iff_getElem?.mp hb
    exact h i j bank.node ⟨group, hi, bank, hj, rfl⟩

-- A refresh is preceded by the precharge of all banks, unless they are closed.
theorem decode_ref {rn : Node} (hr : d.node? [r] = some rn) (har : addr.at .rank = r) :
    ((∀ g b n, d.node? [r, g, b] = some n → n.bankState = .closed) ∧ d.decode .ref addr = .ref) ∨
      ((∃ g b n, d.node? [r, g, b] = some n ∧ n.bankState = .opened) ∧ d.decode .ref addr = .prea) := by
  simp only [node?_cons (i := r), node?_nil, Option.bind_eq_some_iff, Option.some.injEq] at hr
  obtain ⟨rank, hrank, -⟩ := hr
  have h₂ : d.child addr = some rank := child_eq_some.mpr ⟨r, har, hrank⟩
  have hnode (g b : Nat) : d.node? [r, g, b] = rank.node? [g, b] := by simp [node?_cons (i := r), hrank]
  simp only [hnode, ← allClosed_iff, decode, prereq, h₂, rankPrereq]
  cases hall : rank.allClosed
  case true => simp
  case false =>
    have hopen := mt (@allClosed_iff rank).mpr (by simp [hall])
    push Not at hopen
    obtain ⟨g, b, n, hn, hne⟩ := hopen
    refine .inr ⟨⟨g, b, n, hn, ?_⟩, by simp⟩
    cases hs : n.bankState
    case opened => rfl
    case closed => exact absurd hs hne

end Decode

end DRAM

-- A node whose number of requests changes by `delta`.
def Node.served (n : Node) (delta clk : Int) : Node :=
  { n with
    curServingRequests := n.curServingRequests + delta
    beginOfServing     := if delta = 1 ∧ n.curServingRequests + delta = 1 then clk else n.beginOfServing }

-- The number of requests of a node may change by `delta`.
structure Node.Serves (n : Node) (delta : Int) : Prop where
  one    : delta = 1 ∨ delta = -1
  before : 0 ≤ n.curServingRequests
  after  : 0 ≤ n.curServingRequests + delta
  began  : delta = -1 → n.beginOfServing ≠ -1

theorem Node.Serves.eq {n : Node} {delta : Int} (h : n.Serves delta) (clk : Int) :
    n.serve delta clk = .ok (n.served delta clk) := by
  have hb := h.before
  have ha := h.after
  simp only [Node.serve, Node.served]
  rcases h.one with rfl | rfl
  case inl =>
    have h₀ : ¬n.curServingRequests + 1 < 0 := by omega
    have h₁ : ¬n.curServingRequests + 1 = 0 := by omega
    by_cases h₂ : n.curServingRequests + 1 = 1 <;> simp [h₀, h₁, h₂]
  case inr =>
    have h₀ : ¬n.curServingRequests + -1 < 0 := by omega
    simp [h₀, h.began rfl]

namespace DRAM

theorem updateServingRequests_eq {h : Nat} (hh : h ≤ 3) {d : DRAM h} (hd : d.HasIds) {addr : AddrVec}
    {delta clk : Int} (hid : addr.at (level h) = d.node.id)
    (hn : ∀ p n, d.node? p = some n → ids p <+: (addr.drop (3 - h)).tail → n.Serves delta) :
    ∃ d' : DRAM h, d.updateServingRequests addr delta clk = .ok d' ∧
      ∀ p, d'.node? p = (d.node? p).map fun n =>
        if ids p <+: (addr.drop (3 - h)).tail then n.served delta clk else n := by
  have hserve := (hn [] d.node (node?_nil d) List.nil_prefix).eq clk
  induction h
  case zero =>
    refine ⟨d.setNode (d.node.served delta clk), ?_, ?_⟩
    case refine_1 =>
      simp only [level] at hid
      simp [updateServingRequests, hid, hserve]
    case refine_2 =>
      intro p
      cases p <;> simp [node?_nil, node?_bank_cons]
  case succ h hi =>
    have hpre (i : Nat) (p : List Nat) : ids (i :: p) <+: (addr.drop (3 - (h + 1))).tail ↔
        addr.at (level h) = i ∧ ids p <+: (addr.drop (3 - h)).tail := by
      rw [← drop_level (by omega), ids_cons, cons_isPrefix_drop (by omega)]
    cases hc : d.child addr
    case none =>
      refine ⟨d.setNode (d.node.served delta clk), ?_, ?_⟩
      case refine_1 => simp [updateServingRequests, hid, hserve, hc]
      case refine_2 =>
        intro p
        cases p
        case nil => simp [node?_nil]
        case cons i p =>
          simp only [node?_cons, children_setNode, hpre]
          cases hi : d.children[i]?
          case none => rfl
          case some sub =>
            have hne : addr.at (level h) ≠ i := fun he => by
              rw [child_eq_some.mpr ⟨i, he, hi⟩] at hc
              cases hc
            simp [hne]
    case some sub =>
      obtain ⟨i, hat, hi'⟩ := child_eq_some.mp hc
      obtain ⟨hsid, hsub⟩ := hd.child hi'
      have hnsub (p : List Nat) (n : Node) (hp : sub.node? p = some n)
          (hpre' : ids p <+: (addr.drop (3 - h)).tail) : n.Serves delta :=
        hn (i :: p) n (by simp [node?_cons, hi', hp]) ((hpre i p).mpr ⟨hat, hpre'⟩)
      obtain ⟨sub', hok, hnode⟩ := hi (by omega) hsub (hat.trans (by rw [hsid])) hnsub
        ((hnsub [] sub.node (node?_nil sub) List.nil_prefix).eq clk)
      refine ⟨mk (d.node.served delta clk) (d.children.set i sub'), ?_, ?_⟩
      case refine_1 => simp [updateServingRequests, hid, hserve, hc, hok, hat]
      case refine_2 =>
        intro p
        cases p
        case nil => simp [node?_nil]
        case cons j p =>
          simp only [node?_cons, children_mk, hpre, hat]
          by_cases hij : i = j
          case pos =>
            subst hij
            have hlt := (List.getElem?_eq_some_iff.mp hi').1
            simp [List.getElem?_set_self hlt, hi', hnode]
          case neg =>
            have hne : ¬(i : Int) = j := by omega
            simp [List.getElem?_set_ne hij, hne]

end DRAM

end Ramulator
