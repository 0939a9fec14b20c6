import Patchbay.Proofs.Budget.Accounting
import Patchbay.Proofs.Place

/-!
# `Proofs.Budget.Audit` — what a check for leaks tells

The ledger of a budget knows no block: it is told of each operation, and a check takes everything out of it at
once. Blocks that were reported live on, are resized and returned, and the ledger hears of that too. `Audit` is a
budget with the blocks that are out, each with the number of checks that were made before it was granted; a check
tells of those that were granted since the last one.

## Contents
* `LeakReport.Agrees` — two reports that differ in one id at most; `Ledger.agrees_forget`, `agrees_resized`;
* `Audit.Request`, `Audit.Turn`, `Audit.serve`, `Audit.run` — requests and checks, one after another;
* `Audit.Sound` — the ledger lists the blocks that are due; `Sound.step`, `Sound.run`;
* `run_check` — what a check returns after any run.
-/

namespace Patchbay

namespace Budget

/-! ## What an operation leaves of a report -/

/-- Two reports tell the same of all ids but one, and of that one too if the first does not know it. -/
def LeakReport.Agrees (id : Nat) (r r' : LeakReport) : Prop :=
  r'.entries.filter (·.id ≠ id) = r.entries.filter (·.id ≠ id) ∧ ((∀ e ∈ r.entries, e.id ≠ id) → r' = r)

namespace Ledger

variable (l : Ledger) (id size : Nat)

/-- To forget a block leaves the others listed. -/
theorem filter_forget : (l.forget id).entries.filter (·.id ≠ id) = l.entries.filter (·.id ≠ id) := by
  rw [forget, List.filter_filter]
  simp only [Bool.and_self]

/-- To resize one does so, too. -/
theorem filter_resized : (l.resized id size).entries.filter (·.id ≠ id) = l.entries.filter (·.id ≠ id) := by
  have hid (e : Entry) : (if e.id = id then { e with size := size } else e).id = e.id := by
    split <;> rfl
  rw [resized, List.filter_map]
  simp only [Function.comp_def, hid]
  -- what is left is not the entry that got another size
  refine (List.map_congr_left fun e he => if_neg ?_).trans (List.map_id _)
  exact of_decide_eq_true (List.mem_filter.1 he).2

/-- A report tells the same of the others when a block is forgotten. -/
theorem agrees_forget : LeakReport.Agrees id l.report (l.forget id).report := by
  refine ⟨l.filter_forget id, fun h => ?_⟩
  exact congrArg LeakReport.mk (List.filter_eq_self.2 fun e he => decide_eq_true (h e he))

/-- And when one is resized. -/
theorem agrees_resized : LeakReport.Agrees id l.report (l.resized id size).report := by
  refine ⟨l.filter_resized id size, fun h => ?_⟩
  exact congrArg LeakReport.mk ((List.map_congr_left fun e he => if_neg (h e he)).trans (List.map_id l.entries))

end Ledger

/-! ## Requests and checks, one after another -/

/-- A block that is out, with what was noted when it was granted. -/
structure Tenant where
  block : Block
  comment : Option String
  /-- The number of checks that were made before. -/
  round : Nat
deriving DecidableEq

/-- The entry that a check gives for a block. -/
def Tenant.entry (t : Tenant) : Entry :=
  ⟨t.block.id, t.block.size, t.block.kind, t.comment⟩

namespace Tenant

/-- Another block for the one with the id of a tenant. -/
def swap (tenant : Tenant) (block : Block) (t : Tenant) : Tenant :=
  if t.block.id = tenant.block.id then { tenant with block := block } else t

variable (tenant : Tenant) {block : Block} {t : Tenant}

theorem id_swap (hid : block.id = tenant.block.id) : (tenant.swap block t).block.id = t.block.id := by
  unfold swap
  split
  · rw [hid, ‹t.block.id = tenant.block.id›]
  · rfl

/-- A tenant with another block has been there since the same check. -/
theorem round_swap (block : Block) (h : t.block.id = tenant.block.id → t = tenant) :
    (tenant.swap block t).round = t.round := by
  unfold swap
  split
  · rw [h ‹_›]
  · rfl

/-- The entry gets the size of the other block. -/
theorem entry_swap (hid : block.id = tenant.block.id) (hkind : block.kind = tenant.block.kind)
    (h : t.block.id = tenant.block.id → t = tenant) :
    (tenant.swap block t).entry =
      if t.entry.id = tenant.block.id then { t.entry with size := block.size } else t.entry := by
  unfold swap
  by_cases hk : t.block.id = tenant.block.id
  · obtain rfl := h hk
    refine (if_pos rfl ▸ ?_ : _ = _).trans (if_pos hk).symm
    rw [entry, hid, hkind, entry]
  · rw [if_neg hk]
    exact (if_neg hk).symm

end Tenant

/-- A budget, the blocks that are out in the order they were granted, and what the checks so far returned. -/
structure Audit where
  budget : Budget
  tenants : List Tenant := []
  reports : List LeakReport := []

namespace Audit

/-- What is asked for. Blocks are named by their place among those that are out. -/
inductive Request where
  | alloc (kind : Kind) (comment : Option String) (size : Nat)
  | resize (place size : Nat)
  | write (place start : Nat) (data : List UInt8)
  | free (place : Nat)
  | check

/-- A request, the lane of the thread that makes it, and which sizes the system allocator grants just then. -/
structure Turn where
  request : Request
  lane : Lane := Lane.first
  heap : Heap := Heap.standard

/-- What the caller gets back. -/
inductive Answer where
  | block (result : Except Failure Block)
  | report (report : LeakReport)
  | done

/-- A budget that has granted nothing yet, with a ledger or without one. -/
def start (key ceiling : Nat) (tracking : Bool) : Audit :=
  { budget := Budget.new key ceiling tracking }

/-- A request carried out; a place without a block stands for no request. -/
def serve (a : Audit) (t : Turn) : Answer × Audit :=
  match t.request with
  | .alloc kind comment size =>
    match a.budget.alloc t.heap kind t.lane comment size with
    | (.ok block, b) =>
      (.block (.ok block), { a with budget := b, tenants := a.tenants ++ [⟨block, comment, a.reports.length⟩] })
    | (.error e, b) => (.block (.error e), { a with budget := b })
  | .resize place size =>
    match a.tenants[place]? with
    | none => (.done, a)
    | some tenant =>
      match a.budget.resize t.heap t.lane tenant.block size with
      | (.ok block, b) =>
        (.block (.ok block), { a with budget := b, tenants := a.tenants.set place { tenant with block := block } })
      | (.error e, b) => (.block (.error e), { a with budget := b })
  | .write place start data =>
    match a.tenants[place]? with
    | none => (.done, a)
    | some tenant =>
      (.done, { a with tenants := a.tenants.set place { tenant with block := tenant.block.write start data } })
  | .free place =>
    match a.tenants[place]? with
    | none => (.done, a)
    | some tenant =>
      (.done, { a with budget := a.budget.free t.lane tenant.block, tenants := a.tenants.eraseIdx place })
  | .check =>
    (.report a.budget.collectLeaks.1,
      { a with budget := a.budget.collectLeaks.2, reports := a.reports ++ [a.budget.collectLeaks.1] })

/-- What a request leaves behind. -/
def step (a : Audit) (t : Turn) : Audit :=
  (a.serve t).2

/-- Requests carried out one after another. -/
def run (a : Audit) (turns : List Turn) : Audit :=
  turns.foldl step a

/-- What a check would return now. -/
def toReport (a : Audit) : LeakReport :=
  a.budget.collectLeaks.1

/-- The blocks that are out and were granted since the last check. -/
def due (a : Audit) : List Tenant :=
  a.tenants.filter fun t => t.round = a.reports.length

/-- The ids that the checks so far reported, in the order they were told. -/
def reportedIds (reports : List LeakReport) : List Nat :=
  reports.flatMap fun r => r.entries.map Entry.id

/-! ## The ledger lists what is due -/

/-- The ledger lists the blocks that are due, and ids only grow: those of the blocks that are out, and those that
were reported with those that are due behind them. -/
structure Sound (a : Audit) : Prop where
  ledger : a.budget.ledger = some ⟨a.due.map Tenant.entry⟩
  rounds : ∀ t ∈ a.tenants, t.round ≤ a.reports.length
  fresh : ∀ t ∈ a.tenants, t.block.id < a.budget.nextId
  past : ∀ id ∈ reportedIds a.reports, id < a.budget.nextId
  ordered : (a.tenants.map fun t => t.block.id).Pairwise (· < ·)
  once : (reportedIds a.reports ++ a.due.map fun t => t.block.id).Pairwise (· < ·)

/-- A number that is larger than all of a rising list can be put at its end. -/
theorem pairwise_lt_concat {ids : List Nat} {id : Nat} (h : ids.Pairwise (· < ·)) (hlt : ∀ i ∈ ids, i < id) :
    (ids ++ [id]).Pairwise (· < ·) := by
  refine List.pairwise_append.2 ⟨h, List.pairwise_singleton _ _, fun i hi j hj => ?_⟩
  rw [List.mem_singleton.1 hj]
  exact hlt i hi

theorem mem_tenants_of_mem_due {a : Audit} {t : Tenant} (h : t ∈ a.due) : t ∈ a.tenants :=
  (List.mem_filter.1 h).1

namespace Sound

variable {a : Audit} (h : Sound a)
include h

/-- No two tenants have an id in common. -/
theorem distinct : (a.tenants.map fun t => t.block.id).Nodup :=
  h.ordered.imp Nat.ne_of_lt

/-- A block that is out is known by its id. -/
theorem eq_of_id {t t' : Tenant} (ht : t ∈ a.tenants) (ht' : t' ∈ a.tenants)
    (hid : t.block.id = t'.block.id) : t = t' :=
  List.inj_on_of_nodup_map h.distinct ht ht' hid

/-- A block that is granted is a new tenant, which the next check is due to report. -/
theorem granted {block : Block} {comment : Option String} {b : Budget} (hid : block.id = a.budget.nextId)
    (hnext : b.nextId = a.budget.nextId + 1)
    (hledger : b.ledger = a.budget.ledger.map (·.record ⟨block.id, block.size, block.kind, comment⟩)) :
    Sound { a with budget := b, tenants := a.tenants ++ [⟨block, comment, a.reports.length⟩] } := by
  have hdue : due { a with budget := b, tenants := a.tenants ++ [⟨block, comment, a.reports.length⟩] } =
      a.due ++ [⟨block, comment, a.reports.length⟩] := by
    simp [due]
  constructor
  · rw [hdue, hledger, h.ledger, List.map_append]
    rfl
  · intro t ht
    rcases List.mem_append.1 ht with ht | ht
    · exact h.rounds t ht
    · rw [List.mem_singleton.1 ht]
  · intro t ht
    rw [hnext]
    rcases List.mem_append.1 ht with ht | ht
    · exact Nat.lt_succ_of_lt (h.fresh t ht)
    · rw [List.mem_singleton.1 ht]
      exact Nat.lt_succ_of_le hid.le
  · intro id hmem
    rw [hnext]
    exact Nat.lt_succ_of_lt (h.past id hmem)
  · -- the new id is above all that were given out
    rw [List.map_append]
    refine pairwise_lt_concat h.ordered fun i hi => ?_
    obtain ⟨t, ht, rfl⟩ := List.mem_map.1 hi
    exact (h.fresh t ht).trans_eq hid.symm
  · rw [hdue, List.map_append, ← List.append_assoc]
    refine pairwise_lt_concat h.once fun i hi => ?_
    rcases List.mem_append.1 hi with hi | hi
    · exact (h.past i hi).trans_eq hid.symm
    · obtain ⟨t, ht, rfl⟩ := List.mem_map.1 hi
      exact (h.fresh t (mem_tenants_of_mem_due ht)).trans_eq hid.symm

/-- Another block in the place of one, under the same id. -/
theorem replaced {place : Nat} {tenant : Tenant} (hp : a.tenants[place]? = some tenant) {block : Block}
    (hid : block.id = tenant.block.id) (hkind : block.kind = tenant.block.kind) {b : Budget}
    (hnext : b.nextId = a.budget.nextId)
    (hledger : b.ledger = a.budget.ledger.map (·.resized tenant.block.id block.size)) :
    Sound { a with budget := b, tenants := a.tenants.set place { tenant with block := block } } := by
  have hset : a.tenants.set place { tenant with block := block } = a.tenants.map (tenant.swap block) :=
    set_eq_map h.distinct hp _
  have htenant : tenant ∈ a.tenants := List.mem_of_getElem? hp
  have hround : ∀ t ∈ a.tenants, (tenant.swap block t).round = t.round := fun t ht =>
    tenant.round_swap block fun hk => h.eq_of_id ht htenant hk
  have hdue : due { a with budget := b, tenants := a.tenants.set place { tenant with block := block } } =
      a.due.map (tenant.swap block) := by
    simp only [due, hset, List.filter_map]
    refine congrArg (List.map (tenant.swap block)) (List.filter_congr fun t ht => ?_)
    rw [Function.comp_apply, hround t ht]
  constructor
  · -- the entry of the one block gets the new size, and only that
    rw [hdue, hledger, h.ledger, Option.map_some, Ledger.resized, List.map_map, List.map_map]
    refine congrArg (fun l => some (Ledger.mk l)) (List.map_congr_left fun t ht => ?_)
    refine (tenant.entry_swap hid hkind fun hk => ?_).symm
    exact h.eq_of_id (mem_tenants_of_mem_due ht) htenant hk
  · rw [hset]
    refine List.forall_mem_map.2 fun t ht => ?_
    rw [hround t ht]
    exact h.rounds t ht
  · rw [hset]
    refine List.forall_mem_map.2 fun t ht => ?_
    rw [tenant.id_swap hid, hnext]
    exact h.fresh t ht
  · intro id hmem
    rw [hnext]
    exact h.past id hmem
  · rw [hset, List.map_map]
    simp only [Function.comp_def, tenant.id_swap hid]
    exact h.ordered
  · rw [hdue, List.map_map]
    simp only [Function.comp_def, tenant.id_swap hid]
    exact h.once

/-- The size that a block has already is no news to the ledger. -/
theorem resized_size {tenant : Tenant} (ht : tenant ∈ a.tenants) :
    a.budget.ledger.map (·.resized tenant.block.id tenant.block.size) = a.budget.ledger := by
  rw [h.ledger, Option.map_some, Ledger.resized, List.map_map]
  refine congrArg (fun l => some (Ledger.mk l)) (List.map_congr_left fun t hdue => ?_)
  by_cases hk : t.block.id = tenant.block.id
  · rw [h.eq_of_id (mem_tenants_of_mem_due hdue) ht hk]
    exact if_pos rfl
  · exact if_neg hk

/-- With a block that comes back a tenant goes. -/
theorem freed {place : Nat} {tenant : Tenant} (hp : a.tenants[place]? = some tenant) (lane : Lane) :
    Sound { a with budget := a.budget.free lane tenant.block, tenants := a.tenants.eraseIdx place } := by
  have herase := eraseIdx_eq_filter h.distinct hp
  have hsub : (a.tenants.eraseIdx place).Sublist a.tenants := List.eraseIdx_sublist _ _
  have hdue : due { a with budget := a.budget.free lane tenant.block, tenants := a.tenants.eraseIdx place } =
      a.due.filter fun t => t.block.id ≠ tenant.block.id := by
    simp only [due, herase, List.filter_filter, Bool.and_comm]
  constructor
  · rw [hdue, free, h.ledger]
    simp only [Option.map_some, Ledger.forget, List.filter_map]
    rfl
  · intro t ht
    exact h.rounds t (hsub.subset ht)
  · intro t ht
    exact h.fresh t (hsub.subset ht)
  · exact h.past
  · exact h.ordered.sublist (hsub.map _)
  · rw [hdue]
    exact h.once.sublist ((List.Sublist.refl _).append (List.filter_sublist.map _))

/-- Behind a check nothing is due that was there. -/
theorem checked :
    Sound { a with
      budget := a.budget.collectLeaks.2, reports := a.reports ++ [a.budget.collectLeaks.1] } := by
  have hcollect : a.budget.collectLeaks =
      (⟨a.due.map Tenant.entry⟩, { a.budget with ledger := some {} }) := by
    simp only [collectLeaks, h.ledger, Ledger.report]
  have hids : reportedIds (a.reports ++ [LeakReport.mk (a.due.map Tenant.entry)]) =
      reportedIds a.reports ++ a.due.map fun t => t.block.id := by
    simp only [reportedIds, List.flatMap_append, List.flatMap_singleton, List.map_map]
    rfl
  rw [hcollect]
  have hdue : due { a with
      budget := { a.budget with ledger := some {} },
      reports := a.reports ++ [LeakReport.mk (a.due.map Tenant.entry)] } = [] := by
    -- every block was granted before this check
    refine List.filter_eq_nil_iff.2 fun t ht hround => ?_
    have hle := h.rounds t ht
    have heq : t.round = (a.reports ++ [LeakReport.mk (a.due.map Tenant.entry)]).length :=
      of_decide_eq_true hround
    rw [List.length_append, List.length_singleton] at heq
    omega
  constructor
  · rw [hdue]
    rfl
  · intro t ht
    rw [List.length_append]
    exact (h.rounds t ht).trans (Nat.le_add_right _ _)
  · exact h.fresh
  · intro id hmem
    rw [hids] at hmem
    rcases List.mem_append.1 hmem with hmem | hmem
    · exact h.past id hmem
    · obtain ⟨t, ht, rfl⟩ := List.mem_map.1 hmem
      exact h.fresh t (mem_tenants_of_mem_due ht)
  · exact h.ordered
  · rw [hdue, hids, List.map_nil, List.append_nil]
    exact h.once

/-- A call leaves the audit sound. -/
theorem step (t : Turn) : Sound (a.step t) := by
  obtain ⟨request, lane, heap⟩ := t
  cases request with
  | alloc kind comment size =>
    unfold Audit.step serve
    dsimp only
    split
    · rename_i block b hr
      obtain ⟨hid, hnext, -, hledger⟩ := alloc_noted hr
      exact h.granted hid hnext hledger
    · rename_i e b hr
      rw [alloc_error hr]
      exact h
  | resize place size =>
    unfold Audit.step serve
    dsimp only
    split
    · exact h
    · rename_i tenant hp
      split
      · rename_i block b hr
        obtain ⟨hid, hkind, hnext, -, hledger⟩ := resize_noted hr
        exact h.replaced hp hid hkind hnext hledger
      · rename_i e b hr
        rw [resize_error hr]
        exact h
  | write place start data =>
    unfold Audit.step serve
    dsimp only
    split
    · exact h
    · rename_i tenant hp
      -- to the ledger this is a block resized to the size that it has
      have hsize : (tenant.block.write start data).size = tenant.block.size := Contents.size_write _ start data
      have hledger := (h.resized_size (List.mem_of_getElem? hp)).symm
      rw [← hsize] at hledger
      have hid : (tenant.block.write start data).id = tenant.block.id := rfl
      exact h.replaced hp hid rfl rfl hledger
  | free place =>
    unfold Audit.step serve
    dsimp only
    split
    · exact h
    · rename_i tenant hp
      exact h.freed hp lane
  | check => exact h.checked

omit h in
/-- It is sound from the start. -/
theorem start (key ceiling : Nat) : Sound (start key ceiling true) where
  ledger := rfl
  rounds := nofun
  fresh := nofun
  past := nofun
  ordered := List.Pairwise.nil
  once := List.Pairwise.nil

/-- It is sound after any run. -/
theorem run (turns : List Turn) : Sound (a.run turns) := by
  -- on the requests, for any audit that is sound: each of them leaves a sound one behind
  induction turns generalizing a with
  | nil => exact h
  | cons t rest ih => exact ih (h.step t)

/-! ### Reading a report -/

/-- The next check is to report the tenants that are due, in the order of their ids. -/
theorem toReport_eq : a.toReport = ⟨a.due.map Tenant.entry⟩ := by
  simp only [toReport, collectLeaks, h.ledger, Ledger.report]

/-- A block that is out and is not due was reported, and its id is not in the ledger. -/
theorem id_ne_of_reported {tenant : Tenant} (ht : tenant ∈ a.tenants) (hround : tenant.round < a.reports.length) :
    ∀ e ∈ a.toReport.entries, e.id ≠ tenant.block.id := by
  intro e he hid
  rw [h.toReport_eq] at he
  obtain ⟨t, hdue, rfl⟩ := List.mem_map.1 he
  obtain ⟨ht', hlast⟩ := List.mem_filter.1 hdue
  obtain rfl := h.eq_of_id ht' ht hid
  exact absurd (of_decide_eq_true hlast) (Nat.ne_of_lt hround)

end Sound

/-- A resize of the block at a place, or its return. -/
inductive Request.Touches (place : Nat) : Request → Prop
  | resize (size : Nat) : Touches place (.resize place size)
  | free : Touches place (.free place)

theorem toReport_of_ledger {a : Audit} {l : Ledger} (h : a.budget.ledger = some l) : a.toReport = l.report := by
  simp only [toReport, collectLeaks, h]

/-- What is done to one block shows in its own entry alone. -/
theorem Sound.agrees_step {a : Audit} (h : Sound a) {place : Nat} {tenant : Tenant}
    (hp : a.tenants[place]? = some tenant) {t : Turn} (ht : t.request.Touches place) :
    LeakReport.Agrees tenant.block.id a.toReport (a.step t).toReport := by
  obtain ⟨request, lane, heap⟩ := t
  obtain ⟨l, hl⟩ := Option.isSome_iff_exists.1 (h.ledger ▸ rfl : a.budget.ledger.isSome = true)
  have hbefore := toReport_of_ledger hl
  unfold Audit.step serve
  cases ht with
  | resize size =>
    simp only [hp]
    split
    · rename_i block b hr
      obtain ⟨-, -, -, -, hledger⟩ := resize_noted hr
      rw [hl, Option.map_some] at hledger
      rw [hbefore, toReport_of_ledger hledger]
      exact l.agrees_resized tenant.block.id block.size
    · rename_i e b hr
      rw [resize_error hr]
      exact ⟨rfl, fun _ => rfl⟩
  | free =>
    simp only [hp]
    have hledger : (a.budget.free lane tenant.block).ledger = some (l.forget tenant.block.id) := by
      rw [free, hl, Option.map_some]
    rw [hbefore, toReport_of_ledger hledger]
    exact l.agrees_forget tenant.block.id

/-- **A check tells of the blocks that are out and were granted since the last one, and of nothing else.** Whatever
was asked for, granted, refused, resized, overwritten or returned before, on whatever lanes: the entries are those
of the blocks that are due, in the order of their ids, each with the block's size as it is now, and the bytes are
the sum of the sizes. The ids told by one check after another only grow, so none is told twice. What is done to a
block then shows in its own entry alone, and not at all if the block was reported before. -/
theorem run_check (key ceiling : Nat) (turns : List Turn) :
    let a := (start key ceiling true).run turns
    (∀ lane heap, (a.serve ⟨.check, lane, heap⟩).1 = .report a.toReport) ∧
    a.toReport.entries = a.due.map Tenant.entry ∧
    a.toReport.bytes = total (fun t => t.block.size) a.due ∧
    (reportedIds (a.reports ++ [a.toReport])).Pairwise (· < ·) ∧
    ∀ place tenant, a.tenants[place]? = some tenant → ∀ t : Turn, t.request.Touches place →
      (a.step t).toReport.entries.filter (·.id ≠ tenant.block.id) =
          a.toReport.entries.filter (·.id ≠ tenant.block.id) ∧
        (tenant.round < a.reports.length → (a.step t).toReport = a.toReport) := by
  intro a
  have h : Sound a := (Sound.start key ceiling).run turns
  have hreport := h.toReport_eq
  refine ⟨fun _ _ => rfl, ?_, ?_, ?_, ?_⟩
  · rw [hreport]
  · rw [hreport, LeakReport.bytes, total_eq_sum, total_eq_sum, List.map_map]
    rfl
  · have honce := h.once
    simp only [reportedIds, List.flatMap_append, List.flatMap_singleton, hreport, List.map_map] at honce ⊢
    exact honce
  · intro place tenant hp t ht
    obtain ⟨hothers, hsame⟩ := h.agrees_step hp ht
    refine ⟨hothers, fun hround => hsame ?_⟩
    exact h.id_ne_of_reported (List.mem_of_getElem? hp) hround

/-- A block that was reported is resized on another lane, which does not show: the next report tells of the block
that was granted behind the check, before and after. -/
theorem run_check_reported :
    let turns : List Turn :=
      [⟨.alloc .plain (some "frame") 10, .first, .standard⟩, ⟨.check, .first, .standard⟩,
        ⟨.alloc .contiguous none 1, ⟨3, by decide⟩, .standard⟩]
    let a := (start 0 8192 true).run turns
    let resize : Turn := ⟨.resize 0 20, ⟨5, by decide⟩, .standard⟩
    a.reports.map LeakReport.entries = [[⟨1, 10, .plain, some "frame"⟩]] ∧
      a.toReport.entries = [⟨2, 4096, .contiguous, none⟩] ∧
      ((a.step resize).tenants.map fun t => t.block.size) = [20, 4096] ∧
      (a.step resize).toReport = a.toReport := by
  intro turns a resize
  obtain ⟨-, -, -, -, htouch⟩ := run_check 0 8192 turns
  have hplace : a.tenants[0]? = some ⟨⟨0, 1, .plain, .zeroed 10⟩, some "frame", 0⟩ := by decide +kernel
  obtain ⟨-, hsame⟩ := htouch 0 _ hplace resize (.resize 20)
  exact ⟨by decide +kernel, by decide +kernel, by decide +kernel, hsame (by decide)⟩

end Audit

end Budget

end Patchbay
