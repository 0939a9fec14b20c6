import Patchbay.Proofs.Frame.Lending
import Patchbay.Proofs.Slot.Passing

/-!
# `Proofs.Inbox.Disposal` — what becomes of a chain that a splice sees, and of everything else

A splice decides by the first frame of a chain. What is not for its consumer goes on as if the splice were not there.
What is for the consumer alone stays: in the queue if the budget pays for its place, and otherwise it goes back to where
it came from. A frame for everybody goes on in any case, and what the consumer gets of it, or loses, changes nothing for
the others.

## Contents
* `Network.Requeues` — one queue and the memory are different, and nothing else is;
* `Queue.push_refused` — a chain that a queue does not let in;
* `Network.Plugged.intercept_mine`, `Network.Plugged.intercept_everybody` — what a splice does with its own;
* `Network.Settled.refers`, `Network.Settled.released` — what a chain that is out refers to, and gives back;
* `Scene.run_disposal` — whatever happened before.
-/

namespace Patchbay

namespace Queue

variable {q : Queue} {m : Memory} {budget : Nat} {c : Chain}

/-- A chain whose place is not paid for goes back, and is counted. -/
theorem push_refused (h : ¬ m.Grants budget nodeNote nodeSize) :
    q.push m budget c = (false, q.countDrop, m.releaseChain c) := by
  unfold push
  cases ha : m.alloc budget .plain (some nodeNote) nodeSize with
  | mk answer m' =>
    cases answer with
    | error e =>
      obtain rfl := Memory.alloc_error ha
      rfl
    | ok charge =>
      refine absurd ?_ h
      unfold Memory.Grants
      rw [ha]
      rfl

end Queue

namespace Memory

variable {m : Memory} {budget size : Nat} {note : String}

/-- What is lent to segments makes no difference to a budget. -/
theorem sameBudgets_lend (m : Memory) (segments : List Segment) : m.SameBudgets (m.lend segments) := by
  induction segments generalizing m with
  | nil => exact ⟨rfl, rfl, rfl⟩
  | cons s rest ih =>
    have hone : m.SameBudgets (m.lendSegment s) := ⟨rfl, rfl, rfl⟩
    exact hone.trans (ih (m.lendSegment s))

theorem grants_lend_iff (segments : List Segment) :
    (m.lend segments).Grants budget note size ↔ m.Grants budget note size := by
  have h := m.sameBudgets_lend segments
  have hback : (m.lend segments).SameBudgets m := ⟨h.budgets.symm, h.heap.symm, h.lane.symm⟩
  exact ⟨hback.grants, h.grants⟩

end Memory

namespace Network

/-! ## One queue and the memory -/

/-- The queue of a plug and the memory became these, and nothing else is different. -/
structure Requeues (n n' : Network) (plug : Plug) (q : Queue) (m : Memory) : Prop where
  line : n'.plane.line plug = { n.plane.line plug with queue := q }
  others : ∀ other : Plug, other.key ≠ plug.key → n'.plane.line other = n.plane.line other
  memory : n'.memory = m
  table : n'.plane.table = n.plane.table
  splices : n'.splices = n.splices
  slot : n'.slot = n.slot
  stack : n'.stack = n.stack
  wire : n'.wire = n.wire
  calls : n'.calls = n.calls
  nextIndex : n'.nextIndex = n.nextIndex

variable {n : Network} {key index : Nat} {plug : Plug} {c : Chain}

theorem requeues_onQueue {α : Type} {f : Queue → Memory → α × Queue × Memory} {answer : α} {q : Queue} {m : Memory}
    (hlined : plug.key < n.plane.lines.size) (h : f (n.plane.line plug).queue n.memory = (answer, q, m)) :
    n.Requeues { n with plane := (n.plane.onQueue plug f).2 } plug q m := by
  have hqueue : (f (n.plane.line plug).queue n.plane.memory).2.1 = q := congrArg (·.2.1) h
  have hmemory : (f (n.plane.line plug).queue n.plane.memory).2.2 = m := congrArg (·.2.2) h
  refine ⟨?_, ?_, hmemory, rfl, rfl, rfl, rfl, rfl, rfl, rfl⟩
  · rw [Backplane.line_onQueue f hlined, hqueue]
  · intro other hother
    exact Backplane.line_onQueue_of_ne f (Ne.symm hother)

/-! ## What a splice does with its own -/

namespace Plugged

/-- The consumer's own is queued as it is, or goes back. -/
theorem intercept_mine (h : n.Plugged key plug) (hown : c.head.destination? = some plug.virtualMac)
    (hsingle : plug.virtualMac ≠ Mac.broadcast) :
    ∃ n', n.intercept key plug.index c = (none, n') ∧
      (n.memory.Grants (n.budgetOf key) Queue.nodeNote Queue.nodeSize → ∃ charge m,
        n.memory.alloc (n.budgetOf key) .plain (some Queue.nodeNote) Queue.nodeSize = (.ok charge, m) ∧
          n.Requeues n' plug ((n.plane.line plug).queue.letIn c charge) m) ∧
      (¬ n.memory.Grants (n.budgetOf key) Queue.nodeNote Queue.nodeSize →
        n.Requeues n' plug (n.plane.line plug).queue.countDrop (n.memory.releaseChain c)) := by
  refine ⟨{ n with plane := queueWhole n.plane plug (n.budgetOf key) c }, ?_, ?_, ?_⟩
  · rcases h.intercept_cases c with ⟨hall, -⟩ | ⟨-, -, heq⟩ | ⟨hother, -, -⟩
    · exact absurd (Option.some.inj (hown.symm.trans hall)) hsingle
    · exact heq
    · exact absurd hown hother
  · intro hgrants
    obtain ⟨charge, m, halloc, -⟩ := hgrants.alloc
    exact ⟨charge, m, halloc, requeues_onQueue h.lined (Queue.push_letIn halloc)⟩
  · intro hrefused
    exact requeues_onQueue h.lined (Queue.push_refused hrefused)

/-- A frame for everybody goes on, whether it is queued or not. -/
theorem intercept_everybody (h : n.Plugged key plug) (hall : c.head.destination? = some Mac.broadcast)
    (hrefers : n.memory.Refers c.head.segments) :
    ∃ n', n.intercept key plug.index c = (some c, n') ∧
      ((∀ free ∈ n.memory.pool.free?, c.head.segments.length ≤ free) →
        n.memory.Grants (n.budgetOf key) Queue.nodeNote Queue.nodeSize → ∃ charge m,
          (n.memory.lend c.head.segments).alloc (n.budgetOf key) .plain (some Queue.nodeNote) Queue.nodeSize =
              (.ok charge, m) ∧
            n.Requeues n' plug ((n.plane.line plug).queue.letIn (.last c.head) charge) m) ∧
      (¬ ((∀ free ∈ n.memory.pool.free?, c.head.segments.length ≤ free) ∧
          n.memory.Grants (n.budgetOf key) Queue.nodeNote Queue.nodeSize) →
        ∃ count, n.Requeues n' plug (n.plane.line plug).queue.countDrop (n.memory.countBack count)) := by
  have hintercept : n.intercept key plug.index c =
      (some c, { n with plane := queueCopy n.plane plug (n.budgetOf key) c.head }) := by
    rcases h.intercept_cases c with ⟨-, heq⟩ | ⟨hown, hsingle, -⟩ | ⟨-, hother, -⟩
    · exact heq
    · exact absurd (Option.some.inj (hown.symm.trans hall)) hsingle
    · exact absurd hall hother
  refine ⟨_, hintercept, ?_, ?_⟩
  · intro hfree hgrants
    -- what is lent for the copy is no matter of what its place costs
    obtain ⟨charge, m, halloc, -⟩ := ((Memory.grants_lend_iff c.head.segments).2 hgrants).alloc
    refine ⟨charge, m, halloc, ?_⟩
    rw [queueCopy_eq]
    apply requeues_onQueue h.lined
    rw [Frame.copy_lent hfree]
    dsimp only
    rw [Queue.push_letIn halloc]
  · intro hrefused
    rw [queueCopy_eq]
    by_cases hfree : ∀ free ∈ n.memory.pool.free?, c.head.segments.length ≤ free
    · -- the copy was made, and goes back to where it came from
      have hgrants : ¬ (n.memory.lend c.head.segments).Grants (n.budgetOf key) Queue.nodeNote Queue.nodeSize := by
        rw [Memory.grants_lend_iff]
        exact fun hgrants => hrefused ⟨hfree, hgrants⟩
      refine ⟨c.head.segments.length, ?_⟩
      apply requeues_onQueue h.lined
      rw [Frame.copy_lent hfree]
      dsimp only
      rw [Queue.push_refused hgrants, ← Memory.releaseSegments_lend hrefers]
      rfl
    · -- there was no copy in the first place
      push Not at hfree
      obtain ⟨free, hfree, hlack⟩ := hfree
      refine ⟨free, ?_⟩
      apply requeues_onQueue h.lined
      rw [Frame.copy_refused hfree hlack hrefers]

end Plugged

/-! ## What goes on, and what does not -/

theorem offerInput_passed {n' : Network} (h : n.intercept key index c = (some c, n')) (onward : List Hook) :
    n.offerInput index c (.splice key :: onward) = n'.offerInput index c onward := by
  rw [offerInput, h]

theorem offerOutput_passed {n' : Network} (h : n.intercept key index c = (some c, n')) (onward : List Hook) :
    n.offerOutput index c (.splice key :: onward) = n'.offerOutput index c onward := by
  rw [offerOutput, h]

theorem offerInput_kept {n' : Network} (h : n.intercept key index c = (none, n')) (onward : List Hook) :
    n.offerInput index c (.splice key :: onward) = (none, n') := by
  rw [offerInput, h]

theorem offerOutput_kept {n' : Network} (h : n.intercept key index c = (none, n')) (onward : List Hook) :
    n.offerOutput index c (.splice key :: onward) = (.ok none, n') := by
  rw [offerOutput, h]

/-- A chain is none of a splice's business if the splice does not have the interface, or if the first frame is too
short for an address or is for somebody else. -/
def Ignores (n : Network) (key index : Nat) (c : Chain) : Prop :=
  (n.registry key).byIndex? index = none ∨ c.head.length < 6 ∨
    ∃ plug, (n.registry key).byIndex? index = some plug ∧ c.head.destination? ≠ some plug.virtualMac ∧
      c.head.destination? ≠ some Mac.broadcast

theorem Ignores.intercept (h : n.Ignores key index c) (hl : n.Listed) :
    n.intercept key index c = (some c, n) := by
  have hclaims : ∀ plug, ¬ n.Claims key index c.head plug := by
    rintro plug ⟨hfound, hown, -⟩
    rcases h with hnone | hshort | ⟨other, hother, hforeign, -⟩
    · cases hnone.symm.trans hfound
    · rw [← Frame.length_bytes, ← Mac.destination?_eq_none_iff, ← Frame.destination?_eq, hown] at hshort
      cases hshort
    · obtain rfl := Option.some.inj (hother.symm.trans hfound)
      exact hforeign hown
  have hcopy : n.copyFor key index c.head = n := by
    rcases h with hnone | hshort | ⟨-, -, -, hall⟩
    · unfold copyFor
      rw [hnone]
    · apply copyFor_eq
      rw [← Frame.length_bytes, ← Mac.destination?_eq_none_iff, ← Frame.destination?_eq] at hshort
      rw [hshort]
      exact nofun
    · exact copyFor_eq hall key
  rw [intercept_passes hl hclaims, hcopy]

/-! ## A chain that is out -/

section Out

variable {k : Memory.Bookkeeping} {h : History} {rest : Estate}

theorem Settled.memory_out (hs : n.Settled k h (estate c + rest)) :
    ∃ others, n.memory.Settled k h (estate c + others) := by
  have hmemory := hs.plane.memory
  rw [add_assoc, add_assoc] at hmemory
  exact ⟨_, hmemory⟩

/-- A chain that is out refers to storage that is there. -/
theorem Settled.refers (hs : n.Settled k h (estate c + rest)) :
    n.memory.Refers (c.frames.flatMap Frame.segments) := by
  intro s hsegment
  obtain ⟨others, hmemory⟩ := hs.memory_out
  have hin : s.storage ∈ (estate c).references := by
    rw [estate_chain, estate_frames_eq]
    exact Multiset.mem_coe.2 (List.mem_append_left _ (List.mem_map_of_mem hsegment))
  have hout : s.storage ∈ (estate c + others).references := Multiset.mem_add.2 (.inl hin)
  rw [hmemory.counted (hmemory.known hout)]
  exact Multiset.count_pos.2 hout

theorem Settled.refers_head (hs : n.Settled k h (estate c + rest)) : n.memory.Refers c.head.segments := by
  intro s hsegment
  apply hs.refers s
  rw [c.frames_eq_cons, List.flatMap_cons]
  exact List.mem_append_left _ hsegment

/-- Each of its segments has a header. -/
theorem Settled.length_le_headersLive (hs : n.Settled k h (estate c + rest)) :
    (c.frames.flatMap Frame.segments).length ≤ n.memory.pool.headersLive := by
  obtain ⟨others, hmemory⟩ := hs.memory_out
  rw [hmemory.headersLive, estate_chain, estate_frames_eq, Estate.headers_add]
  show _ ≤ 0 + (c.frames.flatMap Frame.segments).length + others.headers
  omega

/-- Whoever lets it go gives every header and every reference of it back. -/
theorem Settled.released (hs : n.Settled k h (estate c + rest)) :
    (n.memory.releaseChain c).pool.headersLive + (c.frames.flatMap Frame.segments).length =
        n.memory.pool.headersLive ∧
      ∀ g, (n.memory.releaseChain c).referencesTo g = n.memory.referencesTo g -
        (c.frames.flatMap Frame.segments).countP fun s => s.storage.key = g.key := by
  rw [Memory.releaseChain_eq]
  constructor
  · rw [Memory.headersLive_releaseSegments, Nat.sub_add_cancel hs.length_le_headersLive]
  · exact Memory.referencesTo_releaseSegments n.memory _

end Out

end Network

/-! ## At any moment -/

namespace Scene

/-- A chain that a caller has is out, and stays so while newer splices hand it on. -/
theorem Settled.offered {s : Scene} {h : History} (hs : s.Settled h) {c : Chain} {index : Nat} {hooks : List Hook}
    {n : Network} (hchain : Item.chain c ∈ s.items) (hoffered : s.network.offerInput index c hooks = (some c, n)) :
    ∃ h' rest, n.Settled Memory.Tallied h' (estate c + rest) := by
  obtain ⟨place, hplace⟩ := List.getElem?_of_mem hchain
  have hout : s.network.Settled Memory.Tallied h (estate c + estate (s.items.eraseIdx place)) := by
    have hitems : estate s.items = estate c + estate (s.items.eraseIdx place) := estate_eq_add_eraseIdx hplace
    rw [← hitems]
    exact hs
  obtain ⟨h', -, hs'⟩ := s.network.trades_offerInput index c hooks h _ hout
  rw [hoffered] at hs'
  exact ⟨h', _, hs'⟩

/-- **What becomes of a chain that a splice sees, and of everything else.** On a host after any run of acts, a caller
offers a chain, and newer splices, if there are any, hand it on to a splice; the first frame decides for the whole
chain. If the splice does not have the interface, or if the frame is too short for an address or is for somebody else,
the chain goes to what the splice remembers, and nothing is different. If it is for the consumer alone, it goes nowhere:
either the whole chain waits in front of the queue, its place paid for by the budget, or the budget refuses, and the
chain goes back, every header and every reference of it, and is counted as dropped. If it is for everybody, the chain
goes on as it is: with headers and a place for it, the first frame waits in front of the queue, under headers and
references of its own; without, nothing is left of the copy but headers that came back, and a drop is counted. Of what
is not said to change nothing does. All this is the same for chains that are received and for those that are sent. -/
theorem run_disposal (limit : Option Nat) (turns : List Turn) (key : Nat) (newer : List Nat) {index : Nat}
    {c : Chain} {n : Network} (hchain : Item.chain c ∈ ((start limit).run turns).items)
    (hoffered : ((start limit).run turns).network.offerInput index c (newer.map .splice) = (some c, n)) :
    let hooks := n.hooksFrom (n.splices.size + 1) (some (.splice key))
    let onward := n.hooksFrom n.splices.size (n.previous? key)
    let budget := n.budgetOf key
    let pays := n.memory.Grants budget Queue.nodeNote Queue.nodeSize
    let enough := ∀ free ∈ n.memory.pool.free?, c.head.segments.length ≤ free
    (n.Ignores key index c →
      n.offerInput index c hooks = n.offerInput index c onward ∧
      n.offerOutput index c hooks = n.offerOutput index c onward) ∧
    ∀ plug, (n.registry key).byIndex? index = some plug →
      let q := (n.plane.line plug).queue
      (c.head.destination? = some plug.virtualMac → plug.virtualMac ≠ Mac.broadcast → ∃ n',
        n.offerInput index c hooks = (none, n') ∧ n.offerOutput index c hooks = (.ok none, n') ∧
        (pays → ∃ charge m,
          n.memory.alloc budget .plain (some Queue.nodeNote) Queue.nodeSize = (.ok charge, m) ∧
          n.Requeues n' plug (q.letIn c charge) m) ∧
        (¬ pays → n.Requeues n' plug q.countDrop (n.memory.releaseChain c) ∧
          n'.memory.pool.headersLive + (c.frames.flatMap Frame.segments).length = n.memory.pool.headersLive ∧
          ∀ g, n'.memory.referencesTo g = n.memory.referencesTo g -
            (c.frames.flatMap Frame.segments).countP fun s => s.storage.key = g.key)) ∧
      (c.head.destination? = some Mac.broadcast → ∃ n',
        n.offerInput index c hooks = n'.offerInput index c onward ∧
        n.offerOutput index c hooks = n'.offerOutput index c onward ∧
        (enough → pays → ∃ charge m,
          (n.memory.lend c.head.segments).alloc budget .plain (some Queue.nodeNote) Queue.nodeSize =
              (.ok charge, m) ∧
          n.Requeues n' plug (q.letIn (.last c.head) charge) m) ∧
        (¬ (enough ∧ pays) → ∃ count, n.Requeues n' plug q.countDrop (n.memory.countBack count))) := by
  intro hooks onward budget pays enough
  obtain ⟨h, hs⟩ := settled_run limit turns
  obtain ⟨h', rest, hout⟩ := hs.offered hchain hoffered
  have hlisted : n.Listed := hout.listed
  refine ⟨?_, ?_⟩
  · intro hignores
    have hpasses := hignores.intercept hlisted
    exact ⟨Network.offerInput_passed hpasses onward, Network.offerOutput_passed hpasses onward⟩
  · intro plug hfound q
    have hplugged : n.Plugged key plug := hlisted (Network.byIndex?_mem hfound)
    -- the plug was found by its interface
    obtain rfl : plug.index = index := by
      have hindex := List.find?_some hfound
      exact of_decide_eq_true hindex
    refine ⟨?_, ?_⟩
    · -- the splice keeps it, so what it remembers never comes to see it
      intro hown hsingle
      obtain ⟨n', hkeeps, hpaid, hrefused⟩ := hplugged.intercept_mine hown hsingle
      refine ⟨n', Network.offerInput_kept hkeeps onward, Network.offerOutput_kept hkeeps onward, hpaid, ?_⟩
      intro hpays
      have hrequeues := hrefused hpays
      rw [hrequeues.memory]
      exact ⟨hrequeues, hout.released⟩
    · intro hall
      obtain ⟨n', hpasses, hqueued, hdropped⟩ := hplugged.intercept_everybody hall hout.refers_head
      exact ⟨n', Network.offerInput_passed hpasses onward, Network.offerOutput_passed hpasses onward, hqueued, hdropped⟩

/-- A frame for the consumer alone in front of one for somebody else: both wait, and neither goes on. -/
theorem run_disposal_mine_first :
    let own : Mac := ⟨[2, 0, 0, 0, 0, 1], rfl⟩
    let frames : List FrameSpec := [{ bytes := [2, 0, 0, 0, 0, 1] }, { bytes := [2, 0, 0, 0, 0, 9] }]
    let s := (start none).run (setUp own ++ [{ act := .packet (.make frames) }])
    let plug := Plug.ofSetUp own
    let f (key : Nat) (bytes : List UInt8) : Frame := ⟨[.whole ⟨key, .cluster (.ofList bytes)⟩], none⟩
    let c : Chain := .link (f 0 [2, 0, 0, 0, 0, 1]) (.last (f 1 [2, 0, 0, 0, 0, 9]))
    Item.chain c ∈ s.items ∧ s.network.offerInput 1 c [] = (some c, s.network) ∧
      (s.network.registry 0).byIndex? 1 = some plug ∧ c.head.destination? = some plug.virtualMac ∧
      plug.virtualMac ≠ Mac.broadcast ∧
      s.network.memory.Grants (s.network.budgetOf 0) Queue.nodeNote Queue.nodeSize ∧
      ∃ n' charge m, s.network.offerInput 1 c (s.network.hooksFrom 2 (some (.splice 0))) = (none, n') ∧
        s.network.Requeues n' plug ((s.network.plane.line plug).queue.letIn c charge) m := by
  intro own frames s plug f c
  have hchain : Item.chain c ∈ s.items := by decide +kernel
  have hoffered : s.network.offerInput 1 c [] = (some c, s.network) := rfl
  have hfound : (s.network.registry 0).byIndex? 1 = some plug := by decide +kernel
  have hown : c.head.destination? = some plug.virtualMac := by decide +kernel
  have hsingle : plug.virtualMac ≠ Mac.broadcast := by decide
  have hpays : s.network.memory.Grants (s.network.budgetOf 0) Queue.nodeNote Queue.nodeSize := by decide +kernel
  have hsize : s.network.splices.size = 1 := by decide +kernel
  obtain ⟨-, hdisposal⟩ := run_disposal none _ 0 [] hchain hoffered
  obtain ⟨n', hinput, -, hqueued, -⟩ := (hdisposal plug hfound).1 hown hsingle
  obtain ⟨charge, m, -, hrequeues⟩ := hqueued hpays
  rw [hsize] at hinput
  exact ⟨hchain, hoffered, hfound, hown, hsingle, hpays, n', charge, m, hinput, hrequeues⟩

end Scene

end Patchbay
