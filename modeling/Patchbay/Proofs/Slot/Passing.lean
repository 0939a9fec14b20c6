import Patchbay.Proofs.Slot.Apart
import Patchbay.Proofs.Slot.Order

/-!
# `Proofs.Slot.Passing` — the way of a chain through several splices

A chain meets the splices in the slot one after the other. The first one that has the interface plugged under the
address in the first frame consumes it. Every other one hands it on as it is, and at most queues a copy of a frame for
everybody, on a line that no other splice has a part in. What no splice consumes comes to the base.

## Contents
* `Way`, `Network.carry` — received or sent, through hooks to the stack or the wire;
* `Network.Claims`, `Network.copyFor`, `Network.copiesFor` — what splices do with a chain;
* `Network.carry_consumed`, `Network.carry_passed`, `Network.carry_idle` — through splices;
* `Network.atBase` — what the base does with the rest;
* `Network.Welcomes`, `Network.line_copiesFor` — where no copy is refused, each splice queues one.
-/

namespace Patchbay

open Budget (Block)

/-- The two ways of a chain. -/
inductive Way where
  /-- From the wire to the host's stack. -/
  | input
  /-- From the host's stack to the wire. -/
  | output
deriving DecidableEq

/-- Where hooks see a chain on its way. -/
def Way.point : Way → HookPoint
  | .input => .input
  | .output => .output

/-- Whether somebody else's hooks let a chain go on, or the code of a failure. -/
def HookSet.passes (h : HookSet) (index : Nat) (c : Chain) : Way → Except Int Bool
  | .input => .ok (h.passesInput index c)
  | .output => h.passesOutput index c

/-- A queue with a chain let in, paid for with a block. -/
def Queue.letIn (q : Queue) (c : Chain) (charge : Block) : Queue :=
  { q with nodes := ⟨c, charge⟩ :: q.nodes, admitted := q.admitted + 1 }

/-! ## What is put on a line -/

namespace Backplane

variable {p : Backplane} {plug other : Plug} {budget : Nat}

/-- Work on the queue of a plug is no matter of other lines. -/
theorem line_onQueue_of_ne {α : Type} (f : Queue → Memory → α × Queue × Memory)
    (h : plug.key ≠ other.key) : (p.onQueue plug f).2.line other = p.line other := by
  show (p.lines.setIfInBounds plug.key _).getD other.key {} = p.lines.getD other.key {}
  rw [Array.getD_eq_getD_getElem?, Array.getElem?_setIfInBounds_ne h, ← Array.getD_eq_getD_getElem?]

theorem line_onQueue {α : Type} (f : Queue → Memory → α × Queue × Memory) (h : plug.key < p.lines.size) :
    (p.onQueue plug f).2.line plug = { p.line plug with queue := (f (p.line plug).queue p.memory).2.1 } :=
  line_setLine h _

/-- Nor is a packet that is queued. -/
theorem line_queueWhole_of_ne (c : Chain) (h : plug.key ≠ other.key) :
    (Network.queueWhole p plug budget c).line other = p.line other :=
  line_onQueue_of_ne _ h

/-- Nor is a copy. -/
theorem line_queueCopy_of_ne (f : Frame) (h : plug.key ≠ other.key) :
    (Network.queueCopy p plug budget f).line other = p.line other := by
  rw [Network.queueCopy]
  dsimp only
  exact line_onQueue_of_ne _ h

end Backplane

/-- A chain whose place is paid for is let in. -/
theorem Queue.push_letIn {q : Queue} {m m' : Memory} {budget : Nat} {c : Chain} {charge : Block}
    (h : m.alloc budget .plain (some nodeNote) nodeSize = (.ok charge, m')) :
    q.push m budget c = (true, q.letIn c charge, m') := by
  unfold push
  rw [h]
  rfl

/-- A packet whose place is paid for is let in. -/
theorem Queue.push_granted {m : Memory} {budget : Nat} (q : Queue) (c : Chain)
    (h : m.Grants budget nodeNote nodeSize) : ∃ charge, (q.push m budget c).2.1 = q.letIn c charge := by
  obtain ⟨charge, m', halloc, -⟩ := h.alloc
  exact ⟨charge, by rw [push_letIn halloc]⟩

namespace Backplane

variable {p : Backplane} {plug : Plug} {budget : Nat}

/-- On the line of a plug it comes in front, and nothing else changes there. -/
theorem line_queueWhole_granted (h : plug.key < p.lines.size) (c : Chain)
    (hgrants : p.memory.Grants budget Queue.nodeNote Queue.nodeSize) :
    ∃ charge, (Network.queueWhole p plug budget c).line plug =
      { p.line plug with queue := (p.line plug).queue.letIn c charge } := by
  obtain ⟨charge, hpush⟩ := (p.line plug).queue.push_granted c hgrants
  exact ⟨charge, by rw [Network.queueWhole, line_onQueue _ h, hpush]⟩

/-- So does a copy that there are headers for. -/
theorem line_queueCopy_granted (h : plug.key < p.lines.size) {f : Frame}
    (hheaders : p.memory.HasHeaders f.segments.length)
    (hgrants : p.memory.Grants budget Queue.nodeNote Queue.nodeSize) :
    ∃ charge, (Network.queueCopy p plug budget f).line plug =
      { p.line plug with queue := (p.line plug).queue.letIn (.last f) charge } := by
  obtain ⟨m, hcopy, hsame⟩ := Frame.copy_granted hheaders
  obtain ⟨charge, hpush⟩ := (p.line plug).queue.push_granted (.last f) (hsame.grants hgrants)
  refine ⟨charge, ?_⟩
  rw [Network.queueCopy]
  dsimp only
  rw [line_onQueue _ h, hcopy]
  dsimp only
  rw [hpush]

end Backplane

namespace Network

/-! ## Through hooks to the end of a way -/

/-- The network after a chain came to the end of its way. -/
def arrive (n : Network) (index : Nat) (c : Chain) : Way → Network
  | .input => n.reachStack index c
  | .output => n.reachWire index c

/-- A chain offered to hooks in turn; if it goes on, it comes to the end of its way. -/
def carry (way : Way) (n : Network) (index : Nat) (c : Chain) (hooks : List Hook) :
    Except Int Unit × Network :=
  match way with
  | .input =>
    match n.offerInput index c hooks with
    | (none, n) => (.ok (), n)
    | (some c, n) => (.ok (), n.reachStack index c)
  | .output =>
    match n.offerOutput index c hooks with
    | (.error code, n) => (.error code, n)
    | (.ok none, n) => (.ok (), n)
    | (.ok (some c), n) => (.ok (), n.reachWire index c)

/-- What a base does with a chain: it comes to the end of its way, unless somebody else's hooks, which see it once, do
not let it. -/
def atBase (n : Network) (way : Way) (index : Nat) (c : Chain) : Option HookSet → Except Int Unit × Network
  | none => (.ok (), n.arrive index c way)
  | some h =>
    let n := n.note (h.seen way.point index c)
    match h.passes index c way with
    | .error code => (.error code, n.releaseChain c)
    | .ok true => (.ok (), n.arrive index c way)
    | .ok false => (.ok (), n.releaseChain c)

variable {n n' : Network} {way : Way} {key index : Nat} {c : Chain} {keys : List Nat} {hooks : List Hook}
  {base : Option HookSet} {plug : Plug}

/-- Somebody else's hooks are the last that a packet meets. -/
theorem carry_foreign (way : Way) (n : Network) (index : Nat) (c : Chain) (h : HookSet) (hooks : List Hook) :
    carry way n index c (.foreign h :: hooks) = n.atBase way index c (some h) := by
  cases way with
  | input =>
    unfold carry atBase HookSet.passes offerInput
    dsimp only
    cases h.passesInput index c <;> rfl
  | output =>
    unfold carry atBase HookSet.passes offerOutput
    dsimp only
    cases h.passesOutput index c with
    | error code => rfl
    | ok passes => cases passes <;> rfl

/-- On a bare base a packet meets the base at once. -/
theorem carry_base (way : Way) (n : Network) (index : Nat) (c : Chain) (base : Option HookSet) :
    carry way n index c (base.map Hook.foreign).toList = n.atBase way index c base := by
  cases base with
  | none => cases way <;> rfl
  | some h => exact carry_foreign way n index c h []

/-- What a splice does not hand on ends there. -/
theorem carry_splice (way : Way) (n : Network) (index : Nat) (c : Chain) (key : Nat) (hooks : List Hook) :
    carry way n index c (.splice key :: hooks) =
      match n.intercept key index c with
      | (none, n) => (.ok (), n)
      | (some c, n) => carry way n index c hooks := by
  cases way with
  | input =>
    unfold carry
    dsimp only
    rw [offerInput]
    generalize n.intercept key index c = result
    obtain ⟨_ | c, n⟩ := result <;> rfl
  | output =>
    unfold carry
    dsimp only
    rw [offerOutput]
    generalize n.intercept key index c = result
    obtain ⟨_ | c, n⟩ := result <;> rfl

/-! ## What a splice does -/

/-- A splice has the interface plugged under the address in a frame, which is not everybody's. -/
structure Claims (n : Network) (key index : Nat) (f : Frame) (plug : Plug) : Prop where
  found : (n.registry key).byIndex? index = some plug
  own : f.destination? = some plug.virtualMac
  single : plug.virtualMac ≠ Mac.broadcast

/-- The network after a splice that does not consume a frame: it queues a copy of one for everybody. -/
def copyFor (n : Network) (key index : Nat) (f : Frame) : Network :=
  match (n.registry key).byIndex? index with
  | none => n
  | some plug =>
    if f.destination? = some Mac.broadcast then
      { n with plane := queueCopy n.plane plug (n.budgetOf key) f }
    else n

/-- The network after splices none of which consumes a frame. -/
def copiesFor (n : Network) (index : Nat) (f : Frame) : List Nat → Network
  | [] => n
  | key :: rest => (n.copyFor key index f).copiesFor index f rest

/-- What registries list is plugged. -/
def Listed (n : Network) : Prop :=
  ∀ ⦃key : Nat⦄ ⦃plug : Plug⦄, plug ∈ (n.registry key).plugs → n.Plugged key plug

/-- On a settled host what registries list is plugged. -/
theorem Settled.listed {k : Memory.Bookkeeping} {past : History} {e : Estate} (hs : n.Settled k past e) : n.Listed :=
  fun _ _ hplug => hs.plugged hplug

/-- It is so while splices and lines are the same. -/
theorem Listed.of_same (h : n.Listed) (hs : n.Beside n') (hlines : n'.plane.lines.size = n.plane.lines.size) :
    n'.Listed := by
  intro key plug hplug
  rw [registry, hs.splices] at hplug
  exact (h hplug).of_same hs.splices hlines

/-- A splice claims the same while it lists the same. -/
theorem Claims.of_beside {f : Frame} (h : n.Beside n') (hc : n'.Claims key index f plug) :
    n.Claims key index f plug :=
  ⟨h.registry_eq key ▸ hc.found, hc.own, hc.single⟩

theorem intercept_claims (hl : n.Listed) (h : n.Claims key index c.head plug) :
    n.intercept key index c =
      (none, { n with plane := queueWhole n.plane plug (n.budgetOf key) c }) := by
  have hindex : plug.index = index := by
    have hfound := List.find?_some h.found
    exact of_decide_eq_true hfound
  obtain rfl := hindex
  rcases (hl (byIndex?_mem h.found)).intercept_cases c with ⟨hall, -⟩ | ⟨-, -, heq⟩ | ⟨hother, -, -⟩
  · exact absurd (Option.some.inj (h.own.symm.trans hall)) h.single
  · exact heq
  · exact absurd h.own hother

theorem intercept_passes (hl : n.Listed) (h : ∀ plug, ¬ n.Claims key index c.head plug) :
    n.intercept key index c = (some c, n.copyFor key index c.head) := by
  unfold copyFor
  cases hfound : (n.registry key).byIndex? index with
  | none =>
    unfold intercept
    dsimp only
    rw [hfound]
    exact ite_self _
  | some plug =>
    obtain rfl : plug.index = index := by
      have hindex := List.find?_some hfound
      exact of_decide_eq_true hindex
    dsimp only
    rcases (hl (byIndex?_mem hfound)).intercept_cases c with ⟨hall, heq⟩ | ⟨hown, hsingle, -⟩ | ⟨-, hnot, heq⟩
    · rw [if_pos hall, heq]
    · exact absurd ⟨hfound, hown, hsingle⟩ (h plug)
    · rw [if_neg hnot, heq]

/-- At most the plane is touched, and it keeps its lines. -/
theorem copyFor_plane (n : Network) (key index : Nat) (f : Frame) :
    ∃ p, n.copyFor key index f = { n with plane := p } ∧ p.lines.size = n.plane.lines.size := by
  unfold copyFor
  split
  · exact ⟨n.plane, rfl, rfl⟩
  split
  · exact ⟨_, rfl, Backplane.size_queueCopy f⟩
  · exact ⟨n.plane, rfl, rfl⟩

theorem beside_copyFor (n : Network) (key index : Nat) (f : Frame) : n.Beside (n.copyFor key index f) := by
  obtain ⟨p, heq, -⟩ := n.copyFor_plane key index f
  rw [heq]
  exact ⟨rfl, rfl⟩

/-- A copy that is queued leaves all that is listed plugged. -/
theorem Listed.copyFor (h : n.Listed) (key index : Nat) (f : Frame) : (n.copyFor key index f).Listed := by
  obtain ⟨p, heq, hsize⟩ := n.copyFor_plane key index f
  refine h.of_same (n.beside_copyFor key index f) ?_
  rw [heq]
  exact hsize

/-- Copies for splices are a matter of the backplane alone. -/
theorem copiesFor_plane (n : Network) (index : Nat) (f : Frame) (keys : List Nat) :
    ∃ p, n.copiesFor index f keys = { n with plane := p } := by
  induction keys generalizing n with
  | nil => exact ⟨n.plane, rfl⟩
  | cons key rest ih =>
    obtain ⟨p, heq, -⟩ := n.copyFor_plane key index f
    obtain ⟨q, hrest⟩ := ih (n.copyFor key index f)
    rw [copiesFor, hrest, heq]
    exact ⟨q, rfl⟩

/-- Only a frame for everybody is copied. -/
theorem copyFor_eq {f : Frame} (h : f.destination? ≠ some Mac.broadcast) (key : Nat) : n.copyFor key index f = n := by
  unfold copyFor
  split
  · rfl
  · exact if_neg h

/-- Nothing is copied but a frame for everybody. -/
theorem copiesFor_eq {f : Frame} (h : f.destination? ≠ some Mac.broadcast) (keys : List Nat) :
    n.copiesFor index f keys = n := by
  induction keys with
  | nil => rfl
  | cons key rest ih => rw [copiesFor, copyFor_eq h, ih]

/-! ## What several splices do -/

/-- What none of some splices consumes comes to the hooks behind them as it is. -/
theorem carry_passed (hl : n.Listed) (h : ∀ key ∈ keys, ∀ plug, ¬ n.Claims key index c.head plug)
    (hooks : List Hook) :
    carry way n index c (keys.map .splice ++ hooks) = carry way (n.copiesFor index c.head keys) index c hooks := by
  -- on the splices: each leaves the registries of the others as they are
  induction keys generalizing n with
  | nil => rfl
  | cons key rest ih =>
    rw [List.forall_mem_cons] at h
    rw [List.map_cons, List.cons_append, carry_splice, intercept_passes hl h.1]
    dsimp only
    have hbeside := n.beside_copyFor key index c.head
    rw [ih (hl.copyFor key index c.head) fun other hother plug hclaims =>
      h.2 other hother plug (hclaims.of_beside hbeside)]
    rfl

/-- The first splice that claims a chain has it, and nothing else happens. -/
theorem carry_consumed {newer : List Nat} (hl : n.Listed)
    (hnewer : ∀ other ∈ newer, ∀ p, ¬ n.Claims other index c.head p) (h : n.Claims key index c.head plug)
    (hooks : List Hook) :
    carry way n index c (newer.map .splice ++ .splice key :: hooks) =
      (.ok (), { n with plane := queueWhole n.plane plug (n.budgetOf key) c }) := by
  have hsingle : c.head.destination? ≠ some Mac.broadcast := by
    rw [h.own]
    exact fun heq => h.single (Option.some.inj heq)
  rw [carry_passed hl hnewer, copiesFor_eq hsingle, carry_splice, intercept_claims hl h]

/-- A splice that has not plugged the interface can as well not be there. -/
theorem carry_idle {newer : List Hook} (h : (n.registry key).byIndex? index = none) (hooks : List Hook) :
    carry way n index c (newer ++ .splice key :: hooks) = carry way n index c (newer ++ hooks) := by
  induction newer generalizing n c with
  | nil =>
    have hintercept : n.intercept key index c = (some c, n) := by
      unfold intercept
      dsimp only
      rw [h]
      exact ite_self _
    rw [List.nil_append, List.nil_append, carry_splice, hintercept]
  | cons hook rest ih =>
    rw [List.cons_append, List.cons_append]
    cases hook with
    | foreign other => rw [carry_foreign, carry_foreign]
    | splice other =>
      have hbeside := (n.listsOnly_true.intercept other index c).beside
      rw [carry_splice, carry_splice]
      cases hi : n.intercept other index c with
      | mk chain? n₁ =>
        rw [hi] at hbeside
        cases chain? with
        | none => rfl
        | some c => exact ih (by rw [hbeside.registry_eq]; exact h)

/-- Splices have no part in what belongs to nobody. -/
theorem offerOrphan_splices (n : Network) (index : Nat) (c : Chain) (keys : List Nat) (hooks : List Hook) :
    n.offerOrphan index c (keys.map .splice ++ hooks) = n.offerOrphan index c hooks := by
  induction keys with
  | nil => rfl
  | cons key rest ih => exact ih

/-- Nor in what is told of interfaces. -/
theorem announce_splices (n : Network) (call : String → HookCall) (keys : List Nat) (hooks : List Hook) :
    n.announce call (keys.map .splice ++ hooks) = n.announce call hooks := by
  induction keys with
  | nil => rfl
  | cons key rest ih => exact ih

/-! ## Where nothing is refused -/

/-- Memory refuses nothing that a splice asks for because of a frame: headers for a copy of one for everybody, and a
place in the queue for what it queues. -/
def HasRoom (n : Network) (key index : Nat) (f : Frame) : Prop :=
  ∀ plug ∈ (n.registry key).byIndex? index,
    (f.destination? = some Mac.broadcast → n.memory.HasHeaders f.segments.length) ∧
    (f.destination? = some Mac.broadcast ∨ f.destination? = some plug.virtualMac →
      n.memory.Grants (n.budgetOf key) Queue.nodeNote Queue.nodeSize)

instance (n : Network) (key index : Nat) (f : Frame) : Decidable (n.HasRoom key index f) :=
  inferInstanceAs (Decidable (∀ plug ∈ (n.registry key).byIndex? index, _))

/-- Memory refuses nothing that splices ask for one after the other. -/
def Welcomes (n : Network) (index : Nat) (f : Frame) : List Nat → Prop
  | [] => True
  | key :: rest => n.HasRoom key index f ∧ (n.copyFor key index f).Welcomes index f rest

instance decidableWelcomes (n : Network) (index : Nat) (f : Frame) :
    (keys : List Nat) → Decidable (n.Welcomes index f keys)
  | [] => .isTrue trivial
  | _ :: rest => @instDecidableAnd _ _ _ (decidableWelcomes _ index f rest)

/-- A frame for one address leaves nothing behind, so each splice meets the same memory. -/
theorem Welcomes.hasRoom {f : Frame} (h : n.Welcomes index f keys) (hsingle : f.destination? ≠ some Mac.broadcast)
    (hkey : key ∈ keys) : n.HasRoom key index f := by
  induction keys with
  | nil => exact absurd hkey List.not_mem_nil
  | cons first rest ih =>
    obtain ⟨hroom, hrest⟩ := h
    rw [copyFor_eq hsingle] at hrest
    rcases List.mem_cons.1 hkey with rfl | hkey
    · exact hroom
    · exact ih hrest hkey

/-- A copy of a frame for everybody is let in. -/
theorem line_copyFor {f : Frame} (hl : n.Listed) (hall : f.destination? = some Mac.broadcast)
    (hroom : n.HasRoom key index f) (hfound : (n.registry key).byIndex? index = some plug) :
    ∃ charge, (n.copyFor key index f).plane.line plug =
      { n.plane.line plug with queue := (n.plane.line plug).queue.letIn (.last f) charge } := by
  obtain ⟨hheaders, hgrants⟩ := hroom plug hfound
  unfold copyFor
  rw [hfound]
  dsimp only
  rw [if_pos hall]
  exact Backplane.line_queueCopy_granted (hl (byIndex?_mem hfound)).lined (hheaders hall) (hgrants (.inl hall))

/-- No other line is touched. -/
theorem line_copyFor_of_ne {f : Frame} {other : Plug}
    (h : ∀ plug, (n.registry key).byIndex? index = some plug → plug.key ≠ other.key) :
    (n.copyFor key index f).plane.line other = n.plane.line other := by
  unfold copyFor
  cases hfound : (n.registry key).byIndex? index with
  | none => rfl
  | some plug =>
    dsimp only
    split
    · exact Backplane.line_queueCopy_of_ne f (h plug hfound)
    · rfl

/-- A copy comes to no line that is not plugged on the interface. -/
theorem line_copiesFor_of_ne {f : Frame} {other : Plug}
    (h : ∀ key ∈ keys, ∀ plug, (n.registry key).byIndex? index = some plug → plug.key ≠ other.key) :
    (n.copiesFor index f keys).plane.line other = n.plane.line other := by
  induction keys generalizing n with
  | nil => rfl
  | cons key rest ih =>
    rw [List.forall_mem_cons] at h
    rw [copiesFor, ih, line_copyFor_of_ne h.1]
    intro k hk plug hfound
    rw [(n.beside_copyFor key index f).registry_eq] at hfound
    exact h.2 k hk plug hfound

/-- Each splice that has plugged the interface queues one copy of a frame for everybody, and only one. -/
theorem line_copiesFor {f : Frame} (hl : n.Listed) (ha : n.Apart) (hnodup : keys.Nodup)
    (hall : f.destination? = some Mac.broadcast) (hw : n.Welcomes index f keys) (hkey : key ∈ keys)
    (hfound : (n.registry key).byIndex? index = some plug) :
    ∃ charge, (n.copiesFor index f keys).plane.line plug =
      { n.plane.line plug with queue := (n.plane.line plug).queue.letIn (.last f) charge } := by
  -- on the splices: the line is touched at its own splice, neither before nor after
  induction keys generalizing n with
  | nil => exact absurd hkey List.not_mem_nil
  | cons first rest ih =>
    obtain ⟨hroom, hrest⟩ := hw
    rw [List.nodup_cons] at hnodup
    have hbeside := n.beside_copyFor first index f
    have hne {k : Nat} {p : Plug} (hk : k ≠ key) (hp : (n.registry k).byIndex? index = some p) :
        p.key ≠ plug.key := fun heq => hk (ha (byIndex?_mem hp) (byIndex?_mem hfound) heq)
    rcases List.mem_cons.1 hkey with rfl | hkey
    · obtain ⟨charge, hline⟩ := line_copyFor hl hall hroom hfound
      refine ⟨charge, ?_⟩
      rw [copiesFor, line_copiesFor_of_ne, hline]
      intro k hk p hp
      rw [hbeside.registry_eq] at hp
      exact hne (fun heq => hnodup.1 (by rw [← heq]; exact hk)) hp
    · have hbefore : (n.copyFor first index f).plane.line plug = n.plane.line plug :=
        line_copyFor_of_ne fun p hp => hne (fun heq => hnodup.1 (by rw [heq]; exact hkey)) hp
      rw [copiesFor, ← hbefore]
      refine ih (hl.copyFor first index f) (ha.dwindles hbeside.dwindles) hnodup.2 hrest hkey ?_
      rw [hbeside.registry_eq]
      exact hfound

end Network

end Patchbay
