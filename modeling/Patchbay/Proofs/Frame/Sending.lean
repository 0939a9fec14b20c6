import Patchbay.Proofs.Estate.Lifetime
import Patchbay.Proofs.Frame.Lending
import Patchbay.Proofs.Inbox.Capture

/-!
# `Proofs.Frame.Sending` — what is sent arrives whole at the right places, or nothing does

Buffers are sent as one frame over their own storage. It goes out to the wire unless it is for the interface itself,
and up the host's own stack if it is for the interface or for everybody; for each of these ways a header and a
reference is lent to each of its segments before anybody sees anything of it. Where the pool has not enough headers for
that, nobody ever does.

## Contents
* `Plug.GoesOut`, `Plug.GoesUp` — the ways of a frame;
* `Network.Unsent` — nothing is different but that headers came back, and that a frame was found too long;
* `Network.submit_of_empty`, `Network.submit_refused`, `Network.submit_copy_refused` — nothing to send, or not headers
  enough;
* `Network.equip`, `Network.dispatch`, `Network.submit_sent` — headers enough;
* `Network.letsIn`, `Network.arrivals_receive`, `Network.arrivals_dispatch` — what comes to the stack and to the wire;
* `Scene.run_submit` — whatever happened before.
-/

namespace Patchbay

/-! ## The ways of a frame -/

namespace Plug

/-- Bytes that are sent go out to the wire, unless they are for the interface itself. -/
def GoesOut (plug : Plug) (bytes : List UInt8) : Prop :=
  Mac.destination? bytes = some Mac.broadcast ∨ Mac.destination? bytes ≠ some plug.realMac

/-- They go up the host's own stack if they are for the interface or for everybody. -/
def GoesUp (plug : Plug) (bytes : List UInt8) : Prop :=
  Mac.destination? bytes = some Mac.broadcast ∨ Mac.destination? bytes = some plug.realMac

instance (plug : Plug) (bytes : List UInt8) : Decidable (plug.GoesOut bytes) :=
  inferInstanceAs (Decidable (_ ∨ _))

instance (plug : Plug) (bytes : List UInt8) : Decidable (plug.GoesUp bytes) :=
  inferInstanceAs (Decidable (_ ∨ _))

end Plug

namespace Network

variable {n n' : Network} {key id : Nat} {plug : Plug} {buffers : List View}

/-! ## What is left of a frame that is not sent -/

/-- Nothing is different but that headers came back, and that a frame may have been found too long. -/
structure Unsent (n n' : Network) : Prop where
  splices : n'.splices = n.splices
  slot : n'.slot = n.slot
  stack : n'.stack = n.stack
  wire : n'.wire = n.wire
  calls : n'.calls = n.calls
  nextIndex : n'.nextIndex = n.nextIndex
  table : n'.plane.table = n.plane.table
  queues : n'.plane.lines.map Line.queue = n.plane.lines.map Line.queue
  memory : ∃ count, n'.memory = n.memory.countBack count

theorem warnOfLength_setMemory (n : Network) (m : Memory) (plug : Plug) (length : Nat) :
    (n.setMemory m).warnOfLength plug length = (n.warnOfLength plug length).setMemory m := by
  have htable : (n.setMemory m).plane.table = n.plane.table := rfl
  unfold warnOfLength
  rw [htable]
  cases n.plane.table.get? plug.index with
  | none => rfl
  | some i =>
    dsimp only
    split <;> rfl

theorem queues_setLine (p : Backplane) (plug : Plug) {line : Line} (h : line.queue = (p.line plug).queue) :
    (p.setLine plug line).lines.map Line.queue = p.lines.map Line.queue := by
  apply Array.ext_getElem?
  intro i
  rw [Backplane.setLine, Array.getElem?_map, Array.getElem?_map, Array.getElem?_setIfInBounds]
  by_cases hi : plug.key = i
  · rw [if_pos hi]
    by_cases hlt : plug.key < p.lines.size
    · have hline : p.line plug = p.lines[plug.key] := by
        rw [Backplane.line, Array.getD_eq_getD_getElem?, Array.getElem?_eq_getElem hlt]
        rfl
      rw [if_pos hlt, ← hi, Array.getElem?_eq_getElem hlt, Option.map_some, Option.map_some, h, hline]
    · rw [if_neg hlt, ← hi, Array.getElem?_eq_none (Nat.le_of_not_lt hlt)]
  · rw [if_neg hi]

theorem Unsent.countBack (n : Network) (count : Nat) : n.Unsent (n.setMemory (n.memory.countBack count)) :=
  ⟨rfl, rfl, rfl, rfl, rfl, rfl, rfl, rfl, count, rfl⟩

theorem Unsent.warned (n : Network) (plug : Plug) (length count : Nat) :
    n.Unsent ((n.warnOfLength plug length).setMemory (n.memory.countBack count)) := by
  unfold warnOfLength
  split
  · exact .countBack n count
  split
  · exact ⟨rfl, rfl, rfl, rfl, rfl, rfl, rfl, queues_setLine n.plane plug rfl, count, rfl⟩
  · exact .countBack n count

/-! ## Sending -/

/-- The network when all that a frame needs for its ways is lent to it. It is noted if the frame is too long. -/
def equip (n : Network) (plug : Plug) (f : Frame) : Network :=
  (n.warnOfLength plug f.bytes.length).setMemory (n.memory.lend
    ((if plug.GoesUp f.bytes then f.segments else []) ++ if plug.GoesOut f.bytes then f.segments else []))

/-- The network after a frame went its ways. -/
def dispatch (n : Network) (plug : Plug) (f : Frame) : Network :=
  let up := if plug.GoesUp f.bytes then n.receive plug.index (.last f) else n
  if plug.GoesOut f.bytes then up.transmit plug.index (.last f) else up

section Submit

variable (hplug : (n.registry key).byId? id = some plug)
include hplug

/-- Buffers that show nothing are not sent. -/
theorem submit_of_empty (hempty : buffers.flatMap View.bytes = []) : n.submit key id buffers = (.ok (), n) := by
  have hzero := Frame.segmentsFor_eq_zero hempty
  have hnone : (Frame.covering buffers (some plug.index)).segments = [] := by
    rw [← List.length_eq_zero_iff, Frame.length_segments_covering, hzero]
  have henough : ∀ free ∈ n.memory.pool.free?, Frame.segmentsFor buffers ≤ free := by
    intro free _
    rw [hzero]
    exact Nat.zero_le free
  have hframe : Frame.ofBuffers n.memory buffers (some plug.index) = _ := Frame.ofBuffers_lent henough
  have hlength : (Frame.covering buffers (some plug.index)).length = 0 := by
    rw [← Frame.length_bytes, Frame.bytes_covering, hempty]
    rfl
  unfold submit
  rw [hplug]
  dsimp only
  rw [onMemory_eq hframe, hnone]
  dsimp only
  rw [if_pos hlength, Memory.releaseFrame, hnone]
  rfl

/-- Without headers for the frame nobody sees anything. -/
theorem submit_refused {free : Nat} (hrefers : n.memory.Refers (Frame.covering buffers (some plug.index)).segments)
    (hfree : n.memory.pool.free? = some free) (hlack : free < Frame.segmentsFor buffers) :
    n.submit key id buffers =
      (.error (.memory (.poolExhausted 1)), n.setMemory (n.memory.countBack free)) := by
  have hframe := Frame.ofBuffers_refused hfree hlack hrefers
  unfold submit
  rw [hplug]
  dsimp only
  rw [onMemory_eq hframe]

/-- What comes of buffers once there is a frame over them. -/
theorem submit_lent (hne : buffers.flatMap View.bytes ≠ [])
    (h : ∀ free ∈ n.memory.pool.free?, Frame.segmentsFor buffers ≤ free) :
    let f := Frame.covering buffers (some plug.index)
    let ready := (n.warnOfLength plug f.bytes.length).setMemory (n.memory.lend f.segments)
    n.submit key id buffers =
      if Mac.destination? f.bytes = some Mac.broadcast then
        match ready.onMemory fun m => f.copy m with
        | (none, n) =>
          (.error (.memory (.poolExhausted f.segments.length)), n.setMemory (n.memory.releaseFrame f))
        | (some copy, n) => (.ok (), (n.receive plug.index (.last copy)).transmit plug.index (.last f))
      else if Mac.destination? f.bytes = some plug.realMac then (.ok (), ready.receive plug.index (.last f))
      else (.ok (), ready.transmit plug.index (.last f)) := by
  intro f ready
  have hframe : Frame.ofBuffers n.memory buffers (some plug.index) = (.ok f, n.memory.lend f.segments) :=
    Frame.ofBuffers_lent h
  have hlength : f.length ≠ 0 := by
    rw [← Frame.length_bytes, Frame.bytes_covering]
    exact fun hzero => hne (List.length_eq_zero_iff.1 hzero)
  have hready : (n.setMemory (n.memory.lend f.segments)).warnOfLength plug f.length = ready := by
    rw [warnOfLength_setMemory, ← Frame.length_bytes]
  unfold submit
  rw [hplug]
  dsimp only
  rw [onMemory_eq hframe]
  dsimp only
  rw [hready, Frame.destination?_eq]
  exact if_neg hlength

/-- Nor does anybody without headers for the copy that goes up the stack. -/
theorem submit_copy_refused {free : Nat}
    (hrefers : n.memory.Refers (Frame.covering buffers (some plug.index)).segments)
    (hne : buffers.flatMap View.bytes ≠ []) (hall : Mac.destination? (buffers.flatMap View.bytes) = some Mac.broadcast)
    (hfree : n.memory.pool.free? = some free) (hframe : Frame.segmentsFor buffers ≤ free)
    (hlack : free < 2 * Frame.segmentsFor buffers) :
    n.submit key id buffers =
      (.error (.memory (.poolExhausted (Frame.segmentsFor buffers))),
        (n.warnOfLength plug (buffers.flatMap View.bytes).length).setMemory (n.memory.countBack free)) := by
  have henough : ∀ free ∈ n.memory.pool.free?, Frame.segmentsFor buffers ≤ free := by
    intro other hother
    obtain rfl := Option.some.inj (hfree.symm.trans hother)
    exact hframe
  rw [submit_lent hplug hne henough]
  rw [← Frame.length_segments_covering buffers (some plug.index)] at hframe hlack ⊢
  rw [← Frame.bytes_covering buffers (some plug.index)] at hall ⊢
  generalize Frame.covering buffers (some plug.index) = f at *
  have hleft : (n.memory.lend f.segments).pool.free? = some (free - f.segments.length) := by
    rw [Memory.free?_lend, hfree]
    rfl
  have hcopy : f.copy (n.memory.lend f.segments) =
      (none, (n.memory.lend f.segments).countBack (free - f.segments.length)) :=
    Frame.copy_refused hleft (by omega) (hrefers.lend f.segments)
  -- what was lent to the frame goes back behind what was lent to the copy
  have hback : ((n.memory.lend f.segments).countBack (free - f.segments.length)).releaseFrame f =
      n.memory.countBack free := by
    have hrefers : (n.memory.countBack (free - f.segments.length)).Refers f.segments := hrefers
    rw [← Memory.lend_countBack, Memory.releaseFrame, Memory.releaseSegments_lend hrefers,
      Memory.countBack_countBack, Nat.sub_add_cancel hframe]
  rw [if_pos hall, onMemory_eq hcopy]
  dsimp only
  rw [← hback]
  rfl

/-- With headers for all its ways a frame goes each of them, over storage that is lent to it for each way anew. -/
theorem submit_sent (hne : buffers.flatMap View.bytes ≠ [])
    (h : ∀ free ∈ n.memory.pool.free?, Frame.segmentsFor buffers ≤ free ∧
      (Mac.destination? (buffers.flatMap View.bytes) = some Mac.broadcast →
        2 * Frame.segmentsFor buffers ≤ free)) :
    n.submit key id buffers =
      (.ok (),
        (n.equip plug (.covering buffers (some plug.index))).dispatch plug (.covering buffers (some plug.index))) := by
  rw [submit_lent hplug hne fun free hfree => (h free hfree).1]
  rw [← Frame.length_segments_covering buffers (some plug.index), ← Frame.bytes_covering buffers (some plug.index)] at h
  generalize Frame.covering buffers (some plug.index) = f at *
  unfold equip dispatch
  by_cases hall : Mac.destination? f.bytes = some Mac.broadcast
  · have hup : plug.GoesUp f.bytes := .inl hall
    have hout : plug.GoesOut f.bytes := .inl hall
    have hcopy : f.copy (n.memory.lend f.segments) = (some f, (n.memory.lend f.segments).lend f.segments) := by
      apply Frame.copy_lent
      intro left hleft
      rw [Memory.free?_lend] at hleft
      obtain ⟨free, hfree, rfl⟩ := Option.map_eq_some_iff.1 hleft
      have : 2 * f.segments.length ≤ free := (h free hfree).2 hall
      omega
    have hlent : n.memory.lend (f.segments ++ f.segments) = (n.memory.lend f.segments).lend f.segments :=
      List.foldl_append
    rw [if_pos hall, onMemory_eq hcopy]
    simp only [if_pos hup, if_pos hout, hlent]
    rfl
  rw [if_neg hall]
  by_cases hown : Mac.destination? f.bytes = some plug.realMac
  · have hup : plug.GoesUp f.bytes := .inr hown
    have hout : ¬ plug.GoesOut f.bytes := fun h => h.elim hall fun hother => hother hown
    simp only [if_pos hown, if_pos hup, if_neg hout, List.append_nil]
  · have hup : ¬ plug.GoesUp f.bytes := fun h => h.elim hall hown
    have hout : plug.GoesOut f.bytes := .inr hown
    simp only [if_neg hown, if_neg hup, if_pos hout, List.nil_append]

end Submit

/-! ## What arrives -/

/-- Nothing arrived while a chain was offered to hooks, and what goes on of it is the chain itself. -/
structure Offered (n : Network) (c : Chain) (answer : Option Chain × Network) : Prop where
  stack : answer.2.stack = n.stack
  wire : answer.2.wire = n.wire
  chain : ∀ c' ∈ answer.1, c' = c

theorem offered_intercept (n : Network) (key index : Nat) (c : Chain) : n.Offered c (n.intercept key index c) := by
  have hpass : n.Offered c (some c, n) := ⟨rfl, rfl, fun _ h => (Option.some.inj h).symm⟩
  unfold intercept
  dsimp only
  split
  · exact hpass
  split
  · exact hpass
  split
  · exact hpass
  split
  · exact hpass
  · exact ⟨rfl, rfl, fun _ h => absurd h (Option.not_mem_none _)⟩
  · exact ⟨rfl, rfl, fun _ h => (Option.some.inj h).symm⟩

theorem offered_offerInput (n : Network) (index : Nat) (c : Chain) (hooks : List Hook) :
    n.Offered c (n.offerInput index c hooks) := by
  -- on the hooks: what one of them hands on is the chain that it was offered
  induction hooks generalizing n with
  | nil => exact ⟨rfl, rfl, fun _ h => (Option.some.inj h).symm⟩
  | cons hook rest ih =>
    cases hook with
    | foreign hooks =>
      unfold offerInput
      dsimp only
      split
      · exact ⟨rfl, rfl, fun _ h => (Option.some.inj h).symm⟩
      · exact ⟨rfl, rfl, fun _ h => absurd h (Option.not_mem_none _)⟩
    | splice key =>
      have hstep := n.offered_intercept key index c
      unfold offerInput
      cases hi : n.intercept key index c with
      | mk chain? n₁ =>
        rw [hi] at hstep
        cases chain? with
        | none => exact ⟨hstep.stack, hstep.wire, fun _ h => absurd h (Option.not_mem_none _)⟩
        | some c' =>
          obtain rfl := hstep.chain c' rfl
          have hrest := ih n₁
          exact ⟨hrest.stack.trans hstep.stack, hrest.wire.trans hstep.wire, hrest.chain⟩

/-- Says whether the hooks let a chain that is received on an interface go on to the stack. -/
def letsIn (n : Network) (index : Nat) (c : Chain) : Bool :=
  (n.offerInput index (c.setHead { c.head with receivedOn := some index }) n.path).1.isSome

/-- A chain that is received comes to the stack once and as a whole, if no hook keeps it, and nowhere else. -/
theorem arrivals_receive (n : Network) (index : Nat) (c : Chain) :
    (n.receive index c).wire = n.wire ∧
      (n.receive index c).stack =
        n.stack ++ (if n.letsIn index c then (Delivery.ofChain index c).toArray else #[]) := by
  have hoffered := n.offered_offerInput index (c.setHead { c.head with receivedOn := some index }) n.path
  -- the mark on the first frame is in none of the rows
  have hmark :
      Delivery.ofChain index (c.setHead { c.head with receivedOn := some index }) = Delivery.ofChain index c := by
    cases c <;> rfl
  unfold receive letsIn
  dsimp only
  cases ho : n.offerInput index (c.setHead { c.head with receivedOn := some index }) n.path with
  | mk chain? n₁ =>
    rw [ho] at hoffered
    cases chain? with
    | none => exact ⟨hoffered.wire, hoffered.stack.trans Array.append_empty.symm⟩
    | some d =>
      obtain rfl := hoffered.chain d rfl
      refine ⟨hoffered.wire, ?_⟩
      show n₁.stack ++ (Delivery.ofChain index _).toArray = _
      rw [hoffered.stack, hmark]
      rfl

/-- On its ways a frame comes to the wire if it goes out, and to the stack if it goes up and no hook keeps it. -/
theorem arrivals_dispatch (n : Network) (plug : Plug) (f : Frame) :
    (n.dispatch plug f).wire =
        n.wire ++ (if plug.GoesOut f.bytes then #[⟨plug.index, f.bytes, f.segments.length⟩] else #[]) ∧
      (n.dispatch plug f).stack =
        n.stack ++ (if plug.GoesUp f.bytes ∧ n.letsIn plug.index (.last f) then
          #[⟨plug.index, f.bytes, f.segments.length⟩] else #[]) := by
  -- the wire has no part in the way up, nor the stack in the way out
  have hout (up : Network) : (up.transmit plug.index (.last f)).wire =
      up.wire ++ #[⟨plug.index, f.bytes, f.segments.length⟩] := rfl
  have hstack (up : Network) : (if plug.GoesOut f.bytes then up.transmit plug.index (.last f) else up).stack =
      up.stack := by
    split <;> rfl
  have hwire (up : Network) : (if plug.GoesOut f.bytes then up.transmit plug.index (.last f) else up).wire =
      up.wire ++ (if plug.GoesOut f.bytes then #[⟨plug.index, f.bytes, f.segments.length⟩] else #[]) := by
    split
    · exact hout up
    · rw [Array.append_empty]
  obtain ⟨hkept, hreached⟩ := n.arrivals_receive plug.index (.last f)
  unfold dispatch
  dsimp only
  rw [hwire, hstack]
  by_cases hup : plug.GoesUp f.bytes
  · rw [if_pos hup, hkept, hreached]
    simp only [hup, true_and]
    rfl
  · simp only [hup, false_and, if_false, Array.append_empty, and_self]

/-- Nothing arrives while a frame is made ready. -/
theorem arrivals_equip (n : Network) (plug : Plug) (f : Frame) :
    (n.equip plug f).wire = n.wire ∧ (n.equip plug f).stack = n.stack :=
  ⟨(Unsent.warned n plug f.bytes.length 0).wire, (Unsent.warned n plug f.bytes.length 0).stack⟩

end Network

/-! ## At any moment -/

namespace Scene

/-- Somebody refers to the storage of every buffer that a caller has. -/
theorem Exact.refers {s : Scene} {h : History} (hs : s.Exact h) {buffers : List View}
    (hbuffers : ∀ v ∈ buffers, Item.view v ∈ s.items) (receivedOn : Option Nat) :
    s.memory.Refers (Frame.covering buffers receivedOn).segments := by
  intro segment hsegment
  obtain ⟨v, hv, hcut⟩ := List.mem_flatMap.1 hsegment
  obtain ⟨cut, -, rfl⟩ := List.mem_map.1 hcut
  have hview : v ∈ s.views := List.mem_flatMap.2 ⟨.view v, hbuffers v hv, List.mem_singleton_self v⟩
  have hreferred : v.storage ∈ s.references := List.mem_append_right _ (List.mem_map_of_mem hview)
  show 0 < s.memory.referencesTo v.storage
  rw [hs.counted v.storage (hs.known v.storage hreferred)]
  exact List.count_pos_iff.2 hreferred

/-- **What is sent arrives whole at the right places, or nobody sees anything of it.** On a host after any run of acts,
a consumer sends buffers that callers have on an interface that is plugged under an id. If the buffers show no byte,
nothing happens. Otherwise the pool needs a header for every segment of the frame, and as many again if the frame is
for everybody. Where it has less free, sending fails because of that, and neither splices nor slot, nor stack, wire or
queues, nor the headers, clusters, references and budgets are different from before. Where it has them, sending
succeeds: a frame with the bytes of the buffers, in that order, goes out to the wire exactly once unless it is for the
interface itself, and is received on the interface exactly once if it is for the interface or for everybody; from
there it comes to the stack, unless a hook keeps it. -/
theorem run_submit (limit : Option Nat) (turns : List Turn) {key id : Nat} {plug : Plug} {buffers : List View}
    (hplug : (((start limit).run turns).network.registry key).byId? id = some plug)
    (hbuffers : ∀ v ∈ buffers, Item.view v ∈ ((start limit).run turns).items) :
    let n := ((start limit).run turns).network
    let bytes := buffers.flatMap View.bytes
    let count := total (fun v => (v.bytes.length + 2047) / 2048) buffers
    let everybody := Mac.destination? bytes = some Mac.broadcast
    (bytes = [] → n.submit key id buffers = (.ok (), n)) ∧
    (bytes ≠ [] → ∀ free ∈ n.memory.pool.free?, free < count ∨ everybody ∧ free < 2 * count →
      ∃ asked n', n.submit key id buffers = (.error (.memory (.poolExhausted asked)), n') ∧ n.Unsent n') ∧
    (bytes ≠ [] → (∀ free ∈ n.memory.pool.free?, count ≤ free ∧ (everybody → 2 * count ≤ free)) →
      ∃ f n', n.submit key id buffers = (.ok (), n') ∧
        f.bytes = bytes ∧ f.segments.length = count ∧ f.receivedOn = some plug.index ∧
        n' = (n.equip plug f).dispatch plug f ∧
        n'.wire = n.wire ++ (if plug.GoesOut bytes then #[⟨plug.index, bytes, count⟩] else #[]) ∧
        n'.stack = n.stack ++ (if plug.GoesUp bytes ∧ (n.equip plug f).letsIn plug.index (.last f) then
          #[⟨plug.index, bytes, count⟩] else #[])) := by
  intro n bytes count everybody
  obtain ⟨h, hs⟩ := settled_run limit turns
  have hrefers := hs.exact.refers hbuffers (some plug.index)
  refine ⟨Network.submit_of_empty hplug, ?_, ?_⟩
  · intro hne free hfree hlack
    by_cases hframe : count ≤ free
    · have hcopy : everybody ∧ free < 2 * count := hlack.resolve_left (Nat.not_lt.2 hframe)
      exact ⟨_, _, Network.submit_copy_refused hplug hrefers hne hcopy.1 hfree hframe hcopy.2, .warned n plug _ free⟩
    · exact ⟨_, _, Network.submit_refused hplug hrefers hfree (Nat.lt_of_not_le hframe), .countBack n free⟩
  · intro hne henough
    have hbytes : (Frame.covering buffers (some plug.index)).bytes = bytes := Frame.bytes_covering _ _
    have hcount : (Frame.covering buffers (some plug.index)).segments.length = count :=
      Frame.length_segments_covering _ _
    have hmarked : (Frame.covering buffers (some plug.index)).receivedOn = some plug.index := rfl
    have hsent := Network.submit_sent hplug hne henough
    generalize Frame.covering buffers (some plug.index) = f at hbytes hcount hmarked hsent
    obtain ⟨hwire, hstack⟩ := n.arrivals_equip plug f
    obtain ⟨hout, hup⟩ := (n.equip plug f).arrivals_dispatch plug f
    rw [hwire, hbytes, hcount] at hout
    rw [hstack, hbytes, hcount] at hup
    exact ⟨f, _, hsent, hbytes, hcount, hmarked, rfl, hout, hup⟩

/-- A frame for everybody takes two headers: with both free it comes to the wire and to the stack, with one nobody sees
anything. -/
theorem run_submit_everybody :
    let bytes : List UInt8 := [255, 255, 255, 255, 255, 255, 7]
    let own : Mac := ⟨[2, 0, 0, 0, 0, 1], rfl⟩
    let turns := setUp own ++ [{ act := .block (.cluster bytes) }]
    let v : View := ⟨⟨0, .cluster (.ofList bytes)⟩, 0, 7⟩
    let s := (start (some 2)).run turns
    let s' := (start (some 1)).run turns
    (s.network.registry 0).byId? 7 = some (.ofSetUp own) ∧ (∀ w ∈ [v], Item.view w ∈ s.items) ∧
      (s'.network.registry 0).byId? 7 = some (.ofSetUp own) ∧ (∀ w ∈ [v], Item.view w ∈ s'.items) ∧
      (∃ n', s.network.submit 0 7 [v] = (.ok (), n') ∧ n'.wire = s.network.wire ++ #[⟨1, bytes, 1⟩] ∧
        n'.stack = s.network.stack ++ #[⟨1, bytes, 1⟩]) ∧
      ∃ asked n', s'.network.submit 0 7 [v] = (.error (.memory (.poolExhausted asked)), n') ∧
        s'.network.Unsent n' := by
  intro bytes own turns v s s'
  have hplug : (s.network.registry 0).byId? 7 = some (.ofSetUp own) := by decide +kernel
  have hplug' : (s'.network.registry 0).byId? 7 = some (.ofSetUp own) := by decide +kernel
  have hitem : ∀ w ∈ [v], Item.view w ∈ s.items := by decide +kernel
  have hitem' : ∀ w ∈ [v], Item.view w ∈ s'.items := by decide +kernel
  have hshown : [v].flatMap View.bytes = bytes := by decide +kernel
  have hcount : total (fun v => (v.bytes.length + 2047) / 2048) [v] = 1 := by decide +kernel
  have hne : [v].flatMap View.bytes ≠ [] := by
    rw [hshown]
    exact List.cons_ne_nil _ _
  obtain ⟨-, -, hsent⟩ := run_submit (some 2) turns hplug hitem
  obtain ⟨-, hrefused, -⟩ := run_submit (some 1) turns hplug' hitem'
  obtain ⟨f, n', hok, -, -, -, -, hwire, -⟩ := hsent hne (by decide +kernel)
  have hstack : (s.network.submit 0 7 [v]).2.stack = s.network.stack ++ #[⟨1, bytes, 1⟩] := by decide +kernel
  rw [hok] at hstack
  refine ⟨hplug, hitem, hplug', hitem', ⟨n', hok, ?_, hstack⟩, ?_⟩
  · rw [if_pos (by decide +kernel), hshown, hcount] at hwire
    exact hwire
  · exact hrefused hne 1 (by decide +kernel) (by decide +kernel)

end Scene

end Patchbay
