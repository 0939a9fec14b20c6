import Patchbay.Proofs.Frame.Sending
import Patchbay.Proofs.Inbox.Counting

/-!
# `Proofs.Inbox.Warnings` — frames that were too long, and what is counted of them

A frame that is longer than the MTU of its interface is sent all the same, and the plug counts it. It counts it when
there is a frame, before there is the copy of it that goes up the stack if it is for everybody. So the counter is ahead
of the frames that were sent by those whose copy finds no headers; sending one of them fails, and its plug has counted
it.

## Contents
* `Network.tooLong`, `Network.warnings_warnOfLength` — a frame that is counted;
* `Network.Sending`, `Network.sending_submit` — what becomes of buffers that are sent;
* `Scene.sentTooLong`, `Scene.unsentTooLong` — acts that send a frame that is too long, and acts that only count one;
* `Scene.Settled.warnings_perform`, `Scene.Settled.warnings_run` — act by act;
* `Scene.run_warnings` — whatever happens; `Scene.not_sent_uncopied`.
-/

namespace Patchbay

namespace Line

theorem steady_mtuWarnings : Line.Steady Line.mtuWarnings where
  queue _ _ _ := rfl
  holders _ _ := rfl

/-- The line with one more frame counted that was too long. -/
def warned (line : Line) : Line := { line with mtuWarnings := line.mtuWarnings + 1 }

end Line

namespace Network

variable {n : Network} {key id line : Nat} {plug : Plug} {buffers : List View}

/-! ## A frame that is counted -/

/-- Says whether a frame of so many bytes is too long for the interface of a plug, as its MTU is at the moment. -/
def tooLong (n : Network) (plug : Plug) (length : Nat) : Bool :=
  (n.plane.table.get? plug.index).any fun i => i.mtu < length

theorem not_tooLong_zero (n : Network) (plug : Plug) : n.tooLong plug 0 = false := by
  unfold tooLong
  cases n.plane.table.get? plug.index <;> rfl

theorem warnOfLength_eq (n : Network) (plug : Plug) (length : Nat) : n.warnOfLength plug length =
    if n.tooLong plug length then { n with plane := n.plane.setLine plug (n.plane.line plug).warned } else n := by
  unfold warnOfLength tooLong
  cases n.plane.table.get? plug.index with
  | none => rfl
  | some i =>
    dsimp only
    rw [Option.any_some]
    by_cases h : i.mtu < length
    · rw [if_pos h, if_pos (decide_eq_true h)]
      rfl
    · rw [if_neg h, if_neg (mt of_decide_eq_true h)]

/-- A frame that is too long is counted once, on the line of its plug. -/
theorem warnings_warnOfLength (hlined : plug.key < n.plane.lines.size) (length line : Nat) :
    (n.warnOfLength plug length).plane.figures Line.mtuWarnings line =
      n.plane.figures Line.mtuWarnings line + (decide (plug.key = line) && n.tooLong plug length).toNat := by
  rw [warnOfLength_eq]
  cases htoo : n.tooLong plug length with
  | false =>
    rw [Bool.and_false]
    rfl
  | true =>
    rw [if_pos rfl, Bool.and_true]
    refine (n.plane.figures_setLine plug _ line).trans ?_
    by_cases hkey : plug.key = line
    · subst hkey
      rw [if_pos ⟨rfl, hlined⟩, decide_eq_true rfl]
      rfl
    · rw [if_neg fun h => hkey h.1, decide_eq_false hkey]
      rfl

/-- Lines are as they were just if the frame was not too long. -/
theorem lines_warnOfLength_iff (hlined : plug.key < n.plane.lines.size) (length : Nat) :
    (n.warnOfLength plug length).plane.lines = n.plane.lines ↔ n.tooLong plug length = false := by
  constructor
  · intro hlines
    have hcount := warnings_warnOfLength hlined length plug.key
    rw [Backplane.figures, hlines, decide_eq_true rfl, Bool.true_and] at hcount
    exact Bool.toNat_eq_zero.1 (Nat.left_eq_add.1 hcount)
  · intro h
    rw [warnOfLength_eq, h]
    rfl

/-! ## What becomes of buffers that are sent -/

/-- Says whether buffers are sent to everybody and the pool has headers for their frame, but not for a copy besides. -/
def lacksCopy (n : Network) (buffers : List View) : Bool :=
  decide (Mac.destination? (buffers.flatMap View.bytes) = some Mac.broadcast) &&
    n.memory.pool.free?.any fun free =>
      decide (Frame.segmentsFor buffers ≤ free) && decide (free < 2 * Frame.segmentsFor buffers)

/-- What becomes of buffers that are sent through a plug: nothing if they show nothing, and nothing without headers for
their frame; it is only counted without headers for its copy, and otherwise it goes its ways. -/
inductive Sending (n : Network) (plug : Plug) (buffers : List View) : Except NetFailure Unit → Network → Prop
  | nothing (empty : buffers.flatMap View.bytes = []) (enough : n.lacksCopy buffers = false) :
      Sending n plug buffers (.ok ()) n
  | refused {free : Nat} (enough : n.lacksCopy buffers = false) :
      Sending n plug buffers (.error (.memory (.poolExhausted 1))) (n.setMemory (n.memory.countBack free))
  | uncopied {free : Nat} (lacks : n.lacksCopy buffers = true) :
      Sending n plug buffers (.error (.memory (.poolExhausted (Frame.segmentsFor buffers))))
        ((n.warnOfLength plug (buffers.flatMap View.bytes).length).setMemory (n.memory.countBack free))
  | sent (shown : buffers.flatMap View.bytes ≠ []) (enough : n.lacksCopy buffers = false) :
      Sending n plug buffers (.ok ())
        ((n.equip plug (.covering buffers (some plug.index))).dispatch plug (.covering buffers (some plug.index)))

theorem lacksCopy_iff : n.lacksCopy buffers = true ↔
    Mac.destination? (buffers.flatMap View.bytes) = some Mac.broadcast ∧
      ∃ free, n.memory.pool.free? = some free ∧
        Frame.segmentsFor buffers ≤ free ∧ free < 2 * Frame.segmentsFor buffers := by
  simp only [lacksCopy, Bool.and_eq_true, decide_eq_true_eq, Option.any_eq_true]

theorem sending_submit (hfound : (n.registry key).byId? id = some plug)
    (hrefers : n.memory.Refers (Frame.covering buffers (some plug.index)).segments) :
    n.Sending plug buffers (n.submit key id buffers).1 (n.submit key id buffers).2 := by
  by_cases hempty : buffers.flatMap View.bytes = []
  · have henough : n.lacksCopy buffers = false := by
      refine Bool.eq_false_iff.2 fun h => ?_
      obtain ⟨-, free, -, -, hlack⟩ := lacksCopy_iff.1 h
      rw [Frame.segmentsFor_eq_zero hempty] at hlack
      exact Nat.not_lt_zero free hlack
    rw [submit_of_empty hfound hempty]
    exact .nothing hempty henough
  by_cases hlack : ∃ free, n.memory.pool.free? = some free ∧ free < Frame.segmentsFor buffers
  · obtain ⟨free, hfree, hlack⟩ := hlack
    have henough : n.lacksCopy buffers = false := by
      refine Bool.eq_false_iff.2 fun h => ?_
      obtain ⟨-, other, hother, hframe, -⟩ := lacksCopy_iff.1 h
      obtain rfl := Option.some.inj (hfree.symm.trans hother)
      exact Nat.not_lt.2 hframe hlack
    rw [submit_refused hfound hrefers hfree hlack]
    exact .refused henough
  cases hcopy : n.lacksCopy buffers with
  | true =>
    obtain ⟨hall, free, hfree, hframe, hlack⟩ := lacksCopy_iff.1 hcopy
    rw [submit_copy_refused hfound hrefers hempty hall hfree hframe hlack]
    exact .uncopied hcopy
  | false =>
    rw [submit_sent hfound hempty]
    · exact .sent hempty hcopy
    · intro free hfree
      have hframe : Frame.segmentsFor buffers ≤ free := Nat.le_of_not_lt fun h => hlack ⟨free, hfree, h⟩
      refine ⟨hframe, fun hall => Nat.le_of_not_lt fun h => ?_⟩
      rw [lacksCopy_iff.2 ⟨hall, free, hfree, hframe, h⟩] at hcopy
      cases hcopy

theorem warnings_dispatch (n : Network) (plug : Plug) (f : Frame) :
    (n.dispatch plug f).plane.figures Line.mtuWarnings = n.plane.figures Line.mtuWarnings := by
  have hup : (if plug.GoesUp f.bytes then n.receive plug.index (.last f) else n).plane.figures Line.mtuWarnings =
      n.plane.figures Line.mtuWarnings := by
    split
    · exact n.figures_receive Line.steady_mtuWarnings plug.index (.last f)
    · rfl
  unfold dispatch
  dsimp only
  generalize (if plug.GoesUp f.bytes then n.receive plug.index (.last f) else n) = up at hup
  split
  · exact hup
  · exact hup

/-- What lacks a copy is not sent. -/
theorem Sending.apart {answer : Except NetFailure Unit} {n' : Network} (h : n.Sending plug buffers answer n') :
    (answer.toBool && n.lacksCopy buffers) = false := by
  cases h with
  | nothing empty enough => exact enough
  | refused enough => rfl
  | uncopied lacks => rfl
  | sent shown enough => exact enough

/-- What is sent is counted if it is too long, and so is what lacks a copy. -/
theorem Sending.warnings {answer : Except NetFailure Unit} {n' : Network} (h : n.Sending plug buffers answer n')
    (hlined : plug.key < n.plane.lines.size) (line : Nat) : n'.plane.figures Line.mtuWarnings line =
      n.plane.figures Line.mtuWarnings line +
        (decide (plug.key = line) && n.tooLong plug (buffers.flatMap View.bytes).length &&
          (answer.toBool || n.lacksCopy buffers)).toNat := by
  have hwarned := warnings_warnOfLength hlined (buffers.flatMap View.bytes).length line
  cases h with
  | nothing empty enough =>
    rw [empty, List.length_nil, not_tooLong_zero, Bool.and_false, Bool.false_and]
    rfl
  | refused enough =>
    rw [enough, Except.toBool, Bool.or_false, Bool.and_false]
    rfl
  | uncopied lacks =>
    rw [lacks, Bool.or_true, Bool.and_true]
    exact hwarned
  | sent shown enough =>
    rw [warnings_dispatch, Except.toBool, Bool.true_or, Bool.and_true, ← hwarned, equip, Frame.bytes_covering]
    rfl

end Network

namespace Scene

/-! ## Act by act -/

/-- How many frames that are too long an act sends through a plug with a line: one if it is a consumer's, sending them
succeeds, and there are more bytes than the MTU allows at the moment. -/
def sentTooLong (s : Scene) (line : Nat) : Act → Nat
  | .splice (.submit key id places) =>
    let buffers := viewsAt places s.items
    (((s.network.registry key).byId? id).any fun plug =>
      decide (plug.key = line) && s.network.tooLong plug (buffers.flatMap View.bytes).length &&
        (s.network.submit key id buffers).1.toBool).toNat
  | _ => 0

/-- How many frames that are too long an act only makes there and gives up, since they are for everybody and the pool
has no headers for the copy. -/
def unsentTooLong (s : Scene) (line : Nat) : Act → Nat
  | .splice (.submit key id places) =>
    let buffers := viewsAt places s.items
    (((s.network.registry key).byId? id).any fun plug =>
      decide (plug.key = line) && s.network.tooLong plug (buffers.flatMap View.bytes).length &&
        s.network.lacksCopy buffers).toNat
  | _ => 0

variable {s : Scene} {h : History}

theorem mem_items_of_mem_viewsAt {places : List Nat} {items : List Item} {v : View} (hv : v ∈ viewsAt places items) :
    Item.view v ∈ items := by
  obtain ⟨place, -, hplace⟩ := List.mem_filterMap.1 hv
  obtain ⟨item, hitem, hview⟩ := Option.bind_eq_some_iff.1 hplace
  cases item with
  | view w =>
    obtain rfl := Option.some.inj hview
    exact List.mem_of_getElem? hitem
  | _ => cases hview

/-- What becomes of buffers of a caller that are sent through a plug. -/
theorem Settled.sending (hs : s.Settled h) {key id : Nat} {plug : Plug}
    (hfound : (s.network.registry key).byId? id = some plug) (places : List Nat) :
    s.network.Sending plug (viewsAt places s.items) (s.network.submit key id (viewsAt places s.items)).1
      (s.network.submit key id (viewsAt places s.items)).2 :=
  Network.sending_submit hfound (hs.exact.refers (fun _ hv => mem_items_of_mem_viewsAt hv) (some plug.index))

theorem toNat_and_or {a b c : Bool} (h : (b && c) = false) :
    (a && (b || c)).toNat = (a && b).toNat + (a && c).toNat := by
  revert a b c
  decide

theorem Settled.warnings_submit (hs : s.Settled h) (line key id : Nat) (places : List Nat) :
    (s.network.submit key id (viewsAt places s.items)).2.plane.figures Line.mtuWarnings line =
      s.network.plane.figures Line.mtuWarnings line + s.sentTooLong line (.splice (.submit key id places)) +
        s.unsentTooLong line (.splice (.submit key id places)) := by
  cases hfound : (s.network.registry key).byId? id with
  | none =>
    have hsubmit : s.network.submit key id (viewsAt places s.items) = (.ok (), s.network) := by
      rw [Network.submit, hfound]
    rw [hsubmit, sentTooLong, unsentTooLong, hfound]
    rfl
  | some plug =>
    have hsending := hs.sending hfound places
    have hlined := (Network.Settled.listed hs (Network.byId?_mem hfound)).lined
    have hwarnings := hsending.warnings hlined line
    rw [hwarnings, toNat_and_or hsending.apart, ← Nat.add_assoc, sentTooLong, unsentTooLong, hfound]
    rfl

section Taken

/-- Frames that are taken off a queue leave the warnings of every line as they are. -/
theorem warnings_onQueue {α : Type} (p : Backplane) (plug : Plug) (f : Queue → Memory → α × Queue × Memory) :
    (p.onQueue plug f).2.figures Line.mtuWarnings = p.figures Line.mtuWarnings :=
  Backplane.figures_setLine_same rfl

theorem warnings_takeAll (n : Network) (key id : Nat) :
    (n.takeAll key id).2.plane.figures Line.mtuWarnings = n.plane.figures Line.mtuWarnings := by
  unfold Network.takeAll
  split
  · rfl
  · exact warnings_onQueue n.plane _ Queue.drain

theorem warnings_takeNext (n : Network) (key id : Nat) :
    (n.takeNext key id).2.plane.figures Line.mtuWarnings = n.plane.figures Line.mtuWarnings := by
  unfold Network.takeNext
  split
  · rfl
  · rename_i plug _
    have htake : (n.onQueue plug Queue.take?).2.plane.figures Line.mtuWarnings = n.plane.figures Line.mtuWarnings :=
      warnings_onQueue n.plane plug Queue.take?
    split <;> rename_i heq <;> rw [heq] at htake
    · exact htake
    split
    · exact htake
    · dsimp only
      split <;> exact htake

theorem warnings_onQueueItem {α : Type} {n n' : Network} {f : Queue → Memory → α × Queue × Memory} {item item' : Item}
    {x : α} (h : onQueueItem n f item = some (x, item', n')) :
    n'.plane.figures Line.mtuWarnings = n.plane.figures Line.mtuWarnings := by
  cases item with
  | queue q =>
    cases h
    rfl
  | plug p =>
    cases h
    exact warnings_onQueue n.plane p f
  | _ => cases h

end Taken

/-- Each act counts the frames that are too long and that it sends, or gives up for want of a copy. -/
theorem Settled.warnings_perform (hs : s.Settled h) (line : Nat) (act : Act) :
    (s.perform act).network.plane.figures Line.mtuWarnings line =
      s.network.plane.figures Line.mtuWarnings line + s.sentTooLong line act + s.unsentTooLong line act := by
  have hsame {act : Act} (h : act.counts = false) : (s.perform act).network.plane.figures Line.mtuWarnings line =
      s.network.plane.figures Line.mtuWarnings line + 0 + 0 :=
    congrFun (s.figures_perform Line.steady_mtuWarnings h) line
  cases act with
  | splice act =>
    cases act with
    | submit key id places => exact hs.warnings_submit line key id places
    | takeAll key id => exact congrFun (warnings_takeAll s.network key id) line
    | takeNext key id => exact congrFun (warnings_takeNext s.network key id) line
    | _ => exact hsame rfl
  | queue act =>
    cases act with
    | take place | drain place =>
      show (s.stepQueue _).network.plane.figures Line.mtuWarnings line = _
      unfold stepQueue
      dsimp only
      split
      · rename_i hwork
        obtain ⟨item, -, hwork⟩ := Option.bind_eq_some_iff.1 hwork
        exact congrFun (warnings_onQueueItem hwork) line
      · rfl
    | _ => exact hsame rfl
  | _ => exact hsame rfl

theorem Settled.warnings_run (hs : s.Settled h) (line : Nat) (turns : List Turn) :
    (s.run turns).network.plane.figures Line.mtuWarnings line = s.network.plane.figures Line.mtuWarnings line +
      s.tally (sentTooLong · line) turns + s.tally (unsentTooLong · line) turns :=
  figures_run (fun hs => hs.warnings_perform line) hs turns

/-! ## One frame that is sent -/

theorem unsentTooLong_eq {key id : Nat} {plug : Plug} (hfound : (s.network.registry key).byId? id = some plug)
    (line : Nat) (places : List Nat) :
    s.unsentTooLong line (.splice (.submit key id places)) =
      (decide (plug.key = line) && s.network.tooLong plug ((viewsAt places s.items).flatMap View.bytes).length &&
        s.network.lacksCopy (viewsAt places s.items)).toNat := by
  rw [unsentTooLong, hfound]
  rfl

/-- Where sending succeeds, a frame that shows anything goes its ways. -/
theorem Settled.submit_ok (hs : s.Settled h) {key id : Nat} {plug : Plug} {places : List Nat}
    (hfound : (s.network.registry key).byId? id = some plug)
    (hshown : (viewsAt places s.items).flatMap View.bytes ≠ [])
    (hok : (s.network.submit key id (viewsAt places s.items)).1 = .ok ()) :
    (s.network.submit key id (viewsAt places s.items)).2 =
      (s.network.equip plug (.covering (viewsAt places s.items) (some plug.index))).dispatch plug
        (.covering (viewsAt places s.items) (some plug.index)) := by
  have hsending := hs.sending hfound places
  generalize (s.network.submit key id (viewsAt places s.items)).2 = n' at hsending
  rw [hok] at hsending
  cases hsending with
  | nothing empty enough => exact absurd empty hshown
  | sent shown enough => rfl

/-- Where it fails, nobody sees anything, and no line is different unless a frame that is too long lacks its copy. -/
theorem Settled.submit_error (hs : s.Settled h) {key id : Nat} {places : List Nat} {e : NetFailure}
    (herror : (s.network.submit key id (viewsAt places s.items)).1 = .error e) :
    s.network.Unsent (s.network.submit key id (viewsAt places s.items)).2 ∧
      ((s.network.submit key id (viewsAt places s.items)).2.plane.lines = s.network.plane.lines ↔
        ∀ line, s.unsentTooLong line (.splice (.submit key id places)) = 0) := by
  cases hfound : (s.network.registry key).byId? id with
  | none =>
    rw [Network.submit, hfound] at herror
    cases herror
  | some plug =>
    have hsending := hs.sending hfound places
    have hlined := (Network.Settled.listed hs (Network.byId?_mem hfound)).lined
    simp only [unsentTooLong_eq hfound]
    generalize (s.network.submit key id (viewsAt places s.items)).2 = n' at hsending
    rw [herror] at hsending
    cases hsending with
    | refused enough =>
      refine ⟨.countBack s.network _, iff_of_true rfl fun line => ?_⟩
      rw [enough, Bool.and_false]
      rfl
    | uncopied lacks =>
      refine ⟨.warned s.network plug _ _, (Network.lines_warnOfLength_iff hlined _).trans ?_⟩
      refine ⟨fun hnot line => ?_, fun hall => ?_⟩
      · rw [hnot, Bool.and_false, Bool.false_and]
        rfl
      · have hzero := hall plug.key
        rw [lacks, decide_eq_true rfl, Bool.true_and, Bool.and_true] at hzero
        exact Bool.toNat_eq_zero.1 hzero

/-- **Frames that were too long are counted, and so are those whose copy was refused.** Take a host after any run of
acts, a plug, and any further acts of anybody: buffers that are sent, with headers enough or without, and MTUs that are
changed. Over these acts the plug's warnings grow by the frames that were sent through it while they were longer than
the MTU, and by those that were for everybody, longer than the MTU and given up for want of headers for the copy. So
they tell the frames that were sent just if nothing is given up like that. Of any buffers that are sent, what succeeds
and shows anything goes up the stack or out to the wire; what fails is seen by nobody, and no counter of any line is
different after it, unless it is a frame that was too long and lacked a copy. -/
theorem run_warnings (limit : Option Nat) (earlier turns : List Turn) (plug : Plug) :
    let s := (start limit).run earlier
    let before := (s.network.plane.line plug).mtuWarnings
    let after := ((s.run turns).network.plane.line plug).mtuWarnings
    let sent := s.tally (sentTooLong · plug.key) turns
    after = before + sent + s.tally (unsentTooLong · plug.key) turns ∧
      (after = before + sent ↔
        ∀ i t, turns[i]? = some t → ((s.run (turns.take i)).prepared t).unsentTooLong plug.key t.act = 0) ∧
      ∀ (t : Turn) (key id : Nat) (places : List Nat),
        let now := s.prepared t
        let buffers := viewsAt places now.items
        let answer := now.network.submit key id buffers
        (∀ plug, (now.network.registry key).byId? id = some plug → buffers.flatMap View.bytes ≠ [] →
          answer.1 = .ok () →
            let f := Frame.covering buffers (some plug.index)
            f.bytes = buffers.flatMap View.bytes ∧ answer.2 = (now.network.equip plug f).dispatch plug f) ∧
        ∀ e, answer.1 = .error e → now.network.Unsent answer.2 ∧
          (answer.2.plane.lines = now.network.plane.lines ↔
            ∀ line, now.unsentTooLong line (.splice (.submit key id places)) = 0) := by
  intro s before after sent
  obtain ⟨h, hs⟩ := settled_run limit earlier
  have hrun : after = before + sent + s.tally (unsentTooLong · plug.key) turns := hs.warnings_run plug.key turns
  refine ⟨hrun, ?_, fun t key id places =>
    ⟨fun plug hfound hshown hok => ?_, fun e herror => (hs.prepared t).submit_error herror⟩⟩
  · rw [← tally_eq_zero_iff (unsentTooLong · plug.key) turns, hrun]
    omega
  · exact ⟨Frame.bytes_covering _ _, (hs.prepared t).submit_ok hfound hshown hok⟩

/-- A pool of one header and an MTU of ten: a frame of eleven bytes for everybody gets its header, its copy gets none.
Sending fails and nobody sees anything, but the plug has counted a frame. -/
theorem not_sent_uncopied :
    let own : Mac := ⟨[2, 0, 0, 0, 0, 1], rfl⟩
    let plug := Plug.ofSetUp own
    let s := (start (some 1)).run (setUp own ++
      [{ act := .host (.changeTable fun table => table.modifyNamed "" fun i => { i with mtu := 10 }) },
        { act := .block (.cluster (List.replicate 11 255)) }])
    let turns : List Turn := [{ act := .splice (.submit 0 plug.id [0]) }]
    let before := (s.network.plane.line plug).mtuWarnings
    let after := ((s.run turns).network.plane.line plug).mtuWarnings
    plug ∈ (s.network.registry 0).plugs ∧
      (s.network.submit 0 plug.id (viewsAt [0] s.items)).1 = .error (.memory (.poolExhausted 1)) ∧
      (s.run turns).network.wire = s.network.wire ∧ (s.run turns).network.stack = s.network.stack ∧
      s.tally (sentTooLong · plug.key) turns = 0 ∧ before = 0 ∧ after = 1 ∧
      ¬ after = before + s.tally (sentTooLong · plug.key) turns := by
  decide +kernel

end Scene

end Patchbay
