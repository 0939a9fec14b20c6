import Patchbay.Echo
import Patchbay.Proofs.Frame.Sending
import Patchbay.Proofs.Inbox.Returned

/-!
# `Proofs.Echo.Answering` — what one iteration of the echo consumer answers

An iteration takes all that waits and answers each buffer that it gets. A buffer is a stretch of a frame, as the host
cut it when it received the frame: the first stretch has the addresses, and what stands at their place in a further one
is the frame's own content. So a frame is answered once exactly if it was received in one stretch.

The block of an answer is back before the next one is asked for, so a batch of answers takes no more memory than each of
them does by itself.

## Contents
* `Network.Grows` — what came to the wire, and how long it is at most;
* `Network.SentOut`, `Network.submit_outward` — a buffer that goes out;
* `Echo.Outgoing`, `Echo.Carried`, `Echo.Affords`, `Echo.reply_outgoing` — one whose answer goes out;
* `Echo.replyEach_outgoing`, `Echo.iterate_outgoing` — a batch of answers;
* `Echo.grows_iterate` — no answer is longer than a stretch;
* `Echo.Answerable`, `Echo.AnsweredOnce` — frames to be answered, and each of them answered once;
* `Scene.run_received`, `Scene.run_once_iff` — a batch from the wire, after whatever happened before.
-/

namespace Patchbay

open Patchbay.Frame (largestSegment)
open Inbox (Received IsFor ObligesAll)

/-- A frame over buffers shows what they show. -/
theorem Frame.bytes_ofBuffers {m m' : Memory} {buffers : List View} {receivedOn : Option Nat} {f : Frame}
    (h : Frame.ofBuffers m buffers receivedOn = (.ok f, m')) : f.bytes = buffers.flatMap View.bytes := by
  unfold Frame.ofBuffers at h
  cases hcopied : copySegments m (buffers.flatMap View.cuts) with
  | mk segments? m₁ =>
    rw [hcopied] at h
    cases segments? with
    | none => cases h
    | some segments =>
      cases h
      rw [Frame.copySegments_eq hcopied]
      exact Frame.bytes_covering buffers receivedOn

namespace Network

variable {n n' : Network} {key id size : Nat} {plug : Plug}

/-! ## Buffers of the consumer -/

theorem isOk_buffer (n : Network) (key size : Nat) :
    (n.buffer key size).1.toBool = (n.memory.alloc (n.budgetOf key) .plain none size).1.toBool := by
  unfold buffer memoryFor
  cases ha : n.memory.alloc (n.budgetOf key) .plain none size with
  | mk answer m =>
    rw [onMemory_eq ha]
    cases answer <;> rfl

/-- What was lent and came back refuses no block. -/
theorem buffer_even (hbudget : n'.budgetOf key = n.budgetOf key) (heven : n.memory.Even n'.memory)
    (h : (n.buffer key size).1.toBool = true) : (n'.buffer key size).1.toBool = true := by
  rw [isOk_buffer] at h ⊢
  rw [hbudget]
  exact heven.alloc h

/-- More came to the wire, if anything, and no longer frames than that. -/
def Grows (length : Nat) (n n' : Network) : Prop :=
  ∃ more : List Delivery, n'.wire = n.wire ++ more.toArray ∧ ∀ d ∈ more, d.bytes.length ≤ length

variable {n'' : Network} {length : Nat}

theorem grows_of_eq (h : n'.wire = n.wire) : Grows length n n' :=
  ⟨[], h.trans Array.append_empty.symm, fun _ hd => absurd hd List.not_mem_nil⟩

theorem Grows.mono {more : Nat} (h : Grows length n n') (hle : length ≤ more) : Grows more n n' := by
  obtain ⟨added, hwire, hshort⟩ := h
  exact ⟨added, hwire, fun d hd => (hshort d hd).trans hle⟩

theorem Grows.trans (h : Grows length n n') (h' : Grows length n' n'') : Grows length n n'' := by
  obtain ⟨more, hwire, hshort⟩ := h
  obtain ⟨more', hwire', hshort'⟩ := h'
  refine ⟨more ++ more', ?_, fun d hd => (List.mem_append.1 hd).elim (hshort d) (hshort' d)⟩
  rw [hwire', hwire, Array.append_assoc]
  simp

theorem grows_transmit (n : Network) (index : Nat) {f : Frame} (h : f.bytes.length ≤ length) :
    Grows length n (n.transmit index (.last f)) := by
  refine ⟨[⟨index, f.bytes, f.segments.length⟩], rfl, fun d hd => ?_⟩
  rw [List.mem_singleton.1 hd]
  exact h

/-- Whatever is sent, and whether or not it goes out. -/
theorem grows_submit (n : Network) (key id : Nat) {buffers : List View}
    (h : (buffers.flatMap View.bytes).length ≤ length) : Grows length n (n.submit key id buffers).2 := by
  unfold submit
  split
  · exact grows_of_eq rfl
  rename_i plug hplug
  cases hmade : Frame.ofBuffers n.memory buffers (some plug.index) with
  | mk answer m =>
    rw [onMemory_eq hmade]
    cases answer with
    | error e => exact grows_of_eq rfl
    | ok f =>
      have hshort : f.bytes.length ≤ length := Frame.bytes_ofBuffers hmade ▸ h
      dsimp only
      split
      · exact grows_of_eq rfl
      have hwarned : Grows length n ((n.setMemory m).warnOfLength plug f.length) :=
        grows_of_eq (Unsent.warned (n.setMemory m) plug f.length 0).wire
      refine hwarned.trans ?_
      generalize (n.setMemory m).warnOfLength plug f.length = warned
      split
      · -- for everybody: what goes up puts nothing on the wire, and a copy may be refused
        cases hcopy : f.copy warned.memory with
        | mk copy? m₂ =>
          rw [onMemory_eq hcopy]
          cases copy? with
          | none => exact grows_of_eq rfl
          | some copy =>
            have hup : Grows length warned ((warned.setMemory m₂).receive plug.index (.last copy)) :=
              grows_of_eq ((warned.setMemory m₂).arrivals_receive plug.index (.last copy)).1
            exact hup.trans (grows_transmit _ plug.index hshort)
      split
      · exact grows_of_eq (warned.arrivals_receive plug.index (.last f)).1
      · exact warned.grows_transmit plug.index hshort

theorem wire_bufferOf (n : Network) (key : Nat) (bytes : List UInt8) : (n.bufferOf key bytes).2.wire = n.wire := by
  unfold bufferOf buffer memoryFor
  cases ha : n.memory.alloc (n.budgetOf key) .plain none bytes.length with
  | mk granted m =>
    rw [onMemory_eq ha]
    cases granted <;> rfl

/-- The buffer that bytes are copied into: the block that is granted, with the bytes over its zeros. -/
theorem bufferOf_granted {bytes : List UInt8} (h : (n.buffer key bytes.length).1.toBool = true) :
    ∃ block m, n.memory.alloc (n.budgetOf key) .plain none bytes.length = (.ok block, m) ∧
      n.bufferOf key bytes =
        (.ok (.whole ⟨m.references.size, .block (block.write 0 bytes)⟩),
          n.setMemory (m.shareBlock (block.write 0 bytes)).2) ∧
      (View.whole ⟨m.references.size, .block (block.write 0 bytes)⟩).bytes = bytes := by
  rw [isOk_buffer] at h
  cases ha : n.memory.alloc (n.budgetOf key) .plain none bytes.length with
  | mk answer m =>
    rw [ha] at h
    cases answer with
    | error e => cases h
    | ok block =>
      refine ⟨block, m, rfl, ?_, ?_⟩
      · unfold bufferOf buffer memoryFor
        rw [onMemory_eq ha]
        rfl
      · obtain ⟨b, -, hblock⟩ := Memory.alloc_granted ha
        rw [View.bytes_whole]
        show (block.contents.write 0 bytes).toList = bytes
        rw [hblock, Budget.Contents.toList_write, Budget.Contents.toList_zeroed]
        exact Budget.overlay_all bytes

theorem bytes_bufferOf {bytes : List UInt8} {v : View} (h : (n.bufferOf key bytes).1 = .ok v) : v.bytes = bytes := by
  have hgranted : (n.buffer key bytes.length).1.toBool = true := by
    unfold bufferOf at h
    cases hbuffer : n.buffer key bytes.length with
    | mk granted n₁ =>
      rw [hbuffer] at h
      cases granted with
      | error cause => cases h
      | ok block => rfl
  obtain ⟨block, m, -, heq, hshown⟩ := bufferOf_granted hgranted
  rw [heq] at h
  cases h
  exact hshown

theorem splices_takeAll (n : Network) (key id : Nat) : (n.takeAll key id).2.splices = n.splices := by
  unfold takeAll
  split <;> rfl

theorem wire_takeAll (n : Network) (key id : Nat) : (n.takeAll key id).2.wire = n.wire := by
  unfold takeAll
  split <;> rfl

/-! ## A buffer that goes out -/

/-- The network after a frame of one segment went out and nowhere else: the wire has it, and its header came back. -/
structure SentOut (n : Network) (plug : Plug) (bytes : List UInt8) (n' : Network) : Prop where
  splices : n'.splices = n.splices
  slot : n'.slot = n.slot
  queues : n'.plane.lines.map Line.queue = n.plane.lines.map Line.queue
  wire : n'.wire = n.wire.push ⟨plug.index, bytes, 1⟩
  memory : n'.memory = n.memory.countBack 1

theorem sentOut_dispatch {f : Frame} (hone : f.segments.length = 1) (hout : plug.GoesOut f.bytes)
    (hdown : ¬ plug.GoesUp f.bytes) (hrefers : n.memory.Refers f.segments) :
    n.SentOut plug f.bytes ((n.equip plug f).dispatch plug f) := by
  have hsame := Unsent.warned n plug f.bytes.length 0
  have hequip : (n.equip plug f).memory = n.memory.lend f.segments := by
    unfold equip
    rw [if_neg hdown, if_pos hout, List.nil_append]
    rfl
  have hsent : (n.equip plug f).dispatch plug f = (n.equip plug f).transmit plug.index (.last f) := by
    unfold dispatch
    dsimp only
    rw [if_neg hdown, if_pos hout]
  rw [hsent]
  refine ⟨hsame.splices, hsame.slot, hsame.queues, ?_, ?_⟩
  · rw [← hone, ← (n.arrivals_equip plug f).1]
    rfl
  · show (n.equip plug f).memory.releaseSegments f.segments = _
    rw [hequip, Memory.releaseSegments_lend hrefers, hone]

/-- A buffer of one segment goes out. -/
theorem submit_outward {v : View} (hfound : (n.registry key).byId? id = some plug) (hpos : 0 < v.bytes.length)
    (hfits : v.bytes.length ≤ largestSegment) (hout : plug.GoesOut v.bytes) (hdown : ¬ plug.GoesUp v.bytes)
    (hheld : 0 < n.memory.referencesTo v.storage) (hheader : n.memory.HasHeaders 1) :
    ∃ n', n.submit key id [v] = (.ok (), n') ∧ n.SentOut plug v.bytes n' := by
  have hbytes : [v].flatMap View.bytes = v.bytes := List.flatMap_singleton _ _
  have hcount : Frame.segmentsFor [v] = 1 := by
    show (v.bytes.length + 2047) / 2048 + 0 = 1
    unfold largestSegment at hfits
    omega
  have hne : [v].flatMap View.bytes ≠ [] := hbytes ▸ List.length_pos_iff.1 hpos
  have hsent := submit_sent hfound hne fun free hfree => by
    rw [hcount, hbytes]
    exact ⟨hheader.free free hfree, fun hall => absurd (.inl hall) hdown⟩
  have hrefers : n.memory.Refers (Frame.covering [v] (some plug.index)).segments :=
    Frame.refers_covering (fun w hw => List.mem_singleton.1 hw ▸ hheld) _
  have hcovered := (Frame.bytes_covering [v] (some plug.index)).trans hbytes
  have hone := (Frame.length_segments_covering [v] (some plug.index)).trans hcount
  have hdone := sentOut_dispatch hone (hcovered ▸ hout) (hcovered ▸ hdown) hrefers
  exact ⟨_, hsent, hcovered ▸ hdone⟩

end Network

/-- The last reference to a block that was shared gives the block back. -/
theorem Memory.release_fresh {m : Memory} {storage : Storage} {block : Budget.Block}
    (hone : m.referencesTo storage = 1) (horigin : storage.origin = .block block) :
    ∃ references, m.release storage = ({ m with references := references } : Memory).free block := by
  unfold release
  dsimp only
  rw [hone, if_pos rfl, reclaim, horigin]
  exact ⟨_, rfl⟩

namespace Echo

open Network (Grows)

variable {e : Echo} {n n' n'' : Network} {plug : Plug} {own : Mac} {bytes : List UInt8}

/-! ## An answer that goes out -/

/-- A buffer with room for both addresses, sent on in one segment, whose answer goes out and nowhere else. -/
structure Outgoing (own : Mac) (plug : Plug) (bytes : List UInt8) : Prop where
  addressed : addressBytes ≤ bytes.length
  fits : bytes.length ≤ largestSegment
  out : plug.GoesOut (answer own bytes)
  down : ¬ plug.GoesUp (answer own bytes)

/-- What reaches the wire for such a buffer. -/
def deliveryOf (own : Mac) (plug : Plug) (bytes : List UInt8) : Delivery :=
  ⟨plug.index, answer own bytes, 1⟩

/-- The network after answers to buffers went out: the wire has them in turn, and what was lent for them is back. -/
structure Carried (own : Mac) (plug : Plug) (n : Network) (parts : List (List UInt8)) (n' : Network) : Prop where
  splices : n'.splices = n.splices
  slot : n'.slot = n.slot
  queues : n'.plane.lines.map Line.queue = n.plane.lines.map Line.queue
  wire : n'.wire = n.wire ++ (parts.map (deliveryOf own plug)).toArray
  even : n.memory.Even n'.memory

theorem Carried.nil (n : Network) : Carried own plug n [] n :=
  ⟨rfl, rfl, rfl, Array.append_empty.symm, .refl _⟩

theorem Carried.cons {rest : List (List UInt8)} (h : Carried own plug n [bytes] n')
    (h' : Carried own plug n' rest n'') : Carried own plug n (bytes :: rest) n'' where
  splices := h'.splices.trans h.splices
  slot := h'.slot.trans h.slot
  queues := h'.queues.trans h.queues
  wire := by
    rw [h'.wire, h.wire, Array.append_assoc]
    simp
  even := h.even.trans h'.even

theorem Carried.wired {key : Nat} {parts : List (List UInt8)} (h : Carried own plug n parts n')
    (hwired : n.Wired key plug) : n'.Wired key plug := by
  exact hwired.of_same h.splices h.slot (Backplane.size_of_queues h.queues)

/-- Nothing is refused that answers take: a block for each by itself, and one header if there are any. -/
structure Affords (e : Echo) (n : Network) (parts : List (List UInt8)) : Prop where
  blocks : ∀ bytes ∈ parts, (n.buffer e.splice bytes.length).1.toBool = true
  header : parts ≠ [] → n.memory.HasHeaders 1

instance (e : Echo) (n : Network) (parts : List (List UInt8)) : Decidable (e.Affords n parts) :=
  decidable_of_iff (_ ∧ (_ → _)) ⟨fun ⟨blocks, header⟩ => ⟨blocks, header⟩, fun h => ⟨h.blocks, h.header⟩⟩

theorem affords_nil (e : Echo) (n : Network) : e.Affords n [] :=
  ⟨fun _ hbytes => absurd hbytes List.not_mem_nil, fun hne => absurd rfl hne⟩

/-- What was lent and came back makes no difference. -/
theorem Affords.even {parts : List (List UInt8)} (h : e.Affords n parts) (hsplices : n'.splices = n.splices)
    (heven : n.memory.Even n'.memory) : e.Affords n' parts where
  blocks bytes hbytes :=
    Network.buffer_even (by rw [Network.budgetOf, Network.budgetOf, hsplices]) heven (h.blocks bytes hbytes)
  header hne := heven.hasHeaders (h.header hne)

theorem Affords.mono {parts more : List (List UInt8)} (h : e.Affords n more) (hsub : ∀ bytes ∈ parts, bytes ∈ more) :
    e.Affords n parts where
  blocks bytes hbytes := h.blocks bytes (hsub bytes hbytes)
  header hne := by
    obtain ⟨bytes, hbytes⟩ := List.exists_mem_of_ne_nil parts hne
    exact h.header (List.ne_nil_of_mem (hsub bytes hbytes))

/-- One buffer is answered. -/
theorem reply_outgoing (hwired : n.Wired e.splice plug) (hid : plug.id = plugId) (hkeyed : n.memory.Keyed) {v : View}
    (hout : Outgoing e.mac plug v.bytes) (hafford : e.Affords n [v.bytes]) :
    ∃ n', e.reply n v = (.ok (), n') ∧ Carried e.mac plug n [v.bytes] n' := by
  have hlength := length_answer e.mac hout.addressed
  have hblock := hafford.blocks v.bytes List.mem_cons_self
  rw [← hlength] at hblock
  obtain ⟨block, m, halloc, hbuffer, hshown⟩ := Network.bufferOf_granted hblock
  let filled := block.write 0 (answer e.mac v.bytes)
  let storage : Storage := ⟨m.references.size, .block filled⟩
  let ready := n.setMemory (m.shareBlock filled).2
  -- the storage is new, so nobody else refers to it
  have hone : ready.memory.referencesTo storage = 1 := by
    show (m.references.push 1).getD m.references.size 0 = 1
    rw [Array.getD_eq_getD_getElem?, Array.getElem?_push_size]
    rfl
  have hheader : ready.memory.HasHeaders 1 := by
    obtain ⟨b, b', -, -, rfl⟩ := Memory.alloc_ok halloc
    exact hafford.header (List.cons_ne_nil _ _)
  have hready : ready.Wired e.splice plug := hwired.of_same rfl rfl rfl
  have hfound : (ready.registry e.splice).byId? plugId = some plug := hid ▸ hready.named
  have hlong : (View.whole storage).bytes.length = v.bytes.length := (congrArg List.length hshown).trans hlength
  have hpos : 0 < v.bytes.length := Nat.lt_of_lt_of_le (by decide) hout.addressed
  obtain ⟨n', hsent, hdone⟩ := Network.submit_outward hfound (hlong ▸ hpos) (hlong ▸ hout.fits) (hshown ▸ hout.out)
    (hshown ▸ hout.down) (hone ▸ Nat.one_pos) hheader
  unfold reply
  rw [if_neg (Nat.not_lt.2 hout.addressed), hbuffer]
  dsimp only
  rw [hsent]
  refine ⟨_, rfl, hdone.splices, hdone.slot, hdone.queues, ?_, ?_⟩
  · exact hdone.wire.trans (by rw [hshown]; rfl)
  · -- the block is back as well
    show n.memory.Even (n'.memory.release storage)
    obtain ⟨references, hrelease⟩ := Memory.release_fresh (m := ready.memory.countBack 1) hone rfl
    rw [hdone.memory, hrelease]
    have hback : n.memory.Even (m.free filled) :=
      Memory.even_returned halloc hkeyed rfl rfl (Budget.Contents.size_write _ _ _)
    have hsame : m.Even { ready.memory.countBack 1 with references := references } :=
      .of_same rfl rfl rfl rfl rfl
    exact hback.trans (hsame.free filled)

/-! ## A batch of answers -/

/-- Buffers are answered in turn, one frame for each. -/
theorem replyEach_outgoing (hwired : n.Wired e.splice plug) (hid : plug.id = plugId) (hkeyed : n.memory.Keyed)
    {views : List View} (hout : ∀ v ∈ views, Outgoing e.mac plug v.bytes)
    (hafford : e.Affords n (views.map View.bytes)) :
    ∃ n', e.replyEach n views = ({ e with answered := e.answered + views.length }, n') ∧
      Carried e.mac plug n (views.map View.bytes) n' := by
  induction views generalizing e n with
  | nil => exact ⟨n, rfl, .nil n⟩
  | cons v rest ih =>
    obtain ⟨n₁, hreply, hfirst⟩ := reply_outgoing hwired hid hkeyed (hout v List.mem_cons_self)
      (hafford.mono fun bytes hbytes => List.mem_singleton.1 hbytes ▸ List.mem_cons_self)
    have hafford' : e.Affords n₁ (rest.map View.bytes) :=
      (hafford.mono fun bytes hbytes => List.mem_cons_of_mem _ hbytes).even hfirst.splices hfirst.even
    obtain ⟨n₂, hreplies, hrest⟩ := ih (e := { e with answered := e.answered + 1 }) (hfirst.wired hwired)
      (hfirst.even.keyed hkeyed) (fun w hw => hout w (List.mem_cons_of_mem _ hw)) ⟨hafford'.blocks, hafford'.header⟩
    refine ⟨n₂, ?_, hfirst.cons hrest⟩
    rw [replyEach, hreply]
    dsimp only
    rw [hreplies, List.length_cons, Nat.add_assoc, Nat.add_comm 1]

/-- The first stretch of a frame, and the stretches of the rest. -/
theorem pieces_of_ne_nil (hne : bytes ≠ []) :
    pieces largestSegment bytes =
      bytes.take largestSegment :: pieces largestSegment (bytes.drop largestSegment) := by
  obtain ⟨b, rest, rfl⟩ := List.exists_cons_of_ne_nil hne
  rw [pieces]
  rfl

theorem Outgoing.pieces_eq (h : Outgoing own plug bytes) : pieces largestSegment bytes = [bytes] := by
  have hne : bytes ≠ [] := List.ne_nil_of_length_pos (Nat.lt_of_lt_of_le (by decide) h.addressed)
  rw [pieces_of_ne_nil hne, List.take_of_length_le h.fits, List.drop_eq_nil_of_le h.fits, pieces]

theorem flatMap_pieces {stack : List (List UInt8)} (hout : ∀ bytes ∈ stack, Outgoing own plug bytes) :
    stack.flatMap (pieces largestSegment) = stack := by
  rw [List.flatMap_congr fun bytes hbytes => (hout bytes hbytes).pieces_eq, List.flatMap_singleton']

/-- What waits as it was received is answered stretch by stretch. -/
theorem iterate_outgoing {stack parts : List (List UInt8)} (h : Received e.splice plug n stack) (hid : plug.id = plugId)
    (hkeyed : (n.takeAll e.splice plugId).2.memory.Keyed) (hparts : stack.flatMap (pieces largestSegment) = parts)
    (hout : ∀ bytes ∈ parts, Outgoing e.mac plug bytes) (hafford : e.Affords (n.takeAll e.splice plugId).2 parts) :
    ∃ n', e.iterate n =
        (!parts.isEmpty && decide (e.target ≤ e.answered + parts.length),
          { e with answered := e.answered + parts.length }, n') ∧
      n'.wire = n.wire ++ (parts.map (deliveryOf e.mac plug)).toArray ∧ Received e.splice plug n' [] := by
  obtain ⟨hviews, hleft⟩ := h.takeAll
  rw [hid, hparts] at hviews
  rw [hid] at hleft
  have hwire := n.wire_takeAll e.splice plugId
  unfold iterate
  cases htaken : n.takeAll e.splice plugId with
  | mk views n₁ =>
    rw [htaken] at hviews hleft hkeyed hafford hwire
    subst hviews
    obtain ⟨n₂, hreplies, hcarried⟩ := replyEach_outgoing hleft.wired hid hkeyed
      (fun v hv => hout v.bytes (List.mem_map_of_mem hv)) hafford
    dsimp only
    cases views with
    | nil => exact ⟨n₁, rfl, hwire.trans Array.append_empty.symm, hleft⟩
    | cons v rest =>
      rw [hreplies, List.length_map]
      refine ⟨_, rfl, hcarried.wire.trans (by rw [hwire]), ?_⟩
      exact hleft.of_same hcarried.splices hcarried.slot hcarried.queues

/-! ## Whatever is answered -/

/-- No answer is longer than the buffer. -/
theorem grows_reply (e : Echo) (n : Network) (v : View) : Grows v.bytes.length n (e.reply n v).2 := by
  unfold reply
  split
  · exact Network.grows_of_eq rfl
  rename_i haddressed
  have hbuffer := n.wire_bufferOf e.splice (answer e.mac v.bytes)
  cases hgranted : n.bufferOf e.splice (answer e.mac v.bytes) with
  | mk granted n₁ =>
    rw [hgranted] at hbuffer
    cases granted with
    | error cause => exact Network.grows_of_eq hbuffer
    | ok out =>
      have hshown : out.bytes = answer e.mac v.bytes := Network.bytes_bufferOf (congrArg Prod.fst hgranted)
      have hlong : ([out].flatMap View.bytes).length ≤ v.bytes.length := by
        rw [List.flatMap_singleton, hshown, length_answer e.mac (Nat.not_lt.1 haddressed)]
      have hsent := n₁.grows_submit e.splice plugId hlong
      exact (Network.grows_of_eq hbuffer).trans hsent

theorem grows_replyEach (e : Echo) (n : Network) {views : List View} {length : Nat}
    (h : ∀ v ∈ views, v.bytes.length ≤ length) : Grows length n (e.replyEach n views).2 := by
  induction views generalizing e n with
  | nil => exact Network.grows_of_eq rfl
  | cons v rest ih =>
    have hfirst := (e.grows_reply n v).mono (h v List.mem_cons_self)
    have hrest (e : Echo) (n : Network) := ih e n fun w hw => h w (List.mem_cons_of_mem v hw)
    rw [replyEach]
    cases hreply : e.reply n v with
    | mk outcome n₁ =>
      rw [hreply] at hfirst
      cases outcome with
      | error cause => exact hfirst.trans (hrest _ _)
      | ok => exact hfirst.trans (hrest _ _)

/-- What an iteration puts on the wire, and what it counts, are the answers to what it took. -/
theorem iterate_replies (e : Echo) (n : Network) :
    let taken := n.takeAll e.splice plugId
    (e.iterate n).2.1 = (e.replyEach taken.2 taken.1).1 ∧
      (e.iterate n).2.2.wire = (e.replyEach taken.2 taken.1).2.wire := by
  unfold iterate
  cases n.takeAll e.splice plugId with
  | mk views n₁ => cases views <;> exact ⟨rfl, rfl⟩

/-- Nothing longer than a stretch comes out of what waits as it was received. -/
theorem grows_iterate {stack : List (List UInt8)} (h : Received e.splice plug n stack) (hid : plug.id = plugId) :
    Grows largestSegment n (e.iterate n).2.2 := by
  obtain ⟨hviews, -⟩ := h.takeAll
  rw [hid] at hviews
  obtain ⟨-, hwire⟩ := e.iterate_replies n
  have hshort : ∀ v ∈ (n.takeAll e.splice plugId).1, v.bytes.length ≤ largestSegment := by
    intro v hv
    have hmem : v.bytes ∈ stack.flatMap (pieces largestSegment) := hviews ▸ List.mem_map_of_mem hv
    obtain ⟨frame, -, hpiece⟩ := List.mem_flatMap.1 hmem
    exact (length_of_mem_pieces hpiece).2
  have hgrown := (Network.grows_of_eq (n.wire_takeAll e.splice plugId)).trans (e.grows_replyEach _ hshort)
  obtain ⟨more, hmore, hlong⟩ := hgrown
  exact ⟨more, hwire.trans hmore, hlong⟩

/-! ## Each frame once -/

/-- A frame for the consumer, with a whole header, whose answer goes to the wire: its source is neither the interface
nor everybody. -/
structure Answerable (plug : Plug) (frame : List UInt8) : Prop where
  headed : 14 ≤ frame.length
  captured : IsFor plug.virtualMac frame
  foreign : (frame.drop 6).take 6 ≠ plug.realMac.octets
  named : (frame.drop 6).take 6 ≠ Mac.broadcast.octets

instance (plug : Plug) (frame : List UInt8) : Decidable (Answerable plug frame) :=
  decidable_of_iff (_ ∧ _ ∧ _ ∧ _)
    ⟨fun ⟨headed, captured, foreign, named⟩ => ⟨headed, captured, foreign, named⟩,
      fun h => ⟨h.headed, h.captured, h.foreign, h.named⟩⟩

/-- An answer goes to the source. -/
theorem take_answer (own : Mac) (h : addressBytes ≤ bytes.length) :
    (answer own bytes).take 6 = (bytes.drop 6).take 6 := by
  have hlength : ((bytes.drop 6).take 6).length = 6 := by
    rw [List.length_take, List.length_drop]
    unfold addressBytes at h
    omega
  rw [answer, List.append_assoc, List.take_append_of_le_length (Nat.le_of_eq hlength.symm), List.take_take]
  rfl

theorem outgoing_of_source (own : Mac) (haddressed : addressBytes ≤ bytes.length)
    (hfits : bytes.length ≤ largestSegment) (hforeign : (bytes.drop 6).take 6 ≠ plug.realMac.octets)
    (hnamed : (bytes.drop 6).take 6 ≠ Mac.broadcast.octets) :
    Outgoing own plug bytes := by
  have hsource := take_answer own haddressed
  have hdown : Mac.destination? (answer own bytes) ≠ some plug.realMac := fun hreal =>
    hforeign (hsource.symm.trans (Inbox.destination?_eq_some_iff.1 hreal))
  have hnot : Mac.destination? (answer own bytes) ≠ some Mac.broadcast := fun hall =>
    hnamed (hsource.symm.trans (Inbox.destination?_eq_some_iff.1 hall))
  exact ⟨haddressed, hfits, .inr hdown, fun hup => hup.elim hnot hdown⟩

/-- The first stretch of an answerable frame, or the frame itself if it is not longer, has the addresses. -/
theorem Answerable.outgoing {frame : List UInt8} (h : Answerable plug frame) (own : Mac) :
    Outgoing own plug (frame.take largestSegment) := by
  have hheaded := h.headed
  have haddressed : addressBytes ≤ (frame.take largestSegment).length := by
    rw [List.length_take, addressBytes, largestSegment]
    omega
  have hsource : ((frame.take largestSegment).drop 6).take 6 = (frame.drop 6).take 6 := by
    rw [List.drop_take, List.take_take]
    rfl
  exact outgoing_of_source own haddressed (List.length_take_le _ _) (hsource ▸ h.foreign) (hsource ▸ h.named)

theorem Answerable.outgoing_whole {frame : List UInt8} (h : Answerable plug frame)
    (hfits : frame.length ≤ largestSegment) (own : Mac) : Outgoing own plug frame :=
  List.take_of_length_le hfits ▸ h.outgoing own

/-- What a frame on the wire is: where it goes out, and its bytes. -/
def rowOf (d : Delivery) : Nat × List UInt8 :=
  (d.index, d.bytes)

/-- The wire as a list of frames. -/
def rows (n : Network) : List (Nat × List UInt8) :=
  n.wire.toList.map rowOf

/-- The frames that answer others, one each. -/
def answersTo (own : Mac) (plug : Plug) (frames : List (List UInt8)) : List (Nat × List UInt8) :=
  frames.map fun frame => (plug.index, answer own frame)

theorem rows_append {parts : List (List UInt8)}
    (h : n'.wire = n.wire ++ (parts.map (deliveryOf own plug)).toArray) :
    rows n' = rows n ++ answersTo own plug parts := by
  rw [rows, h, Array.toList_append, List.map_append, List.map_map]
  rfl

/-- From one network to another exactly one answer to each of some frames went out, in order, and as many more were
counted. -/
structure AnsweredOnce (plug : Plug) (frames : List (List UInt8)) (e : Echo) (n : Network) (e' : Echo) (n' : Network) :
    Prop where
  wire : rows n' = rows n ++ answersTo e.mac plug frames
  count : e'.answered = e.answered + frames.length

theorem AnsweredOnce.fits {frames : List (List UInt8)} {e' : Echo} {length : Nat}
    (h : AnsweredOnce plug frames e n e' n') (hgrows : Grows length n n')
    (haddressed : ∀ frame ∈ frames, addressBytes ≤ frame.length) : ∀ frame ∈ frames, frame.length ≤ length := by
  intro frame hframe
  obtain ⟨more, hwire, hshort⟩ := hgrows
  have hrows := h.wire
  rw [rows, hwire, Array.toList_append, List.map_append] at hrows
  have hmem : (plug.index, answer e.mac frame) ∈ more.map rowOf := by
    rw [List.append_cancel_left hrows]
    exact List.mem_map_of_mem hframe
  obtain ⟨d, hd, hrow⟩ := List.mem_map.1 hmem
  have hbytes : d.bytes = answer e.mac frame := congrArg Prod.snd hrow
  rw [← length_answer e.mac (haddressed frame hframe), ← hbytes]
  exact hshort d hd

section Once

variable {stack : List (List UInt8)} (h : Received e.splice plug n stack) (hid : plug.id = plugId)
  (hanswer : ∀ frame ∈ stack, Answerable plug frame)
include h hid hanswer

/-- Frames that wait as they were received are answered once each only if each of them stands in one stretch. -/
theorem fits_of_once (honce : AnsweredOnce plug stack e n (e.iterate n).2.1 (e.iterate n).2.2) :
    ∀ frame ∈ stack, frame.length ≤ largestSegment :=
  honce.fits (grows_iterate h hid) fun frame hframe => Nat.le_trans (by decide) (hanswer frame hframe).headed

/-- They are if nothing is refused. -/
theorem once_of_fits (hkeyed : (n.takeAll e.splice plugId).2.memory.Keyed)
    (hafford : e.Affords (n.takeAll e.splice plugId).2 stack)
    (hfits : ∀ frame ∈ stack, frame.length ≤ largestSegment) :
    AnsweredOnce plug stack e n (e.iterate n).2.1 (e.iterate n).2.2 := by
  have hout : ∀ frame ∈ stack, Outgoing e.mac plug frame := fun frame hframe =>
    (hanswer frame hframe).outgoing_whole (hfits frame hframe) e.mac
  obtain ⟨n', hiterate, hwire, -⟩ := iterate_outgoing h hid hkeyed (flatMap_pieces hout) hout hafford
  rw [hiterate]
  exact ⟨rows_append hwire, rfl⟩

end Once

end Echo

namespace Scene

section Batch

variable (limit : Option Nat) (turns : List Turn) (e : Echo) (plug : Plug) (batch : List (List UInt8))
  (hslot : ((start limit).run turns).network.slot = some (.splice e.splice))
  (honly : ((start limit).run turns).network.previous? e.splice = none)
  (hplug : plug ∈ (((start limit).run turns).network.registry e.splice).plugs) (hid : plug.id = Echo.plugId)
  (hnone : ((start limit).run turns).network.plane.waiting plug = [])
include hslot honly hplug hid hnone

/-- A batch comes from the wire, and nothing is refused: it waits as it was received, and once it is taken, no more is
refused than before it came. -/
theorem run_received (hfor : ∀ frame ∈ batch, IsFor plug.virtualMac frame)
    (hroom : ObligesAll e.splice plug ((start limit).run turns).network
      (batch.map fun frame => .arrive frame largestSegment)) :
    let n := (Inbox.run e.splice plug ((start limit).run turns).network
      (batch.map fun frame => .arrive frame largestSegment)).2
    Received e.splice plug n batch.reverse ∧ (n.takeAll e.splice Echo.plugId).2.memory.Keyed ∧
      ∀ parts, e.Affords ((start limit).run turns).network parts →
        e.Affords (n.takeAll e.splice Echo.plugId).2 parts := by
  intro n
  obtain ⟨h, hs⟩ := settled_run limit turns
  have haudited : ((start limit).run turns).network.Audited 0 := Network.Settled.audited hs
  have hempty : Received e.splice plug ((start limit).run turns).network [] := by
    have hnamed := (Network.Settled.registry_sound hs e.splice).byId? hplug
    refine ⟨⟨⟨Network.Settled.plugged hs hplug, hnamed, hslot, honly⟩, ?_⟩, ?_⟩
    · rw [Network.bytesWaiting, hnone]
      rfl
    · rw [hnone]
      exact fun f hf => absurd hf List.not_mem_nil
  have hcame := hempty.arriveEach batch hroom
  rw [List.filter_eq_self.2 fun frame hframe => decide_eq_true (hfor frame hframe), List.append_nil] at hcame
  obtain ⟨hsplices, heven⟩ := hempty.even_arriveEach haudited hfor hroom
  rw [hempty.memory_takeAll, hid] at heven
  refine ⟨hcame, ?_, fun parts hafford => ?_⟩
  · exact ((haudited.trade (Inbox.trades_run_arrive _ _ _ batch largestSegment)).trade
      (n.trades_takeAll e.splice Echo.plugId)).keyed
  · exact hafford.even ((n.splices_takeAll e.splice Echo.plugId).trans hsplices) heven

/-- A batch comes from the wire, and is taken in one iteration. -/
theorem run_once_iff (hbatch : ∀ frame ∈ batch, Echo.Answerable plug frame)
    (hroom : ObligesAll e.splice plug ((start limit).run turns).network
      (batch.map fun frame => .arrive frame largestSegment))
    (hafford : e.Affords ((start limit).run turns).network (batch.flatMap (pieces largestSegment))) :
    let n := (Inbox.run e.splice plug ((start limit).run turns).network
      (batch.map fun frame => .arrive frame largestSegment)).2
    Echo.AnsweredOnce plug batch.reverse e n (e.iterate n).2.1 (e.iterate n).2.2 ↔
      ∀ frame ∈ batch, frame.length ≤ largestSegment := by
  obtain ⟨hcame, hkeyed, hgranted⟩ := run_received limit turns e plug batch hslot honly hplug hid hnone
    (fun frame hframe => (hbatch frame hframe).captured) hroom
  have hanswer : ∀ frame ∈ batch.reverse, Echo.Answerable plug frame := fun frame hframe =>
    hbatch frame (List.mem_reverse.1 hframe)
  constructor
  · intro honce frame hframe
    exact Echo.fits_of_once hcame hid hanswer honce frame (List.mem_reverse.2 hframe)
  · intro hfits
    have hout : ∀ frame ∈ batch, Echo.Outgoing e.mac plug frame := fun frame hframe =>
      (hbatch frame hframe).outgoing_whole (hfits frame hframe) e.mac
    rw [Echo.flatMap_pieces hout] at hafford
    exact Echo.once_of_fits hcame hid hanswer hkeyed
      (hgranted _ (hafford.mono fun frame hframe => List.mem_reverse.1 hframe))
      fun frame hframe => hfits frame (List.mem_reverse.1 hframe)

end Batch

/-- A host on which an echo consumer plugged its interface. -/
def echoSetUp (own : Mac) : List Turn :=
  [{ act := .host (.addInterface "" (some ⟨[0, 27, 33, 0, 0, 7], rfl⟩) 1500 1) },
    { act := .block (.addBudget 4096 false) },
    { act := .splice (.start 0) },
    { act := .splice (.plug 0 "" Echo.plugId own) }]

/-- The plug that it made. -/
def echoPlug (own : Mac) : Plug where
  key := 0
  id := Echo.plugId
  index := 1
  name := ""
  realMac := ⟨[0, 27, 33, 0, 0, 7], rfl⟩
  virtualMac := own
  flags := 1
  marked := true
  record := ⟨0, 1, .plain, .zeroed 168⟩

/-- A frame for the consumer and one for everybody, each answered once. -/
theorem run_once_iff_two :
    let own : Mac := ⟨[2, 0, 0, 0, 0, 1], rfl⟩
    let peer : List UInt8 := [0, 27, 33, 0, 0, 254]
    let n := ((start none).run (echoSetUp own)).network
    let plug := echoPlug own
    let e : Echo := { splice := 0, mac := own, target := 2 }
    let batch : List (List UInt8) :=
      [own.octets ++ peer ++ [136, 181], Mac.broadcast.octets ++ peer ++ [136, 181, 7]]
    let received := (Inbox.run 0 plug n (batch.map fun frame => .arrive frame largestSegment)).2
    n.slot = some (.splice 0) ∧ n.previous? 0 = none ∧ plug ∈ (n.registry 0).plugs ∧
      n.plane.waiting plug = [] ∧ (∀ frame ∈ batch, Echo.Answerable plug frame) ∧
      ObligesAll 0 plug n (batch.map fun frame => .arrive frame largestSegment) ∧
      e.Affords n (batch.flatMap (pieces largestSegment)) ∧
      Echo.AnsweredOnce plug batch.reverse e received (e.iterate received).2.1 (e.iterate received).2.2 := by
  intro own peer n plug e batch received
  have hslot : n.slot = some (.splice 0) := rfl
  have honly : n.previous? 0 = none := rfl
  have hplug : plug ∈ (n.registry 0).plugs := by decide +kernel
  have hnone : n.plane.waiting plug = [] := by decide +kernel
  have hbatch : ∀ frame ∈ batch, Echo.Answerable plug frame := by decide +kernel
  have hroom : ObligesAll 0 plug n (batch.map fun frame => .arrive frame largestSegment) := by decide +kernel
  have hafford : e.Affords n (batch.flatMap (pieces largestSegment)) := by decide +kernel
  have hfits : ∀ frame ∈ batch, frame.length ≤ largestSegment := by decide +kernel
  have honce := run_once_iff none (echoSetUp own) e plug batch hslot honly hplug rfl hnone hbatch hroom hafford
  exact ⟨hslot, honly, hplug, hnone, hbatch, hroom, hafford, honce.2 hfits⟩

/-- A frame of 3014 bytes is answered twice: each of its two stretches as if it were a frame. -/
theorem not_once_long :
    let own : Mac := ⟨[2, 0, 0, 0, 0, 1], rfl⟩
    let n := ((start none).run (echoSetUp own)).network
    let plug := echoPlug own
    let e : Echo := { splice := 0, mac := own, target := 1 }
    let frame : List UInt8 :=
      own.octets ++ [0, 27, 33, 0, 0, 254] ++ [136, 181] ++ (List.range 3000).map UInt8.ofNat
    let received := (Inbox.run 0 plug n [.arrive frame largestSegment]).2
    n.slot = some (.splice 0) ∧ n.previous? 0 = none ∧ plug ∈ (n.registry 0).plugs ∧
      n.plane.waiting plug = [] ∧ Echo.Answerable plug frame ∧
      ObligesAll 0 plug n [.arrive frame largestSegment] ∧ e.Affords n (pieces largestSegment frame) ∧
      (e.iterate received).2.1.answered = 2 ∧
      ¬ Echo.AnsweredOnce plug [frame] e received (e.iterate received).2.1 (e.iterate received).2.2 := by
  intro own n plug e frame received
  have hslot : n.slot = some (.splice 0) := rfl
  have honly : n.previous? 0 = none := rfl
  have hplug : plug ∈ (n.registry 0).plugs := by decide +kernel
  have hnone : n.plane.waiting plug = [] := by decide +kernel
  have hlong : frame.length = 3014 := by simp [frame, own]
  have hanswer : Echo.Answerable plug frame :=
    ⟨by rw [hlong]; decide, ⟨by rw [hlong]; decide, .inl rfl⟩,
      show ([0, 27, 33, 0, 0, 254] : List UInt8) ≠ [0, 27, 33, 0, 0, 7] by decide,
      show ([0, 27, 33, 0, 0, 254] : List UInt8) ≠ Mac.broadcast.octets by decide⟩
  have hunlimited : n.memory.pool.limit = none := rfl
  have hheaders (count : Nat) : n.memory.HasHeaders count := fun limit hlimit => by
    rw [hunlimited] at hlimit
    cases hlimit
  have hroom : ObligesAll 0 plug n [.arrive frame largestSegment] :=
    ⟨⟨hheaders _, fun _ => hheaders _, fun _ => by decide +kernel⟩, trivial⟩
  -- the frame in its stretches, of which the second has content where the addresses should be
  have hrest : (frame.drop largestSegment).length = 966 := by rw [List.length_drop, hlong]; rfl
  have hsource : ((frame.drop largestSegment).drop 6).take 6 = [248, 249, 250, 251, 252, 253] := by decide +kernel
  have hsecond : Echo.Outgoing own plug (frame.drop largestSegment) :=
    Echo.outgoing_of_source own (by rw [hrest]; decide) (by rw [hrest]; decide)
      (by rw [hsource]; decide) (by rw [hsource]; decide)
  have hparts : pieces largestSegment frame = [frame.take largestSegment, frame.drop largestSegment] := by
    have hne : frame ≠ [] := List.cons_ne_nil _ _
    rw [Echo.pieces_of_ne_nil hne, hsecond.pieces_eq]
  have hafford : e.Affords n (pieces largestSegment frame) := by
    refine ⟨?_, fun _ => hheaders 1⟩
    have hshort : ∀ size ∈ [2048, 966], (n.buffer 0 size).1.toBool = true := by decide +kernel
    intro bytes hbytes
    refine hshort _ ?_
    rw [hparts] at hbytes
    rcases List.mem_pair.1 hbytes with hfirst | hsecond
    · rw [hfirst, List.length_take, hlong]
      exact List.mem_pair.2 (.inl rfl)
    · rw [hsecond, hrest]
      exact List.mem_pair.2 (.inr rfl)
  obtain ⟨hcame, hkeyed, hgranted⟩ := run_received none (echoSetUp own) e plug [frame] hslot honly hplug rfl hnone
    (fun other hother => List.mem_singleton.1 hother ▸ hanswer.captured) hroom
  have hstretches : [frame].reverse.flatMap (pieces largestSegment) = pieces largestSegment frame :=
    List.flatMap_singleton _ _
  have hout : ∀ bytes ∈ pieces largestSegment frame, Echo.Outgoing own plug bytes := by
    intro bytes hbytes
    rw [hparts] at hbytes
    rcases List.mem_pair.1 hbytes with heq | heq
    · exact heq ▸ hanswer.outgoing own
    · exact heq ▸ hsecond
  obtain ⟨n', hiterate, -, -⟩ := Echo.iterate_outgoing hcame rfl hkeyed hstretches hout (hgranted _ hafford)
  have hcount : (e.iterate received).2.1.answered = 2 := by
    rw [hparts] at hiterate
    exact congrArg (fun answer => answer.2.1.answered) hiterate
  refine ⟨hslot, honly, hplug, hnone, hanswer, hroom, hafford, hcount, fun honce => ?_⟩
  have hone : (e.iterate received).2.1.answered = 1 := honce.count
  rw [hcount] at hone
  cases hone

end Scene

end Patchbay
