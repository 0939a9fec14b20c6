import Patchbay.Network.Consumer
import Patchbay.Proofs.Estate.Network

/-!
# `Proofs.Estate.Splice` — what a splice and its consumer may do

A splice that ends drops its plugs, and nothing else of it was lent. What its consumer asks for is handed out or
refused as a whole: a refused send gives back every header, and a frame that cannot be copied into one piece is
given up together with its storage.

## Contents
* `Network.trades_dispose`, `Network.trades_unlink`, `Network.trades_putHook`, `Network.trades_startSplice`,
  `Network.trades_tearDown`, `Network.trades_dropSplice` — splices come and go;
* `Network.trades_plug`, `Network.trades_unplug`, `Network.trades_unplugEverything`;
* `Network.trades_takeAll`, `Network.trades_takeNext`, `Network.trades_submit` — frames and buffers;
* `Network.trades_memoryFor`, `Network.trades_pages`, `Network.trades_bufferOf` — memory.
-/

namespace Patchbay

open Budget (Block)

namespace Network

variable {k : Memory.Bookkeeping} {a : Estate}

/-! ## A plug of a splice -/

/-- An operation on the queue of a plug that is listed trades what it trades on any queue. -/
theorem trades_onQueue {α : Type} {f : Queue → Memory → α × Queue × Memory} {b : α → Estate}
    {plug : Plug} {key : Nat} (n : Network) (hplug : plug ∈ (n.registry key).plugs)
    (hf : Queue.Operates k a f b) (ha : a.plugs = 0) (hb : ∀ x, (b x).plugs = 0) :
    Trades (Settled k) n a (n.onQueue plug f).2 (b (n.onQueue plug f).1) :=
  trades_ofPlug hplug (n.plane.trades_onQueue plug hf ha hb)

/-- To note that a frame is too long costs nothing. -/
theorem trades_warnOfLength (n : Network) {key : Nat} {plug : Plug}
    (hplug : plug ∈ (n.registry key).plugs) (length : Nat) :
    Trades (Settled k) n a (n.warnOfLength plug length) a := by
  unfold warnOfLength
  split
  · exact .refl n a
  split
  · exact trades_ofPlug hplug ((n.plane.trades_countWarning plug).frame a)
  · exact .refl n a

/-! ## Splices come and go -/

/-- A further hook place for a splice is nothing that is lent. -/
theorem trades_link (n : Network) (hook : Option Hook) : Trades (Settled k) n 0 (n.link hook) 0 := by
  unfold link
  split
  · exact .refl n 0
  · exact trades_modifySplice n _ fun _ => rfl

/-- Nor does it matter to what is lent which hook stands in the slot. -/
theorem trades_exchangeHook (n : Network) (hook : Hook) :
    Trades (Settled k) n 0 (n.exchangeHook hook).2 0 := by
  refine .trans ?_ (trades_link { n with slot := some hook } (some hook))
  exact trades_same rfl rfl

/-- A new splice has nothing plugged, so there is nothing it holds. -/
theorem trades_addSplice (n : Network) (budget : Nat) :
    Trades (Settled k) n 0 (n.addSplice budget).2 0 := by
  intro past rest hs
  rw [zero_add] at hs ⊢
  refine ⟨past, le_refl past, ?_, fun s hmem => ?_⟩
  · show n.plane.Settled k past (rest + estate (n.splices.push { budget := budget }).toList)
    rw [Array.toList_push, estate_append, show estate [({ budget := budget } : Splice)] = 0 from rfl,
      add_zero]
    exact hs.plane
  · change s ∈ (n.splices.push { budget := budget }).toList at hmem
    rw [Array.toList_push, List.mem_append, List.mem_singleton] at hmem
    rcases hmem with hmem | rfl
    · exact hs.sound s hmem
    · exact .empty

theorem trades_holdSplice (n : Network) (key : Nat) : Trades (Settled k) n 0 (n.holdSplice key) 0 :=
  trades_modifySplice n key fun _ => rfl

theorem abandon_eq (n : Network) (key : Nat) :
    n.abandon key = (n.onRegistry key fun r p => ((), {}, r.plugs.foldl Backplane.dropPlug p)).2.modifySplice
      key fun s => { s with previous := some none } := by
  unfold abandon onRegistry modifySplice
  dsimp only
  congr 1
  -- two changes of one splice are one
  apply Array.ext_getElem?
  intro i
  simp only [Array.getElem?_modify]
  split
  · cases n.splices[i]? <;> rfl
  · rfl

variable [Memory.Tally k]

/-- When a splice forgets its plugs, they go with all that waits at them. -/
theorem trades_abandon (n : Network) (key : Nat) : Trades (Settled k) n 0 (n.abandon key) 0 := by
  rw [abandon_eq]
  refine (n.trades_onRegistry key (fun r p => ?_) (fun _ _ _ => .empty) fun _ _ => rfl).trans
    (trades_modifySplice _ key fun _ => rfl)
  exact Trades.foldl Backplane.trades_dropPlug r.plugs p

/-- Splices that go one after the other leave nothing behind, however many are let go. -/
theorem trades_disposeWithin (fuel : Nat) (n : Network) (key : Nat) :
    Trades (Settled k) n 0 (disposeWithin fuel n key) 0 := by
  -- on the fuel, since the end of one splice may end the one before it
  induction fuel generalizing n key with
  | zero => exact .refl n 0
  | succ fuel ih =>
    unfold disposeWithin
    split
    · exact .refl n 0
    split
    · dsimp only
      split
      · exact n.trades_abandon key
      · refine .trans ?_ (ih _ _)
        exact (n.trades_abandon key).trans (trades_modifySplice _ _ fun _ => rfl)
    · exact .refl n 0

theorem trades_dispose (n : Network) (key : Nat) : Trades (Settled k) n 0 (n.dispose key) 0 :=
  trades_disposeWithin _ n key

/-- A hook place that is given up may be the last of its splice, which then goes. -/
theorem trades_unlink (n : Network) (hook : Option Hook) : Trades (Settled k) n 0 (n.unlink hook) 0 := by
  unfold unlink
  split
  · exact .refl n 0
  · refine .trans ?_ (trades_dispose _ _)
    exact trades_modifySplice n _ fun _ => rfl

/-- So it may be when another hook is put into the slot. -/
theorem trades_putHook (n : Network) (hook : Option Hook) : Trades (Settled k) n 0 (n.putHook hook) 0 := by
  refine .trans ?_ (trades_unlink { n with slot := hook } n.slot)
  exact trades_same rfl rfl

/-- And when a splice is told of another hook before it. -/
theorem trades_tellPrevious (n : Network) (key : Nat) (hook : Option Hook) :
    Trades (Settled k) n 0 (n.tellPrevious key hook) 0 := by
  unfold tellPrevious
  split
  · exact trades_modifySplice n key fun _ => rfl
  · exact n.trades_unlink hook

/-- Nothing is lent when a splice is started. -/
theorem trades_startSplice (n : Network) (budget : Nat) :
    Trades (Settled k) n 0 (n.startSplice budget).2 0 := by
  have hslot := (n.trades_addSplice budget).trans (trades_exchangeHook (k := k) _ (.splice n.splices.size))
  have htold := hslot.trans (trades_tellPrevious _ n.splices.size n.slot)
  exact htold.trans (trades_modifySplice _ n.splices.size fun _ => rfl)

/-- A plug keeps its record and its line for itself; a caller gets nothing. -/
theorem trades_plug (n : Network) {key : Nat} (hkey : key < n.splices.size) (name : String)
    (id : Nat) (mac : Mac) : Trades (Settled k) n 0 (n.plug key name id mac).2 0 := by
  refine n.trades_onRegistry key (fun r p => r.trades_plug p _ name id mac)
    (fun r p h => h.plug p _ name id mac) fun hnone => ?_
  rw [Array.getElem?_eq_getElem hkey] at hnone
  cases hnone

/-- What waits at a plug and its record go back when it is unplugged. -/
theorem trades_unplug (n : Network) (key id : Nat) : Trades (Settled k) n 0 (n.unplug key id).2 0 :=
  n.trades_onRegistry key (fun r p => r.trades_unplug p id) (fun _ p h => h.unplug p id) fun _ _ => rfl

theorem trades_unplugEverything (n : Network) (key : Nat) :
    Trades (Settled k) n 0 (n.unplugEverything key).2 0 :=
  n.trades_onRegistry key (fun r => r.trades_unplugEverything) (fun _ p h => h.unplugEach p _)
    fun _ _ => rfl

/-- A splice that takes itself out of the slot gives up what it listed. -/
theorem trades_tearDown (n : Network) (key : Nat) : Trades (Settled k) n 0 (n.tearDown key) 0 := by
  unfold tearDown
  split
  · exact .refl n 0
  split
  · dsimp only
    -- read from the last step to the first
    refine .trans ?_ (trades_unplugEverything _ key)
    refine .trans ?_ (trades_putHook _ _)
    refine .trans ?_ (trades_link _ _)
    exact trades_modifySplice n key fun _ => rfl
  · exact .refl n 0

/-- So it does when its last handle goes. -/
theorem trades_dropSplice (n : Network) (key : Nat) : Trades (Settled k) n 0 (n.dropSplice key) 0 := by
  unfold dropSplice
  split
  · exact .refl n 0
  · rename_i s hs
    have htear : Trades (Settled k) n 0 (if s.handles ≤ 1 then n.tearDown key else n) 0 := by
      split
      · exact n.trades_tearDown key
      · exact .refl n 0
    refine .trans ?_ (trades_dispose _ key)
    exact htear.trans (trades_modifySplice _ key fun _ => rfl)

/-! ## Frames and buffers -/

/-- The headers of frames go back and their references become views. -/
theorem trades_unwrapAll (m : Memory) (frames : List Frame) :
    Trades (Memory.Settled k) m (estate frames) (unwrapAll m frames).2
      (estate (unwrapAll m frames).1) := by
  induction frames generalizing m with
  | nil => exact .refl m 0
  | cons f rest ih =>
    have hfirst := (Frame.trades_unwrap (k := k) m f).frame (estate rest)
    have hrest := (ih (f.unwrap m).2).frame (estate (f.unwrap m).1)
    refine (hfirst.trans (hrest.cast (add_comm _ _) rfl)).cast rfl ?_
    show estate ((f.unwrap m).1 ++ (unwrapAll (f.unwrap m).2 rest).1) = _
    rw [estate_append, add_comm]

/-- A consumer holds the views that it takes. -/
theorem trades_takeAll (n : Network) (key id : Nat) :
    Trades (Settled k) n 0 (n.takeAll key id).2 (estate (n.takeAll key id).1) := by
  unfold takeAll
  split
  · exact .refl n 0
  · rename_i plug hplug
    have htake := n.trades_onQueue (byId?_mem hplug) Queue.operates_drain (k := k) rfl plugs_eq_zero
    exact htake.trans (trades_onMemory _ (trades_unwrapAll _ _) (plugs_eq_zero _) plugs_eq_zero)

/-- It holds the buffer that it takes, which is a block of its own if the frame was in pieces. -/
theorem trades_takeNext (n : Network) (key id : Nat) :
    Trades (Settled k) n 0 (n.takeNext key id).2 (estate (n.takeNext key id).1) := by
  unfold takeNext
  split
  · exact .refl n 0
  · rename_i plug hplug
    have htake := n.trades_onQueue (byId?_mem hplug) Queue.operates_take? (k := k) rfl plugs_eq_zero
    cases ho : n.onQueue plug Queue.take? with
    | mk frame? n₁ =>
      rw [ho] at htake
      cases frame? with
      | none => exact htake
      | some f =>
        refine htake.trans ?_
        dsimp only
        -- a frame of one segment is handed over as it stands
        split
        · rename_i segment hsegments
          have hreturn := (n₁.memory.trades_returnHeader (k := k)).frame (.reference segment.storage)
          refine (trades_setMemory hreturn rfl rfl).cast ?_ (zero_add _).symm
          rw [estate_some, estate_frame, hsegments, estate_cons, estate_nil, add_zero, estate_segment]
        · -- the frame goes whether or not the budget had room for a copy of it
          have hcompact := (n₁.trades_onMemory (f := fun m => f.compact m (n₁.budgetOf key))
            (Frame.trades_compact (k := k) n₁.memory _ f) rfl plugs_eq_zero).frame (estate f)
          cases hc : n₁.onMemory fun m => f.compact m (n₁.budgetOf key) with
          | mk answer n₂ =>
            rw [hc] at hcompact
            have hrelease := trades_setMemory (n₂.memory.trades_releaseFrame (k := k) f) (plugs_eq_zero f) rfl
            have hboth := (hcompact.trans ((hrelease.frame (estate answer)).cast (add_comm _ _)
              rfl)).cast (zero_add _).symm (zero_add _).symm
            cases answer with
            | error e => exact hboth
            | ok view => exact hboth

/-- A frame that is ready goes up the stack, to the wire, or both ways. -/
theorem trades_dispatch (n : Network) (index : Nat) (realMac : Mac) (f : Frame) :
    Trades (Settled k) n (estate f)
      (if f.destination? = some Mac.broadcast then
        match n.onMemory fun m => f.copy m with
        | (none, n) =>
          (Except.error (.memory (.poolExhausted f.segments.length)), n.setMemory (n.memory.releaseFrame f))
        | (some copy, n) => (.ok (), (n.receive index (.last copy)).transmit index (.last f))
      else if f.destination? = some realMac then (.ok (), n.receive index (.last f))
      else (.ok (), n.transmit index (.last f)) : Except NetFailure Unit × Network).2 0 := by
  split
  · have hcopy := trades_lend (Frame.trades_copy (k := k) n.memory f) (plugs_eq_zero _)
    cases hc : f.copy n.memory with
    | mk copy? m =>
      rw [hc] at hcopy
      simp only [onMemory, hc]
      cases copy? with
      | none =>
        rw [estate_none, add_zero] at hcopy
        exact hcopy.trans (trades_setMemory (Memory.trades_releaseFrame _ f) (plugs_eq_zero f) rfl)
      | some copy =>
        have hup := (trades_receive (k := k) (n.setMemory m) index (.last copy)).frame (estate f)
        rw [estate_last, zero_add] at hup
        have hout := trades_transmit (k := k) ((n.setMemory m).receive index (.last copy)) index (.last f)
        rw [estate_last] at hout
        exact hcopy.trans ((hup.cast (add_comm _ _) rfl).trans hout)
  split
  · exact (n.trades_receive index (.last f)).cast (estate_last f).symm rfl
  · exact (n.trades_transmit index (.last f)).cast (estate_last f).symm rfl

/-- The buffers stay with the caller; the frame has references of its own. -/
theorem trades_submit (n : Network) (key id : Nat) {buffers : List View}
    (hb : ∀ v ∈ buffers, v.storage ∈ a.references) :
    Trades (Settled k) n a (n.submit key id buffers).2 a := by
  unfold submit
  split
  · exact .refl n a
  · rename_i plug hplug
    have hmake := trades_lend (Frame.trades_ofBuffers (k := k) n.memory buffers (some plug.index) hb)
      (plugs_eq_zero _)
    cases hf : Frame.ofBuffers n.memory buffers (some plug.index) with
    | mk answer m =>
      rw [hf] at hmake
      simp only [onMemory, hf]
      cases answer with
      | error e => exact hmake.cast rfl (add_zero a).symm
      | ok f =>
        refine hmake.trans ?_
        -- what is done with the frame leaves alone what the caller has
        have hframe {n' : Network} (h : Trades (Settled k) (n.setMemory m) (estate f) n' 0) :
            Trades (Settled k) (n.setMemory m) (a + estate f) n' a :=
          (h.frame a).cast (add_comm _ _) (zero_add a).symm
        dsimp only
        split
        · exact hframe (trades_setMemory (Memory.trades_releaseFrame _ f) (plugs_eq_zero f) rfl)
        · have hmem : plug ∈ ((n.setMemory m).registry key).plugs := byId?_mem hplug
          refine hframe (.trans ?_ (trades_dispatch _ plug.index plug.realMac f))
          exact trades_warnOfLength _ hmem f.length

/-! ## Memory -/

/-- Memory for a consumer is a block that it holds. -/
theorem trades_memoryFor (n : Network) (key : Nat) (kind : Budget.Kind) (size : Nat) :
    Trades (Settled k) n 0 (n.memoryFor key kind size).2 (estate (n.memoryFor key kind size).1) := by
  have halloc := n.trades_onMemory (f := fun m => m.alloc (n.budgetOf key) kind none size)
    (n.memory.trades_alloc (k := k) _ kind none size) rfl plugs_eq_zero
  unfold memoryFor
  cases ha : n.onMemory fun m => m.alloc (n.budgetOf key) kind none size with
  | mk answer n₁ =>
    rw [ha] at halloc
    cases answer with
    | error e => exact halloc
    | ok block => exact halloc

theorem trades_pages (n : Network) (key count : Nat) :
    Trades (Settled k) n 0 (n.pages key count).2 (estate (n.pages key count).1) := by
  unfold pages
  split
  · exact n.trades_memoryFor key .contiguous _
  · exact .refl n 0

/-- A buffer of given bytes is a reference, and the block behind it belongs to its storage. -/
theorem trades_bufferOf (n : Network) (key : Nat) (bytes : List UInt8) :
    Trades (Settled k) n 0 (n.bufferOf key bytes).2 (estate (n.bufferOf key bytes).1) := by
  have hbuffer := n.trades_memoryFor (k := k) key .plain bytes.length
  unfold bufferOf buffer
  cases hb : n.memoryFor key .plain bytes.length with
  | mk answer n₁ =>
    rw [hb] at hbuffer
    cases answer with
    | error e => exact hbuffer
    | ok block =>
      have hwrite := n₁.memory.trades_write (k := k) block 0 bytes
      have hshare := n₁.memory.trades_shareBlock (k := k) (block.write 0 bytes)
      exact hbuffer.trans (trades_setMemory (hwrite.trans hshare) rfl rfl)

end Network

end Patchbay
