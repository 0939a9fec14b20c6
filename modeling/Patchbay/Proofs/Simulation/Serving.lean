import Patchbay.Proofs.Echo.Answering
import Patchbay.Proofs.Registry.Listing
import Patchbay.Simulation

/-!
# `Proofs.Simulation.Serving` — the echo consumer and its peer

While the consumer's run loop goes on, the frames that the peer sent are answered or wait. A frame that is sent waits;
an iteration answers all that wait, and each answer goes to the peer.

## Contents
* `Echo.trades_iterate` — what an iteration takes it gives back;
* `Network.received_plug` — an interface is plugged for the only consumer;
* `Simulation.isFor_frameFor`, `Simulation.outgoing_frameFor` — a frame of the peer, and its answer;
* `Simulation.Serving` — what was sent, answered and waits; `Serving.send`, `Serving.iterate` keep it;
* `Simulation.plug_host` — the consumer plugs its interface.
-/

namespace Patchbay

open Patchbay.Frame (largestSegment)
open Inbox (Received HasRoom IsFor)

namespace Echo

variable {k : Memory.Bookkeeping} [Memory.Tally k]

/-! ## What an iteration takes it gives back -/

theorem trades_reply (e : Echo) (n : Network) (v : View) : Trades (Network.Settled k) n 0 (e.reply n v).2 0 := by
  unfold reply
  split
  · exact .refl n 0
  have hbuffer := n.trades_bufferOf (k := k) e.splice (answer e.mac v.bytes)
  cases hgranted : n.bufferOf e.splice (answer e.mac v.bytes) with
  | mk granted n₁ =>
    rw [hgranted] at hbuffer
    cases granted with
    | error cause => exact hbuffer
    | ok out =>
      have hheld : ∀ w ∈ [out], w.storage ∈ (estate out).references := fun w hw =>
        List.mem_singleton.1 hw ▸ Multiset.mem_singleton_self _
      have hsubmit := n₁.trades_submit (k := k) e.splice plugId hheld
      exact (hbuffer.trans hsubmit).trans (Network.trades_setMemory (Memory.trades_release _ out.storage) rfl rfl)

theorem trades_replyEach (e : Echo) (n : Network) (views : List View) :
    Trades (Network.Settled k) n 0 (e.replyEach n views).2 0 := by
  induction views generalizing e n with
  | nil => exact .refl n 0
  | cons v rest ih =>
    have hfirst := e.trades_reply (k := k) n v
    rw [replyEach]
    cases hreply : e.reply n v with
    | mk outcome n₁ =>
      rw [hreply] at hfirst
      cases outcome with
      | error cause => exact hfirst.trans (ih _ _)
      | ok => exact hfirst.trans (ih _ _)

theorem trades_iterate (e : Echo) (n : Network) : Trades (Network.Settled k) n 0 (e.iterate n).2.2 0 := by
  have htaken := n.trades_takeAll (k := k) e.splice plugId
  unfold iterate
  cases ht : n.takeAll e.splice plugId with
  | mk views n₁ =>
    rw [ht] at htaken
    cases views with
    | nil => exact htaken
    | cons v rest =>
      have hreplies := (e.trades_replyEach (k := k) n₁ (v :: rest)).frame (estate (v :: rest))
      rw [zero_add] at hreplies
      exact (htaken.trans hreplies).trans
        (Network.trades_setMemory (Memory.trades_releaseViews _ (v :: rest)) (plugs_eq_zero _) rfl)

end Echo

/-! ## A plug for the only consumer -/

/-- Where the splice is the only hook set, an interface that is free is plugged if its record is granted, and nothing
waits for it yet. -/
theorem Network.received_plug {n : Network} {key id : Nat} {name : String} {i : Interface} {realMac : Mac} {s : Splice}
    (mac : Mac) (haudited : n.Audited 0) (hs : n.splices[key]? = some s) (hslot : n.slot = some (.splice key))
    (honly : n.previous? key = none) (hfind : n.plane.table.find? name = some i) (hmac : i.mac? = some realMac)
    (hid : (n.registry key).byId? id = none) (hindex : (n.registry key).byIndex? i.index = none)
    (hgrants : n.memory.Grants (n.budgetOf key) Registry.recordNote Registry.recordSize) :
    ∃ plug n', n.plug key name id mac = (.ok i.isUp, n') ∧ plug.id = id ∧ plug.index = i.index ∧
      plug.realMac = realMac ∧ plug.virtualMac = mac ∧ n'.Audited 0 ∧ Received key plug n' [] ∧ n'.wire = n.wire := by
  obtain ⟨record, m, hplugged⟩ := Registry.plug_free mac hfind hmac hid hindex hgrants
  obtain ⟨hthere, hplane⟩ := registry_onRegistry_self hs fun r p => r.plug p (n.budgetOf key) name id mac
  rw [hplugged] at hthere hplane
  have hup : (n.plug key name id mac).1 = .ok i.isUp := congrArg Prod.fst hplugged
  let plug := Registry.fresh n.plane i realMac mac id record
  let n' := (n.plug key name id mac).2
  have haudited' : n'.Audited 0 := by
    obtain ⟨hkey, -⟩ := Array.getElem?_eq_some_iff.1 hs
    exact haudited.trade (n.trades_plug hkey name id mac)
  have hmem : plug ∈ (n'.registry key).plugs := by
    have hregistry : n'.registry key = ⟨(n.registry key).plugs ++ [plug], _⟩ := registry_eq hthere
    rw [hregistry]
    exact List.mem_append_right _ (List.mem_singleton_self plug)
  have hlines : n'.plane.lines = n.plane.lines.push {} := congrArg Backplane.lines hplane
  have honly' : n'.previous? key = none := by
    have hprevious : n'.splices[key]?.bind Splice.previous = s.previous := congrArg (·.bind Splice.previous) hthere
    rw [previous?, hs] at honly
    rw [previous?, hprevious]
    exact honly
  have hnone : n'.plane.waiting plug = [] := by
    show (n'.plane.lines.getD n.plane.lines.size {}).queue.frames = []
    rw [hlines, Array.getD_eq_getD_getElem?, Array.getElem?_push_size]
    rfl
  refine ⟨plug, n', Prod.ext hup rfl, rfl, rfl, rfl, rfl, haudited', ⟨⟨?_, ?_⟩, ?_⟩, rfl⟩
  · obtain ⟨past, rest, hsettled⟩ := haudited'
    exact ⟨hsettled.plugged hmem, (hsettled.registry_sound key).byId? hmem, hslot, honly'⟩
  · rw [bytesWaiting, hnone]
    rfl
  · rw [hnone]
    exact fun f hf => absurd hf List.not_mem_nil

namespace Simulation

/-! ## The host -/

/-- Its only interface. -/
def port (o : Options) : Interface where
  index := 1
  name := o.interface
  mtu := 1500
  flags := interfaceFlags
  addresses := [some hostMac]

theorem host_audited (o : Options) (s : Settings) : (host o s).2.2.Audited 0 := by
  obtain ⟨past, hs⟩ := Scene.settled_run none
    [{ act := .host (.addInterface o.interface (some hostMac) 1500 interfaceFlags) },
      { act := .block (.addBudget s.ceiling s.tracking) }, { act := .splice (.start 0) }]
  exact Network.Settled.audited hs

/-! ## Frames of the peer -/

variable {o : Options} {s : Settings} {plug : Plug} {e : Echo} {n : Network} {injected : Nat}
  {stack : List (List UInt8)}

theorem length_frameFor (own : Mac) (payload sequence : Nat) :
    (frameFor own payload sequence).length = headerBytes + payload := by
  simp only [frameFor, List.length_append, own.length_octets, peerMac.length_octets, List.length_map,
    List.length_range, List.length_cons, List.length_nil, headerBytes]

theorem take_frameFor (own : Mac) (payload sequence : Nat) : (frameFor own payload sequence).take 6 = own.octets := by
  rw [frameFor, List.append_assoc, List.append_assoc]
  exact List.take_left' own.length_octets

theorem drop_frameFor (own : Mac) (payload sequence : Nat) :
    ((frameFor own payload sequence).drop 6).take 6 = peerMac.octets := by
  rw [frameFor, List.append_assoc, List.append_assoc, List.drop_left' own.length_octets]
  exact List.take_left' peerMac.length_octets

/-- A frame goes to the consumer. -/
theorem isFor_frameFor (own : Mac) (payload sequence : Nat) : IsFor own (frameFor own payload sequence) := by
  refine ⟨?_, .inl (take_frameFor own payload sequence)⟩
  rw [length_frameFor, headerBytes]
  omega

/-- A plug as the consumer makes it. -/
structure IsEchoPlug (o : Options) (plug : Plug) : Prop where
  id : plug.id = Echo.plugId
  index : plug.index = 1
  realMac : plug.realMac = hostMac
  virtualMac : plug.virtualMac = o.mac

/-- Its answer goes out, and to the peer. -/
theorem outgoing_frameFor (hplug : IsEchoPlug o plug) (hfits : headerBytes + o.payload ≤ largestSegment) (own : Mac)
    (sequence : Nat) : Echo.Outgoing own plug (frameFor o.mac o.payload sequence) := by
  have hlength := length_frameFor o.mac o.payload sequence
  refine Echo.outgoing_of_source own ?_ (hlength ▸ hfits) ?_ ?_
  · rw [hlength, Echo.addressBytes, headerBytes]
    omega
  · rw [drop_frameFor, hplug.realMac]
    decide
  · rw [drop_frameFor]
    decide

theorem isForPeer_deliveryOf (own : Mac) (payload sequence : Nat) :
    isForPeer (Echo.deliveryOf own plug (frameFor o.mac payload sequence)) = true := by
  have haddressed : Echo.addressBytes ≤ (frameFor o.mac payload sequence).length := by
    rw [length_frameFor, Echo.addressBytes, headerBytes]
    omega
  rw [isForPeer, beq_iff_eq]
  exact (Echo.take_answer own haddressed).trans (drop_frameFor o.mac payload sequence)

/-! ## While the run loop goes on -/

/-- So many frames were sent, and those that wait are the ones not answered. The answers went to the peer. -/
structure Serving (o : Options) (plug : Plug) (e : Echo) (n : Network) (injected : Nat)
    (stack : List (List UInt8)) : Prop where
  mac : e.mac = o.mac
  target : e.target = o.frames
  audited : n.Audited 0
  received : Received e.splice plug n stack
  framed : ∀ frame ∈ stack, ∃ sequence, frame = frameFor o.mac o.payload sequence
  counted : e.answered + stack.length = injected
  bounded : injected ≤ o.frames
  wire : n.wire.size = e.answered
  peer : n.wire.all isForPeer = true

theorem wire_inject (n : Network) (index : Nat) (bytes : List UInt8) (cap : Nat) :
    (n.inject index bytes cap).wire = n.wire := by
  unfold Network.inject
  cases hmade : Frame.ofBytes n.memory bytes cap (some index) with
  | mk f? m =>
    rw [Network.onMemory_eq hmade]
    cases f? with
    | none => rfl
    | some f => exact ((n.setMemory m).arrivals_receive index (.last f)).1

/-- The next frame is sent. -/
theorem Serving.send (h : Serving o plug e n injected stack) (hplug : IsEchoPlug o plug) (hmore : injected < o.frames)
    (hroom : HasRoom n.memory (n.budgetOf e.splice) o.mac (frameFor o.mac o.payload injected) largestSegment) :
    Serving o plug e (n.inject plug.index (frameFor o.mac o.payload injected) largestSegment) (injected + 1)
      (frameFor o.mac o.payload injected :: stack) := by
  have hwire := wire_inject n plug.index (frameFor o.mac o.payload injected) largestSegment
  have hcame := h.received.arrive (hplug.virtualMac ▸ hroom)
  rw [hplug.virtualMac, Inbox.Stack.push, if_pos (isFor_frameFor o.mac o.payload injected)] at hcame
  refine ⟨h.mac, h.target, h.audited.trade (n.trades_inject plug.index _ largestSegment), hcame, ?_, ?_, hmore,
    hwire ▸ h.wire, hwire ▸ h.peer⟩
  · intro frame hframe
    rcases List.mem_cons.1 hframe with rfl | hframe
    · exact ⟨injected, rfl⟩
    · exact h.framed frame hframe
  · rw [List.length_cons, ← h.counted, Nat.add_assoc]

/-- All that waits is answered. -/
theorem Serving.iterate (h : Serving o plug e n injected stack) (hplug : IsEchoPlug o plug)
    (hfits : headerBytes + o.payload ≤ largestSegment)
    (hafford : e.Affords (n.takeAll e.splice Echo.plugId).2 (n.bytesWaiting plug)) :
    ∃ n', e.iterate n =
        (!stack.isEmpty && decide (e.target ≤ injected), { e with answered := injected }, n') ∧
      Serving o plug { e with answered := injected } n' injected [] := by
  have hout : ∀ frame ∈ stack, Echo.Outgoing e.mac plug frame := by
    intro frame hframe
    obtain ⟨sequence, rfl⟩ := h.framed frame hframe
    exact outgoing_frameFor hplug hfits e.mac sequence
  have htaken := h.audited.trade (n.trades_takeAll e.splice Echo.plugId)
  rw [h.received.shown] at hafford
  obtain ⟨n', hiterate, hwire, hleft⟩ :=
    Echo.iterate_outgoing h.received hplug.id htaken.keyed (Echo.flatMap_pieces hout) hout hafford
  rw [h.counted] at hiterate
  refine ⟨n', hiterate, h.mac, h.target, ?_, hleft, fun _ hframe => absurd hframe List.not_mem_nil, Nat.add_zero _,
    h.bounded, ?_, ?_⟩
  · have htraded := h.audited.trade (e.trades_iterate n)
    rwa [hiterate] at htraded
  · rw [hwire, Array.size_append, h.wire, List.size_toArray, List.length_map]
    exact h.counted
  · rw [hwire, Array.all_append, h.peer, Bool.true_and, List.all_toArray, List.all_map, List.all_eq_true]
    intro frame hframe
    obtain ⟨sequence, rfl⟩ := h.framed frame hframe
    exact isForPeer_deliveryOf e.mac o.payload sequence

/-- The consumer plugs the interface if its record is granted. -/
theorem plug_host (o : Options) (s : Settings)
    (hgrants : (host o s).2.2.memory.Grants ((host o s).2.2.budgetOf 0) Registry.recordNote Registry.recordSize) :
    ∃ plug n', (host o s).2.2.plug 0 o.interface Echo.plugId o.mac = (.ok (port o).isUp, n') ∧ IsEchoPlug o plug ∧
      Serving o plug { splice := 0, mac := o.mac, target := o.frames } n' 0 [] := by
  have hfind : (host o s).2.2.plane.table.find? o.interface = some (port o) :=
    List.find?_cons_of_pos (Table.sameName_iff.2 rfl)
  obtain ⟨plug, n', hplugged, hid, hindex, hreal, hvirtual, haudited, hreceived, hwire⟩ :=
    Network.received_plug o.mac (host_audited o s) rfl rfl rfl hfind rfl rfl rfl hgrants
  refine ⟨plug, n', hplugged, ⟨hid, hindex, hreal, hvirtual⟩, rfl, rfl, haudited, hreceived, ?_, rfl, Nat.zero_le _,
    ?_, ?_⟩
  · exact fun frame hframe => absurd hframe List.not_mem_nil
  · rw [hwire]
    rfl
  · rw [hwire]
    exact Array.all_empty

end Simulation

end Patchbay
