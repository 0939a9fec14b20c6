import Patchbay.Network.Lifetime
import Patchbay.Network.Traffic
import Patchbay.Proofs.Estate.Backplane

/-!
# `Proofs.Estate.Network` — the host holds the plugs of its splices

Of what is lent, a network holds the plugs in the registries of its splices and, through the backplane, what goes
with them. Neither the hook slot nor the logs hold anything. A chain that is offered to the hooks is kept by a
splice, given back or handed on; in no case does any of it get lost.

## Contents
* `Network.Settled` — the backplane is settled with an estate and the plugs of the splices;
* `Network.trades_plane`, `Network.trades_setMemory`, `Network.trades_lend`, `Network.trades_ofPlug`,
  `Network.trades_onRegistry` — what holds of a part holds of the whole;
* `Network.Settled.exchange` — another bookkeeping, if the budgets come to be as it says;
* `Network.trades_intercept`, `Network.trades_offerInput` and its kin — the way through the hooks;
* `Network.trades_receive`, `Network.trades_transmit`, `Network.trades_inject`, `Network.trades_send` — traffic.
-/

namespace Patchbay

namespace Network

/-- The backplane is settled with an estate and the plugs of the splices, whose registries are sound. -/
structure Settled (k : Memory.Bookkeeping) (n : Network) (h : History) (e : Estate) : Prop where
  plane : n.plane.Settled k h (e + estate n.splices.toList)
  sound : ∀ s ∈ n.splices.toList, s.registry.Sound

variable {k : Memory.Bookkeeping} {n n' : Network} {a b : Estate} {key : Nat}

/-! ## Parts of a network -/

/-- What the backplane trades, the host trades. -/
theorem trades_plane {p : Backplane} (hp : Trades (Backplane.Settled k) n.plane a p b) :
    Trades (Settled k) n a { n with plane := p } b := by
  intro past rest hs
  have hplane := hs.plane
  rw [add_assoc] at hplane
  obtain ⟨past', hle, hp'⟩ := hp past _ hplane
  rw [← add_assoc] at hp'
  exact ⟨past', hle, hp', hs.sound⟩

/-- So it is with what memory trades, where no plug is part of it. -/
theorem trades_setMemory {m : Memory} (hm : Trades (Memory.Settled k) n.memory a m b)
    (ha : a.plugs = 0) (hb : b.plugs = 0) : Trades (Settled k) n a (n.setMemory m) b :=
  trades_plane (Backplane.trades_memory hm (ha.trans hb.symm))

/-- What a caller has stays with it while the memory hands out more. -/
theorem trades_lend {m : Memory} (hm : Trades (Memory.Settled k) n.memory a m (a + b))
    (hb : b.plugs = 0) : Trades (Settled k) n a (n.setMemory m) (a + b) := by
  refine trades_plane (Backplane.trades_memory hm ?_)
  rw [Estate.plugs_add, hb, add_zero]

theorem onMemory_eq {α : Type} {answer : α} {m : Memory} {f : Memory → α × Memory}
    (h : f n.memory = (answer, m)) : n.onMemory f = (answer, n.setMemory m) := by
  unfold onMemory
  rw [h]

/-- An operation on the memory trades on the host what it trades there. -/
theorem trades_onMemory {α : Type} {f : Memory → α × Memory} {b : α → Estate} (n : Network)
    (hf : Trades (Memory.Settled k) n.memory a (f n.memory).2 (b (f n.memory).1)) (ha : a.plugs = 0)
    (hb : ∀ x, (b x).plugs = 0) : Trades (Settled k) n a (n.onMemory f).2 (b (n.onMemory f).1) :=
  trades_setMemory hf ha (hb _)

/-- What is said of the budgets can be exchanged for something that holds of the memory that comes next. -/
theorem Settled.exchange {k' : Memory.Bookkeeping} {m : Memory} {h : History} {e : Estate}
    (hs : n.Settled k h e) (hpool : m.pool = n.memory.pool) (hreferences : m.references = n.memory.references)
    (himp : ∀ out back, k n.memory out back → k' m out back) : (n.setMemory m).Settled k' h e where
  plane :=
    { memory := hs.plane.memory.of_budgets hpool hreferences rfl rfl rfl (himp _ _ hs.plane.memory.budgets)
      lined := hs.plane.lined
      alone := hs.plane.alone
      held := hs.plane.held
      idle := hs.plane.idle }
  sound := hs.sound

/-- Neither the slot nor the logs hold anything. -/
theorem trades_same (hplane : n'.plane = n.plane) (hsplices : n'.splices = n.splices) :
    Trades (Settled k) n a n' a := by
  intro past rest hs
  refine ⟨past, le_refl past, ?_, ?_⟩
  · rw [hplane, hsplices]
    exact hs.plane
  · rw [hsplices]
    exact hs.sound

/-- The links, the handles and what a splice remembers hold nothing. -/
theorem trades_modifySplice (n : Network) (key : Nat) {f : Splice → Splice}
    (hf : ∀ s, (f s).registry = s.registry) : Trades (Settled k) n a (n.modifySplice key f) a := by
  intro past rest hs
  have hestate (s : Splice) : estate (f s) = estate s := by
    show estate (f s).registry = estate s.registry
    rw [hf]
  -- a splice that was never made is not there to be changed
  cases hget : n.splices.toList[key]? with
  | none =>
    have hsame : (n.modifySplice key f).splices = n.splices := by
      rw [← Array.toList_inj, modifySplice, Array.toList_modify,
        List.modify_eq_self (List.getElem?_eq_none_iff.1 hget)]
    have hsettled : Trades (Settled k) n a (n.modifySplice key f) a := trades_same rfl hsame
    exact hsettled past rest hs
  | some s =>
    refine ⟨past, le_refl past, ?_, ?_⟩
    · show n.plane.Settled k past (a + rest + estate (n.splices.modify key f).toList)
      rw [Array.toList_modify, estate_modify hget, hestate, ← estate_eq_add_eraseIdx hget]
      exact hs.plane
    · intro t ht
      rw [modifySplice, Array.toList_modify] at ht
      obtain ⟨i, hi⟩ := List.mem_iff_getElem?.1 ht
      rw [List.getElem?_modify] at hi
      obtain ⟨u, hu, rfl⟩ := Option.map_eq_some_iff.1 hi
      have hsound := hs.sound u (List.mem_of_getElem? hu)
      split
      · rw [hf]
        exact hsound
      · exact hsound

/-- A registry is that of a splice, or there is none and nothing is listed. -/
theorem registry_eq_or (n : Network) (key : Nat) :
    (∃ s, n.splices.toList[key]? = some s ∧ n.registry key = s.registry) ∨
      (n.splices[key]? = none ∧ n.registry key = {}) := by
  cases hget : n.splices[key]? with
  | none => exact .inr ⟨rfl, by rw [registry, hget]; rfl⟩
  | some s => exact .inl ⟨s, by rw [Array.getElem?_toList, hget], by rw [registry, hget]; rfl⟩

/-- On a settled host all registries are sound. -/
theorem Settled.registry_sound {h : History} {e : Estate} (hs : n.Settled k h e) (key : Nat) :
    (n.registry key).Sound := by
  rcases n.registry_eq_or key with ⟨s, hget, hreg⟩ | ⟨-, hreg⟩
  · rw [hreg]
    exact hs.sound s (List.mem_of_getElem? hget)
  · rw [hreg]
    exact Registry.Sound.empty

/-- A plug in a registry is held by its splice. -/
theorem exists_estate_eq {plug : Plug} (hplug : plug ∈ (n.registry key).plugs) :
    ∃ others, estate n.splices.toList = estate plug + others := by
  rcases n.registry_eq_or key with ⟨s, hget, hreg⟩ | ⟨-, hreg⟩
  · rw [hreg] at hplug
    -- the other plugs of this splice, and the other splices
    obtain ⟨i, hi⟩ := List.mem_iff_getElem?.1 hplug
    refine ⟨estate (s.registry.plugs.eraseIdx i) + estate (n.splices.toList.eraseIdx key), ?_⟩
    rw [estate_eq_add_eraseIdx hget, ← add_assoc, ← estate_eq_add_eraseIdx hi]
    rfl
  · rw [hreg] at hplug
    exact absurd hplug List.not_mem_nil

/-- A splice may use any of its plugs. -/
theorem trades_ofPlug {plug : Plug} {p : Backplane} (hplug : plug ∈ (n.registry key).plugs)
    (hp : Trades (Backplane.Settled k) n.plane (estate plug + a) p (estate plug + b)) :
    Trades (Settled k) n a { n with plane := p } b := by
  intro past rest hs
  obtain ⟨others, hothers⟩ := exists_estate_eq hplug
  have hplane := hs.plane
  rw [hothers] at hplane
  obtain ⟨past', hle, hp'⟩ := hp past (rest + others) (by
    convert hplane using 1
    abel)
  refine ⟨past', hle, ?_, hs.sound⟩
  rw [hothers]
  convert hp' using 1
  abel

/-- A splice that does not exist has no registry that could hold anything. -/
theorem trades_onRegistry {α : Type} {f : Registry → Backplane → α × Registry × Backplane}
    (n : Network) (key : Nat)
    (hf : ∀ r p, Trades (Backplane.Settled k) p (estate r) (f r p).2.2 (estate (f r p).2.1))
    (hsound : ∀ r p, r.Sound → (f r p).2.1.Sound)
    (hnone : n.splices[key]? = none → ∀ p, estate (f {} p).2.1 = 0) :
    Trades (Settled k) n 0 (n.onRegistry key f).2 0 := by
  intro past rest hs
  rw [zero_add] at hs ⊢
  have hf' := hf (n.registry key) n.plane
  have hsound' := hsound _ n.plane (hs.registry_sound key)
  unfold onRegistry
  -- the registry of a splice that is there is its own; that of any other is empty
  rcases n.registry_eq_or key with ⟨s, hget, hreg⟩ | ⟨hget, hreg⟩
  · rw [hreg] at hf' hsound' ⊢
    have hplane := hs.plane
    rw [estate_eq_add_eraseIdx hget] at hplane
    obtain ⟨past', hle, hp⟩ := hf' past (rest + estate (n.splices.toList.eraseIdx key)) (by
      convert hplane using 1
      show estate s.registry + _ = rest + (estate s.registry + _)
      abel)
    refine ⟨past', hle, ?_, ?_⟩
    · show Backplane.Settled k (f s.registry n.plane).2.2 past'
        (rest + estate (n.splices.modify key _).toList)
      rw [Array.toList_modify, estate_modify hget]
      convert hp using 1
      show rest + (estate (f s.registry n.plane).2.1 + _) = _
      abel
    · intro t ht
      change t ∈ (n.splices.modify key _).toList at ht
      rw [Array.toList_modify] at ht
      obtain ⟨i, hi⟩ := List.mem_iff_getElem?.1 ht
      rw [List.getElem?_modify] at hi
      obtain ⟨u, hu, rfl⟩ := Option.map_eq_some_iff.1 hi
      split
      · exact hsound'
      · exact hs.sound u (List.mem_of_getElem? hu)
  · rw [hreg] at hf' ⊢
    rw [show estate ({} : Registry) = 0 from rfl] at hf'
    obtain ⟨past', hle, hp⟩ := hf' past (rest + estate n.splices.toList) (by
      rw [zero_add]
      exact hs.plane)
    -- what comes out is written nowhere, so it must hold nothing
    rw [hnone hget, zero_add] at hp
    have hsame : n.splices.modify key (fun s => { s with registry := (f {} n.plane).2.1 }) =
        n.splices := by
      rw [← Array.toList_inj, Array.toList_modify, List.modify_eq_self]
      simpa using hget
    refine ⟨past', hle, ?_, ?_⟩
    · show Backplane.Settled k (f {} n.plane).2.2 past' (rest + estate (n.splices.modify key _).toList)
      rw [hsame]
      exact hp
    · show ∀ t ∈ (n.splices.modify key _).toList, _
      rw [hsame]
      exact hs.sound

/-! ## Through the hooks -/

theorem trades_note (n : Network) (call : HookCall) : Trades (Settled k) n a (n.note call) a :=
  trades_same rfl rfl

/-- To tell hooks of an interface costs nothing. -/
theorem trades_announce (n : Network) (call : String → HookCall) (hooks : List Hook) :
    Trades (Settled k) n 0 (n.announce call hooks) 0 := by
  induction hooks with
  | nil => exact .refl n 0
  | cons hook rest ih =>
    cases hook with
    | foreign h => exact trades_note n _
    | splice key => exact ih

variable [Memory.Tally k]

theorem trades_releaseChain (n : Network) (c : Chain) :
    Trades (Settled k) n (estate c) (n.releaseChain c) 0 :=
  trades_setMemory (n.memory.trades_releaseChain c) (plugs_eq_zero c) rfl

/-- A queue that refuses a copy gives it back, and the frame stays with the caller in any case. -/
theorem operates_queueCopy (budget : Nat) (f : Frame) :
    Queue.Operates k (estate f) (fun q m =>
      match f.copy m with
      | (none, m) => ((), q.countDrop, m)
      | (some copy, m) => ((), (q.push m budget (.last copy)).2)) fun _ => estate f := by
  intro q m
  have hcopy := (Frame.trades_copy (k := k) m f).frame (estate q)
  -- a copy that cannot be made is counted and nothing else
  cases hf : f.copy m with
  | mk copy? m₁ =>
    rw [hf] at hcopy
    cases copy? with
    | none =>
      simp only [hf]
      refine hcopy.cast (add_comm _ _) ?_
      show estate q + _ = _
      rw [estate_none, add_zero, add_comm]
    | some copy =>
      simp only [hf]
      have hpush := (Queue.operates_push (k := k) budget (.last copy) q m₁).frame (estate f)
      refine (hcopy.cast (add_comm _ _) ?_).trans (hpush.cast rfl ?_)
      · rw [estate_some, estate_chain, Chain.frames, estate_cons, estate_nil]
        abel
      · rw [add_zero]

theorem byIndex?_mem {r : Registry} {index : Nat} {plug : Plug} (h : r.byIndex? index = some plug) :
    plug ∈ r.plugs :=
  List.mem_of_find?_eq_some h

theorem byId?_mem {r : Registry} {id : Nat} {plug : Plug} (h : r.byId? id = some plug) :
    plug ∈ r.plugs :=
  List.mem_of_find?_eq_some h

/-- A splice keeps a chain or hands it on; a copy that it queues is its own. -/
theorem trades_intercept (n : Network) (key index : Nat) (c : Chain) :
    Trades (Settled k) n (estate c) (n.intercept key index c).2 (estate (n.intercept key index c).1) := by
  unfold intercept
  dsimp only
  split
  · exact .refl n _
  split
  · exact .refl n _
  · -- the splice has this interface; the verdict on the first frame tells what becomes of the chain
    rename_i plug hplug
    have hmem := byIndex?_mem hplug
    split
    · exact .refl n _
    split
    · exact .refl n _
    · exact trades_ofPlug hmem (n.plane.trades_onQueue plug (Queue.operates_push _ c)
        (plugs_eq_zero c) fun _ => rfl)
    · refine ((trades_ofPlug hmem (n.plane.trades_onQueue plug (operates_queueCopy _ c.head)
        (plugs_eq_zero c.head) fun _ => plugs_eq_zero c.head)).frame (estate c.rest?)).cast ?_ ?_
      · exact c.estate_eq
      · exact c.estate_eq

/-- What hooks let on of a packet comes back, and what they keep is theirs. -/
theorem trades_offerInput (n : Network) (index : Nat) (c : Chain) (hooks : List Hook) :
    Trades (Settled k) n (estate c) (n.offerInput index c hooks).2
      (estate (n.offerInput index c hooks).1) := by
  -- on the hooks: what one hands on is offered to the next, what it does not is kept or given up
  induction hooks generalizing n c with
  | nil => exact .refl n _
  | cons hook rest ih =>
    cases hook with
    | foreign h =>
      unfold offerInput
      dsimp only
      split
      · exact trades_note n _
      · exact (trades_note n _).trans (trades_releaseChain _ c)
    | splice key =>
      have hstep := n.trades_intercept (k := k) key index c
      unfold offerInput
      cases hi : n.intercept key index c with
      | mk chain? n₁ =>
        rw [hi] at hstep
        cases chain? with
        | none => exact hstep
        | some c => exact hstep.trans (ih n₁ c)

/-- So it is on the way out; of a failure nothing comes back. -/
theorem trades_offerOutput (n : Network) (index : Nat) (c : Chain) (hooks : List Hook) :
    Trades (Settled k) n (estate c) (n.offerOutput index c hooks).2
      (estate (n.offerOutput index c hooks).1) := by
  induction hooks generalizing n c with
  | nil => exact .refl n _
  | cons hook rest ih =>
    cases hook with
    | foreign h =>
      unfold offerOutput
      dsimp only
      split
      · exact (trades_note n _).trans (trades_releaseChain _ c)
      · exact trades_note n _
      · exact (trades_note n _).trans (trades_releaseChain _ c)
    | splice key =>
      have hstep := n.trades_intercept (k := k) key index c
      unfold offerOutput
      cases hi : n.intercept key index c with
      | mk chain? n₁ =>
        rw [hi] at hstep
        cases chain? with
        | none => exact hstep
        | some c => exact hstep.trans (ih n₁ c)

/-- What belongs to nobody goes. -/
theorem trades_offerOrphan (n : Network) (index : Nat) (c : Chain) (hooks : List Hook) :
    Trades (Settled k) n (estate c) (n.offerOrphan index c hooks) 0 := by
  -- splices let it pass, and it ends at the first other hook
  induction hooks with
  | nil => exact trades_releaseChain n c
  | cons hook rest ih =>
    cases hook with
    | foreign h => exact (trades_note n _).trans (trades_releaseChain _ c)
    | splice key => exact ih

/-! ## Traffic -/

/-- What reaches the stack goes. -/
theorem trades_reachStack (n : Network) (index : Nat) (c : Chain) :
    Trades (Settled k) n (estate c) (n.reachStack index c) 0 := by
  refine .trans ?_ (trades_releaseChain { n with stack := n.stack ++ (Delivery.ofChain index c).toArray } c)
  exact trades_same rfl rfl

/-- So does what reaches the wire. -/
theorem trades_transmit (n : Network) (index : Nat) (c : Chain) :
    Trades (Settled k) n (estate c) (n.transmit index c) 0 := by
  refine .trans ?_ (trades_releaseChain { n with wire := n.wire ++ (Delivery.ofChain index c).toArray } c)
  exact trades_same rfl rfl

/-- The mark on the first frame holds nothing. -/
theorem estate_setHead (c : Chain) (receivedOn : Option Nat) :
    estate (c.setHead { c.head with receivedOn := receivedOn }) = estate c := by
  cases c <;> rfl

/-- A packet that is received is kept by a splice, or it goes. -/
theorem trades_receive (n : Network) (index : Nat) (c : Chain) :
    Trades (Settled k) n (estate c) (n.receive index c) 0 := by
  have hoffer := n.trades_offerInput (k := k) index (c.setHead { c.head with receivedOn := some index }) n.path
  rw [estate_setHead] at hoffer
  unfold receive
  dsimp only
  cases ho : n.offerInput index (c.setHead { c.head with receivedOn := some index }) n.path with
  | mk chain? n₁ =>
    rw [ho] at hoffer
    cases chain? with
    | none => exact hoffer
    | some c => exact hoffer.trans (n₁.trades_reachStack index c)

/-- Bytes from the wire are lent what they need as a frame, which goes its way. -/
theorem trades_inject (n : Network) (index : Nat) (bytes : List UInt8) (cap : Nat) :
    Trades (Settled k) n 0 (n.inject index bytes cap) 0 := by
  have hmake := n.trades_onMemory (f := fun m => Frame.ofBytes m bytes cap (some index))
    (Frame.trades_ofBytes (k := k) n.memory bytes cap (some index)) rfl plugs_eq_zero
  unfold inject
  cases hf : n.onMemory fun m => Frame.ofBytes m bytes cap (some index) with
  | mk frame? n₁ =>
    rw [hf] at hmake
    cases frame? with
    | none => exact hmake
    | some f => exact hmake.trans ((n₁.trades_receive index (.last f)).cast (add_zero _).symm rfl)

/-- So are bytes from the stack. -/
theorem trades_send (n : Network) (index : Nat) (bytes : List UInt8) :
    Trades (Settled k) n 0 (n.send index bytes).2 0 := by
  have hmake := n.trades_onMemory
    (f := fun m => Frame.ofBytes m bytes Frame.largestSegment none)
    (Frame.trades_ofBytes (k := k) n.memory bytes Frame.largestSegment none) rfl plugs_eq_zero
  unfold send
  cases hf : n.onMemory fun m => Frame.ofBytes m bytes Frame.largestSegment none with
  | mk frame? n₁ =>
    rw [hf] at hmake
    cases frame? with
    | none => exact hmake
    | some f =>
      have hoffer := (n₁.trades_offerOutput (k := k) index (.last f) n₁.path).cast (add_zero _).symm rfl
      dsimp only
      cases ho : n₁.offerOutput index (.last f) n₁.path with
      | mk answer n₂ =>
        rw [ho] at hoffer
        have hboth := hmake.trans hoffer
        cases answer with
        | error code => exact hboth
        | ok chain? =>
          cases chain? with
          | none => exact hboth
          | some c => exact hboth.trans (n₂.trades_transmit index c)

end Network

end Patchbay
