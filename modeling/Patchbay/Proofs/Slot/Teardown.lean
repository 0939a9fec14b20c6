import Patchbay.Proofs.Slot.Moves

/-!
# `Proofs.Slot.Teardown` — what is left when splices are torn down

A splice that is torn down puts back what it displaced, whatever stands in the slot by then. What it displaced still
leads to the base, through the same splices as before. So all is well as long as splices end before those that they
stand on; a splice that ends earlier takes those on top of it out of the slot.

## Contents
* `Network.Grounded`, `Network.Rests` — ways to the base, and what stands at the bottom of all of them;
* `Network.Alone`, `Network.Affords`, `Network.Serves` — frames for a splice are queued;
* `Listed.serves` — so they are wherever it stands in the slot;
* `Scene.run_nested` — a splice serves as long as none that it stands on ends, and puts back what it displaced;
* `Scene.not_served_older_first` — in another order it does neither.
-/

namespace Patchbay

namespace Network

variable {n n' : Network} {base : Option HookSet} {hook : Option Hook} {key least : Nat} {keys bottom : List Nat}
  {starts : Bool}

/-! ## Ways to the base -/

/-- A hook leads to the base through splices that are there. -/
structure Grounded (n : Network) (base : Option HookSet) (hook : Option Hook) (keys : List Nat) : Prop where
  leads : n.Leads base hook keys
  there : ∀ key ∈ keys, key < n.splices.size

theorem Grounded.endures (h : n.Grounded base hook keys) (he : n.Endures n')
    (href : ∀ key, refers hook key ≤ n'.refs key) : n'.Grounded base hook keys :=
  ⟨h.leads.endures he h.there href, fun key hkey => (h.there key hkey).trans_le he.size⟩

theorem Grounded.path_eq (h : n.Grounded base n.slot keys) : n.path = hooksOver keys base :=
  h.leads.path_eq h.there

/-- A splice that is started leads on to what led to the slot. -/
theorem Grounded.start (h : n.Grounded base n.slot keys) (he : n.Endures n')
    (hsize : n'.splices.size = n.splices.size + 1) (hslot : n'.slot = some (.splice n.splices.size))
    (hremembers : n'.previous? n.splices.size = n.slot) :
    n'.Grounded base n.slot keys ∧ n'.Grounded base n'.slot (n.splices.size :: keys) := by
  have hrest : n'.Grounded base n.slot keys := h.endures he fun other => by
    rw [← hremembers]
    exact n'.refers_previous?_le _ other
  refine ⟨hrest, ?_, ?_⟩
  · rw [hslot]
    refine .splice h.there ?_
    rw [hremembers]
    exact hrest.leads
  · rw [List.forall_mem_cons, hsize]
    exact ⟨Nat.lt_succ_self _, fun other hother => Nat.lt_succ_of_lt (h.there other hother)⟩

theorem IsActive.lt (h : n.IsActive key) : key < n.splices.size := by
  obtain ⟨s, hs, -⟩ := h
  exact (Array.getElem?_eq_some_iff.1 hs).1

/-- What an active splice remembers, it remembers as long as it is active, and it leads to the base as before. -/
theorem Grounded.remembered (h : n.Grounded base (n.previous? key) keys) (he : n.Endures n') (hkey : n.IsActive key)
    (hactive : n'.IsActive key) : n'.previous? key = n.previous? key ∧ n'.Grounded base (n'.previous? key) keys := by
  have hkept := he.kept key hkey.lt (.inr hactive)
  refine ⟨hkept, ?_⟩
  rw [hkept]
  exact h.endures he fun other => by
    rw [← hkept]
    exact n'.refers_previous?_le key other

/-- From the slot, and from what active splices remember that come no earlier than a given one, the way to the base
ends with the same splices. -/
structure Rests (n : Network) (base : Option HookSet) (least : Nat) (bottom : List Nat) : Prop where
  slot : ∃ keys, n.Grounded base n.slot keys ∧ bottom <:+ keys
  previous : ∀ key, least ≤ key → n.IsActive key → ∃ keys, n.Grounded base (n.previous? key) keys ∧ bottom <:+ keys

/-- An act of consumers leaves the bottom as it is, unless it ends a splice that comes earlier. -/
theorem Rests.follows (h : n.Rests base least bottom) (hf : n.Follows n' starts)
    (hends : ∀ key < least, n.IsActive key → n'.IsActive key) : n'.Rests base least bottom := by
  have hold {key : Nat} (hkey : least ≤ key) (hwas : n.IsActive key) (hactive : n'.IsActive key) :
      ∃ keys, n'.Grounded base (n'.previous? key) keys ∧ bottom <:+ keys := by
    obtain ⟨keys, hground, hbottom⟩ := h.previous key hkey hwas
    exact ⟨keys, (hground.remembered hf.endures hwas hactive).2, hbottom⟩
  have hreferred {hook : Option Hook} (hslot : n'.slot = hook) (key : Nat) : refers hook key ≤ n'.refs key := by
    rw [← hslot]
    exact n'.refers_slot_le key
  cases hf.moves with
  | stays slot active =>
    obtain ⟨keys, hground, hbottom⟩ := h.slot
    refine ⟨⟨keys, ?_, hbottom⟩, fun key hkey hactive => hold hkey ((active key).1 hactive) hactive⟩
    rw [slot]
    exact hground.endures hf.endures (hreferred slot)
  | starts size slot remembers active =>
    obtain ⟨keys, hground, hbottom⟩ := h.slot
    obtain ⟨hrest, hstart⟩ := hground.start hf.endures size slot remembers
    refine ⟨⟨_, hstart, hbottom.trans (List.suffix_cons _ keys)⟩, fun key hkey hactive => ?_⟩
    rcases (active key).1 hactive with rfl | hwas
    · rw [remembers]
      exact ⟨keys, hrest, hbottom⟩
    · exact hold hkey hwas hactive
  | ends key was slot active =>
    have hkey : least ≤ key := Nat.le_of_not_lt fun hlt => ((active key).1 (hends key hlt was)).2 rfl
    obtain ⟨keys, hground, hbottom⟩ := h.previous key hkey was
    refine ⟨⟨keys, ?_, hbottom⟩, fun other hother hactive => hold hother ((active other).1 hactive).1 hactive⟩
    rw [slot]
    exact hground.endures hf.endures (hreferred slot)

/-- A splice that is no more active has put back what it remembered, and this leads to the base as before. -/
theorem Follows.ended (h : n.Follows n' starts) (hground : n.Grounded base (n.previous? key) keys)
    (hwas : n.IsActive key) (hdone : ¬ n'.IsActive key) :
    n'.slot = n.previous? key ∧ n'.Grounded base n'.slot keys := by
  cases h.moves with
  | stays slot active => exact absurd ((active key).2 hwas) hdone
  | starts size slot remembers active => exact absurd ((active key).2 (.inr hwas)) hdone
  | ends other was slot active =>
    obtain rfl : key = other := Decidable.not_not.1 fun hne => hdone ((active key).2 ⟨hwas, hne⟩)
    refine ⟨slot, ?_⟩
    rw [slot]
    exact hground.endures h.endures fun k => by
      rw [← slot]
      exact n'.refers_slot_le k

/-- Without splices there is but the base. -/
theorem Grounded.slot_eq (h : n.Grounded base n.slot keys) (hnone : n.splices.size = 0) :
    n.slot = base.map .foreign := by
  obtain ⟨hleads, hthere⟩ := h
  generalize n.slot = hook at hleads
  cases hleads with
  | base => rfl
  | splice => exact absurd (hthere _ List.mem_cons_self) (hnone ▸ Nat.not_lt_zero _)

/-! ## Who is served -/

/-- No other splice that a frame can meet has the interface of a plug under its address, unless this is everybody's. -/
def Alone (n : Network) (key : Nat) (plug : Plug) : Prop :=
  plug.virtualMac ≠ Mac.broadcast → ∀ other ∈ n.path.filterMap Hook.spliceKey?, other ≠ key →
    ∀ p ∈ (n.registry other).byIndex? plug.index, p.virtualMac ≠ plug.virtualMac

instance (n : Network) (key : Nat) (plug : Plug) : Decidable (n.Alone key plug) :=
  inferInstanceAs (Decidable (_ → _))

/-- Bytes that come in are a frame for the address of a plug, and memory refuses nothing: neither the frame nor what
splices ask for because of it. -/
def Affords (n : Network) (keys : List Nat) (plug : Plug) (bytes : List UInt8) (cap : Nat) : Prop :=
  ∃ f ∈ (Frame.ofBytes n.memory bytes cap (some plug.index)).1, f.destination? = some plug.virtualMac ∧
    (n.setMemory (Frame.ofBytes n.memory bytes cap (some plug.index)).2).Welcomes plug.index f keys

instance (n : Network) (keys : List Nat) (plug : Plug) (bytes : List UInt8) (cap : Nat) :
    Decidable (n.Affords keys plug bytes cap) :=
  inferInstanceAs (Decidable (∃ f ∈ (Frame.ofBytes n.memory bytes cap (some plug.index)).1, _))

/-- A frame that comes in on an interface that a splice has plugged, for the address under which it is plugged, is
queued for the consumer, if no other splice is in its way and memory refuses nothing. -/
def Serves (n : Network) (key : Nat) : Prop :=
  ∀ plug ∈ (n.registry key).plugs, n.Alone key plug →
    ∀ bytes cap, n.Affords (n.path.filterMap Hook.spliceKey?) plug bytes cap →
      (n.inject plug.index bytes cap).bytesWaiting plug = bytes :: n.bytesWaiting plug

theorem filterMap_hooksOver (keys : List Nat) (base : Option HookSet) :
    (hooksOver keys base).filterMap Hook.spliceKey? = keys := by
  have hsplices : (keys.map Hook.splice).filterMap Hook.spliceKey? = keys := by
    rw [List.filterMap_map]
    exact List.filterMap_some
  have hbase : (base.map Hook.foreign).toList.filterMap Hook.spliceKey? = [] := by cases base <;> rfl
  rw [hooksOver, List.filterMap_append, hsplices, hbase, List.append_nil]

/-- What is put on a line waits there, in front of what waits already. -/
theorem bytesWaiting_of_line {m : Memory} {plug : Plug} {f : Frame} {charge : Budget.Block}
    (h : n'.plane.line plug =
      { (n.setMemory m).plane.line plug with
        queue := ((n.setMemory m).plane.line plug).queue.letIn (.last f) charge }) :
    n'.bytesWaiting plug = f.bytes :: n.bytesWaiting plug := by
  rw [bytesWaiting, Backplane.waiting, h]
  rfl

/-- Whoever stands in the slot is served. -/
theorem Listed.serves (hl : n.Listed) (ha : n.Apart) (hg : n.Grounded base n.slot keys) (hkey : key ∈ keys) :
    n.Serves key := by
  intro plug hplug halone bytes cap hafford
  rw [Alone, hg.path_eq, filterMap_hooksOver] at halone
  rw [hg.path_eq, filterMap_hooksOver] at hafford
  obtain ⟨f, hf, hown, hwelcomes⟩ := hafford
  generalize hmake : Frame.ofBytes n.memory bytes cap (some plug.index) = made at hf hwelcomes
  obtain ⟨f?, m⟩ := made
  obtain rfl : f? = some f := hf
  have hcomposes := hl.composes ha hg.leads.nodup hg.path_eq
  obtain ⟨hbytes, -, hinject⟩ := hcomposes.injected _ _ _ _ _ hmake
  have hmeets := hcomposes.meets .input m plug.index f
  have hfound : (n.registry key).byIndex? plug.index = some plug := (hl hplug).found
  rw [hinject, hg.path_eq, ← hbytes]
  by_cases hall : plug.virtualMac = Mac.broadcast
  · -- a frame for everybody is copied
    rw [hall] at hown
    obtain ⟨charge, hline⟩ := (hmeets.copied hown hwelcomes).1 key hkey plug hfound
    exact bytesWaiting_of_line hline
  · -- a frame for the consumer alone passes the newer splices and is consumed
    have hclaims : (n.setMemory m).Claims key plug.index f plug := ⟨hfound, hown, hall⟩
    obtain ⟨newer, older, rfl⟩ := List.append_of_mem hkey
    have hnewer : ∀ other ∈ newer, ∀ p, ¬ (n.setMemory m).Claims other plug.index f p := by
      intro other hother p hclaimed
      have hne : other ≠ key := by
        rintro rfl
        exact (List.disjoint_of_nodup_append hg.leads.nodup) hother List.mem_cons_self
      exact halone hall other (List.mem_append_left _ hother) hne p hclaimed.found
        (Option.some.inj (hclaimed.own.symm.trans hown))
    rw [(hmeets.consumed newer key older plug rfl hnewer hclaims).1]
    have hsingle : f.destination? ≠ some Mac.broadcast := fun heq => hall (Option.some.inj (hown.symm.trans heq))
    have hgrants := (hwelcomes.hasRoom hsingle hkey plug hfound).2 (.inr hown)
    obtain ⟨charge, hline⟩ :=
      Backplane.line_queueWhole_granted (p := (n.setMemory m).plane) (hl hplug).lined (.last f) hgrants
    exact bytesWaiting_of_line hline

/-- So is whoever stands at the bottom of all ways, and the slot leads down to it. -/
theorem Rests.stands (h : n.Rests base least (key :: keys)) (hl : n.Listed) (ha : n.Apart) :
    (.splice key :: hooksOver keys base) <:+ n.path ∧ n.Serves key := by
  obtain ⟨all, hall, newer, rfl⟩ := h.slot
  refine ⟨⟨newer.map .splice, ?_⟩, hl.serves ha hall (List.mem_append_right _ List.mem_cons_self)⟩
  rw [hall.path_eq, hooksOver, hooksOver, List.map_append, List.append_assoc]
  rfl

end Network

/-! ## Runs -/

namespace Scene

open Network (Held Endures Follows Grounded Rests)

variable {s : Scene} {base : Option HookSet} {least : Nat} {bottom : List Nat}

theorem endures_run (h : s.network.Held none) (turns : List Turn) (hturns : ∀ t ∈ turns, t.act.meddles = false) :
    (s.run turns).network.Held none ∧ s.network.Endures (s.run turns).network := by
  induction turns generalizing s with
  | nil => exact ⟨h, .refl _⟩
  | cons t rest ih =>
    rw [List.forall_mem_cons] at hturns
    have hstep := moves_step h hturns.1
    obtain ⟨hheld, hrest⟩ := ih hstep.held hturns.2
    exact ⟨hheld, hstep.endures.trans hrest⟩

/-- The bottom stays as long as no splice that comes earlier ends. -/
theorem rests_run (h : s.network.Held none) (hr : s.network.Rests base least bottom)
    (hleast : least ≤ s.network.splices.size) (turns : List Turn) (hturns : ∀ t ∈ turns, t.act.meddles = false)
    (holder : ∀ key < least, s.network.IsActive key → (s.run turns).network.IsActive key) :
    (s.run turns).network.Rests base least bottom := by
  induction turns generalizing s with
  | nil => exact hr
  | cons t rest ih =>
    rw [List.forall_mem_cons] at hturns
    have hstep := moves_step h hturns.1
    have hsize := hleast.trans hstep.endures.size
    -- who is active at the end was active all the time
    have hactive : ∀ key < least, s.network.IsActive key → (s.step t).network.IsActive key := fun key hkey hwas =>
      (endures_run hstep.held rest hturns.2).2.active key (hkey.trans_le hsize) (holder key hkey hwas)
    refine ih hstep.held (hr.follows hstep hactive) hsize hturns.2 fun key hkey hnow => ?_
    exact holder key hkey (hstep.endures.active key (hkey.trans_le hleast) hnow)

/-- With nobody left to be torn down, the slot stays as it is until a splice is started. -/
theorem slot_run (h : s.network.Held none) (hnobody : ∀ key, ¬ s.network.IsActive key) (turns : List Turn)
    (hturns : ∀ t ∈ turns, t.act.meddles = false ∧ t.act.starts = false) :
    (s.run turns).network.slot = s.network.slot := by
  induction turns generalizing s with
  | nil => rfl
  | cons t rest ih =>
    rw [List.forall_mem_cons] at hturns
    have hstep := moves_step h hturns.1.1
    rw [hturns.1.2] at hstep
    cases hstep.moves with
    | stays slot active => exact (ih hstep.held (fun key hnow => hnobody key ((active key).1 hnow)) hturns.2).trans slot
    | ends key was slot active => exact absurd was (hnobody key)

theorem held_onBase (limit : Option Nat) (base : Option HookSet) :
    (onBase limit base).network.Held none ∧ (onBase limit base).network.Rests base 0 [] := by
  obtain ⟨hslot, hnone⟩ := network_onBase limit base
  have hget (key : Nat) : (onBase limit base).network.splices[key]? = none := by
    rw [hnone]
    rfl
  have hforeign : (onBase limit base).network.slot.bind Hook.spliceKey? = none := by
    rw [hslot]
    cases base <;> rfl
  refine ⟨⟨fun key => ?_, fun key s hs => ?_⟩, ⟨[], ⟨?_, nofun⟩, List.nil_suffix⟩, ?_⟩
  · rw [Network.refs, Network.refers_eq_zero hforeign, Network.refers_none, hnone]
    exact Nat.zero_le _
  · cases (hget key).symm.trans hs
  · rw [hslot]
    exact .base
  · rintro key - ⟨s, hs, -⟩
    cases (hget key).symm.trans hs

/-- **A splice serves as long as nothing that it stands on ends, and puts back what it displaced.** Take a host with any
hooks of somebody else in its slot, or with none, any run of acts in which nobody else handles hooks, and any splice
that is started in it. As long as the splice is active, and so is every older one that was active when it was started,
it stands in the slot on what it displaced, and is served, whatever was started and torn down on top of it. When it is
torn down, in whatever order, what it displaced is put back and leads through the same splices as before; if nobody is
left, this stays in the slot. What the first splice displaces is the base. -/
theorem run_nested (limit : Option Nat) (base : Option HookSet) (first rest : List Turn) (t : Turn)
    (hstarts : t.act.starts = true) (hturns : ∀ u ∈ first ++ t :: rest, u.act.meddles = false) :
    let s := (onBase limit base).run first
    let before := s.network
    let key := before.splices.size
    let after (turns : List Turn) := ((s.step t).run turns).network
    ((after rest).IsActive key → (∀ older, before.IsActive older → (after rest).IsActive older) →
      (.splice key :: before.path) <:+ (after rest).path ∧ (after rest).Serves key) ∧
    (∀ mid u tail, rest = mid ++ u :: tail → (after mid).IsActive key → ¬ (after (mid ++ [u])).IsActive key →
      (after (mid ++ [u])).slot = before.slot ∧ (after (mid ++ [u])).path = before.path ∧
      ((∀ other, ¬ (after (mid ++ [u])).IsActive other) → (∀ v ∈ tail, v.act.starts = false) →
        (after rest).slot = before.slot)) ∧
    (key = 0 → before.slot = base.map .foreign) := by
  intro s before key after
  rw [List.forall_mem_append, List.forall_mem_cons] at hturns
  obtain ⟨hfirst, ht, hrest⟩ := hturns
  -- before the splice is started
  obtain ⟨hheld₀, hrests₀⟩ := held_onBase limit base
  have hheld : before.Held none := (endures_run hheld₀ first hfirst).1
  obtain ⟨keys, hground, -⟩ : ∃ keys, before.Grounded base before.slot keys ∧ [] <:+ keys :=
    (rests_run hheld₀ hrests₀ (Nat.zero_le _) first hfirst fun _ hlt => absurd hlt (Nat.not_lt_zero _)).slot
  -- when it was started
  have hstep : before.Follows (s.step t).network true := hstarts ▸ moves_step hheld ht
  cases hstep.moves with
  | starts size slot remembers active =>
  obtain ⟨hdisplaced, hstart⟩ := hground.start hstep.endures size slot remembers
  have hrests : (s.step t).network.Rests base (key + 1) (key :: keys) := by
    refine ⟨⟨_, hstart, List.suffix_rfl⟩, fun other hother hactive => ?_⟩
    have hlt := hactive.lt
    rw [size] at hlt
    exact absurd hlt (Nat.not_lt.2 hother)
  refine ⟨fun hkey holder => ?_, ?_, fun hzero => ?_⟩
  · have hlater := rests_run hstep.held hrests size.ge rest hrest fun other hlt hactive => by
      rcases (active other).1 hactive with rfl | hwas
      · exact hkey
      · exact holder other hwas
    obtain ⟨hlisted, hapart⟩ := listed_run_onBase limit base (first ++ t :: rest)
    rw [run_append] at hlisted hapart
    rw [hground.path_eq]
    exact hlater.stands hlisted hapart
  · rintro mid u tail rfl hkey hdone
    rw [List.forall_mem_append, List.forall_mem_cons] at hrest
    obtain ⟨hmid, hu, htail⟩ := hrest
    obtain ⟨hheldMid, hendures⟩ := endures_run hstep.held mid hmid
    -- it remembers what it displaced until it ends
    rw [← remembers] at hdisplaced
    obtain ⟨hkept, hway⟩ := hdisplaced.remembered hendures ((active key).2 (.inl rfl)) hkey
    have hended := moves_step hheldMid hu
    have hmid : after (mid ++ [u]) = (((s.step t).run mid).step u).network :=
      congrArg Scene.network (run_append (s.step t) mid [u])
    have hend : after (mid ++ u :: tail) = ((((s.step t).run mid).step u).run tail).network :=
      congrArg Scene.network (run_append (s.step t) mid (u :: tail))
    rw [hmid] at hdone ⊢
    obtain ⟨hslot, hback⟩ := hended.ended hway hkey hdone
    have hsame := hslot.trans (hkept.trans remembers)
    refine ⟨hsame, by rw [hback.path_eq, hground.path_eq], fun hnobody hquiet => ?_⟩
    rw [hend]
    exact (slot_run hended.held hnobody tail fun v hv => ⟨htail v hv, hquiet v hv⟩).trans hsame
  · exact hground.slot_eq hzero

/-- Three splices with the second one plugged: with the third torn down, a frame for the second is queued. Torn down
after the one that it stands on, the second puts that one back. -/
theorem run_nested_three :
    let own : Mac := ⟨[2, 0, 0, 0, 0, 2], rfl⟩
    let first : List Turn :=
      [{ act := .host (.addInterface "" (some ⟨[2, 0, 0, 0, 0, 3], rfl⟩) 1500 1) },
        { act := .block (.addBudget 4096 false) }, { act := .splice (.start 0) }]
    let t : Turn := { act := .splice (.start 0) }
    let rest : List Turn :=
      [{ act := .splice (.plug 1 "" 8 own) }, { act := .splice (.start 0) }, { act := .splice (.tearDown 2) }]
    let s := (onBase none none).run first
    let n := ((s.step t).run rest).network
    let late : List Turn := rest ++ [{ act := .splice (.tearDown 0) }, { act := .splice (.tearDown 1) }]
    t.act.starts = true ∧ (∀ u ∈ first ++ t :: late, u.act.meddles = false) ∧ n.IsActive 1 ∧ n.IsActive 0 ∧
      (∃ plug ∈ (n.registry 1).plugs,
        (n.inject plug.index own.octets 64).bytesWaiting plug = own.octets :: n.bytesWaiting plug) ∧
      ((s.step t).run late).network.path = s.network.path := by
  intro own first t rest s n late
  have hturns : ∀ u ∈ first ++ t :: late, u.act.meddles = false := by decide
  have hearly : ∀ u ∈ first ++ t :: rest, u.act.meddles = false := by decide
  have hactive : n.IsActive 1 ∧ n.IsActive 0 := by decide +kernel
  have holder : ∀ older, s.network.IsActive older → n.IsActive older := by
    intro older hwas
    obtain rfl : older = 0 := Nat.lt_one_iff.1 hwas.lt
    exact hactive.2
  have hserves : n.Serves 1 := ((run_nested none none first rest t rfl hearly).1 hactive.1 holder).2
  have hends := (run_nested none none first late t rfl hturns).2.1 (rest ++ [{ act := .splice (.tearDown 0) }])
    { act := .splice (.tearDown 1) } [] rfl (by decide +kernel) (by decide +kernel)
  have hplugged : ∃ plug ∈ (n.registry 1).plugs,
      n.Alone 1 plug ∧ n.Affords (n.path.filterMap Hook.spliceKey?) plug own.octets 64 := by
    decide +kernel
  obtain ⟨plug, hplug, halone, hafford⟩ := hplugged
  exact ⟨rfl, hturns, hactive.1, hactive.2, ⟨plug, hplug, hserves plug hplug halone _ 64 hafford⟩, hends.2.1⟩

/-- Torn down before the splice that stands on it, a splice takes that one out of the slot: it is active and nobody else
has anything plugged, but a frame for it reaches the host's stack. Torn down in turn, it puts the other one back, and
this stays, though there was nothing in the slot at first. A splice that is put back like this can still plug the
interface, and then takes the frames of those that it stands on. -/
theorem not_served_older_first :
    let own : Mac := ⟨[2, 0, 0, 0, 0, 2], rfl⟩
    let two : List Turn :=
      [{ act := .host (.addInterface "" (some ⟨[2, 0, 0, 0, 0, 3], rfl⟩) 1500 1) },
        { act := .block (.addBudget 4096 false) }, { act := .splice (.start 0) }, { act := .splice (.start 0) }]
    let turns := two ++ [{ act := .splice (.plug 1 "" 8 own) }, { act := .splice (.tearDown 0) }]
    let n := ((onBase none none).run turns).network
    let last := ((onBase none none).run (turns ++ [{ act := .splice (.tearDown 1) }])).network
    let others := two ++
      [{ act := .splice (.start 0) }, { act := .splice (.tearDown 1) }, { act := .splice (.tearDown 2) },
        { act := .splice (.plug 0 "" 8 own) }, { act := .splice (.plug 1 "" 8 own) }]
    let taken := ((onBase none none).run others).network
    (∀ t ∈ turns ++ others, t.act.meddles = false) ∧
      (n.IsActive 1 ∧ n.splices.size = 2 ∧ (n.registry 0).plugs = [] ∧
        ∃ plug ∈ (n.registry 1).plugs, n.Affords [1, 0] plug own.octets 64 ∧
          (n.inject plug.index own.octets 64).bytesWaiting plug = [] ∧
          (n.inject plug.index own.octets 64).stack = #[⟨plug.index, own.octets, 1⟩]) ∧
      ((onBase none none).network.slot.isNone ∧ (∀ key < last.splices.size, ¬ last.IsActive key) ∧
        last.slot.bind Hook.spliceKey? = some 0) ∧
      (taken.IsActive 0 ∧ (∀ other < taken.splices.size, other ≠ 0 → ¬ taken.IsActive other) ∧
        ∃ plug ∈ (taken.registry 0).plugs, taken.Affords [1, 0] plug own.octets 64 ∧
          (taken.inject plug.index own.octets 64).bytesWaiting plug = []) := by
  decide +kernel

end Scene

end Patchbay
