import Patchbay.Proofs.Slot.Passing

/-!
# `Proofs.Slot.Stacking` — splices on top of one another

Splices that are started one after the other stand in the slot like a stack on what was there before. A frame meets
the newest first. It is consumed where it is claimed first, and otherwise comes to the base once, as it was; a frame
for everybody leaves one copy in each splice that has the interface.

## Contents
* `Network.inject_eq`, `Network.send_eq` — a frame from the wire and one from the stack, carried through the slot;
* `Network.Meets`, `Network.Composes` — what splices on a base do with a frame, and with all that comes by;
* `Network.Listed.composes` — this holds wherever the slot leads through the splices to the base;
* `Scene.onBase`, `Act.meddles`, `Act.ends`, `Act.starts` — hosts on which splices are only started;
* `Scene.run_composes` — there it holds after any run.
-/

namespace Patchbay

/-! ## Frames of given bytes -/

namespace Frame

theorem segmentsOver_eq_some {m m' : Memory} {pieces : List (List UInt8)} {segments : List Segment}
    (h : segmentsOver m pieces = (some segments, m')) : segments.map Segment.bytes = pieces := by
  induction pieces generalizing m m' segments with
  | nil =>
    cases h
    rfl
  | cons piece rest ih =>
    unfold segmentsOver at h
    split at h
    · cases h
    · rename_i m₁ _
      dsimp only at h
      split at h
      · rename_i hrest
        cases h
        rw [List.map_cons, ih hrest]
        refine congrArg (· :: rest) ?_
        show (View.whole _).bytes = piece
        rw [View.bytes_whole]
        exact Budget.Contents.toList_ofList piece
      · cases h

/-- A frame that was made has the bytes and the mark that it was made with. -/
theorem ofBytes_eq_some {m m' : Memory} {bytes : List UInt8} {cap : Nat} {receivedOn : Option Nat} {f : Frame}
    (h : ofBytes m bytes cap receivedOn = (some f, m')) : f.bytes = bytes ∧ f.receivedOn = receivedOn := by
  unfold ofBytes at h
  cases hs : segmentsOver m (pieces cap bytes) with
  | mk segments? m₁ =>
    rw [hs] at h
    cases segments? with
    | none => cases h
    | some segments =>
      cases h
      refine ⟨?_, rfl⟩
      rw [Frame.bytes, List.flatMap_def, segmentsOver_eq_some hs, flatten_pieces]

end Frame

namespace Network

variable {n n' : Network} {way : Way} {index : Nat} {f : Frame} {keys : List Nat} {base : Option HookSet}

/-! ## Frames carried through the slot -/

theorem Beside.path_eq (h : n.Beside n') : n'.path = n.path := by
  have hhooks (fuel : Nat) (hook : Option Hook) : n'.hooksFrom fuel hook = n.hooksFrom fuel hook := by
    induction fuel generalizing hook with
    | zero => rfl
    | succ fuel ih =>
      match hook with
      | none => rfl
      | some (.foreign _) => rfl
      | some (.splice key) =>
        rw [hooksFrom, hooksFrom, ih, previous?, previous?, h.splices]
  rw [path, path, hhooks, h.splices, h.slot]

theorem inject_eq {bytes : List UInt8} {cap : Nat} {m : Memory}
    (h : Frame.ofBytes n.memory bytes cap (some index) = (some f, m)) :
    n.inject index bytes cap = (carry .input (n.setMemory m) index (.last f) n.path).2 := by
  -- the frame bears the mark of the interface already
  have hmarked : (Chain.last f).setHead { f with receivedOn := some index } = .last f := by
    rw [← (Frame.ofBytes_eq_some h).2]
    rfl
  have hpath : (n.setMemory m).path = n.path := Beside.path_eq ⟨rfl, rfl⟩
  unfold inject
  rw [onMemory_eq h]
  show (n.setMemory m).receive index (.last f) = _
  unfold receive carry
  rw [show (Chain.last f).head = f from rfl, hmarked, hpath]
  dsimp only
  generalize offerInput _ index (.last f) n.path = result
  obtain ⟨_ | c, n₁⟩ := result <;> rfl

theorem send_eq {bytes : List UInt8} {m : Memory}
    (h : Frame.ofBytes n.memory bytes Frame.largestSegment none = (some f, m)) :
    n.send index bytes =
      ((carry .output (n.setMemory m) index (.last f) n.path).1.mapError .hook,
        (carry .output (n.setMemory m) index (.last f) n.path).2) := by
  have hpath : (n.setMemory m).path = n.path := Beside.path_eq ⟨rfl, rfl⟩
  unfold send carry
  rw [onMemory_eq h]
  dsimp only
  rw [hpath]
  generalize offerOutput _ index (.last f) n.path = result
  obtain ⟨code | _ | c, n₁⟩ := result <;> rfl

/-! ## Splices on a base -/

/-- Splices and the base under them, in the order in which a chain meets them. -/
def hooksOver (keys : List Nat) (base : Option HookSet) : List Hook :=
  keys.map .splice ++ (base.map Hook.foreign).toList

/-- What splices on a base do with a frame on one of its ways. -/
structure Meets (way : Way) (n : Network) (index : Nat) (f : Frame) (keys : List Nat)
    (base : Option HookSet) : Prop where
  /-- The first splice that claims it has it, and nothing else is touched: no older splice, no hooks of somebody else,
  neither stack nor wire. -/
  consumed : ∀ newer key older plug, keys = newer ++ key :: older →
    (∀ other ∈ newer, ∀ p, ¬ n.Claims other index f p) → n.Claims key index f plug →
    carry way n index (.last f) (hooksOver keys base) =
      (.ok (), { n with plane := queueWhole n.plane plug (n.budgetOf key) (.last f) }) ∧
    ∀ other : Plug, plug.key ≠ other.key →
      (queueWhole n.plane plug (n.budgetOf key) (.last f)).line other = n.plane.line other
  /-- If none claims it, it comes to the base as it is. On the way at most a frame for everybody is copied. -/
  passed : (∀ key ∈ keys, ∀ plug, ¬ n.Claims key index f plug) →
    ∃ p, carry way n index (.last f) (hooksOver keys base) =
        ({ n with plane := p } : Network).atBase way index (.last f) base ∧
      (f.destination? ≠ some Mac.broadcast → p = n.plane)
  /-- Where no copy is refused, each splice that has the interface gets one, and no other line is touched. -/
  copied : f.destination? = some Mac.broadcast → n.Welcomes index f keys →
    let after := (carry way n index (.last f) (hooksOver keys base)).2
    (∀ key ∈ keys, ∀ plug, (n.registry key).byIndex? index = some plug →
      ∃ charge, after.plane.line plug =
        { n.plane.line plug with queue := (n.plane.line plug).queue.letIn (.last f) charge }) ∧
    ∀ other : Plug, (∀ key ∈ keys, ∀ plug, (n.registry key).byIndex? index = some plug → plug.key ≠ other.key) →
      after.plane.line other = n.plane.line other
  /-- A splice that has not plugged the interface can as well not be there. -/
  idle : ∀ newer key older, keys = newer ++ key :: older → (n.registry key).byIndex? index = none →
    carry way n index (.last f) (hooksOver keys base) =
      carry way n index (.last f) (hooksOver (newer ++ older) base)

/-- A chain that belongs to nobody ends at the base, where somebody else's hooks see it once. -/
def endAtBase (n : Network) (index : Nat) (c : Chain) : Option HookSet → Network
  | none => n.releaseChain c
  | some h => (n.note (h.seen .orphan index c)).releaseChain c

/-- The base is told once of an interface that came or went. -/
def tellBase (n : Network) (call : String → HookCall) : Option HookSet → Network
  | none => n
  | some h => n.note (call h.name)

/-- What splices on a base, which stand in the slot, do with all that comes by. -/
structure Composes (n : Network) (keys : List Nat) (base : Option HookSet) : Prop where
  path : n.path = hooksOver keys base
  /-- A frame from the wire has the bytes that came and the mark of its interface. -/
  injected : ∀ index bytes cap f m, Frame.ofBytes n.memory bytes cap (some index) = (some f, m) →
    f.bytes = bytes ∧ f.receivedOn = some index ∧
      n.inject index bytes cap = (carry .input (n.setMemory m) index (.last f) n.path).2
  /-- A frame from the stack has the bytes that were sent; a failure of somebody else's hooks comes back. -/
  sent : ∀ index bytes f m, Frame.ofBytes n.memory bytes Frame.largestSegment none = (some f, m) →
    f.bytes = bytes ∧ f.receivedOn = none ∧
      n.send index bytes =
        ((carry .output (n.setMemory m) index (.last f) n.path).1.mapError .hook,
          (carry .output (n.setMemory m) index (.last f) n.path).2)
  meets : ∀ way m index f, Meets way (n.setMemory m) index f keys base
  /-- What belongs to nobody and what is told of interfaces comes to the base once, and no splice takes notice. -/
  orphan : ∀ index c, n.offerOrphan index c n.path = n.endAtBase index c base
  announced : ∀ call, n.announce call n.path = n.tellBase call base

/-- Nobody claims a frame for everybody. -/
theorem not_claims {key : Nat} {plug : Plug} (h : f.destination? = some Mac.broadcast) :
    ¬ n.Claims key index f plug :=
  fun hclaims => hclaims.single (Option.some.inj (hclaims.own.symm.trans h))

theorem lines_atBase (n : Network) (way : Way) (index : Nat) (c : Chain) (base : Option HookSet) :
    (n.atBase way index c base).2.plane.lines = n.plane.lines := by
  have harrive (n : Network) : (n.arrive index c way).plane.lines = n.plane.lines := by cases way <;> rfl
  unfold atBase
  split
  · exact harrive n
  · dsimp only
    split
    · rfl
    · exact harrive _
    · rfl

theorem Listed.meets (hl : n.Listed) (ha : n.Apart) (hnodup : keys.Nodup) (way : Way) (index : Nat) (f : Frame)
    (base : Option HookSet) : Meets way n index f keys base where
  consumed := by
    rintro newer key older plug rfl hnewer hclaims
    refine ⟨?_, fun other hne => Backplane.line_queueWhole_of_ne _ hne⟩
    rw [hooksOver, List.map_append, List.append_assoc]
    exact carry_consumed (c := .last f) hl hnewer hclaims _
  passed := by
    intro hnone
    obtain ⟨p, hcopies⟩ := n.copiesFor_plane index f keys
    refine ⟨p, ?_, fun hsingle => ?_⟩
    · rw [← hcopies, ← carry_base]
      exact carry_passed (c := .last f) hl hnone _
    · have heq : n.copiesFor index f keys = n := copiesFor_eq hsingle keys
      rw [hcopies] at heq
      exact congrArg Network.plane heq
  copied := by
    intro hall hw
    have hpassed : carry way n index (.last f) (hooksOver keys base) =
        (n.copiesFor index f keys).atBase way index (.last f) base := by
      rw [← carry_base]
      exact carry_passed (c := .last f) hl (fun _ _ _ => not_claims hall) _
    have hline (plug : Plug) : (carry way n index (.last f) (hooksOver keys base)).2.plane.line plug =
        (n.copiesFor index f keys).plane.line plug := by
      rw [hpassed, Backplane.line, lines_atBase, ← Backplane.line]
    refine ⟨fun key hkey plug hfound => ?_, fun other hother => ?_⟩
    · rw [hline]
      exact line_copiesFor hl ha hnodup hall hw hkey hfound
    · rw [hline]
      exact line_copiesFor_of_ne hother
  idle := by
    rintro newer key older rfl hidle
    rw [hooksOver, hooksOver, List.map_append, List.map_append, List.append_assoc, List.append_assoc]
    exact carry_idle hidle _

/-- Wherever the slot leads through splices to a base, they compose. -/
theorem Listed.composes (hl : n.Listed) (ha : n.Apart) (hnodup : keys.Nodup) (hpath : n.path = hooksOver keys base) :
    n.Composes keys base where
  path := hpath
  injected := fun _ _ _ _ _ h =>
    ⟨(Frame.ofBytes_eq_some h).1, (Frame.ofBytes_eq_some h).2, inject_eq h⟩
  sent := fun _ _ _ _ h => ⟨(Frame.ofBytes_eq_some h).1, (Frame.ofBytes_eq_some h).2, send_eq h⟩
  meets := fun way m index f => by
    have hlisted : (n.setMemory m).Listed := hl.of_same ⟨rfl, rfl⟩ rfl
    have hapart : (n.setMemory m).Apart := ha.dwindles (Dwindles.refl n)
    exact hlisted.meets hapart hnodup way index f base
  orphan := fun index c => by
    rw [hpath, hooksOver, offerOrphan_splices]
    cases base <;> rfl
  announced := fun call => by
    rw [hpath, hooksOver, announce_splices]
    cases base <;> rfl

end Network

/-! ## Hosts on which splices are started -/

namespace Act

/-- Somebody else has a hand in what stands in the slot, or in what splices remember. -/
def meddles : Act → Bool
  | .host (.exchangeHook _) => true
  | .host (.putHook _) => true
  | .host (.unlink _) => true
  | .splice (.add _) => true
  | .splice (.tellPrevious ..) => true
  | _ => false

/-- A splice may come to its end. -/
def ends : Act → Bool
  | .splice (.drop _) => true
  | .splice (.tearDown _) => true
  | _ => false

/-- A splice is started. -/
def starts : Act → Bool
  | .splice (.start _) => true
  | _ => false

end Act

namespace Scene

open Network (Leads SameSeats)

/-- A host with somebody else's hooks in its slot, or with none. -/
def onBase (limit : Option Nat) (base : Option HookSet) : Scene :=
  (start limit).run (base.toList.map fun h => { act := .host (.exchangeHook (.foreign h)) })

theorem run_append (s : Scene) (first rest : List Turn) : s.run (first ++ rest) = (s.run first).run rest :=
  List.foldl_append

theorem run_onBase (limit : Option Nat) (base : Option HookSet) (turns : List Turn) :
    (onBase limit base).run turns =
      (start limit).run ((base.toList.map fun h => { act := .host (.exchangeHook (.foreign h)) }) ++ turns) :=
  (run_append _ _ turns).symm

theorem network_onBase (limit : Option Nat) (base : Option HookSet) :
    (onBase limit base).network.slot = base.map Hook.foreign ∧ (onBase limit base).network.splices = #[] := by
  cases base <;> exact ⟨rfl, rfl⟩

/-- What registries list is plugged, and plugs of different splices have different lines. -/
theorem listed_run_onBase (limit : Option Nat) (base : Option HookSet) (turns : List Turn) :
    ((onBase limit base).run turns).network.Listed ∧ ((onBase limit base).run turns).network.Apart := by
  rw [run_onBase]
  generalize (base.toList.map fun h => { act := .host (.exchangeHook (.foreign h)) }) ++ turns = all
  obtain ⟨past, hs⟩ := settled_run limit all
  exact ⟨Network.Settled.listed hs, apart_run limit _⟩

variable {base : Option HookSet}

/-- All splices stand in the slot, newest first, on a base. -/
def Stacked (base : Option HookSet) (n : Network) : Prop :=
  n.Leads base n.slot (List.range n.splices.size).reverse

theorem Stacked.of_sameSeats {n n' : Network} (h : Stacked base n) (hs : n.SameSeats n') :
    Stacked base n' := by
  unfold Stacked
  rw [hs.slot, hs.size_eq]
  exact Leads.of_sameSeats h hs

/-- A splice that is started is put on top, and every other act leaves the stack as it is. -/
theorem Stacked.step {s : Scene} (h : Stacked base s.network) {t : Turn} (hmeddles : t.act.meddles = false)
    (hends : t.act.ends = false) :
    Stacked base (s.step t).network ∧
      (s.step t).network.splices.size = s.network.splices.size + if t.act.starts then 1 else 0 := by
  obtain ⟨act, lane, heap⟩ := t
  have hquiet (hact : act.handlesHooks = false) (hstarts : act.starts = false) :
      Stacked base (s.step ⟨act, lane, heap⟩).network ∧ (s.step ⟨act, lane, heap⟩).network.splices.size =
        s.network.splices.size + if act.starts then 1 else 0 := by
    have hsame := s.sameSeats_step (t := ⟨act, lane, heap⟩) hact
    exact ⟨h.of_sameSeats hsame, by rw [hsame.size_eq, hstarts]; rfl⟩
  cases act with
  | block act => exact hquiet rfl rfl
  | packet act => exact hquiet rfl rfl
  | queue act => exact hquiet rfl rfl
  | host act => cases act <;> first | exact hquiet rfl rfl | cases hmeddles
  | splice act =>
    cases act with
    | start budget =>
      let n := s.network.setMemory { s.network.memory with heap := heap, lane := lane }
      show Stacked base (n.startSplice budget).2 ∧ (n.startSplice budget).2.splices.size = n.splices.size + 1
      have hsize : (n.startSplice budget).2.splices.size = n.splices.size + 1 := n.size_startSplice budget
      refine ⟨?_, hsize⟩
      unfold Stacked
      rw [hsize, List.range_succ, List.reverse_append]
      have hn : Stacked base n := h.of_sameSeats ⟨rfl, rfl⟩
      exact Leads.start hn (fun key hkey => List.mem_range.1 (List.mem_reverse.1 hkey)) budget
    | hold key =>
      -- a further handle is no matter of the stack
      let n := s.network.setMemory { s.network.memory with heap := heap, lane := lane }
      show Stacked base (n.holdSplice key) ∧ (n.holdSplice key).splices.size = n.splices.size
      have hsize : (n.holdSplice key).splices.size = n.splices.size := Array.size_modify
      refine ⟨?_, hsize⟩
      unfold Stacked
      rw [hsize]
      exact h.congr fun other _ => n.previous?_modifySplice key other fun _ => rfl
    | drop key => cases hends
    | tearDown key => cases hends
    | _ => first | exact hquiet rfl rfl | cases hmeddles

theorem Stacked.run {s : Scene} (h : Stacked base s.network) (turns : List Turn)
    (hturns : ∀ t ∈ turns, t.act.meddles = false ∧ t.act.ends = false) :
    Stacked base (s.run turns).network ∧
      (s.run turns).network.splices.size = s.network.splices.size + turns.countP fun t => t.act.starts := by
  induction turns generalizing s with
  | nil => exact ⟨h, rfl⟩
  | cons t rest ih =>
    rw [List.forall_mem_cons] at hturns
    obtain ⟨hstep, hsize⟩ := h.step hturns.1.1 hturns.1.2
    obtain ⟨hrest, hrun⟩ := ih hstep hturns.2
    refine ⟨hrest, ?_⟩
    rw [List.countP_cons]
    exact hrun.trans (by rw [hsize]; omega)

/-- **Stacked splices compose.** Take a host with any hooks of somebody else in its slot, or with none, and any run of
acts in which splices are started, however many, and none ends, and in which nobody else handles hooks. Whatever was
plugged in each: a frame that comes from the wire or from the stack meets the splices newest first; the first one that
claims it has it, and nothing else sees it; if none does, the base sees it once, as it was, and decides; a frame for
everybody leaves one copy in each splice that has the interface; a splice that does not have it could as well not be
there; and all else goes through to the base. -/
theorem run_composes (limit : Option Nat) (base : Option HookSet) (turns : List Turn)
    (hturns : ∀ t ∈ turns, t.act.meddles = false ∧ t.act.ends = false) :
    ((onBase limit base).run turns).network.Composes
      (List.range (turns.countP fun t => t.act.starts)).reverse base := by
  obtain ⟨hslot, hnone⟩ := network_onBase limit base
  have hstart : Stacked base (onBase limit base).network := by
    unfold Stacked
    rw [hslot, hnone]
    exact .base
  obtain ⟨hstacked, hsize⟩ := hstart.run turns hturns
  rw [hnone] at hsize
  change _ = 0 + _ at hsize
  rw [Nat.zero_add] at hsize
  unfold Stacked at hstacked
  obtain ⟨hlisted, hapart⟩ := listed_run_onBase limit base turns
  refine hlisted.composes hapart ?_ ?_
  · rw [List.nodup_reverse]
    exact List.nodup_range
  · rw [← hsize]
    exact hstacked.path_eq fun key hkey => List.mem_range.1 (List.mem_reverse.1 hkey)

/-- Two splices with the same interface on hooks that fail every frame that is sent: a frame for everybody is queued in
both, a frame for the older splice passes the newer one and stays there, and a frame for nobody comes through, to the
stack if it was received and to the failure if it was sent. -/
theorem run_composes_two :
    let h : HookSet := ⟨"tap", fun _ _ => true, fun _ _ => .error 5⟩
    let turns : List Turn :=
      [{ act := .host (.addInterface "" (some ⟨[2, 0, 0, 0, 0, 3], rfl⟩) 1500 1) },
        { act := .block (.addBudget 4096 false) }, { act := .splice (.start 0) }, { act := .splice (.start 0) },
        { act := .splice (.plug 0 "" 7 ⟨[2, 0, 0, 0, 0, 1], rfl⟩) },
        { act := .splice (.plug 1 "" 8 ⟨[2, 0, 0, 0, 0, 2], rfl⟩) }]
    let n := ((onBase none (some h)).run turns).network
    let frame (bytes : List UInt8) : Frame := ⟨[.whole ⟨0, .cluster (.ofList bytes)⟩], none⟩
    (∀ t ∈ turns, t.act.meddles = false ∧ t.act.ends = false) ∧
      n.path = [.splice 1, .splice 0, .foreign h] ∧
      (∀ key ∈ [1, 0], ∀ plug, (n.registry key).byIndex? 1 = some plug → ∃ charge,
        (Network.carry .input n 1 (.last (frame [255, 255, 255, 255, 255, 255])) n.path).2.plane.line plug =
          { n.plane.line plug with
            queue := (n.plane.line plug).queue.letIn (.last (frame [255, 255, 255, 255, 255, 255])) charge }) ∧
      (∃ plug, (n.registry 0).byIndex? 1 = some plug ∧
        Network.carry .input n 1 (.last (frame [2, 0, 0, 0, 0, 1])) n.path =
          (.ok (), { n with
            plane := Network.queueWhole n.plane plug (n.budgetOf 0) (.last (frame [2, 0, 0, 0, 0, 1])) })) ∧
      (Network.carry .input n 1 (.last (frame [2, 0, 0, 0, 0, 9])) n.path).2.stack =
        n.stack ++ #[⟨1, [2, 0, 0, 0, 0, 9], 1⟩] ∧
      (Network.carry .output n 1 (.last (frame [2, 0, 0, 0, 0, 9])) n.path).1 = .error 5 := by
  intro h turns n frame
  have hturns : ∀ t ∈ turns, t.act.meddles = false ∧ t.act.ends = false := by decide
  have hcomposes : n.Composes [1, 0] (some h) := run_composes none (some h) turns hturns
  have hwelcomes : n.Welcomes 1 (frame [255, 255, 255, 255, 255, 255]) [1, 0] := by decide +kernel
  have hnewer : ∀ plug ∈ (n.registry 1).byIndex? 1,
      (frame [2, 0, 0, 0, 0, 1]).destination? ≠ some plug.virtualMac := by decide +kernel
  have holder : ∃ plug, (n.registry 0).byIndex? 1 = some plug ∧
      (frame [2, 0, 0, 0, 0, 1]).destination? = some plug.virtualMac ∧ plug.virtualMac ≠ Mac.broadcast :=
    ⟨((n.registry 0).byIndex? 1).get (by decide +kernel), by decide +kernel, by decide +kernel, by decide +kernel⟩
  have hnone : ∀ key ∈ [1, 0], ∀ plug ∈ (n.registry key).byIndex? 1,
      (frame [2, 0, 0, 0, 0, 9]).destination? ≠ some plug.virtualMac := by decide +kernel
  have hunclaimed : ∀ key ∈ [1, 0], ∀ plug, ¬ n.Claims key 1 (frame [2, 0, 0, 0, 0, 9]) plug :=
    fun key hkey plug hclaims => hnone key hkey plug hclaims.found hclaims.own
  -- how the host came about does not matter any more
  clear_value n
  refine ⟨hturns, hcomposes.path, ?_, ?_, ?_, ?_⟩ <;> rw [hcomposes.path]
  · exact ((hcomposes.meets .input n.memory 1 (frame _)).copied rfl hwelcomes).1
  · obtain ⟨plug, hfound, hown, hsingle⟩ := holder
    have hpasses : ∀ key ∈ [1], ∀ p, ¬ n.Claims key 1 (frame [2, 0, 0, 0, 0, 1]) p := by
      intro key hkey p hclaims
      cases List.mem_singleton.1 hkey
      exact hnewer p hclaims.found hclaims.own
    exact ⟨plug, hfound,
      ((hcomposes.meets .input n.memory 1 (frame _)).consumed [1] 0 [] plug rfl hpasses ⟨hfound, hown, hsingle⟩).1⟩
  · obtain ⟨p, hpassed, -⟩ := (hcomposes.meets .input n.memory 1 (frame _)).passed hunclaimed
    exact congrArg (·.2.stack) hpassed
  · obtain ⟨p, hpassed, -⟩ := (hcomposes.meets .output n.memory 1 (frame _)).passed hunclaimed
    exact congrArg Prod.fst hpassed

end Scene

end Patchbay
