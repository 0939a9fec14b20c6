import Patchbay.Proofs.Module.Lodging
import Patchbay.Proofs.Module.Site

/-!
# `Proofs.Module.Cycle` — loads and unloads leave the host as it was found

A module is loaded and unloaded on a host that has hooks of its own, with whatever settings and consumers. As long as
nobody else comes to the slot or changes interfaces, and every consumer stops in time, each unload undoes what the load
and its consumer did, so that the next load finds the host that the first one found.

## Contents
* `Module.Answers` — which events are granted, that a load without a thread fails, and that any other refusal changes
  nothing;
* `Site.Permits`, `Site.Suits`, `Site.Suited` — what others may do in between, and that consumers stop in time;
* `Module.Visits` — a module that is loaded is lodged, and one that is not has left;
* `Site.Cycles`, `Cycles.perform`, `Cycles.run` — so it stays whatever happens;
* `Site.run_restores` — so the host is as it was found whenever the module is not loaded.
-/

namespace Patchbay

open Budget (Heap Lane)
open Network (Dwells Lodged Vacated)

/-- A consumer that is gone does not care what it is told. -/
theorem Performer.hear_gone {p : Performer} (h : p.worker.phase = .gone) (n : Network) (w : Word) :
    (p.hear n w).1.worker.phase = .gone ∧ (p.hear n w).2 = n := by
  have hsettle {q : Performer} (hsame : p.Alike q) :
      (q.settle n).1.worker.phase = .gone ∧ (q.settle n).2 = n := by
    have hgone : q.worker.phase = .gone := hsame.worker ▸ h
    rw [settle_gone hgone]
    exact ⟨hgone, rfl⟩
  cases w with
  | tell c =>
    show (p.tell n c).2.1.worker.phase = _ ∧ (p.tell n c).2.2 = n
    rcases p.tell_cases n c with heq | ⟨q, hsame, heq⟩
    · rw [heq]
      exact ⟨h, rfl⟩
    · rw [heq]
      exact hsettle hsame
  | release =>
    show (p.release n).1.worker.phase = _ ∧ (p.release n).2 = n
    obtain ⟨q, hsame, heq⟩ := p.release_cases n
    rw [heq]
    exact hsettle hsame

namespace Module

variable {m : Module} {n n' found : Network} {l : Loaded} {p : Performer}

/-! ## What is granted -/

/-- How events are answered. As long as the system gives threads, a module can be loaded just when it is not loaded; it
can be unloaded just when it is. A load that gets no thread tells the system's cause, and the module stays not loaded.
Any other refusal changes nothing at all. -/
structure Answers (m : Module) : Prop where
  answered : ∀ n event, (m.handle n event).1 ≠ none
  load : m.refusal = none → ∀ n, (m.handle n .load).1 = some (.ok ()) ↔ m.loaded = none
  unload : ∀ n, (m.handle n .unload).1 = some (.ok ()) ↔ m.loaded ≠ none
  unstarted : ∀ n cause, m.refusal = some cause → m.loaded = none →
    (m.handle n .load).1 = some (.error (.worker (.spawn cause))) ∧ (m.handle n .load).2.1 = m
  refused : ∀ n event cause, (m.handle n event).1 = some (.error cause) → (∀ why, cause ≠ .worker (.spawn why)) →
    m.handle n event = (some (.error cause), m, n) ∧
      cause = if event = .load ∨ event = .unload then .alreadyActive else .unsupported event

/-- A thread can have the name that is made of a module's, if it could have the module's. -/
theorem nameable_threadName (h : Worker.Nameable m.name) : Worker.Nameable m.threadName := by
  unfold Worker.Nameable threadName at *
  rw [String.toList_append, List.mem_append, not_or]
  exact ⟨by decide, h⟩

section Manned

variable (hname : Worker.Nameable m.name)
include hname

theorem handle_load_ok_iff (hthreads : m.refusal = none) (n : Network) :
    (m.handle n .load).1 = some (.ok ()) ↔ m.loaded = none := by
  cases hloaded : m.loaded with
  | none =>
    have hstarts : m.Starts := ⟨nameable_threadName hname, hthreads⟩
    rcases load_cases hloaded n with ⟨-, hload⟩ | ⟨hfails, -⟩
    · simp [handle, hload]
    · exact absurd hstarts hfails
  | some l => simp [handle, load_refused hloaded]

/-- Without a thread the load fails for the system's cause. -/
theorem handle_load_failed {cause : String} (hrefusal : m.refusal = some cause) (hloaded : m.loaded = none)
    (n : Network) : m.handle n .load = (some (.error (.worker (.spawn cause))), m, m.afterFailure n) := by
  rcases load_cases hloaded n with ⟨hstarts, -⟩ | ⟨-, hload⟩
  · cases hrefusal.symm.trans hstarts.2
  · rw [handle, hload, failure, if_pos (nameable_threadName hname), hrefusal]
    rfl

/-- An event of a module whose name can be a thread's does not panic. -/
theorem handle_answered (n : Network) (event : ModuleEvent) : (m.handle n event).1 ≠ none := by
  cases event with
  | load =>
    cases hloaded : m.loaded with
    | none =>
      cases hrefusal : m.refusal with
      | none =>
        rw [(handle_load_ok_iff hname hrefusal n).2 hloaded]
        exact Option.some_ne_none _
      | some why =>
        rw [handle_load_failed hname hrefusal hloaded]
        exact Option.some_ne_none _
    | some l =>
      rw [handle, load_refused hloaded]
      exact Option.some_ne_none _
  | _ => exact Option.some_ne_none _

variable (hmanned : ∀ l, m.loaded = some l → ∃ p, m.performer = some p)
include hmanned

omit hname in
theorem handle_unload_ok_iff (n : Network) : (m.handle n .unload).1 = some (.ok ()) ↔ m.loaded ≠ none := by
  cases hloaded : m.loaded with
  | none => simp [handle, unload_refused hloaded, Except.map]
  | some l =>
    obtain ⟨p, hperformer⟩ := hmanned l hloaded
    simp [handle, unload_eq hloaded hperformer, Except.map]

/-- What is refused, but for lack of a thread, is refused for one of two reasons and without any change. -/
theorem handle_error {event : ModuleEvent} {cause : ModuleFailure}
    (herror : (m.handle n event).1 = some (.error cause)) (hother : ∀ why, cause ≠ .worker (.spawn why)) :
    m.handle n event = (some (.error cause), m, n) ∧
      cause = if event = .load ∨ event = .unload then .alreadyActive else .unsupported event := by
  cases event with
  | load =>
    cases hloaded : m.loaded with
    | none =>
      cases hrefusal : m.refusal with
      | none =>
        rw [(handle_load_ok_iff hname hrefusal n).2 hloaded] at herror
        cases herror
      | some why =>
        rw [handle_load_failed hname hrefusal hloaded] at herror
        obtain rfl : ModuleFailure.worker (.spawn why) = cause := Except.error.inj (Option.some.inj herror)
        exact absurd rfl (hother why)
    | some l =>
      simp only [handle, load_refused hloaded, Option.some.injEq, Except.error.injEq] at herror ⊢
      exact ⟨by rw [herror], herror.symm⟩
  | unload =>
    cases hloaded : m.loaded with
    | none =>
      simp only [handle, unload_refused hloaded, Except.map, Option.some.injEq, Except.error.injEq] at herror ⊢
      exact ⟨by rw [herror], herror.symm⟩
    | some l =>
      obtain ⟨p, hperformer⟩ := hmanned l hloaded
      simp [handle, unload_eq hloaded hperformer, Except.map] at herror
  | _ =>
    -- nothing else is supported
    cases herror
    exact ⟨rfl, rfl⟩

/-- It is so as long as a module that is loaded has a consumer. -/
theorem answers : m.Answers where
  answered := handle_answered hname
  load := handle_load_ok_iff hname
  unload := handle_unload_ok_iff hmanned
  unstarted n cause hrefusal hloaded := by
    rw [handle_load_failed hname hrefusal hloaded]
    exact ⟨rfl, rfl⟩
  refused _ _ _ := handle_error hname hmanned

end Manned

/-- A module keeps its name. -/
theorem name_handle (m : Module) (n : Network) (event : ModuleEvent) : (m.handle n event).2.1.name = m.name := by
  cases event with
  | load =>
    cases hloaded : m.loaded with
    | none =>
      rcases load_cases hloaded n with ⟨-, hload⟩ | ⟨-, hload⟩
      · rw [handle, hload]
        rfl
      · rw [handle, hload]
    | some l => rw [handle, load_refused hloaded]
  | unload =>
    show (m.unload n).2.1.name = m.name
    unfold unload
    split <;> rfl
  | _ => rfl

/-! ## A module on a host -/

/-- When the module is not loaded, the host is as it was found, and when it is loaded, its consumer dwells there.
Consumers of earlier loads are gone. -/
structure Visits (m : Module) (found n : Network) : Prop where
  strays : ∀ p ∈ m.strays, p.worker.phase = .gone
  vacant : m.loaded = none → Vacated found n ∧ ∀ p, m.performer = some p → p.worker.phase = .gone
  lodged : ∀ l, m.loaded = some l → ∃ p, m.performer = some p ∧ p.Meets (Dwells found l.splice) n

namespace Visits

/-- The host changes, with the guest or without it. -/
theorem change (h : m.Visits found n) (hvacant : m.loaded = none → Vacated found n → Vacated found n')
    (hlodged : ∀ l handles, m.loaded = some l → Lodged found l.splice handles n → Lodged found l.splice handles n') :
    m.Visits found n' where
  strays := h.strays
  vacant hloaded := ⟨hvacant hloaded (h.vacant hloaded).1, (h.vacant hloaded).2⟩
  lodged l hloaded := by
    obtain ⟨p, hperformer, hkey, hdwells⟩ := h.lodged l hloaded
    exact ⟨p, hperformer, hkey, hlodged l _ hloaded hdwells⟩

theorem routine (h : m.Visits found n) (hr : n.Routine n.Lists n') : m.Visits found n' :=
  h.change (fun _ hvacated => hvacated.routine hr) fun _ _ _ hlodged => hlodged.routine hr

/-- A consumer of an earlier load is told something. -/
theorem stray (h : m.Visits found n) {place : Nat} (hp : m.strays[place]? = some p) (w : Word) :
    Visits { m with strays := m.strays.set place (p.hear n w).1 } found (p.hear n w).2 := by
  obtain ⟨hgone, hsame⟩ := p.hear_gone (h.strays p (List.mem_of_getElem? hp)) n w
  rw [hsame]
  refine ⟨fun q hq => ?_, h.vacant, h.lodged⟩
  rcases List.mem_or_eq_of_mem_set hq with hq | rfl
  · exact h.strays q hq
  · exact hgone

variable (hr : found.Ready)
include hr

/-- A load makes a budget, a splice and a consumer that dwells there. -/
theorem load (h : m.Visits found n) (hloaded : m.loaded = none) : (m.afterLoad n).1.Visits found (m.afterLoad n).2 := by
  obtain ⟨hvacated, hgone⟩ := h.vacant hloaded
  have hbudget : Vacated found (m.budgetFor n) := hvacated.routine (.memory n _)
  have hroom : Lodged found n.splices.size 2 (m.roomFor n) := (hbudget.start hr n.memory.budgets.size).hold
  have hmeets : (m.consumerFor n).Meets (Dwells found n.splices.size) (m.roomFor n) :=
    ⟨fun _ hkey => (Option.some.inj hkey).symm, hroom⟩
  refine ⟨fun p hp => ?_, fun hnone => absurd hnone (Option.some_ne_none _), fun l hl => ?_⟩
  · rcases List.mem_append.1 hp with hold | hlast
    · exact h.strays p hold
    · exact hgone p (Option.mem_toList.1 hlast)
  · obtain rfl := Option.some.inj hl
    exact ⟨_, rfl, (Dwells.lasts hr n.splices.size).launch (.new _ _ _) hmeets⟩

/-- A load that gets no thread leaves nothing but a splice that has ended. -/
theorem failedLoad (h : m.Visits found n) (hloaded : m.loaded = none) : m.Visits found (m.afterFailure n) := by
  have hbudget : Vacated found (m.budgetFor n) := (h.vacant hloaded).1.routine (.memory n _)
  have hroom : Lodged found n.splices.size 2 (m.roomFor n) := (hbudget.start hr n.memory.budgets.size).hold
  exact ⟨h.strays, fun _ => ⟨hroom.drop.dropLast hr, (h.vacant hloaded).2⟩, fun l hl => nomatch hloaded.symm.trans hl⟩

/-- An unload waits for the consumer, which has no splice any more when it is gone, and lets go of the splice. -/
theorem letGo (h : m.Visits found n) (hloaded : m.loaded = some l) (hperformer : m.performer = some p)
    (horderly : p.Orderly) (hgone : (p.shutdown n).2.1.worker.phase = .gone) :
    Visits { m with loaded := none, performer := some (p.shutdown n).2.1 } found (Module.letGo l p n) := by
  obtain ⟨q, hq, hmeets⟩ := h.lodged l hloaded
  obtain rfl := Option.some.inj (hperformer.symm.trans hq)
  obtain ⟨-, hlodged⟩ := (Dwells.lasts hr l.splice).shutdown horderly hmeets
  rw [((horderly.shutdown n).gone hgone).2] at hlodged
  refine ⟨h.strays, fun _ => ⟨hlodged.leave hr, fun q hq => ?_⟩, fun l' hl' => absurd hl'.symm (Option.some_ne_none l')⟩
  obtain rfl := Option.some.inj hq
  exact hgone

/-- The consumer of the latest load is told something. -/
theorem hear (h : m.Visits found n) (horderly : ∀ p, m.performer = some p → p.Orderly) (w : Word) :
    (m.hear n w).1.Visits found (m.hear n w).2 := by
  rw [hear_eq]
  cases hperformer : m.performer with
  | none => exact h
  | some p =>
    refine ⟨h.strays, fun hloaded => ?_, fun l hloaded => ?_⟩
    · obtain ⟨hvacated, hgone⟩ := h.vacant hloaded
      obtain ⟨hstays, hsame⟩ := p.hear_gone (hgone p hperformer) n w
      refine ⟨hsame.symm ▸ hvacated, fun q hq => ?_⟩
      obtain rfl := Option.some.inj hq
      exact hstays
    · obtain ⟨q, hq, hmeets⟩ := h.lodged l hloaded
      obtain rfl := Option.some.inj (hperformer.symm.trans hq)
      exact ⟨_, rfl, (Dwells.lasts hr l.splice).hear (horderly p hperformer) hmeets w⟩

end Visits

end Module

namespace Site

open Patchbay.Module (Visits)

variable {s : Site} {found : Network}

/-! ## What happens in between -/

/-- Nobody comes to the slot, and nobody writes the interface table but for the consumer of a module that is loaded.
Chains are put by hand only on the lines of plugs that are listed. -/
structure Permits (s : Site) (act : Act) : Prop where
  hooks : act.handlesHooks = false
  table : act.writesTable = true → ∃ l, s.module.loaded = some l ∧ act.isOwn l.splice
  lines : act.FillsOnly s.scene.network.Lists s.scene.items

/-- Callers keep to what is permitted, and a consumer that is shut down stops in time. -/
def Suits (s : Site) : Move → Prop
  | .act act => s.Permits act
  | .event .unload => ∀ r m n, s.module.unload s.scene.network = (.ok r, m, n) → r.shutdown ≠ .timedOut
  | _ => True

/-- So it is in each of some turns. -/
def Suited (s : Site) : List Turn → Prop
  | [] => True
  | t :: rest => (s.onLane t.lane t.heap).Suits t.move ∧ (s.step t).Suited rest

theorem suits_unload (h : (s.module.unload s.scene.network).1.toOption.map UnloadReport.shutdown ≠ some .timedOut) :
    s.Suits (.event .unload) := by
  intro r m n hunload htimedOut
  rw [hunload] at h
  exact h (congrArg some htimedOut)

/-- What is permitted can be done with the guest and without it. -/
theorem visits_act (h : s.module.Visits found s.scene.network) (hr : found.Ready) {act : Act}
    (hpermits : s.Permits act) : s.module.Visits found (s.scene.perform act).network := by
  obtain ⟨hhooks, htable, hlines⟩ := hpermits
  cases hwrites : act.writesTable with
  | false => exact h.routine (s.scene.routine_perform hhooks hwrites s.scene.network.listsOnly_lists hlines)
  | true =>
    obtain ⟨l, hloaded, hown⟩ := htable hwrites
    have hguest (hlodged : ∀ handles, Lodged found l.splice handles s.scene.network →
        Lodged found l.splice handles (s.scene.perform act).network) :
        s.module.Visits found (s.scene.perform act).network := by
      refine h.change (fun hnone => nomatch hloaded.symm.trans hnone) fun l' handles hl' hlodged' => ?_
      obtain rfl := Option.some.inj (hloaded.symm.trans hl')
      exact hlodged handles hlodged'
    cases act with
    | splice act =>
      cases act with
      | plug key name id mac =>
        obtain rfl : key = l.splice := hown
        refine hguest fun handles hlodged => ?_
        show Lodged found _ handles (if _ then _ else _ : Scene).network
        split
        · exact hlodged.plug hr name id mac
        · exact hlodged
      | unplug key id =>
        obtain rfl : key = l.splice := hown
        exact hguest fun handles hlodged => hlodged.unplug hr id
      | unplugEverything key =>
        obtain rfl : key = l.splice := hown
        exact hguest fun handles hlodged => hlodged.unplugEverything hr
      | _ => cases hwrites
    | host act => exact hown.elim
    | _ => cases hwrites

/-- A host and a module that cycles on it. -/
structure Cycles (s : Site) (found : Network) : Prop where
  sound : s.Sound Memory.Tallied
  visits : s.module.Visits found s.scene.network

namespace Cycles

theorem orderly (h : s.Cycles found) (p : Performer) (hp : s.module.performer = some p) : p.Orderly :=
  h.sound.orderly p (List.mem_append_left _ (by rw [hp]; exact List.mem_singleton_self p))

theorem onLane (h : s.Cycles found) (lane : Lane) (heap : Heap) : (s.onLane lane heap).Cycles found :=
  ⟨h.sound.onLane lane heap, h.visits.routine (.memory _ _)⟩

variable (hr : found.Ready)
include hr

theorem perform (h : s.Cycles found) (m : Move) (hsuits : s.Suits m) : (s.perform m).Cycles found := by
  refine ⟨h.sound.perform m fun key _ => Memory.Tallied.overlooks key, ?_⟩
  cases m with
  | event event =>
    cases event with
    | load =>
      cases hloaded : s.module.loaded with
      | some l =>
        simp only [Site.perform, Module.handle, Module.load_refused hloaded]
        exact h.visits
      | none =>
        rcases Module.load_cases hloaded s.scene.network with ⟨-, hload⟩ | ⟨-, hload⟩
        · simp only [Site.perform, Module.handle, hload]
          exact h.visits.load hr hloaded
        · -- the splice that was started goes again with its two handles
          simp only [Site.perform, Module.handle, hload, setNetwork]
          exact h.visits.failedLoad hr hloaded
    | unload =>
      cases hloaded : s.module.loaded with
      | none =>
        simp only [Site.perform, Module.handle, Module.unload_refused hloaded]
        exact h.visits
      | some l =>
        obtain ⟨p, hperformer, hattached, hlaunched⟩ := h.sound.manned l hloaded
        have hunload := Module.unload_eq (n := s.scene.network) hloaded hperformer
        have horderly := h.orderly p hperformer
        -- the shutdown ends in time, so the consumer is gone and the last handle is the owner's
        have hgone := Performer.gone_of_shutdown horderly hattached hlaunched (hsuits _ _ _ hunload)
        simp only [Site.perform, Module.handle, hunload]
        exact (h.visits.letGo hr hloaded hperformer horderly hgone).routine (.memory _ _)
    | quiesce => exact h.visits
    | shutdown => exact h.visits
  | word w => exact h.visits.hear hr h.orderly w
  | stray place w =>
    unfold Site.perform
    dsimp only
    split
    · exact h.visits
    · rename_i p hp
      exact h.visits.stray hp w
  | prepare source script refusal => exact ⟨h.visits.strays, h.visits.vacant, h.visits.lodged⟩
  | act act => exact visits_act h.visits hr hsuits

theorem step (h : s.Cycles found) (t : Turn) (hsuits : (s.onLane t.lane t.heap).Suits t.move) :
    (s.step t).Cycles found :=
  (h.onLane t.lane t.heap).perform hr t.move hsuits

theorem run (h : s.Cycles found) (turns : List Turn) (hsuited : s.Suited turns) : (s.run turns).Cycles found := by
  induction turns generalizing s with
  | nil => exact h
  | cons t rest ih =>
    obtain ⟨hsuits, hrest⟩ := hsuited
    exact ih (h.step hr t hsuits) hrest

end Cycles

/-! ## Runs -/

/-- Whatever happens, the module keeps its name. -/
theorem name_run (s : Site) (turns : List Turn) : (s.run turns).module.name = s.module.name := by
  induction turns generalizing s with
  | nil => rfl
  | cons t rest ih =>
    refine (ih (s.step t)).trans ?_
    obtain ⟨m, lane, heap⟩ := t
    let s' := s.onLane lane heap
    show (s'.perform m).module.name = s'.module.name
    cases m with
    | event event => exact s'.module.name_handle s'.scene.network event
    | word w =>
      simp only [perform, Module.hear_eq]
      split <;> rfl
    | stray place w =>
      unfold perform
      dsimp only
      split <;> rfl
    | prepare source script refusal => rfl
    | act act => rfl

/-- A host after any run in which only splices come to the slot. -/
theorem ready_run_onBase (limit : Option Nat) (base : Option HookSet) (turns : List Patchbay.Turn)
    (hturns : ∀ t ∈ turns, t.act.meddles = false)
    (hd : ((Scene.onBase limit base).run turns).network.plane.table.Distinct) :
    ((Scene.onBase limit base).run turns).network.Ready := by
  obtain ⟨hheld, hrests⟩ := Scene.held_onBase limit base
  obtain ⟨keys, hground, -⟩ :=
    (Scene.rests_run hheld hrests (Nat.zero_le _) turns hturns fun _ hlt => absurd hlt (Nat.not_lt_zero _)).slot
  exact ⟨hd, (Scene.endures_run hheld turns hturns).1, ⟨base, keys, hground⟩,
    fun _ _ hplug => ((Scene.listed_run_onBase limit base turns).1 hplug).lined⟩

/-- A module that was never loaded. -/
theorem Cycles.new {scene : Scene} {past : History} (hs : scene.Settled past) (name : String) (source : Settings.Source)
    (script : Script) :
    Cycles ⟨scene, { name := name, source := source, script := script }⟩ scene.network where
  sound := by
    refine ⟨⟨past, ?_⟩, fun _ hp => absurd hp List.not_mem_nil, fun _ hp => absurd hp List.not_mem_nil,
      fun _ hp => absurd hp List.not_mem_nil, fun _ hl => nomatch hl⟩
    show scene.network.Settled _ past (estate scene.items + 0)
    rw [add_zero]
    exact hs
  visits := ⟨fun _ hp => absurd hp List.not_mem_nil, fun _ => ⟨.refl _, fun _ hp => nomatch hp⟩, fun _ hl => nomatch hl⟩

/-- **Cycles of a module leave the host as it was found.** Take a host with hooks of somebody else in its slot or with
none, after any run of acts in which splices come and go there, with its interfaces told apart by their indices, and a
module that was not loaded yet, whose name a thread can have. Then let anything happen: events of the module, words to
its consumers, other settings and scripts for the next load, threads that the system refuses, frames that come and go,
and the consumers' own plugs; but nobody else comes to the slot or writes the interface table, and every shutdown ends
in time. While there are threads the module can be loaded just when it is not loaded, and it can be unloaded just when
it is; a load without a thread fails, and any other refused event changes nothing. Whenever the module is not loaded,
after an unload as after a load that failed, the host is as it was found. -/
theorem run_restores (limit : Option Nat) (base : Option HookSet) (before : List Patchbay.Turn)
    (hbefore : ∀ t ∈ before, t.act.meddles = false) (name : String) (hname : Worker.Nameable name)
    (source : Settings.Source) (script : Script)
    (hd : ((Scene.onBase limit base).run before).network.plane.table.Distinct) (turns : List Turn)
    (hsuited : Suited ⟨(Scene.onBase limit base).run before, { name := name, source := source, script := script }⟩
      turns) :
    let start := (Scene.onBase limit base).run before
    let s := run ⟨start, { name := name, source := source, script := script }⟩ turns
    s.module.Answers ∧ (s.module.loaded = none → start.network.AsFound s.scene.network) := by
  intro start s
  have hr : start.network.Ready := ready_run_onBase limit base before hbefore hd
  obtain ⟨past, hs⟩ : ∃ past, start.Settled past := by
    show ∃ past, ((Scene.onBase limit base).run before).Settled past
    rw [Scene.run_onBase]
    exact Scene.settled_run limit _
  have hcycles : s.Cycles start.network := (Cycles.new hs name source script).run hr turns hsuited
  have hkept : Worker.Nameable s.module.name := by
    rw [name_run]
    exact hname
  refine ⟨Module.answers hkept fun l hloaded => ?_, fun hloaded => (hcycles.visits.vacant hloaded).1.asFound hr⟩
  obtain ⟨p, hperformer, -⟩ := hcycles.sound.manned l hloaded
  exact ⟨p, hperformer⟩

/-- Two cycles on a host with hooks in its slot, and a load between them that the system has no thread for. In each
cycle a frame waits for the consumer when the module is unloaded; in the second one the consumer has plugged its
interface under another id by then, and a further load was refused. The host is as it was found after the load that
failed, and in the end. -/
theorem run_restores_twice :
    let own : Mac := ⟨[2, 0, 0, 0, 0, 2], rfl⟩
    let base : HookSet := { name := "", passesInput := fun _ _ => true, passesOutput := fun _ _ => .ok true }
    let before : List Patchbay.Turn :=
      [{ act := .host (.addInterface "" (some ⟨[2, 0, 0, 0, 0, 3], rfl⟩) 1500 1) }]
    let source : Settings.Source := fun _ => some "1"
    let script : Script := { plugs := [("", 3, own)], hold := some 64 }
    let frame : Turn := { move := .act (.host (.inject 1 own.octets 64)) }
    let first : List Turn := [{ move := .event .load }, frame, { move := .word .release }, { move := .event .unload }]
    let failed : List Turn := first ++ [{ move := .prepare source script (some "") }, { move := .event .load }]
    let turns : List Turn := failed ++
      [{ move := .prepare source script }, { move := .event .load }, frame, { move := .event .load },
        { move := .act (.splice (.unplug 2 3)) }, { move := .act (.splice (.plug 2 "" 4 own)) }, frame,
        { move := .word .release }, { move := .event .unload }]
    let start := (Scene.onBase none (some base)).run before
    let site : Site := ⟨start, { name := "", source := source, script := script }⟩
    let waiting (s : Site) := s.scene.network.plane.lines.map fun line => line.queue.nodes.length
    waiting (site.run (turns.take 2)) = #[1] ∧ waiting (site.run (turns.take 9)) = #[0, 1] ∧
      waiting (site.run (turns.take 13)) = #[0, 0, 1] ∧
      (site.run failed).scene.network.splices.size = 2 ∧ (site.run failed).module.loaded = none ∧
      start.network.AsFound (site.run failed).scene.network ∧
      (site.run turns).module.loaded = none ∧ start.network.AsFound (site.run turns).scene.network := by
  intro own base before source script frame first failed turns
  dsimp only
  refine ⟨by decide +kernel, by decide +kernel, by decide +kernel, by decide +kernel, by decide +kernel, ?_,
    by decide +kernel, ?_⟩
  · have hsuited : Suited ⟨(Scene.onBase none (some base)).run before,
        { name := "", source := source, script := script }⟩ failed := by
      refine ⟨trivial, ⟨rfl, nofun, trivial⟩, trivial, suits_unload ?_, trivial, trivial, trivial⟩
      decide +kernel
    exact (run_restores none (some base) before (by decide) "" (by decide) source script (by decide +kernel) failed
      hsuited).2 (by decide +kernel)
  · let l : Loaded := { settings := Settings.resolve source "", budget := 2, splice := 2 }
    have hsuited : Suited ⟨(Scene.onBase none (some base)).run before,
        { name := "", source := source, script := script }⟩ turns := by
      refine ⟨trivial, ⟨rfl, nofun, trivial⟩, trivial, suits_unload ?_, trivial, trivial, trivial, trivial,
        ⟨rfl, nofun, trivial⟩, trivial, ⟨rfl, fun _ => ⟨l, ?_, rfl⟩, trivial⟩, ⟨rfl, fun _ => ⟨l, ?_, rfl⟩, trivial⟩,
        ⟨rfl, nofun, trivial⟩, trivial, suits_unload ?_, trivial⟩
      all_goals decide +kernel
    exact (run_restores none (some base) before (by decide) "" (by decide) source script (by decide +kernel) turns
      hsuited).2 (by decide +kernel)

end Site

end Patchbay
