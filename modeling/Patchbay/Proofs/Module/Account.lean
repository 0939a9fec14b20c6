import Patchbay.Proofs.Estate.Watch
import Patchbay.Proofs.Module.Site
import Patchbay.Proofs.Slot.Apart
import Patchbay.Proofs.Slot.Links

/-!
# `Proofs.Module.Account` — an unload accounts for every byte

From its load on, the budget of a module is watched. When the module is unloaded, its consumer has ended and keeps
nothing, and its splice is torn down. Whatever of the budget's blocks is still somewhere is with others then, and the
unload tells of just that.

## Contents
* `UnloadReport.Accounts` — a report tells of the blocks of a budget that are somewhere, and of nothing else;
* `Site.Watches` — a module is loaded and its budget is watched; `Watches.load`, `Watches.run`;
* `Site.run_unload_accounts` — what any unload reports.
-/

namespace Patchbay

open Budget (Block Entry Heap Lane signedBound)

/-- A report tells of these blocks, and of nothing else. -/
structure UnloadReport.Accounts (r : UnloadReport) (c : Settings) (blocks : List Block) : Prop where
  /-- The figure is the sum of their sizes, as far as a counter can hold it. -/
  outstanding : total Block.size blocks < signedBound → r.outstanding = total Block.size blocks
  within : c.ceiling < 2 ^ 62 → total Block.size blocks ≤ c.ceiling
  /-- Each is listed once, with its size, and in the order of ids. -/
  listed : c.tracking = true → (r.leaks.entries.map Entry.listing).Perm (blocks.map Block.listing)
  ordered : (r.leaks.entries.map Entry.id).Pairwise (· < ·)
  bytes : c.tracking = true → r.leaks.bytes = total Block.size blocks
  silent : c.tracking = false → r.leaks.entries = []

/-! ## What a check for leaks reads off -/

namespace Memory

variable {key ceiling : Nat} {tracking : Bool} {m : Memory} {out back : Multiset Block} {b : Budget}

theorem report_collectLeaks (hb : m.budgets[key]? = some b) : (m.collectLeaks key).1 = b.collectLeaks.1 := by
  unfold Memory.collectLeaks
  rw [hb]

/-- A check changes nothing about what is outstanding. -/
theorem outstanding_collectLeaks (hb : m.budgets[key]? = some b) :
    (m.collectLeaks key).2.outstanding key = b.outstanding := by
  have hlt : key < m.budgets.size := (Array.getElem?_eq_some_iff.1 hb).1
  unfold Memory.collectLeaks Memory.outstanding
  simp only [hb]
  rw [setBudget, Array.getElem?_setIfInBounds_self_of_lt hlt]
  show b.collectLeaks.2.outstanding = _
  unfold Budget.collectLeaks
  split <;> rfl

/-- What a check tells of a budget that is watched, if these are its blocks that are out. -/
theorem Watched.accounts (h : m.Watched key ceiling tracking out back) {blocks : List Block}
    (hout : out.filter (·.owner = key) = blocks) {c : Settings} (hceiling : c.ceiling = ceiling)
    (htracking : c.tracking = tracking) (outcome : Shutdown) :
    UnloadReport.Accounts ⟨outcome, (m.collectLeaks key).1, (m.collectLeaks key).2.outstanding key⟩ c blocks := by
  obtain ⟨b, hb, hw⟩ := h.watched
  have ht := h.tallied.tallied hb
  rw [hout] at hw ht
  have hsum : ((blocks : Multiset Block).map Block.size).sum = total Block.size blocks := by
    rw [total_eq_sum, Multiset.map_coe, Multiset.sum_coe]
  -- without a ledger the check is silent, and with one it tells what is listed there
  have hsilent (hnone : b.ledger = none) : b.collectLeaks.1 = ⟨[]⟩ := by
    unfold Budget.collectLeaks
    rw [hnone]
  have htold {l : Budget.Ledger} (hl : b.ledger = some l) : b.collectLeaks.1 = ⟨l.entries⟩ := by
    unfold Budget.collectLeaks
    rw [hl]
    rfl
  have hlisted (htracks : c.tracking = true) : ∃ l, b.ledger = some l ∧ l.Lists blocks := by
    rw [htracking, ← hw.tracks] at htracks
    obtain ⟨l, hl⟩ := Option.isSome_iff_exists.1 htracks
    exact ⟨l, hl, hw.lists l hl⟩
  rw [report_collectLeaks hb, outstanding_collectLeaks hb]
  refine ⟨fun hbound => ?_, fun hc => ?_, fun htracks => ?_, ?_, fun htracks => ?_, fun htracks => ?_⟩
  · rw [← hsum] at hbound ⊢
    exact ht.outstanding_eq hbound
  · rw [← hsum, hceiling]
    exact hw.within (hceiling ▸ hc)
  · obtain ⟨l, hl, hlists⟩ := hlisted htracks
    rw [htold hl]
    exact Multiset.coe_eq_coe.1 hlists.listed
  · cases hl : b.ledger with
    | none =>
      rw [hsilent hl]
      exact List.Pairwise.nil
    | some l =>
      rw [htold hl]
      exact (hw.lists l hl).ordered
  · obtain ⟨l, hl, hlists⟩ := hlisted htracks
    rw [htold hl, Budget.LeakReport.bytes, total_eq_sum, total_eq_sum]
    have hperm := (Multiset.coe_eq_coe.1 hlists.listed).map fun listing => listing.2.1
    rw [List.map_map, List.map_map] at hperm
    exact hperm.sum_eq
  · have hnone : b.ledger = none := by
      rw [← Option.not_isSome_iff_eq_none, hw.tracks, ← htracking, htracks]
      exact Bool.false_ne_true
    rw [hsilent hnone]

end Memory

/-! ## What a splice that is let go of leaves -/

namespace Network

/-- A splice that ends has nothing plugged any more; one that does not is held. -/
theorem plugs_or_held_of_dropSplice (n : Network) (key : Nat) :
    ((n.dropSplice key).registry key).plugs = [] ∨ ∃ s, (n.dropSplice key).splices[key]? = some s ∧
      (0 < s.handles ∨ 0 < s.links) := by
  unfold dropSplice
  split
  · rename_i hnone
    refine .inl ?_
    rw [registry, hnone]
    rfl
  · rename_i hsome
    dsimp only
    generalize hn' : Network.modifySplice _ key _ = n'
    have hsize : key < n'.splices.size := by
      rw [← hn', size_modifySplice]
      split
      · rw [size_tearDown]
        exact (Array.getElem?_eq_some_iff.1 hsome).1
      · exact (Array.getElem?_eq_some_iff.1 hsome).1
    -- there is fuel for the splice itself, and whatever ends with it plugs nothing in
    obtain ⟨fuel, hfuel⟩ := Nat.exists_eq_succ_of_ne_zero (Nat.ne_of_gt (Nat.zero_lt_of_lt hsize))
    have habandoned : ((n'.abandon key).registry key).plugs = [] := by
      rw [registry, getElem?_abandon_self (Array.getElem?_eq_getElem hsize)]
      rfl
    have hdwindled {n'' : Network} (hd : (n'.abandon key).Dwindles n'') : (n''.registry key).plugs = [] :=
      List.subset_nil.1 (habandoned ▸ hd key)
    unfold dispose
    rw [hfuel, disposeWithin, Array.getElem?_eq_getElem hsize]
    dsimp only
    split
    · refine .inl ?_
      split
      · exact habandoned
      · refine hdwindled (.trans ?_ (dwindles_disposeWithin fuel _ _))
        exact dwindles_modifySplice _ _ fun _ _ h => h
    · rename_i hheld
      refine .inr ⟨n'.splices[key], Array.getElem?_eq_getElem hsize, ?_⟩
      omega

end Network

namespace Site

open Estate (ofLists ofLists_add)

variable {k : Memory.Bookkeeping} {s : Site} {past : History}

/-! ## All that is out -/

/-- The blocks that consumers keep. -/
def keptBlocks (s : Site) : List Block := s.performers.flatMap fun p => p.held.toList

theorem estate_performers (s : Site) : estate s.performers = ofLists 0 [] [] s.keptBlocks [] := by
  have h (p : Performer) : estate p = ofLists 0 [] [] p.held.toList [] := by
    show estate p.held = _
    cases p.held <;> rfl
  rw [estate_eq_ofLists h, sum_map_zero, flatMap_empty, flatMap_empty, flatMap_empty]
  rfl

/-- Consumers hold no plugs. -/
theorem plugs_settled : (estate s.scene.items + estate s.performers + estate s.scene.network.splices.toList).plugs =
    s.scene.plugs := by
  rw [← Scene.plugs_scene, estate_performers, Estate.plugs_add, Estate.plugs_add, Estate.plugs_add]
  exact congrArg (· + _) (add_zero _)

/-- The bookkeeping is about the blocks that are somewhere on the host and those that consumers keep. -/
theorem out_of_settled (hs : s.scene.network.Settled k past (estate s.scene.items + estate s.performers)) :
    k s.scene.network.memory ((s.scene.blocks ++ s.keptBlocks : List Block) + backing s.scene.references)
      past.back := by
  have hplugs := plugs_settled.trans s.scene.plugs_scene.symm
  have hall : estate s.scene.items + estate s.performers + estate s.scene.network.splices.toList +
      s.scene.network.plane.kept
        (estate s.scene.items + estate s.performers + estate s.scene.network.splices.toList).plugs =
      ofLists s.scene.tickets s.scene.segments s.scene.views (s.scene.blocks ++ s.keptBlocks) s.scene.plugs := by
    rw [hplugs]
    calc _ = estate s.scene.items + estate s.scene.network.splices.toList + s.scene.network.plane.kept
          (estate s.scene.items + estate s.scene.network.splices.toList).plugs + estate s.performers := by abel
      _ = _ := by
        rw [Scene.estate_scene, estate_performers, ofLists_add, Nat.add_zero, List.append_nil, List.append_nil,
          List.append_nil]
  have hmemory := hs.plane.memory
  rw [hall] at hmemory
  exact hmemory.budgets

/-! ## From a load to the unload -/

/-- A consumer's memory is of a budget that is there. -/
theorem Sound.owned (h : s.Sound Memory.Tallied) {p : Performer} (hp : p ∈ s.performers) {block : Block}
    (hheld : p.held = some block) : block.owner < s.scene.network.memory.budgets.size := by
  obtain ⟨past, hs⟩ := h.settled
  have hkept : block ∈ s.keptBlocks :=
    List.mem_flatMap.2 ⟨p, hp, by rw [hheld]; exact List.mem_singleton_self block⟩
  refine (out_of_settled hs).owned block (Multiset.mem_add.2 (.inl (Multiset.mem_add.2 (.inl ?_))))
  exact Multiset.mem_coe.2 (List.mem_append_right _ hkept)

/-- The module is loaded and its budget is watched. None of its earlier consumers has memory of it. -/
structure Watches (s : Site) (l : Loaded) : Prop where
  loaded : s.module.loaded = some l
  sound : s.Sound (Memory.Watched l.budget l.settings.ceiling l.settings.tracking)
  strangers : ∀ p ∈ s.module.strays, ∀ block, p.held = some block → block.owner ≠ l.budget

namespace Watches

variable {l : Loaded} {p : Performer}

/-- From a load on the budget is watched. -/
theorem load (h : s.Sound Memory.Tallied) (hloaded : s.module.loaded = none)
    (hl : (s.perform (.event .load)).module.loaded = some l) : (s.perform (.event .load)).Watches l := by
  have hload : s.module.load s.scene.network = (some (.ok ()), s.module.afterLoad s.scene.network) := by
    rcases Module.load_cases hloaded s.scene.network with ⟨-, hload⟩ | ⟨-, hload⟩
    · exact hload
    · -- without a thread nothing would be loaded
      simp only [perform, Module.handle, hload] at hl
      cases hloaded.symm.trans hl
  refine ⟨hl, ?_, ?_⟩
  all_goals
    simp only [perform, Module.handle, hload] at hl ⊢
    obtain rfl := Option.some.inj hl
  · exact h.load fun past e hs => hs.watch s.module.settings.ceiling s.module.settings.tracking
  · intro p hp block hheld
    -- what was taken before is of an earlier budget
    have hold : p ∈ s.performers := List.mem_append.2 (List.mem_append.1 hp).symm
    exact Nat.ne_of_lt (h.owned hold hheld)

/-- A consumer of an earlier load that goes on takes no more memory. -/
theorem stray (h : s.Watches l) (place : Nat) (w : Word) :
    ∀ p ∈ (s.perform (.stray place w)).module.strays, ∀ block, p.held = some block → block.owner ≠ l.budget := by
  unfold perform
  dsimp only
  split
  · exact h.strangers
  · rename_i q hq
    have hmem : q ∈ s.module.strays := List.mem_of_getElem? hq
    intro p hp block hheld
    rcases List.mem_or_eq_of_mem_set hp with hp | rfl
    · exact h.strangers p hp block hheld
    · have hstarted := h.sound.started q (List.mem_append_right _ hmem)
      rcases Performer.held_hear hstarted s.scene.network w with hkept | hnone
      · exact h.strangers q hmem block (hkept.symm.trans hheld)
      · cases hnone.symm.trans hheld

/-- Until the module is unloaded, and while nobody else checks its budget, it stays watched. -/
theorem step (h : s.Watches l) (t : Turn) (hstays : t.move ≠ .event .unload)
    (hunchecked : t.move ≠ .act (.block (.collectLeaks l.budget))) : (s.step t).Watches l := by
  obtain ⟨m, lane, heap⟩ := t
  have hsound : (s.step ⟨m, lane, heap⟩).Sound _ := h.sound.step ⟨m, lane, heap⟩ fun key hkey => by
    rcases hkey with hact | ⟨hunload, -⟩
    · refine Memory.Watched.overlooks fun heq => hunchecked ?_
      rw [← heq]
      exact hact
    · exact absurd hunload hstays
  -- all but the settlement is a matter of the module alone
  let s' := s.onLane lane heap
  have hloaded : s'.module.loaded = some l := h.loaded
  have hsame (heq : (s'.perform m).module.loaded = s'.module.loaded)
      (hstrays : (s'.perform m).module.strays = s'.module.strays) : (s'.perform m).Watches l :=
    ⟨heq.trans hloaded, hsound, by rw [hstrays]; exact h.strangers⟩
  cases m with
  | event event =>
    cases event with
    | load =>
      -- it is loaded, so a further load is refused
      have hrefused : s'.perform (.event .load) = s' := by
        simp only [perform, Module.handle, Module.load_refused hloaded]
        rfl
      refine hsame ?_ ?_ <;> rw [hrefused]
    | unload => exact absurd rfl hstays
    | quiesce => exact hsame rfl rfl
    | shutdown => exact hsame rfl rfl
  | word w =>
    refine hsame ?_ ?_
    all_goals
      simp only [perform, Module.hear_eq]
      split <;> rfl
  | stray place w =>
    have hwatched : s'.Watches l := ⟨hloaded, h.sound.onLane lane heap, h.strangers⟩
    refine ⟨?_, hsound, hwatched.stray place w⟩
    show (s'.perform (.stray place w)).module.loaded = _
    unfold perform
    dsimp only
    split <;> exact hloaded
  | prepare source script refusal => exact hsame rfl rfl
  | act act => exact hsame rfl rfl

theorem run (h : s.Watches l) (turns : List Turn) (hstays : ∀ t ∈ turns, t.move ≠ .event .unload)
    (hunchecked : ∀ t ∈ turns, t.move ≠ .act (.block (.collectLeaks l.budget))) : (s.run turns).Watches l := by
  induction turns generalizing s with
  | nil => exact h
  | cons t rest ih =>
    rw [List.forall_mem_cons] at hstays hunchecked
    exact ih (h.step t hstays.1 hunchecked.1) hstays.2 hunchecked.2

theorem onLane (h : s.Watches l) (lane : Lane) (heap : Heap) : (s.onLane lane heap).Watches l :=
  ⟨h.loaded, h.sound.onLane lane heap, h.strangers⟩

end Watches

/-- What a module leaves when it is unloaded: nothing of it is its own any more. -/
structure Bare (s : Site) (l : Loaded) : Prop where
  /-- The consumer has ended. -/
  ended : ∀ p, s.module.performer = some p → p.held = none ∧ p.splice = none
  /-- Nobody who ever was a consumer keeps memory of the budget. -/
  consumers : ∀ p ∈ s.performers, ∀ block, p.held = some block → block.owner ≠ l.budget
  /-- A queue in which something waits is that of a plug that somebody holds. -/
  queues : ∀ key line, s.scene.network.plane.lines[key]? = some line → line.queue.nodes ≠ [] →
    ∃ plug ∈ s.scene.plugs, plug.key = key
  /-- If anything is plugged into the splice, somebody else has it. -/
  splice : (s.scene.network.registry l.splice).plugs = [] ∨ ∃ splice,
    s.scene.network.splices[l.splice]? = some splice ∧ (0 < splice.handles ∨ 0 < splice.links)

/-- A queue in which something waits is that of a plug that somebody holds. -/
theorem exists_plug_of_waiting (hs : s.scene.network.Settled k past (estate s.scene.items + estate s.performers))
    {key : Nat} {line : Line} (hline : s.scene.network.plane.lines[key]? = some line)
    (hwaiting : line.queue.nodes ≠ []) : ∃ plug ∈ s.scene.plugs, plug.key = key := by
  have hpos : 0 < line.holders := Nat.pos_of_ne_zero fun hzero => hwaiting (hs.plane.idle hline hzero)
  rw [hs.plane.held hline, plugs_settled] at hpos
  exact holdersOf_pos.1 hpos

/-- Where callers have nothing and nothing is plugged, there is nothing of any budget. -/
theorem Bare.blocksOf_eq_nil {l : Loaded} (h : s.Bare l) (hitems : s.scene.items = [])
    (hplugs : s.scene.plugs = []) (key : Nat) : s.scene.blocksOf key = [] := by
  have hqueues : ∀ q ∈ s.scene.queues, q.nodes = [] := by
    intro q hq
    obtain ⟨line, hline, rfl⟩ := List.mem_map.1 hq
    obtain ⟨key, hkey⟩ := List.mem_iff_getElem?.1 hline
    rw [Array.getElem?_toList] at hkey
    by_contra hwaiting
    obtain ⟨plug, hplug, -⟩ := h.queues key line hkey hwaiting
    rw [hplugs] at hplug
    cases hplug
  have hsegments : s.scene.segments = [] := by
    rw [Scene.segments, hitems, List.flatMap_nil, List.nil_append, List.flatMap_eq_nil_iff]
    intro q hq
    rw [Queue.frames, hqueues q hq]
    rfl
  have hblocks : s.scene.blocks = [] := by
    rw [Scene.blocks, hitems, hplugs, List.flatMap_nil, List.dedup_nil, List.map_nil, List.nil_append,
      List.nil_append, List.flatMap_eq_nil_iff]
    intro q hq
    rw [hqueues q hq]
    rfl
  rw [Scene.blocksOf, hblocks, Scene.references, hsegments, Scene.views, hitems]
  rfl

/-- The end of a load whose budget was watched, if the consumer stops in time. -/
theorem Watches.unload {l : Loaded} (h : s.Watches l) :
    ∃ r m n, s.module.unload s.scene.network = (.ok r, m, n) ∧ (r.shutdown ≠ .timedOut →
      let s' : Site := ⟨{ s.scene with network := n }, m⟩
      r.Accounts l.settings (s'.scene.blocksOf l.budget) ∧ s'.Bare l) := by
  obtain ⟨p, hperformer, hattached, hlaunched⟩ := h.sound.manned l h.loaded
  have hp : p ∈ s.performers := List.mem_append_left _ (by rw [hperformer]; exact List.mem_singleton_self p)
  have horderly := h.sound.orderly p hp
  refine ⟨_, _, _, Module.unload_eq h.loaded hperformer, fun hintime => ?_⟩
  -- the consumer is gone, and with it all that it had
  have hgone := Performer.gone_of_shutdown horderly hattached hlaunched hintime
  obtain ⟨hheld, hsplice⟩ := (horderly.shutdown s.scene.network).gone hgone
  let s₁ : Site := ⟨{ s.scene with network := Module.letGo l p s.scene.network },
    { s.module with loaded := none, performer := some (p.shutdown s.scene.network).2.1 }⟩
  have hsound : s₁.Sound (Memory.Watched l.budget l.settings.ceiling l.settings.tracking) := h.sound.letGo hperformer
  have hconsumers : ∀ q ∈ s₁.performers, ∀ block, q.held = some block → block.owner ≠ l.budget := by
    intro q hq block hblock
    rcases List.mem_append.1 hq with hq | hq
    · obtain rfl := List.mem_singleton.1 hq
      cases hheld.symm.trans hblock
    · exact h.strangers q hq block hblock
  obtain ⟨past, hs⟩ := hsound.settled
  have hwatched := out_of_settled hs
  refine ⟨hwatched.accounts ?_ rfl rfl _, ⟨?_, hconsumers, ?_, ?_⟩⟩
  · -- of the blocks of the budget, none is with a consumer
    have hkept : s₁.keptBlocks.filter (fun block => block.owner = l.budget) = [] := by
      refine List.filter_eq_nil_iff.2 fun block hblock => ?_
      obtain ⟨q, hq, hin⟩ := List.mem_flatMap.1 hblock
      rw [decide_eq_true_iff]
      exact hconsumers q hq block (Option.mem_toList.1 hin)
    rw [backing, Multiset.coe_dedup, Multiset.filterMap_coe, Multiset.coe_add, Multiset.filter_coe,
      List.filter_append, List.filter_append, hkept, List.append_nil, ← List.filter_append]
    rfl
  · intro q hq
    obtain rfl := Option.some.inj hq
    exact ⟨hheld, hsplice⟩
  · intro key line hline
    exact exists_plug_of_waiting hs hline
  · exact Network.plugs_or_held_of_dropSplice _ l.splice

/-- **An unload accounts for every byte.** A module is loaded on a host, after whatever happened there before, and
until it is unloaded anything happens but a check of its budget by somebody else. Then the unload is granted. If the
consumer stopped in time, the report tells of the blocks of the budget that are still somewhere, and nothing that is
left is the module's own; so where callers keep nothing, nothing is outstanding. -/
theorem run_unload_accounts (limit : Option Nat) (name : String) (source : Settings.Source) (script : Script)
    (before : List Turn) (lane : Lane) (heap : Heap) {l : Loaded}
    (hunloaded : ((new limit name source script).run before).module.loaded = none)
    (hloaded : (((new limit name source script).run before).step ⟨.event .load, lane, heap⟩).module.loaded = some l)
    (during : List Turn) (hstays : ∀ t ∈ during, t.move ≠ .event .unload)
    (hunchecked : ∀ t ∈ during, t.move ≠ .act (.block (.collectLeaks l.budget))) (lane' : Lane) (heap' : Heap) :
    let start := ((new limit name source script).run before).step ⟨.event .load, lane, heap⟩
    let s := (start.run during).onLane lane' heap'
    ∃ r m n, s.module.unload s.scene.network = (.ok r, m, n) ∧ (r.shutdown ≠ .timedOut →
      let s' : Site := ⟨{ s.scene with network := n }, m⟩
      r.Accounts l.settings (s'.scene.blocksOf l.budget) ∧ s'.Bare l ∧
        (s'.scene.items = [] → s'.scene.plugs = [] → r.outstanding = 0)) := by
  intro start s
  have hsound : ((new limit name source script).run before).Sound Memory.Tallied :=
    (Sound.new limit name source script).run before fun _ _ _ key _ => Memory.Tallied.overlooks key
  have hwatches : s.Watches l :=
    ((Watches.load (hsound.onLane lane heap) hunloaded hloaded).run during hstays hunchecked).onLane lane' heap'
  obtain ⟨r, m, n, hunload, hreport⟩ := hwatches.unload
  refine ⟨r, m, n, hunload, fun hintime => ?_⟩
  obtain ⟨haccounts, hbare⟩ := hreport hintime
  refine ⟨haccounts, hbare, fun hitems hplugs => ?_⟩
  have hnone := hbare.blocksOf_eq_nil hitems hplugs l.budget
  dsimp only at haccounts
  rw [hnone] at haccounts
  exact haccounts.outstanding (Nat.zero_lt_succ _)

/-- Of a consumer's plug and its memory only the plug is left, which somebody else holds, and beside it a block that
was taken through the splice and made smaller. -/
theorem run_unload_accounts_held :
    let source : Settings.Source := fun _ => some "1"
    let script : Script := { plugs := [("", 3, ⟨[2, 0, 0, 0, 0, 2], rfl⟩)], hold := some 64 }
    let before : List Turn :=
      [{ move := .act (.host (.addInterface "" (some ⟨[2, 0, 0, 0, 0, 3], rfl⟩) 1500 1)) }]
    let during : List Turn :=
      [{ move := .act (.queue (.hold 0 3)) }, { move := .act (.splice (.buffer 0 100)) },
        { move := .act (.block (.resize 0 40)), lane := ⟨2, by decide⟩ }, { move := .word .release }]
    let start := ((new none "" source script).run before).step ⟨.event .load, .first, .standard⟩
    let s := (start.run during).onLane .first .standard
    ∃ r m n, s.module.unload s.scene.network = (.ok r, m, n) ∧ r.shutdown = .stopped ∧ r.outstanding = 168 + 40 ∧
      r.leaks.entries.map Entry.listing = [(1, 168, .plain), (3, 40, .plain)] ∧
      r.Accounts (Settings.resolve source "") (({ s.scene with network := n } : Scene).blocksOf 0) := by
  intro source script before during
  dsimp only
  have hloaded : (((new none "" source script).run before).step ⟨.event .load, .first, .standard⟩).module.loaded =
      some { settings := Settings.resolve source "", budget := 0, splice := 0 } := by decide +kernel
  obtain ⟨r, m, n, hunload, hreport⟩ := run_unload_accounts none "" source script before .first .standard
    (by decide +kernel) hloaded during (by simp [during]) (by simp [during]) .first .standard
  have hfigures : (Except.ok r : Except ModuleFailure UnloadReport).toOption.map
      (fun r => (r.shutdown, r.outstanding, r.leaks.entries.map Entry.listing)) =
        some (.stopped, 168 + 40, [(1, 168, .plain), (3, 40, .plain)]) := by
    rw [← show _ = Except.ok r from congrArg Prod.fst hunload]
    decide +kernel
  simp only [Except.toOption, Option.map_some, Option.some.injEq, Prod.mk.injEq] at hfigures
  obtain ⟨hstopped, houtstanding, hlisted⟩ := hfigures
  obtain ⟨haccounts, -, -⟩ := hreport (by rw [hstopped]; exact nofun)
  exact ⟨r, m, n, hunload, hstopped, houtstanding, hlisted, haccounts⟩

end Site

end Patchbay
