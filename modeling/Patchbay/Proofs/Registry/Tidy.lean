import Patchbay.Proofs.Registry.Residue

/-!
# `Proofs.Registry.Tidy` — frames wait only for plugs

What comes in is queued on the line of a plug that some registry lists. The line is new and empty when the plug is let
in, and it is cleared when the plug goes. So apart from lines that were in use otherwise, frames wait only where there
is a plug to ask for them.

## Contents
* `Registry.Clears` — no frame is left waiting on the line of a plug that goes; `clears_plug`, `clears_unplugEach`;
* `Network.Lists` — some registry lists a plug on a line;
* `Network.Tidy` — frames wait only there, and on some first lines; `Tidy.routine`, `Tidy.onRegistry`.
-/

namespace Patchbay

/-! ## Lines that come and go -/

namespace Backplane

variable {p : Backplane} {key : Nat}

/-- Nothing waits on a new line. -/
theorem waits_push {m : Memory} {t : Table}
    (h : ({ memory := m, table := t, lines := p.lines.push {} } : Backplane).Waits key) : p.Waits key := by
  unfold Waits at h ⊢
  dsimp only at h
  rw [Array.getD_eq_getD_getElem?, Array.getElem?_push] at h
  rw [Array.getD_eq_getD_getElem?]
  split at h
  · exact absurd rfl h
  · exact h

/-- Nothing comes to wait anywhere when a holder of a plug goes. -/
theorem waits_dropPlug {plug : Plug} (h : (p.dropPlug plug).Waits key) : p.Waits key := by
  have hroutine : Network.Routine (fun _ => False) { plane := p } { plane := p.dropPlug plug } :=
    Network.routine_dropPlug _ plug
  exact (hroutine.waits h).resolve_right id

/-- Where something waits there is a line. -/
theorem Waits.lt (h : p.Waits key) : key < p.lines.size := by
  by_contra hge
  refine h ?_
  rw [Array.getD_eq_getD_getElem?, Array.getElem?_eq_none (Nat.le_of_not_lt hge)]
  rfl

end Backplane

namespace Registry

variable {r r' r'' : Registry} {p p' p'' : Backplane}

/-- What waits behind an operation on a registry waited before, and the plugs on its line are still there. -/
def Clears (r : Registry) (p : Backplane) (r' : Registry) (p' : Backplane) : Prop :=
  ∀ key, p'.Waits key → p.Waits key ∧ ∀ plug ∈ r.plugs, plug.key = key → plug ∈ r'.plugs

/-- Where nothing happens, the same waits on the lines of the same plugs. -/
theorem Clears.refl (r : Registry) (p : Backplane) : r.Clears p r p :=
  fun _ hwaits => ⟨hwaits, fun _ hplug _ => hplug⟩

/-- What comes to wait nowhere on the way comes to wait nowhere at all. -/
theorem Clears.trans (h : r.Clears p r' p') (h' : r'.Clears p' r'' p'') : r.Clears p r'' p'' := by
  intro key hwaits
  obtain ⟨hmid, hkept'⟩ := h' key hwaits
  obtain ⟨hold, hkept⟩ := h key hmid
  exact ⟨hold, fun plug hplug heq => hkept' plug (hkept plug hplug heq) heq⟩

/-- On the line of a new plug nothing waits. -/
theorem clears_plug (r : Registry) (p : Backplane) (budget : Nat) (name : String) (id : Nat) (virtualMac : Mac) :
    r.Clears p (r.plug p budget name id virtualMac).2.1 (r.plug p budget name id virtualMac).2.2 := by
  rcases r.plug_cases p budget name id virtualMac with ⟨e, m, hr⟩ | ⟨i, realMac, record, m, -, -, -, -, hr⟩
  · rw [hr]
    exact fun key hwaits => ⟨hwaits, fun plug hplug _ => hplug⟩
  · rw [hr]
    exact fun key hwaits => ⟨Backplane.waits_push hwaits, fun plug hplug _ => List.mem_append_left _ hplug⟩

/-- The line of a plug that goes is cleared. -/
theorem clears_unplug (hr : r.Sound) (p : Backplane) (id : Nat) :
    r.Clears p (r.unplug p id).2.1 (r.unplug p id).2.2 := by
  cases hfind : r.byId? id with
  | none =>
    have hsame : r.unplug p id = (false, r, p) := by
      unfold unplug
      rw [hfind]
    rw [hsame]
    exact .refl r p
  | some gone =>
    have hplugs := plugs_unplug hr p id
    intro key hwaits
    obtain ⟨hne, hold⟩ : key ≠ gone.key ∧ p.Waits key := by
      unfold unplug at hwaits
      rw [hfind] at hwaits
      have hcleared := Backplane.waits_dropPlug hwaits
      exact Backplane.waits_clear hcleared
    refine ⟨hold, fun plug hplug heq => ?_⟩
    rw [hplugs, List.mem_filter]
    refine ⟨hplug, decide_eq_true fun hid => hne ?_⟩
    -- no other plug has the id
    obtain rfl : gone = plug := Option.some.inj (hfind.symm.trans (hid ▸ hr.byId? hplug))
    exact heq.symm

/-- Each id that is unplugged leaves an empty line. -/
theorem clears_unplugEach (hr : r.Sound) (p : Backplane) (ids : List Nat) :
    r.Clears p (r.unplugEach p ids).2.1 (r.unplugEach p ids).2.2 := by
  induction ids generalizing r p with
  | nil => exact .refl r p
  | cons id rest ih => exact (clears_unplug hr p id).trans (ih (hr.unplug p id) _)

end Registry

namespace Network

variable {n n' : Network} {key other first : Nat} {s : Splice}

/-! ## Registries of other splices -/

/-- The same splice has the same registry. -/
theorem registry_congr (h : n'.splices[key]? = n.splices[key]?) : n'.registry key = n.registry key := by
  rw [registry, registry, h]

/-- A change of a splice that leaves its registry leaves all of them. -/
theorem registry_modifySplice_of (n : Network) (key other : Nat) {f : Splice → Splice}
    (hf : ∀ s, (f s).registry = s.registry) : (n.modifySplice key f).registry other = n.registry other := by
  rw [registry_modifySplice]
  split
  · simp only [hf]
    rfl
  · rfl

/-! ## Tidy lines -/

/-- Some registry lists a plug on a line. -/
def Lists (n : Network) (line : Nat) : Prop := ∃ key, ∃ plug ∈ (n.registry key).plugs, plug.key = line

/-- The lines that are listed are those that registries list. -/
theorem listsOnly_lists (n : Network) : n.ListsOnly n.Lists := fun key plug hplug => ⟨key, plug, hplug, rfl⟩

/-- Frames wait only on the first lines, and on those of plugs that a registry lists. -/
def Tidy (n : Network) (first : Nat) : Prop := ∀ line, n.plane.Waits line → line < first ∨ n.Lists line

namespace Tidy

/-- A host stays tidy while the same plugs are listed and nothing comes to wait but where it may. -/
theorem of_plugs (h : n.Tidy first) (hwaits : ∀ line, n'.plane.Waits line → n.plane.Waits line ∨ n.Lists line)
    (hplugs : ∀ key, (n'.registry key).plugs = (n.registry key).plugs) : n'.Tidy first := by
  intro line hline
  have hlists : n'.Lists line ↔ n.Lists line := by
    unfold Lists
    simp only [hplugs]
  rw [hlists]
  rcases hwaits line hline with hold | hlist
  · exact h line hold
  · exact .inr hlist

/-- Routine steps leave a host tidy. -/
theorem routine (h : n.Tidy first) (hr : n.Routine n.Lists n') : n'.Tidy first :=
  h.of_plugs (fun _ hwaits => hr.waits hwaits) fun key => congrArg Registry.plugs (hr.beside.registry_eq key)

/-- So does a change of a registry that leaves nothing waiting on lines it does not list. -/
theorem onRegistry {α : Type} {f : Registry → Backplane → α × Registry × Backplane} (h : n.Tidy first)
    (hs : n.splices[key]? = some s)
    (hclears : (n.registry key).Clears n.plane (f (n.registry key) n.plane).2.1 (f (n.registry key) n.plane).2.2) :
    (n.onRegistry key f).2.Tidy first := by
  obtain ⟨hnew, hplane⟩ := registry_onRegistry_self hs f
  intro line hwaits
  rw [hplane] at hwaits
  obtain ⟨hold, hkept⟩ := hclears line hwaits
  rcases h line hold with hlt | ⟨lister, plug, hplug, hline⟩
  · exact .inl hlt
  · refine .inr ⟨lister, plug, ?_, hline⟩
    by_cases heq : key = lister
    · subst heq
      rw [registry_eq hnew]
      exact hkept plug hplug hline
    · rw [registry_congr (getElem?_onRegistry_of_ne heq)]
      exact hplug

end Tidy

end Network

end Patchbay
