import Mathlib.Data.List.Perm.Subperm
import Patchbay.Proofs.Slot.Beside

/-!
# `Proofs.Slot.Order` — the splices that a hook leads to

A splice hands a chain to what it remembers, that hands it to what it remembers, and so on down to a hook set of
somebody else or to nothing. As each remembers what was in the slot when it was started, the splices on the way get
older, so the way ends, and `Network.path` walks all of it.

## Contents
* `Network.Leads` — the splices from a hook down to the base; `Leads.hooksFrom`, `Leads.path_eq`;
* `Network.startSplice_eq`, `Leads.start` — a splice that is started is put in front of what led to the slot.
-/

namespace Patchbay

namespace Network

variable {n n' : Network} {base : Option HookSet} {hook : Option Hook} {key : Nat} {keys : List Nat}

/-- From a hook on, splices remember one another down to the base, each an older one. -/
inductive Leads (n : Network) (base : Option HookSet) : Option Hook → List Nat → Prop where
  | base : Leads n base (base.map .foreign) []
  | splice {key : Nat} {keys : List Nat} (older : ∀ other ∈ keys, other < key)
      (rest : Leads n base (n.previous? key) keys) : Leads n base (some (.splice key)) (key :: keys)

namespace Leads

/-- Only what the splices on the way remember has a part in it. -/
theorem congr (h : n.Leads base hook keys) (hsame : ∀ key ∈ keys, n'.previous? key = n.previous? key) :
    n'.Leads base hook keys := by
  induction h with
  | base => exact .base
  | splice older rest ih =>
    rw [List.forall_mem_cons] at hsame
    refine .splice older ?_
    rw [hsame.1]
    exact ih hsame.2

theorem nodup (h : n.Leads base hook keys) : keys.Nodup := by
  induction h with
  | base => exact List.nodup_nil
  | splice older rest ih => exact List.nodup_cons.2 ⟨fun hmem => Nat.lt_irrefl _ (older _ hmem), ih⟩

/-- The way is walked to its end if there is fuel for it. -/
theorem hooksFrom {fuel : Nat} (h : n.Leads base hook keys) (hfuel : keys.length < fuel) :
    n.hooksFrom fuel hook = keys.map .splice ++ (base.map Hook.foreign).toList := by
  induction h generalizing fuel with
  | base =>
    cases fuel with
    | zero => exact absurd hfuel (Nat.not_lt_zero _)
    | succ fuel => cases base <;> rfl
  | splice older rest ih =>
    cases fuel with
    | zero => exact absurd hfuel (Nat.not_lt_zero _)
    | succ fuel =>
      rw [Network.hooksFrom, ih (Nat.lt_of_succ_lt_succ hfuel)]
      rfl

/-- No way is longer than there are splices. -/
theorem length_le {size : Nat} (h : n.Leads base hook keys) (hsize : ∀ key ∈ keys, key < size) :
    keys.length ≤ size := by
  have hsub : keys.Subperm (List.range size) :=
    List.subperm_of_subset h.nodup fun key hkey => List.mem_range.2 (hsize key hkey)
  have hle := hsub.length_le
  rwa [List.length_range] at hle

theorem path_eq (h : n.Leads base n.slot keys) (hsize : ∀ key ∈ keys, key < n.splices.size) :
    n.path = keys.map .splice ++ (base.map Hook.foreign).toList :=
  h.hooksFrom (Nat.lt_succ_of_le (h.length_le hsize))

theorem of_sameSeats (h : n.Leads base hook keys) (hs : n.SameSeats n') : n'.Leads base hook keys :=
  h.congr fun key _ => hs.previous?_eq key

end Leads

/-! ## What a splice remembers -/

/-- A change of one splice that leaves alone what it remembers. -/
theorem previous?_modifySplice (n : Network) (key other : Nat) {f : Splice → Splice}
    (hf : ∀ s, (f s).previous = s.previous) : (n.modifySplice key f).previous? other = n.previous? other := by
  unfold previous? modifySplice
  rw [Array.getElem?_modify]
  split
  · cases n.splices[other]? with
    | none => rfl
    | some s => exact congrArg Option.join (hf s)
  · rfl

/-- The last of the entries changed. -/
theorem modify_push {α : Type} (a : Array α) (x : α) (f : α → α) :
    (a.push x).modify a.size f = a.push (f x) := by
  apply Array.ext_getElem?
  intro i
  rw [Array.getElem?_modify, Array.getElem?_push, Array.getElem?_push]
  by_cases h : i = a.size
  · rw [if_pos h.symm, if_pos h, if_pos h]
    rfl
  · rw [if_neg (Ne.symm h), if_neg h, if_neg h]

/-- A splice that is started stands behind the others, remembers what was in the slot, and is in the slot. -/
theorem startSplice_eq (n : Network) (budget : Nat) :
    n.startSplice budget = (n.splices.size, { n with
      splices := n.splices.push
        { budget := budget, previous := some n.slot, active := true, handles := 1, links := 1 }
      slot := some (.splice n.splices.size) }) := by
  unfold startSplice addSplice exchangeHook link tellPrevious
  simp [modifySplice, modify_push, Hook.spliceKey?]

theorem slot_startSplice (n : Network) (budget : Nat) :
    (n.startSplice budget).2.slot = some (.splice n.splices.size) := by
  rw [startSplice_eq]

theorem getElem?_startSplice (n : Network) (budget key : Nat) :
    (n.startSplice budget).2.splices[key]? =
      if key = n.splices.size then
        some { budget := budget, previous := some n.slot, active := true, handles := 1, links := 1 }
      else n.splices[key]? := by
  rw [startSplice_eq]
  exact Array.getElem?_push

theorem previous?_startSplice (n : Network) (budget key : Nat) :
    (n.startSplice budget).2.previous? key = if key = n.splices.size then n.slot else n.previous? key := by
  rw [previous?, getElem?_startSplice]
  split <;> rfl

/-- What led to the slot leads on behind the splice that is started. -/
theorem Leads.start (h : n.Leads base n.slot keys) (hsize : ∀ key ∈ keys, key < n.splices.size) (budget : Nat) :
    (n.startSplice budget).2.Leads base (n.startSplice budget).2.slot (n.splices.size :: keys) := by
  rw [slot_startSplice]
  refine .splice hsize ?_
  rw [previous?_startSplice, if_pos rfl]
  refine h.congr fun key hkey => ?_
  rw [previous?_startSplice, if_neg (Nat.ne_of_lt (hsize key hkey))]

end Network

end Patchbay
