import Mathlib.Algebra.BigOperators.Group.Multiset.Basic
import Mathlib.Algebra.GroupWithZero.Nat
import Mathlib.Data.List.Perm.Basic
import Patchbay.Total

/-!
# `Proofs.Place` — one entry of a list and all the others

Whoever keeps values in a list takes one out by its place, or puts another one there. As a collection the list is
that entry and the others, which stay.

## Contents
* `coe_eq_cons_eraseIdx`, `coe_set_eq_cons_eraseIdx` — the list as a collection;
* `sum_map_eq_add_eraseIdx`, `sum_map_set` — a figure summed over the list;
* `set_eq_map`, `eraseIdx_eq_filter` — an entry known by its key;
* `total_eq_sum` — a total is such a sum.
-/

namespace Patchbay

variable {α : Type} {l : List α} {i : Nat} {a : α}

/-- Order apart, a list is any one of its entries and the others. -/
theorem coe_eq_cons_eraseIdx (h : l[i]? = some a) :
    (l : Multiset α) = a ::ₘ (l.eraseIdx i : Multiset α) := by
  obtain ⟨hi, rfl⟩ := List.getElem?_eq_some_iff.1 h
  exact Multiset.coe_eq_coe.2 (List.getElem_cons_eraseIdx_perm hi).symm

/-- So it is with an entry that was put in the place of another one. -/
theorem coe_set_eq_cons_eraseIdx (h : l[i]? = some a) (b : α) :
    (l.set i b : Multiset α) = b ::ₘ (l.eraseIdx i : Multiset α) := by
  obtain ⟨hi, -⟩ := List.getElem?_eq_some_iff.1 h
  exact Multiset.coe_eq_coe.2 (List.set_perm_cons_eraseIdx hi b)

section Sum

variable {M : Type} [AddCommMonoid M] (f : α → M)

/-- An entry that is taken out of its place takes its share of a sum along. -/
theorem sum_map_eq_add_eraseIdx (h : l[i]? = some a) :
    (l.map f).sum = f a + ((l.eraseIdx i).map f).sum := by
  obtain ⟨hi, rfl⟩ := List.getElem?_eq_some_iff.1 h
  rw [← List.sum_cons, ← List.map_cons]
  exact ((List.getElem_cons_eraseIdx_perm hi).symm.map f).sum_eq

/-- One that is put in the place of another one brings its own. -/
theorem sum_map_set (h : l[i]? = some a) (b : α) :
    ((l.set i b).map f).sum = f b + ((l.eraseIdx i).map f).sum := by
  obtain ⟨hi, -⟩ := List.getElem?_eq_some_iff.1 h
  rw [← List.sum_cons, ← List.map_cons]
  exact ((List.set_perm_cons_eraseIdx hi b).map f).sum_eq

end Sum

/-! ## An entry known by its key -/

section Key

variable {key : α → Nat}

theorem key_ne_head {x : α} {rest : List α} (hd : ((x :: rest).map key).Nodup) :
    ∀ y ∈ rest, key y ≠ key x := by
  intro y hy hk
  rw [List.map_cons, List.nodup_cons, ← hk] at hd
  exact hd.1 (List.mem_map_of_mem hy)

/-- Where keys are apart, an entry is replaced at its place just as it is by its key. -/
theorem set_eq_map (hd : (l.map key).Nodup) (h : l[i]? = some a) (b : α) :
    l.set i b = l.map fun x => if key x = key a then b else x := by
  induction l generalizing i with
  | nil => cases h
  | cons x rest ih =>
    have hne := key_ne_head hd
    cases i with
    | zero =>
      obtain rfl : x = a := Option.some.inj h
      -- nothing behind the entry has its key
      have hrest : (rest.map fun y => if key y = key x then b else y) = rest :=
        (List.map_congr_left fun y hy => if_neg (hne y hy)).trans (List.map_id rest)
      rw [List.set_cons_zero, List.map_cons, if_pos rfl, hrest]
    | succ i =>
      rw [List.set_cons_succ, List.map_cons, if_neg (hne a (List.mem_of_getElem? h)).symm,
        ih (List.nodup_cons.1 hd).2 h]

/-- Where keys are apart, an entry is taken out of its place just as it is by its key. -/
theorem eraseIdx_eq_filter (hd : (l.map key).Nodup) (h : l[i]? = some a) :
    l.eraseIdx i = l.filter fun x => key x ≠ key a := by
  induction l generalizing i with
  | nil => cases h
  | cons x rest ih =>
    have hne := key_ne_head hd
    cases i with
    | zero =>
      obtain rfl : x = a := Option.some.inj h
      have hrest : (rest.filter fun y => key y ≠ key x) = rest :=
        List.filter_eq_self.2 fun y hy => decide_eq_true (hne y hy)
      rw [List.eraseIdx_cons_zero, List.filter_cons, if_neg (by simp), hrest]
    | succ i =>
      have ha : key x ≠ key a := (hne a (List.mem_of_getElem? h)).symm
      rw [List.eraseIdx_cons_succ, List.filter_cons, if_pos (decide_eq_true ha),
        ih (List.nodup_cons.1 hd).2 h]

end Key

theorem total_eq_sum (f : α → Nat) (l : List α) : total f l = (l.map f).sum := by
  induction l with
  | nil => rfl
  | cons a rest ih => rw [total_cons, List.map_cons, List.sum_cons, ih]

end Patchbay
