/-!
# `Patchbay.Total` — a figure summed over a list

Sizes, lengths and counters are summed over the entries of a list, and one entry of a list of counters
changes at a time.

## Contents
* `total` — the sum of a figure over a list;
* `total_append`, `total_set` — the sum over two lists, and over a list with one entry replaced;
* `length_flatMap_eq_total` — the length of lists that are strung together.
-/

namespace Patchbay

/-- The sum of a figure over a list. -/
def total {α : Type} (f : α → Nat) : List α → Nat
  | [] => 0
  | a :: rest => f a + total f rest

variable {α β : Type}

@[simp] theorem total_nil (f : α → Nat) : total f [] = 0 := rfl

@[simp] theorem total_cons (f : α → Nat) (a : α) (rest : List α) :
    total f (a :: rest) = f a + total f rest := rfl

@[simp] theorem total_append (f : α → Nat) (xs ys : List α) :
    total f (xs ++ ys) = total f xs + total f ys := by
  induction xs with
  | nil => rw [List.nil_append, total_nil, Nat.zero_add]
  | cons a rest ih => rw [List.cons_append, total_cons, total_cons, ih, Nat.add_assoc]

/-- What the replaced entry counted for is what the sum loses, and what the new one counts for what it
gains. -/
theorem total_set (f : α → Nat) {xs : List α} {i : Nat} (h : i < xs.length) (a : α) :
    total f (xs.set i a) + f xs[i] = total f xs + f a := by
  induction xs generalizing i with
  | nil => exact absurd h (Nat.not_lt_zero i)
  | cons b rest ih =>
    cases i with
    | zero =>
      rw [List.set_cons_zero, total_cons, total_cons, List.getElem_cons_zero]
      omega
    | succ i =>
      have := ih (Nat.lt_of_succ_lt_succ h)
      rw [List.set_cons_succ, total_cons, total_cons, List.getElem_cons_succ]
      omega

theorem length_flatMap_eq_total (f : α → List β) (xs : List α) :
    (xs.flatMap f).length = total (fun a => (f a).length) xs := by
  induction xs with
  | nil => rfl
  | cons a rest ih => rw [List.flatMap_cons, List.length_append, total_cons, ih]

end Patchbay
