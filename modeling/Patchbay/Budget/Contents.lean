/-!
# `Patchbay.Budget.Contents` — the bytes of a block

A fresh block is all zeros, and most of a large block stays so. The bytes are kept as an array of those up to
the last one written and a count of the zeros behind them, so that a stretch is cut out at the cost of its own
length. The view `Contents.toList` is the plain list of bytes, and every operation is described by what it does
to that list.

## Contents
* `Contents`, `Contents.toList`, `Contents.size`;
* `Contents.zeroed` — a fresh block; `Contents.resize` — cut at the end or filled up with zeros;
* `Contents.write` — bytes laid over a stretch, clipped at the end; `Contents.window` — a stretch by itself;
* `overwrite`, `overlay` — what a write does to a list; `Contents.inlay` — the same on an array;
* `Contents.toList_window`, `Contents.toList_write` — the views of a stretch and of a write.
-/

namespace Patchbay.Budget

/-- The bytes of a block: a written part, then zeros. -/
structure Contents where
  written : Array UInt8
  zeros : Nat
deriving DecidableEq

/-- The list `xs` with `data` in place of what it had from position `start` on; it grows if `data` reaches
beyond its end. -/
def overwrite (xs : List UInt8) (start : Nat) (data : List UInt8) : List UInt8 :=
  xs.take start ++ data ++ xs.drop (start + data.length)

/-- The list `xs` with `data` laid over it from position `start`, clipped at its end. -/
def overlay (xs : List UInt8) (start : Nat) (data : List UInt8) : List UInt8 :=
  overwrite xs start (data.take (xs.length - start))

/-! ## Position by position -/

theorem length_overwrite {xs : List UInt8} {start : Nat} (h : start ≤ xs.length) (data : List UInt8) :
    (overwrite xs start data).length = max xs.length (start + data.length) := by
  simp only [overwrite, List.length_append, List.length_take, List.length_drop]
  omega

theorem getElem?_overwrite {xs : List UInt8} {start : Nat} (h : start ≤ xs.length)
    (data : List UInt8) (i : Nat) :
    (overwrite xs start data)[i]? =
      if start ≤ i ∧ i < start + data.length then data[i - start]? else xs[i]? := by
  simp only [overwrite, List.getElem?_append, List.length_append, List.length_take,
    List.getElem?_take, List.getElem?_drop]
  grind

theorem getElem?_overlay (xs : List UInt8) (start : Nat) (data : List UInt8) (i : Nat) :
    (overlay xs start data)[i]? =
      if start ≤ i ∧ i < start + data.length ∧ i < xs.length then data[i - start]? else xs[i]? := by
  by_cases h : start ≤ xs.length
  · rw [overlay, getElem?_overwrite h]
    grind
  · have hx : xs.length ≤ start := by omega
    rw [overlay, overwrite, List.take_of_length_le hx, Nat.sub_eq_zero_of_le hx, List.take_zero,
      List.append_nil, List.drop_of_length_le (by simpa using hx), List.append_nil]
    grind

theorem length_overlay (xs : List UInt8) (start : Nat) (data : List UInt8) :
    (overlay xs start data).length = xs.length := by
  simp only [overlay, overwrite, List.length_append, List.length_take, List.length_drop]
  omega

namespace Contents

/-- The bytes in order. -/
def toList (c : Contents) : List UInt8 :=
  c.written.toList ++ List.replicate c.zeros 0

/-- The number of bytes. -/
def size (c : Contents) : Nat :=
  c.written.size + c.zeros

/-- The bytes of a fresh block of `n` bytes. -/
def zeroed (n : Nat) : Contents := ⟨#[], n⟩

/-- The bytes of a block that holds just `bytes`. -/
def ofList (bytes : List UInt8) : Contents := ⟨bytes.toArray, 0⟩

/-- The first `n` bytes, filled up with zeros where there are fewer. -/
def resize (c : Contents) (n : Nat) : Contents :=
  ⟨c.written.take n, n - c.written.size⟩

/-- The written part filled up with zeros as far as position `start`. -/
def padded (c : Contents) (start : Nat) : Array UInt8 :=
  c.written ++ Array.replicate (start - c.written.size) 0

/-- The array `xs` with `data` in place of what it had from position `start` on. -/
def inlay (xs : Array UInt8) (start : Nat) (data : List UInt8) : Array UInt8 :=
  xs.take start ++ data ++ xs.drop (start + data.length)

/-- The bytes after `data` was laid over them from position `start`, clipped at the end. What lies between
the written part and `start` is written out as zeros. -/
def write (c : Contents) (start : Nat) (data : List UInt8) : Contents :=
  let clipped := data.take (c.size - start)
  if clipped = [] then c
  else
    let written := inlay (c.padded start) start clipped
    ⟨written, c.size - written.size⟩

/-- The stretch of `length` bytes from position `start`, as far as there are bytes. -/
def window (c : Contents) (start length : Nat) : Contents :=
  let front := c.written.extract start (start + length)
  ⟨front, min length (c.size - start) - front.size⟩

/-! ## The view of each operation -/

@[simp] theorem length_toList (c : Contents) : c.toList.length = c.size := by
  simp [toList, size]

@[simp] theorem toList_zeroed (n : Nat) : (zeroed n).toList = List.replicate n 0 := by
  simp [toList, zeroed]

@[simp] theorem toList_ofList (bytes : List UInt8) : (ofList bytes).toList = bytes := by
  simp [toList, ofList]

@[simp] theorem size_zeroed (n : Nat) : (zeroed n).size = n := by
  simp [size, zeroed]

theorem getElem?_toList (c : Contents) (i : Nat) :
    c.toList[i]? =
      if i < c.written.size then c.written[i]? else if i < c.size then some 0 else none := by
  rw [toList, List.getElem?_append, List.getElem?_replicate, Array.length_toList,
    Array.getElem?_toList]
  grind [size]

@[simp] theorem size_resize (c : Contents) (n : Nat) : (c.resize n).size = n := by
  simp only [size, resize, Array.size_extract]
  omega

theorem toList_resize (c : Contents) (n : Nat) :
    (c.resize n).toList = c.toList.take n ++ List.replicate (n - c.size) 0 := by
  apply List.ext_getElem?
  intro i
  rw [getElem?_toList, size_resize, List.getElem?_append, List.getElem?_take, List.length_take,
    getElem?_toList, List.getElem?_replicate, length_toList]
  simp only [resize, Array.size_extract, Array.getElem?_extract]
  grind [size]

theorem toList_window (c : Contents) (start length : Nat) :
    (c.window start length).toList = (c.toList.drop start).take length := by
  apply List.ext_getElem?
  intro i
  rw [getElem?_toList, List.getElem?_take, List.getElem?_drop, getElem?_toList]
  simp only [window, size, Array.size_extract, Array.getElem?_extract]
  grind

theorem toList_inlay (xs : Array UInt8) (start : Nat) (data : List UInt8) :
    (inlay xs start data).toList = overwrite xs.toList start data := by
  rw [inlay, Array.toList_append, Array.toList_appendList, Array.toList_extract, Array.toList_extract,
    List.extract_eq_take_drop, List.extract_eq_take_drop, List.drop_zero, Nat.sub_zero, overwrite]
  congr 1
  exact List.take_of_length_le (by simp)

theorem toList_write (c : Contents) (start : Nat) (data : List UInt8) :
    (c.write start data).toList = overlay c.toList start data := by
  apply List.ext_getElem?
  intro i
  rw [getElem?_overlay, length_toList, write]
  by_cases h : data.take (c.size - start) = []
  · -- nothing of the data lies in the block
    rw [if_pos h]
    have hz : min (c.size - start) data.length = 0 := by
      rw [← List.length_take, h, List.length_nil]
    grind
  · rw [if_neg h, getElem?_toList, getElem?_toList]
    have hs : start ≤ (c.padded start).toList.length := by
      simp only [padded, Array.length_toList, Array.size_append, Array.size_replicate]
      omega
    have hd : 0 < min (c.size - start) data.length := by
      rw [← List.length_take]
      exact List.length_pos_iff.2 h
    simp only [size, ← Array.length_toList, ← Array.getElem?_toList, toList_inlay,
      length_overwrite hs, getElem?_overwrite hs]
    simp only [padded, Array.toList_append, Array.toList_replicate, List.length_append,
      List.length_replicate, List.length_take, List.getElem?_append, List.getElem?_replicate,
      List.getElem?_take, Array.length_toList, Array.getElem?_toList]
    grind [size]

@[simp] theorem size_write (c : Contents) (start : Nat) (data : List UInt8) :
    (c.write start data).size = c.size := by
  rw [← length_toList, toList_write, length_overlay, length_toList]

end Contents

end Patchbay.Budget
