import Patchbay.Budget.Basic

/-!
# `Patchbay.Memory.Storage` — bytes that segments and buffers share

The bytes of a frame are shared: segments of several frames and buffers of a consumer may point into one
storage. A storage is a cluster of the host or a block that a consumer got from a budget, and its bytes never
change once it is shared. Its key tells it from every other storage.

## Contents
* `Origin` — where shared bytes come from; `Storage` — shared bytes with their key;
* `Storage.contents`, `Storage.bytes`, `Storage.size`;
* `Storage.sameBlock` — whether two references share one block;
* `View` — a stretch of a storage as it was asked for, clipped only when it is read;
* `View.contents`, `View.bytes` — what it shows; `View.reach` — how many bytes that are;
* `View.bytes_eq` — the bytes as a stretch of those of the storage.
-/

namespace Patchbay

/-- Where shared bytes come from. -/
inductive Origin where
  /-- A cluster of the host's pool. -/
  | cluster (contents : Budget.Contents)
  /-- A block of a budget. -/
  | block (block : Budget.Block)
deriving DecidableEq

/-- Shared bytes. -/
structure Storage where
  key : Nat
  origin : Origin
deriving DecidableEq

namespace Storage

/-- What the storage holds. -/
def contents (s : Storage) : Budget.Contents :=
  match s.origin with
  | .cluster contents => contents
  | .block b => b.contents

/-- The bytes in order. -/
def bytes (s : Storage) : List UInt8 := s.contents.toList

/-- The number of bytes. -/
def size (s : Storage) : Nat := s.contents.size

/-- Whether two references share one block; only blocks are compared. -/
def sameBlock : Storage → Storage → Option Bool
  | ⟨k, .block _⟩, ⟨k', .block _⟩ => some (k == k')
  | _, _ => none

@[simp] theorem length_bytes (s : Storage) : s.bytes.length = s.size :=
  s.contents.length_toList

end Storage

/-- A stretch of a storage as it was asked for; it may reach beyond the storage. -/
structure View where
  storage : Storage
  offset : Nat
  length : Nat
deriving DecidableEq

namespace View

/-- A view of a whole storage. -/
def whole (s : Storage) : View := ⟨s, 0, s.size⟩

/-- Another stretch of the same storage. -/
def window (v : View) (offset length : Nat) : View := ⟨v.storage, offset, length⟩

/-- What the storage has of the stretch. -/
def contents (v : View) : Budget.Contents :=
  v.storage.contents.window v.offset v.length

/-- The bytes of the stretch that lie in the storage. -/
def bytes (v : View) : List UInt8 := v.contents.toList

/-- How many bytes of the stretch lie in the storage. -/
def reach (v : View) : Nat :=
  min v.length (v.storage.size - v.offset)

theorem bytes_eq (v : View) : v.bytes = (v.storage.bytes.drop v.offset).take v.length :=
  v.storage.contents.toList_window v.offset v.length

@[simp] theorem length_bytes (v : View) : v.bytes.length = v.reach := by
  simp [bytes_eq, reach]

end View

end Patchbay
