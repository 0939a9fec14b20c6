import Patchbay.Text.Blank
import Patchbay.Text.Number

/-!
# `Patchbay.Mac` — link-layer addresses

An address is six octets. It is written as six groups of two lower-case hexadecimal digits with a colon
between groups, and read from a slightly wider grammar: blanks around the text are dropped, digits may be in
either case, a group may have one digit, and a one-digit group may carry a plus sign.

## Contents
* `Mac` — the address; `Mac.broadcast` — the address of everybody;
* `Mac.destination?` — the address a frame is sent to, its first six bytes;
* `Mac.render` and `Mac.parse?` — the two directions of the text form;
* `Verdict` — whose a frame is, decided from its destination.
-/

namespace Patchbay

/-- A link-layer address. -/
structure Mac where
  octets : List UInt8
  length_octets : octets.length = 6
deriving DecidableEq

namespace Mac

/-- The all-ones address, which every station listens to. -/
def broadcast : Mac := ⟨List.replicate 6 0xff, by simp⟩

/-- The address of six octets; any other number of octets is no address. -/
def ofOctets? (octets : List UInt8) : Option Mac :=
  if h : octets.length = 6 then some ⟨octets, h⟩ else none

/-- The address that a frame is sent to: its first six bytes, if it has as many. -/
def destination? (frame : List UInt8) : Option Mac :=
  ofOctets? (frame.take 6)

/-! ## Text form -/

/-- The lower-case hexadecimal digit of a value below sixteen. -/
def hexChar (n : Nat) : Char :=
  if n < 10 then Char.ofNat ('0'.toNat + n) else Char.ofNat ('a'.toNat + (n - 10))

/-- An octet as two hexadecimal digits. -/
def renderOctet (b : UInt8) : List Char :=
  [hexChar (b.toNat / 16), hexChar (b.toNat % 16)]

/-- The written form as characters: two digits a group, colons between groups. -/
def renderChars (m : Mac) : List Char :=
  [':'].intercalate (m.octets.map renderOctet)

/-- The written form of an address. -/
def render (m : Mac) : String :=
  String.ofList m.renderChars

/-- The octet that one group spells: one digit, a plus sign and one digit, or two digits. -/
def parseOctet? : List Char → Option UInt8
  | [a] => (Text.hexDigit? a).map UInt8.ofNat
  | ['+', b] => (Text.hexDigit? b).map UInt8.ofNat
  | [a, b] => do
    let high ← Text.hexDigit? a
    let low ← Text.hexDigit? b
    some (UInt8.ofNat (high * 16 + low))
  | _ => none

/-- The address that a text spells, blanks around it dropped. -/
def parse? (s : String) : Option Mac := do
  let groups := (Text.trim s.toList).splitOn ':'
  let octets ← groups.mapM parseOctet?
  ofOctets? octets

/-- What a reader is told about a text that spells no address. -/
def parseFailure : String :=
  "invalid MAC address (expected six ':'-separated hex octets)"

/-! ## Small facts -/

theorem ofOctets?_octets (m : Mac) : ofOctets? m.octets = some m := by
  simp [ofOctets?, m.length_octets]

theorem ofOctets?_eq_some {octets : List UInt8} {m : Mac} :
    ofOctets? octets = some m ↔ m.octets = octets := by
  constructor
  · intro h
    unfold ofOctets? at h
    split at h
    · simp at h; rw [← h]
    · simp at h
  · rintro rfl
    exact ofOctets?_octets m

theorem destination?_eq_none_iff {frame : List UInt8} :
    destination? frame = none ↔ frame.length < 6 := by
  unfold destination? ofOctets?
  split <;> rename_i h <;> simp at h ⊢ <;> omega

end Mac

/-! ## Whose frame it is -/

/-- Whose a frame is, seen by a consumer that listens on an address of its own. -/
inductive Verdict where
  /-- Sent to the consumer's address alone. -/
  | mine
  /-- Sent to everybody. -/
  | broadcast
  /-- Sent to somebody else. -/
  | foreign
deriving DecidableEq, Repr

/-- Everybody's address comes first: a consumer that listens on it still shares the frame. -/
def Verdict.of (destination own : Mac) : Verdict :=
  if destination = Mac.broadcast then .broadcast
  else if destination = own then .mine
  else .foreign

end Patchbay
