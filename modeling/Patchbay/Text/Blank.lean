/-!
# `Patchbay.Text.Blank` — white space around a setting or an address

Texts that people type come with blanks around them. A blank is a character with the Unicode property
`White_Space`; a zero-width space or a control character outside that list is not one.

## Contents
* `isBlank` — the property, as a finite list of ranges;
* `trimLeft`, `trim` — a text without the blanks at its front, and without those at its two ends.
-/

namespace Patchbay.Text

/-- Says whether a character has the Unicode property `White_Space`. -/
def isBlank (c : Char) : Bool :=
  let n := c.toNat
  (9 ≤ n && n ≤ 13) || n == 0x20 || n == 0x85 || n == 0xA0 || n == 0x1680 ||
    (0x2000 ≤ n && n ≤ 0x200A) || n == 0x2028 || n == 0x2029 || n == 0x202F || n == 0x205F ||
    n == 0x3000

/-- The text without the blanks at its front. -/
def trimLeft (cs : List Char) : List Char :=
  cs.dropWhile isBlank

/-- The text without the blanks at its two ends; blanks inside it stay. -/
def trim (cs : List Char) : List Char :=
  (trimLeft (trimLeft cs).reverse).reverse

/-! ## What trimming removes -/

theorem trimLeft_append {bs cs : List Char} (h : ∀ b ∈ bs, isBlank b = true) :
    trimLeft (bs ++ cs) = trimLeft cs := by
  induction bs with
  | nil => rfl
  | cons b bs ih =>
    have hb : isBlank b = true := h b (by simp)
    have ht : ∀ x ∈ bs, isBlank x = true := fun x hx => h x (by simp [hx])
    simpa [trimLeft, hb] using ih ht

theorem trimLeft_cons_of_not {c : Char} {cs : List Char} (h : isBlank c = false) :
    trimLeft (c :: cs) = c :: cs := by
  simp [trimLeft, h]

end Patchbay.Text
