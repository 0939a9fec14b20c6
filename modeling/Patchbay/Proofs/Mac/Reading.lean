import Mathlib.Data.List.DropRight
import Mathlib.Data.List.Forall2
import Patchbay.Mac

/-!
# `Proofs.Mac.Reading` — which texts spell an address

The text form of an address is six groups of hexadecimal digits with a colon between groups, and blanks around it.
What is read is a little more: a group of one digit may carry a plus sign, because a group is read as any number is.
The two grammars have all but the groups in common, and differ just in the texts that hold a sign.

## Contents
* `Text.exists_trim`, `Text.trim_append` — what trimming takes away;
* `Mac.IsDigit`, `Mac.IsPlain`, `Mac.IsSigned` — digits, groups of digits, a digit with a sign before it;
* `Mac.Spells` — six such groups with colons between them and blanks around;
* `Mac.parseOctet?_eq_some_iff`, `Mac.parse?_eq_some_iff` — groups and texts that are read;
* `Mac.spells_plain_iff`, `Mac.reads_plain_iff` — where a sign makes the difference; `Mac.not_plain_signed`.
-/

namespace Patchbay

namespace Text

/-! ## Blanks around a text -/

/-- Only blanks are dropped, and only at the two ends. -/
theorem exists_trim (cs : List Char) :
    ∃ front back, cs = front ++ trim cs ++ back ∧ (∀ c ∈ front, isBlank c = true) ∧
      ∀ c ∈ back, isBlank c = true := by
  refine ⟨cs.takeWhile isBlank, (trimLeft cs).rtakeWhile isBlank, ?_, ?_, ?_⟩
  · have hback : trim cs ++ (trimLeft cs).rtakeWhile isBlank = trimLeft cs := List.rdropWhile_append_rtakeWhile
    rw [List.append_assoc, hback]
    exact List.takeWhile_append_dropWhile.symm
  · intro c hc
    exact List.mem_takeWhile_imp hc
  · intro c hc
    exact List.mem_rtakeWhile_imp hc

theorem trimLeft_of_no_blank {cs : List Char} (h : ∀ c ∈ cs, isBlank c = false) : trimLeft cs = cs := by
  cases cs with
  | nil => rfl
  | cons c rest => exact trimLeft_cons_of_not (h c List.mem_cons_self)

/-- A text without blanks is what is left of it with blanks around. -/
theorem trim_append {front text back : List Char} (hfront : ∀ c ∈ front, isBlank c = true)
    (htext : ∀ c ∈ text, isBlank c = false) (hback : ∀ c ∈ back, isBlank c = true) :
    trim (front ++ text ++ back) = text := by
  have hreverse : ∀ c ∈ text.reverse, isBlank c = false := fun c hc => htext c (List.mem_reverse.1 hc)
  have hback' : ∀ c ∈ back.reverse, isBlank c = true := fun c hc => hback c (List.mem_reverse.1 hc)
  rw [trim, List.append_assoc, trimLeft_append hfront]
  cases text with
  | nil =>
    -- blanks alone: all of them are dropped at the front
    have hall : trimLeft (back ++ []) = [] := trimLeft_append hback
    rw [List.append_nil] at hall
    rw [List.nil_append, hall]
    rfl
  | cons c rest =>
    rw [List.cons_append, trimLeft_cons_of_not (htext c List.mem_cons_self), ← List.cons_append, List.reverse_append,
      trimLeft_append hback', trimLeft_of_no_blank hreverse, List.reverse_reverse]

end Text

namespace Mac

/-! ## The grammar -/

/-- A hexadecimal digit in either case, and its value. -/
def IsDigit (c : Char) (n : Nat) : Prop :=
  "0123456789abcdef".toList[n]? = some c ∨ "0123456789ABCDEF".toList[n]? = some c

/-- A group of one or two digits, and the octet that it stands for. -/
inductive IsPlain : List Char → UInt8 → Prop
  | one {c : Char} {n : Nat} (h : IsDigit c n) : IsPlain [c] (UInt8.ofNat n)
  | two {c d : Char} {high low : Nat} (hhigh : IsDigit c high) (hlow : IsDigit d low) :
      IsPlain [c, d] (UInt8.ofNat (high * 16 + low))

/-- A group of a plus sign and one digit. -/
inductive IsSigned : List Char → UInt8 → Prop
  | plus {c : Char} {n : Nat} (h : IsDigit c n) : IsSigned ['+', c] (UInt8.ofNat n)

/-- A group that is read. -/
def IsGroup (group : List Char) (b : UInt8) : Prop :=
  IsPlain group b ∨ IsSigned group b

/-- Groups for the octets of an address, in their order, with a colon between groups and blanks around them all. -/
def Spells (group : List Char → UInt8 → Prop) (s : String) (m : Mac) : Prop :=
  ∃ front groups back, s.toList = front ++ [':'].intercalate groups ++ back ∧
    (∀ c ∈ front, Text.isBlank c = true) ∧ (∀ c ∈ back, Text.isBlank c = true) ∧
    List.Forall₂ group groups m.octets

/-! ## Digits and groups -/

/-- Neither a blank, nor what stands between groups, nor a sign is a digit. -/
theorem IsDigit.apart {c : Char} {n : Nat} (h : IsDigit c n) :
    Text.isBlank c = false ∧ c ≠ ':' ∧ c ≠ '+' := by
  have hall : ("0123456789abcdef".toList ++ "0123456789ABCDEF".toList).all
      (fun c => !Text.isBlank c && c != ':' && c != '+') = true := by decide
  have hmem : c ∈ "0123456789abcdef".toList ++ "0123456789ABCDEF".toList :=
    List.mem_append.2 (h.imp List.mem_of_getElem? List.mem_of_getElem?)
  simpa [and_assoc] using List.all_eq_true.1 hall c hmem

/-- A character of a range is told by its distance from the first of them. -/
theorem exists_distance {first last c : Char} (h : first ≤ c ∧ c ≤ last) :
    ∃ d, d ≤ last.toNat - first.toNat ∧ c.toNat - first.toNat = d ∧ c = Char.ofNat (first.toNat + d) := by
  have hfirst : first.toNat ≤ c.toNat := h.1
  have hlast : c.toNat ≤ last.toNat := h.2
  refine ⟨c.toNat - first.toNat, by omega, rfl, ?_⟩
  rw [Nat.add_sub_cancel' hfirst, Char.ofNat_toNat]

theorem hexDigit?_eq_some_iff {c : Char} {n : Nat} : Text.hexDigit? c = some n ↔ IsDigit c n := by
  constructor
  · intro h
    have hdecimal : ∀ d ≤ 9, "0123456789abcdef".toList[d]? = some (Char.ofNat ('0'.toNat + d)) := by decide
    have hlower : ∀ d ≤ 5, "0123456789abcdef".toList[d + 10]? = some (Char.ofNat ('a'.toNat + d)) := by decide
    have hupper : ∀ d ≤ 5, "0123456789ABCDEF".toList[d + 10]? = some (Char.ofNat ('A'.toNat + d)) := by decide
    -- the three ranges of the table
    unfold Text.hexDigit? at h
    split at h
    · obtain ⟨d, hd, hvalue, rfl⟩ := exists_distance ‹_›
      obtain rfl : d = n := Option.some.inj (hvalue ▸ h)
      exact .inl (hdecimal d hd)
    · split at h
      · obtain ⟨d, hd, hvalue, rfl⟩ := exists_distance ‹_›
        rw [hvalue] at h
        obtain rfl := Option.some.inj h
        exact .inl (hlower d hd)
      · split at h
        · obtain ⟨d, hd, hvalue, rfl⟩ := exists_distance ‹_›
          rw [hvalue] at h
          obtain rfl := Option.some.inj h
          exact .inr (hupper d hd)
        · cases h
  · have hlower : ∀ n < 16, "0123456789abcdef".toList[n]?.bind Text.hexDigit? = some n := by decide
    have hupper : ∀ n < 16, "0123456789ABCDEF".toList[n]?.bind Text.hexDigit? = some n := by decide
    rintro (h | h)
    · have hread := hlower n (List.getElem?_eq_some_iff.1 h).1
      rwa [h] at hread
    · have hread := hupper n (List.getElem?_eq_some_iff.1 h).1
      rwa [h] at hread

theorem parseOctet?_eq_some_iff {group : List Char} {b : UInt8} :
    parseOctet? group = some b ↔ IsGroup group b := by
  constructor
  · intro h
    unfold parseOctet? at h
    split at h
    · obtain ⟨n, hn, rfl⟩ := Option.map_eq_some_iff.1 h
      exact .inl (.one (hexDigit?_eq_some_iff.1 hn))
    · obtain ⟨n, hn, rfl⟩ := Option.map_eq_some_iff.1 h
      exact .inr (.plus (hexDigit?_eq_some_iff.1 hn))
    · obtain ⟨high, hhigh, h⟩ := Option.bind_eq_some_iff.1 h
      obtain ⟨low, hlow, h⟩ := Option.bind_eq_some_iff.1 h
      cases h
      exact .inl (.two (hexDigit?_eq_some_iff.1 hhigh) (hexDigit?_eq_some_iff.1 hlow))
    · cases h
  · rintro (h | h)
    · cases h with
      | one h => rw [parseOctet?, hexDigit?_eq_some_iff.2 h, Option.map_some]
      | two hhigh hlow =>
        rw [parseOctet?, hexDigit?_eq_some_iff.2 hhigh, hexDigit?_eq_some_iff.2 hlow]
        · rfl
        · exact fun hsign => hhigh.apart.2.2 hsign
    · cases h with
      | plus h => rw [parseOctet?, hexDigit?_eq_some_iff.2 h, Option.map_some]

/-- A group that is read holds neither a blank nor what stands between groups. -/
theorem IsGroup.apart {group : List Char} {b : UInt8} (h : IsGroup group b) :
    ∀ c ∈ group, Text.isBlank c = false ∧ c ≠ ':' := by
  have hdigit : ∀ {c : Char} {n : Nat}, IsDigit c n → Text.isBlank c = false ∧ c ≠ ':' :=
    fun h => ⟨h.apart.1, h.apart.2.1⟩
  have hsign : Text.isBlank '+' = false ∧ '+' ≠ ':' := by decide
  rcases h with h | h
  · cases h with
    | one h => exact List.forall_mem_singleton.2 (hdigit h)
    | two hhigh hlow =>
      exact List.forall_mem_cons.2 ⟨hdigit hhigh, List.forall_mem_singleton.2 (hdigit hlow)⟩
  · cases h with
    | plus h => exact List.forall_mem_cons.2 ⟨hsign, List.forall_mem_singleton.2 (hdigit h)⟩

/-! ## Groups in a row -/

/-- Beside the separators, a row of groups holds what its groups hold. -/
theorem mem_intercalate_iff {c sep : Char} (h : c ≠ sep) {groups : List (List Char)} :
    c ∈ [sep].intercalate groups ↔ ∃ group ∈ groups, c ∈ group := by
  induction groups with
  | nil => simp
  | cons group rest ih =>
    cases rest with
    | nil => simp
    | cons next rest =>
      rw [List.intercalate_cons_cons, List.append_assoc, List.mem_append, List.mem_append,
        List.mem_singleton, or_iff_right h, ih]
      simp only [List.mem_cons, exists_eq_or_imp]

theorem mapM_parseOctet?_eq_some_iff {groups : List (List Char)} {octets : List UInt8} :
    groups.mapM parseOctet? = some octets ↔ List.Forall₂ IsGroup groups octets := by
  induction groups generalizing octets with
  | nil =>
    rw [List.mapM_nil, List.forall₂_nil_left_iff]
    exact ⟨fun h => (Option.some.inj h).symm, fun h => h ▸ rfl⟩
  | cons group groups ih =>
    rw [List.mapM_cons, List.forall₂_cons_left_iff]
    constructor
    · intro h
      obtain ⟨b, hb, h⟩ := Option.bind_eq_some_iff.1 h
      obtain ⟨bs, hbs, h⟩ := Option.bind_eq_some_iff.1 h
      exact ⟨b, bs, parseOctet?_eq_some_iff.1 hb, ih.1 hbs, (Option.some.inj h).symm⟩
    · rintro ⟨b, bs, hb, hbs, rfl⟩
      rw [parseOctet?_eq_some_iff.2 hb, ih.2 hbs]
      rfl

theorem octets_ne_nil (m : Mac) : m.octets ≠ [] := by
  intro h
  have hlength := m.length_octets
  rw [h] at hlength
  cases hlength

/-- A text is read as an address just if it spells it, with a sign allowed before a single digit. -/
theorem parse?_eq_some_iff {s : String} {m : Mac} : parse? s = some m ↔ Spells IsGroup s m := by
  constructor
  · intro h
    obtain ⟨octets, hoctets, h⟩ := Option.bind_eq_some_iff.1 h
    obtain rfl := ofOctets?_eq_some.1 h
    obtain ⟨front, back, hs, hfront, hback⟩ := Text.exists_trim s.toList
    refine ⟨front, (Text.trim s.toList).splitOn ':', back, ?_, hfront, hback,
      mapM_parseOctet?_eq_some_iff.1 hoctets⟩
    rw [List.intercalate_splitOn]
    exact hs
  · rintro ⟨front, groups, back, hs, hfront, hback, hgroups⟩
    have hapart : ∀ group ∈ groups, ∀ c ∈ group, Text.isBlank c = false ∧ c ≠ ':' :=
      ((List.forall₂_and_left _ _).1 (hgroups.imp fun _ _ h => ⟨h.apart, h⟩)).1
    have htext : ∀ c ∈ [':'].intercalate groups, Text.isBlank c = false := by
      intro c hc
      by_cases hcolon : c = ':'
      · rw [hcolon]
        decide
      · obtain ⟨group, hgroup, hc⟩ := (mem_intercalate_iff hcolon).1 hc
        exact (hapart group hgroup c hc).1
    have hne : groups ≠ [] := by
      rintro rfl
      exact m.octets_ne_nil (List.forall₂_nil_left_iff.1 hgroups)
    have hsplit : (Text.trim s.toList).splitOn ':' = groups := by
      rw [hs, Text.trim_append hfront htext hback]
      exact List.splitOn_intercalate ':' (fun group hgroup hc => (hapart group hgroup ':' hc).2 rfl) hne
    rw [parse?, hsplit, mapM_parseOctet?_eq_some_iff.2 hgroups]
    exact ofOctets?_octets m

/-! ## The sign -/

/-- The groups that are read and hold no sign are the groups of digits. -/
theorem isPlain_iff {group : List Char} {b : UInt8} : IsPlain group b ↔ '+' ∉ group ∧ IsGroup group b := by
  constructor
  · intro h
    refine ⟨?_, .inl h⟩
    cases h with
    | one h => simpa using h.apart.2.2.symm
    | two hhigh hlow => simpa using ⟨hhigh.apart.2.2.symm, hlow.apart.2.2.symm⟩
  · rintro ⟨hsign, h | h⟩
    · exact h
    · cases h with
      | plus h => exact absurd List.mem_cons_self hsign

theorem forall₂_isPlain_iff {groups : List (List Char)} {octets : List UInt8} :
    List.Forall₂ IsPlain groups octets ↔ (∀ group ∈ groups, '+' ∉ group) ∧ List.Forall₂ IsGroup groups octets := by
  rw [← List.forall₂_and_left]
  exact ⟨.imp fun _ _ => isPlain_iff.1, .imp fun _ _ => isPlain_iff.2⟩

/-- A text spells an address in digits alone just if it spells it and holds no sign. -/
theorem spells_plain_iff {s : String} {m : Mac} :
    Spells IsPlain s m ↔ Spells IsGroup s m ∧ '+' ∉ s.toList := by
  have hblanks : ∀ {bs : List Char}, (∀ c ∈ bs, Text.isBlank c = true) → '+' ∉ bs :=
    fun h hsign => absurd (h '+' hsign) (by decide)
  have hrow (groups : List (List Char)) :
      '+' ∉ [':'].intercalate groups ↔ ∀ group ∈ groups, '+' ∉ group := by
    rw [mem_intercalate_iff (by decide)]
    exact not_exists.trans (forall_congr' fun _ => not_and)
  constructor
  · rintro ⟨front, groups, back, hs, hfront, hback, hgroups⟩
    obtain ⟨hsigns, hgroups⟩ := forall₂_isPlain_iff.1 hgroups
    refine ⟨⟨front, groups, back, hs, hfront, hback, hgroups⟩, ?_⟩
    rw [hs, List.mem_append, List.mem_append, or_iff_left (hblanks hback), or_iff_right (hblanks hfront)]
    exact (hrow groups).2 hsigns
  · rintro ⟨⟨front, groups, back, hs, hfront, hback, hgroups⟩, hsign⟩
    have hsigns : '+' ∉ [':'].intercalate groups := fun h =>
      hsign (hs ▸ List.mem_append_left back (List.mem_append_right front h))
    exact ⟨front, groups, back, hs, hfront, hback, forall₂_isPlain_iff.2 ⟨(hrow groups).1 hsigns, hgroups⟩⟩

/-- What is read and as what. For every text and address, the text is read as the address just if, apart from blanks
around it, it is six groups with a colon between groups, each group one or two digits or a plus sign and one digit, and
the octets of the address are the values of the groups. Digits alone are what is asked for, and they are what is read in
every text but those that spell an address with a sign in it. -/
theorem reads_plain_iff (s : String) :
    (∀ m, parse? s = some m ↔ Spells IsGroup s m) ∧
      ((∀ m, parse? s = some m ↔ Spells IsPlain s m) ↔ ∀ m, Spells IsGroup s m → '+' ∉ s.toList) := by
  refine ⟨fun m => parse?_eq_some_iff, ?_, ?_⟩
  · intro h m hm
    exact (spells_plain_iff.1 ((h m).1 (parse?_eq_some_iff.2 hm))).2
  · intro h m
    rw [parse?_eq_some_iff, spells_plain_iff]
    exact ⟨fun hm => ⟨hm, h m hm⟩, And.left⟩

/-- A group of a plus sign and a digit is read, and no address has a text with a sign in it. -/
theorem not_plain_signed :
    parse? "+1:00:00:00:00:01" = some ⟨[1, 0, 0, 0, 0, 1], rfl⟩ ∧
      ¬ ∀ m, parse? "+1:00:00:00:00:01" = some m ↔ Spells IsPlain "+1:00:00:00:00:01" m := by
  have hread : parse? "+1:00:00:00:00:01" = some ⟨[1, 0, 0, 0, 0, 1], rfl⟩ := by decide
  refine ⟨hread, fun h => (spells_plain_iff.1 ((h _).1 hread)).2 (by decide)⟩

end Mac

end Patchbay
