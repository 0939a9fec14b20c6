import Patchbay.Proofs.Mac.Reading

/-!
# `Proofs.Mac.Spelling` — an address survives its text

What is written for an address is one of many texts for it: blanks may be put around, letters may be raised to upper
case, and a group may lose the zero that it begins with. These are all the texts without a sign that are read as the
address, so reading what was written, as it stands or changed on the way, gives the address back.

## Contents
* `Mac.isDigit_iff` — digits as they are written;
* `Mac.Loosens`, `Mac.Respelt` — changes to a group and to a text that leave the address alone;
* `Mac.loosens_renderOctet_iff`, `Mac.respelt_render_iff` — they lead from what is written to what is read;
* `Mac.render_reads_back`.
-/

namespace Patchbay

namespace Mac

/-! ## What may happen to a text -/

/-- A group may lose one zero at its front, and any of its letters may be raised. -/
def Loosens (group group' : List Char) : Prop :=
  ∃ kept, (kept = group ∨ '0' :: kept = group) ∧ List.Forall₂ (fun c c' => c' = c ∨ c' = c.toUpper) kept group'

/-- The groups of a text may be loosened, each for itself, and blanks put around the whole. -/
def Respelt (shown s : String) : Prop :=
  ∃ front groups back, s.toList = front ++ [':'].intercalate groups ++ back ∧
    (∀ c ∈ front, Text.isBlank c = true) ∧ (∀ c ∈ back, Text.isBlank c = true) ∧
    List.Forall₂ Loosens (shown.toList.splitOn ':') groups

/-- Nothing need happen to a group. -/
theorem Loosens.refl (group : List Char) : Loosens group group :=
  ⟨group, .inl rfl, List.forall₂_same.2 fun _ _ => .inl rfl⟩

/-! ## Digits and groups as they are written -/

/-- A digit of a value is the one that is written for it, in lower or upper case. -/
theorem isDigit_iff {c : Char} {n : Nat} :
    IsDigit c n ↔ n < 16 ∧ (c = hexChar n ∨ c = (hexChar n).toUpper) := by
  have hlower : ∀ n < 16, "0123456789abcdef".toList[n]? = some (hexChar n) := by decide
  have hupper : ∀ n < 16, "0123456789ABCDEF".toList[n]? = some (hexChar n).toUpper := by decide
  constructor
  · rintro (h | h)
    · have hn : n < 16 := (List.getElem?_eq_some_iff.1 h).1
      exact ⟨hn, .inl (Option.some.inj (h.symm.trans (hlower n hn)))⟩
    · have hn : n < 16 := (List.getElem?_eq_some_iff.1 h).1
      exact ⟨hn, .inr (Option.some.inj (h.symm.trans (hupper n hn)))⟩
  · rintro ⟨hn, rfl | rfl⟩
    · exact .inl (hlower n hn)
    · exact .inr (hupper n hn)

theorem hexChar_eq_zero_iff {n : Nat} (h : n < 16) : '0' = hexChar n ↔ n = 0 := by
  have hall : ∀ n < 16, '0' = hexChar n ↔ n = 0 := by decide
  exact hall n h

/-- The two digits of an octet, and of their values together. -/
theorem renderOctet_ofNat {high low : Nat} (hhigh : high < 16) (hlow : low < 16) :
    renderOctet (UInt8.ofNat (high * 16 + low)) = [hexChar high, hexChar low] := by
  have hvalue : (UInt8.ofNat (high * 16 + low)).toNat = high * 16 + low := by
    rw [UInt8.toNat_ofNat']
    omega
  have hdiv : (high * 16 + low) / 16 = high := by omega
  have hmod : (high * 16 + low) % 16 = low := by omega
  rw [renderOctet, hvalue, hdiv, hmod]

/-- Every octet is two digits. -/
theorem exists_digits (b : UInt8) : ∃ high low, high < 16 ∧ low < 16 ∧ b = UInt8.ofNat (high * 16 + low) := by
  have hb : b.toNat < 256 := b.toNat_lt
  have hparts : b.toNat / 16 * 16 + b.toNat % 16 = b.toNat := Nat.div_add_mod' b.toNat 16
  exact ⟨b.toNat / 16, b.toNat % 16, by omega, by omega, by rw [hparts, UInt8.ofNat_toNat]⟩

/-- What is written for an octet, loosened, is any group of digits that stands for it. -/
theorem loosens_renderOctet_iff {group : List Char} {b : UInt8} :
    Loosens (renderOctet b) group ↔ IsPlain group b := by
  constructor
  · rintro ⟨kept, hkept, hraised⟩
    obtain ⟨high, low, hhigh, hlow, rfl⟩ := exists_digits b
    rw [renderOctet_ofNat hhigh hlow] at hkept
    rcases hkept with rfl | hkept
    · obtain ⟨c, _, hc, htail, rfl⟩ := List.forall₂_cons_left_iff.1 hraised
      obtain ⟨d, _, hd, hnil, rfl⟩ := List.forall₂_cons_left_iff.1 htail
      obtain rfl := List.forall₂_nil_left_iff.1 hnil
      exact .two (isDigit_iff.2 ⟨hhigh, hc⟩) (isDigit_iff.2 ⟨hlow, hd⟩)
    · -- a zero that is left out stands for nothing
      obtain ⟨hzero, rfl⟩ := List.cons.inj hkept
      obtain rfl := (hexChar_eq_zero_iff hhigh).1 hzero
      obtain ⟨d, _, hd, hnil, rfl⟩ := List.forall₂_cons_left_iff.1 hraised
      obtain rfl := List.forall₂_nil_left_iff.1 hnil
      rw [Nat.zero_mul, Nat.zero_add]
      exact .one (isDigit_iff.2 ⟨hlow, hd⟩)
  · intro h
    cases h with
    | @one d low h =>
      obtain ⟨hlow, hd⟩ := isDigit_iff.1 h
      have hzero : 0 < 16 := by decide
      have hshown := renderOctet_ofNat hzero hlow
      rw [Nat.zero_mul, Nat.zero_add] at hshown
      exact ⟨[hexChar low], .inr hshown.symm, .cons hd .nil⟩
    | two hhigh hlow =>
      obtain ⟨hhigh, hc⟩ := isDigit_iff.1 hhigh
      obtain ⟨hlow, hd⟩ := isDigit_iff.1 hlow
      exact ⟨_, .inl (renderOctet_ofNat hhigh hlow).symm, .cons hc (.cons hd .nil)⟩

/-! ## Texts as they are written -/

/-- The groups that are written are those of the octets. -/
theorem splitOn_render (m : Mac) : m.render.toList.splitOn ':' = m.octets.map renderOctet := by
  have hcolon : ∀ group ∈ m.octets.map renderOctet, ':' ∉ group := by
    intro group hgroup hmem
    obtain ⟨b, -, rfl⟩ := List.mem_map.1 hgroup
    have hplain : IsPlain (renderOctet b) b := loosens_renderOctet_iff.1 (.refl _)
    exact (IsGroup.apart (.inl hplain) ':' hmem).2 rfl
  have hne : m.octets.map renderOctet ≠ [] := fun h => m.octets_ne_nil (List.map_eq_nil_iff.1 h)
  rw [render, String.toList_ofList, renderChars]
  exact List.splitOn_intercalate ':' hcolon hne

theorem forall₂_loosens_iff {octets : List UInt8} {groups : List (List Char)} :
    List.Forall₂ Loosens (octets.map renderOctet) groups ↔ List.Forall₂ IsPlain groups octets := by
  rw [List.forall₂_map_left_iff]
  constructor
  · intro h
    exact (h.imp fun _ _ => loosens_renderOctet_iff.1).flip
  · intro h
    exact (List.Forall₂.flip h).imp fun _ _ => loosens_renderOctet_iff.2

/-- What is written for an address, respelt, is any text that spells it in digits alone. -/
theorem respelt_render_iff {m : Mac} {s : String} : Respelt m.render s ↔ Spells IsPlain s m := by
  simp only [Respelt, Spells, splitOn_render, forall₂_loosens_iff]

/-- Nothing need happen to a text. -/
theorem Respelt.refl (s : String) : Respelt s s := by
  refine ⟨[], s.toList.splitOn ':', [], ?_, List.forall_mem_nil _, List.forall_mem_nil _, ?_⟩
  · rw [List.intercalate_splitOn, List.nil_append, List.append_nil]
  · exact List.forall₂_same.2 fun group _ => .refl group

theorem parse?_render (m : Mac) : parse? m.render = some m :=
  parse?_eq_some_iff.2 (spells_plain_iff.1 (respelt_render_iff.1 (.refl m.render))).1

theorem length_render (m : Mac) : m.render.length = 17 := by
  obtain ⟨octets, hlength⟩ := m
  rw [render, String.length_ofList, renderChars]
  match octets, hlength with
  | [a, b, c, d, e, f], _ => rfl

/-- **An address survives its text.** The texts read as an address without a sign in them are what is written for it,
with blanks put around, any letters raised to upper case, and in any groups the zero at their front left out. So what
is written is read as the same address and tells it from any other, and it is always of seventeen characters. Whatever
text was read, with a sign in it or not, what is written for the address it spells is read as that address again, so
that reading and writing once more changes nothing. -/
theorem render_reads_back :
    (∀ (m : Mac) s, Respelt m.render s ↔ parse? s = some m ∧ '+' ∉ s.toList) ∧
      (∀ m : Mac, parse? m.render = some m) ∧ Function.Injective render ∧ (∀ m : Mac, m.render.length = 17) ∧
      ∀ s, (parse? s).bind (fun m => parse? m.render) = parse? s ∧
        ((parse? s).map render).bind (fun shown => (parse? shown).map render) = (parse? s).map render := by
  refine ⟨?_, parse?_render, ?_, length_render, ?_⟩
  · intro m s
    rw [respelt_render_iff, spells_plain_iff, parse?_eq_some_iff]
  · intro m m' h
    refine Option.some.inj ?_
    rw [← parse?_render m, h, parse?_render]
  · intro s
    cases hs : parse? s with
    | none => exact ⟨rfl, rfl⟩
    | some m =>
      constructor
      · rw [Option.bind_some, parse?_render]
      · rw [Option.map_some, Option.bind_some, parse?_render, Option.map_some]

/-- An address with zeros left out, a letter raised, and blanks around. -/
theorem render_reads_back_loosened :
    let m : Mac := ⟨[2, 0, 0x1b, 0, 10, 0xff], rfl⟩
    m.render = "02:00:1b:00:0a:ff" ∧ Respelt m.render "\t2:0:1B:00:A:fF \n" ∧
      parse? "\t2:0:1B:00:A:fF \n" = some m := by
  intro m
  obtain ⟨hrespelt, -⟩ := render_reads_back
  have hread : parse? "\t2:0:1B:00:A:fF \n" = some m := by decide
  exact ⟨by decide, (hrespelt m _).2 ⟨hread, by decide⟩, hread⟩

end Mac

end Patchbay
