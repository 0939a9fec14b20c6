import Mathlib.Data.List.Basic
import Patchbay.Settings

/-!
# `Proofs.Settings.Names` — no two settings share a name

A dotted name is made of a root, an instance and a key, and an instance may be any text, dots and dashes among it.
The keys hold no dot, so the last dot of a name says where its key begins, and nothing else can be read from it. In
the environment's spelling that dot is an underscore as any other, and a key holds underscores too; there a name tells
its key by its last three characters.

## Contents
* `keys` — the keys of the settings that an instance runs with;
* `ownName_eq_iff`, `ownName_ne_sharedName` — dotted names;
* `ending`, `key_eq_of_ending` — what an environment name ends in;
* `variableName_ownName_eq_iff`, `variableName_ownName_ne_sharedName` — environment names.
-/

namespace Patchbay.Settings

/-- The keys of the settings that an instance runs with. -/
def keys : List String :=
  ["maxmem", "rtparams", "memtrack", "shutdown_timeout_ms", "hz"]

/-! ## Dotted names -/

/-- A separator that is in neither rest is the last one, so both texts divide there. -/
theorem divides_at_last {α : Type} {sep : α} {xs ys rest rest' : List α} (hrest : sep ∉ rest) (hrest' : sep ∉ rest')
    (h : xs ++ sep :: rest = ys ++ sep :: rest') : xs = ys ∧ rest = rest' := by
  rcases List.append_eq_append_iff.1 h with ⟨mid, hys, hmid⟩ | ⟨mid, hxs, hmid⟩
  · cases mid with
    | nil =>
      rw [List.append_nil] at hys
      exact ⟨hys.symm, (List.cons.inj hmid).2⟩
    | cons first mid =>
      have hin : sep ∈ rest := by
        rw [(List.cons.inj hmid).2]
        simp
      exact absurd hin hrest
  · cases mid with
    | nil =>
      rw [List.append_nil] at hxs
      exact ⟨hxs, ((List.cons.inj hmid).2).symm⟩
    | cons first mid =>
      have hin : sep ∈ rest' := by
        rw [(List.cons.inj hmid).2]
        simp
      exact absurd hin hrest'

theorem toList_ownName (i k : String) :
    (ownName i k).toList = (keyRoot.toList ++ '.' :: i.toList) ++ '.' :: k.toList := by
  simp [ownName]

theorem toList_sharedName (k : String) : (sharedName k).toList = keyRoot.toList ++ '.' :: k.toList := by
  simp [sharedName]

theorem dot_notMem_key {k : String} (hk : k ∈ keys) : '.' ∉ k.toList := by
  revert k
  decide

/-- A dotted name tells the instance and the key. -/
theorem ownName_eq_iff {i j k k' : String} (hk : k ∈ keys) (hk' : k' ∈ keys) :
    ownName i k = ownName j k' ↔ i = j ∧ k = k' := by
  constructor
  · intro h
    have hlist := congrArg String.toList h
    rw [toList_ownName, toList_ownName] at hlist
    obtain ⟨hfront, hkey⟩ := divides_at_last (dot_notMem_key hk) (dot_notMem_key hk') hlist
    have hinstance := (List.cons.inj (List.append_cancel_left hfront)).2
    exact ⟨String.toList_injective hinstance, String.toList_injective hkey⟩
  · rintro ⟨rfl, rfl⟩
    rfl

/-- The name of an instance's own setting is not one of those that all instances share. -/
theorem ownName_ne_sharedName {i k k' : String} (hk : k ∈ keys) (hk' : k' ∈ keys) :
    ownName i k ≠ sharedName k' := by
  intro h
  have hlist := congrArg String.toList h
  rw [toList_ownName, toList_sharedName] at hlist
  have hfront := (divides_at_last (dot_notMem_key hk) (dot_notMem_key hk') hlist).1
  have hlength := congrArg List.length hfront
  simp at hlength

/-! ## Environment names -/

theorem toList_variableName (key : String) : (variableName key).toList = key.toList.map variableChar := by
  simp [variableName]

/-- What an environment name ends in: an underscore and the spelling of the key. -/
def keyPart (k : String) : List Char :=
  '_' :: (variableName k).toList

theorem toList_variableName_ownName (i k : String) :
    (variableName (ownName i k)).toList =
      (variableName keyRoot).toList ++ '_' :: (variableName i).toList ++ keyPart k := by
  simp [toList_variableName, toList_ownName, keyPart, variableChar]

theorem toList_variableName_sharedName (k : String) :
    (variableName (sharedName k)).toList = (variableName keyRoot).toList ++ keyPart k := by
  simp [toList_variableName, toList_sharedName, keyPart, variableChar]

/-- The last three characters, backwards. -/
def ending (text : List Char) : List Char :=
  text.reverse.take 3

theorem ending_append_keyPart (text : List Char) {k : String} (hk : k ∈ keys) :
    ending (text ++ keyPart k) = ending (keyPart k) := by
  have hlength : 3 ≤ (keyPart k).reverse.length := by
    revert k
    decide
  unfold ending
  rw [List.reverse_append, List.take_append_of_le_length hlength]

/-- No two keys end in the same three characters, counting the underscore before them. -/
theorem key_eq_of_ending {k k' : String} (hk : k ∈ keys) (hk' : k' ∈ keys)
    (h : ending (keyPart k) = ending (keyPart k')) : k = k' := by
  have hall : ∀ k ∈ keys, ∀ k' ∈ keys, ending (keyPart k) = ending (keyPart k') → k = k' := by decide
  exact hall k hk k' hk' h

/-- Two environment names that are the same are so in the key and in what stands before it. -/
theorem divides_at_keyPart {xs ys : List Char} {k k' : String} (hk : k ∈ keys) (hk' : k' ∈ keys)
    (h : xs ++ keyPart k = ys ++ keyPart k') : xs = ys ∧ k = k' := by
  have hending := congrArg ending h
  rw [ending_append_keyPart xs hk, ending_append_keyPart ys hk'] at hending
  obtain rfl := key_eq_of_ending hk hk' hending
  exact ⟨List.append_cancel_right h, rfl⟩

/-- An environment name tells the key, and the instance as far as the environment can spell it. -/
theorem variableName_ownName_eq_iff {i j k k' : String} (hk : k ∈ keys) (hk' : k' ∈ keys) :
    variableName (ownName i k) = variableName (ownName j k') ↔ variableName i = variableName j ∧ k = k' := by
  constructor
  · intro h
    have hlist := congrArg String.toList h
    rw [toList_variableName_ownName, toList_variableName_ownName] at hlist
    obtain ⟨hfront, hkey⟩ := divides_at_keyPart hk hk' hlist
    have hinstance := (List.cons.inj (List.append_cancel_left hfront)).2
    exact ⟨String.toList_injective hinstance, hkey⟩
  · rintro ⟨hinstance, rfl⟩
    apply String.toList_injective
    rw [toList_variableName_ownName, toList_variableName_ownName, hinstance]

/-- The variable of an instance's own setting is not one of those that all instances share. -/
theorem variableName_ownName_ne_sharedName {i k k' : String} (hk : k ∈ keys) (hk' : k' ∈ keys) :
    variableName (ownName i k) ≠ variableName (sharedName k') := by
  intro h
  have hlist := congrArg String.toList h
  rw [toList_variableName_ownName, toList_variableName_sharedName] at hlist
  have hfront := (divides_at_keyPart hk hk' hlist).1
  have hlength := congrArg List.length hfront
  simp at hlength

theorem variableName_sharedName_eq_iff {k k' : String} (hk : k ∈ keys) (hk' : k' ∈ keys) :
    variableName (sharedName k) = variableName (sharedName k') ↔ k = k' := by
  constructor
  · intro h
    have hlist := congrArg String.toList h
    rw [toList_variableName_sharedName, toList_variableName_sharedName] at hlist
    exact (divides_at_keyPart hk hk' hlist).2
  · rintro rfl
    rfl

end Patchbay.Settings
