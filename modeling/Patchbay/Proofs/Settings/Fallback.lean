import Patchbay.Proofs.Mac.Reading
import Patchbay.Proofs.Settings.Instances

/-!
# `Proofs.Settings.Fallback` — a number that is no good, and what is used instead

Three of the settings are numbers. Somebody types them, and a text that spells no number of the setting's type is
passed over as if nothing stood under its name: an instance falls back on the number that all instances share, and if
that is no good either, on what is built in. A tick rate of zero is no good. It is found out behind the look-up only,
so an instance that has one does not fall back on the rate that all instances share.

## Contents
* `Text.Decimal`, `Text.digits?_eq_some_iff` — runs of digits, and the numbers that they stand for;
* `Settings.Spells`, `Settings.number?_eq_some_iff` — the texts that are read as numbers;
* `Source.without` — a name under which nothing stands;
* `Numeric`, `Numeric.Takes`, `Numeric.Rejects` — the settings that are numbers, and what they make of a text;
* `Numeric.resolve_eq_iff` — where one of them makes the only difference;
* `Numeric.rejected_absent_iff` — where a text that is no good counts for nothing; `Numeric.not_absent_zero`.
-/

namespace Patchbay

namespace Text

/-! ## Digits -/

/-- A decimal digit and its value. -/
def IsDecimal (c : Char) (n : Nat) : Prop :=
  "0123456789".toList[n]? = some c

/-- A run of at least one decimal digit, and the number that it stands for. -/
def Decimal (cs : List Char) (n : Nat) : Prop :=
  cs ≠ [] ∧ ∃ values, List.Forall₂ IsDecimal cs values ∧ values.foldl (fun m d => m * 10 + d) 0 = n

/-- Neither a blank nor a sign is a digit. -/
theorem IsDecimal.apart {c : Char} {n : Nat} (h : IsDecimal c n) : isBlank c = false ∧ c ≠ '+' := by
  have hall : "0123456789".toList.all (fun c => !isBlank c && c != '+') = true := by decide
  simpa using List.all_eq_true.1 hall c (List.mem_of_getElem? h)

theorem Decimal.apart {cs : List Char} {n : Nat} (h : Decimal cs n) : ∀ c ∈ cs, isBlank c = false ∧ c ≠ '+' := by
  obtain ⟨-, values, hvalues, -⟩ := h
  exact ((List.forall₂_and_left _ _).1 (hvalues.imp fun _ _ h => ⟨h.apart, h⟩)).1

/-- A character is read as a digit just if it is one. -/
theorem digit?_eq_some_iff {c : Char} {n : Nat} : digit? c = some n ↔ IsDecimal c n := by
  constructor
  · intro h
    have hall : ∀ d ≤ 9, "0123456789".toList[d]? = some (Char.ofNat ('0'.toNat + d)) := by decide
    unfold digit? at h
    split at h
    · obtain ⟨d, hd, hvalue, rfl⟩ := Mac.exists_distance ‹_›
      obtain rfl : d = n := Option.some.inj (hvalue ▸ h)
      exact hall d hd
    · cases h
  · intro h
    have hall : ∀ n < 10, "0123456789".toList[n]?.bind digit? = some n := by decide
    have hread := hall n (List.getElem?_eq_some_iff.1 h).1
    rwa [h] at hread

/-- Digits behind others are read as the number that they make together. -/
theorem digitsFrom?_eq_some_iff {acc n : Nat} {cs : List Char} :
    digitsFrom? acc cs = some n ↔
      ∃ values, List.Forall₂ IsDecimal cs values ∧ values.foldl (fun m d => m * 10 + d) acc = n := by
  induction cs generalizing acc with
  | nil => simp [digitsFrom?]
  | cons c rest ih =>
    rw [digitsFrom?, Option.bind_eq_some_iff]
    constructor
    · rintro ⟨d, hd, h⟩
      obtain ⟨values, hvalues, hn⟩ := ih.1 h
      exact ⟨d :: values, .cons (digit?_eq_some_iff.1 hd) hvalues, hn⟩
    · rintro ⟨values, hvalues, hn⟩
      cases hvalues with
      | cons hd hvalues => exact ⟨_, digit?_eq_some_iff.2 hd, ih.2 ⟨_, hvalues, hn⟩⟩

/-- What is read of a run of digits is the number that it stands for. -/
theorem digits?_eq_some_iff {cs : List Char} {n : Nat} : digits? cs = some n ↔ Decimal cs n := by
  cases cs with
  | nil => exact ⟨nofun, fun h => absurd rfl h.1⟩
  | cons c rest => exact digitsFrom?_eq_some_iff.trans (and_iff_right (List.cons_ne_nil c rest)).symm

/-! ## Signs -/

/-- What may stand before the digits: nothing, or a plus sign. -/
def IsSign (sign : List Char) : Prop :=
  sign = [] ∨ sign = ['+']

/-- Any text is a sign, which may be missing, and what is unsigned. -/
theorem exists_sign (cs : List Char) : ∃ sign, IsSign sign ∧ cs = sign ++ unsigned cs := by
  unfold unsigned
  split
  · exact ⟨['+'], .inr rfl, rfl⟩
  · exact ⟨[], .inl rfl, rfl⟩

theorem unsigned_append {sign digits : List Char} (hsign : IsSign sign) (hdigits : '+' ∉ digits) :
    unsigned (sign ++ digits) = digits := by
  rcases hsign with rfl | rfl
  · rw [List.nil_append]
    unfold unsigned
    split
    · exact absurd List.mem_cons_self hdigits
    · rfl
  · rfl

end Text

namespace Settings

/-! ## The texts that are read as numbers -/

/-- A text spells a number that lies below a bound: in digits, with blanks around and perhaps a plus sign in front. -/
def Spells (bound : Nat) (text : String) (n : Nat) : Prop :=
  ∃ front sign digits back, text.toList = front ++ (sign ++ digits) ++ back ∧
    (∀ c ∈ front, Text.isBlank c = true) ∧ (∀ c ∈ back, Text.isBlank c = true) ∧
    Text.IsSign sign ∧ Text.Decimal digits n ∧ n < bound

/-- A text is read as a number just if it spells one below the bound. -/
theorem number?_eq_some_iff {bound n : Nat} {text : String} : number? bound text = some n ↔ Spells bound text n := by
  unfold number? Text.natBelow?
  rw [Option.filter_eq_some_iff, Text.digits?_eq_some_iff, decide_eq_true_eq]
  constructor
  · rintro ⟨hdigits, hbound⟩
    obtain ⟨front, back, htext, hfront, hback⟩ := Text.exists_trim text.toList
    obtain ⟨sign, hsign, htrim⟩ := Text.exists_sign (Text.trim text.toList)
    exact ⟨front, sign, _, back, htrim ▸ htext, hfront, hback, hsign, hdigits, hbound⟩
  · rintro ⟨front, sign, digits, back, htext, hfront, hback, hsign, hdigits, hbound⟩
    have hblank : ∀ c ∈ sign ++ digits, Text.isBlank c = false := by
      intro c hc
      rcases List.mem_append.1 hc with hc | hc
      · rcases hsign with rfl | rfl
        · cases hc
        · obtain rfl := List.mem_singleton.1 hc
          decide
      · exact (hdigits.apart c hc).1
    have hplus : '+' ∉ digits := fun h => (hdigits.apart '+' h).2 rfl
    rw [htext, Text.trim_append hfront hblank hback, Text.unsigned_append hsign hplus]
    exact ⟨hdigits, hbound⟩

/-! ## Names under which nothing stands -/

/-- A source less what stands under one name. -/
def Source.without (source : Source) (name : String) : Source :=
  fun key => if key = name then none else source key

theorem Source.without_self (source : Source) (name : String) : source.without name name = none :=
  if_pos rfl

theorem Source.without_of_ne {source : Source} {key name : String} (h : key ≠ name) :
    source.without name key = source key :=
  if_neg h

/-- Different keys have different shared names. -/
theorem sharedName_eq_iff {k k' : String} (hk : k ∈ keys) (hk' : k' ∈ keys) :
    sharedName k = sharedName k' ↔ k = k' := by
  refine ⟨fun h => (variableName_sharedName_eq_iff hk hk').1 (congrArg variableName h), fun h => congrArg _ h⟩

section Without

variable {source : Source} {i key : String}

/-- Without its own name an instance has the value that is shared. -/
theorem lookupNumber_without_own (hkey : key ∈ keys) (bound : Nat) :
    lookupNumber bound (source.without (ownName i key)) i key = (source (sharedName key)).bind (number? bound) := by
  have hne : sharedName key ≠ ownName i key := (ownName_ne_sharedName hkey hkey).symm
  rw [lookupNumber, Source.without_self, Source.without_of_ne hne]
  rfl

/-- Without the shared name it has the value of its own. -/
theorem lookupNumber_without_shared (hkey : key ∈ keys) (bound : Nat) :
    lookupNumber bound (source.without (sharedName key)) i key = (source (ownName i key)).bind (number? bound) := by
  rw [lookupNumber, Source.without_self, Source.without_of_ne (ownName_ne_sharedName hkey hkey)]
  cases (source (ownName i key)).bind (number? bound) <;> rfl

/-- In an environment nothing stands under a name just if its variable is not set. -/
theorem resolve_without_environment {environment : Source} {name : String} (hname : name ∈ ownNames i ++ sharedNames) :
    resolve ((Source.ofEnvironment environment).without name) i =
      resolve (.ofEnvironment (environment.without (variableName name))) i := by
  apply resolve_congr
  intro key hkey
  show (if key = name then none else environment (variableName key)) =
    if variableName key = variableName name then none else environment (variableName key)
  have hspelt : variableName key = variableName name ↔ key = name :=
    ⟨key_eq_of_variableName hkey hname, fun h => congrArg _ h⟩
  simp only [hspelt]

end Without

/-! ## The settings that are numbers -/

/-- The settings that are numbers. -/
inductive Numeric where
  | ceiling
  | shutdown
  | rate
deriving DecidableEq

namespace Numeric

/-- The key under which it is looked up. -/
def key : Numeric → String
  | .ceiling => "maxmem"
  | .shutdown => "shutdown_timeout_ms"
  | .rate => "hz"

/-- What bounds the numbers of its type. -/
def bound : Numeric → Nat
  | .ceiling => Text.bound64
  | .shutdown => Text.bound64
  | .rate => Text.bound32

/-- What an instance runs with. -/
def of : Numeric → Settings → Nat
  | .ceiling => Settings.ceiling
  | .shutdown => Settings.shutdownMs
  | .rate => Settings.rate

/-- What it comes to with the number that was looked up, or with none. -/
def settle : Numeric → Option Nat → Nat
  | .ceiling, found => Budget.ceilingFor found
  | .shutdown, found => found.getD defaultShutdownMs
  | .rate, found => (found.filter (0 < ·)).getD Clock.defaultRate

/-- What it comes to with a number that it takes: the number, but for a ceiling below the floor. -/
def use : Numeric → Nat → Nat
  | .ceiling, n => max n Budget.ceilingFloor
  | .shutdown, n => n
  | .rate, n => n

/-- It takes a text for a number: the text spells a number of its type, and a rate is not zero. -/
def Takes (f : Numeric) (text : String) (n : Nat) : Prop :=
  Spells f.bound text n ∧ (f = .rate → 0 < n)

/-- What stands under a name is nothing that it takes. -/
def Rejects (f : Numeric) (source : Source) (name : String) : Prop :=
  ∃ text, source name = some text ∧ ∀ n, ¬ f.Takes text n

variable {source source' : Source} {i name : String} {f : Numeric}

theorem key_mem (f : Numeric) : f.key ∈ keys := by
  cases f <;> decide

/-- A setting is what is looked up under its key, or its default. -/
theorem of_resolve (f : Numeric) (source : Source) (i : String) :
    f.of (resolve source i) = f.settle (lookupNumber f.bound source i f.key) := by
  cases f <;> rfl

/-- Of two sources that differ in one such setting at most, an instance runs with the same just if the setting comes to
the same. -/
theorem resolve_eq_iff (f : Numeric) (h : SameBut [ownName i f.key, sharedName f.key] source source') :
    resolve source i = resolve source' i ↔ f.of (resolve source i) = f.of (resolve source' i) := by
  refine ⟨congrArg f.of, fun hsame => ?_⟩
  have hother {k : String} (hk : k ∈ keys) (hne : k ≠ f.key) :
      source (ownName i k) = source' (ownName i k) ∧ source (sharedName k) = source' (sharedName k) := by
    constructor
    · refine h _ fun hmem => ?_
      rcases List.mem_cons.1 hmem with heq | hmem
      · exact hne ((ownName_eq_iff hk f.key_mem).1 heq).2
      · exact ownName_ne_sharedName hk f.key_mem (List.mem_singleton.1 hmem)
    · refine h _ fun hmem => ?_
      rcases List.mem_cons.1 hmem with heq | hmem
      · exact ownName_ne_sharedName f.key_mem hk heq.symm
      · exact hne ((sharedName_eq_iff hk f.key_mem).1 (List.mem_singleton.1 hmem))
  have htext {k : String} (hk : k ∈ keys) (hne : k ≠ f.key) : lookup source i k = lookup source' i k := by
    rw [lookup, lookup, (hother hk hne).1, (hother hk hne).2]
  have hnumber (g : Numeric) : g.of (resolve source i) = g.of (resolve source' i) := by
    by_cases hg : g.key = f.key
    · obtain rfl : g = f := by
        revert hg
        cases g <;> cases f <;> decide
      exact hsame
    · rw [of_resolve, of_resolve, lookupNumber, lookupNumber, (hother g.key_mem hg).1, (hother g.key_mem hg).2]
  have hparameters := htext (k := "rtparams") (by decide) (by cases f <;> decide)
  have htracking := htext (k := "memtrack") (by decide) (by cases f <;> decide)
  have hceiling := hnumber .ceiling
  have hshutdown := hnumber .shutdown
  have hrate := hnumber .rate
  simp only [of, resolve] at hceiling hshutdown hrate
  simp only [resolve, hparameters, htracking, hceiling, hshutdown, hrate]

/-- To take a name away is no matter of the others. -/
theorem sameBut_without (hname : name ∈ [ownName i f.key, sharedName f.key]) :
    SameBut [ownName i f.key, sharedName f.key] source (source.without name) := by
  intro key hkey
  have hne : key ≠ name := by
    rintro rfl
    exact hkey hname
  exact (Source.without_of_ne hne).symm

/-! ## What is no good -/

/-- The number that is read under a name, if there is one. -/
def read (f : Numeric) (source : Source) (name : String) : Option Nat :=
  (source name).bind (number? f.bound)

/-- A value is read just if there is a text, and it spells it. -/
theorem read_eq_some_iff {n : Nat} :
    f.read source name = some n ↔ ∃ text, source name = some text ∧ Spells f.bound text n := by
  rw [read, Option.bind_eq_some_iff]
  exact exists_congr fun text => and_congr_right fun _ => number?_eq_some_iff

/-- What is no good is not read as a number, or it is read as a rate of zero. -/
theorem Rejects.read (h : f.Rejects source name) :
    f.read source name = none ∨ f = .rate ∧ f.read source name = some 0 := by
  obtain ⟨text, htext, hnone⟩ := h
  cases hread : f.read source name with
  | none => exact .inl rfl
  | some n =>
    obtain ⟨text', htext', hspells⟩ := read_eq_some_iff.1 hread
    obtain rfl := Option.some.inj (htext'.symm.trans htext)
    obtain ⟨hrate, hzero⟩ := Classical.not_imp.1 fun hpositive => hnone n ⟨hspells, hpositive⟩
    exact .inr ⟨hrate, congrArg some (Nat.eq_zero_of_not_pos hzero)⟩

/-- A text that spells no number is rejected. -/
theorem rejects_unread (text : String) (htext : source name = some text) (hread : number? f.bound text = none) :
    f.Rejects source name := by
  refine ⟨text, htext, fun n h => ?_⟩
  cases hread.symm.trans (number?_eq_some_iff.2 h.1)

/-- A rate of nothing is rejected, too. -/
theorem rejects_zero (text : String) (htext : source name = some text) (hread : number? rate.bound text = some 0) :
    rate.Rejects source name := by
  refine ⟨text, htext, fun n h => ?_⟩
  obtain rfl := Option.some.inj (hread.symm.trans (number?_eq_some_iff.2 h.1))
  exact Nat.lt_irrefl 0 (h.2 rfl)

/-- A number that is taken is used. -/
theorem settle_some {n : Nat} (h : f = .rate → 0 < n) : f.settle (some n) = f.use n := by
  cases f with
  | ceiling => rfl
  | shutdown => rfl
  | rate =>
    have hpositive : decide (0 < n) = true := decide_eq_true (h rfl)
    rw [settle, Option.filter_some, if_pos hpositive]
    rfl

/-- An instance has a rate of zero of its own, and all instances share a rate that is good and not the built-in one. -/
def Silences (source : Source) (i : String) : Prop :=
  (∃ text, source (ownName i rate.key) = some text ∧ Spells rate.bound text 0) ∧
    ∃ text n, source (sharedName rate.key) = some text ∧ rate.Takes text n ∧ n ≠ Clock.defaultRate

/-- A rate of its own is silent where it is nothing and hides a shared one that would count. -/
theorem silences_iff : Silences source i ↔
    rate.read source (ownName i rate.key) = some 0 ∧
      rate.settle (rate.read source (sharedName rate.key)) ≠ rate.settle none := by
  rw [Silences, ← read_eq_some_iff]
  refine and_congr_right fun _ => ?_
  constructor
  · rintro ⟨text, n, htext, ⟨hspells, hpositive⟩, hne⟩
    rw [read_eq_some_iff.2 ⟨text, htext, hspells⟩, settle_some hpositive]
    exact hne
  · intro hne
    cases hread : rate.read source (sharedName rate.key) with
    | none =>
      rw [hread] at hne
      exact absurd rfl hne
    | some n =>
      obtain ⟨text, htext, hspells⟩ := read_eq_some_iff.1 hread
      rw [hread] at hne
      have hpositive : 0 < n := by
        refine Nat.pos_of_ne_zero fun hzero => hne ?_
        rw [hzero]
        rfl
      rw [settle_some fun _ => hpositive] at hne
      exact ⟨text, n, htext, ⟨hspells, fun _ => hpositive⟩, hne⟩

theorem of_resolve_eq (f : Numeric) (source : Source) (i : String) : f.of (resolve source i) =
    f.settle (f.read source (ownName i f.key) <|> f.read source (sharedName f.key)) :=
  f.of_resolve source i

/-- Behind a text of its own that is no good, an instance runs with what all instances share, or it has a rate of zero
and runs with the built-in one. -/
theorem Rejects.of_resolve (h : f.Rejects source (ownName i f.key)) :
    ¬ (f = .rate ∧ Silences source i) ∧ f.of (resolve source i) = f.settle (f.read source (sharedName f.key)) ∨
      (f = .rate ∧ Silences source i) ∧ f.of (resolve source i) = f.settle none ∧
        f.settle (f.read source (sharedName f.key)) ≠ f.settle none := by
  rw [of_resolve_eq]
  rcases h.read with hnone | ⟨rfl, hzero⟩
  · refine .inl ⟨?_, by rw [hnone]; rfl⟩
    rintro ⟨rfl, hsilences⟩
    rw [(silences_iff.1 hsilences).1] at hnone
    cases hnone
  · have hbuilt : rate.settle (some 0 <|> rate.read source (sharedName rate.key)) = rate.settle none := rfl
    rw [hzero, hbuilt]
    by_cases hsame : rate.settle (rate.read source (sharedName rate.key)) = rate.settle none
    · exact .inl ⟨fun h => (silences_iff.1 h.2).2 hsame, hsame.symm⟩
    · exact .inr ⟨⟨rfl, silences_iff.2 ⟨hzero, hsame⟩⟩, rfl, hsame⟩

theorem of_resolve_without_own (f : Numeric) (source : Source) (i : String) :
    f.of (resolve (source.without (ownName i f.key)) i) = f.settle (f.read source (sharedName f.key)) := by
  rw [Numeric.of_resolve, lookupNumber_without_own f.key_mem]
  rfl

theorem of_resolve_without_shared (f : Numeric) (source : Source) (i : String) :
    f.of (resolve (source.without (sharedName f.key)) i) = f.settle (f.read source (ownName i f.key)) := by
  rw [Numeric.of_resolve, lookupNumber_without_shared f.key_mem]
  rfl

/-- Nothing is behind what all instances share but what is built in, and a rate of zero comes to that as well. -/
theorem Rejects.resolve_without_shared (h : f.Rejects source (sharedName f.key)) :
    resolve source i = resolve (source.without (sharedName f.key)) i := by
  rw [resolve_eq_iff f (sameBut_without (List.mem_cons_of_mem _ List.mem_cons_self)), of_resolve_eq,
    of_resolve_without_shared]
  cases hread : f.read source (ownName i f.key) with
  | some n => rfl
  | none =>
    rcases h.read with hnone | ⟨rfl, hzero⟩
    · rw [hnone]
      rfl
    · rw [hzero]
      rfl

theorem mem_names (f : Numeric) (hname : name ∈ [ownName i f.key, sharedName f.key]) :
    name ∈ ownNames i ++ sharedNames := by
  rcases List.mem_cons.1 hname with rfl | hname
  · exact List.mem_append_left _ (List.mem_map_of_mem f.key_mem)
  · rw [List.mem_singleton.1 hname]
    exact List.mem_append_right _ (List.mem_map_of_mem f.key_mem)

/-- **What is no good counts for nothing, but for a rate of zero.** Take any source, any instance and each of the three
settings that are numbers. Under the instance's own name stands a text that the setting does not take: apart from blanks
around it, it is not a plus sign or nothing before decimal digits whose number lies below the bound of the type, or the
setting is a rate and the number is zero. Then the instance runs with the same as if nothing stood there, and a text
that the setting takes under the name that all instances share is used; the one and only exception is a rate of zero
where a good rate is shared that is not the built-in one, and there the instance runs with the built-in one. A text that
is no good under the name that all share counts for nothing in any case. And where the source is an environment, nothing
stands under a name just if its variable is not set. -/
theorem rejected_absent_iff (f : Numeric) (source : Source) (i : String) :
    (f.Rejects source (ownName i f.key) →
      (resolve source i = resolve (source.without (ownName i f.key)) i ↔ ¬ (f = .rate ∧ Silences source i)) ∧
      (∀ text n, source (sharedName f.key) = some text → f.Takes text n →
        (f.of (resolve source i) = f.use n ↔ ¬ (f = .rate ∧ Silences source i))) ∧
      (f = .rate → Silences source i → f.of (resolve source i) = Clock.defaultRate)) ∧
    (f.Rejects source (sharedName f.key) → resolve source i = resolve (source.without (sharedName f.key)) i) ∧
    ∀ environment : Source, ∀ name ∈ [ownName i f.key, sharedName f.key],
      resolve ((Source.ofEnvironment environment).without name) i =
        resolve (.ofEnvironment (environment.without (variableName name))) i := by
  refine ⟨fun hown => ⟨?_, fun text n htext htakes => ?_, fun hrate hsilences => ?_⟩,
    fun hshared => hshared.resolve_without_shared,
    fun environment name hname => resolve_without_environment (f.mem_names hname)⟩
  · rw [resolve_eq_iff f (sameBut_without List.mem_cons_self), of_resolve_without_own]
    rcases hown.of_resolve with ⟨hnot, heq⟩ | ⟨hsilences, heq, hne⟩
    · exact iff_of_true heq hnot
    · exact iff_of_false (heq ▸ hne.symm) (not_not_intro hsilences)
  · have huse : f.settle (f.read source (sharedName f.key)) = f.use n := by
      rw [read_eq_some_iff.2 ⟨text, htext, htakes.1⟩, settle_some htakes.2]
    rw [← huse]
    rcases hown.of_resolve with ⟨hnot, heq⟩ | ⟨hsilences, heq, hne⟩
    · exact iff_of_true heq hnot
    · exact iff_of_false (heq ▸ hne.symm) (not_not_intro hsilences)
  · rcases hown.of_resolve with ⟨hnot, -⟩ | ⟨-, heq, -⟩
    · exact absurd ⟨hrate, hsilences⟩ hnot
    · rw [heq, hrate]
      rfl

/-- A ceiling of `lots` falls back on the one that all instances share, and a shared rate of zero counts for nothing. -/
theorem rejected_absent_iff_lots :
    let source := Source.ofPairs
      [("netsplice.echo.maxmem", "lots"), ("netsplice.maxmem", " +67108864 "), ("netsplice.hz", "0")]
    ceiling.Rejects source (ownName "echo" ceiling.key) ∧ ceiling.Takes " +67108864 " 67108864 ∧
      rate.Rejects source (sharedName rate.key) ∧
      resolve source "echo" = resolve (source.without (ownName "echo" ceiling.key)) "echo" ∧
      (resolve source "echo").ceiling = 67108864 ∧
      resolve source "echo" = resolve (source.without (sharedName rate.key)) "echo" := by
  intro source
  have hlots : ceiling.Rejects source (ownName "echo" ceiling.key) :=
    rejects_unread "lots" (by decide) (by decide)
  have hshared : ceiling.Takes " +67108864 " 67108864 := ⟨number?_eq_some_iff.1 (by decide), nofun⟩
  have hzero : rate.Rejects source (sharedName rate.key) := rejects_zero "0" (by decide) (by decide)
  have hother : ¬ (ceiling = rate ∧ Silences source "echo") := fun h => nomatch h.1
  obtain ⟨hceiling, -, -⟩ := rejected_absent_iff ceiling source "echo"
  obtain ⟨habsent, huse, -⟩ := hceiling hlots
  exact ⟨hlots, hshared, hzero, habsent.2 hother, (huse _ _ (by decide) hshared).2 hother,
    (rejected_absent_iff rate source "echo").2.1 hzero⟩

/-- With a rate of zero of its own an instance runs at the built-in rate, and with none at the one that is shared. -/
theorem not_absent_zero :
    let source := Source.ofPairs [("netsplice.echo.hz", "0"), ("netsplice.hz", "1000")]
    (resolve source "echo").rate = 100 ∧
      (resolve (source.without (ownName "echo" rate.key)) "echo").rate = 1000 ∧
      ¬ (rate.Rejects source (ownName "echo" rate.key) →
        resolve source "echo" = resolve (source.without (ownName "echo" rate.key)) "echo") := by
  intro source
  have hbuilt : (resolve source "echo").rate = 100 := by decide
  have hshared : (resolve (source.without (ownName "echo" rate.key)) "echo").rate = 1000 := by decide
  have hrejects : rate.Rejects source (ownName "echo" rate.key) := rejects_zero "0" (by decide) (by decide)
  refine ⟨hbuilt, hshared, fun h => ?_⟩
  rw [h hrejects, hshared] at hbuilt
  cases hbuilt

end Numeric

end Settings

end Patchbay
