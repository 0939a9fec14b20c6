import Mathlib.Data.List.Induction
import Patchbay.Proofs.Settings.Names

/-!
# `Proofs.Settings.Instances` — instances that do not meddle with each other

What an instance runs with depends on ten names, five of its own and five that all instances share, so whatever else a
source says is of no account. It is the same for a list of pairs and for an environment, as far as the environment can
tell the instances apart. An environment keeps its variables in one block of lines and compares the lines with the
wanted name, which comes to a look-up by name as long as no equals sign is in it; an instance whose name holds one
reads on into the text of somebody else's variable.

## Contents
* `ownNames`, `sharedNames`, `resolve_congr` — the names that count;
* `SameBut`, `resolve_sameBut`, `resolve_sameBut_environment` — the names of another instance do not;
* `lineText?_eq`, `findSome?_putVariable`, `Source.ofVariables_eq` — a block of variables as a look-up by name;
* `spelt`, `resolve_spelt` — the same texts in an environment and in a list of pairs;
* `instances_apart` — all of it; `not_apart_sign` — a name with an equals sign.
-/

namespace Patchbay.Settings

/-! ## The names that count -/

/-- The names of an instance's own settings. -/
def ownNames (name : String) : List String :=
  keys.map (ownName name)

/-- The names of the settings that all instances share. -/
def sharedNames : List String :=
  keys.map sharedName

/-- What an instance runs with is determined by the ten names. -/
theorem resolve_congr {source source' : Source} {name : String}
    (h : ∀ key ∈ ownNames name ++ sharedNames, source key = source' key) :
    resolve source name = resolve source' name := by
  have hown : ∀ k ∈ keys, source (ownName name k) = source' (ownName name k) := by
    intro k hk
    exact h _ (List.mem_append_left _ (List.mem_map_of_mem hk))
  have hshared : ∀ k ∈ keys, source (sharedName k) = source' (sharedName k) := by
    intro k hk
    exact h _ (List.mem_append_right _ (List.mem_map_of_mem hk))
  have hlookup : ∀ k ∈ keys, lookup source name k = lookup source' name k := by
    intro k hk
    simp only [lookup, hown k hk, hshared k hk]
  have hnumber : ∀ bound, ∀ k ∈ keys, lookupNumber bound source name k = lookupNumber bound source' name k := by
    intro bound k hk
    simp only [lookupNumber, hown k hk, hshared k hk]
  simp only [resolve, hnumber _ "maxmem" (by decide), hnumber _ "shutdown_timeout_ms" (by decide),
    hnumber _ "hz" (by decide), hlookup "rtparams" (by decide), hlookup "memtrack" (by decide)]

/-- Two sources that differ in the given names at most. -/
def SameBut (names : List String) (source source' : Source) : Prop :=
  ∀ key, key ∉ names → source key = source' key

section Others

variable {source source' : Source} {i j : String}

/-- What is set for another instance is of no account. -/
theorem resolve_sameBut (hne : i ≠ j) (h : SameBut (ownNames j) source source') :
    resolve source i = resolve source' i := by
  apply resolve_congr
  intro key hkey
  apply h
  intro hother
  obtain ⟨k', hk', rfl⟩ := List.mem_map.1 hother
  rcases List.mem_append.1 hkey with hown | hshared
  · obtain ⟨k, hk, heq⟩ := List.mem_map.1 hown
    exact hne ((ownName_eq_iff hk hk').1 heq).1
  · obtain ⟨k, hk, heq⟩ := List.mem_map.1 hshared
    exact ownName_ne_sharedName hk' hk heq.symm

/-- Nor is it in an environment that can tell the two instances apart. -/
theorem resolve_sameBut_environment (hne : variableName i ≠ variableName j)
    (h : SameBut ((ownNames j).map variableName) source source') :
    resolve (.ofEnvironment source) i = resolve (.ofEnvironment source') i := by
  apply resolve_congr
  intro key hkey
  apply h
  intro hother
  obtain ⟨_, hname, hspelt⟩ := List.mem_map.1 hother
  obtain ⟨k', hk', rfl⟩ := List.mem_map.1 hname
  rcases List.mem_append.1 hkey with hown | hshared
  · obtain ⟨k, hk, rfl⟩ := List.mem_map.1 hown
    exact hne ((variableName_ownName_eq_iff hk' hk).1 hspelt).1.symm
  · obtain ⟨k, hk, rfl⟩ := List.mem_map.1 hshared
    exact variableName_ownName_ne_sharedName hk' hk hspelt

end Others

/-! ## A block of variables -/

/-- A separator that is in neither text before it is the first one, so both texts divide there. -/
theorem divides_at_first {α : Type} {sep : α} {xs ys rest rest' : List α} (hxs : sep ∉ xs) (hys : sep ∉ ys)
    (h : xs ++ sep :: rest = ys ++ sep :: rest') : xs = ys ∧ rest = rest' := by
  have hreverse := congrArg List.reverse h
  simp only [List.reverse_append, List.reverse_cons, List.append_assoc, List.singleton_append] at hreverse
  have hparts := divides_at_last (by simpa using hxs) (by simpa using hys) hreverse
  exact ⟨List.reverse_injective hparts.2, List.reverse_injective hparts.1⟩

section Block

variable {name : String}

/-- Between names without an equals sign, a line answers for its own name only, and with its text. -/
theorem lineText?_eq {v : String × String} (hname : '=' ∉ name.toList) (hv : '=' ∉ v.1.toList) :
    lineText? name v = if v.1 = name then some v.2 else none := by
  have hwanted : (name ++ "=").toList = name.toList ++ ['='] := by simp
  have hline : (v.1 ++ "=" ++ v.2).toList = v.1.toList ++ '=' :: v.2.toList := by simp
  unfold lineText?
  rw [hwanted, hline]
  by_cases heq : v.1 = name
  · have hbehind : List.isPrefixOf? (name.toList ++ ['=']) (v.1.toList ++ '=' :: v.2.toList) = some v.2.toList := by
      rw [List.isPrefixOf?_eq_some_iff_append_eq, heq, List.append_assoc]
      rfl
    rw [if_pos heq, hbehind]
    simp
  · rw [if_neg heq, Option.map_eq_none_iff, Option.eq_none_iff_forall_ne_some]
    intro rest hrest
    rw [List.isPrefixOf?_eq_some_iff_append_eq, List.append_assoc] at hrest
    exact heq (String.toList_injective (divides_at_first hname hv hrest).1).symm

theorem findSome?_cons_lineText {v : String × String} (rest : List (String × String)) (hname : '=' ∉ name.toList)
    (hv : '=' ∉ v.1.toList) :
    (v :: rest).findSome? (lineText? name) = if v.1 = name then some v.2 else rest.findSome? (lineText? name) := by
  rw [List.findSome?_cons, lineText?_eq hname hv]
  by_cases h : v.1 = name
  · rw [if_pos h, if_pos h]
  · rw [if_neg h, if_neg h]

/-- Every line of a block has a name without an equals sign. -/
def Plain (vars : List (String × String)) : Prop :=
  ∀ v ∈ vars, '=' ∉ v.1.toList

instance (vars : List (String × String)) : Decidable (Plain vars) :=
  inferInstanceAs (Decidable (∀ v ∈ vars, '=' ∉ v.1.toList))

theorem mem_putVariable {block : List (String × String)} {v w : String × String} (h : w ∈ putVariable block v) :
    w = v ∨ w ∈ block := by
  induction block with
  | nil => exact .inl (List.mem_singleton.1 h)
  | cons u rest ih =>
    unfold putVariable at h
    split at h
    · grind
    · split at h
      · grind
      · grind

/-- Where a variable is put does not matter to the search: it answers for its name, and the block for the others. -/
theorem findSome?_putVariable {block : List (String × String)} {v : String × String} (hname : '=' ∉ name.toList)
    (hv : '=' ∉ v.1.toList) (hblock : Plain block) :
    (putVariable block v).findSome? (lineText? name) =
      if v.1 = name then some v.2 else block.findSome? (lineText? name) := by
  induction block with
  | nil => exact findSome?_cons_lineText [] hname hv
  | cons w rest ih =>
    have hw : '=' ∉ w.1.toList := hblock w List.mem_cons_self
    have ih := ih (fun u hu => hblock u (List.mem_cons_of_mem _ hu))
    unfold putVariable
    by_cases hsame : v.1 = w.1
    · -- the line that is replaced would have answered for the same name
      rw [if_pos hsame, findSome?_cons_lineText rest hname hv, findSome?_cons_lineText rest hname hw, ← hsame]
      by_cases hwanted : v.1 = name
      · rw [if_pos hwanted, if_pos hwanted]
      · rw [if_neg hwanted, if_neg hwanted, if_neg hwanted]
    · rw [if_neg hsame]
      by_cases hbefore : v.1 < w.1
      · rw [if_pos hbefore]
        exact findSome?_cons_lineText (w :: rest) hname hv
      · rw [if_neg hbefore, findSome?_cons_lineText _ hname hw, ih, findSome?_cons_lineText rest hname hw]
        by_cases hwanted : w.1 = name
        · have hother : v.1 ≠ name := fun heq => hsame (heq.trans hwanted.symm)
          rw [if_pos hwanted, if_neg hother, if_pos hwanted]
        · rw [if_neg hwanted, if_neg hwanted]

theorem plain_foldl (vars : List (String × String)) (h : Plain vars) : Plain (vars.foldl putVariable []) := by
  induction vars using List.reverseRecOn with
  | nil => exact h
  | append_singleton front v ih =>
    rw [List.foldl_concat]
    intro w hw
    rcases mem_putVariable hw with rfl | hin
    · exact h w (by simp)
    · exact ih (fun u hu => h u (List.mem_append_left _ hu)) w hin

theorem Source.ofPairs_concat (front : List (String × String)) (v : String × String) (key : String) :
    ofPairs (front ++ [v]) key = if v.1 = key then some v.2 else ofPairs front key := by
  unfold ofPairs
  rw [List.reverse_append, List.reverse_singleton, List.singleton_append, List.find?_cons]
  by_cases h : v.1 = key
  · simp [h]
  · have hne : (v.1 == key) = false := by simpa using h
    rw [hne, if_neg h]

/-- One more pair makes a difference at its own key only. -/
theorem sameBut_concat {names : List String} {v : String × String} (front : List (String × String))
    (h : v.1 ∈ names) : SameBut names (.ofPairs front) (.ofPairs (front ++ [v])) := by
  intro key hkey
  have hne : v.1 ≠ key := fun heq => hkey (heq ▸ h)
  rw [Source.ofPairs_concat, if_neg hne]

/-- A block of variables is searched as the list it was made from: the last of a name counts. -/
theorem Source.ofVariables_eq (vars : List (String × String)) (hname : '=' ∉ name.toList) (h : Plain vars) :
    ofVariables vars name = ofPairs vars name := by
  induction vars using List.reverseRecOn with
  | nil => rfl
  | append_singleton front v ih =>
    have hfront : Plain front := fun u hu => h u (List.mem_append_left _ hu)
    unfold ofVariables
    rw [List.foldl_concat, findSome?_putVariable hname (h v (by simp)) (plain_foldl front hfront), ofPairs_concat]
    split
    · rfl
    · exact ih hfront

end Block

/-! ## The same texts in both -/

/-- The spelling of a character is an equals sign only for the sign itself. -/
theorem variableChar_eq_sign {c : Char} (h : variableChar c = '=') : c = '=' := by
  unfold variableChar at h
  split at h
  · exact absurd h (by decide)
  · unfold Char.toUpper at h
    split at h
    next hlower =>
      -- the capitals lie beyond the equals sign
      obtain ⟨hlow, hhigh⟩ := hlower
      have hval := congrArg (fun c : Char => c.val.toNat) h
      dsimp only at hval
      rw [UInt32.toNat_add] at hval
      rw [UInt32.le_iff_toNat_le] at hlow hhigh
      have hshift : ('A'.val - 'a'.val).toNat = 4294967264 := rfl
      have hsign : '='.val.toNat = 61 := rfl
      have hfirst : 'a'.val.toNat = 97 := rfl
      have hlast : 'z'.val.toNat = 122 := rfl
      omega
    · exact h

theorem sign_notMem_variableName {key : String} (h : '=' ∉ key.toList) : '=' ∉ (variableName key).toList := by
  rw [toList_variableName]
  intro hin
  obtain ⟨c, hc, heq⟩ := List.mem_map.1 hin
  rw [variableChar_eq_sign heq] at hc
  exact h hc

theorem sign_notMem_key {k : String} (hk : k ∈ keys) : '=' ∉ k.toList := by
  revert k
  decide

section Variables

variable {name : String}

theorem sign_notMem_name (hname : '=' ∉ name.toList) {key : String} (hkey : key ∈ ownNames name ++ sharedNames) :
    '=' ∉ key.toList := by
  have hroot : '=' ∉ keyRoot.toList := by decide
  rcases List.mem_append.1 hkey with hown | hshared
  · obtain ⟨k, hk, rfl⟩ := List.mem_map.1 hown
    rw [toList_ownName]
    simp [hroot, hname, sign_notMem_key hk]
  · obtain ⟨k, hk, rfl⟩ := List.mem_map.1 hshared
    rw [toList_sharedName]
    simp [hroot, sign_notMem_key hk]

/-- The ten names of an instance are ten names in the environment too. -/
theorem key_eq_of_variableName {key key' : String} (hkey : key ∈ ownNames name ++ sharedNames)
    (hkey' : key' ∈ ownNames name ++ sharedNames) (h : variableName key = variableName key') : key = key' := by
  rcases List.mem_append.1 hkey with hown | hshared
  · obtain ⟨k, hk, rfl⟩ := List.mem_map.1 hown
    rcases List.mem_append.1 hkey' with hown' | hshared'
    · obtain ⟨k', hk', rfl⟩ := List.mem_map.1 hown'
      rw [((variableName_ownName_eq_iff hk hk').1 h).2]
    · obtain ⟨k', hk', rfl⟩ := List.mem_map.1 hshared'
      exact absurd h (variableName_ownName_ne_sharedName hk hk')
  · obtain ⟨k, hk, rfl⟩ := List.mem_map.1 hshared
    rcases List.mem_append.1 hkey' with hown' | hshared'
    · obtain ⟨k', hk', rfl⟩ := List.mem_map.1 hown'
      exact absurd h.symm (variableName_ownName_ne_sharedName hk' hk)
    · obtain ⟨k', hk', rfl⟩ := List.mem_map.1 hshared'
      rw [(variableName_sharedName_eq_iff hk hk').1 h]

/-- The variables with the texts of a list of dotted names. -/
def spelt (pairs : List (String × String)) : List (String × String) :=
  pairs.map fun p => (variableName p.1, p.2)

theorem Source.ofPairs_append (front back : List (String × String)) (key : String) :
    ofPairs (front ++ back) key = (ofPairs back key <|> ofPairs front key) := by
  induction back using List.reverseRecOn with
  | nil =>
    rw [List.append_nil]
    rfl
  | append_singleton back v ih =>
    rw [← List.append_assoc, ofPairs_concat, ofPairs_concat, ih]
    by_cases h : v.1 = key
    · rw [if_pos h, if_pos h]
      rfl
    · rw [if_neg h, if_neg h]

theorem Source.ofPairs_eq_none {pairs : List (String × String)} {key : String} (h : ∀ p ∈ pairs, p.1 ≠ key) :
    ofPairs pairs key = none := by
  unfold ofPairs
  rw [Option.map_eq_none_iff, List.find?_eq_none]
  intro p hp
  simpa using h p (List.mem_reverse.1 hp)

/-- The variable of one of the ten names holds the text of that name. -/
theorem Source.ofPairs_spelt {pairs : List (String × String)} {key : String}
    (hpairs : ∀ p ∈ pairs, p.1 ∈ ownNames name ++ sharedNames) (hkey : key ∈ ownNames name ++ sharedNames) :
    ofPairs (spelt pairs) (variableName key) = ofPairs pairs key := by
  induction pairs using List.reverseRecOn with
  | nil => rfl
  | append_singleton front p ih =>
    have hp := hpairs p (by simp)
    have ih := ih (fun q hq => hpairs q (List.mem_append_left _ hq))
    unfold spelt at ih ⊢
    rw [List.map_append, List.map_singleton, ofPairs_concat, ofPairs_concat, ih]
    by_cases heq : p.1 = key
    · rw [if_pos heq, if_pos (congrArg variableName heq)]
    · rw [if_neg heq, if_neg (fun hspelt => heq (key_eq_of_variableName hp hkey hspelt))]

/-- An instance runs with the same whether the texts stand under the dotted names or in the variables. -/
theorem resolve_spelt {others pairs : List (String × String)} (hname : '=' ∉ name.toList)
    (hpairs : ∀ p ∈ pairs, p.1 ∈ ownNames name ++ sharedNames) (hothers : Plain others)
    (hapart : ∀ v ∈ others, v.1 ∉ (ownNames name ++ sharedNames).map variableName) :
    resolve (.ofEnvironment (.ofVariables (others ++ spelt pairs))) name = resolve (.ofPairs pairs) name := by
  apply resolve_congr
  intro key hkey
  have hsign := sign_notMem_variableName (sign_notMem_name hname hkey)
  have hplain : Plain (others ++ spelt pairs) := by
    intro v hv
    rcases List.mem_append.1 hv with hother | hours
    · exact hothers v hother
    · obtain ⟨p, hp, rfl⟩ := List.mem_map.1 hours
      exact sign_notMem_variableName (sign_notMem_name hname (hpairs p hp))
  have hsilent : Source.ofPairs others (variableName key) = none := by
    apply Source.ofPairs_eq_none
    intro v hv heq
    exact hapart v hv (heq ▸ List.mem_map_of_mem hkey)
  show Source.ofVariables (others ++ spelt pairs) (variableName key) = Source.ofPairs pairs key
  rw [Source.ofVariables_eq _ hsign hplain, Source.ofPairs_append, hsilent, Source.ofPairs_spelt hpairs hkey]
  cases Source.ofPairs pairs key with
  | none => rfl
  | some text => rfl

end Variables

/-- What an instance runs with does not change with the variables of another one, if its name has no equals sign. -/
theorem resolve_sameBut_variables {i j : String} {vars vars' : List (String × String)} (hi : '=' ∉ i.toList)
    (hne : variableName i ≠ variableName j) (hvars : Plain vars) (hvars' : Plain vars')
    (h : SameBut ((ownNames j).map variableName) (.ofPairs vars) (.ofPairs vars')) :
    resolve (.ofEnvironment (.ofVariables vars)) i = resolve (.ofEnvironment (.ofVariables vars')) i := by
  have hblock : ∀ block, Plain block →
      resolve (.ofEnvironment (.ofVariables block)) i = resolve (.ofEnvironment (.ofPairs block)) i := by
    intro block hplain
    apply resolve_congr
    intro key hkey
    exact Source.ofVariables_eq block (sign_notMem_variableName (sign_notMem_name hi hkey)) hplain
  rw [hblock vars hvars, hblock vars' hvars']
  exact resolve_sameBut_environment hne h

/-! ## Instances apart -/

/-- **Instances do not meddle with each other.** A dotted name tells its instance and its key, and is none of those
that all instances share; an environment name tells the key, and the instance as far as the environment can spell it.
So whatever is set, changed or taken away for one instance, another one runs with what it ran with: in any source, if
the two have different names; in any environment, if it spells them differently; and in any block of variables, if
besides there is no equals sign in the name of the one that is looked at. Such an instance runs with the same, too,
whether its texts stand under dotted names or in the variables, whatever other variables there are. -/
theorem instances_apart (i j : String) :
    (∀ k ∈ keys, ∀ k' ∈ keys,
      (ownName i k = ownName j k' ↔ i = j ∧ k = k') ∧
      ownName i k ≠ sharedName k' ∧
      (variableName (ownName i k) = variableName (ownName j k') ↔ variableName i = variableName j ∧ k = k') ∧
      variableName (ownName i k) ≠ variableName (sharedName k')) ∧
    (i ≠ j → ∀ source source', SameBut (ownNames j) source source' → resolve source i = resolve source' i) ∧
    (variableName i ≠ variableName j → ∀ environment environment',
      SameBut ((ownNames j).map variableName) environment environment' →
      resolve (.ofEnvironment environment) i = resolve (.ofEnvironment environment') i) ∧
    ('=' ∉ i.toList → variableName i ≠ variableName j → ∀ vars vars', Plain vars → Plain vars' →
      SameBut ((ownNames j).map variableName) (.ofPairs vars) (.ofPairs vars') →
      resolve (.ofEnvironment (.ofVariables vars)) i = resolve (.ofEnvironment (.ofVariables vars')) i) ∧
    ('=' ∉ i.toList → ∀ others pairs, (∀ p ∈ pairs, p.1 ∈ ownNames i ++ sharedNames) → Plain others →
      (∀ v ∈ others, v.1 ∉ (ownNames i ++ sharedNames).map variableName) →
      resolve (.ofEnvironment (.ofVariables (others ++ spelt pairs))) i = resolve (.ofPairs pairs) i) := by
  refine ⟨?_, ?_, ?_, ?_, ?_⟩
  · intro k hk k' hk'
    exact ⟨ownName_eq_iff hk hk', ownName_ne_sharedName hk hk', variableName_ownName_eq_iff hk hk',
      variableName_ownName_ne_sharedName hk hk'⟩
  · intro hne source source' h
    exact resolve_sameBut hne h
  · intro hne environment environment' h
    exact resolve_sameBut_environment hne h
  · intro hi hne vars vars' hvars hvars' h
    exact resolve_sameBut_variables hi hne hvars hvars' h
  · intro hi others pairs hpairs hothers hapart
    exact resolve_spelt hi hpairs hothers hapart

/-- What `lab` is given makes no difference to `echo`. -/
theorem instances_apart_echo :
    let pairs := [("netsplice.hz", "1000"), ("netsplice.echo.hz", "250")]
    let added := pairs ++ [("netsplice.lab.hz", "50")]
    ownName "echo" "hz" ≠ sharedName "hz" ∧
      "echo" ≠ "lab" ∧ SameBut (ownNames "lab") (.ofPairs pairs) (.ofPairs added) ∧
      resolve (.ofPairs pairs) "echo" = resolve (.ofPairs added) "echo" ∧
      variableName "echo" ≠ variableName "lab" ∧ '=' ∉ "echo".toList ∧ Plain (spelt pairs) ∧ Plain (spelt added) ∧
      SameBut ((ownNames "lab").map variableName) (.ofPairs (spelt pairs)) (.ofPairs (spelt added)) ∧
      resolve (.ofEnvironment (.ofPairs (spelt pairs))) "echo" =
        resolve (.ofEnvironment (.ofPairs (spelt added))) "echo" ∧
      resolve (.ofEnvironment (.ofVariables (spelt pairs))) "echo" =
        resolve (.ofEnvironment (.ofVariables (spelt added))) "echo" ∧
      resolve (.ofEnvironment (.ofVariables ([("NETSPLICE_LAB_HZ", "50")] ++ spelt pairs))) "echo" =
        resolve (.ofPairs pairs) "echo" ∧
      (resolve (.ofPairs pairs) "echo").rate = 250 := by
  obtain ⟨hnames, hsource, henvironment, hvariables, hsame⟩ := instances_apart "echo" "lab"
  have hset : SameBut (ownNames "lab") (.ofPairs [("netsplice.hz", "1000"), ("netsplice.echo.hz", "250")])
      (.ofPairs ([("netsplice.hz", "1000"), ("netsplice.echo.hz", "250")] ++ [("netsplice.lab.hz", "50")])) :=
    sameBut_concat _ (by decide)
  have hspelt : SameBut ((ownNames "lab").map variableName)
      (.ofPairs (spelt [("netsplice.hz", "1000"), ("netsplice.echo.hz", "250")]))
      (.ofPairs (spelt ([("netsplice.hz", "1000"), ("netsplice.echo.hz", "250")] ++ [("netsplice.lab.hz", "50")]))) :=
    sameBut_concat (v := (variableName "netsplice.lab.hz", "50")) _ (by decide)
  refine ⟨(hnames "hz" (by decide) "hz" (by decide)).2.1, by decide, hset, hsource (by decide) _ _ hset, by decide,
    by decide, by decide, by decide, hspelt, henvironment (by decide) _ _ hspelt,
    hvariables (by decide) (by decide) _ _ (by decide) (by decide) hspelt,
    hsame (by decide) _ _ (by decide) (by decide) (by decide), by decide +kernel⟩

/-- Of an instance whose name holds an equals sign, the environment reads a setting in another instance's text: a line
of `x` begins with the name of a variable of `x_rtparams=b`. -/
theorem not_apart_sign :
    let vars := [("NETSPLICE_X_RTPARAMS", "B_HZ=77")]
    variableName "x_rtparams=b" ≠ variableName "x" ∧ Plain [] ∧ Plain vars ∧
      SameBut ((ownNames "x").map variableName) (.ofPairs []) (.ofPairs vars) ∧
      (resolve (.ofEnvironment (.ofVariables [])) "x_rtparams=b").rate = 100 ∧
      (resolve (.ofEnvironment (.ofVariables vars)) "x_rtparams=b").rate = 77 ∧
      resolve (.ofEnvironment (.ofVariables [])) "x_rtparams=b" ≠
        resolve (.ofEnvironment (.ofVariables vars)) "x_rtparams=b" := by
  have hwithout : (resolve (.ofEnvironment (.ofVariables [])) "x_rtparams=b").rate = 100 := by decide +kernel
  have hwith : (resolve (.ofEnvironment (.ofVariables [("NETSPLICE_X_RTPARAMS", "B_HZ=77")])) "x_rtparams=b").rate =
      77 := by decide +kernel
  refine ⟨by decide, by decide, by decide, sameBut_concat [] (by decide), hwithout, hwith, ?_⟩
  intro h
  rw [h, hwith] at hwithout
  cases hwithout

end Patchbay.Settings
