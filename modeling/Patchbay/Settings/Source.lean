/-!
# `Patchbay.Settings.Source` — where configured values come from

A source gives a text for some keys. Two kinds matter: a list of pairs keyed by dotted names, in which a
later pair replaces an earlier one, and the environment, whose variable names are made from the dotted names.
The environment is a block of lines in the order of the variables' names, each a name, an equals sign and a
text, and it is searched line by line: a wanted name that holds an equals sign itself reads on into the text of
a shorter name.

## Contents
* `Source` — the texts by key; `Source.ofPairs` — a list in which the last pair of a key counts;
* `variableName` — the environment's name for a dotted key;
* `Source.ofEnvironment` — dotted keys looked up under their variable names;
* `putVariable`, `lineText?`, `Source.ofVariables` — how a block of variables is made and searched;
* `ownName`, `sharedName` — the dotted names of a setting.
-/

namespace Patchbay.Settings

/-- The configured texts by key. -/
abbrev Source := String → Option String

/-- The texts of a list of pairs; of two pairs with one key the later one counts. -/
def Source.ofPairs (pairs : List (String × String)) : Source :=
  fun key => (pairs.reverse.find? (·.1 == key)).map (·.2)

/-- The environment's spelling of one character of a key. -/
def variableChar (c : Char) : Char :=
  if c = '.' ∨ c = '-' then '_' else c.toUpper

/-- The environment's name for a dotted key: dots and dashes become underscores, ASCII letters capitals. -/
def variableName (key : String) : String :=
  String.ofList (key.toList.map variableChar)

/-- Dotted keys looked up in an environment. -/
def Source.ofEnvironment (environment : Source) : Source :=
  fun key => environment (variableName key)

/-! ## Variables -/

/-- A block of variables with one more in its place by name; it replaces one of the same name. -/
def putVariable (block : List (String × String)) (v : String × String) : List (String × String) :=
  match block with
  | [] => [v]
  | w :: rest =>
    if v.1 = w.1 then v :: rest
    else if v.1 < w.1 then v :: w :: rest
    else w :: putVariable rest v

/-- What stands behind a name and an equals sign in the line of a variable, if the line begins with them. -/
def lineText? (name : String) (v : String × String) : Option String :=
  (List.isPrefixOf? (name ++ "=").toList (v.1 ++ "=" ++ v.2).toList).map String.ofList

/-- The texts that an environment of the given variables holds. -/
def Source.ofVariables (pairs : List (String × String)) : Source :=
  fun name => (pairs.foldl putVariable []).findSome? (lineText? name)

/-! ## The names of a setting -/

/-- What every dotted name begins with. -/
def keyRoot : String := "netsplice"

/-- The name of a setting for one instance. -/
def ownName (name key : String) : String :=
  keyRoot ++ "." ++ name ++ "." ++ key

/-- The name of a setting for every instance that has none of its own. -/
def sharedName (key : String) : String :=
  keyRoot ++ "." ++ key

end Patchbay.Settings
