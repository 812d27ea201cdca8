import Rewind.Config.Basic
import Rewind.Text.Blank
import Rewind.Text.Number

/-!
Settings from the environment: variables named after a setting, in letters of either case, behind
a common beginning. They are taken one by one, so a value that cannot be taken leaves those before
it in force.
-/

namespace Rewind.Config

open Storage (Pathname)

/-- What the names of all variables begin with. -/
def variableLead : String := "N64_REPLAY_"

/-- The setting that a variable is named after, or `none` for a variable that is not ours. -/
def settingOf? (key : String) : Option Setting :=
  let front := variableLead.toList
  let cs := key.toList
  if cs.take front.length = front then
    setting? (String.ofList ((cs.drop front.length).map Char.toLower))
  else none

/-- A truth value in one of its spellings. -/
def flag? (value : String) : Option Bool :=
  let word := String.ofList ((Text.trim value.toList).map Char.toLower)
  if word ∈ ["1", "true", "yes", "on"] then some true
  else if word ∈ ["0", "false", "no", "off"] then some false
  else none

/-- A variable's value, if a setting of the given kind can take it. -/
def ofVariable? (value : String) : (kind : Kind) → Option kind.Value
  | .path => some (Pathname.mk value)
  | .flag => flag? value
  | .number bound => Text.unsignedBelow? bound (Text.trim value.toList)

/-- Puts one variable into the settings. -/
def override (key value : String) (c : Config) : Except Error Config :=
  match settingOf? key with
  | none => .ok c
  | some s =>
    match ofVariable? value s.kind with
    | some v => .ok (s.set v c)
    | none => .error (.env key value)

/-- Puts variables into the settings in order, up to the first that cannot be taken. -/
def applyOverrides : List (String × String) → Config → Except Error Unit × Config
  | [], c => (.ok (), c)
  | (key, value) :: rest, c =>
    match override key value c with
    | .ok c => applyOverrides rest c
    | .error e => (.error e, c)

/-- The settings from a file, if one is given, and from the environment. -/
def load [Monad m] [Files m] (path : Option Pathname) (vars : List (String × String)) :
    m (Except Error Config) := do
  let base ← match path with
    | some path => read path
    | none => pure (.ok {})
  match base with
  | .error e => return .error e
  | .ok c =>
    match applyOverrides vars c with
    | (.ok (), c) => return .ok c
    | (.error e, _) => return .error e

end Rewind.Config
