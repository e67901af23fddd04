import TapeMachine.Settings

/-!
# Settings in the environment

Each setting can be given in an environment variable.  A variable is looked up only if no flag gives
its setting, so that what it holds cannot matter otherwise, and nothing more is looked up after a bad
value.

## Main definitions

* `Settings.Inquiry` — what was looked up, and what came of it.
* `Settings.underFlags` — the settings of the environment under those of the flags.
-/

namespace TapeMachine.Settings

/-- A look into the environment. -/
structure Inquiry (α : Type) where
  /-- The names of the variables that were looked up, in order. -/
  asked : List String
  /-- What they gave. -/
  result : Except SettingsError α

/-- What the environment gives a setting that the flags give `flag`. -/
def askFor (setting : Setting) (flag : Option Nat) (lookup : String → Option String) :
    Inquiry (Option Nat) :=
  match flag with
  | some _ => ⟨[], .ok none⟩
  | none =>
    match lookup setting.variableName with
    | none => ⟨[setting.variableName], .ok none⟩
    | some value => ⟨[setting.variableName], (setting.parse setting.variableName value).map some⟩

/-- The settings of the environment that the flags do not give. -/
def underFlags (flags : Settings) (lookup : String → Option String) : Inquiry Settings :=
  let bits := askFor .cellBits flags.cellBits lookup
  match bits.result with
  | .error error => ⟨bits.asked, .error error⟩
  | .ok cellBits =>
    let size := askFor .memorySize flags.memorySize lookup
    ⟨bits.asked ++ size.asked, size.result.map fun memorySize => ⟨cellBits, memorySize⟩⟩

/-- All settings of the environment. -/
def ofVariables (lookup : String → Option String) : Inquiry Settings :=
  underFlags {} lookup

end TapeMachine.Settings
