import TapeMachine.Settings.Environment
import TapeMachine.Settings.File

/-!
# Loading the settings

The layers of a run are, from the top down: the flags, the environment, the settings file, the
defaults.  The file is read only when the environment has nothing bad in it.

## Main definitions

* `Settings.Loading` — the file that was read, and the shape that came out.
* `Settings.load` — all layers put together.
-/

namespace TapeMachine.Settings

/-- What came of loading the settings. -/
structure Loading where
  /-- The settings file, if there is one and it was read. -/
  file : Option FileReading
  /-- The shape of the tape, or why there is none. -/
  shape : Except SettingsError Shape

/-- The settings of a file, none of them set if there is no file. -/
def fileLayer (file : Option FileReading) : Settings :=
  (file.map FileReading.settings).getD {}

/-- Puts the flags, the environment and the text of the settings file together. -/
def load (flags : Settings) (lookup : String → Option String) (text : Option String) : Loading :=
  match (underFlags flags lookup).result with
  | .error error => ⟨none, .error error⟩
  | .ok environment =>
    let file := text.map FileReading.ofText
    ⟨file, ((flags.above environment).above (fileLayer file)).resolve⟩

end TapeMachine.Settings
