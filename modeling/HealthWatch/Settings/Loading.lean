import HealthWatch.Settings.Problem
import HealthWatch.Settings.Reading
import HealthWatch.Yaml.Legible

/-!
# Loading settings

Settings from the text of a YAML file: it has to be a document that fits, and the settings must
have no problems.
-/

set_option autoImplicit false

namespace HealthWatch

/-- Why settings cannot be loaded. -/
inductive SettingsError where
  | unreadable (failure : ReadFailure)
  /-- The text is no document, or does not fit. -/
  | misfit
  /-- The settings have problems, which the text tells. -/
  | invalid (text : String)
deriving Repr

namespace SettingsError

/-- The wording of a failure to load settings. That of a text which does not fit ends where the
words of the data format would begin. -/
def message : SettingsError → String
  | unreadable failure => "failed to read configuration file: " ++ failure.message
  | misfit => "failed to parse YAML"
  | invalid text => "configuration validation failed: " ++ text

end SettingsError

namespace Settings

/-- The settings that a text spells, or why it spells none that are valid. -/
def ofText (text : String) : Except SettingsError Settings :=
  match Yaml.decode? read text with
  | none => .error .misfit
  | some settings =>
    match settings.validate with
    | .ok () => .ok settings
    | .error text => .error (.invalid text)

/-- The settings in a file that was read, or not. -/
def ofFile (content : Except ReadFailure String) : Except SettingsError Settings :=
  (content.mapError .unreadable).bind ofText

end Settings

end HealthWatch
