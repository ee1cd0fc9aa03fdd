import SchemaNaming.Config.Data
import SchemaNaming.Config.Utf8
import SchemaNaming.RunConfig

/-!
# The shape of a configuration

Data are a configuration if they are a mapping in which `enabled` is absent, null or a list of
texts and `disabled` is absent or a list of texts. Other keys do not matter, and no value is made
a text that is none — except bytes, which are one if they are UTF-8. A set counts as a list.

* `Data.texts?` — a list of texts;
* `Data.config?` — the configuration that the data are.
-/

namespace SchemaNaming.Config.Data

/-- The text that a member of a list is. -/
def member? : Data → Option String
  | text s => some s
  | bytes b => (Utf8.decode b).toOption.map String.ofList
  | _ => none

/-- The texts that a list holds, if it holds nothing else. -/
def texts? : Data → Option (List String)
  | sequence xs => xs.mapM member?
  | set xs => xs.mapM member?
  | _ => none

/-- The allow list that the value under `enabled` gives. -/
def enabled? : Option Data → Option (Option (List String))
  | none => some none
  | some null => some none
  | some d => d.texts?.map some

/-- The disabled names that the value under `disabled` gives. -/
def disabled? : Option Data → Option (List String)
  | none => some []
  | some d => d.texts?

/-- The configuration that the data are. -/
def config? : Data → Option RunConfig
  | mapping es => do
    let enabled ← enabled? (get? es "enabled")
    let disabled ← disabled? (get? es "disabled")
    return { enabled, disabled := some disabled }
  | _ => none

end SchemaNaming.Config.Data
