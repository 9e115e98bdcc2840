import ResumePress.Text.Utf8

/-!
Environments: variables with bytes as their values. A variable whose bytes are not text counts as
not set.
-/

namespace ResumePress.Config

/-- Variables and their values. -/
structure Environment where
  values : List (String × ByteArray)

namespace Environment

/-- The text of a variable that is set. -/
def get? (env : Environment) (name : String) : Option String :=
  (env.values.lookup name).bind Text.decode?

/-- The environment with a variable set, unless it is set already. -/
def default (env : Environment) (name value : String) : Environment :=
  match env.get? name with
  | some _ => env
  | none => ⟨(name, Text.encode value) :: env.values.filter (·.1 != name)⟩

end Environment

end ResumePress.Config
