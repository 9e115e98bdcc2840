import ResumePress.Json

/-!
Reading records. A record is given as an object, where members of other names are passed over, or
as a list of exactly its fields in order. A choice without content is given by its name, or as an
object whose only member has that name and no value.
-/

namespace ResumePress.Json

/-- The fields of a record in order; one that an object does not have is `none`. -/
def fields? (names : List String) : Json → Option (List (Option Json))
  | .obj members => some (names.map fun name => members.lookup name)
  | .arr elements => if elements.length = names.length then some (elements.map some) else none
  | _ => none

/-- A text. -/
def text? : Json → Option String
  | .str s => some s
  | _ => none

/-- A truth value. -/
def bool? : Json → Option Bool
  | .bool b => some b
  | _ => none

/-- A whole number below a bound. -/
def below? (bound : Nat) : Json → Option Nat
  | .int n => if 0 ≤ n ∧ n < bound then some n.toNat else none
  | _ => none

/-- A list of texts. -/
def texts? : Json → Option (List String)
  | .arr elements => elements.mapM text?
  | _ => none

/-- An object whose values are texts. -/
def textMap? : Json → Option (List (String × String))
  | .obj members => members.mapM fun m => m.2.text?.map fun s => (m.1, s)
  | _ => none

/-- A field that has to be there. -/
def required {α : Type} (read : Json → Option α) : Option Json → Option α
  | some value => read value
  | none => none

/-- A field that may be missing or null. -/
def optional {α : Type} (read : Json → Option α) : Option Json → Option (Option α)
  | none => some none
  | some .null => some none
  | some value => (read value).map some

/-- The name of a choice without content. -/
def choice? : Json → Option String
  | .str s => some s
  | .obj [(name, .null)] => some name
  | _ => none

end ResumePress.Json
