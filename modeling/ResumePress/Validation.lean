import ResumePress.Latex.Document
import ResumePress.Template.Basic
import ResumePress.Toolchain

/-!
Validation of templates. A template is valid if its source has the shape of a document and every
font and package that it requires is found; packages that are merely recommended give warnings. A
probe that crashes takes the place of all findings of its kind.
-/

namespace ResumePress

open Latex

/-- What is wrong with a template, and what could be better. -/
structure Validation where
  isValid : Bool
  errors : List String
  warnings : List String
deriving DecidableEq, Repr

namespace Validation

/-- The verdict on errors and warnings: a template without errors is valid. -/
def ofFindings (errors warnings : List String) : Validation :=
  ⟨errors.isEmpty, errors, warnings⟩

/-- The members of the record. -/
def fieldNames : List String := ["isValid", "errors", "warnings"]

/-- The record as a value. -/
def toJson (v : Validation) : Json :=
  .obj [("isValid", .bool v.isValid), ("errors", .ofTexts v.errors),
    ("warnings", .ofTexts v.warnings)]

/-- Reads a record. -/
def ofJson? (value : Json) : Option Validation :=
  match value.fields? fieldNames with
  | some [isValid, errors, warnings] => do
    return { isValid := ← Json.required Json.bool? isValid
             errors := ← Json.required Json.texts? errors
             warnings := ← Json.required Json.texts? warnings }
  | _ => none

/-- What the shape of a source lacks. -/
def structuralErrors (source : String) : List String :=
  (if hasClass source.toList then [] else ["Missing document class declaration"]) ++
  (if hasEnvironment source.toList then [] else ["Missing document environment"])

/-- The packages that every source should declare. -/
def recommendedPackages : List String := ["fontenc", "inputenc", "geometry"]

/-- A warning for every recommended package that is not declared. -/
def recommendations (source : String) : List String :=
  let declared := declaredNames source.toList
  (recommendedPackages.filter fun name => !declared.contains name.toList).map
    ("Missing recommended package: " ++ ·)

/-- A kind of thing that a template requires. -/
inductive Kind where
  | font
  | package
deriving DecidableEq, Repr

namespace Kind

/-- The error for a thing that was not found. -/
def missing : Kind → String → String
  | .font, name => "Required font not installed: " ++ name
  | .package, name => "Required LaTeX package not installed: " ++ name

/-- The error for a check that crashed. -/
def crashed : Kind → String → String
  | .font, reason => "Failed to check font requirements: " ++ reason
  | .package, reason => "Failed to check package requirements: " ++ reason

/-- The probe for things of a kind. -/
def probe {σ : Type} (toolchain : Toolchain σ) : Kind → String → Act σ Probe
  | .font => toolchain.font
  | .package => toolchain.package

/-- The things of a kind that a template requires. -/
def required (t : Template) : Kind → List String
  | .font => t.fonts
  | .package => t.packages

end Kind

variable {σ : Type}

/-- The names whose probe does not find them, or the reason of the first crash. -/
def unavailable (probe : String → Act σ Probe) : List String → Act σ (Except String (List String))
  | [] => return .ok []
  | name :: rest => do
    match ← probe name with
    | .crashed reason => return .error reason
    | .answered a =>
      match ← unavailable probe rest with
      | .error reason => return .error reason
      | .ok names => return .ok (if a.isAvailable then names else name :: names)

/-- The errors of one kind. -/
def requirementErrors (toolchain : Toolchain σ) (t : Template) (kind : Kind) :
    Act σ (List String) := do
  match ← unavailable (kind.probe toolchain) (kind.required t) with
  | .ok names => return names.map kind.missing
  | .error reason => return [kind.crashed reason]

/-- The errors of what the template requires: fonts, then packages. -/
def checkRequirements (toolchain : Toolchain σ) (t : Template) : Act σ (List String) := do
  let fonts ← requirementErrors toolchain t .font
  let packages ← requirementErrors toolchain t .package
  return fonts ++ packages

end Validation

/-- Validates a template. -/
def Template.validate {σ : Type} (t : Template) (toolchain : Toolchain σ) : Act σ Validation := do
  let required ← Validation.checkRequirements toolchain t
  return .ofFindings (Validation.structuralErrors t.source ++ required)
    (Validation.recommendations t.source)

end ResumePress
