import ResumePress.Latex.Document
import ResumePress.Json.Record

/-!
Package declarations as records. A raw text declares the package of its first package directive;
one with options ranks above a bare one.
-/

namespace ResumePress.Latex

/-- A package declaration read off a raw text. -/
structure Declaration where
  /-- The trimmed text between the braces. -/
  name : String
  options : Option String
  /-- The raw text it was read off. -/
  text : String
  /-- The rank among declarations of one name. -/
  priority : Nat
deriving DecidableEq, Repr

namespace Declaration

/-- The rank of a declaration with options. -/
def optionsPriority : Nat := 2

/-- The rank of a declaration without options. -/
def barePriority : Nat := 1

/-- A text without its outer blanks, unless nothing is left. -/
def nonblank? (s : List Char) : Option String :=
  let inner := Text.trim s
  if inner.isEmpty then none else some (String.ofList inner)

/-- Reads the first package directive of a raw text, if its name is not blank. Blank options are
none. -/
def parse? (raw : String) : Option Declaration :=
  match package.pattern.first? raw.toList with
  | none => none
  | some (_, use) =>
    (nonblank? use.argument).map fun name =>
      let options := use.options.bind nonblank?
      { name := name
        options := options
        text := raw
        priority := if options.isSome then optionsPriority else barePriority }

/-- The members of the record. -/
def fieldNames : List String := ["name", "options", "raw_text", "priority"]

/-- The record as a value. -/
def toJson (d : Declaration) : Json :=
  .obj [("name", .str d.name), ("options", .ofText? d.options), ("raw_text", .str d.text),
    ("priority", .int d.priority)]

/-- Reads a record; the rank fits a byte. -/
def ofJson? (value : Json) : Option Declaration :=
  match value.fields? fieldNames with
  | some [name, options, text, priority] => do
    return { name := ← Json.required Json.text? name
             options := ← Json.optional Json.text? options
             text := ← Json.required Json.text? text
             priority := ← Json.required (Json.below? 256) priority }
  | _ => none

end Declaration

end ResumePress.Latex
