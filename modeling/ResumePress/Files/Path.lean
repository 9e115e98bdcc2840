import ResumePress.Text.Find
import ResumePress.Text.Lines

/-!
Paths as they are written. A path is cut into segments at every `/`; empty segments and single
points carry nothing, except for the `/` that makes a path absolute and a point that starts a
relative one. What is left are the components, and paths that agree in them are the same path. The
last component is the file name unless it leads upwards; its stem ends at the last point that has
something before it, and the extension is what follows that point.
-/

namespace ResumePress

/-- A path as it is written. -/
structure Path where
  text : String
deriving DecidableEq, Repr, Inhabited

namespace Path

/-- The components that paths are compared by. -/
inductive Component where
  | root
  | here
  | up
  | name (s : String)
deriving DecidableEq

/-- One step on the way along a path. -/
inductive Step where
  | here
  | up
  | name (s : String)
deriving DecidableEq

/-- Whether the path starts at the root. -/
def isAbsolute (p : Path) : Bool :=
  p.text.toList.head? == some '/'

/-- The parts between the slashes. -/
def segments (p : Path) : List (List Char) :=
  Text.splitAt '/' p.text.toList

/-- A segment that carries nothing inside a path. -/
def isVoid (segment : List Char) : Bool :=
  segment == [] || segment == ['.']

/-- A relative path may start with a point. -/
def startsHere (p : Path) : Bool :=
  p.segments.head? == some ['.']

/-- The component of a segment that is not void. -/
def component (segment : List Char) : Component :=
  if segment = ['.', '.'] then .up else .name (String.ofList segment)

/-- The components of a path. -/
def components (p : Path) : List Component :=
  let inner := (p.segments.filter fun s => !isVoid s).map component
  if p.isAbsolute then .root :: inner
  else if p.startsHere then .here :: inner
  else inner

/-- Whether two paths agree in their components. -/
def same (p q : Path) : Bool :=
  p.components == q.components

/-- The step of a segment. -/
def step (segment : List Char) : Step :=
  if isVoid segment then .here
  else if segment = ['.', '.'] then .up
  else .name (String.ofList segment)

/-- The steps along a path. A slash at the end is a last step that stays where it is. -/
def steps (p : Path) : List Step :=
  p.segments.map step

/-- The path without the slashes at its end, of which the root keeps one. -/
def withoutEndSlashes (p : Path) : Path :=
  match p.text.toList.reverse.dropWhile (· == '/') with
  | [] => if p.isAbsolute then ⟨"/"⟩ else p
  | kept => ⟨String.ofList kept.reverse⟩

/-- The segments from the last one that carries something back to the first. -/
def backwards (p : Path) : List (List Char) :=
  p.segments.reverse.dropWhile isVoid

/-- The last component, unless it leads upwards. -/
def fileName? (p : Path) : Option String :=
  match p.backwards with
  | [] => none
  | last :: _ => if last = ['.', '.'] then none else some (String.ofList last)

/-- A file name before and behind its last point, if something stands before that point. -/
def splitName (name : String) : String × Option String :=
  match Text.cutLast? ['.'] name.toList with
  | none => (name, none)
  | some ([], _) => (name, none)
  | some (before, after) => (String.ofList before, some (String.ofList after))

/-- The file name without its extension. -/
def stem? (p : Path) : Option String :=
  p.fileName?.map fun name => (splitName name).1

/-- What follows the last point of the file name. -/
def extension? (p : Path) : Option String :=
  p.fileName?.bind fun name => (splitName name).2

/-- The path of `rest` below `p`; an absolute `rest` stands for itself. -/
def join (p : Path) (rest : String) : Path :=
  if isAbsolute ⟨rest⟩ then ⟨rest⟩
  else if p.text = "" ∨ p.text.toList.getLast? = some '/' then ⟨p.text ++ rest⟩
  else ⟨p.text ++ "/" ++ rest⟩

/-- The written form of segments given from the last. -/
def ofBackwards (segments : List (List Char)) : String :=
  String.ofList (Text.joinWith ['/'] segments.reverse)

/-- The path without its last component. -/
def parent? (p : Path) : Option Path :=
  match p.backwards with
  | [] => if p.startsHere then some ⟨""⟩ else none
  | _ :: before =>
    match before.dropWhile isVoid with
    | [] => some ⟨if p.isAbsolute then "/" else if p.startsHere then "." else ""⟩
    | kept => some ⟨ofBackwards kept⟩

/-- The path with another extension, or with one more if it has none. A text that ends in a name
such as `..b` loses its extension and gets no other, since what is left of the name leads upwards. -/
def withExtension (p : Path) (extension : String) : Path :=
  match p.backwards, p.stem? with
  | last :: before, some stem =>
    if stem = "." ∧ p.segments.getLast? = some last then ⟨ofBackwards (['.', '.'] :: before)⟩
    else ⟨ofBackwards ((stem ++ "." ++ extension).toList :: before)⟩
  | _, _ => p

/-- The path of another file beside this one. -/
def withFileName (p : Path) (name : String) : Path :=
  match p.fileName?, p.parent? with
  | some _, some parent => parent.join name
  | _, _ => p.join name

example : (Path.mk "a//b/./").components = (Path.mk "a/b").components := by decide +kernel

example : (Path.mk "out/img.v2/").withExtension "png" = ⟨"out/img.png"⟩ := by decide +kernel

example : (Path.mk "out/..b").withExtension "png" = ⟨"out/.."⟩ ∧
    (Path.mk "out/..b/").withExtension "png" = ⟨"out/..png"⟩ := by
  decide +kernel

example : (Path.mk "a/.tex").extension? = none ∧ (Path.mk "a/b.tex").stem? = some "b" := by
  decide +kernel

end Path

end ResumePress
