import ResumePress.Latex.Document
import ResumePress.Surroundings
import ResumePress.Template.Catalog
import ResumePress.Template.Profile

/-!
The templates that the press knows, one for each id and in the order of their ids, with the table
of profiles. A registry is made of given templates or read from a folder, where every file with the
extension `tex` is a template.
-/

namespace ResumePress

open Files

/-- Why templates could not be read. -/
inductive TemplateError where
  | directoryNotFound (path : Path)
  | unreadable (path : Path) (cause : Fault)
deriving DecidableEq, Repr

namespace TemplateError

/-- The wording of an error. -/
def message : TemplateError → String
  | .directoryNotFound path => "template directory not found: " ++ path.text
  | .unreadable path cause => "error reading template " ++ path.text ++ ": " ++ cause.message

end TemplateError

/-- Templates with different ids, in their order, and the profiles. -/
structure Registry where
  templates : List Template
  profiles : ProfileTable
  /-- The ids increase. -/
  sorted : templates.Pairwise fun t u => t.id < u.id

namespace Registry

/-- The templates with one more, which takes the position of one that has its id. -/
def insert (t : Template) : List Template → List Template
  | [] => [t]
  | u :: rest =>
    if t.id < u.id then t :: u :: rest
    else if u.id < t.id then u :: insert t rest
    else t :: rest

theorem mem_insert {t u : Template} {templates : List Template} (h : u ∈ insert t templates) :
    u = t ∨ u ∈ templates := by
  induction templates with
  | nil => simp_all [insert]
  | cons v rest ih =>
    unfold insert at h
    split at h
    · simpa using h
    · split at h
      · rcases List.mem_cons.1 h with rfl | h
        · simp
        · rcases ih h with h | h
          · exact .inl h
          · exact .inr (List.mem_cons_of_mem _ h)
      · rcases List.mem_cons.1 h with h | h
        · exact .inl h
        · exact .inr (List.mem_cons_of_mem _ h)

theorem pairwise_insert {t : Template} {templates : List Template}
    (h : templates.Pairwise fun t u => t.id < u.id) :
    (insert t templates).Pairwise fun t u => t.id < u.id := by
  induction templates with
  | nil => simp [insert]
  | cons v rest ih =>
    obtain ⟨hv, hrest⟩ := List.pairwise_cons.1 h
    unfold insert
    split
    · rename_i ht
      refine List.pairwise_cons.2 ⟨fun u hu => ?_, h⟩
      rcases List.mem_cons.1 hu with rfl | hu
      · exact ht
      · exact String.lt_trans ht (hv u hu)
    · split
      · rename_i hvt
        refine List.pairwise_cons.2 ⟨fun u hu => ?_, ih hrest⟩
        rcases mem_insert hu with rfl | hu
        · exact hvt
        · exact hv u hu
      · rename_i hn hn'
        have : t.id = v.id := String.le_antisymm hn' hn
        exact List.pairwise_cons.2 ⟨fun u hu => this ▸ hv u hu, hrest⟩

/-- The registry with one more template. -/
def add (r : Registry) (t : Template) : Registry where
  templates := insert t r.templates
  profiles := r.profiles
  sorted := pairwise_insert r.sorted

/-- The registry of given templates; of several with one id the last counts. -/
def ofTemplates (templates : List Template) (profiles : ProfileTable) : Registry :=
  templates.foldl add ⟨[], profiles, .nil⟩

/-- The registry of the built-in templates. -/
def builtin : Registry := ofTemplates Catalog.templates ProfileTable.builtin

/-- The template of an id. -/
def get? (r : Registry) (id : String) : Option Template :=
  r.templates.find? (·.id == id)

/-- The first template that has the path, or its file name. -/
def byPath? (r : Registry) (path : Path) : Option Template :=
  r.templates.find? fun t =>
    t.path.same path || (path.fileName?.isSome && t.path.fileName? == path.fileName?)

/-- The first template that is marked as the default. -/
def default? (r : Registry) : Option Template :=
  r.templates.find? Template.isDefault

/-- The profile for a template. -/
def profile (r : Registry) (id : String) : Profile :=
  r.profiles.profileFor id

/-- The extension of template files. -/
def extension : String := "tex"

/-- The template of a source that was read at a path. Its id is the stem of the path. What the
catalog says first about the id holds for it; if it says nothing, the template needs the packages
that the source declares. -/
def templateOf (catalog : List CatalogEntry) (path : Path) (source : String) : Template :=
  let id := path.stem?.getD ""
  match catalog.find? (·.id == id) with
  | some entry => entry.template path source
  | none =>
    { id := id
      name := id
      path := path
      source := source
      description := none
      sourceUrl := none
      images := []
      fonts := []
      packages := (Latex.declaredNames source.toList).map String.ofList
      previewImage := none
      isDefault := false }

variable {σ : Type}

/-- Reads the templates at the given paths, up to the first that cannot be read. -/
def readAll (catalog : List CatalogEntry) :
    List Path → Act σ (Except TemplateError (List Template))
  | [] => return .ok []
  | path :: rest => do
    match ← Act.readText path with
    | .error e => return .error (.unreadable path e)
    | .ok source =>
      match ← readAll catalog rest with
      | .error e => return .error e
      | .ok templates => return .ok (templateOf catalog path source :: templates)

/-- Reads every template of a folder. -/
def load (folder : Path) (catalog : List CatalogEntry) (profiles : ProfileTable) :
    Act σ (Except TemplateError Registry) := do
  if !(← Act.look (·.isFolder folder)) then return .error (.directoryNotFound folder)
  match ← Act.list folder with
  | .error e => return .error (.unreadable folder e)
  | .ok names =>
    let paths := names.map folder.join
    match ← readAll catalog (paths.filter (·.extension? == some extension)) with
    | .error e => return .error e
    | .ok templates => return .ok (ofTemplates templates profiles)

end Registry

end ResumePress
