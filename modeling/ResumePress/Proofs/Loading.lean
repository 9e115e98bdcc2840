import ResumePress.Proofs.Files.Spots
import ResumePress.Proofs.Registry
import ResumePress.Proofs.Surroundings

/-!
Registries read from folders. A file is a template if its name is an id, which is not empty, with
the extension of templates behind it. All of them have to be readable; then each is there with what
the catalog says first about its id, whatever the order in which the folder lists them.
-/

namespace ResumePress

open Files

/-- The text of a file, if it has one. -/
def Files.Tree.text? (t : Tree) (path : Path) : Option String :=
  match t.read path with
  | .ok bytes => Text.decode? bytes
  | .error _ => none

theorem lookup_keepLast (pairs : List (String × String)) (key : String) :
    (keepLast pairs).lookup key = pairs.reverse.lookup key := by
  induction pairs with
  | nil => rfl
  | cons pair rest ih =>
    obtain ⟨first, value⟩ := pair
    rw [List.reverse_cons, List.lookup_append, ← ih, keepLast]
    by_cases hkey : key = first
    · subst hkey
      split
      · rename_i hany
        obtain ⟨later, hlater, hsame⟩ := List.any_eq_true.1 hany
        have hsome : ((keepLast rest).lookup key).isSome = true := by
          rw [ih, List.lookup_isSome_iff]
          exact ⟨later, List.mem_reverse.2 hlater, BEq.symm hsame⟩
        rw [Option.or_of_isSome hsome]
      · rename_i hany
        have hnone : (keepLast rest).lookup key = none := by
          rw [ih, List.lookup_eq_none_iff]
          intro later hlater
          rw [bne_iff_ne]
          exact fun heq => hany (List.any_eq_true.2
            ⟨later, List.mem_reverse.1 hlater, beq_iff_eq.2 heq.symm⟩)
        rw [hnone, Option.none_or, List.lookup_cons_self, List.lookup_cons_self]
    · have hfirst : (key == first) = false := beq_eq_false_iff_ne.2 hkey
      have hlast : List.lookup key [(first, value)] = none := by
        rw [List.lookup_cons, hfirst]
        rfl
      rw [hlast, Option.or_none]
      split
      · rfl
      · rw [List.lookup_cons, hfirst]

namespace Template

/-- A template that has the metadata of a catalog entry; the last substitute of an image counts. -/
structure IsDescribedBy (t : Template) (entry : CatalogEntry) : Prop where
  name : t.name = entry.name
  description : t.description = entry.description
  sourceUrl : t.sourceUrl = entry.sourceUrl
  images : ∀ path, t.images.lookup path = entry.images.reverse.lookup path
  fonts : t.fonts = entry.fonts
  packages : t.packages = entry.packages
  isDefault : t.isDefault = entry.isDefault

/-- A template of which only the source is known. -/
structure IsUndescribed (t : Template) : Prop where
  name : t.name = t.id
  description : t.description = none
  sourceUrl : t.sourceUrl = none
  images : t.images = []
  fonts : t.fonts = []
  packages : t.packages = (Latex.declaredNames t.source.toList).map String.ofList
  isDefault : t.isDefault = false

/-- A template that was read at a path. -/
structure IsReadAt (t : Template) (tree : Tree) (catalog : List CatalogEntry) (path : Path) :
    Prop where
  id : path.stem? = some t.id
  source : tree.text? path = some t.source
  path : t.path = path
  known : ∀ entry, catalog.find? (·.id == t.id) = some entry → t.IsDescribedBy entry
  unknown : (∀ entry ∈ catalog, entry.id ≠ t.id) → t.IsUndescribed
  previewImage : t.previewImage = none

end Template

namespace Registry

variable {σ τ : Type} {s : Surroundings σ} {tree : Tree} {folder path : Path} {id : String}
  {names : List String} {paths : List Path} {catalog : List CatalogEntry}
  {profiles : ProfileTable} {r : Registry} {t : Template} {templates : List Template}

/-- The name of the file of a template. -/
def sourceName (id : String) : String := id ++ "." ++ extension

/-- Whether one of the names is the file of a template with this id. -/
def IsListed (names : List String) (id : String) : Prop :=
  id ≠ "" ∧ sourceName id ∈ names

/-- What a registry has to hold that was read from a folder with these names. -/
structure Indexes (r : Registry) (tree : Tree) (folder : Path) (names : List String)
    (catalog : List CatalogEntry) : Prop where
  /-- Every file is there, -/
  covers : ∀ id, IsListed names id → ∃ t ∈ r.templates, t.id = id
  /-- and nothing else, -/
  only : ∀ t ∈ r.templates, IsListed names t.id ∧
    t.IsReadAt tree catalog (folder.join (sourceName t.id))
  /-- once for each id, in the order of the ids, -/
  increasing : r.templates.Pairwise fun t u => t.id < u.id
  /-- and found by its id alone. -/
  get : ∀ id t, r.get? id = some t ↔ t ∈ r.templates ∧ t.id = id

/-- The template of a file with a text. -/
def template? (tree : Tree) (catalog : List CatalogEntry) (path : Path) : Option Template :=
  (tree.text? path).map (templateOf catalog path)

/-! ### One file -/

theorem stem?_join (hplain : Path.IsPlain (sourceName id)) (hid : id ≠ "") :
    (folder.join (sourceName id)).stem? = some id := by
  rw [Path.stem?_join hplain, sourceName, Path.splitName_append hid (by decide)]

theorem id_templateOf (catalog : List CatalogEntry) (path : Path) (source : String) :
    (templateOf catalog path source).id = path.stem?.getD "" := by
  unfold templateOf
  dsimp only
  split
  · rename_i entry hfind
    exact beq_iff_eq.1 (List.find?_some (p := fun e : CatalogEntry => e.id == _) hfind)
  · rfl

theorem isReadAt_of_template? (hstem : path.stem? = some id)
    (h : template? tree catalog path = some t) : t.id = id ∧ t.IsReadAt tree catalog path := by
  obtain ⟨source, hsource, rfl⟩ := Option.map_eq_some_iff.1 h
  have hid : (templateOf catalog path source).id = id := by
    rw [id_templateOf, hstem, Option.getD_some]
  refine ⟨hid, ?_⟩
  cases hfind : catalog.find? (·.id == id) with
  | some entry =>
    have hentry : templateOf catalog path source = entry.template path source := by
      simp [templateOf, hstem, hfind]
    rw [hentry] at hid ⊢
    refine ⟨hid ▸ hstem, hsource, rfl, fun known hknown => ?_, fun hunknown => ?_, rfl⟩
    · obtain rfl : entry = known := Option.some.inj ((hid ▸ hfind).symm.trans hknown)
      exact ⟨rfl, rfl, rfl, lookup_keepLast entry.images, rfl, rfl, rfl⟩
    · exact absurd rfl (hunknown entry (List.mem_of_find?_eq_some hfind))
  | none =>
    have hplain : templateOf catalog path source =
        { id := id, name := id, path := path, source := source, description := none,
          sourceUrl := none, images := [], fonts := [],
          packages := (Latex.declaredNames source.toList).map String.ofList,
          previewImage := none, isDefault := false } := by
      simp [templateOf, hstem, hfind]
    rw [hplain]
    refine ⟨hstem, hsource, rfl, fun known hknown => ?_,
      fun _ => ⟨rfl, rfl, rfl, rfl, rfl, rfl, rfl⟩, rfl⟩
    rw [hfind] at hknown
    cases hknown

/-! ### All files -/

theorem readText_apply (path : Path) (s : Surroundings σ) :
    ((Act.readText path : Act σ _) s).2 = s ∧
      ((Act.readText path : Act σ _) s).1.toOption = s.files.text? path := by
  unfold Act.readText Tree.text?
  rw [Act.bind_apply, Act.read_apply]
  cases s.files.read path with
  | error e => exact ⟨rfl, rfl⟩
  | ok bytes =>
    dsimp only
    cases Text.decode? bytes <;> exact ⟨rfl, rfl⟩

theorem readAll_apply (catalog : List CatalogEntry) (paths : List Path) (s : Surroundings σ) :
    (readAll catalog paths s).2 = s ∧ ∀ templates, (readAll catalog paths s).1 = .ok templates ↔
      paths.map (template? s.files catalog) = templates.map some := by
  induction paths with
  | nil =>
    refine ⟨rfl, fun templates => ?_⟩
    cases templates with
    | nil => exact iff_of_true rfl rfl
    | cons t templates => exact iff_of_false nofun nofun
  | cons path rest ih =>
    obtain ⟨hkept, hsame⟩ := readText_apply path s
    obtain ⟨hkepts, hall⟩ := ih
    rw [readAll, Act.bind_apply, hkept, List.map_cons]
    cases hread : ((Act.readText path : Act σ _) s).1 with
    | error e =>
      have hnone : template? s.files catalog path = none := by
        rw [template?, ← hsame, hread]
        rfl
      refine ⟨rfl, fun templates => iff_of_false nofun ?_⟩
      rw [hnone]
      cases templates <;> nofun
    | ok source =>
      have hsome : template? s.files catalog path = some (templateOf catalog path source) := by
        rw [template?, ← hsame, hread]
        rfl
      dsimp only
      rw [Act.bind_apply, hkepts, hsome]
      cases hrest : (readAll catalog rest s).1 with
      | error e =>
        refine ⟨rfl, fun templates => iff_of_false nofun fun hmap => ?_⟩
        cases templates with
        | nil => cases hmap
        | cons t templates =>
          have hok := (hall templates).2 (List.cons.inj hmap).2
          rw [hrest] at hok
          cases hok
      | ok others =>
        have hothers := (hall others).1 hrest
        refine ⟨rfl, fun templates => ?_⟩
        dsimp only
        rw [hothers, ← List.map_cons, (List.map_injective_iff.2 (Option.some_injective _)).eq_iff]
        constructor
        · intro hok
          exact Except.ok.inj hok
        · rintro rfl
          rfl

theorem exists_map_some {f : Path → Option Template} :
    (∃ templates : List Template, paths.map f = templates.map some) ↔
      ∀ path ∈ paths, (f path).isSome := by
  induction paths with
  | nil => exact iff_of_true ⟨[], rfl⟩ (List.forall_mem_nil _)
  | cons path rest ih =>
    rw [List.forall_mem_cons, ← ih]
    constructor
    · rintro ⟨templates, hmap⟩
      cases templates with
      | nil => cases hmap
      | cons t templates =>
        obtain ⟨hfirst, hrest⟩ := List.cons.inj hmap
        exact ⟨by rw [hfirst, Option.isSome_some], templates, hrest⟩
    · rintro ⟨hfirst, templates, hrest⟩
      obtain ⟨t, ht⟩ := Option.isSome_iff_exists.1 hfirst
      exact ⟨t :: templates, by rw [List.map_cons, List.map_cons, ht, hrest]⟩

/-- The paths of the templates among the names of a folder. -/
def sourcePaths (folder : Path) (names : List String) : List Path :=
  (names.map folder.join).filter (·.extension? == some extension)

theorem mem_sourcePaths (hplain : ∀ name ∈ names, Path.IsPlain name) :
    path ∈ sourcePaths folder names ↔
      ∃ id, IsListed names id ∧ path = folder.join (sourceName id) := by
  rw [sourcePaths, List.mem_filter, List.mem_map]
  constructor
  · rintro ⟨⟨name, hname, rfl⟩, hextension⟩
    rw [Path.extension?_join (hplain name hname), beq_iff_eq] at hextension
    obtain ⟨hne, heq⟩ := Path.eq_of_splitName hextension
    refine ⟨(Path.splitName name).1, ⟨hne, ?_⟩, ?_⟩
    · rw [sourceName, ← heq]
      exact hname
    · rw [sourceName, ← heq]
  · rintro ⟨id, ⟨hid, hname⟩, rfl⟩
    refine ⟨⟨_, hname, rfl⟩, ?_⟩
    rw [Path.extension?_join (hplain _ hname), sourceName, Path.splitName_append hid (by decide),
      beq_self_eq_true]

theorem isFolder_of_list (hlist : tree.list folder = .ok names) : tree.isFolder folder = true := by
  obtain ⟨place, hlocate, hfolder, -⟩ := Tree.list_eq_ok.1 hlist
  rw [Tree.isFolder_eq, hlocate]
  exact hfolder

theorem load_eq_ok (hlist : s.files.list folder = .ok names) :
    (load folder catalog profiles s).1 = .ok r ↔
      ∃ templates, (sourcePaths folder names).map (template? s.files catalog) =
        templates.map some ∧ r = ofTemplates templates profiles := by
  obtain ⟨hkept, hall⟩ := readAll_apply catalog (sourcePaths folder names) s
  have hload : (load folder catalog profiles s).1 =
      (readAll catalog (sourcePaths folder names) s).1.map (ofTemplates · profiles) := by
    unfold load
    rw [Act.bind_apply, Act.look_apply, isFolder_of_list hlist]
    dsimp only
    rw [Bool.not_true, if_neg Bool.false_ne_true, Act.bind_apply, Act.list, Act.look_apply, hlist]
    dsimp only
    rw [Act.bind_apply, ← sourcePaths]
    cases (readAll catalog (sourcePaths folder names) s).1 <;> rfl
  rw [hload]
  constructor
  · intro hmap
    cases hread : (readAll catalog (sourcePaths folder names) s).1 with
    | error e =>
      rw [hread] at hmap
      cases hmap
    | ok templates =>
      rw [hread] at hmap
      cases hmap
      exact ⟨templates, (hall templates).1 hread, rfl⟩
  · rintro ⟨templates, hmap, rfl⟩
    rw [(hall templates).2 hmap]
    rfl

/-! ### What the files determine -/

section Read

variable (hplain : ∀ name ∈ names, Path.IsPlain name)
  (hread : (sourcePaths folder names).map (template? tree catalog) = templates.map some)

include hplain hread

theorem mem_read : t ∈ templates ↔
    IsListed names t.id ∧ template? tree catalog (folder.join (sourceName t.id)) = some t := by
  have hmem : t ∈ templates ↔ ∃ path ∈ sourcePaths folder names,
      template? tree catalog path = some t := by
    rw [← List.mem_map_of_injective (Option.some_injective _), ← hread, List.mem_map]
  rw [hmem]
  constructor
  · rintro ⟨path, hpath, ht⟩
    obtain ⟨id, hid, rfl⟩ := (mem_sourcePaths hplain).1 hpath
    obtain ⟨rfl, -⟩ := isReadAt_of_template? (stem?_join (hplain _ hid.2) hid.1) ht
    exact ⟨hid, ht⟩
  · rintro ⟨hid, ht⟩
    exact ⟨_, (mem_sourcePaths hplain).2 ⟨t.id, hid, rfl⟩, ht⟩

theorem eq_of_read {u : Template} (ht : t ∈ templates) (hu : u ∈ templates) (h : t.id = u.id) :
    t = u := by
  have htext := ((mem_read hplain hread).1 ht).2
  rw [h, ((mem_read hplain hread).1 hu).2] at htext
  exact (Option.some.inj htext).symm

theorem indexes_ofTemplates (profiles : ProfileTable) :
    (ofTemplates templates profiles).Indexes tree folder names catalog := by
  have hmem : ∀ t, t ∈ (ofTemplates templates profiles).templates ↔ t ∈ templates := fun t =>
    mem_ofTemplates fun t ht u hu => eq_of_read hplain hread ht hu
  refine ⟨fun id hid => ?_, fun t ht => ?_, Registry.sorted _, fun id t => get?_eq_some⟩
  · have hpath : folder.join (sourceName id) ∈ sourcePaths folder names :=
      (mem_sourcePaths hplain).2 ⟨id, hid, rfl⟩
    obtain ⟨t, ht, htemplate⟩ := List.mem_map.1 (hread ▸ List.mem_map_of_mem hpath)
    exact ⟨t, (hmem t).2 ht,
      (isReadAt_of_template? (stem?_join (hplain _ hid.2) hid.1) htemplate.symm).1⟩
  · obtain ⟨hid, htemplate⟩ := (mem_read hplain hread).1 ((hmem t).1 ht)
    exact ⟨hid, (isReadAt_of_template? (stem?_join (hplain _ hid.2) hid.1) htemplate).2⟩

end Read

theorem exists_read_iff (catalog : List CatalogEntry)
    (hplain : ∀ name ∈ names, Path.IsPlain name) :
    (∃ templates : List Template,
      (sourcePaths folder names).map (template? tree catalog) = templates.map some) ↔
      ∀ id, IsListed names id → (tree.text? (folder.join (sourceName id))).isSome := by
  rw [exists_map_some]
  have hsome : ∀ path, (template? tree catalog path).isSome = (tree.text? path).isSome :=
    fun _ => Option.isSome_map
  constructor
  · intro h id hid
    rw [← hsome]
    exact h _ ((mem_sourcePaths hplain).2 ⟨id, hid, rfl⟩)
  · intro h path hpath
    obtain ⟨id, hid, rfl⟩ := (mem_sourcePaths hplain).1 hpath
    rw [hsome]
    exact h id hid

theorem exists_ok {ε α : Type} {x : Except ε α} (h : x.isOk = true) : ∃ a, x = .ok a := by
  cases x with
  | error e => cases h
  | ok a => exact ⟨a, rfl⟩

/-- A folder with two templates, a name that is only an extension, and one of another kind. -/
def mixedNodes : List (Place × Node) :=
  [(["t", "cv.tex"], ⟨.file (Text.encode "cv"), 0⟩),
    (["t", "a.b.tex"], ⟨.file (Text.encode "\\usepackage\x7bx, y\x7d"), 0⟩),
    (["t", ".tex"], ⟨.folder, 0⟩), (["t", "notes.txt"], ⟨.folder, 0⟩)]

/-- The names in this folder. -/
def mixedNames : List String := ["cv.tex", "a.b.tex", ".tex", "notes.txt"]

/-- Surroundings with a folder that holds these nodes. -/
def surroundingsOf (nodes : List (Place × Node)) : Surroundings Unit :=
  { Surroundings.bare with files := ⟨(["t"], ⟨.folder, 0⟩) :: nodes, []⟩ }

theorem list_mixedNodes : (surroundingsOf mixedNodes).files.list ⟨"t"⟩ = .ok mixedNames := by
  decide +kernel

theorem isPlain_mixedNames : ∀ name ∈ mixedNames, Path.IsPlain name := by
  simp only [mixedNames, List.forall_mem_cons]
  refine ⟨?_, ?_, ?_, ?_, List.forall_mem_nil _⟩ <;> exact ⟨by decide, by decide, by decide⟩

end Registry

end ResumePress
