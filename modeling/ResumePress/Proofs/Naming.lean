import ResumePress.Proofs.Openings

/-!
Names that are made of stems. A stem brings no slash, no point and no sign of a resolution into the
names it is part of. So an image has the name that its stem and its resolution give it and stands in
the folder it is meant for, the folder of a run stands in the root of all runs, and images of
different resolutions never have the same name.
-/

namespace ResumePress

open Files

variable {σ : Type}

theorem Files.Tree.home_makeFolder {t t' : Tree} {now : Instant} {path : Path}
    (h : t.makeFolder now path = .ok t') : t'.home = t.home := by
  unfold makeFolder at h
  split at h
  · cases h
  · split at h
    · cases h
      exact home_stamp _ _ _
    · cases h

theorem Files.Tree.home_makeFoldersFrom (now : Instant) (depth : Nat) (t : Tree) (path : Path) :
    (makeFoldersFrom now depth t path).2.home = t.home := by
  induction depth generalizing path with
  | zero => rfl
  | succ depth ih =>
    unfold makeFoldersFrom
    split
    · rfl
    · split
      · exact home_makeFolder ‹_›
      · split
        · rfl
        · rename_i parent _
          have hparent := ih parent
          split <;> rename_i hmade <;> rw [hmade] at hparent
          · exact hparent
          · split
            · exact (home_makeFolder ‹_›).trans hparent
            · exact hparent
      · rfl

namespace Workspace

theorem path_of_makeFolder {stem path : Path} {tries : Nat} {s s' : Surroundings σ}
    (h : makeFolder stem tries s = (.ok path, s')) : ∃ n, path = ⟨stem.text ++ ending n⟩ := by
  induction tries generalizing s with
  | zero => cases h
  | succ tries ih =>
    rw [makeFolder_succ_apply] at h
    dsimp only at h
    split at h
    · cases h
      exact ⟨_, rfl⟩
    · exact ih h
    · cases h

/-- The folder of a run stands in the root of all runs. -/
theorem folder_of_create {root : Path} {name : String} {w : Workspace} {s s' : Surroundings σ}
    (hname : '/' ∉ name.toList) (h : create root name s = (.ok w, s')) :
    ∃ n, w.folder = (Act.absolute root s).1.join (namePrefix ++ name ++ "-" ++ ending n) := by
  obtain ⟨tries, happly⟩ := create_apply (σ := σ) root name
  rw [happly, Act.makeFolders_apply] at h
  cases hmade : (s.files.makeFolders s.now root).1 with
  | error e =>
    rw [hmade] at h
    cases h
  | ok =>
    have hhome : (s.files.makeFolders s.now root).2.absolute root = s.files.absolute root := by
      rw [Tree.absolute, Tree.absolute, Tree.makeFolders, Tree.home_makeFoldersFrom]
    rw [hmade] at h
    dsimp only at h
    rw [Act.absolute_apply, hhome] at h
    split at h
    · cases h
    · rename_i hfolder
      cases h
      obtain ⟨n, hpath⟩ := path_of_makeFolder hfolder
      have hstem : '/' ∉ (namePrefix ++ name ++ "-").toList := by
        simp [namePrefix, hname]
      refine ⟨n, ?_⟩
      rw [Act.absolute_apply, hpath, Path.mk_text_append hstem (not_slash_mem_ending n)]

end Workspace

/-! ### Names with stems -/

/-- The image that is asked for at a path without an extension is the one of the name in the same
folder. -/
theorem RasterSpec.withExtension_join {spec : RasterSpec} (hspec : spec ∈ Press.resolutions)
    (t : Template) (hid : t.id ≠ "") (d : Path) :
    (d.join (t.stem ++ spec.suffix)).withExtension "png" = d.join (spec.fileName t.stem) := by
  rw [Path.withExtension_join (t.stem_append_ne_nil hid _) (Press.not_slash_mem_suffix t hspec)
    (Press.not_point_mem_suffix t hspec) (by decide)]
  simp only [fileName, String.append_assoc]
  rfl

/-- Stems have small letters, digits and single underscores, are their own stems, and do not show
how the letters of an id are written. So in every folder the image of an id that is not empty is the
one that its stem and resolution name, the folder of a run adds one component to its root, and no
usual image has the name of one of double density. -/
theorem stems_name_safely (id : String) :
    let stem := stemOf id
    IsStem stem.toList ∧ stemOf stem = stem ∧
    (∀ other : String, other.toLower = id.toLower → stemOf other = stem) ∧
    (id ≠ "" → ∀ d : Path, ∀ spec ∈ Press.resolutions,
      (d.join (stem ++ spec.suffix)).withExtension "png" = d.join (spec.fileName stem) ∧
        (d.join (spec.fileName stem)).components = d.components ++ [.name (spec.fileName stem)]) ∧
    (∀ (σ : Type) (root : Path) (s s' : Surroundings σ) (w : Workspace),
      Workspace.create root stem s = (.ok w, s') →
        ∃ n, w.folder.components = (Act.absolute root s).1.components ++
          [.name ("run-" ++ stem ++ "-" ++ Workspace.ending n)]) ∧
    ∀ other : String,
      RasterSpec.standard.fileName stem ≠ RasterSpec.doubleDensity.fileName (stemOf other) := by
  intro stem
  refine ⟨isStem_stemOf id, stemOf_eq_self.2 (isStem_stemOf id), fun other hother => ?_,
    fun hid d spec hspec => ⟨RasterSpec.withExtension_join hspec (.bare id) hid d, ?_⟩,
    fun σ root s s' w hcreate => ?_, fun other hsame => ?_⟩
  · rw [← stemOf_toLower, hother, stemOf_toLower]
  · exact Path.components_join (Press.isPlain_fileName (.bare id) hspec)
  · obtain ⟨n, hfolder⟩ := Workspace.folder_of_create (Template.bare id).not_slash_mem_stem hcreate
    refine ⟨n, ?_⟩
    rw [hfolder]
    exact Path.components_join (Workspace.isProper_folderName (.bare id) n).toIsPlain
  · have hspecs : RasterSpec.standard = .doubleDensity :=
      ((Press.fileName_inj (t := .bare id) (u := .bare other) (by decide) (by decide)).1 hsame).2
    exact absurd hspecs (by decide)

-- An id of points, slashes and a sign of double density, and the same id in other letters.
theorem stems_name_safely_of_signs :
    let id := "../Ä.X@2x"
    let stem := "_x_2x"
    stemOf id = stem ∧ stemOf "../Ä.x@2X" = stem ∧ id ≠ "" ∧
      ((Path.mk "a.b").join (stem ++ "@2x")).withExtension "png" = ⟨"a.b/_x_2x@2x.png"⟩ ∧
      ∃ w s' n, Workspace.create ⟨"t"⟩ stem .bare = (.ok w, s') ∧
        w.folder.components =
          [.root, .name "t", .name ("run-" ++ stem ++ "-" ++ Workspace.ending n)] := by
  intro id stem
  have hstem : stemOf id = stem := by decide +kernel
  have hok : (Workspace.create ⟨"t"⟩ stem .bare).1.isOk = true := by decide +kernel
  have hroot : (Act.absolute ⟨"t"⟩ Surroundings.bare).1.components = [.root, .name "t"] := by
    decide +kernel
  obtain ⟨-, -, hcase, himage, hrun, -⟩ := stems_name_safely id
  rw [hstem] at hcase himage hrun
  have hletters : "../Ä.x@2X".toLower = id.toLower := by
    refine String.toList_inj.1 ?_
    rw [toList_toLower, toList_toLower]
    decide +kernel
  have hid : id ≠ "" := by decide
  have himage := (himage hid ⟨"a.b"⟩ .doubleDensity (by decide)).1
  refine ⟨hstem, hcase _ hletters, hid, himage.trans (by decide +kernel), ?_⟩
  rcases hcreate : Workspace.create ⟨"t"⟩ stem .bare with ⟨e | w, s'⟩
  · rw [hcreate] at hok
    cases hok
  · obtain ⟨n, hfolder⟩ := hrun Unit ⟨"t"⟩ .bare s' w hcreate
    rw [hroot] at hfolder
    exact ⟨w, s', n, rfl, hfolder⟩

-- The stem of an empty id is empty, and its image stands beside the folder instead of in it.
example : ((Path.mk "t/run").join (stemOf "")).withExtension "png" = ⟨"t/run.png"⟩ := by
  decide +kernel

end ResumePress
