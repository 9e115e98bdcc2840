import ResumePress.Proofs.Documents

/-!
Thumbnails of several templates. The name of a thumbnail tells its stem and its resolution. So
templates of different stems have no thumbnail in common, and a preview of one of them leaves those
of the other alone; ids that come to the same stem share all of them.
-/

namespace ResumePress

open Files Files.Tree

variable {σ : Type}

namespace Press

/-! ### Names -/

/-- A stem ends where the suffix of a resolution begins. -/
theorem fileName_inj {t u : Template} {spec spec' : RasterSpec} (hspec : spec ∈ resolutions)
    (hspec' : spec' ∈ resolutions) :
    spec.fileName t.stem = spec'.fileName u.stem ↔ t.stem = u.stem ∧ spec = spec' := by
  refine ⟨fun h => ?_, fun ⟨hstem, heq⟩ => by rw [hstem, heq]⟩
  have hlists := congrArg String.toList h
  simp only [RasterSpec.fileName, String.toList_append] at hlists
  have hwhole := List.append_cancel_right hlists
  have hnone : ∀ v : Template, ∀ c ∈ v.stem.toList, (c != '@') = true := fun v c hc =>
    bne_iff_ne.2 fun heq => v.not_mem_stem (by decide) (by decide) (heq ▸ hc)
  have hends : ∀ spec ∈ resolutions, spec.suffix.toList.takeWhile (· != '@') = [] := by decide
  have hstem : t.stem = u.stem := by
    have hcut := congrArg (List.takeWhile (· != '@')) hwhole
    rw [List.takeWhile_append_of_pos (hnone t), List.takeWhile_append_of_pos (hnone u),
      hends spec hspec, hends spec' hspec', List.append_nil, List.append_nil] at hcut
    exact String.toList_inj.1 hcut
  rw [hstem] at hwhole
  have hsuffixes : ∀ spec ∈ resolutions, ∀ spec' ∈ resolutions,
      spec.suffix = spec'.suffix → spec = spec' := by decide
  exact ⟨hstem, hsuffixes spec hspec spec' hspec'
    (String.toList_inj.1 (List.append_cancel_left hwhole))⟩

/-- No name of a thumbnail is one of the press's other names. -/
theorem not_isOwn_fileName (stem : String) (spec : RasterSpec) : ¬IsOwn (spec.fileName stem) := by
  rintro ⟨stem', ending, hending, h⟩
  have hlists := congrArg String.toList h
  have hlengths : ∀ ending ∈ [".pdf", ".log", ".tmp"],
      ".png".toList.length = ending.toList.length ∧ ".png".toList ≠ ending.toList := by decide
  simp only [RasterSpec.fileName, String.toList_append] at hlists
  exact (hlengths ending hending).2 (List.append_inj' hlists (hlengths ending hending).1).2

theorem isOwn_stagingName (name token : String) : IsOwn (stagingName name token) :=
  ⟨_, ".tmp", by simp, rfl⟩

/-! ### What a preview touches -/

/-- The places with the name of a thumbnail of a template, or of what is staged for one. -/
def IsImageOf (t : Template) (token : String) (place : Place) : Prop :=
  ∃ spec ∈ resolutions,
    Named (spec.fileName t.stem) place ∨ Named (stagingName (spec.fileName t.stem) token) place

theorem not_isImageOf {t u : Template} (hstem : t.stem ≠ u.stem) {spec : RasterSpec}
    (hspec : spec ∈ resolutions) {place : Place} (hplace : Named (spec.fileName u.stem) place)
    (token : String) : ¬IsImageOf t token place := by
  rintro ⟨spec', hspec', hnamed | hnamed⟩
  · exact hstem ((fileName_inj hspec' hspec).1 (hnamed.unique hplace)).1
  · exact not_isOwn_fileName u.stem spec (hnamed.unique hplace ▸ isOwn_stagingName _ token)

variable {press : Press σ} {t : Template} {w : Workspace} {s opened prepared : Surroundings σ}
  {folder : Place}

/-- What is prepared for publication leads to places of the thumbnails and their staging. -/
theorem leadsInto_isImageOf {base : Tree} {placements : List Placement}
    (hs : Spares (Below folder) (fun _ => False) base prepared.files) (htoken : '/' ∉ w.token.toList)
    (hfresh : ¬base.Mentions w.token)
    (htargets : placements.map Placement.target = resolutions.map (press.thumbnail t.stem)) :
    ∀ p ∈ placements, p.LeadsInto w.token (IsImageOf t w.token) prepared.files := by
  intro p hp
  obtain ⟨hfree, spec, hspec, hnamed⟩ := (staged_freely hs htoken hfresh htargets).1 p hp
  refine ⟨fun place hplace => ⟨spec, hspec, .inr (hnamed place hplace)⟩,
    fun place hplace => (hfree place hplace).1, fun place hplace => ?_⟩
  have htarget : p.target ∈ resolutions.map (press.thumbnail t.stem) :=
    htargets ▸ List.mem_map_of_mem hp
  obtain ⟨spec', hspec', heq⟩ := List.mem_map.1 htarget
  rw [← heq] at hplace
  exact ⟨spec', hspec', .inl (name_of_locate_join (isPlain_fileName t hspec') (.inl rfl) hplace)⟩

/-- A place in the folder of a run that could not be removed. -/
def IsLeftover (press : Press σ) (t : Template) (s s' : Surroundings σ) (place : Place) : Prop :=
  ∃ w opened folder, Workspace.create press.config.temp t.stem s = (.ok w, opened) ∧
    opened.files.locate true w.folder = .ok folder ∧ s'.files.folderAt folder = true ∧
    Below folder place

/-- The end of a run takes away its folder, or nothing if the folder is no longer found. -/
theorem close_edits {altered : Place → Prop} {published : Surroundings σ}
    (hopen : w.IsOpen folder opened.files)
    (hs : Spares (Below folder) (fun _ => False) opened.files prepared.files)
    (hedits : Edits altered prepared.files published.files) {place : Place} (hplace : ¬altered place) :
    (w.close published).2.files.leaf? place = opened.files.leaf? place ∨
      ((w.close published).2.files.folderAt folder = true ∧ Below folder place) := by
  have hleaf : ¬Below folder place → published.files.leaf? place = opened.files.leaf? place :=
    fun hbelow => (hedits.leaf place hplace).trans (hs.leaf place hbelow id)
  rcases w.close_cases (hedits.isRooted (hs.isRooted hopen.isRooted)) with
    hsame | ⟨gone, hgone, hdrops⟩
  · rw [hsame, hedits.folderAt]
    by_cases hbelow : Below folder place
    · exact .inr ⟨hopen.isFolder_of_spares hs, hbelow⟩
    · exact .inl (hleaf hbelow)
  · obtain rfl : gone = folder :=
      Except.ok.inj ((hedits.locate hgone).symm.trans (hopen.locate_of_spares hs false))
    rw [hdrops.leaf]
    split
    · rename_i hinside
      by_cases heq : place = gone
      · rw [heq, leaf?_of_folderAt hopen.isFolder]
        exact .inl rfl
      · rw [(get?_eq_none.1 (hopen.empty place ⟨hinside, heq⟩)).1]
        exact .inl rfl
    · exact .inl (hleaf fun hbelow => ‹¬gone <+: place› hbelow.1)

/-- A preview changes no files but its log, its own thumbnails and what is staged for them. -/
theorem compilePreview_leaf (hroot : s.files.IsRooted) (hcompiler : press.compiler.compiler.StaysIn)
    (hrasterizer : press.rasterizer.StaysIn)
    (hfresh : ∀ w opened, Workspace.create press.config.temp t.stem s = (.ok w, opened) →
      ¬s.files.Mentions w.token) (place : Place) :
    (press.compilePreview t s).2.files.leaf? place = s.files.leaf? place ∨
      press.IsLeftover t s (press.compilePreview t s).2 place ∨
      ∃ w opened, Workspace.create press.config.temp t.stem s = (.ok w, opened) ∧
        (Named (logName t.stem w) place ∨ IsImageOf t w.token place) := by
  rw [compilePreview, inWorkspace_apply]
  have hgrown := Workspace.create_grown hroot press.config.temp t.stem
  rcases hcreate : Workspace.create press.config.temp t.stem s with ⟨cause | w, opened⟩ <;>
    rw [hcreate] at hgrown
  · exact .inl (congrFun hgrown.leaf place)
  · obtain ⟨folder, hopen⟩ := Workspace.create_opened hroot hcreate
    have htoken := Workspace.create_token hcreate
    have hnone : ¬opened.files.Mentions w.token := by
      unfold Mentions
      rw [hgrown.leaf]
      exact hfresh w opened hcreate
    have hprepared := prepare_spares (t := t) hopen hcompiler hrasterizer htoken hnone (.refl _ _ _)
    dsimp only
    rw [previewIn_apply, ← hgrown.leaf]
    rcases hprepare : press.prepare t w opened with ⟨cause | ⟨document, placements⟩, prepared⟩ <;>
      rw [hprepare] at hprepared
    · by_cases hlog : Named (logName t.stem w) place
      · exact .inr (.inr ⟨w, opened, rfl, .inl hlog⟩)
      · exact .inl (close_leaf hopen hprepared hlog)
    · obtain ⟨hs, htargets⟩ := hprepared
      have hedits := publish_keeps (hs.isRooted hopen.isRooted)
        (leadsInto_isImageOf hs htoken hnone htargets) prepared (.refl _ _)
      by_cases himage : IsImageOf t w.token place
      · exact .inr (.inr ⟨w, opened, rfl, .inr himage⟩)
      · have hclosed := close_edits hopen hs hedits himage
        have hlocate := hopen.locate_of_spares (.refl _ (fun _ => False) _) true
        dsimp only
        rcases hdone : publish placements w.token prepared with ⟨cause | _, published⟩ <;>
          rw [hdone] at hclosed <;>
          exact hclosed.imp id fun hleft => .inl ⟨w, opened, folder, hcreate, hlocate, hleft⟩

/-- Templates share a thumbnail exactly if they have the same stem. If they do not, a preview of
one of them leaves what stands where the other has its thumbnails as it is, unless it stands in a
folder of a run that could not be removed. -/
theorem thumbnails_apart (press : Press σ) (t u : Template) :
    (∀ spec ∈ resolutions, ∀ spec' ∈ resolutions,
      (press.thumbnail t.stem spec = press.thumbnail u.stem spec' ↔
        t.stem = u.stem ∧ spec = spec')) ∧
    (t.stem ≠ u.stem → ∀ s : Surroundings σ, s.files.IsRooted →
      press.compiler.compiler.StaysIn → press.rasterizer.StaysIn →
      (∀ w opened, Workspace.create press.config.temp t.stem s = (.ok w, opened) →
        ¬s.files.Mentions w.token) →
      ∀ spec ∈ resolutions, ∀ (files : Tree) (place : Place),
        files.locate false (press.thumbnail u.stem spec) = .ok place →
          (press.compilePreview t s).2.files.leaf? place = s.files.leaf? place ∨
            press.IsLeftover t s (press.compilePreview t s).2 place) := by
  refine ⟨fun spec hspec spec' hspec' => ?_, fun hstem s hroot hcompiler hrasterizer hfresh spec
    hspec files place hplace => ?_⟩
  · rw [← fileName_inj hspec hspec']
    refine ⟨fun h => ?_, fun h => by rw [thumbnail, thumbnail, h]⟩
    have hnames := congrArg Path.fileName? h
    rw [thumbnail, thumbnail, Path.fileName?_join (isPlain_fileName t hspec),
      Path.fileName?_join (isPlain_fileName u hspec')] at hnames
    exact Option.some.inj hnames
  · have hnamed := name_of_locate_join (isPlain_fileName u hspec) (.inl rfl) hplace
    rcases compilePreview_leaf hroot hcompiler hrasterizer hfresh place with
      hsame | hleft | ⟨w, opened, -, hlog | himage⟩
    · exact .inl hsame
    · exact .inr hleft
    · exact absurd (hlog.unique hnamed ▸ isOwn_logName t.stem w) (not_isOwn_fileName u.stem spec)
    · exact absurd himage (not_isImageOf hstem hspec hnamed w.token)

end Press

theorem thumbnails_apart_of_cv :
    let press := Press.small .idle
    let made := press.compilePreview (.bare "cv") .bare
    (Template.bare "cv").stem ≠ (Template.bare "cw").stem ∧
      (made.2.files.leaf? ["p", "cw.png"] = Surroundings.bare.files.leaf? ["p", "cw.png"] ∨
        press.IsLeftover (.bare "cv") .bare made.2 ["p", "cw.png"]) := by
  have hstem : (Template.bare "cv").stem ≠ (Template.bare "cw").stem := by decide
  refine ⟨hstem, ?_⟩
  exact ((Press.small .idle).thumbnails_apart (.bare "cv") (.bare "cw")).2 hstem .bare
    Surroundings.isRooted_bare Compiler.verbatim_staysIn Rasterizer.idle_staysIn
    (fun w _ _ => Surroundings.not_mentions_bare w.token) .standard (by simp [Press.resolutions])
    ⟨[(["p"], ⟨.folder, 0⟩)], []⟩ _ (by decide +kernel)

/-- A rasterizer that makes empty images. -/
def Rasterizer.blank : Rasterizer σ := fun _ _ stem => do
  let image := stem.withExtension "png"
  match ← Act.write image .empty with
  | .ok () => return .ok image
  | .error _ => return .error (.missing image)

-- Ids that differ in the size of their letters: the preview of one makes the thumbnails of both.
theorem thumbnails_shared :
    let t := Template.bare "CV"
    let u := Template.bare "cv"
    let press := { Press.small .blank with registry := .ofTemplates [t, u] ⟨[]⟩ }
    press.registry.templates = [t, u] ∧ t.id ≠ u.id ∧
      press.thumbnail t.stem .standard = press.thumbnail u.stem .standard ∧
      press.thumbnail t.stem .doubleDensity = press.thumbnail u.stem .doubleDensity ∧
      (Surroundings.bare.files.entry (press.thumbnail u.stem .standard)).isOk = false ∧
      ((press.compilePreview t .bare).2.files.entry (press.thumbnail u.stem .standard)).isOk =
        true := by
  refine ⟨by rfl, ?_, ?_, ?_, ?_, ?_⟩ <;> decide +kernel

end ResumePress
