import Mathlib.Tactic.FinCases
import ResumePress.Proofs.Publish
import ResumePress.Proofs.Runs
import ResumePress.Proofs.Stems

/-!
Previews that fail. Up to the moment when the staged images are put in place a preview leaves no
trace but its log; from then on a failure leaves at least one staged image behind.
-/

namespace ResumePress

open Files Files.Tree

variable {σ : Type}

/-! ### Names of a run -/

/-- A file or a link of a tree has a text in its name. -/
def Files.Tree.Mentions (t : Tree) (text : String) : Prop :=
  ∃ folder name, t.leaf? (folder ++ [name]) ≠ none ∧ text.toList <:+: name.toList

theorem Files.Tree.leaf?_of_not_mentions {t : Tree} {text : String} (h : ¬t.Mentions text)
    {name : String} (hname : text.toList <:+: name.toList) {place : Place}
    (hplace : Named name place) : t.leaf? place = none := by
  obtain ⟨folder, rfl⟩ := hplace
  by_contra hleaf
  exact h ⟨folder, name, hleaf, hname⟩

namespace Press

/-- The name under which an image is staged. -/
def stagingName (name token : String) : String := name ++ "." ++ token ++ ".tmp"

theorem staging_join {name : String} (hname : Path.IsPlain name) (folder : Path) (token : String) :
    ∃ beside : Path, staging (folder.join name) token = beside.join (stagingName name token) := by
  unfold staging
  rw [Path.fileName?_join hname]
  exact Path.withFileName_eq_join _ _

theorem infix_stagingName (name token : String) :
    token.toList <:+: (stagingName name token).toList := by
  simp only [stagingName, String.toList_append, List.append_assoc]
  exact ⟨name.toList ++ ".".toList, ".tmp".toList, by simp⟩

theorem isPlain_stagingName {name token : String} (hname : '/' ∉ name.toList)
    (htoken : '/' ∉ token.toList) : Path.IsPlain (stagingName name token) := by
  refine .append ?_ (by decide) (by decide)
  simp only [String.toList_append, List.mem_append, not_or]
  exact ⟨⟨hname, by decide⟩, htoken⟩

/-- What is staged under a name that nothing has is staged where nothing is, outside of a region. -/
theorem isFree_staging {t t' : Tree} {region : Place → Prop} {name token : String}
    (hspares : Spares region (fun _ => False) t t') (hname : Path.IsPlain name)
    (htoken : '/' ∉ token.toList) (hfresh : ¬t.Mentions token) (folder : Path) :
    t'.IsFree region (staging (folder.join name) token) ∧
      ∀ place, t'.locate false (staging (folder.join name) token) = .ok place →
        Named (stagingName name token) place := by
  have hnone : ∀ place, Named (stagingName name token) place → t.leaf? place = none :=
    fun place => leaf?_of_not_mentions hfresh (infix_stagingName name token)
  have hlink : ∀ place, Named (stagingName name token) place → t'.link? place = none := by
    intro place hplace
    refine hspares.link?_eq_none ?_
    rw [Tree.link?, hnone place hplace]
    rfl
  have hnamed : ∀ place, t'.locate false (staging (folder.join name) token) = .ok place →
      Named (stagingName name token) place := by
    intro place hplace
    obtain ⟨beside, hbeside⟩ := staging_join hname folder token
    rw [hbeside] at hplace
    exact name_of_locate_join (isPlain_stagingName hname.noSlash htoken) (.inl rfl) hplace
  refine ⟨fun place hplace => ⟨hlink place (hnamed place hplace), fun hregion => ?_⟩, hnamed⟩
  rw [hspares.leaf place hregion id]
  exact hnone place (hnamed place hplace)

/-! ### Rendering -/

variable {press : Press σ} {t : Template} {w : Workspace} {s s' : Surroundings σ}

theorem targets_rasterizeAll {stem : String} {document : Path} {specs : List RasterSpec}
    {placements : List Placement}
    (h : press.rasterizeAll w stem document specs s = (.ok placements, s')) :
    placements.map Placement.target = specs.map (press.thumbnail stem) := by
  induction specs generalizing s placements with
  | nil =>
    cases h
    rfl
  | cons spec specs ih =>
    rw [rasterizeAll, Act.bind_apply] at h
    generalize press.rasterizer document spec (w.file (stem ++ spec.suffix)) s = drawn at h
    obtain ⟨e | image, s₁⟩ := drawn
    · cases h
    · dsimp only at h
      rw [Act.bind_apply] at h
      rcases hrest : press.rasterizeAll w stem document specs s₁ with ⟨e | rest, s₂⟩ <;>
        rw [hrest] at h
      · cases h
      · cases h
        rw [List.map_cons, List.map_cons, ih hrest]

/-- Compiles a preview and renders it, up to what is to be published where. -/
def prepare (press : Press σ) (t : Template) (w : Workspace) :
    Act σ (Except PressError (CompiledDocument × List Placement)) := do
  match ← press.compileIn w t.stem (press.previewSource t) with
  | .error e => return .error e
  | .ok document =>
    match ← press.rasterizeAll w t.stem document.path resolutions with
    | .error e => return .error e
    | .ok placements =>
      match ← Act.makeFolders press.config.thumbnails with
      | .error e => return .error (.io e)
      | .ok () => return .ok (document, placements)

theorem previewIn_apply (press : Press σ) (t : Template) (w : Workspace) (s : Surroundings σ) :
    press.previewIn t w s =
      match press.prepare t w s with
      | (.error e, s) => (.error e, s)
      | (.ok (document, placements), s) =>
        match publish placements w.token s with
        | (.error e, s) => (.error (.io e), s)
        | (.ok (), s) =>
          (.ok
            { templateId := t.id
              standard := press.thumbnail t.stem .standard
              doubleDensity := press.thumbnail t.stem .doubleDensity
              engine := document.engine
              attempts := document.attempts.length }, s) := by
  simp only [previewIn, prepare, Act.bind_apply]
  rcases press.compileIn w t.stem (press.previewSource t) s with ⟨e | document, s₁⟩
  · rfl
  · simp only [Act.bind_apply]
    rcases press.rasterizeAll w t.stem document.path resolutions s₁ with ⟨e | placements, s₂⟩
    · rfl
    · simp only [Act.bind_apply]
      rcases Act.makeFolders press.config.thumbnails s₂ with ⟨e | _, s₃⟩
      · rfl
      · simp only [Act.bind_apply, Act.pure_apply]
        rcases publish placements w.token s₃ with ⟨e | _, s₄⟩ <;> rfl

/-- The name of the log that a run keeps if its compilation never succeeds. -/
def logName (stem : String) (w : Workspace) : String := stem ++ "-" ++ w.token ++ ".log"

theorem isPlain_logName (t : Template) (htoken : '/' ∉ w.token.toList) :
    Path.IsPlain (logName t.stem w) := by
  refine .append ?_ (by decide) (by decide)
  simp only [String.toList_append, List.mem_append, not_or]
  exact ⟨⟨t.not_slash_mem_stem, by decide⟩, htoken⟩

theorem infix_logName (stem : String) (w : Workspace) :
    w.token.toList <:+: (logName stem w).toList := by
  simp only [logName, String.toList_append, List.append_assoc]
  exact ⟨stem.toList ++ "-".toList, ".log".toList, by simp⟩

theorem not_slash_mem_suffix (t : Template) {spec : RasterSpec} (hspec : spec ∈ resolutions) :
    '/' ∉ (t.stem ++ spec.suffix).toList := by
  have hsuffix : '/' ∉ spec.suffix.toList := by
    fin_cases hspec <;> decide
  rw [String.toList_append, List.mem_append, not_or]
  exact ⟨t.not_slash_mem_stem, hsuffix⟩

theorem not_point_mem_suffix (t : Template) {spec : RasterSpec} (hspec : spec ∈ resolutions) :
    '.' ∉ (t.stem ++ spec.suffix).toList := by
  have hsuffix : ∀ spec ∈ resolutions, '.' ∉ spec.suffix.toList := by decide
  rw [String.toList_append, List.mem_append, not_or]
  exact ⟨t.not_mem_stem (by decide) (by decide), hsuffix spec hspec⟩

theorem isPlain_fileName (t : Template) {spec : RasterSpec} (hspec : spec ∈ resolutions) :
    Path.IsPlain (spec.fileName t.stem) :=
  .append (not_slash_mem_suffix t hspec) (by decide) (by decide)

section Run

variable {folder : Place} {base : Tree} (hopen : w.IsOpen folder base)
  (hcompiler : press.compiler.compiler.StaysIn) (hrasterizer : press.rasterizer.StaysIn)
  (htoken : '/' ∉ w.token.toList) (hfresh : ¬base.Mentions w.token)
include hopen hcompiler hrasterizer htoken hfresh

theorem prepare_spares (hs : Spares (Below folder) (fun _ => False) base s.files) :
    match press.prepare t w s with
    | (.error _, s') => Spares (Below folder) (Named (logName t.stem w)) base s'.files
    | (.ok (_, placements), s') =>
      Spares (Below folder) (fun _ => False) base s'.files ∧
        placements.map Placement.target = resolutions.map (press.thumbnail t.stem) := by
  have hlink : ∀ place, Named (logName t.stem w) place → base.link? place = none := by
    intro place hplace
    rw [Tree.link?, leaf?_of_not_mentions hfresh (infix_logName t.stem w) hplace]
    rfl
  have hcompiled := compileIn_spares hopen hcompiler (isPlain_logName t htoken) hlink
    (press.previewSource t) hs
  rw [prepare, Act.bind_apply]
  generalize press.compileIn w t.stem (press.previewSource t) s = compiled at hcompiled
  obtain ⟨e | document, s₁⟩ := compiled
  · exact hcompiled.2
  · have hbears := bears_spares hopen fun _ => False
    have hrendered := rasterizeAll_closed (Act.Keeps.isClosed _) document.path (fun spec hspec =>
      rasterizer_keeps hbears hrasterizer (not_slash_mem_suffix t hspec) document.path spec) s₁
      (hcompiled.1 rfl)
    dsimp only
    rw [Act.bind_apply]
    rcases hdone : press.rasterizeAll w t.stem document.path resolutions s₁
      with ⟨e | placements, s₂⟩ <;> rw [hdone] at hrendered
    · exact hrendered.mono fun _ => False.elim
    · have hgrown := makeFolders_grown (hrendered.isRooted hopen.isRooted) s₂.now
        press.config.thumbnails
      have htargets := targets_rasterizeAll hdone
      dsimp only
      rw [Act.bind_apply, Act.makeFolders_apply]
      generalize s₂.files.makeFolders s₂.now press.config.thumbnails = made at hgrown
      obtain ⟨e | _, files⟩ := made
      · exact (hrendered.trans hgrown.spares).mono fun _ => False.elim
      · exact ⟨hrendered.trans hgrown.spares, htargets⟩

end Run

/-- The images of a preview are staged under names of their own. -/
theorem staged_freely {base : Tree} {region : Place → Prop} {placements : List Placement}
    (hs : Spares region (fun _ => False) base s.files) (htoken : '/' ∉ w.token.toList)
    (hfresh : ¬base.Mentions w.token)
    (htargets : placements.map Placement.target = resolutions.map (press.thumbnail t.stem)) :
    (∀ p ∈ placements, s.files.IsFree region (staging p.target w.token) ∧
      ∃ spec ∈ resolutions, ∀ place,
        s.files.locate false (staging p.target w.token) = .ok place →
          Named (stagingName (spec.fileName t.stem) w.token) place) ∧
    placements.Pairwise fun p q => ∀ place,
      s.files.locate false (staging p.target w.token) = .ok place →
        s.files.locate false (staging q.target w.token) ≠ .ok place := by
  have hstaged : ∀ spec ∈ resolutions, _ := fun spec hspec =>
    isFree_staging hs (isPlain_fileName t hspec) htoken hfresh press.config.thumbnails
  constructor
  · intro p hp
    have htarget : p.target ∈ resolutions.map (press.thumbnail t.stem) :=
      htargets ▸ List.mem_map_of_mem hp
    obtain ⟨spec, hspec, heq⟩ := List.mem_map.1 htarget
    rw [← heq]
    exact ⟨(hstaged spec hspec).1, spec, hspec, (hstaged spec hspec).2⟩
  · refine (List.pairwise_map (f := Placement.target) (R := fun target other => ∀ place,
      s.files.locate false (staging target w.token) = .ok place →
        s.files.locate false (staging other w.token) ≠ .ok place)).1 ?_
    rw [htargets]
    refine List.pairwise_pair.2 fun place hstandard hdouble => ?_
    obtain ⟨folder, hplace⟩ := (hstaged .standard (by simp [resolutions])).2 place hstandard
    obtain ⟨folder', hplace'⟩ := (hstaged .doubleDensity (by simp [resolutions])).2 place hdouble
    have hnames := congrArg List.getLast? (hplace.symm.trans hplace')
    rw [List.getLast?_concat, List.getLast?_concat] at hnames
    have hlength := congrArg String.length (Option.some.inj hnames)
    have hempty : RasterSpec.standard.suffix.length = 0 := by decide
    have hsuffix : RasterSpec.doubleDensity.suffix.length = 3 := by decide
    simp only [stagingName, RasterSpec.fileName, String.length_append, hempty, hsuffix] at hlength
    omega

/-- A preview of which all images are staged and not all are put in place. -/
def PlacingFails (press : Press σ) (t : Template) (s : Surroundings σ) : Prop :=
  ∃ w opened document placements prepared staged,
    Workspace.create press.config.temp t.stem s = (.ok w, opened) ∧
    press.prepare t w opened = (.ok (document, placements), prepared) ∧
    stageAll w.token placements [] prepared = (.ok (), staged) ∧
    (placeAll w.token placements staged).1 ≠ .ok ()

/-- The press leaves no trace of a preview but the log of its run. -/
def LeavesOnlyLog (press : Press σ) (t : Template) (s s' : Surroundings σ) : Prop :=
  ∀ place, s'.files.leaf? place ≠ s.files.leaf? place →
    ∃ w opened, Workspace.create press.config.temp t.stem s = (.ok w, opened) ∧
      Named (logName t.stem w) place

/-- A staged image of a preview is left where nothing was, unless it is in the folder of the
run. -/
def LeavesStaged (press : Press σ) (t : Template) (s s' : Surroundings σ) : Prop :=
  ∃ w opened, Workspace.create press.config.temp t.stem s = (.ok w, opened) ∧
    ∃ spec ∈ resolutions, ∃ place, Named (stagingName (spec.fileName t.stem) w.token) place ∧
      s.files.leaf? place = none ∧
      (s'.files.HasFile place ∨
        ∃ folder, opened.files.locate true w.folder = .ok folder ∧ folder <+: place)

variable {opened : Surroundings σ} {folder : Place}

-- The run is closed whatever happened in it, so all that counts is what it altered outside.
theorem leavesOnlyLog_of_spares (hcreate : Workspace.create press.config.temp t.stem s =
      (.ok w, opened)) (hroot : s.files.IsRooted) (hopen : w.IsOpen folder opened.files)
    (hs : Spares (Below folder) (Named (logName t.stem w)) opened.files s'.files) :
    press.LeavesOnlyLog t s (w.close s').2 := by
  intro place hplace
  refine ⟨w, opened, hcreate, ?_⟩
  by_contra hnamed
  have hgrown := Workspace.create_grown hroot press.config.temp t.stem
  rw [hcreate] at hgrown
  rw [close_leaf hopen hs hnamed, hgrown.leaf] at hplace
  exact hplace rfl

/-- What a failure to put the images in place leaves is not in reach of the end of the run. -/
theorem leavesStaged_of_placing {prepared : Surroundings σ}
    (hcreate : Workspace.create press.config.temp t.stem s = (.ok w, opened))
    (hopen : w.IsOpen folder opened.files) (hfresh : ¬s.files.Mentions w.token)
    (hs : Spares (Below folder) (fun _ => False) opened.files prepared.files)
    (hplacing : Placing prepared.files s'.files) {spec : RasterSpec} (hspec : spec ∈ resolutions)
    {place : Place} (hnamed : Named (stagingName (spec.fileName t.stem) w.token) place)
    (hfile : s'.files.HasFile place) : press.LeavesStaged t s (w.close s').2 := by
  refine ⟨w, opened, hcreate, spec, hspec, place, hnamed,
    leaf?_of_not_mentions hfresh (infix_stagingName _ _) hnamed, ?_⟩
  rcases w.close_cases hplacing.isRooted with hsame | ⟨gone, hgone, hdrops⟩
  · rw [hsame]
    exact .inl hfile
  · have hlocate := hopen.locate_of_spares hs false
    rw [hplacing.locate hgone] at hlocate
    cases hlocate
    by_cases hinside : folder <+: place
    · exact .inr ⟨folder, hopen.locate_of_spares (.refl _ (fun _ => False) _) true, hinside⟩
    · obtain ⟨bytes, modified, hleaf⟩ := hfile
      exact .inl ⟨bytes, modified, by rw [hdrops.leaf, if_neg hinside, hleaf]⟩

/-- A run that has been prepared is the one of which placing can fail. -/
theorem placingFails_iff {prepared : Surroundings σ}
    {result : Except PressError (CompiledDocument × List Placement)}
    (hcreate : Workspace.create press.config.temp t.stem s = (.ok w, opened))
    (hprepare : press.prepare t w opened = (result, prepared)) :
    press.PlacingFails t s ↔ ∃ document placements staged, result = .ok (document, placements) ∧
      stageAll w.token placements [] prepared = (.ok (), staged) ∧
      (placeAll w.token placements staged).1 ≠ .ok () := by
  constructor
  · rintro ⟨w', opened', document, placements, prepared', staged, hcreated, hready, hrest⟩
    rw [hcreate] at hcreated
    cases hcreated
    rw [hprepare] at hready
    cases hready
    exact ⟨document, placements, staged, rfl, hrest⟩
  · rintro ⟨document, placements, staged, rfl, hrest⟩
    exact ⟨w, opened, document, placements, prepared, staged, hcreate, hprepare, hrest⟩

theorem compilePreview_error {e : PressError} (hroot : s.files.IsRooted)
    (hcompiler : press.compiler.compiler.StaysIn) (hrasterizer : press.rasterizer.StaysIn)
    (hfresh : ∀ w opened, Workspace.create press.config.temp t.stem s = (.ok w, opened) →
      ¬s.files.Mentions w.token)
    (he : (press.compilePreview t s).1 = .error e) :
    (¬press.PlacingFails t s ∧ press.LeavesOnlyLog t s (press.compilePreview t s).2) ∨
      (press.PlacingFails t s ∧ press.LeavesStaged t s (press.compilePreview t s).2) := by
  rw [compilePreview, inWorkspace_apply] at he ⊢
  have hgrown := Workspace.create_grown hroot press.config.temp t.stem
  rcases hcreate : Workspace.create press.config.temp t.stem s with ⟨cause | w, opened⟩ <;>
    rw [hcreate] at he hgrown
  · refine .inl ⟨?_, fun place hplace => ?_⟩
    · rintro ⟨w, opened, -, -, -, -, hcreated, -⟩
      rw [hcreate] at hcreated
      cases hcreated
    · dsimp only at hplace
      rw [hgrown.leaf] at hplace
      exact absurd rfl hplace
  · obtain ⟨folder, hopen⟩ := Workspace.create_opened hroot hcreate
    have htoken := Workspace.create_token hcreate
    have hnone : ¬opened.files.Mentions w.token := by
      unfold Mentions
      rw [hgrown.leaf]
      exact hfresh w opened hcreate
    have hprepared := prepare_spares (t := t) hopen hcompiler hrasterizer htoken hnone (.refl _ _ _)
    dsimp only at he ⊢
    rw [previewIn_apply] at he ⊢
    rcases hprepare : press.prepare t w opened with ⟨cause | ⟨document, placements⟩, prepared⟩ <;>
      rw [hprepare] at he hprepared
    · refine .inl ⟨?_, leavesOnlyLog_of_spares hcreate hroot hopen hprepared⟩
      rw [placingFails_iff hcreate hprepare]
      rintro ⟨document, placements, staged, hok, -⟩
      cases hok
    · obtain ⟨hs, htargets⟩ := hprepared
      obtain ⟨hfree, hdistinct⟩ := staged_freely hs htoken hnone htargets
      have hpreparedRoot := hs.isRooted hopen.isRooted
      have hfreely := fun p hp => (hfree p hp).1
      dsimp only at he ⊢
      rcases hdone : publish placements w.token prepared with ⟨cause | _, published⟩ <;>
        rw [hdone] at he
      · have hcause : (publish placements w.token prepared).1 = .error cause := by rw [hdone]
        rcases publish_error hpreparedRoot hfreely hcause with ⟨hfailed, hwithin⟩ | ⟨hstaged, hleft⟩
        · rw [hdone] at hwithin
          refine .inl ⟨?_, leavesOnlyLog_of_spares hcreate hroot hopen
            ((hs.trans hwithin.spares).mono fun _ => False.elim)⟩
          rw [placingFails_iff hcreate hprepare]
          rintro ⟨document, placements, staged, hok, hall, -⟩
          cases hok
          rw [hall] at hfailed
          cases hfailed
        · obtain ⟨hplacing, p, hp, place, hlocate, -, hfile⟩ := hleft hdistinct
          rw [hdone] at hplacing hfile
          obtain ⟨-, spec, hspec, hnamed⟩ := hfree p hp
          refine .inr ⟨?_, leavesStaged_of_placing hcreate hopen (hfresh w opened hcreate) hs hplacing
            hspec (hnamed place hlocate) hfile⟩
          rcases hall : stageAll w.token placements [] prepared with ⟨result, staged⟩
          rw [hall] at hstaged
          cases hstaged
          refine (placingFails_iff hcreate hprepare).2
            ⟨document, placements, staged, rfl, hall, ?_⟩
          rw [publish_apply, hall] at hcause
          rw [hcause]
          nofun
      · cases he

/-- Publishing changes nothing if it fails in its copies, and leaves a staged image if it fails
later. So a preview that fails leaves no more than its log, unless what fails is to put staged
images in place. -/
theorem unchanged_unless_placing_fails :
    (∀ (placements : List Placement) (token : String) (s : Surroundings σ) (e : Fault),
      s.files.IsRooted →
      (∀ p ∈ placements, s.files.IsFree (fun _ => False) (staging p.target token)) →
      (publish placements token s).1 = .error e →
      ((stageAll token placements [] s).1 = .error e ∧
        Alike s.files (publish placements token s).2.files) ∨
      ((stageAll token placements [] s).1 = .ok () ∧
        ((placements.Pairwise fun p q => ∀ place,
          s.files.locate false (staging p.target token) = .ok place →
            s.files.locate false (staging q.target token) ≠ .ok place) →
        ∃ p ∈ placements, ∃ place, s.files.locate false (staging p.target token) = .ok place ∧
          s.files.leaf? place = none ∧ (publish placements token s).2.files.HasFile place))) ∧
    (∀ (press : Press σ) (t : Template) (s : Surroundings σ) (e : PressError),
      s.files.IsRooted → press.compiler.compiler.StaysIn → press.rasterizer.StaysIn →
      (∀ w opened, Workspace.create press.config.temp t.stem s = (.ok w, opened) →
        ¬s.files.Mentions w.token) →
      (press.compilePreview t s).1 = .error e →
      (¬press.PlacingFails t s ∧ press.LeavesOnlyLog t s (press.compilePreview t s).2) ∨
        (press.PlacingFails t s ∧ press.LeavesStaged t s (press.compilePreview t s).2)) := by
  refine ⟨fun placements token s e hroot hfree he => ?_, fun press t s e hroot hcompiler hrasterizer
    hfresh he => compilePreview_error hroot hcompiler hrasterizer hfresh he⟩
  rcases publish_error hroot hfree he with ⟨hfailed, hwithin⟩ | ⟨hstaged, hleft⟩
  · exact .inl ⟨hfailed, hwithin.alike⟩
  · refine .inr ⟨hstaged, fun hdistinct => ?_⟩
    obtain ⟨-, p, hp, place, hlocate, hnone, hfile⟩ := hleft hdistinct
    exact ⟨p, hp, place, hlocate, hnone id, hfile⟩

end Press

/-! ### A small press -/

/-- A compiler whose documents are copies of their sources. -/
def Compiler.verbatim : Compiler σ := fun engine source folder => do
  let document := folder.join "preview.pdf"
  match ← Act.copy source document with
  | .ok () => return .ok document
  | .error e => return .error ⟨engine, e.message, none⟩

/-- A rasterizer that names its images and does not make them. -/
def Rasterizer.idle : Rasterizer σ := fun _ _ stem => return .ok stem

/-- A press that compiles verbatim. -/
def Press.small (rasterizer : Rasterizer Unit) : Press Unit :=
  .ofParts { Config.default with temp := ⟨"/t"⟩, thumbnails := ⟨"/p"⟩, cache := ⟨"/c"⟩ }
    (.ofTemplates [] ⟨[]⟩)
    ⟨fun _ => return .answered .absent, fun _ => return .answered .absent⟩ .verbatim rasterizer

/-- A template that has nothing but an id. -/
def Template.bare (id : String) : Template :=
  ⟨id, "", ⟨""⟩, "", none, none, [], [], [], none, false⟩

/-- The compiler comes to nothing, or there is a copy of the source as the document. -/
theorem Compiler.verbatim_apply (engine : TexEngine) (source folder : Path) (s : Surroundings σ) :
    ((verbatim engine source folder s).1.isOk = false ∧
      (verbatim engine source folder s).2 = s) ∨
    ∃ bytes files, s.files.read source = .ok bytes ∧
      s.files.write s.now (folder.join "preview.pdf") bytes = .ok files ∧
      verbatim engine source folder s = (.ok (folder.join "preview.pdf"), { s with files := files })
      := by
  rw [verbatim, Act.bind_apply, Act.copy_apply]
  cases hcopy : s.files.copy s.now source (folder.join "preview.pdf") with
  | error e => exact .inl ⟨rfl, rfl⟩
  | ok files =>
    obtain ⟨bytes, hread, hwrite⟩ := copy_eq_ok hcopy
    exact .inr ⟨bytes, files, hread, hwrite, rfl⟩

theorem Compiler.verbatim_staysIn : (verbatim : Compiler σ).StaysIn := by
  intro engine source path s folder h
  rcases verbatim_apply engine source path s with ⟨-, hsame⟩ | ⟨bytes, files, -, hwrite, heq⟩
  · rw [hsame]
    exact .refl _ _
  · have hsets := h.sets_write ⟨by decide, by decide, by decide⟩ hwrite
    rw [heq]
    exact hsets.within (below_snoc _ _) (by simp [Entry.target?])

theorem Rasterizer.idle_staysIn : (idle : Rasterizer σ).StaysIn :=
  fun _ _ _ _ _ _ _ _ => .refl _ _

theorem Surroundings.isRooted_bare : bare.files.IsRooted :=
  .of_nodes (by decide) (by decide)

theorem Surroundings.leaf?_bare (place : Place) : bare.files.leaf? place = none := by
  by_contra hleaf
  obtain ⟨node, hnode⟩ := Option.ne_none_iff_exists'.1 hleaf
  have hmem : (place, node) ∈ bare.files.nodes := mem_nodes_of_leaf? hnode
  cases List.mem_singleton.1 hmem
  cases (leaf?_eq_some.1 hnode).2

theorem Surroundings.get?_bare {place : Place} (h : 1 < place.length) :
    bare.files.get? place = none := by
  refine get?_eq_none.2 ⟨leaf?_bare place, Bool.eq_false_iff.2 fun hfolder => ?_⟩
  obtain ⟨node, hnode, -⟩ := folderAt_eq_true.1 hfolder
  have hmem := mem_nodes_of_get? (by rintro rfl; simp at h) hnode
  cases List.mem_singleton.1 hmem
  simp at h

theorem Surroundings.not_mentions_bare (text : String) : ¬bare.files.Mentions text :=
  fun ⟨_, _, hleaf, _⟩ => hleaf (leaf?_bare _)

theorem Surroundings.isFree_bare (path : Path) : bare.files.IsFree (fun _ => False) path := by
  intro place _
  refine ⟨?_, fun _ => leaf?_bare place⟩
  rw [Tree.link?, leaf?_bare]
  rfl

-- Images that were never made cannot be copied, so nothing comes to be put in place.
theorem unchanged_without_images :
    Alike Surroundings.bare.files
      (Press.publish [⟨⟨"/run/cv@.png"⟩, ⟨"/run/cv.png"⟩⟩] "1" Surroundings.bare).2.files ∧
    let press := Press.small .idle
    let t := Template.bare "cv"
    (¬press.PlacingFails t .bare ∧ press.LeavesOnlyLog t .bare (press.compilePreview t .bare).2) ∨
      (press.PlacingFails t .bare ∧ press.LeavesStaged t .bare (press.compilePreview t .bare).2) := by
  constructor
  · have hfree := fun (p : Press.Placement) (_ : p ∈ [⟨⟨"/run/cv@.png"⟩, ⟨"/run/cv.png"⟩⟩]) =>
      Surroundings.isFree_bare (Press.staging p.target "1")
    rcases Press.unchanged_unless_placing_fails.1 _ "1" Surroundings.bare .notFound
      Surroundings.isRooted_bare hfree (by rfl) with ⟨-, hsame⟩ | ⟨hstaged, -⟩
    · exact hsame
    · cases hstaged
  · have hfailed : ((Press.small .idle).compilePreview (.bare "cv") .bare).1.isOk = false := by
      decide +kernel
    obtain ⟨e, he⟩ : ∃ e, ((Press.small .idle).compilePreview (.bare "cv") .bare).1 = .error e := by
      cases hdone : ((Press.small .idle).compilePreview (.bare "cv") .bare).1 with
      | error e => exact ⟨e, rfl⟩
      | ok =>
        rw [hdone] at hfailed
        cases hfailed
    exact Press.unchanged_unless_placing_fails.2 _ _ Surroundings.bare e Surroundings.isRooted_bare
      Compiler.verbatim_staysIn Rasterizer.idle_staysIn
      (fun w _ _ => Surroundings.not_mentions_bare w.token) he

/-- An image, a thumbnail, and a folder where the other thumbnail would be. -/
def Surroundings.blocked : Surroundings Unit :=
  { bare with
    files := ⟨[(["p"], ⟨.folder, 0⟩), (["p", "a"], ⟨.file .empty, 0⟩),
      (["p", "cv.png"], ⟨.file ⟨#[0]⟩, 0⟩), (["p", "cv@2x.png"], ⟨.folder, 0⟩)], []⟩ }

-- The first thumbnail is another one after a publication that failed, and a staged image is left.
theorem publish_not_atomic :
    let s := Surroundings.blocked
    let done := Press.publish [⟨⟨"/p/a"⟩, ⟨"/p/cv.png"⟩⟩, ⟨⟨"/p/a"⟩, ⟨"/p/cv@2x.png"⟩⟩] "1" s
    done.1.isOk = false ∧
      (s.files.read ⟨"/p/cv.png"⟩).toOption.map ByteArray.size = some 1 ∧
      (done.2.files.read ⟨"/p/cv.png"⟩).toOption.map ByteArray.size = some 0 ∧
      (s.files.entry ⟨"/p/cv@2x.png.1.tmp"⟩).isOk = false ∧
      (done.2.files.entry ⟨"/p/cv@2x.png.1.tmp"⟩).isOk = true := by
  refine ⟨?_, ?_, ?_, ?_, ?_⟩ <;> decide +kernel

end ResumePress
