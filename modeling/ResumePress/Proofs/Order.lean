import ResumePress.Proofs.Files.Questions
import ResumePress.Proofs.Outcomes

/-!
Batches in any order. A step changes the thumbnails of its own template, what is staged for them and
the logs; it makes the folders of the press and, without an id to name it, an image beside the folder
of its run. Nothing that tells what another step comes to is among these, so every template has the
same outcome and the same thumbnails in every order.
-/

namespace ResumePress

open Files Files.Tree Press

variable {σ : Type}

/-- A workplace whose base is found by its absolute path as well. -/
structure Files.Tree.IsReachable (files : Tree) (base : Path) (root : Place) : Prop
    extends files.IsWorkplace base root where
  reached : files.locate true (files.absolute base) = .ok root

theorem Files.Tree.IsReachable.of_spares {files files' : Tree} {base : Path} {root : Place}
    {altered : Place → Prop} (h : files.IsReachable base root)
    (hs : Spares (fun _ => False) altered files files') : files'.IsReachable base root where
  toIsWorkplace := h.toIsWorkplace.of_spares hs nofun
  reached := by
    rw [absolute, hs.home, ← absolute]
    exact hs.locate nofun h.reached id

/-- A tree to make the thumbnails of a template in. No folders are where these would be. The way to the
source of the template does not touch the folders that runs and thumbnails are kept in, and it leads
to no folder. -/
structure Files.Tree.IsGround (files : Tree) (base : Path) (root : Place) (t : Template) : Prop
    extends files.IsReachable base root where
  spots : ∀ spec ∈ resolutions, files.folderAt (spot root t spec) = false
  source : ∀ place, files.AsksFor t.path place →
    ¬root ++ Config.tempWay <+: place ∧ ¬root ++ Config.thumbnailWay <+: place
  isFile : ∀ place, files.locate true t.path = .ok place → files.folderAt place = false

namespace Batch

variable {press : Press σ} {rules : Rules} {t u : Template} {base : Path} {root place : Place}
  {files files' : Tree} {s : Surroundings σ} {order templates : List Template}

/-! ### What steps for other templates change -/

/-- The places that steps for other templates can change: the logs, images beside the folders of runs,
and what is in the folder of the thumbnails but is no thumbnail of the template. -/
def IsForeign (root : Place) (t : Template) (place : Place) : Prop :=
  (InFolder root Config.logWay place ∨ IsBeside root place) ∨
    (InFolder root Config.thumbnailWay place ∧ ∀ spec ∈ resolutions, place ≠ spot root t spec)

/-- The places of the folders that steps make. -/
def IsMade (root place : Place) : Prop :=
  (OnWay root Config.logWay place ∨ OnWay root Config.thumbnailWay place) ∨
    OnWay root Config.tempWay place

/-- Steps for other templates have been made. -/
abbrev Spared (root : Place) (t : Template) (files files' : Tree) : Prop :=
  Changes (fun _ => False) (IsForeign root t) (IsMade root) files files'

theorem not_isForeign_spot {spec : RasterSpec} (hspec : spec ∈ resolutions) :
    ¬IsForeign root t (spot root t spec) := by
  rintro ((hlog | hbeside) | ⟨-, hothers⟩)
  · exact (isOff_logs (inFolder_spot root t spec)).inFolder hlog
  · exact hbeside.isOff_thumbnails.inFolder (inFolder_spot root t spec)
  · exact hothers spec hspec rfl

theorem not_isMade_spot (root : Place) (t : Template) (spec : RasterSpec) :
    ¬IsMade root (spot root t spec) := by
  have hin := inFolder_spot root t spec
  rintro ((hlogs | hthumbnails) | hruns)
  · exact (isOff_logs hin).onWay hlogs
  · exact hin.not_onWay hthumbnails
  · exact (isOff_logs hin).onWay (hruns.mono (by simp [Config.tempWay, Config.logWay]))

theorem isForeign_of_isImage (hstem : u.stem ≠ t.stem) (h : IsImage root u place) :
    IsForeign root t place := by
  refine .inr ⟨h.inFolder, fun spec hspec heq => ?_⟩
  obtain ⟨other, hother, name, rfl, hname⟩ := h
  obtain rfl := List.singleton_inj.1 (List.append_cancel_left heq)
  rcases hname with hname | ⟨token, hname⟩
  · exact hstem ((fileName_inj hspec hother).1 hname).1.symm
  · exact not_isOwn_fileName t.stem spec (hname ▸ isOwn_stagingName _ token)

/-- Every run of a batch draws new names. -/
def EachDrawsAnew (press : Press σ) : List Template → Surroundings σ → Prop
  | [], _ => True
  | t :: rest, s =>
    press.DrawsAnew t (press.validate t s).2 ∧ EachDrawsAnew press rest (generateOne press t s).2

/-- A step changes logs, what belongs to the thumbnails of its template and, if that has no id, an image
beside the folder of the run. -/
theorem generateOne_changes (hplace : s.files.IsReachable base root) (hlaid : press.IsLaidOut base)
    (hgoes : press.GoesBy rules) (hdraws : press.DrawsAnew u (press.validate u s).2) :
    Changes (fun _ => False)
      (fun place => (InFolder root Config.logWay place ∨ IsImage root u place) ∨ IsStray root u place)
      (IsMade root) s.files (generateOne press u s).2.files := by
  have hfiles := hgoes.files_validate u s
  rw [generateOne_apply]
  cases (press.needsRefresh u (press.validate u s).2).1 with
  | false =>
    rw [cond_false, hfiles]
    exact .refl _ _ _ _
  | true =>
    have hchanges := compilePreview_alters (s := (press.validate u s).2)
      (hfiles.symm ▸ hplace.toIsWorkplace) (hfiles.symm ▸ hplace.reached) hlaid hgoes hdraws
    rw [hfiles] at hchanges
    rw [cond_true]
    dsimp only
    exact hchanges.mono (fun _ => .imp (.imp IsLog.inFolder id) id) fun _ => id

/-- A step spares other templates. -/
theorem generateOne_spares (hplace : s.files.IsReachable base root) (hlaid : press.IsLaidOut base)
    (hgoes : press.GoesBy rules) (hdraws : press.DrawsAnew u (press.validate u s).2)
    (hstem : u.stem ≠ t.stem) : Spared root t s.files (generateOne press u s).2.files := by
  refine (generateOne_changes hplace hlaid hgoes hdraws).mono ?_ fun _ => id
  rintro place ((hlog | himage) | hstray)
  · exact .inl (.inl hlog)
  · exact isForeign_of_isImage hstem himage
  · exact .inl (.inr hstray.2)

theorem generateAll_cons_apply (press : Press σ) (t : Template) (rest : List Template)
    (s : Surroundings σ) : generateAll press (t :: rest) s =
      ((t.id, (generateOne press t s).1) :: (generateAll press rest (generateOne press t s).2).1,
        (generateAll press rest (generateOne press t s).2).2) := by
  rw [generateAll, Act.bind_apply]
  generalize generateOne press t s = done
  generalize generateAll press rest = others
  rfl

theorem generateAll_reachable (hplace : s.files.IsReachable base root) (hlaid : press.IsLaidOut base)
    (hgoes : press.GoesBy rules) (hdraws : EachDrawsAnew press order s) :
    (generateAll press order s).2.files.IsReachable base root := by
  induction order generalizing s with
  | nil => exact hplace
  | cons u rest ih =>
    obtain ⟨hdraw, hdraws⟩ := hdraws
    rw [generateAll_cons_apply]
    exact @ih (generateOne press u s).2
      (hplace.of_spares (generateOne_changes hplace hlaid hgoes hdraw).toSpares) hdraws

/-- The induction is on the steps. -/
theorem generateAll_spares (hplace : s.files.IsReachable base root) (hlaid : press.IsLaidOut base)
    (hgoes : press.GoesBy rules) (hdraws : EachDrawsAnew press order s)
    (hothers : ∀ u ∈ order, u.stem ≠ t.stem) :
    Spared root t s.files (generateAll press order s).2.files := by
  induction order generalizing s with
  | nil => exact .refl _ _ _ _
  | cons u rest ih =>
    obtain ⟨hdraw, hdraws⟩ := hdraws
    obtain ⟨hstem, hrest⟩ := List.forall_mem_cons.1 hothers
    have hstep := generateOne_spares hplace hlaid hgoes hdraw hstem
    have hafter := @ih (generateOne press u s).2 (hplace.of_spares hstep.toSpares) hdraws hrest
    rw [generateAll_cons_apply]
    exact hstep.trans hafter

/-! ### What a step depends on -/

/-- What stands on the ways to the folders of the press is not changed by steps. -/
theorem leaf?_onWay {names : List String} (hnames : names ∈ [Config.logWay, Config.thumbnailWay])
    (hspared : Spared root t files files') (hplace : OnWay root names place) :
    files'.leaf? place = files.leaf? place := by
  refine hspared.leaf place id ?_
  have hapart : ∀ other ∈ [Config.logWay, Config.thumbnailWay], ¬InFolder root other place := by
    intro other hother
    by_cases hsame : names = other
    · exact fun hin => (hsame ▸ hin).not_onWay hplace
    · simp only [List.mem_cons, List.not_mem_nil, or_false] at hnames hother
      rcases hnames with rfl | rfl <;> rcases hother with rfl | rfl
      · exact absurd rfl hsame
      · exact (isOff_of_inside (by decide) hplace.inside).inFolder
      · exact (isOff_of_inside (by decide) hplace.inside).inFolder
      · exact absurd rfl hsame
  rintro ((hlog | hbeside) | ⟨himage, -⟩)
  · exact hapart _ (by simp) hlog
  · simp only [List.mem_cons, List.not_mem_nil, or_false] at hnames
    rcases hnames with rfl | rfl
    · exact hbeside.not_onWay_logs hplace
    · exact hbeside.isOff_thumbnails.onWay hplace
  · exact hapart _ (by simp) himage

theorem leaf?_spot (hspared : Spared root t files files') {spec : RasterSpec}
    (hspec : spec ∈ resolutions) : files'.leaf? (spot root t spec) = files.leaf? (spot root t spec) :=
  hspared.leaf _ id (not_isForeign_spot hspec)

theorem folderAt_spot (hspared : Spared root t files files') {spec : RasterSpec} :
    files'.folderAt (spot root t spec) = files.folderAt (spot root t spec) :=
  (hspared.folders _ id).resolve_right fun hmade => not_isMade_spot root t spec hmade.1

theorem absolute_spared (hspared : Spared root t files files') :
    files'.absolute base = files.absolute base := by
  rw [absolute, absolute, hspared.home]

theorem told_spared (hspared : Spared root t files files') :
    press.told rules base root files' t = press.told rules base root files t := by
  have hhome : files'.absolute base = files.absolute base := absolute_spared hspared
  have hways : ∀ names ∈ [Config.logWay, Config.thumbnailWay],
      files'.wayFault? base root names = files.wayFault? base root names := by
    have hne : ∀ names ∈ [Config.logWay, Config.thumbnailWay], names ≠ [] := by decide
    exact fun names hnames => wayFault?_congr (hne names hnames) fun place hplace =>
      leaf?_onWay hnames hspared hplace
  have hruns : files'.wayFault? base root Config.tempWay =
      files.wayFault? base root Config.tempWay := by
    refine wayFault?_congr (by decide) fun place hplace => ?_
    have hlogs : OnWay root Config.logWay place := hplace.mono (by simp [Config.tempWay, Config.logWay])
    exact leaf?_onWay (by simp) hspared hlogs
  have hsample : sampleRun base files' t = sampleRun base files t := by
    rw [sampleRun, sampleRun, hhome]
  have hforeseen : press.foreseen rules base root files' t (sampleRun base files t) =
      press.foreseen rules base root files t (sampleRun base files t) :=
    foreseen_congr rfl (chars_sampleRun base files t) (chars_sampleRun base files t) rfl
      (hways _ (by simp)) (hways _ (by simp))
  rw [told, told, Workspace.openingFault?, Workspace.openingFault?, hruns, hhome, hsample, hforeseen]

section Spared

variable (hground : files.IsGround base root t) (hlaid : press.IsLaidOut base)
  (hspared : Spared root t files files')
include hground hspared

theorem reachable_spared : files'.IsReachable base root :=
  hground.toIsReachable.of_spares hspared.toSpares

/-- If the folder of the thumbnails is there, the way to the source sees nothing of the steps. -/
theorem stat_source (hthere : files.folderAt (root ++ Config.thumbnailWay) = true) :
    (files'.stat t.path).toOption = (files.stat t.path).toOption := by
  refine stat_of_asks hground.isRooted hspared.home (fun asked hasked => ?_) hground.isFile
  obtain ⟨hruns, himages⟩ := hground.source asked hasked
  constructor
  · refine hspared.leaf asked id ?_
    rintro ((⟨name, rfl⟩ | ⟨name, rfl⟩) | ⟨⟨name, rfl⟩, -⟩)
    · exact hruns (.trans ⟨["logs"], by simp [Config.tempWay, Config.logWay]⟩ (List.prefix_append _ _))
    · exact hruns (List.prefix_append _ _)
    · exact himages (List.prefix_append _ _)
  · rcases hspared.folders asked id with
      hsame | ⟨(hlogs | ⟨passed, -, ⟨rest, hrest⟩, rfl⟩) | hway, hfolder⟩
    · exact hsame
    · exact absurd hlogs.inside hruns
    · have habove : files.folderAt (root ++ passed) = true := by
        rw [← hrest, ← List.append_assoc] at hthere
        by_cases hnil : rest = []
        · rwa [hnil, List.append_nil] at hthere
        · exact hground.isRooted.above hnil (get?_ne_none.2 (.inr hthere))
      rw [hfolder, habove]
    · exact absurd hway.inside hruns

include hlaid

/-- Whether a preview is needed is not changed by steps for others. -/
theorem outdated_spared : press.outdated files' t = press.outdated files t := by
  have hworkplace := (reachable_spared hground hspared).toIsWorkplace
  rw [Bool.eq_iff_iff, outdated, outdated, List.any_eq_true, List.any_eq_true]
  refine exists_congr fun spec => and_congr_right fun hspec => ?_
  have hnone := hground.spots spec hspec
  have hget : files'.get? (spot root t spec) = files.get? (spot root t spec) := by
    rw [get?_of_not_folderAt ((folderAt_spot hspared).trans hnone), get?_of_not_folderAt hnone,
      leaf?_spot hspared hspec]
  rw [stat_thumbnail hworkplace hlaid hspec, stat_thumbnail hground.toIsWorkplace hlaid hspec, hget]
  split
  · rfl
  · cases himage : files.get? (spot root t spec) with
    | none => rfl
    | some image =>
      have hthere : files.folderAt (root ++ Config.thumbnailWay) = true :=
        hground.isRooted.parent _ (spec.fileName t.stem) (Option.ne_none_iff_exists'.2 ⟨image, himage⟩)
      rw [stat_source hground hspared hthere]

/-- What a step comes to is not changed by steps for others. -/
theorem foretold_spared :
    (press.foretold rules base root files' t).1 = (press.foretold rules base root files t).1 ∧
      ∀ spec ∈ resolutions, (press.foretold rules base root files' t).2 spec =
        (press.foretold rules base root files t).2 spec := by
  have hshown : ∀ spec ∈ resolutions, shownIn base root files' t spec = shownIn base root files t spec :=
    fun spec hspec => shownIn_congr (leaf?_spot hspared hspec)
  rw [foretold, foretold, outdated_spared hground hlaid hspared, told_spared hspared]
  cases press.outdated files t with
  | false =>
    rw [cond_false, cond_false]
    dsimp only
    exact ⟨rfl, hshown⟩
  | true =>
    rw [cond_true, cond_true]
    rcases press.told rules base root files t with e | ⟨artifacts, pictures⟩ <;> dsimp only
    · exact ⟨rfl, hshown⟩
    · exact ⟨rfl, fun _ _ => rfl⟩

end Spared

/-! ### Batches -/

/-- The outcomes of a batch and the thumbnails after it are told for each template by itself, as long
as only steps for other templates have been made. The induction is on the steps. -/
theorem generateAll_foretold (hlaid : press.IsLaidOut base) (hgoes : press.GoesBy rules)
    (hground : ∀ t ∈ order, files.IsGround base root t)
    (hstems : (order.map Template.stem).Nodup) (hspared : ∀ t ∈ order, Spared root t files s.files)
    (hdraws : EachDrawsAnew press order s) :
    (generateAll press order s).1.map (fun done => (done.1, done.2.anonymous)) =
        order.map (fun t => (t.id, (press.foretold rules base root files t).1)) ∧
      ∀ t ∈ order, ∀ spec ∈ resolutions,
        shownIn base root (generateAll press order s).2.files t spec =
          (press.foretold rules base root files t).2 spec := by
  induction order generalizing s with
  | nil => exact ⟨rfl, nofun⟩
  | cons t rest ih =>
    obtain ⟨hfirst, hground⟩ := List.forall_mem_cons.1 hground
    obtain ⟨hnew, hstems⟩ := List.nodup_cons.1 hstems
    obtain ⟨hbefore, hspared⟩ := List.forall_mem_cons.1 hspared
    obtain ⟨hdraw, hdraws⟩ := hdraws
    have hothers : ∀ u ∈ rest, t.stem ≠ u.stem := fun u hu heq =>
      hnew (heq ▸ List.mem_map_of_mem hu)
    have hplace := reachable_spared hfirst hbefore
    obtain ⟨houtcome, hshown⟩ := generateOne_foretold hplace.toIsWorkplace hplace.reached
      (fun spec hspec => (folderAt_spot hbefore).trans (hfirst.spots spec hspec)) hlaid hgoes hdraw
    obtain ⟨hsame, hsameShown⟩ :
        (press.foretold rules base root s.files t).1 = (press.foretold rules base root files t).1 ∧
          ∀ spec ∈ resolutions, (press.foretold rules base root s.files t).2 spec =
            (press.foretold rules base root files t).2 spec :=
      foretold_spared hfirst hlaid hbefore
    have hstep : ∀ u ∈ rest, Spared root u s.files (generateOne press t s).2.files := fun u hu =>
      generateOne_spares hplace hlaid hgoes hdraw (hothers u hu)
    have hmade : (generateOne press t s).2.files.IsReachable base root :=
      hplace.of_spares (generateOne_changes hplace hlaid hgoes hdraw).toSpares
    have hafter := @ih (generateOne press t s).2 hground hstems
      (fun u hu => (hspared u hu).trans (hstep u hu)) hdraws
    have hkept : Spared root t (generateOne press t s).2.files
        (generateAll press rest (generateOne press t s).2).2.files :=
      generateAll_spares hmade hlaid hgoes hdraws fun u hu => (hothers u hu).symm
    rw [generateAll_cons_apply]
    refine ⟨?_, List.forall_mem_cons.2 ⟨fun spec hspec => ?_, hafter.2⟩⟩
    · rw [List.map_cons, List.map_cons, hafter.1, houtcome, hsame]
    · rw [shownIn_congr (leaf?_spot hkept hspec), hshown spec hspec, hsameShown spec hspec]

end Batch

/-! ### A batch of two -/

/-- Whether every run of a batch draws new names, by what the trees list. -/
def Batch.eachDrawsNew (press : Press σ) : List Template → Surroundings σ → Bool
  | [], _ => true
  | t :: rest, s =>
    press.drawsNew t (press.validate t s).2 &&
      (match (Workspace.create press.config.temp t.stem (press.validate t s).2).1 with
        | .ok w => w.token.utf8ByteSize == 48
        | .error _ => false) &&
      eachDrawsNew press rest (generateOne press t s).2

theorem Batch.EachDrawsAnew.of_eachDrawsNew {press : Press σ} {order : List Template}
    {s : Surroundings σ} (hids : ∀ t ∈ order, t.id ≠ "") (h : eachDrawsNew press order s = true) :
    EachDrawsAnew press order s := by
  induction order generalizing s with
  | nil => trivial
  | cons t rest ih =>
    rw [eachDrawsNew, Bool.and_eq_true, Bool.and_eq_true] at h
    obtain ⟨⟨hnew, hsize⟩, hrest⟩ := h
    obtain ⟨hid, hids⟩ := List.forall_mem_cons.1 hids
    refine ⟨⟨fun path heq => ?_, fun w opened hcreate => ?_, ?_, fun hnone => absurd hnone hid⟩,
      ih hids hrest⟩
    · rw [heq] at hsize
      cases hsize
    · rw [hcreate] at hsize
      exact beq_iff_eq.1 hsize
    · intro w opened hcreate above name hfolder hmentioned
      rw [drawsNew, hcreate] at hnew
      obtain ⟨node, hget, -⟩ := folderAt_eq_true.1 hfolder
      have hmem := mem_nodes_of_get? (by simp) hget
      have hnot := List.all_eq_true.1 (Bool.and_eq_true_iff.1 hnew).1 _ hmem
      simp [hmentioned] at hnot

/-- A document is the source. -/
theorem Compiler.verbatim_goesBy : (verbatim : Compiler σ).GoesBy fun _ bytes => .ok bytes where
  staysIn := verbatim_staysIn
  answers engine w folder bytes s hs hread := by
    have hsource : Path.IsProper "preview.tex" := ⟨⟨by decide, by decide, by decide⟩, by decide⟩
    have hdocument : Path.IsProper "preview.pdf" := ⟨⟨by decide, by decide, by decide⟩, by decide⟩
    have hfits : w.folder.overlong "preview.pdf" = false := by
      rw [Path.overlong_congr hdocument.noSlash hsource.noSlash (by decide), Bool.eq_false_iff]
      intro hlong
      have hlocate := hs.locate_file hsource true
      rw [hlong, if_pos rfl] at hlocate
      obtain ⟨place, modified, hfound, -⟩ := read_eq_ok.1 hread
      rw [Workspace.source, Workspace.file, hlocate] at hfound
      cases hfound
    rw [verbatim, Act.bind_apply, Act.copy_apply, copy_of_read hread]
    rcases hs.write_cases hdocument s.now bytes with ⟨hlong, -⟩ | ⟨-, files, hwrite, hfiles, hwritten⟩
    · rw [hfits] at hlong
      cases hlong
    · rw [hwrite]
      exact ⟨hfiles, ⟨"preview", by decide, rfl⟩, bytes, rfl, hwritten⟩

/-- An empty image can be written unless its name is too long. -/
theorem Workspace.image_written {w : Workspace} {folder : Place} {stem : String} {files : Tree}
    (hfiles : files.HoldsFiles w.folder folder) (hname : Path.IsProper (stem ++ ".png"))
    (hdot : '.' ∉ stem.toList) (hvacant : stem = "" → ∃ place, files.IsVacant (w.image "") place)
    (now : Instant) :
    (¬(stem = "" ∨ (!w.folder.overlong (stem ++ ".png")) = true) ∧
      ∃ e, files.write now (w.image stem) .empty = .error e) ∨
    ((stem = "" ∨ (!w.folder.overlong (stem ++ ".png")) = true) ∧
      ∃ files', files.write now (w.image stem) .empty = .ok files' ∧
        files'.read (w.image stem) = .ok .empty) := by
  by_cases hstem : stem = ""
  · obtain ⟨place, hlocate, hget⟩ := hvacant hstem
    obtain ⟨files', hwrite⟩ := write_isOk now .empty hlocate (get?_eq_none.1 hget).2
    rw [← hstem] at hwrite
    exact .inr ⟨.inl hstem, files', hwrite, read_write hwrite⟩
  · have hslash : '/' ∉ stem.toList := fun hmem => hname.noSlash (by simp [hmem])
    rw [w.image_of_stem (mt String.toList_eq_nil_iff.1 hstem) hslash hdot]
    rcases hfiles.write_cases hname now .empty with ⟨hlong, hwrite⟩ | ⟨hshort, files', hwrite, -, hread⟩
    · exact .inl ⟨by simp [hstem, hlong], _, hwrite⟩
    · exact .inr ⟨.inr (by rw [hshort]; rfl), files', hwrite, hread⟩

/-- An image is empty, whatever the document. -/
theorem Rasterizer.blank_goesBy : (blank : Rasterizer σ).GoesBy fun _ _ stem fits =>
    if stem = "" ∨ fits = true then .ok .empty else .error (.missing ⟨""⟩) where
  writesImage := blank_writesImage
  answers document spec w folder stem bytes s hs _ hname hdot hvacant := by
    have hcases := Workspace.image_written hs hname hdot hvacant s.now
    rw [blank, show (w.file stem).withExtension "png" = w.image stem from rfl, Act.bind_apply,
      Act.write_apply]
    generalize s.files.write s.now (w.image stem) .empty = written at hcases ⊢
    generalize w.image stem = image at hcases ⊢
    rcases hcases with ⟨hnot, e, rfl⟩ | ⟨hfits, files, rfl, hread⟩
    · exact if_neg hnot
    · exact ⟨rfl, .empty, if_pos hfits, hread⟩

/-- A press below a folder. -/
def Press.rooted : Press Unit :=
  .ofParts (Config.rootedAt ⟨"/run"⟩) (.ofTemplates [] ⟨[]⟩)
    ⟨fun _ => return .answered .absent, fun _ => return .answered .absent⟩ .verbatim .blank

theorem Press.isLaidOut_rooted : Press.rooted.IsLaidOut ⟨"/run"⟩ :=
  isLaidOut_ofParts ..

theorem Press.rooted_goesBy : Press.rooted.GoesBy
    ⟨fun _ _ => .answered .absent, fun _ bytes => .ok bytes,
      fun _ _ stem fits =>
        if stem = "" ∨ fits = true then .ok .empty else .error (.missing ⟨""⟩)⟩ where
  probe kind name s := by cases kind <;> rfl
  probeLooks kind name s := by cases kind <;> rfl
  compiler := Compiler.verbatim_goesBy
  rasterizer := Rasterizer.blank_goesBy
  untimed := rfl

/-- The folder of that press, with the source of a template and thumbnails that are newer. -/
def Surroundings.shown : Surroundings Unit :=
  { written with
    files := ⟨[(["run"], ⟨.folder, 0⟩), (["run", "cv.tex"], ⟨.file .empty, 3⟩),
      (["run", "public"], ⟨.folder, 0⟩), (["run", "public", "templates"], ⟨.folder, 0⟩),
      (["run", "public", "templates", "thumbnails"], ⟨.folder, 0⟩),
      (["run", "public", "templates", "thumbnails", "cv.png"], ⟨.file .empty, 4⟩),
      (["run", "public", "templates", "thumbnails", "cv@2x.png"], ⟨.file .empty, 4⟩)], []⟩ }

theorem Surroundings.link?_shown (place : Place) : shown.files.link? place = none :=
  link?_of_nodes (by decide) place

theorem Surroundings.isWorkplace_shown : shown.files.IsWorkplace ⟨"/run"⟩ ["run"] :=
  IsSite.isWorkplace
    { isRooted := .of_nodes (by decide) (by decide)
      locate := by decide +kernel
      isFolder := by decide
      link? := fun _ _ _ _ => link?_shown _
      inside := fun _ _ _ => link?_shown _ }

theorem Surroundings.isReachable_shown : shown.files.IsReachable ⟨"/run"⟩ ["run"] where
  toIsWorkplace := isWorkplace_shown
  reached := by decide +kernel

theorem Surroundings.isGround_written : shown.files.IsGround ⟨"/run"⟩ ["run"] .written where
  toIsReachable := isReachable_shown
  spots := by decide +kernel
  source place hasked := by
    have hsteps : Template.written.path.steps = [.here, .name "run", .name "cv.tex"] := by
      decide +kernel
    rw [AsksFor, hsteps] at hasked
    cases hasked with
    | here hasked =>
      cases hasked with
      | name => decide +kernel
      | jump hlink =>
        rw [link?_shown] at hlink
        cases hlink
      | down _ hasked =>
        cases hasked with
        | name => decide +kernel
        | down _ hasked => cases hasked
        | jump hlink =>
          rw [link?_shown] at hlink
          cases hlink
  isFile place hplace := by
    have hlocate : shown.files.locate true Template.written.path = .ok ["run", "cv.tex"] := by
      decide +kernel
    obtain rfl := Except.ok.inj (hlocate.symm.trans hplace)
    decide

theorem Surroundings.isGround_bare : shown.files.IsGround ⟨"/run"⟩ ["run"] (.bare "cw") where
  toIsReachable := isReachable_shown
  spots := by decide +kernel
  source place hasked := by
    have hsteps : (Template.bare "cw").path.steps = [.here] := by decide +kernel
    rw [AsksFor, hsteps] at hasked
    cases hasked with
    | here hasked => cases hasked
  isFile place hplace := by
    have hlocate : (shown.files.locate true (Template.bare "cw").path).isOk = false := by
      decide +kernel
    rw [hplace] at hlocate
    cases hlocate

/-- What a batch of two makes of them, in the order that is given. -/
def Batch.ofTwo (order : List Template) : List (String × Outcome) × Surroundings Unit :=
  generateAll Press.rooted order .shown

end ResumePress
