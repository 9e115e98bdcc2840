import Mathlib.Data.List.Infix
import ResumePress.Batch
import ResumePress.Proofs.Clock
import ResumePress.Proofs.Files.Folders
import ResumePress.Proofs.Renewal
import ResumePress.Proofs.Thumbnails

/-!
Thumbnails that stay. What a preview does to the thumbnails of any template is to replace them by
newer ones or to leave them, whether it succeeds or not. So once a batch has made the thumbnails of a
template, no later batch makes them again until the source of the template changes.
-/

namespace ResumePress

open Files Files.Tree

variable {σ : Type}

namespace Press

variable {press : Press σ} {t : Template} {w : Workspace} {s opened prepared published : Surroundings σ}
  {folder : Place} {altered touched : Place → Prop} {time : Instant}

/-! ### The end of a run -/

/-- The end of a run takes away its folder at most. -/
theorem close_outside (hopen : w.IsOpen folder opened.files)
    (hs : Spares (Below folder) altered opened.files prepared.files)
    (hedits : Edits touched prepared.files published.files) :
    (w.close published).2.files.IsRooted ∧
      (w.close published).2.files.home = prepared.files.home ∧
      ∀ place, ¬folder <+: place →
        (w.close published).2.files.leaf? place = published.files.leaf? place ∧
        (w.close published).2.files.folderAt place = prepared.files.folderAt place := by
  have hroot := hedits.isRooted (hs.isRooted hopen.isRooted)
  rcases w.close_cases hroot with hsame | ⟨gone, hgone, hdrops⟩
  · rw [hsame, hedits.folderAt]
    exact ⟨hroot, hedits.home, fun _ _ => ⟨rfl, rfl⟩⟩
  · obtain rfl : gone = folder :=
      Except.ok.inj ((hedits.locate hgone).symm.trans (hopen.locate_of_spares hs false))
    have hhome : ¬gone <+: published.files.home := by
      rw [hedits.home, hs.home]
      exact hopen.not_prefix_home
    refine ⟨hdrops.isRooted hroot hhome, hdrops.home.trans hedits.home, fun place hplace => ?_⟩
    rw [hdrops.leaf, hdrops.folderAt, if_neg hplace, if_neg hplace, hedits.folderAt]
    exact ⟨rfl, rfl⟩

/-- Neither the path of the thumbnails nor a link mentions the name of a folder. -/
def NeverNames (press : Press σ) (t : Tree) (folder : Place) : Prop :=
  ∀ above name, folder = above ++ [name] → .name name ∉ press.config.thumbnails.steps ∧
    ∀ place target, t.link? place = some target → .name name ∉ target.steps

/-- What a run of a template draws at random is new: nothing has its token in the name, and no way to
the thumbnails names its folder. Nor is any of its thumbnails a link to a folder when they are put in
place. -/
structure IsClear (press : Press σ) (t : Template) (s : Surroundings σ) : Prop where
  token : ∀ w opened, Workspace.create press.config.temp t.stem s = (.ok w, opened) →
    ¬s.files.Mentions w.token
  folder : ∀ w opened, Workspace.create press.config.temp t.stem s = (.ok w, opened) →
    ∀ folder, opened.files.locate false w.folder = .ok folder → press.NeverNames s.files folder
  target : ∀ w opened, Workspace.create press.config.temp t.stem s = (.ok w, opened) →
    ∀ document placements prepared, press.prepare t w opened = (.ok (document, placements), prepared) →
      ∀ spec ∈ resolutions, ∀ place,
        prepared.files.locate false (press.thumbnail t.stem spec) = .ok place →
          ¬prepared.files.LinksToFolder place

/-- A file that no link to a folder stands in the way of is found after the run where it was. -/
theorem close_hasFileSince (hopen : w.IsOpen folder opened.files)
    (hs : Spares (Below folder) altered opened.files prepared.files)
    (hedits : Edits touched prepared.files published.files)
    (htouched : ∀ place, touched place → ¬prepared.files.LinksToFolder place)
    (hnames : press.NeverNames opened.files folder)
    {file : String} (hfile : Path.IsPlain file) {place : Place}
    (hlocate : prepared.files.locate false (press.config.thumbnails.join file) = .ok place)
    (hthere : published.files.HasFileSince time place) :
    (w.close published).2.files.locate false (press.config.thumbnails.join file) = .ok place ∧
      (w.close published).2.files.HasFileSince time place := by
  obtain ⟨above, name, hfolder⟩ := (List.eq_nil_or_concat folder).resolve_left hopen.notRoot
  rw [List.concat_eq_append] at hfolder
  obtain ⟨hsteps, hlinks⟩ := hnames above name hfolder
  obtain ⟨-, hhome, houtside⟩ := close_outside hopen hs hedits
  have hstart : ¬folder <+: prepared.files.home := hs.home ▸ hopen.not_prefix_home
  have hfolders : ∀ other, ¬above ++ [name] <+: other → prepared.files.folderAt other = true →
      (w.close published).2.files.folderAt other = true :=
    fun other hother hthere => by rw [(houtside other (hfolder ▸ hother)).2, hthere]
  have hlinksKept : ∀ other, ¬above ++ [name] <+: other → prepared.files.LinksToFolder other →
      (w.close published).2.files.link? other = prepared.files.link? other := by
    intro other hother hto
    rw [Tree.link?, (houtside other (hfolder ▸ hother)).1,
      hedits.leaf other fun htouch => htouched other htouch hto]
    rfl
  obtain ⟨hfound, hnot⟩ := locate_kept (hs.isRooted hopen.isRooted) hfile hlocate hsteps
    (fun other target hlink => hlinks other target (hs.link other target hlink)) hhome
    (hfolder ▸ hstart) hfolders hlinksKept
  rw [← hfolder] at hnot
  have hplace : ¬folder <+: place := by
    intro hinside
    rcases List.eq_nil_or_concat place with hnil | ⟨before, last, hplace⟩
    · exact hopen.notRoot (List.prefix_nil.1 (hnil ▸ hinside))
    · rw [List.concat_eq_append] at hplace
      rw [hplace, List.dropLast_concat] at hnot
      rcases List.prefix_concat_iff.1 (hplace ▸ hinside) with heq | hbefore
      · have hisFolder := hopen.isFolder_of_spares hs
        obtain ⟨bytes, modified, hleaf, -⟩ := hthere
        rw [heq, ← hplace, ← hedits.folderAt, folderAt_of_leaf? hleaf] at hisFolder
        cases hisFolder
      · exact hnot hbefore
  obtain ⟨bytes, modified, hleaf, htime⟩ := hthere
  exact ⟨hfound, bytes, modified, (houtside place hplace).1.trans hleaf, htime⟩

/-! ### What a preview leaves of the thumbnails -/

/-- Files that are no older than a time stand where the images of a stem are published. -/
def Shows (press : Press σ) (stem : String) (time : Instant) (t : Tree) : Prop :=
  ∀ spec ∈ resolutions, ∃ place,
    t.locate false (press.thumbnail stem spec) = .ok place ∧ t.HasFileSince time place

/-- The places where the images of a template are staged, by their names. -/
def IsStaging (t : Template) (token : String) (place : Place) : Prop :=
  ∃ spec ∈ resolutions, Named (stagingName (spec.fileName t.stem) token) place

theorem not_isStaging (t u : Template) (token : String) {spec : RasterSpec} {place : Place}
    (hplace : Named (spec.fileName u.stem) place) : ¬IsStaging t token place := by
  rintro ⟨spec', -, hstaging⟩
  exact not_isOwn_fileName u.stem spec (hstaging.unique hplace ▸ isOwn_stagingName _ token)

variable {u : Template}

theorem Shows.of_spares {region : Place → Prop} {files files' : Tree}
    (h : press.Shows u.stem time files) (hs : Spares region altered files files')
    (hempty : ∀ place, region place → files.get? place = none)
    (haltered : ∀ spec ∈ resolutions, ∀ place, Named (spec.fileName u.stem) place →
      ¬altered place) : press.Shows u.stem time files' := by
  intro spec hspec
  obtain ⟨place, hlocate, bytes, modified, hleaf, htime⟩ := h spec hspec
  have hnot : ¬region place := fun hregion => by
    rw [(get?_eq_none.1 (hempty place hregion)).1] at hleaf
    cases hleaf
  have hnamed : Named (spec.fileName u.stem) place :=
    name_of_locate_join (isPlain_fileName u hspec) (.inl rfl) hlocate
  exact ⟨place, hs.locate hempty hlocate hnot, bytes, modified,
    (hs.leaf place hnot (haltered spec hspec place hnamed)).trans hleaf, htime⟩

/-- When a run of a template has been prepared, the thumbnails of all are shown as before. -/
theorem Shows.of_prepared (h : press.Shows u.stem time s.files)
    (hgrown : Grown s.files opened.files) (hopen : w.IsOpen folder opened.files)
    (hs : Spares (Below folder) (Named (logName t.stem w)) opened.files prepared.files) :
    press.Shows u.stem time prepared.files := by
  have hopened : press.Shows u.stem time opened.files :=
    h.of_spares (hgrown.spares : Spares (fun _ => False) (fun _ => False) _ _) nofun (by simp)
  refine hopened.of_spares hs hopen.empty fun spec hspec place hplace hlog => ?_
  exact not_isOwn_fileName u.stem spec (hlog.unique hplace ▸ isOwn_logName t.stem w)

/-- What has been published is shown when the run has ended. -/
theorem shows_of_closed (hopen : w.IsOpen folder opened.files)
    (hs : Spares (Below folder) altered opened.files prepared.files)
    (hedits : Edits touched prepared.files published.files)
    (htouched : ∀ place, touched place → ¬prepared.files.LinksToFolder place)
    (hnames : press.NeverNames opened.files folder)
    (h : ∀ spec ∈ resolutions, ∃ place,
      prepared.files.locate false (press.thumbnail u.stem spec) = .ok place ∧
        published.files.HasFileSince time place) :
    press.Shows u.stem time (w.close published).2.files := by
  intro spec hspec
  obtain ⟨place, hlocate, hfile⟩ := h spec hspec
  exact ⟨place, close_hasFileSince hopen hs hedits htouched hnames (isPlain_fileName u hspec) hlocate
    hfile⟩

/-- Images that have been put in place are shown, and others still are. -/
theorem Shows.of_renews (h : press.Shows u.stem time prepared.files)
    (hrenews : Renews time (IsStaging t w.token) prepared.files published.files) :
    ∀ spec ∈ resolutions, ∃ place,
      prepared.files.locate false (press.thumbnail u.stem spec) = .ok place ∧
        published.files.HasFileSince time place := by
  intro spec hspec
  obtain ⟨place, hlocate, hfile⟩ := h spec hspec
  have hnamed : Named (spec.fileName u.stem) place :=
    name_of_locate_join (isPlain_fileName u hspec) (.inl rfl) hlocate
  exact ⟨place, hlocate, hrenews.hasFileSince (not_isStaging t u w.token hnamed) hfile⟩

/-- The places that a publication can touch: where its paths lead. -/
def Touches (placements : List Placement) (token : String) (t : Tree) (place : Place) : Prop :=
  ∃ p ∈ placements,
    t.locate false (staging p.target token) = .ok place ∨ t.locate false p.target = .ok place

/-- A publication and the end of its run leave the thumbnails of all templates or renew them, and if
the publication succeeds those of the template are new. -/
theorem publish_shows (hopen : w.IsOpen folder opened.files)
    (hs : Spares (Below folder) (fun _ => False) opened.files prepared.files)
    (hnames : press.NeverNames opened.files folder)
    (htoken : '/' ∉ w.token.toList) (hfresh : ¬opened.files.Mentions w.token)
    {placements : List Placement}
    (htargets : placements.map Placement.target = resolutions.map (press.thumbnail t.stem))
    (hclear : ∀ spec ∈ resolutions, ∀ place,
      prepared.files.locate false (press.thumbnail t.stem spec) = .ok place →
        ¬prepared.files.LinksToFolder place)
    (htime : time ≤ prepared.now) :
    let published := (publish placements w.token prepared).2
    (w.close published).2.files.IsRooted ∧
      (∀ u : Template, press.Shows u.stem time prepared.files →
        press.Shows u.stem time (w.close published).2.files) ∧
      ((publish placements w.token prepared).1 = .ok () →
        press.Shows t.stem time (w.close published).2.files) := by
  intro published
  have hroot := hs.isRooted hopen.isRooted
  obtain ⟨hfree, hdistinct⟩ := staged_freely hs htoken hfresh htargets
  have htarget : ∀ p ∈ placements, ∃ spec ∈ resolutions, press.thumbnail t.stem spec = p.target :=
    fun p hp => List.mem_map.1 (htargets ▸ List.mem_map_of_mem hp)
  have hleads : ∀ p ∈ placements,
      p.LeadsInto w.token (Touches placements w.token prepared.files) prepared.files :=
    fun p hp => ⟨fun place hplace => ⟨p, hp, .inl hplace⟩,
      fun place hplace => ((hfree p hp).1 place hplace).1, fun place hplace => ⟨p, hp, .inr hplace⟩⟩
  have hpasses : ∀ p ∈ placements, p.Passes w.token (IsStaging t w.token) prepared.files := by
    intro p hp
    obtain ⟨hnoLink, spec, hspec, hstaging⟩ := hfree p hp
    obtain ⟨spec', hspec', heq⟩ := htarget p hp
    refine ⟨fun place hplace => ⟨spec, hspec, hstaging place hplace⟩,
      fun place hplace => (hnoLink place hplace).1, fun place hplace => ?_⟩
    rw [← heq] at hplace
    exact not_isStaging t t w.token
      (name_of_locate_join (isPlain_fileName t hspec') (.inl rfl) hplace)
  have hedits : Edits (Touches placements w.token prepared.files) prepared.files published.files :=
    publish_keeps hroot hleads prepared (.refl _ _)
  have htouched : ∀ place, Touches placements w.token prepared.files place →
      ¬prepared.files.LinksToFolder place := by
    rintro place ⟨p, hp, hstaging | hplace⟩
    · rintro ⟨target, folder, hlink, -⟩
      rw [(hleads p hp).noLink place hstaging] at hlink
      cases hlink
    · obtain ⟨spec, hspec, heq⟩ := htarget p hp
      exact hclear spec hspec place (heq ▸ hplace)
  obtain ⟨hrenews, hdone⟩ := publish_renews hroot hpasses hdistinct
  refine ⟨(close_outside hopen hs hedits).1, fun u hu => ?_, fun hok => ?_⟩
  · exact shows_of_closed hopen hs hedits htouched hnames (hu.of_renews (hrenews.earlier htime))
  · refine shows_of_closed hopen hs hedits htouched hnames fun spec hspec => ?_
    have hmem : press.thumbnail t.stem spec ∈ placements.map Placement.target :=
      htargets ▸ List.mem_map_of_mem hspec
    obtain ⟨p, hp, heq⟩ := List.mem_map.1 hmem
    obtain ⟨place, hplace, hfile⟩ := hdone hok p hp
    exact ⟨place, heq ▸ hplace, hfile.mono htime⟩

/-- A preview replaces thumbnails by newer ones or leaves them, whether it succeeds or not, and if it
succeeds its own are new. -/
theorem compilePreview_shows (hroot : s.files.IsRooted)
    (hcompiler : press.compiler.compiler.StaysIn) (hrasterizer : press.rasterizer.StaysIn)
    (hinTime : press.InTime) (hclear : press.IsClear t s) (htime : time ≤ s.now) :
    (press.compilePreview t s).2.files.IsRooted ∧
      (∀ u : Template, press.Shows u.stem time s.files →
        press.Shows u.stem time (press.compilePreview t s).2.files) ∧
      ((press.compilePreview t s).1.isOk = true →
        press.Shows t.stem time (press.compilePreview t s).2.files) := by
  rw [compilePreview, inWorkspace_apply]
  have hgrown := Workspace.create_grown hroot press.config.temp t.stem
  have hopenedTime := Workspace.create_forward press.config.temp t.stem s
  rcases hcreate : Workspace.create press.config.temp t.stem s with ⟨cause | w, opened⟩ <;>
    rw [hcreate] at hgrown hopenedTime
  · refine ⟨hgrown.isRooted hroot, fun u hu => ?_, fun hok => absurd hok Bool.false_ne_true⟩
    exact hu.of_spares (hgrown.spares : Spares (fun _ => False) (fun _ => False) _ _)
      (fun _ => False.elim) (by simp)
  · obtain ⟨folder, hopen⟩ := Workspace.create_opened hroot hcreate
    have htoken := Workspace.create_token hcreate
    have hnone : ¬opened.files.Mentions w.token := by
      unfold Mentions
      rw [hgrown.leaf]
      exact hclear.token w opened hcreate
    have hnames : press.NeverNames opened.files folder := by
      unfold NeverNames
      rw [hgrown.link?]
      exact hclear.folder w opened hcreate folder hopen.locate
    have hprepared := prepare_spares (t := t) hopen hcompiler hrasterizer htoken hnone (.refl _ _ _)
    have hpreparedTime := prepare_forward hinTime t w opened
    dsimp only
    rw [previewIn_apply]
    rcases hprepare : press.prepare t w opened with ⟨cause | ⟨document, placements⟩, prepared⟩ <;>
      rw [hprepare] at hprepared hpreparedTime
    · have hedits : Edits (fun _ => False) prepared.files prepared.files := .refl _ _
      refine ⟨(close_outside hopen hprepared hedits).1, fun u hu => ?_,
        fun hok => absurd hok Bool.false_ne_true⟩
      exact shows_of_closed hopen hprepared hedits (fun _ => False.elim) hnames
        (hu.of_prepared hgrown hopen hprepared)
    · obtain ⟨hs, htargets⟩ := hprepared
      obtain ⟨hended, hothers, hown⟩ := publish_shows hopen hs hnames htoken hnone htargets
        (hclear.target w opened hcreate document placements prepared hprepare)
        (Nat.le_trans htime (Nat.le_trans hopenedTime hpreparedTime))
      have hshown : ∀ u : Template, press.Shows u.stem time s.files →
          press.Shows u.stem time prepared.files :=
        fun u hu => hu.of_prepared (t := t) hgrown hopen (hs.mono fun _ => False.elim)
      dsimp only
      rcases hdone : publish placements w.token prepared with ⟨cause | _, published⟩ <;>
        rw [hdone] at hended hothers hown
      · exact ⟨hended, fun u hu => hothers u (hshown u hu), fun hok => absurd hok Bool.false_ne_true⟩
      · exact ⟨hended, fun u hu => hothers u (hshown u hu), fun _ => hown rfl⟩

/-! ### Whether a preview is needed -/

theorem isOutdated_apply (press : Press σ) (stem : String) (source : Option Instant)
    (spec : RasterSpec) (s : Surroundings σ) : press.isOutdated stem source spec s =
      (match (s.files.stat (press.thumbnail stem spec)).toOption with
        | none => true
        | some image => source.any fun source => image.modified < source, s) := by
  simp only [isOutdated, Act.modified?, Act.stat, Act.bind_apply, Act.look_apply, Act.pure_apply]
  cases (s.files.stat (press.thumbnail stem spec)).toOption <;> rfl

theorem needsRefresh_apply (press : Press σ) (t : Template) (s : Surroundings σ) :
    press.needsRefresh t s =
      ((press.isOutdated t.stem (Act.modified? t.path s).1 .standard s).1 ||
        (press.isOutdated t.stem (Act.modified? t.path s).1 .doubleDensity s).1, s) := by
  have hlooks : ∀ source spec, press.isOutdated t.stem source spec s =
      ((press.isOutdated t.stem source spec s).1, s) := fun source spec => by rw [isOutdated_apply]
  rw [needsRefresh, Act.bind_apply, Act.bind_apply, show (Act.modified? t.path s).2 = s from rfl,
    hlooks _ .standard]
  cases (press.isOutdated t.stem (Act.modified? t.path s).1 .standard s).1 with
  | true => rfl
  | false => exact hlooks _ .doubleDensity

/-- A template needs no new thumbnails as long as those that are shown are no older than its
source. -/
theorem Shows.needsRefresh (h : press.Shows t.stem time s.files)
    (hsource : ∀ source ∈ (Act.modified? t.path s).1, source ≤ time) :
    press.needsRefresh t s = (false, s) := by
  have hcurrent : ∀ spec ∈ resolutions,
      (press.isOutdated t.stem (Act.modified? t.path s).1 spec s).1 = false := by
    intro spec hspec
    obtain ⟨place, hlocate, bytes, modified, hleaf, htime⟩ := h spec hspec
    have hlink : s.files.link? place = none := by simp [Tree.link?, hleaf, Entry.target?]
    have hfind := find_eq_ok.2 ⟨locate_true_of_false hlocate hlink, (leaf?_eq_some.1 hleaf).1⟩
    rw [isOutdated_apply, stat, hfind]
    simp only [Except.map, Except.toOption, Option.any_eq_false, decide_eq_false_iff_not, not_lt]
    exact fun source hmem => (hsource source hmem).trans htime
  rw [needsRefresh_apply, hcurrent .standard (by simp [resolutions]),
    hcurrent .doubleDensity (by simp [resolutions])]
  rfl

end Press

/-! ### Batches -/

/-- The tools of a press keep to the folders they are given and do not set the clock back, and probes
leave the files alone. -/
structure Press.IsOrderly (press : Press σ) : Prop extends press.InTime where
  probeLooks : ∀ (kind : Validation.Kind) (name : String) (s : Surroundings σ),
    (kind.probe press.toolchain name s).2.files = s.files
  compilerStays : press.compiler.compiler.StaysIn
  rasterizerStays : press.rasterizer.StaysIn

theorem Press.IsOrderly.files_validate {press : Press σ} (h : press.IsOrderly) (t : Template)
    (s : Surroundings σ) : (press.validate t s).2.files = s.files :=
  Validation.validate_closed (Act.Keeps.isClosed fun files => files = s.files)
    (fun kind name s' hs' => (h.probeLooks kind name s').trans hs') t s rfl

/-- The outcome of a preview. -/
def Outcome.ofResult (validationErrors : List String) : Except PressError PreviewArtifacts → Outcome
  | .ok artifacts => .generated artifacts validationErrors
  | .error e => .failed e

namespace Batch

open Press

variable {press : Press σ} {t : Template} {s s' : Surroundings σ} {time : Instant}

theorem generateOne_apply (press : Press σ) (t : Template) (s : Surroundings σ) :
    generateOne press t s =
      bif (press.needsRefresh t (press.validate t s).2).1 then
        (.ofResult (press.validate t s).1.errors (press.compilePreview t (press.validate t s).2).1,
          (press.compilePreview t (press.validate t s).2).2)
      else (.upToDate, (press.validate t s).2) := by
  have hlooks : ∀ s, press.needsRefresh t s = ((press.needsRefresh t s).1, s) :=
    fun s => by rw [needsRefresh_apply]
  unfold generateOne
  generalize press.compilePreview t = compile
  rw [Act.bind_apply, Act.bind_apply, hlooks]
  cases (press.needsRefresh t (press.validate t s).2).1 with
  | false => rfl
  | true =>
    rw [if_neg (by decide), Act.bind_apply, cond_true]
    dsimp only
    rcases compile (press.validate t s).2 with ⟨e | artifacts, made⟩ <;> rfl

/-- A step of a batch keeps what is shown of any template, and shows a template that it has made. -/
theorem generateOne_shows (hroot : s.files.IsRooted) (horderly : press.IsOrderly)
    (hclear : press.IsClear t (press.validate t s).2) (htime : time ≤ s.now) :
    (generateOne press t s).2.files.IsRooted ∧ time ≤ (generateOne press t s).2.now ∧
      (∀ u : Template, press.Shows u.stem time s.files →
        press.Shows u.stem time (generateOne press t s).2.files) ∧
      (∀ artifacts errors, (generateOne press t s).1 = .generated artifacts errors →
        press.Shows t.stem time (generateOne press t s).2.files) := by
  have hfiles := horderly.files_validate t s
  have hvalidated : time ≤ (press.validate t s).2.now :=
    Nat.le_trans htime (validate_forward horderly.toInTime t s)
  rw [generateOne_apply]
  cases (press.needsRefresh t (press.validate t s).2).1 with
  | false =>
    rw [cond_false, hfiles]
    exact ⟨hroot, hvalidated, fun _ => id, nofun⟩
  | true =>
    obtain ⟨hended, hothers, hown⟩ := compilePreview_shows (hfiles ▸ hroot) horderly.compilerStays
      horderly.rasterizerStays horderly.toInTime hclear hvalidated
    have hmade := Nat.le_trans hvalidated
      (compilePreview_forward horderly.toInTime t (press.validate t s).2)
    rw [hfiles] at hothers
    refine ⟨hended, hmade, hothers, fun artifacts errors hdone => hown ?_⟩
    rw [cond_true] at hdone
    dsimp only at hdone
    cases hresult : (press.compilePreview t (press.validate t s).2).1 with
    | ok => rfl
    | error e =>
      rw [hresult] at hdone
      cases hdone

/-- What surroundings can become while a batch goes on: previews of any templates are made, whether
they succeed or not, and in between others change whatever they like but the thumbnails of one
template. -/
inductive Later (press : Press σ) (t : Template) : Surroundings σ → Surroundings σ → Prop
  | refl (s : Surroundings σ) : Later press t s s
  | step {s s' : Surroundings σ} (u : Template) : Later press t s s' →
      press.IsClear u (press.validate u s').2 → Later press t s (generateOne press u s').2
  | meanwhile {s s' s'' : Surroundings σ} : Later press t s s' →
      s''.files.IsRooted → s'.now ≤ s''.now →
      (∀ spec ∈ resolutions, s''.files.find false (press.thumbnail t.stem spec) =
        s'.files.find false (press.thumbnail t.stem spec)) →
      Later press t s s''

/-- The induction is on the steps. -/
theorem Later.shows (h : Later press t s s') (horderly : press.IsOrderly) (hroot : s.files.IsRooted)
    (htime : time ≤ s.now) (hshown : press.Shows t.stem time s.files) :
    s'.files.IsRooted ∧ time ≤ s'.now ∧ press.Shows t.stem time s'.files := by
  induction h with
  | refl => exact ⟨hroot, htime, hshown⟩
  | step u _ hclear ih =>
    obtain ⟨hroot', htime', hshown'⟩ := ih
    obtain ⟨hended, hmade, hothers, -⟩ := generateOne_shows hroot' horderly hclear htime'
    exact ⟨hended, hmade, hothers t hshown'⟩
  | meanwhile _ hroot'' hnow hkept ih =>
    obtain ⟨-, htime', hshown'⟩ := ih
    refine ⟨hroot'', Nat.le_trans htime' hnow, fun spec hspec => ?_⟩
    obtain ⟨place, hlocate, bytes, modified, hleaf, hsince⟩ := hshown' spec hspec
    obtain ⟨hget, hfile⟩ := leaf?_eq_some.1 hleaf
    have hfind := find_eq_ok.1 ((hkept spec hspec).trans (find_eq_ok.2 ⟨hlocate, hget⟩))
    exact ⟨place, hfind.1, bytes, modified, leaf?_eq_some.2 ⟨hfind.2, hfile⟩, hsince⟩

/-- Once a step of a batch has made the thumbnails of a template whose source is not from the future,
any later step for the template finds it up to date, however many previews are made or fail in
between, as long as its source and its thumbnails are left alone. It leaves all files as they are,
and whatever the press compiles and renders with, it does no more than to validate. -/
theorem upToDate_of_generated (horderly : press.IsOrderly) (hroot : s.files.IsRooted)
    (hsource : ∀ time ∈ (Act.modified? t.path s).1, time ≤ s.now)
    (hclear : press.IsClear t (press.validate t s).2) {artifacts : PreviewArtifacts}
    {errors : List String} (hmade : (generateOne press t s).1 = .generated artifacts errors)
    (hlater : Later press t (generateOne press t s).2 s')
    (hkept : (Act.modified? t.path s').1 = (Act.modified? t.path s).1) :
    (generateOne press t s').1 = .upToDate ∧ (generateOne press t s').2.files = s'.files ∧
      ∀ other : Press σ, other.toolchain = press.toolchain → other.config = press.config →
        generateOne other t s' = (.upToDate, (press.validate t s').2) := by
  have htime : (Act.modified? t.path s).1.getD 0 ≤ s.now := by
    cases hmodified : (Act.modified? t.path s).1 with
    | none => exact Nat.zero_le _
    | some time => exact hsource time hmodified
  obtain ⟨hroot₁, htime₁, -, hshown⟩ := generateOne_shows hroot horderly hclear htime
  obtain ⟨-, -, hshown'⟩ := hlater.shows horderly hroot₁ htime₁ (hshown artifacts errors hmade)
  have hfiles := horderly.files_validate t s'
  have hcurrent : ∀ source ∈ (Act.modified? t.path (press.validate t s').2).1,
      source ≤ (Act.modified? t.path s).1.getD 0 := by
    intro source hmem
    have hsame : (Act.modified? t.path (press.validate t s').2).1 = (Act.modified? t.path s').1 := by
      simp only [Act.modified?, Act.stat, Act.bind_apply, Act.look_apply, Act.pure_apply, hfiles]
    rw [hsame, hkept] at hmem
    rw [hmem]
    exact Nat.le_refl _
  have hany : ∀ other : Press σ, other.toolchain = press.toolchain → other.config = press.config →
      generateOne other t s' = (.upToDate, (press.validate t s').2) := by
    intro other htoolchain hconfig
    have hvalidate : other.validate t s' = press.validate t s' := by
      rw [Press.validate, htoolchain, Press.validate]
    have hother : other.Shows t.stem ((Act.modified? t.path s).1.getD 0)
        (press.validate t s').2.files := by
      unfold Shows thumbnail
      rw [hconfig, hfiles]
      exact hshown'
    rw [generateOne_apply, hvalidate, hother.needsRefresh hcurrent]
    rfl
  rw [hany press rfl rfl]
  exact ⟨rfl, hfiles, hany⟩

end Batch

/-! ### A small batch -/

/-- In a tree without links no more is needed than that the names which are drawn are new. -/
theorem Press.IsClear.of_linkless {press : Press σ} {t : Template} {s : Surroundings σ}
    (hroot : s.files.IsRooted) (horderly : press.IsOrderly)
    (hlinks : ∀ place, s.files.link? place = none)
    (hfresh : ∀ w opened, Workspace.create press.config.temp t.stem s = (.ok w, opened) →
      ¬s.files.Mentions w.token ∧ ∀ folder, opened.files.locate false w.folder = .ok folder →
        ∀ name ∈ folder.getLast?, .name name ∉ press.config.thumbnails.steps) :
    press.IsClear t s where
  token w opened hcreate := (hfresh w opened hcreate).1
  folder w opened hcreate folder hlocate above name hfolder := by
    refine ⟨(hfresh w opened hcreate).2 folder hlocate name (by simp [hfolder]), ?_⟩
    intro place target hlink
    rw [hlinks place] at hlink
    cases hlink
  target w opened hcreate document placements prepared hprepare spec _ place _ := by
    rintro ⟨target, folder, hlink, -⟩
    have hgrown := Workspace.create_grown hroot press.config.temp t.stem
    rw [hcreate] at hgrown
    obtain ⟨run, hopen⟩ := Workspace.create_opened hroot hcreate
    have hnone : ¬opened.files.Mentions w.token := by
      unfold Mentions
      rw [hgrown.leaf]
      exact (hfresh w opened hcreate).1
    have hprepared := prepare_spares (t := t) hopen horderly.compilerStays horderly.rasterizerStays
      (Workspace.create_token hcreate) hnone (.refl _ _ _)
    rw [hprepare] at hprepared
    have hthere := hprepared.1.link place target hlink
    rw [hgrown.link?, hlinks place] at hthere
    cases hthere

/-- Whether the names that a run draws are new, by what the tree lists. -/
def Press.drawsNew (press : Press σ) (t : Template) (s : Surroundings σ) : Bool :=
  match Workspace.create press.config.temp t.stem s with
  | (.ok w, opened) =>
    (s.files.nodes.all fun n => n.1.getLast?.all fun name => !decide (w.token.toList <:+: name.toList))
      && match opened.files.locate false w.folder with
        | .ok folder => folder.getLast?.all fun name => !press.config.thumbnails.steps.contains (.name name)
        | .error _ => true
  | (.error _, _) => true

theorem Press.IsClear.of_drawsNew {press : Press σ} {t : Template} {s : Surroundings σ}
    (hroot : s.files.IsRooted) (horderly : press.IsOrderly)
    (hlinks : ∀ n ∈ s.files.nodes, n.2.entry.target? = none) (h : press.drawsNew t s = true) :
    press.IsClear t s := by
  refine .of_linkless hroot horderly (link?_of_nodes hlinks) fun w opened hcreate => ?_
  rw [drawsNew, hcreate] at h
  obtain ⟨htoken, hfolder⟩ := Bool.and_eq_true_iff.1 h
  constructor
  · rintro ⟨folder, name, hleaf, hmentioned⟩
    obtain ⟨node, hnode⟩ := Option.ne_none_iff_exists'.1 hleaf
    have hnot := List.all_eq_true.1 htoken _ (mem_nodes_of_leaf? hnode)
    simp [hmentioned] at hnot
  · intro folder hlocate name hname
    rw [hlocate] at hfolder
    simpa [Option.mem_def.1 hname] using hfolder

/-- A rasterizer that takes the document for the image. -/
def Rasterizer.echo : Rasterizer σ := fun document _ _ => return .ok document

theorem Press.isOrderly_small : (Press.small .echo).IsOrderly where
  probe kind name := by cases kind <;> exact .pure _
  compiler engine source folder := by
    refine .bind (.change _) fun result => ?_
    split <;> exact .pure _
  rasterizer _ _ _ := .pure _
  probeLooks kind name s := by cases kind <;> rfl
  compilerStays := Compiler.verbatim_staysIn
  rasterizerStays _ _ _ _ _ _ _ _ := .refl _ _

/-- A folder with the source of a template. -/
def Surroundings.written : Surroundings Unit :=
  { bare with
    files := ⟨[(["run"], ⟨.folder, 0⟩), (["run", "cv.tex"], ⟨.file .empty, 3⟩)], []⟩
    now := 5 }

/-- A template with a source in that folder. -/
def Template.written : Template :=
  { Template.bare "cv" with path := ⟨"/run/cv.tex"⟩ }

/-- What a batch makes of these. -/
def Surroundings.made : Surroundings Unit :=
  (Batch.generateOne (Press.small .echo) .written .written).2

-- Another template is made in between, and the clock goes on.
theorem upToDate_of_cv :
    (∃ artifacts errors, (Batch.generateOne (Press.small .echo) .written .written).1 =
      .generated artifacts errors) ∧
    let s := (Batch.generateOne (Press.small .echo) (.bare "cw") .made).2
    (Batch.generateOne (Press.small .echo) .written s).1 = .upToDate ∧
      (Batch.generateOne (Press.small .echo) .written s).2.files = s.files := by
  have hroot : Surroundings.written.files.IsRooted := .of_nodes (by decide) (by decide)
  have hmade : (Batch.generateOne (Press.small .echo) .written .written).1 = .generated
      ⟨"cv", ⟨"/p/cv.png"⟩, ⟨"/p/cv@2x.png"⟩, .xelatex, 1⟩
      ["Missing document class declaration", "Missing document environment"] := by
    decide +kernel
  have hvalidate : ∀ s, ((Press.small .echo).validate .written s).2 = s := fun _ => rfl
  have hvalidateOther : ∀ s, ((Press.small .echo).validate (.bare "cw") s).2 = s := fun _ => rfl
  have hclear : (Press.small .echo).IsClear .written
      ((Press.small .echo).validate .written .written).2 := by
    rw [hvalidate]
    exact .of_drawsNew hroot Press.isOrderly_small (by decide +kernel) (by decide +kernel)
  have hrootMade : Surroundings.made.files.IsRooted := by
    unfold Surroundings.made
    have hended := Batch.generateOne_shows hroot Press.isOrderly_small hclear (Nat.zero_le _)
    exact hended.1
  have hclearOther : (Press.small .echo).IsClear (.bare "cw")
      ((Press.small .echo).validate (.bare "cw") .made).2 := by
    rw [hvalidateOther]
    have hnew : (∀ n ∈ Surroundings.made.files.nodes, n.2.entry.target? = none) ∧
        (Press.small .echo).drawsNew (.bare "cw") .made = true := by
      decide +kernel
    exact .of_drawsNew hrootMade Press.isOrderly_small hnew.1 hnew.2
  have hsource : ∀ time ∈ (Act.modified? Template.written.path Surroundings.written).1,
      time ≤ Surroundings.written.now := by
    decide +kernel
  have hkept : (Act.modified? Template.written.path
      (Batch.generateOne (Press.small .echo) (.bare "cw") .made).2).1 =
        (Act.modified? Template.written.path Surroundings.written).1 := by
    decide +kernel
  have hlater := Batch.Later.step (t := .written) (.bare "cw") (.refl _) hclearOther
  rw [Surroundings.made] at hlater hkept ⊢
  obtain ⟨hcurrent, hfiles, -⟩ := Batch.upToDate_of_generated Press.isOrderly_small hroot hsource
    hclear hmade hlater hkept
  exact ⟨⟨_, _, hmade⟩, hcurrent, hfiles⟩

end ResumePress
