import ResumePress.Proofs.Foresight
import ResumePress.Proofs.Refresh
import ResumePress.Proofs.Validation

/-!
Steps of a batch that can be foreseen. With tools that go by the text, the outcome of a step and the
thumbnails after it are told before it starts, by its template and by what stands at a few places.
They do not depend on the time, on the names that are drawn or on what the tools keep.
-/

namespace ResumePress

open Files Files.Tree

variable {σ : Type}

theorem Path.overlong_logName {p : Path} {t : Template} {w w' : Workspace}
    (hw : '/' ∉ w.token.toList) (hw' : '/' ∉ w'.token.toList)
    (hsize : w.token.utf8ByteSize = w'.token.utf8ByteSize) :
    p.overlong (Press.logName t.stem w) = p.overlong (Press.logName t.stem w') := by
  refine overlong_congr (Press.isPlain_logName t hw).noSlash (Press.isPlain_logName t hw').noSlash ?_
  simp only [Press.logName, String.utf8ByteSize_append, hsize]

namespace Press

variable {press : Press σ} {rules : Rules} {t : Template} {w : Workspace} {base : Path} {root : Place}
  {files : Tree} {s : Surroundings σ}

/-! ### The names that are drawn -/

/-- What a run of a template draws at random is new: a name is found for its folder, its token is as
long as tokens are, and no folder has the token in its name. For a template without an id nothing has
the name of its folder as an image would. -/
structure DrawsAnew (press : Press σ) (t : Template) (s : Surroundings σ) : Prop where
  found : ∀ path,
    (Workspace.create press.config.temp t.stem s).1 ≠ .error (.atPath .namesTaken path)
  size : ∀ w opened, Workspace.create press.config.temp t.stem s = (.ok w, opened) →
    w.token.utf8ByteSize = 48
  free : ∀ w opened, Workspace.create press.config.temp t.stem s = (.ok w, opened) →
    ∀ above name, s.files.folderAt (above ++ [name]) = true → ¬w.token.toList <:+: name.toList
  image : t.id = "" → ∀ w opened, Workspace.create press.config.temp t.stem s = (.ok w, opened) →
    ∀ name, w.folder.fileName? = some name → ∀ above, s.files.get? (above ++ [name ++ ".png"]) = none

/-- The folder that comes to be for a run, and those on the way to it, have no token in their names. -/
theorem folderAt_create (hplace : s.files.IsWorkplace base root)
    (htemp : press.config.temp = base.below Config.tempWay) {opened : Surroundings σ}
    (hcreate : Workspace.create press.config.temp t.stem s = (.ok w, opened)) {folder : Place}
    (hopen : w.IsOpen folder opened.files) {place : Place}
    (hthere : opened.files.folderAt place = true) :
    s.files.folderAt place = true ∨ OnWay root Config.tempWay place ∨ place = folder := by
  have hway : s.files.HasWay base root Config.tempWay :=
    hplace.logs.toHasWay.of_prefix (by simp [Config.tempWay, Config.logWay])
  have hmade : Changes (fun _ => False) (fun _ => False) (OnWay root Config.tempWay) s.files
      (s.files.makeFolders s.now (base.below Config.tempWay)).2 :=
    hway.makeFolders_changes (by simp [Config.tempWay]) (by decide) s.now
  have hcreated := Workspace.create_cases hplace.isRooted press.config.temp t.stem
  rw [hcreate, htemp] at hcreated
  obtain ⟨other, hother, hadds⟩ := hcreated
  obtain rfl := Except.ok.inj (hopen.locate.symm.trans hother.locate)
  rw [hadds.folderAt] at hthere
  by_cases hplace : place = folder
  · exact .inr (.inr hplace)
  · rw [Function.update_of_ne hplace] at hthere
    exact (hmade.folders place id).elim (fun hsame => .inl (hsame ▸ hthere)) fun hnew =>
      .inr (.inl hnew.1)

/-- No other folder comes to be past that of runs. -/
theorem not_folderAt_create (hplace : s.files.IsWorkplace base root)
    (htemp : press.config.temp = base.below Config.tempWay) {opened : Surroundings σ}
    (hcreate : Workspace.create press.config.temp t.stem s = (.ok w, opened)) {folder : Place}
    (hopen : w.IsOpen folder opened.files) {names : List String}
    (hlength : Config.tempWay.length < names.length) (hne : root ++ names ≠ folder)
    (hnone : s.files.folderAt (root ++ names) = false) :
    opened.files.folderAt (root ++ names) = false := by
  rw [Bool.eq_false_iff]
  intro hthere
  rcases folderAt_create hplace htemp hcreate hopen hthere with hbefore | ⟨passed, -, hpassed, heq⟩ | heq
  · rw [hnone] at hbefore
    cases hbefore
  · have hle := hpassed.length_le
    rw [List.append_cancel_left heq] at hlength
    omega
  · exact hne heq

/-- A run of a template without an id that draws new names has room for an image beside its folder. -/
theorem leavesRoom_create (hplace : s.files.IsWorkplace base root)
    (hreached : s.files.locate true (s.files.absolute base) = .ok root)
    (htemp : press.config.temp = base.below Config.tempWay) (hdraws : press.DrawsAnew t s)
    (hid : t.id = "") {opened : Surroundings σ}
    (hcreate : Workspace.create press.config.temp t.stem s = (.ok w, opened)) {n : Nat}
    (hfolder : w.folder =
      ((s.files.absolute base).below Config.tempWay).join (Workspace.folderName t n))
    (hopen : w.IsOpen (root ++ Config.tempWay ++ [Workspace.folderName t n]) opened.files) :
    w.LeavesRoom (s.files.absolute base) root (Workspace.folderName t n) opened.files := by
  have hproper := Workspace.isProper_folderName t n
  have hgrown := Workspace.create_grown hplace.isRooted press.config.temp t.stem
  rw [hcreate] at hgrown
  have hway : s.files.HasWay base root Config.tempWay :=
    hplace.logs.toHasWay.of_prefix (by simp [Config.tempWay, Config.logWay])
  have hnone := hdraws.image hid w opened hcreate (Workspace.folderName t n)
    (by rw [hfolder, Path.fileName?_join hproper.toIsPlain]) (root ++ Config.tempWay)
  have hne : root ++ (Config.tempWay ++ [Workspace.folderName t n ++ ".png"]) ≠
      root ++ Config.tempWay ++ [Workspace.folderName t n] := by
    rw [← List.append_assoc]
    intro heq
    have hnames := List.singleton_inj.1 (List.append_cancel_left heq)
    simp [← String.toList_inj] at hnames
  have hnoFolder := not_folderAt_create hplace htemp hcreate hopen (by simp) hne
    (by rw [← List.append_assoc, (get?_eq_none.1 hnone).2])
  rw [← List.append_assoc] at hnoFolder
  refine
    { way := HasWay.of_grown { hway with locate := hreached } hgrown
      folder := hfolder
      isProper := hproper
      noPoint := ?_
      short := ?_
      free := get?_eq_none.2 ⟨?_, hnoFolder⟩ }
  · simp only [Workspace.folderName, String.toList_append, List.mem_append, not_or]
    refine ⟨⟨⟨by decide, t.not_mem_stem (by decide) (by decide)⟩, by decide⟩, fun hdot => ?_⟩
    exact absurd (Workspace.isAlphanum_of_mem_ending hdot) (by decide)
  · have hstem : t.stem = "" := by
      rw [Template.stem, hid]
      rfl
    simp only [Workspace.folderName, String.utf8ByteSize_append, Workspace.size_ending, hstem]
    decide
  · rw [hgrown.leaf]
    exact (get?_eq_none.1 hnone).1

/-- A run that draws new names starts as a run should. -/
theorem isRun_create (hplace : s.files.IsWorkplace base root)
    (hreached : s.files.locate true (s.files.absolute base) = .ok root)
    (htemp : press.config.temp = base.below Config.tempWay)
    (hspots : ∀ spec ∈ resolutions, s.files.folderAt (spot root t spec) = false)
    (hdraws : press.DrawsAnew t s) {opened : Surroundings σ}
    (hcreate : Workspace.create press.config.temp t.stem s = (.ok w, opened)) {n : Nat}
    (hfolder : w.folder =
      ((s.files.absolute base).below Config.tempWay).join (Workspace.folderName t n))
    (hopen : w.IsOpen (root ++ Config.tempWay ++ [Workspace.folderName t n]) opened.files) :
    IsRun base root t w (root ++ Config.tempWay ++ [Workspace.folderName t n]) opened.files := by
  have hlonger : ∀ names ∈ [Config.logWay, Config.thumbnailWay],
      Config.tempWay.length < names.length := by decide
  have hfree : ∀ names ∈ [Config.logWay, Config.thumbnailWay], ∀ name,
      s.files.folderAt (root ++ names ++ [name]) = false →
        opened.files.folderAt (root ++ names ++ [name]) = false := by
    intro names hnames name hnone
    have hlength := hlonger names hnames
    rw [List.append_assoc] at hnone ⊢
    refine not_folderAt_create hplace htemp hcreate hopen ?_ (fun heq => ?_) hnone
    · rw [List.length_append]
      omega
    · have hlengths := congrArg List.length heq
      simp only [List.length_append, List.length_singleton] at hlengths
      omega
  have htoken : ∀ place name, w.token.toList <:+: name.toList →
      s.files.folderAt (place ++ [name]) = false := fun place name hmentioned =>
    Bool.eq_false_iff.2 fun hthere => hdraws.free w opened hcreate place name hthere hmentioned
  refine
    { isOpen := hopen
      workplace := hplace.of_grown ?_
      room := fun hid => ⟨_, _, rfl,
        leavesRoom_create hplace hreached htemp hdraws hid hcreate hfolder hopen⟩
      folder := ⟨n, rfl⟩
      chars := Workspace.create_token_chars hcreate
      log := hfree _ (by simp) _ (htoken _ _ ⟨(t.stem ++ "-").toList, ".log".toList, ?_⟩)
      target := fun spec hspec => hfree _ (by simp) _ (hspots spec hspec)
      staging := fun spec _ => hfree _ (by simp) _
        (htoken _ _ ⟨(spec.fileName t.stem ++ ".").toList, ".tmp".toList, ?_⟩) }
  · have hgrown := Workspace.create_grown hplace.isRooted press.config.temp t.stem
    rwa [hcreate] at hgrown
  · simp only [logName, String.toList_append, List.append_assoc]
  · simp only [stagingName, String.toList_append, List.append_assoc]

/-! ### Previews -/

/-- What is foreseen of a preview depends on the names of its run only through their lengths, and on
the files only through what is in the way of two folders. -/
theorem foreseen_congr {w' : Workspace} {files' : Tree} (hfolder : w.folder.overlong = w'.folder.overlong)
    (hw : ∀ c ∈ w.token.toList, c.isAlphanum = true ∨ c = '-')
    (hw' : ∀ c ∈ w'.token.toList, c.isAlphanum = true ∨ c = '-')
    (hsize : w.token.utf8ByteSize = w'.token.utf8ByteSize)
    (hlogs : files.wayFault? base root Config.logWay = files'.wayFault? base root Config.logWay)
    (hthumbnails : files.wayFault? base root Config.thumbnailWay =
      files'.wayFault? base root Config.thumbnailWay) :
    press.foreseen rules base root files t w = press.foreseen rules base root files' t w' := by
  have hslash : '/' ∉ w.token.toList := not_mem_token hw (by decide) (by decide)
  have hslash' : '/' ∉ w'.token.toList := not_mem_token hw' (by decide) (by decide)
  have hjudged : ∀ source, press.judged rules base root files w t.stem source =
      press.judged rules base root files' w' t.stem source := by
    intro source
    rw [judged, judged, hfolder, hlogs, Path.overlong_logName hslash hslash' hsize]
  have hstages : stagesOverlong base t w.token = stagesOverlong base t w'.token := by
    rw [Bool.eq_iff_iff, stagesOverlong, stagesOverlong, List.any_eq_true, List.any_eq_true]
    refine exists_congr fun spec => and_congr_right fun hspec => ?_
    rw [Path.overlong_congr (isProper_stagingName t hspec hw).noSlash
      (isProper_stagingName t hspec hw').noSlash (by
        simp only [stagingName, String.utf8ByteSize_append, hsize])]
  rw [foreseen, foreseen, prepared, prepared, hjudged, hfolder, hthumbnails, hstages]

/-- A run of a template, with names as long as those that are drawn. -/
def sampleRun (base : Path) (files : Tree) (t : Template) : Workspace :=
  ⟨((files.absolute base).below Config.tempWay).join (Workspace.folderName t 0), Text.hexPadded 48 0⟩

theorem chars_sampleRun (base : Path) (files : Tree) (t : Template) :
    ∀ c ∈ (sampleRun base files t).token.toList, c.isAlphanum = true ∨ c = '-' :=
  fun _ hc => .inl (@Workspace.isAlphanum_of_mem_hexPadded 48 0 _ hc)

/-- What a preview comes to, before its run is opened. -/
def told (press : Press σ) (rules : Rules) (base : Path) (root : Place) (files : Tree) (t : Template) :
    Except PressError (PreviewArtifacts × List (RasterSpec × ByteArray)) :=
  match Workspace.openingFault? t base root files with
  | some e => .error (.io e)
  | none => press.foreseen rules base root files t (sampleRun base files t)

/-- What is foreseen of a run is what is foreseen of the sample. -/
theorem foreseen_sampleRun {n : Nat}
    (hfolder : w.folder = ((files.absolute base).below Config.tempWay).join (Workspace.folderName t n))
    (hchars : ∀ c ∈ w.token.toList, c.isAlphanum = true ∨ c = '-') (hsize : w.token.utf8ByteSize = 48)
    {opened : Tree} (hgrown : Grown files opened) :
    press.foreseen rules base root opened t w =
      press.foreseen rules base root files t (sampleRun base files t) := by
  have hsample : (Text.hexPadded 48 0).utf8ByteSize = 48 := by decide
  refine foreseen_congr ?_ hchars (chars_sampleRun base files t)
    (hsize.trans hsample.symm) (wayFault?_congr (by decide) fun place _ => by rw [hgrown.leaf])
    (wayFault?_congr (by decide) fun place _ => by rw [hgrown.leaf])
  have hlength : (Workspace.folderName t n).utf8ByteSize = (Workspace.folderName t 0).utf8ByteSize := by
    simp only [Workspace.folderName, String.utf8ByteSize_append, Workspace.size_ending]
  rw [hfolder]
  unfold sampleRun
  dsimp only
  exact Path.overlong_join_congr (Workspace.isProper_folderName t n).toIsPlain
    (Workspace.isProper_folderName t 0).toIsPlain hlength

/-- What a preview comes to is told before, and so are the thumbnails after it. -/
theorem compilePreview_told (hplace : s.files.IsWorkplace base root)
    (hreached : s.files.locate true (s.files.absolute base) = .ok root)
    (hspots : ∀ spec ∈ resolutions, s.files.folderAt (spot root t spec) = false)
    (hlaid : press.IsLaidOut base) (hgoes : press.GoesBy rules) (hdraws : press.DrawsAnew t s) :
    (∃ e s', press.compilePreview t s = (.error e, s') ∧
      press.told rules base root s.files t = .error e.anonymous ∧
      ∀ spec, s'.files.leaf? (spot root t spec) = s.files.leaf? (spot root t spec)) ∨
    (∃ artifacts pictures s', press.compilePreview t s = (.ok artifacts, s') ∧
      press.told rules base root s.files t = .ok (artifacts, pictures) ∧
      pictures.map Prod.fst = resolutions ∧ ∀ picture ∈ pictures, ∃ modified,
        s'.files.leaf? (spot root t picture.1) = some ⟨.file picture.2, modified⟩) := by
  have htemp : press.config.temp = base.below Config.tempWay := hlaid.temp
  have hcreated := Workspace.create_foreseen (t := t) hplace hreached (htemp ▸ hdraws.found)
  have hgrown := Workspace.create_grown hplace.isRooted press.config.temp t.stem
  rw [← htemp] at hcreated
  rw [compilePreview, inWorkspace_apply, told]
  rcases hcreate : Workspace.create press.config.temp t.stem s with ⟨e | w, opened⟩ <;>
    rw [hcreate] at hcreated hgrown
  · dsimp only at hcreated
    rw [hcreated]
    exact .inl ⟨_, opened, rfl, rfl, fun spec => by rw [hgrown.leaf]⟩
  · obtain ⟨hnone, n, hfolder, hopen⟩ := hcreated
    have hrun := isRun_create hplace hreached htemp hspots hdraws hcreate hfolder hopen
    have hchanges := previewIn_changes hopen hrun.workplace hlaid hgoes.compiler.staysIn
      hgoes.rasterizer.writesImage hrun.leavesRoom (Workspace.create_token hcreate) (.refl _ _)
    -- the end of the run leaves the thumbnails
    have hclosed : ∀ spec, (w.close (press.previewIn t w opened).2).2.files.leaf? (spot root t spec) =
        (press.previewIn t w opened).2.files.leaf? (spot root t spec) := fun spec => by
      rw [(w.drops_close hopen hchanges.toSpares).leaf,
        if_neg (hrun.not_inside_thumbnails (.inr (inFolder_spot root t spec)))]
    rw [hnone]
    dsimp only
    rw [← foreseen_sampleRun hfolder hrun.chars (hdraws.size w opened hcreate) hgrown]
    rcases previewIn_foreseen hrun hlaid hgoes with
      ⟨e, s', hdone, hforeseen, hkept⟩ | ⟨artifacts, pictures, s', hdone, hforeseen, hspecs, hshown⟩ <;>
      rw [hdone] at hclosed ⊢
    · refine .inl ⟨e, _, rfl, hforeseen, fun spec => ?_⟩
      rw [hclosed, hkept, hgrown.leaf]
    · refine .inr ⟨artifacts, pictures, _, rfl, hforeseen, hspecs, fun picture hpicture => ?_⟩
      rw [hclosed]
      exact hshown picture hpicture

/-- A preview changes no files but the log that its error names, its own thumbnails, what is staged for
them and, without an id, an image beside the folder of its run. -/
theorem compilePreview_alters (hplace : s.files.IsWorkplace base root)
    (hreached : s.files.locate true (s.files.absolute base) = .ok root)
    (hlaid : press.IsLaidOut base) (hgoes : press.GoesBy rules) (hdraws : press.DrawsAnew t s) :
    Changes (fun _ => False)
      (fun place => (IsLog base root (log? (press.compilePreview t s).1) place ∨
        IsImage root t place) ∨ IsStray root t place)
      (fun place => (OnWay root Config.logWay place ∨ OnWay root Config.thumbnailWay place) ∨
        OnWay root Config.tempWay place)
      s.files (press.compilePreview t s).2.files := by
  have htemp : press.config.temp = base.below Config.tempWay := hlaid.temp
  refine inWorkspace_changes hplace hlaid
    (fun result place => (IsLog base root (log? result) place ∨ IsImage root t place) ∨
      IsStray root t place) _ t.stem _ fun w folder opened hcreate hopen hopened htoken => ?_
  refine previewIn_changes hopen hopened hlaid hgoes.compiler.staysIn hgoes.rasterizer.writesImage
    (fun hid => ?_) htoken (.refl _ _)
  have hcreated := Workspace.create_foreseen (t := t) hplace hreached (htemp ▸ hdraws.found)
  rw [← htemp, hcreate] at hcreated
  obtain ⟨-, n, hfolder, hthere⟩ := hcreated
  exact ⟨_, _, leavesRoom_create hplace hreached htemp hdraws hid hcreate hfolder hthere⟩

/-! ### Steps of a batch -/

/-- Whether the thumbnails of a template have to be made anew, by the files. -/
def outdated (press : Press σ) (files : Tree) (t : Template) : Bool :=
  resolutions.any fun spec => (files.stat (press.thumbnail t.stem spec)).toOption.all fun image =>
    (files.stat t.path).toOption.any fun source => image.modified < source.modified

theorem needsRefresh_outdated (press : Press σ) (t : Template) (s : Surroundings σ) :
    (press.needsRefresh t s).1 = press.outdated s.files t := by
  have hspec : ∀ spec, (press.isOutdated t.stem (Act.modified? t.path s).1 spec s).1 =
      (s.files.stat (press.thumbnail t.stem spec)).toOption.all fun image =>
        (s.files.stat t.path).toOption.any fun source => image.modified < source.modified := by
    intro spec
    have hmodified : (Act.modified? t.path s).1 =
        (s.files.stat t.path).toOption.map Node.modified := rfl
    rw [isOutdated_apply, hmodified]
    cases (s.files.stat (press.thumbnail t.stem spec)).toOption with
    | none => rfl
    | some image => exact Option.any_map ..
  rw [needsRefresh_apply, hspec, hspec, outdated, resolutions, List.any_cons, List.any_cons,
    List.any_nil, Bool.or_false]

/-- The bytes of a thumbnail, if it is there. -/
def shownIn (base : Path) (root : Place) (files : Tree) (t : Template) (spec : RasterSpec) :
    Option ByteArray :=
  if (base.below Config.thumbnailWay).overlong (spec.fileName t.stem) then none
  else (files.leaf? (spot root t spec)).bind fun node => node.entry.bytes?

theorem stat_thumbnail (hplace : files.IsWorkplace base root) (hlaid : press.IsLaidOut base)
    {spec : RasterSpec} (hspec : spec ∈ resolutions) :
    (files.stat (press.thumbnail t.stem spec)).toOption =
      if (base.below Config.thumbnailWay).overlong (spec.fileName t.stem) then none
      else files.get? (spot root t spec) := by
  rw [thumbnail_laidOut hlaid, hplace.thumbnails.stat_join
    (Config.isProper_ways _ Config.thumbnailWay_mem) (Config.size_ways _ Config.thumbnailWay_mem)
    (isProper_fileName t hspec) (hplace.thumbnails.inside _)]
  rfl

theorem read_thumbnail (hplace : files.IsWorkplace base root) (hlaid : press.IsLaidOut base)
    {spec : RasterSpec} (hspec : spec ∈ resolutions) :
    (files.read (press.thumbnail t.stem spec)).toOption = shownIn base root files t spec := by
  rw [read_toOption, stat_thumbnail hplace hlaid hspec, shownIn]
  split
  · rfl
  · cases hget : files.get? (spot root t spec) with
    | none => simp [leaf?, hget]
    | some node =>
      obtain ⟨entry, modified⟩ := node
      cases entry <;> simp [leaf?, hget, Option.filter, Entry.isFolder, Entry.bytes?]

/-- The outcome of a step of a batch, and the thumbnails after it. -/
def foretold (press : Press σ) (rules : Rules) (base : Path) (root : Place) (files : Tree)
    (t : Template) : Outcome × (RasterSpec → Option ByteArray) :=
  bif press.outdated files t then
    match press.told rules base root files t with
    | .error e => (.failed e, shownIn base root files t)
    | .ok (artifacts, pictures) =>
      (.generated artifacts (Validation.structuralErrors t.source ++
        Validation.findings .font (rules.probe .font) t.fonts ++
          Validation.findings .package (rules.probe .package) t.packages), fun spec => pictures.lookup spec)
  else (.upToDate, shownIn base root files t)

theorem fits_of_foreseen {made : PreviewArtifacts × List (RasterSpec × ByteArray)}
    (hchars : ∀ c ∈ w.token.toList, c.isAlphanum = true ∨ c = '-')
    (h : press.foreseen rules base root files t w = .ok made) {spec : RasterSpec}
    (hspec : spec ∈ resolutions) :
    (base.below Config.thumbnailWay).overlong (spec.fileName t.stem) = false := by
  unfold foreseen at h
  split at h
  · cases h
  · split at h
    · cases h
    · rename_i hfit
      refine overlong_of_stagingName (isProper_stagingName t hspec hchars).noSlash ?_
      exact Bool.eq_false_iff.2 fun hlong => hfit (List.any_eq_true.2 ⟨spec, hspec, hlong⟩)

theorem fits_of_told {made : PreviewArtifacts × List (RasterSpec × ByteArray)}
    (h : press.told rules base root files t = .ok made) {spec : RasterSpec}
    (hspec : spec ∈ resolutions) :
    (base.below Config.thumbnailWay).overlong (spec.fileName t.stem) = false := by
  unfold told at h
  split at h
  · cases h
  · exact fits_of_foreseen (w := sampleRun base files t) (chars_sampleRun base files t) h hspec

theorem shownIn_congr {files' : Tree} {spec : RasterSpec}
    (h : files'.leaf? (spot root t spec) = files.leaf? (spot root t spec)) :
    shownIn base root files' t spec = shownIn base root files t spec := by
  rw [shownIn, shownIn, h]

/-- Pictures that stand at their places are shown. -/
theorem shownIn_pictures {pictures : List (RasterSpec × ByteArray)}
    (hspecs : pictures.map Prod.fst = resolutions)
    (hfits : ∀ spec ∈ resolutions,
      (base.below Config.thumbnailWay).overlong (spec.fileName t.stem) = false)
    (hshown : ∀ picture ∈ pictures, ∃ modified,
      files.leaf? (spot root t picture.1) = some ⟨.file picture.2, modified⟩)
    {spec : RasterSpec} (hspec : spec ∈ resolutions) :
    shownIn base root files t spec = pictures.lookup spec := by
  rw [shownIn, hfits spec hspec, if_neg Bool.false_ne_true]
  cases hlookup : pictures.lookup spec with
  | none =>
    rw [← hspecs] at hspec
    obtain ⟨picture, hpicture, rfl⟩ := List.mem_map.1 hspec
    have hnot := List.lookup_eq_none_iff.1 hlookup picture hpicture
    simp at hnot
  | some bytes =>
    obtain ⟨before, after, rfl, -⟩ := List.lookup_eq_some_iff.1 hlookup
    obtain ⟨modified, hleaf⟩ := hshown (spec, bytes) (by simp)
    rw [hleaf]
    rfl

theorem GoesBy.files_validate (h : press.GoesBy rules) (t : Template) (s : Surroundings σ) :
    (press.validate t s).2.files = s.files :=
  Validation.validate_closed (Act.Keeps.isClosed fun files => files = s.files)
    (fun kind name s' hs' => (h.probeLooks kind name s').trans hs') t s rfl

end Press

/-- The outcome without the names that a run draws. -/
def Outcome.anonymous : Outcome → Outcome
  | .failed e => .failed e.anonymous
  | outcome => outcome

open Press in
/-- The outcome of a step and the thumbnails after it are told before. -/
theorem Batch.generateOne_foretold {press : Press σ} {rules : Rules} {t : Template} {base : Path}
    {root : Place} {s : Surroundings σ} (hplace : s.files.IsWorkplace base root)
    (hreached : s.files.locate true (s.files.absolute base) = .ok root)
    (hspots : ∀ spec ∈ resolutions, s.files.folderAt (spot root t spec) = false)
    (hlaid : press.IsLaidOut base) (hgoes : press.GoesBy rules)
    (hdraws : press.DrawsAnew t (press.validate t s).2) :
    (generateOne press t s).1.anonymous = (press.foretold rules base root s.files t).1 ∧
      ∀ spec ∈ resolutions, shownIn base root (generateOne press t s).2.files t spec =
        (press.foretold rules base root s.files t).2 spec := by
  have hfiles := hgoes.files_validate t s
  have herrors := (t.validate_findings press.toolchain rules.probe hgoes.probe s).1
  rw [generateOne_apply, needsRefresh_outdated, hfiles, foretold]
  cases press.outdated s.files t with
  | false =>
    refine ⟨rfl, fun spec _ => ?_⟩
    rw [cond_false, cond_false, hfiles]
  | true =>
    have htold := compilePreview_told (s := (press.validate t s).2) (hfiles ▸ hplace)
      (hfiles ▸ hreached) (hfiles ▸ hspots) hlaid hgoes hdraws
    rw [hfiles] at htold
    rw [cond_true, cond_true]
    rcases htold with ⟨e, s', hdone, htold, hkept⟩ |
      ⟨artifacts, pictures, s', hdone, htold, hspecs, hshown⟩ <;> rw [hdone, htold]
    · dsimp only
      exact ⟨rfl, fun spec _ => shownIn_congr (hkept spec)⟩
    · dsimp only
      refine ⟨?_, fun spec hspec => ?_⟩
      · exact congrArg (Outcome.generated artifacts) herrors
      · exact shownIn_pictures hspecs (fun _ => fits_of_told htold) hshown hspec

end ResumePress
