import ResumePress.Proofs.Compile.Logs
import ResumePress.Proofs.Order
import ResumePress.Proofs.Upkeep

/-!
Repeats are served from the cache. A document that was compiled is stored under its key, and whatever is
compiled or swept after that, the entry stays what it is for as long as it is fresh. So a call that
repeats the first one finds the entry, and neither compiles anything nor makes a folder for a run.
-/

namespace ResumePress

open Files Files.Tree Cache

variable {σ : Type}

namespace Cache

theorem length_cacheKey (id source content : String) : (cacheKey id source content).toList.length = 64 := by
  simp [cacheKey, Text.hex, Digest.Sha256.digest, Digest.Sha256.bytesOf]

theorem isKey_cacheKey (id source content : String) : IsKey (cacheKey id source content) where
  nonempty h := by
    have hlength := length_cacheKey id source content
    rw [h] at hlength
    cases hlength
  chars := fun _ => Text.isAlphanum_of_mem_hex

/-- The entries of documents can be written, if the path of the folder is not too long. -/
theorem fits_cacheKey {c : Cache} (hfolder : c.folder.text.utf8ByteSize < 3990)
    (id source content : String) : c.fits (cacheKey id source content) = true := by
  have hkey := isKey_cacheKey id source content
  have hsize : (cacheKey id source content).utf8ByteSize = 64 := by
    rw [← String.ofList_toList (s := cacheKey id source content),
      utf8ByteSize_of_isAlphanum hkey.chars, length_cacheKey]
  have htoken : (Text.hexPadded 32 0).utf8ByteSize = 32 := by decide
  have hname : (stagingName (cacheKey id source content) (Text.hexPadded 32 0)).utf8ByteSize = 105 := by
    simp only [stagingName, String.utf8ByteSize_append, hsize, htoken]
    rfl
  rw [fits, Path.overlong, Path.size_join (hkey.isProper_stagingName 0).noSlash, hname]
  simp
  split <;> omega

end Cache

namespace Press

/-- What a press is asked for. -/
inductive Request where
  | document (t : Template) (content : String)
  | sweep

/-- Serves a request. -/
def serve (press : Press σ) : Request → Act σ Unit
  | .document t content => do
    let _ ← press.compileDocument t content
  | .sweep => do
    let _ ← press.sweep

/-- The surroundings after requests at their times, of which the latest comes first. -/
def served (press : Press σ) (s : Surroundings σ) : List (Instant × Request) → Surroundings σ
  | [] => s
  | (time, request) :: earlier => (press.serve request ((press.served s earlier).atTime time)).2

theorem serve_document (press : Press σ) (t : Template) (content : String) (s : Surroundings σ) :
    (press.serve (.document t content) s).2 = (press.compileDocument t content s).2 := by
  rw [serve, Act.bind_apply, Act.pure_apply]

theorem serve_sweep (press : Press σ) (s : Surroundings σ) :
    (press.serve .sweep s).2 = (press.sweep s).2 := by
  rw [serve, Act.bind_apply, Act.pure_apply]

variable {press : Press σ} {base : Path} {root : Place} {start : Tree} {s : Surroundings σ}
  {t : Template} {content key : String} {bytes : ByteArray} {now time : Instant}

/-- A document that is in the cache is not compiled, so no compiler matters. -/
theorem compileDocument_of_get
    (h : press.cache.get (cacheKey t.id t.source content) s = (some bytes, s))
    (compiler : RetryingCompiler σ) :
    { press with compiler := compiler }.compileDocument t content s = (.ok bytes, s) := by
  rw [compileDocument, Act.bind_apply, h]
  rfl

/-- A run leaves no more than a log outside of its folder. -/
theorem run_tended (hstart : start.IsSetUp base root) (hlaid : press.IsLaidOut base)
    (hcompiler : press.compiler.compiler.StaysIn) (h : start.IsTended base root s.files)
    (t : Template) (source : String) :
    let ran := press.inWorkspace t.stem (press.compileIn · t.stem source) s
    start.IsTended base root ran.2.files ∧
      ∀ place, root ++ Config.cacheWay <+: place →
        ran.2.files.leaf? place = s.files.leaf? place := by
  intro ran
  have hchanges := inWorkspace_changes h.toIsSite.isWorkplace hlaid
    (fun _ place => ∃ name, Path.IsPlain name ∧ place = root ++ Config.logWay ++ [name])
    (OnWay root Config.logWay) t.stem (press.compileIn · t.stem source)
    fun w folder opened _ hopen hopened htoken => by
      have hname := isPlain_logName t htoken
      have hcompiled := compileIn_changes hopen hopened hlaid hcompiler hname source (.refl _ _)
      generalize press.compileIn w t.stem source opened = compiled at hcompiled
      obtain ⟨e | document, s'⟩ := compiled
      · exact hcompiled.mono (fun _ hplace => ⟨_, hname, hplace.2⟩) fun _ => id
      · exact hcompiled.changes
  refine ⟨h.of_changes hstart hchanges ?_ ?_, fun place hin => hchanges.leaf place id ?_⟩
  · rintro place ⟨name, hname, rfl⟩
    exact ⟨_, List.mem_cons_self, name, hname, rfl⟩
  · rintro place (hway | hway)
    · exact ⟨_, List.mem_cons_self, hway⟩
    · exact ⟨_, List.mem_cons_self, hway.mono (by simp [Config.tempWay, Config.logWay])⟩
  · rintro ⟨name, -, rfl⟩
    exact (Sweep.not_entry_of_run (by simp [Config.logWay])).1 hin

/-- What is stored is the entry of its key, and other entries stay. -/
theorem put_tended (hstart : start.IsSetUp base root) (hlaid : press.IsLaidOut base)
    (h : start.IsTended base root s.files) (hkey : IsKey key) (bytes : ByteArray) :
    let kept := (press.cache.put key bytes s).2
    start.IsTended base root kept.files ∧ kept.now = s.now ∧
      (∀ other, other ≠ key → kept.files.leaf? (entrySpot root Config.cacheWay other) =
        s.files.leaf? (entrySpot root Config.cacheWay other)) ∧
      (press.cache.fits key = true → kept.files.leaf? (entrySpot root Config.cacheWay key) =
        some ⟨.file bytes, s.now⟩) := by
  intro kept
  obtain ⟨files, drawn, heq, hchanges, hself, -⟩ := put_result (isAt_cache hlaid) h.cacheWay h.free hkey
    (fun name hname => ⟨h.unblocked key hkey _ name hname, h.inside _ Config.cacheWay_mem name⟩) bytes
  have hcache : Config.cacheWay ∈ [Config.logWay, Config.cacheWay] := by simp
  rw [show kept = _ from heq]
  refine ⟨h.of_changes hstart hchanges ?_ fun place hway => ⟨_, hcache, hway⟩, rfl,
    fun other hne => hchanges.leaf _ id ?_, fun hfits => ?_⟩
  · rintro place (rfl | rfl)
    · exact ⟨_, hcache, _, hkey.isProper_entryName.toIsPlain, rfl⟩
    · exact ⟨_, hcache, _, (hkey.isProper_stagingName _).toIsPlain, rfl⟩
  · rintro (hsame | hsame)
    · exact hne (entrySpot_inj.1 hsame)
    · exact entrySpot_ne_asideSpot hsame
  · rw [hself, if_pos hfits]

/-- A call for a document keeps the tree in order and all entries but its own. If it fails it keeps that
as well, and if it compiles the document it stores it. -/
theorem compileDocument_tended (hstart : start.IsSetUp base root) (hlaid : press.IsLaidOut base)
    (hcompiler : press.compiler.compiler.StaysIn) (h : start.IsTended base root s.files)
    (t : Template) (content : String) :
    let key := cacheKey t.id t.source content
    let done := press.compileDocument t content s
    start.IsTended base root done.2.files ∧
      (∀ other, other ≠ key → done.2.files.leaf? (entrySpot root Config.cacheWay other) =
        s.files.leaf? (entrySpot root Config.cacheWay other)) ∧
      (done.1.isOk = false → ∀ place, root ++ Config.cacheWay <+: place →
        done.2.files.leaf? place = s.files.leaf? place) ∧
      ((press.cache.get key s).1 = none → press.cache.fits key = true → ∀ bytes,
        done.1 = .ok bytes → done.2.files.leaf? (entrySpot root Config.cacheWay key) =
          some ⟨.file bytes, done.2.now⟩) := by
  have hkey := isKey_cacheKey t.id t.source content
  have hran := run_tended hstart hlaid hcompiler h t (press.render t content)
  have hentries : ∀ key, root ++ Config.cacheWay <+: entrySpot root Config.cacheWay key :=
    fun key => List.prefix_append _ _
  rw [compileDocument]
  generalize cacheKey t.id t.source content = key at *
  dsimp only
  rw [Act.bind_apply, press.cache.get_same]
  cases (press.cache.get key s).1 with
  | some bytes =>
    refine ⟨h, fun _ _ => rfl, fun hfailed => ?_, fun hmissed => ?_⟩
    · cases hfailed
    · cases hmissed
  | none =>
    dsimp only at hran ⊢
    rw [Act.bind_apply]
    generalize press.inWorkspace t.stem (press.compileIn · t.stem (press.render t content)) s = ran
      at hran ⊢
    obtain ⟨e | document, s₁⟩ := ran
    · refine ⟨hran.1, fun other _ => hran.2 _ (hentries other), fun _ => hran.2, fun _ _ bytes hok => ?_⟩
      cases hok
    · obtain ⟨htended, hnow, hothers, hstored⟩ :=
        put_tended hstart hlaid hran.1 hkey document.bytes
      refine ⟨htended, fun other hne => (hothers other hne).trans (hran.2 _ (hentries other)),
        fun hfailed => ?_, fun _ hfits bytes hbytes => ?_⟩
      · cases hfailed
      · obtain rfl := Except.ok.inj hbytes
        exact (hstored hfits).trans (by rw [← hnow]; rfl)

/-- The tree is in order and has an entry with the time when it was stored. -/
structure Keeps (start : Tree) (base : Path) (root : Place) (key : String) (bytes : ByteArray)
    (stored : Instant) (files : Tree) : Prop extends start.IsTended base root files where
  entry : files.leaf? (entrySpot root Config.cacheWay key) = some ⟨.file bytes, stored⟩

variable {stored : Instant}

/-- An entry that is fresh is found. -/
theorem get_of_keeps (hlaid : press.IsLaidOut base)
    (h : Keeps start base root key bytes stored s.files) (hkey : IsKey key)
    (hfits : press.cache.fits key = true) (hfresh : Instant.since s.now stored < press.cache.timeToLive) :
    press.cache.get key s = (some bytes, s) := by
  rw [get_apply, getAt_entry (isAt_cache hlaid) h.cacheWay hkey (h.inside _ Config.cacheWay_mem _),
    hkey.overlong_entryName hfits, if_neg Bool.false_ne_true, (leaf?_eq_some.1 h.entry).1]
  simp [isFresh, hfresh, Entry.bytes?]

/-- A request in the time to live leaves the entry as it is: it is for another document, or finds the
entry, or is a sweep that spares it. -/
theorem serve_keeps (hstart : start.IsSetUp base root) (hlaid : press.IsLaidOut base)
    (hcompiler : press.compiler.compiler.StaysIn)
    (h : Keeps start base root key bytes stored s.files) (hkey : IsKey key)
    (hfits : press.cache.fits key = true) (hfresh : Instant.since s.now stored < press.cache.timeToLive)
    (request : Request) : Keeps start base root key bytes stored (press.serve request s).2.files := by
  cases request with
  | document t content =>
    obtain ⟨htended, hothers, -⟩ :=
      compileDocument_tended hstart hlaid hcompiler h.toIsTended t content
    by_cases hsame : key = cacheKey t.id t.source content
    · have hfound := get_of_keeps hlaid h hkey hfits hfresh
      rw [hsame] at hfound
      have hserved := compileDocument_of_get hfound press.compiler
      rw [serve_document, show press.compileDocument t content s = (.ok bytes, s) from hserved]
      exact h
    · rw [serve_document]
      exact ⟨htended, (hothers key hsame).trans h.entry⟩
  | sweep =>
    obtain ⟨htended, hfreshes⟩ := sweep_tended hstart hlaid h.toIsTended
    rw [serve_sweep]
    exact ⟨htended, hfreshes _ _ h.entry (by simpa [isFresh] using hfresh)⟩

theorem served_tended {start : Surroundings σ} (hstart : start.files.IsSetUp base root)
    (hlaid : press.IsLaidOut base) (hcompiler : press.compiler.compiler.StaysIn)
    (past : List (Instant × Request)) :
    start.files.IsTended base root (press.served start past).files := by
  induction past with
  | nil => exact hstart.isTended
  | cons call past ih =>
    obtain ⟨time, request⟩ := call
    rw [← (press.served start past).files_atTime time] at ih
    rw [served]
    cases request with
    | document t content =>
      obtain ⟨htended, -⟩ := compileDocument_tended hstart hlaid hcompiler ih t content
      rw [serve_document]
      exact htended
    | sweep =>
      obtain ⟨htended, -⟩ := sweep_tended hstart hlaid ih
      rw [serve_sweep]
      exact htended

theorem served_keeps (hstart : start.IsSetUp base root) (hlaid : press.IsLaidOut base)
    (hcompiler : press.compiler.compiler.StaysIn)
    (h : Keeps start base root key bytes stored s.files) (hkey : IsKey key)
    (hfits : press.cache.fits key = true) (hfresh : Instant.since now stored < press.cache.timeToLive)
    (later : List (Instant × Request)) (hlater : ∀ call ∈ later, call.1 ≤ now) :
    Keeps start base root key bytes stored (press.served s later).files := by
  induction later with
  | nil => exact h
  | cons call later ih =>
    obtain ⟨time, request⟩ := call
    obtain ⟨hcall, hlater⟩ := List.forall_mem_cons.1 hlater
    have hkept := ih hlater
    rw [← (press.served s later).files_atTime time] at hkept
    rw [served]
    exact serve_keeps hstart hlaid hcompiler hkept hkey hfits
      ((Nat.sub_le_sub_right hcall stored).trans_lt hfresh) request

/-- A document that was compiled in a tree in order is what a repeat gets. -/
theorem compileDocument_repeated (hstart : start.IsSetUp base root) (hlaid : press.IsLaidOut base)
    (hcompiler : press.compiler.compiler.StaysIn) (h : start.IsTended base root s.files)
    (hfits : press.cache.fits (cacheKey t.id t.source content) = true)
    (hmissed : (press.cache.get (cacheKey t.id t.source content) s).1 = none)
    {done : Except PressError ByteArray × Surroundings σ}
    (hdone : press.compileDocument t content s = done) (hok : done.1 = .ok bytes)
    {later : List (Instant × Request)} (hlater : ∀ call ∈ later, call.1 ≤ now)
    (hfresh : Instant.since now done.2.now < press.cache.timeToLive) {u : Template}
    (hid : u.id = t.id) (hsource : u.source = t.source) (compiler : RetryingCompiler σ) :
    { press with compiler := compiler }.compileDocument u content
        ((press.served done.2 later).atTime now) =
      (.ok bytes, (press.served done.2 later).atTime now) := by
  have hkey := isKey_cacheKey t.id t.source content
  obtain ⟨htended, -, -, hstored⟩ := compileDocument_tended hstart hlaid hcompiler h t content
  rw [hdone] at htended hstored
  have hkept := served_keeps hstart hlaid hcompiler ⟨htended, hstored hmissed hfits bytes hok⟩ hkey hfits
    hfresh later hlater
  rw [← (press.served done.2 later).files_atTime now] at hkept
  refine compileDocument_of_get ?_ compiler
  rw [hid, hsource]
  exact get_of_keeps hlaid hkept hkey hfits hfresh

end Press

theorem Surroundings.isSetUp_bare : bare.files.IsSetUp ⟨"/run"⟩ ["run"] where
  toIsSite := isSite_bare
  free := by decide +kernel
  unblocked := fun _ _ _ name _ => (get?_eq_none.1 (get?_bare (by simp))).2
  plain := fun _ _ name hthere => absurd (get?_bare (by simp)) hthere
  apart place hasked := by
    have hsteps : Path.steps ⟨"/run"⟩ = [.here, .name "run"] := by decide +kernel
    rw [AsksFor, hsteps] at hasked
    cases hasked with
    | here hasked =>
      cases hasked with
      | name => exact not_isInner_root
      | down _ hasked => cases hasked
      | jump hlink =>
        rw [link?_bare] at hlink
        cases hlink
  away := by decide

/-- A document is made. -/
def Press.made : Except PressError ByteArray × Surroundings Unit :=
  rooted.compileDocument (.bare "cv") "x" (Surroundings.bare.atTime 7)

end ResumePress
