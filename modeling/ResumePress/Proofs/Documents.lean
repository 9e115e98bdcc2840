import ResumePress.Proofs.Cache
import ResumePress.Proofs.Preview

/-!
Documents from the cache. A call for a document is answered with what some call up to it compiled
that had the same key. So the answer is what the call itself would have compiled if the id, the
source and the content determine the document, and they do not when templates differ in more.
-/

namespace ResumePress

open Files Files.Tree

variable {σ : Type}

/-! ### Compilers that compute -/

/-- A compiler of which every document is a function of the source in the folder of a run. -/
def Compiler.Computes (compiler : Compiler σ) (f : String → Option ByteArray) : Prop :=
  ∀ (engine : TexEngine) (w : Workspace) (folder : Place) (s : Surroundings σ) (text : String),
    s.files.IsPlainFolder w.folder folder → s.files.read w.source = .ok (Text.encode text) →
      (compiler engine w.source w.folder s).2.files.read w.source = .ok (Text.encode text) ∧
      ∀ path bytes, (compiler engine w.source w.folder s).1 = .ok path →
        (compiler engine w.source w.folder s).2.files.read path = .ok bytes → f text = some bytes

/-- A document of the attempts is one that a single call can make. -/
theorem Attempts.run_document {property : Tree → Prop} {good : ByteArray → Prop}
    {compiler : Compiler σ} {source folder : Path}
    (hkeeps : ∀ engine, Act.Keeps property (compiler engine source folder))
    (hgood : ∀ engine s path bytes, property s.files →
      (compiler engine source folder s).1 = .ok path →
      (compiler engine source folder s).2.files.read path = .ok bytes → good bytes)
    (policy : RetryPolicy) (started : Duration) (more number : Nat) (engine : TexEngine)
    {s : Surroundings σ} (hs : property s.files) :
    ∀ document, (run compiler policy source folder started more number engine s).1.document =
      some document → good document.bytes := by
  induction more using Nat.strongRecOn generalizing number engine s with
  | ind more ih =>
    have honce := compileOnce_result compiler engine source folder s
    have hkept := compileOnce_closed (Act.Keeps.isClosed property) (hkeeps engine) s hs
    rw [run_apply]
    rcases hdone : compileOnce compiler engine source folder s with ⟨failure | document, s₁⟩ <;>
      rw [hdone] at honce hkept
    · have hfailed := failed_closed (Act.Keeps.isClosed property) number failure s₁ hkept
      dsimp only
      generalize failed number failure s₁ = lost at hfailed ⊢
      obtain ⟨attempt, s₂⟩ := lost
      cases more with
      | zero => nofun
      | succ more =>
        dsimp only
        cases policy.allows (s₂.waited - started) (policy.delay number) with
        | false => nofun
        | true =>
          have hwaited := Act.Keeps.wait (policy.delay number) s₂ hfailed
          exact ih more (Nat.lt_succ_self more) (number + 1) failure.engine.alternate hwaited
    · intro document' heq
      cases heq
      obtain ⟨path, hanswer, hread⟩ := Call.document?_eq_some.1 honce
      exact hgood engine s path document.bytes hs hanswer hread

/-! ### Runs -/

section Run

variable {f : String → Option ByteArray} {press : Press σ} {w : Workspace} {folder : Place}
  {t : Tree}

theorem compileIn_document (hopen : w.IsOpen folder t)
    (hstays : press.compiler.compiler.StaysIn) (hcomputes : press.compiler.compiler.Computes f)
    {stem source : String} {s : Surroundings σ}
    (hs : Spares (Below folder) (fun _ => False) t s.files) {document : CompiledDocument}
    (h : (press.compileIn w stem source s).1 = .ok document) : f source = some document.bytes := by
  have hwritten := source_keeps (bears_spares hopen _) source s hs
  rw [Press.compileIn, Act.bind_apply, Act.write_apply] at h
  rw [Act.write_apply] at hwritten
  cases hwrite : s.files.write s.now w.source (Text.encode source) with
  | error e =>
    rw [hwrite] at h
    cases h
  | ok files =>
    rw [hwrite, Act.changed_ok] at h hwritten
    have hsource := read_write hwrite
    have hkeeps : ∀ engine, Act.Keeps (fun t' => Spares (Below folder) (fun _ => False) t t' ∧
        t'.read w.source = .ok (Text.encode source))
        (press.compiler.compiler engine w.source w.folder) := fun engine s₁ hs₁ =>
      ⟨compiler_keeps (bears_spares hopen _) hstays engine w.source s₁ hs₁.1,
        (hcomputes engine w folder s₁ source (isPlainFolder_of_spares hopen hs₁.1) hs₁.2).1⟩
    have hdocument := Attempts.run_document hkeeps
      (fun engine s₁ path bytes hs₁ => (hcomputes engine w folder s₁ source
        (isPlainFolder_of_spares hopen hs₁.1) hs₁.2).2 path bytes)
      press.compiler.policy s.waited (press.compiler.policy.bound - 1) 1 .primary
      (s := { s with files := files }) ⟨hwritten, hsource⟩
    dsimp only at h
    rw [Act.bind_apply, RetryingCompiler.compile_apply] at h
    dsimp only at h
    generalize Attempts.run press.compiler.compiler press.compiler.policy w.source w.folder s.waited
      (press.compiler.policy.bound - 1) 1 .primary { s with files := files } = made at h hdocument
    obtain ⟨⟨list, _ | compiled⟩, s₁⟩ := made
    · cases h
    · cases h
      exact hdocument compiled rfl

variable {made : String → ByteArray → Prop} {stem : String} {s : Surroundings σ}

theorem isOwn_logName (stem : String) (w : Workspace) : IsOwn (Press.logName stem w) :=
  ⟨_, ".log", by simp, rfl⟩

/-- The end of a run removes no entry and brings none. -/
theorem close_entries (h : Cache.Entries made t) (hopen : w.IsOpen folder t)
    (hs : Spares (Below folder) (Named (Press.logName stem w)) t s.files) :
    Cache.Entries made (w.close s).2.files := by
  have hdrops := w.drops_close hopen hs
  refine ⟨hdrops.isRooted (hs.isRooted hopen.isRooted) ?_, ?_, ?_⟩
  · intro hinside
    rw [hs.home] at hinside
    have hnone := hopen.empty t.home ⟨hinside, hopen.notHome⟩
    have hhome := hopen.isRooted.home
    rw [(get?_eq_none.1 hnone).2] at hhome
    cases hhome
  · intro name hname place hplace
    have hnone := hs.link?_eq_none (h.link name hname place hplace)
    rw [Tree.link?, hdrops.leaf]
    split
    · rfl
    · exact hnone
  · intro key place bytes modified hplace hleaf
    have hnot : ¬Named (Press.logName stem w) place := fun hlog =>
      Cache.entryName_ne_append (by decide : ".log".toList.getLast? = some 'g') (by decide)
        (hplace.unique hlog)
    rw [close_leaf hopen hs hnot] at hleaf
    exact h.made key place bytes modified hplace hleaf

theorem inWorkspace_entries (h : Cache.Entries made s.files)
    (hstays : press.compiler.compiler.StaysIn) (hcomputes : press.compiler.compiler.Computes f)
    (tmpl : Template) (source : String) :
    Cache.Entries made
        (press.inWorkspace tmpl.stem (press.compileIn · tmpl.stem source) s).2.files ∧
      ∀ document, (press.inWorkspace tmpl.stem (press.compileIn · tmpl.stem source) s).1 =
        .ok document → f source = some document.bytes := by
  have hgrown := Workspace.create_grown h.isRooted press.config.temp tmpl.stem
  rw [Press.inWorkspace_apply]
  rcases hcreate : Workspace.create press.config.temp tmpl.stem s with ⟨e | w, opened⟩ <;>
    rw [hcreate] at hgrown
  · exact ⟨h.grown hgrown, nofun⟩
  · obtain ⟨folder, hopen⟩ := Workspace.create_opened h.isRooted hcreate
    have hentries := h.grown hgrown
    have hlog := Press.isPlain_logName tmpl (Workspace.create_token hcreate)
    have hs := (compileIn_spares hopen hstays hlog
      (hentries.link _ (isOwn_logName tmpl.stem w)) source (.refl _ _ _)).2
    exact ⟨close_entries hentries hopen hs,
      fun document => compileIn_document hopen hstays hcomputes (.refl _ _ _)⟩

theorem compileDocument_entries (press : Press σ) (h : Cache.Entries made s.files)
    (hstays : press.compiler.compiler.StaysIn) (hcomputes : press.compiler.compiler.Computes f)
    (tmpl : Template) (content : String)
    (hmade : ∀ bytes, f (press.render tmpl content) = some bytes →
      made (cacheKey tmpl.id tmpl.source content) bytes) :
    Cache.Entries made (press.compileDocument tmpl content s).2.files ∧
      ∀ bytes, (press.compileDocument tmpl content s).1 = .ok bytes →
        made (cacheKey tmpl.id tmpl.source content) bytes := by
  have hkey := not_slash_mem_cacheKey tmpl.id tmpl.source content
  have hfound := Cache.get_made press.cache (Cache.isPlain_entryName hkey) h
  have hrun := inWorkspace_entries h hstays hcomputes tmpl (press.render tmpl content)
  rw [Press.compileDocument]
  generalize cacheKey tmpl.id tmpl.source content = key at *
  rw [Act.bind_apply, press.cache.get_same]
  generalize (press.cache.get key s).1 = found at hfound
  cases found with
  | some bytes =>
    refine ⟨h, fun bytes' heq => ?_⟩
    cases heq
    exact hfound bytes rfl
  | none =>
    dsimp only
    rw [Act.bind_apply]
    generalize press.inWorkspace tmpl.stem
      (press.compileIn · tmpl.stem (press.render tmpl content)) s = run at hrun ⊢
    obtain ⟨e | document, s₁⟩ := run
    · exact ⟨hrun.1, nofun⟩
    · have hdocument := hmade document.bytes (hrun.2 document rfl)
      refine ⟨Cache.put_entries press.cache hkey hrun.1 hdocument, fun bytes heq => ?_⟩
      cases heq
      exact hdocument

end Run

/-! ### Sequences of calls -/

/-- A call for a document: what is asked for, and the templates and the time at that moment. -/
structure DocumentCall where
  registry : Registry
  template : Template
  content : String
  time : Instant

namespace DocumentCall

/-- What the key of the document is the digest of. -/
def message (call : DocumentCall) : List UInt8 :=
  cacheMessage call.template.id call.template.source call.content

/-- The key of the document. -/
def key (call : DocumentCall) : String :=
  cacheKey call.template.id call.template.source call.content

/-- What is compiled unless the cache has the document. -/
def rendered (call : DocumentCall) : String :=
  call.template.render (call.registry.profile call.template.id) call.content

/-- The calls agree in all that the key is made of. -/
structure Repeats (call earlier : DocumentCall) : Prop where
  id : call.template.id = earlier.template.id
  source : call.template.source = earlier.template.source
  content : call.content = earlier.content

/-- The calls agree in what else goes into a document. -/
structure RendersAs (call earlier : DocumentCall) : Prop where
  images : call.template.images = earlier.template.images
  fonts : call.template.fonts = earlier.template.fonts
  profile : call.registry.profile call.template.id =
    earlier.registry.profile earlier.template.id

/-- A press with the templates of the call. -/
def equip (call : DocumentCall) (press : Press σ) : Press σ :=
  { press with registry := call.registry }

/-- Asks a press at the time of the call. -/
def answer (call : DocumentCall) (press : Press σ) : Act σ (Except PressError ByteArray) := fun s =>
  (call.equip press).compileDocument call.template call.content { s with now := call.time }

theorem answer_apply (call : DocumentCall) (press : Press σ) (s : Surroundings σ) :
    call.answer press s = (call.equip press).compileDocument call.template call.content
      { s with now := call.time } := rfl

theorem render_equip (call : DocumentCall) (press : Press σ) :
    (call.equip press).render call.template call.content = call.rendered := rfl

variable {call earlier : DocumentCall}

/-- The id, the source, the images, the fonts and the profile are all that a document is made of. -/
theorem rendered_eq (h : call.Repeats earlier) (hrest : call.RendersAs earlier) :
    call.rendered = earlier.rendered := by
  obtain ⟨registry, ⟨id, name, path, source, _, _, images, fonts, _, _, _⟩, content, time⟩ := call
  obtain ⟨hid, hsource, hcontent⟩ := h
  obtain ⟨himages, hfonts, hprofile⟩ := hrest
  unfold rendered
  rw [hprofile]
  dsimp only at hid hsource hcontent himages hfonts ⊢
  subst hid hsource hcontent himages hfonts
  rfl

end DocumentCall

/-- The answers to calls, one after the other. -/
def Press.answers (press : Press σ) :
    List DocumentCall → Act σ (List (Except PressError ByteArray))
  | [] => return []
  | call :: rest => do
    let first ← call.answer press
    return first :: (← press.answers rest)

/-- The bytes are what a call that is done compiled for the key, if that is a key of the calls. -/
def CompiledFor (f : String → Option ByteArray) (calls done : List DocumentCall) (key : String)
    (bytes : ByteArray) : Prop :=
  (∃ call ∈ calls, call.key = key) → ∃ call ∈ done, call.key = key ∧ f call.rendered = some bytes

section Answers

variable {f : String → Option ByteArray} {press : Press σ} {calls done rest : List DocumentCall}
  {s : Surroundings σ}

theorem answer_entries (call : DocumentCall) (hstays : press.compiler.compiler.StaysIn)
    (hcomputes : press.compiler.compiler.Computes f)
    (h : Cache.Entries (CompiledFor f calls done) s.files) :
    Cache.Entries (CompiledFor f calls (done ++ [call])) (call.answer press s).2.files ∧
      ∀ bytes, (call.answer press s).1 = .ok bytes →
        CompiledFor f calls (done ++ [call]) call.key bytes := by
  have hmore : Cache.Entries (CompiledFor f calls (done ++ [call])) s.files := by
    refine h.mono fun key bytes hmade hkey => ?_
    obtain ⟨earlier, hdone, hearlier⟩ := hmade hkey
    exact ⟨earlier, List.mem_append_left _ hdone, hearlier⟩
  have hnew : ∀ bytes, f call.rendered = some bytes →
      CompiledFor f calls (done ++ [call]) call.key bytes := fun bytes hbytes _ =>
    ⟨call, List.mem_append_right _ (List.mem_singleton_self call), rfl, hbytes⟩
  rw [← call.render_equip press] at hnew
  rw [call.answer_apply]
  exact compileDocument_entries (call.equip press) (s := { s with now := call.time }) hmore hstays
    hcomputes call.template call.content hnew

theorem answers_entries (hstays : press.compiler.compiler.StaysIn)
    (hcomputes : press.compiler.compiler.Computes f) (hrest : ∀ call ∈ rest, call ∈ calls)
    (h : Cache.Entries (CompiledFor f calls done) s.files) {k : Nat} {call : DocumentCall}
    {bytes : ByteArray} (hk : rest[k]? = some call)
    (hanswer : (press.answers rest s).1[k]? = some (.ok bytes)) :
    ∃ earlier ∈ done ++ rest.take (k + 1), earlier.key = call.key ∧
      f earlier.rendered = some bytes := by
  induction rest generalizing done s k with
  | nil => cases hk
  | cons first rest ih =>
    obtain ⟨hfirst, hrest⟩ := List.forall_mem_cons.1 hrest
    obtain ⟨hentries, hmade⟩ := answer_entries first hstays hcomputes h
    rw [Press.answers, Act.bind_apply] at hanswer
    cases k with
    | zero =>
      obtain rfl : first = call := Option.some.inj hk
      exact hmade bytes (Option.some.inj hanswer) ⟨first, hfirst, rfl⟩
    | succ k =>
      rw [List.getElem?_cons_succ] at hk
      have hlater := ih hrest hentries hk hanswer
      rwa [List.append_assoc] at hlater

end Answers

/-! ### A picture that changes -/

theorem Compiler.verbatim_computes :
    (verbatim : Compiler σ).Computes fun text => some (Text.encode text) := by
  intro engine w folder s text h hread
  rcases verbatim_apply engine w.source w.folder s with ⟨hfailed, hsame⟩ |
    ⟨bytes, files, hcopied, hwrite, heq⟩
  · rw [hsame]
    refine ⟨hread, fun path bytes hok => ?_⟩
    rw [hok] at hfailed
    cases hfailed
  · have hsets := h.sets_write ⟨by decide, by decide, by decide⟩ hwrite
    have hlinks := hsets.link?_eq (h.link? _ (below_snoc _ _)) (by simp [Entry.target?])
    rw [hread] at hcopied
    cases hcopied
    obtain ⟨place, modified, hlocate, hleaf⟩ := read_eq_ok.1 hread
    have hplace : place = folder ++ ["preview.tex"] :=
      locate_join h.isRooted ⟨by decide, by decide, by decide⟩ h.locate h.isFolder
        (.inl (h.link? _ (below_snoc _ _))) hlocate
    rw [heq]
    constructor
    · refine read_eq_ok.2 ⟨place, modified,
        (locate_iff hsets.home hsets.folderAt hlinks).2 hlocate, ?_⟩
      rw [hsets.leaf_of_ne (by simp [hplace]), hleaf]
    · intro path bytes hpath hdocument
      cases hpath
      rw [read_write hwrite] at hdocument
      cases hdocument
      rfl

/-- A call for a document with one picture, for which there is a substitute. -/
def DocumentCall.pictured (substitute : String) : DocumentCall where
  registry := .ofTemplates [] ⟨[]⟩
  template := { Template.bare "cv" with source := "%RESUME_CONTENT%", images := [("a", substitute)] }
  content := "\\includegraphics\x7ba\x7d"
  time := 0

theorem getElem?_of_toOption {answers : List (Except PressError ByteArray)} {k : Nat}
    {bytes : ByteArray} (h : (answers.map Except.toOption)[k]? = some (some bytes)) :
    answers[k]? = some (.ok bytes) := by
  rw [List.getElem?_map] at h
  obtain ⟨answer, hanswer, hok⟩ := Option.map_eq_some_iff.1 h
  cases answer with
  | error e => cases hok
  | ok found =>
    cases hok
    exact hanswer

theorem answers_pictured :
    ((Press.small .idle).answers [.pictured "b", .pictured "c"] .bare).1.map Except.toOption =
      [some (Text.encode (DocumentCall.pictured "b").rendered),
        some (Text.encode (DocumentCall.pictured "b").rendered)] := by
  decide +kernel

end ResumePress
