import ResumePress.Proofs.Compile.Courses
import ResumePress.Proofs.Files.Spots
import ResumePress.Proofs.Runs

/-!
Compilers that go by the text. What such a compiler makes of a source, a document or a log, is told by
its engine and the bytes of the source, so the attempts of a compilation are those of a function on
bytes, wherever the source is and whatever the tools keep.
-/

namespace ResumePress

open Files Files.Tree

variable {σ : Type}

/-! ### The folder of a run -/

/-- A path leads to a folder that holds files and nothing else. -/
structure Files.Tree.HoldsFiles (t : Tree) (path : Path) (folder : Place) : Prop
    extends t.IsPlainFolder path folder where
  flat : ∀ place, Below folder place → t.folderAt place = false

namespace Files.Tree

variable {t t' : Tree} {path : Path} {folder : Place} {name : String} {altered : Place → Prop}
  {bytes : ByteArray}

/-- In a folder without links a name leads to what has the name. -/
theorem IsPlainFolder.locate_file (h : t.IsPlainFolder path folder) (hname : Path.IsProper name)
    (followLast : Bool) : t.locate followLast (path.join name) =
      if path.overlong name then .error .nameTooLong else .ok (folder ++ [name]) := by
  have hway : t.HasWay path folder [] :=
    { isRooted := h.isRooted
      locate := h.locate
      isFolder := h.isFolder
      isPlain := List.forall_mem_nil _
      link? := fun passed hpassed => by
        rw [List.prefix_nil.1 hpassed, List.append_nil]
        exact link?_of_folderAt h.isFolder }
  have hlocate : t.locate followLast ((path.below []).join name) = _ :=
    hway.locate_in (List.forall_mem_nil _) (List.forall_mem_nil _) (by simpa using h.isFolder) hname
      (.inl (by simpa using h.link? _ (below_snoc folder name)))
  simpa [Path.below] using hlocate

/-- A file that can be read under a name in the folder is the one of that name. -/
theorem IsPlainFolder.read_eq_ok (h : t.IsPlainFolder path folder) (hname : Path.IsPlain name)
    (hread : t.read (path.join name) = .ok bytes) :
    t.locate true (path.join name) = .ok (folder ++ [name]) ∧
      ∃ modified, t.leaf? (folder ++ [name]) = some ⟨.file bytes, modified⟩ := by
  obtain ⟨place, modified, hlocate, hleaf⟩ := Tree.read_eq_ok.1 hread
  obtain rfl := locate_join h.isRooted hname h.locate h.isFolder
    (.inl (h.link? _ (below_snoc _ _))) hlocate
  exact ⟨hlocate, modified, hleaf⟩

theorem HoldsFiles.of_edits (h : t.HoldsFiles path folder) (hedits : Edits altered t t')
    (hlink : ∀ place, altered place → t.link? place = none) : t'.HoldsFiles path folder where
  isRooted := hedits.isRooted h.isRooted
  locate := (locate_iff hedits.home hedits.folderAt (hedits.link?_eq hlink)).2 h.locate
  isFolder := by
    rw [hedits.folderAt]
    exact h.isFolder
  link? := fun place hplace => hedits.link?_eq_none (h.link? place hplace)
  flat := by
    rw [hedits.folderAt]
    exact h.flat

/-- A file in the folder is read as before if others are changed. -/
theorem HoldsFiles.read_of_edits (h : t.HoldsFiles path folder) (hedits : Edits altered t t')
    (hlink : ∀ place, altered place → t.link? place = none) (hname : Path.IsPlain name)
    (hnot : ¬altered (folder ++ [name])) (hread : t.read (path.join name) = .ok bytes) :
    t'.read (path.join name) = .ok bytes := by
  obtain ⟨hlocate, modified, hleaf⟩ := h.toIsPlainFolder.read_eq_ok hname hread
  refine Tree.read_eq_ok.2 ⟨_, modified, ?_, (hedits.leaf _ hnot).trans hleaf⟩
  exact (locate_iff hedits.home hedits.folderAt (hedits.link?_eq hlink)).2 hlocate

/-- A file can be written in the folder, and read there, unless its name is too long. -/
theorem HoldsFiles.write_cases (h : t.HoldsFiles path folder) (hname : Path.IsProper name)
    (now : Instant) (bytes : ByteArray) :
    (path.overlong name = true ∧ t.write now (path.join name) bytes = .error .nameTooLong) ∨
    (path.overlong name = false ∧ ∃ t', t.write now (path.join name) bytes = .ok t' ∧
      t'.HoldsFiles path folder ∧ t'.read (path.join name) = .ok bytes) := by
  have hlocate := h.locate_file hname true
  cases hlong : path.overlong name with
  | true =>
    rw [hlong, if_pos rfl] at hlocate
    refine .inl ⟨rfl, ?_⟩
    unfold write
    rw [hlocate]
  | false =>
    rw [hlong, if_neg Bool.false_ne_true] at hlocate
    obtain ⟨t', hwrite⟩ := write_isOk now bytes hlocate (h.flat _ (below_snoc _ _))
    have hedits : Edits (· = folder ++ [name]) t t' :=
      (h.sets_write hname.toIsPlain hwrite).edits rfl (by simp [Entry.target?])
    refine .inr ⟨rfl, t', hwrite, h.of_edits hedits ?_, read_write hwrite⟩
    rintro place rfl
    exact h.link? _ (below_snoc _ _)

end Files.Tree

/-! ### Attempts -/

/-- What compilers make of the bytes of a source: a document, or a log and the engine that is named. -/
abbrev Verdict := TexEngine → ByteArray → Except (TexEngine × String) ByteArray

/-- A compiler that keeps to files in the folder it is given and answers by the bytes of the source
there, which it leaves alone. The document has an extension of its own. -/
structure Compiler.GoesBy (compiler : Compiler σ) (verdict : Verdict) : Prop where
  staysIn : compiler.StaysIn
  answers : ∀ (engine : TexEngine) (w : Workspace) (folder : Place) (bytes : ByteArray)
    (s : Surroundings σ), s.files.HoldsFiles w.folder folder → s.files.read w.source = .ok bytes →
      match compiler engine w.source w.folder s with
      | (.ok path, s') => s'.files.HoldsFiles w.folder folder ∧
        (∃ name, '/' ∉ name.toList ∧ path = w.file (name ++ ".pdf")) ∧
        ∃ document, verdict engine bytes = .ok document ∧ s'.files.read path = .ok document
      | (.error failure, s') => s'.files.HoldsFiles w.folder folder ∧
        s'.files.read w.source = .ok bytes ∧
        verdict engine bytes = .error (failure.engine, (Attempts.readLog failure s').1)

namespace Attempts

/-- The attempts at a source by the verdicts alone, and the document with its engine if the last one
made it. -/
def judge (verdict : Verdict) (bytes : ByteArray) :
    (more number : Nat) → TexEngine → List Attempt × Option (ByteArray × TexEngine)
  | more, number, engine =>
    match verdict engine bytes with
    | .ok document => ([⟨number, engine, "", none⟩], some (document, engine))
    | .error (other, log) =>
      let attempt : Attempt := ⟨number, other, log, some (LogKind.ofLog log)⟩
      match more with
      | 0 => ([attempt], none)
      | more + 1 =>
        let rest := judge verdict bytes more (number + 1) other.alternate
        (attempt :: rest.1, rest.2)

variable {compiler : Compiler σ} {verdict : Verdict} {w : Workspace} {folder : Place}
  {bytes : ByteArray}

theorem compileOnce_judged (hgoes : compiler.GoesBy verdict) (engine : TexEngine)
    {s : Surroundings σ} (hs : s.files.HoldsFiles w.folder folder)
    (hsource : s.files.read w.source = .ok bytes) :
    match compileOnce compiler engine w.source w.folder s with
    | (.ok document, s') => s'.files.HoldsFiles w.folder folder ∧
      (∃ name, '/' ∉ name.toList ∧ document.path = w.file (name ++ ".pdf")) ∧
      verdict engine bytes = .ok document.bytes ∧ document.engine = engine ∧
      s'.files.read document.path = .ok document.bytes
    | (.error failure, s') => s'.files.HoldsFiles w.folder folder ∧
      s'.files.read w.source = .ok bytes ∧
      ∀ number, verdict engine bytes =
        .error (failure.engine, (record number failure s'.files).log) := by
  have hanswer := hgoes.answers engine w folder bytes s hs hsource
  rw [compileOnce, Act.bind_apply]
  generalize compiler engine w.source w.folder s = done at hanswer ⊢
  obtain ⟨failure | path, s'⟩ := done
  · obtain ⟨hfiles, hkept, hverdict⟩ := hanswer
    rw [readLog_apply] at hverdict
    exact ⟨hfiles, hkept, fun _ => hverdict⟩
  · obtain ⟨hfiles, hname, document, hverdict, hread⟩ := hanswer
    dsimp only
    rw [Act.bind_apply, Act.read_apply, hread]
    exact ⟨hfiles, hname, hverdict, rfl, hread⟩

/-- The induction is on the course; the time that was spent does not end it. -/
theorem Course.judged {policy : RetryPolicy} {started : Duration} {more number : Nat}
    {engine : TexEngine} {s : Surroundings σ} {starts : List (TexEngine × Surroundings σ)}
    {made : Attempts × Surroundings σ}
    (h : Course compiler policy w.source w.folder started more number engine s starts made)
    (hgoes : compiler.GoesBy verdict) (hbudget : policy.budget = none)
    (hs : s.files.HoldsFiles w.folder folder) (hsource : s.files.read w.source = .ok bytes) :
    made.2.files.HoldsFiles w.folder folder ∧
      made.1.list = (judge verdict bytes more number engine).1 ∧
      match made.1.document with
      | none => (judge verdict bytes more number engine).2 = none
      | some document =>
        (judge verdict bytes more number engine).2 = some (document.bytes, document.engine) ∧
          (∃ name, '/' ∉ name.toList ∧ document.path = w.file (name ++ ".pdf")) ∧
          made.2.files.read document.path = .ok document.bytes := by
  have hallows : ∀ spent delay, policy.allows spent delay = true := fun spent delay => by
    simp [RetryPolicy.allows, hbudget]
  induction h with
  | @found more number engine s s' document hc =>
    have honce := compileOnce_judged hgoes engine hs hsource
    rw [hc] at honce
    obtain ⟨hfiles, hname, hverdict, hengine, hread⟩ := honce
    rw [judge, hverdict, ← hengine]
    exact ⟨hfiles, rfl, rfl, hname, hread⟩
  | @gaveUp more number engine s s' failure hc hstop =>
    have honce := compileOnce_judged hgoes engine hs hsource
    rw [hc] at honce
    obtain ⟨hfiles, -, hverdict⟩ := honce
    obtain rfl := hstop.resolve_right (by simp [hallows])
    rw [judge, hverdict number]
    exact ⟨hfiles, rfl, rfl⟩
  | @retried more number engine s s' failure starts made hc _ _ ih =>
    have honce := compileOnce_judged hgoes engine hs hsource
    rw [hc] at honce
    obtain ⟨hfiles, hkept, hverdict⟩ := honce
    obtain ⟨hlast, hlist, hdocument⟩ := ih hfiles hkept
    rw [judge, hverdict number]
    dsimp only
    refine ⟨hlast, ?_, hdocument⟩
    rw [Attempts.after, hlist]
    rfl

/-- Whether a log is kept is told by what stands in the way of its folder and by the length of its
name. -/
theorem keepLog_foreseen {base : Path} {root : Place} {names : List String} {s : Surroundings σ}
    (h : s.files.HasFolder base root names) (hproper : ∀ name ∈ names, Path.IsProper name)
    (hshort : ∀ name ∈ names, name.utf8ByteSize ≤ 255) {tag : String}
    (hname : Path.IsProper (tag ++ ".log"))
    (hfree : s.files.folderAt (root ++ names ++ [tag ++ ".log"]) = false) (log : String) :
    (keepLog (base.below names) tag log s).1 =
      if (s.files.wayFault? base root names).isSome || (base.below names).overlong (tag ++ ".log")
      then none else some ((base.below names).join (tag ++ ".log")) := by
  obtain ⟨hmade, hready⟩ := h.makeFolders_result h.nonempty hproper hshort s.now
  have hgrown := makeFolders_grown h.isRooted s.now (base.below names)
  have hchanges : Changes (fun _ => False) (fun _ => False) (OnWay root names) s.files
      (s.files.makeFolders s.now (base.below names)).2 :=
    h.makeFolders_changes h.nonempty hshort s.now
  rw [keepLog, Act.bind_apply, Act.makeFolders_apply]
  generalize s.files.makeFolders s.now (base.below names) = made at *
  obtain ⟨result, files⟩ := made
  cases hfault : s.files.wayFault? base root names with
  | some e =>
    rw [hfault] at hmade
    cases hmade
    rfl
  | none =>
    rw [hfault] at hmade
    cases hmade
    have hstillFree : files.folderAt (root ++ names ++ [tag ++ ".log"]) = false := by
      rcases hchanges.folders (root ++ names ++ [tag ++ ".log"]) id with hsame | ⟨honWay, -⟩
      · rw [hsame, hfree]
      · exact absurd honWay (InFolder.not_onWay ⟨_, rfl⟩)
    dsimp only
    rw [Act.bind_apply, Act.write_apply]
    rcases (h.of_grown hgrown).write_cases hproper hshort (hready hfault) hname hstillFree s.now
      (Text.encode log) with ⟨hlong, hwrite⟩ | ⟨hlong, written, hwrite, -⟩ <;>
      rw [hwrite, hlong] <;> rfl

end Attempts

end ResumePress
