import ResumePress.Proofs.Compile.Calls
import ResumePress.Proofs.Compile.Provenance
import ResumePress.Proofs.Files.Changes

/-!
Whose log an attempt is judged by. All attempts at a source have one path for the log. A call of the
compiler begins by clearing it, so what can be read there afterwards is what a run of the same call
made, and a failure that comes before there is a log names none.
-/

namespace ResumePress

open Files

variable {σ : Type}

/-- Whether a run left a log as the file of a path. -/
def ProgramCall.Logged (call : ProgramCall) (path : Path) (log : String) : Prop :=
  call.Made path ∧ ∃ bytes, call.after.read path = .ok bytes ∧ Text.decode? bytes = some log

theorem Linked.logged {files last : Tree} {calls : List ProgramCall} (h : Linked files calls last)
    {path : Path} {bytes : ByteArray} {log : String} (hread : last.read path = .ok bytes)
    (hlog : Text.decode? bytes = some log) (hbefore : files.read path ≠ .ok bytes) :
    ∃ call ∈ calls, call.Logged path log := by
  have hthere : (last.stat path).isOk = true := by
    obtain ⟨place, modified, hlocate, hleaf⟩ := Tree.read_eq_ok.1 hread
    rw [Tree.stat, Tree.find_eq_ok.2 ⟨hlocate, (Tree.leaf?_eq_some.1 hleaf).1⟩]
    rfl
  have hsame : ∀ {t : Tree}, t.stat path = last.stat path → t.read path = .ok bytes := by
    intro t hstat
    rw [← hread, Tree.read, Tree.read, hstat]
  rcases h.stat_eq_or_made hthere with hkept | ⟨call, hcall, hmade, hafter⟩
  · exact absurd (hsame hkept) hbefore
  · exact ⟨call, hcall, hmade, bytes, hsame hafter, hlog⟩

/-- The log of a record is the text of the file that the failure names, if there is one. -/
theorem Attempts.record_log (number : Nat) (failure : CompileFailure) (files : Tree) :
    (record number failure files).log = Attempt.logUnavailable ∨
      ∃ path ∈ failure.log, ∃ bytes, files.read path = .ok bytes ∧
        Text.decode? bytes = some (record number failure files).log := by
  unfold record
  cases failure.log with
  | none => exact .inl rfl
  | some path =>
    cases hread : files.read path with
    | error e => exact .inl (by simp [hread, Except.toOption])
    | ok bytes =>
      cases hdecoded : Text.decode? bytes with
      | none => exact .inl (by simp [hread, hdecoded, Except.toOption])
      | some log =>
        exact .inr ⟨path, rfl, bytes, hread, by simp [hread, hdecoded, Except.toOption]⟩

namespace SystemCompiler

variable (c : SystemCompiler) (programs : Programs σ) (engine : TexEngine) (source folder : Path)

/-- In a call of the compiler no log is left from before. -/
theorem not_read_cleared (s : Surroundings σ) (bytes : ByteArray) :
    (cleared source folder s).files.read (sibling source folder "log") ≠ .ok bytes := by
  rw [cleared, Act.removeFile_apply]
  cases hremove : s.files.removeFile s.now (sibling source folder "log") with
  | error e => exact Tree.not_read_of_removeFile_error hremove bytes
  | ok files => exact Tree.not_read_of_removeFile hremove bytes

/-- A failure of the compiler names the engine that was asked, and as its log nothing or the file that
was cleared. -/
theorem failure_of_compiler {s : Surroundings σ} {failure : CompileFailure}
    (h : (c.compiler programs engine source folder s).1 = .error failure) :
    failure.engine = engine ∧ ∀ path ∈ failure.log, path = sibling source folder "log" := by
  have hpasses : ∀ passes s failure,
      (c.runPasses programs engine source folder passes s).1 = .error failure →
      failure.engine = engine ∧ ∀ path ∈ failure.log, path = sibling source folder "log" := by
    intro passes
    induction passes with
    | zero => nofun
    | succ passes ih =>
      intro s failure h
      rw [runPasses_succ_apply] at h
      rcases hrun : runProgram programs c.limit (c.program engine) (arguments source folder) s
        with ⟨e | out, s⟩ <;> rw [hrun] at h
      · cases h
        exact ⟨rfl, nofun⟩
      · cases hsuccess : out.success with
        | true =>
          simp only [hsuccess, cond_true] at h
          exact ih s failure h
        | false =>
          simp only [hsuccess, cond_false] at h
          cases h
          exact ⟨rfl, by simp⟩
  rw [compiler_apply] at h
  unfold answer at h
  dsimp only at h
  split at h
  · rename_i hran
    cases h
    exact hpasses _ _ _ hran
  · cases hthere : ((c.ran programs engine source folder s).2.files.stat
      (sibling source folder "pdf")).isOk <;> rw [hthere] at h <;> cases h
    exact ⟨rfl, by simp⟩

/-- Every run of a call is one of the program of the engine on the source. -/
theorem calls_asked (s : Surroundings σ) :
    ∀ call ∈ c.calls programs engine source folder s,
      call.program = c.program engine ∧ call.arguments = arguments source folder := by
  have hpasses : ∀ passes (s : Surroundings (σ × List ProgramCall)), ∀ call ∈
      (c.runPasses programs.watched engine source folder passes s).2.tools.2,
      call ∈ s.tools.2 ∨
        call.program = c.program engine ∧ call.arguments = arguments source folder := by
    intro passes
    induction passes with
    | zero => exact fun s call hcall => .inl hcall
    | succ passes ih =>
      intro s call hcall
      have hrun : ∀ call ∈ (runProgram programs.watched c.limit (c.program engine)
          (arguments source folder) s).2.tools.2, call ∈ s.tools.2 ∨
            call.program = c.program engine ∧ call.arguments = arguments source folder := by
        rw [runProgram_apply]
        cases isPassable (c.program engine) && (arguments source folder).all isPassable with
        | false => exact fun call hcall => .inl hcall
        | true => 
          intro call hcall
          rcases List.mem_append.1 hcall with hold | hnew
          · exact .inl hold
          · obtain rfl := List.mem_singleton.1 hnew
            exact .inr ⟨rfl, rfl⟩
      rw [runPasses_succ_apply] at hcall
      rcases hdone : runProgram programs.watched c.limit (c.program engine)
        (arguments source folder) s with ⟨e | out, s'⟩ <;> rw [hdone] at hcall hrun
      · exact hrun call hcall
      · cases hsuccess : out.success with
        | true =>
          simp only [hsuccess, cond_true] at hcall
          exact (ih s' call hcall).elim (hrun call) .inr
        | false =>
          simp only [hsuccess, cond_false] at hcall
          exact hrun call hcall
  intro call hcall
  rw [calls, compiler_apply, ran] at hcall
  refine (hpasses _ _ call hcall).resolve_left ?_
  rw [cleared_withTools]
  exact List.not_mem_nil

/-- What a record says of an attempt that ran some programs: they are runs of the engine on the source,
and the attempt made a document or is judged by the log that one of them left, if any. -/
structure Reports (attempt : Attempt) (runs : List ProgramCall) : Prop where
  isOf : ∀ call ∈ runs, call.IsOf programs
  asked : ∀ call ∈ runs,
    call.program = c.program attempt.engine ∧ call.arguments = arguments source folder
  judged : (attempt.kind = none ∧ attempt.log = "") ∨
    attempt.kind = some (.ofLog attempt.log) ∧ (attempt.log = Attempt.logUnavailable ∨
      ∃ call ∈ runs, call.Logged (sibling source folder "log") attempt.log)

variable {c programs engine source folder}

theorem reports_found (s : Surroundings σ) (number : Nat) :
    c.Reports programs source folder ⟨number, engine, "", none⟩
      (c.calls programs engine source folder s) where
  isOf := (c.compiler_watched programs engine source folder s).2.2
  asked := c.calls_asked programs engine source folder s
  judged := .inl ⟨rfl, rfl⟩

/-- A document that cannot be read has no log. -/
theorem failure_of_compileOnce {s s' : Surroundings σ} {failure : CompileFailure}
    (h : Attempts.compileOnce (c.compiler programs) engine source folder s = (.error failure, s')) :
    failure.engine = engine ∧ ∀ path ∈ failure.log, path = sibling source folder "log" := by
  simp only [Attempts.compileOnce, Act.bind_apply] at h
  cases hanswer : (c.compiler programs engine source folder s).1 with
  | error failure =>
    rw [hanswer] at h
    cases h
    exact c.failure_of_compiler programs engine source folder hanswer
  | ok path =>
    rw [hanswer] at h
    simp only [Act.bind_apply, Act.read_apply] at h
    cases hread : (c.compiler programs engine source folder s).2.files.read path with
    | error e =>
      rw [hread] at h
      cases h
      exact ⟨rfl, by simp⟩
    | ok bytes =>
      rw [hread] at h
      cases h

theorem reports_record {s s' : Surroundings σ} {failure : CompileFailure}
    (h : Attempts.compileOnce (c.compiler programs) engine source folder s = (.error failure, s'))
    (number : Nat) : c.Reports programs source folder (Attempts.record number failure s'.files)
      (c.calls programs engine source folder s) := by
  obtain ⟨hengine, hpath⟩ := failure_of_compileOnce h
  obtain ⟨-, hlinked, hof⟩ := c.compiler_watched programs engine source folder s
  have hfiles := Attempts.compileOnce_snd (c.compiler programs) engine source folder s
  rw [h] at hfiles
  rw [← hfiles] at hlinked
  refine ⟨hof, ?_, .inr ⟨rfl, ?_⟩⟩
  · have hasked := c.calls_asked programs engine source folder s
    rw [← hengine] at hasked ⊢
    exact hasked
  · refine (Attempts.record_log number failure s'.files).imp_right ?_
    rintro ⟨path, hmem, bytes, hread, hlog⟩
    obtain rfl := hpath path hmem
    exact hlinked.logged hread hlog (not_read_cleared source folder s bytes)

/-- Every record of a course is about the runs of its own call. -/
theorem reports_course {policy : RetryPolicy} {started : Duration} {more number : Nat}
    {s : Surroundings σ} {starts : List (TexEngine × Surroundings σ)}
    {made : Attempts × Surroundings σ}
    (h : Attempts.Course (c.compiler programs) policy source folder started more number engine s
      starts made) :
    List.Forall₂ (c.Reports programs source folder) made.1.list
      (starts.map fun start => c.calls programs start.1 source folder start.2) := by
  induction h with
  | found => exact .cons (reports_found _ _) .nil
  | gaveUp hc _ => exact .cons (reports_record hc _) .nil
  | retried hc _ _ ih => exact .cons (reports_record hc _) ih

end SystemCompiler

/-- With the compiler of the system no attempt is judged by the log of another one. The runs of each
attempt are written down together; a failed attempt has the log that one of its own runs left, or the
text that stands for a log that cannot be read. -/
theorem RetryingCompiler.attempts_report (c : SystemCompiler) (programs : Programs σ)
    (policy : RetryPolicy) (logFolder source folder : Path) (tag : String) (s : Surroundings σ) :
    let retrying : RetryingCompiler σ := ⟨c.compiler programs, policy, logFolder⟩
    let made := retrying.compile source folder tag s
    ∃ runs : List (List ProgramCall),
      compile ⟨(c.compiler programs).noting (c.calls programs), policy, logFolder⟩ source folder tag
          (s.withTools (s.tools, [])) =
        (made.1, made.2.withTools (made.2.tools, runs)) ∧
      List.Forall₂ (c.Reports programs source folder) (retrying.attempts source folder s).1.list
        runs := by
  intro retrying made
  obtain ⟨starts, hcourse⟩ := Attempts.run_course (c.compiler programs) policy source folder s.waited
    (policy.bound - 1) 1 .primary s
  exact ⟨_, retrying.compile_noting _ source folder tag s (hcourse.run_noting (c.calls programs) []),
    SystemCompiler.reports_course hcourse⟩

end ResumePress
