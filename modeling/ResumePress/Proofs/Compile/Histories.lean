import ResumePress.Proofs.Compile.Logs

/-!
The history of a compilation. Every attempt is the record of a call: one that made a document leaves
its engine alone, and one that made none leaves the engine the failure names, the log and its kind.
The attempts of a compilation are the records of its calls, in order, and what comes out of it is
told by the last of them.
-/

namespace ResumePress

open Files

variable {σ : Type}

/-- The record of a call. -/
def Call.attempt (number : Nat) (call : Call) : Attempt :=
  match call.document? with
  | some _ => ⟨number, call.asked, "", none⟩
  | none => ⟨number, call.named, call.logText, some (.ofLog call.logText)⟩

theorem Call.attempt_of_some {call : Call} {bytes : ByteArray} (h : call.document? = some bytes)
    (number : Nat) : call.attempt number = ⟨number, call.asked, "", none⟩ := by
  rw [attempt, h]

theorem Call.attempt_of_none {call : Call} (h : call.document? = none) (number : Nat) :
    call.attempt number =
      ⟨number, call.named, call.logText, some (.ofLog call.logText)⟩ := by
  rw [attempt, h]

namespace Attempts

section
variable {compiler : Compiler σ} {engine : TexEngine} {source folder : Path} {s s' : Surroundings σ}

/-- An attempt that makes a document has it from its call. -/
theorem compileOnce_ok {document : Compiled}
    (h : compileOnce compiler engine source folder s = (.ok document, s')) :
    (Call.ofRun compiler engine source folder s).answer = .ok document.path ∧
      (Call.ofRun compiler engine source folder s).files.read document.path = .ok document.bytes ∧
      document.engine = engine := by
  simp only [compileOnce, Act.bind_apply] at h
  unfold Call.ofRun
  cases hanswer : (compiler engine source folder s).1 with
  | error failure =>
    rw [hanswer] at h
    cases h
  | ok path =>
    rw [hanswer] at h
    simp only [Act.bind_apply, Act.read_apply] at h
    cases hread : (compiler engine source folder s).2.files.read path with
    | error e =>
      rw [hread] at h
      cases h
    | ok bytes =>
      rw [hread] at h
      cases h
      exact ⟨rfl, hread, rfl⟩

/-- The record of an attempt that fails is that of its call. -/
theorem record_eq_attempt {failure : CompileFailure}
    (h : compileOnce compiler engine source folder s = (.error failure, s')) (number : Nat) :
    record number failure s'.files = (Call.ofRun compiler engine source folder s).attempt number := by
  have hresult := compileOnce_result compiler engine source folder s
  rw [h] at hresult
  obtain ⟨hnone, hnamed⟩ := hresult
  have hfailed := failed_apply number failure s'
  simp only [failed, Act.bind_apply, (readLog_compileOnce compiler source folder h).2] at hfailed
  rw [Call.attempt_of_none hnone, hnamed]
  exact (congrArg Prod.fst hfailed).symm

end

variable {compiler : Compiler σ} {policy : RetryPolicy} {source folder : Path} {started : Duration}
  {more number : Nat} {engine : TexEngine} {s : Surroundings σ}
  {starts : List (TexEngine × Surroundings σ)} {made : Attempts × Surroundings σ}

/-- The attempts of a course are the records of its calls. -/
theorem Course.list_eq
    (h : Course compiler policy source folder started more number engine s starts made) :
    made.1.list = (starts.map fun start =>
      Call.ofRun compiler start.1 source folder start.2).mapIdx
        fun k call => call.attempt (number + k) := by
  induction h with
  | @found more number engine s s' document hc =>
    have hresult := compileOnce_result compiler engine source folder s
    rw [hc] at hresult
    simp only [List.map_cons, List.map_nil, List.mapIdx_singleton]
    rw [Call.attempt_of_some hresult]
    rfl
  | @gaveUp more number engine s s' failure hc _ => simp [record_eq_attempt hc]
  | @retried more number engine s s' failure starts made hc _ _ ih =>
    simp [after, ih, record_eq_attempt hc, List.mapIdx_cons, Nat.add_assoc, Nat.add_comm 1]

/-- The document of a course is what its last call returned. -/
theorem Course.document_eq
    (h : Course compiler policy source folder started more number engine s starts made) :
    ∀ document ∈ made.1.document, ∃ call,
      (starts.map fun start => Call.ofRun compiler start.1 source folder start.2).getLast? =
        some call ∧ call.answer = .ok document.path ∧
      call.files.read document.path = .ok document.bytes ∧ document.engine = call.asked := by
  induction h with
  | found hc =>
    rintro _ ⟨⟩
    exact ⟨_, rfl, compileOnce_ok hc⟩
  | gaveUp => nofun
  | retried _ _ _ ih =>
    intro document hdocument
    obtain ⟨call, hlast, hcall⟩ := ih document hdocument
    exact ⟨call, by rw [List.map_cons, List.getLast?_cons, hlast]; rfl, hcall⟩

/-- What is kept of a log stands where the tag says; nothing is kept if the folder cannot be made or
the file cannot be written. -/
theorem keepLog_cases (folder : Path) (tag log : String) (s : Surroundings σ) :
    let made := s.files.makeFolders s.now folder
    let written := made.2.write s.now (folder.join (tag ++ ".log")) (Text.encode log)
    match (keepLog folder tag log s).1 with
    | some path => path = folder.join (tag ++ ".log") ∧
        (keepLog folder tag log s).2.files.read path = .ok (Text.encode log)
    | none => (∃ e, made.1 = .error e) ∨ ∃ e, written = .error e := by
  intro made written
  simp only [keepLog, Act.bind_apply, Act.makeFolders_apply]
  cases made.1 with
  | error e => exact .inl ⟨e, rfl⟩
  | ok _ =>
    simp only [Act.bind_apply, Act.write_apply]
    cases hwritten : written with
    | error e =>
      rw [show made.2.write _ _ _ = _ from hwritten]
      exact .inr ⟨e, rfl⟩
    | ok files =>
      rw [show made.2.write _ _ _ = _ from hwritten]
      exact ⟨rfl, Tree.read_write hwritten⟩

end Attempts

/-- The attempts of a compilation are the records of its calls, numbered from one, and what comes out
of it is told by the last one. -/
theorem RetryingCompiler.attempts_tell (c : RetryingCompiler σ) (source folder : Path) (tag : String)
    (s : Surroundings σ) :
    let made := c.compile source folder tag s
    let tried := c.attempts source folder s
    ∃ (failed : List Call) (last : Call),
      c.watched.compile source folder tag (s.withTools (s.tools, [])) =
        (made.1, made.2.withTools (made.2.tools, failed ++ [last])) ∧
      (∀ call ∈ failed ++ [last], call.IsOf c.compiler source folder) ∧
      (∀ call ∈ failed, call.document? = none) ∧
      tried.1.list = (failed ++ [last]).mapIdx (fun k call => call.attempt (k + 1)) ∧
      match made.1 with
      | .ok document =>
        document.attempts = tried.1.list ∧ last.answer = .ok document.path ∧
          last.files.read document.path = .ok document.bytes ∧ document.engine = last.asked ∧
          tried.1.list.getLast? = some ⟨failed.length + 1, document.engine, "", none⟩
      | .error e =>
        last.document? = none ∧ e.attempts = failed.length + 1 ∧
          ∃ attempt, tried.1.list.getLast? = some attempt ∧ e.kind = .ofLog attempt.log ∧
            let made' := tried.2.files.makeFolders tried.2.now c.logFolder
            let kept := c.logFolder.join (tag ++ ".log")
            match e.log with
            | some path => path = kept ∧ made.2.files.read path = .ok (Text.encode attempt.log)
            | none => (∃ fault, made'.1 = .error fault) ∨
                ∃ fault, made'.2.write tried.2.now kept (Text.encode attempt.log) = .error fault := by
  obtain ⟨starts, hcourse⟩ := Attempts.run_course c.compiler c.policy source folder s.waited
    (c.policy.bound - 1) 1 .primary s
  have hwatched := c.compile_noting c.compiler.watched source folder tag s
    (hcourse.run_noting (Call.ofRun c.compiler) [])
  have htrail := hcourse.trail
  have hlist := hcourse.list_eq
  have hdocument := hcourse.document_eq
  rw [List.nil_append] at hwatched
  simp only [Nat.add_comm 1] at hlist
  generalize (starts.map fun start => Call.ofRun c.compiler start.1 source folder start.2) = calls
    at hwatched htrail hlist hdocument
  obtain ⟨failed, last, rfl⟩ := (List.eq_nil_or_concat' calls).resolve_left htrail.ne_nil
  have hfailed : ∀ call ∈ failed, call.document? = none := by simpa using htrail.dropLast
  have hresult := htrail.getLast?
  have hlast : (c.attempts source folder s).1.list.getLast? =
      some (last.attempt (failed.length + 1)) := by
    rw [show (c.attempts source folder s).1.list = _ from hlist]
    simp
  refine ⟨failed, last, hwatched, htrail.isOf, hfailed, hlist, ?_⟩
  have hmade := c.compile_apply source folder tag s
  have hattempts : c.attempts source folder s = Attempts.run c.compiler c.policy source folder
    s.waited (c.policy.bound - 1) 1 .primary s := rfl
  rw [hattempts] at hlast ⊢
  revert hdocument hlist hresult hlast hmade
  rcases Attempts.run c.compiler c.policy source folder s.waited (c.policy.bound - 1) 1 .primary s
    with ⟨⟨list, _ | document⟩, s'⟩ <;>
    intro hlist hdocument hresult hlast hmade <;> dsimp only at *
  · have hnone : last.document? = none := by simpa using hresult
    rw [Call.attempt_of_none hnone] at hlast
    have hlastLog : lastLog list = (.ofLog last.logText, last.logText) := by
      simp only [lastLog, hlast, Option.getD_some]
    rw [hlastLog] at hmade
    rw [hmade]
    have hkept := Attempts.keepLog_cases c.logFolder tag last.logText s'
    exact ⟨hnone, by simp [hlist], _, hlast, rfl, hkept⟩
  · obtain ⟨call, hcall, hanswer, hread, hengine⟩ := hdocument document rfl
    obtain rfl : last = call := by simpa using hcall
    have hbytes : last.document? = some document.bytes := by simpa using hresult
    rw [Call.attempt_of_some hbytes, ← hengine] at hlast
    rw [hmade]
    exact ⟨rfl, hanswer, hread, hengine, hlast⟩

end ResumePress
