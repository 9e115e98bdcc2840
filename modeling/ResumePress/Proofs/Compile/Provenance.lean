import ResumePress.Compile.Retry
import ResumePress.Proofs.Surroundings

/-!
Where a document comes from. The runs of programs are written down with the files before and after
them. The compiler of the system asks for a document in the end and does not remove one that is
there in the beginning, so a run that succeeds without writing has an old document returned.
-/

namespace ResumePress

open Files

/-- A run of a program, and the files before and after it. -/
structure ProgramCall where
  program : String
  arguments : List String
  before : Tree
  after : Tree

/-- Whether the run put at a path what stands there after it. -/
def ProgramCall.Made (call : ProgramCall) (path : Path) : Prop :=
  (call.after.stat path).isOk = true ∧ call.before.stat path ≠ call.after.stat path

variable {σ : Type}

def ProgramCall.IsOf (programs : Programs σ) (call : ProgramCall) : Prop :=
  ∃ s, call.before = s.files ∧ call.after = (programs call.program call.arguments s).2.files

/-- The programs, with every run written down. -/
def Programs.watched (programs : Programs σ) : Programs (σ × List ProgramCall) :=
  fun program arguments s =>
    let done := programs program arguments (s.withTools s.tools.1)
    (done.1, done.2.withTools
      (done.2.tools, s.tools.2 ++ [⟨program, arguments, s.files, done.2.files⟩]))

/-- Programs that leave everything as it is and end well. -/
def Programs.idle : Programs σ :=
  fun _ _ => return .ended (some 0) .empty .empty

/-- Runs that lead from one tree to another, each starting where the one before it ended. -/
inductive Linked : Tree → List ProgramCall → Tree → Prop where
  | nil (files : Tree) : Linked files [] files
  | cons (call : ProgramCall) {calls : List ProgramCall} {last : Tree}
      (rest : Linked call.after calls last) : Linked call.before (call :: calls) last

namespace Linked

theorem append {files middle last : Tree} {calls later : List ProgramCall}
    (h : Linked files calls middle) (hlater : Linked middle later last) :
    Linked files (calls ++ later) last := by
  induction h with
  | nil => exact hlater
  | cons call _ ih => exact cons call (ih hlater)

/-- What stands at a path in the end was made by one of the runs or was there in the beginning. -/
theorem stat_eq_or_made {files last : Tree} {calls : List ProgramCall}
    (h : Linked files calls last) {path : Path} (hthere : (last.stat path).isOk = true) :
    files.stat path = last.stat path ∨
      ∃ call ∈ calls, call.Made path ∧ call.after.stat path = last.stat path := by
  induction h with
  | nil => exact .inl rfl
  | cons call _ ih =>
    rcases ih hthere with hkept | ⟨made, hmem, hmade⟩
    · by_cases hsame : call.before.stat path = call.after.stat path
      · exact .inl (hsame.trans hkept)
      · refine .inr ⟨call, List.mem_cons_self, ⟨?_, hsame⟩, hkept⟩
        rwa [hkept]
    · exact .inr ⟨made, List.mem_cons_of_mem _ hmem, hmade⟩

end Linked

/-- What the caller of a program is told about a run. -/
def ProgramRun.result (limit : Duration) (program : String) :
    ProgramRun → Except ProgramError ProgramOutput
  | .cannotStart cause => .error (.cannotStart program cause)
  | .hangs => .error (.timedOut program limit)
  | .ended exit stdout stderr => .ok ⟨exit, Text.decodeLossy stdout, Text.decodeLossy stderr⟩

theorem runProgram_apply (programs : Programs σ) (limit : Duration) (program : String)
    (arguments : List String) (s : Surroundings σ) :
    runProgram programs limit program arguments s =
      bif isPassable program && arguments.all isPassable then
        ((programs program arguments s).1.result limit program, (programs program arguments s).2)
      else (.error (.cannotStart program .nulInProgram), s) := by
  unfold runProgram
  cases isPassable program <;> cases arguments.all isPassable <;> try rfl
  simp only [Bool.not_true, Bool.or_self, Bool.false_eq_true, if_false, Act.bind_apply,
    Bool.and_self, cond_true]
  cases (programs program arguments s).1 <;> rfl

theorem runProgram_watched (programs : Programs σ) (limit : Duration) (program : String)
    (arguments : List String) (s : Surroundings σ) (before : List ProgramCall) :
    let done := runProgram programs limit program arguments s
    ∃ calls, runProgram programs.watched limit program arguments (s.withTools (s.tools, before)) =
        (done.1, done.2.withTools (done.2.tools, before ++ calls)) ∧
      Linked s.files calls done.2.files ∧ ∀ call ∈ calls, call.IsOf programs := by
  simp only [runProgram_apply]
  cases isPassable program && arguments.all isPassable with
  | false => exact ⟨[], by simp, .nil _, by simp⟩
  | true =>
    refine ⟨_, rfl, .cons ⟨program, arguments, s.files, (programs program arguments s).2.files⟩
      (.nil _), ?_⟩
    simpa using ⟨s, rfl, rfl⟩

namespace SystemCompiler

variable (c : SystemCompiler) (programs : Programs σ) (engine : TexEngine) (source folder : Path)

theorem runPasses_succ_apply (passes : Nat) (s : Surroundings σ) :
    c.runPasses programs engine source folder (passes + 1) s =
      match runProgram programs c.limit (c.program engine) (arguments source folder) s with
      | (.error e, s) => (.error ⟨engine, e.message, none⟩, s)
      | (.ok out, s) =>
        bif out.success then c.runPasses programs engine source folder passes s
        else (.error ⟨engine, "exited with " ++ exitText out.exit,
          some (sibling source folder "log")⟩, s) := by
  rw [runPasses.eq_def]
  simp only [Act.bind_apply]
  rcases runProgram programs c.limit (c.program engine) (arguments source folder) s
    with ⟨e | out, s⟩
  · rfl
  · change (ite (out.success = true) _ _ : Act σ _) s = bif out.success then _ else _
    cases out.success <;> rfl

theorem runPasses_watched (passes : Nat) (s : Surroundings σ) (before : List ProgramCall) :
    let done := c.runPasses programs engine source folder passes s
    ∃ calls, c.runPasses programs.watched engine source folder passes
        (s.withTools (s.tools, before)) =
        (done.1, done.2.withTools (done.2.tools, before ++ calls)) ∧
      Linked s.files calls done.2.files ∧ ∀ call ∈ calls, call.IsOf programs := by
  induction passes generalizing s before with
  | zero => exact ⟨[], by simp [runPasses], .nil _, by simp⟩
  | succ passes ih =>
    obtain ⟨first, hrun, hlinked, hof⟩ := runProgram_watched programs c.limit (c.program engine)
      (arguments source folder) s before
    simp only [runPasses_succ_apply, hrun]
    rcases hdone : runProgram programs c.limit (c.program engine) (arguments source folder) s
      with ⟨e | out, s₁⟩ <;> rw [hdone] at hlinked
    · exact ⟨first, rfl, hlinked, hof⟩
    · dsimp only
      cases out.success with
      | false => exact ⟨first, rfl, hlinked, hof⟩
      | true =>
        obtain ⟨rest, hrest, hlater, hrestOf⟩ := ih s₁ (before ++ first)
        refine ⟨first ++ rest, ?_, hlinked.append hlater, ?_⟩
        · simp [hrest]
        · intro call hmem
          exact (List.mem_append.1 hmem).elim (hof call) (hrestOf call)

theorem passable_of_runPasses {passes : Nat} {s : Surroundings σ}
    (h : (c.runPasses programs engine source folder (passes + 1) s).1 = .ok ()) :
    (isPassable (c.program engine) && (arguments source folder).all isPassable) = true := by
  rw [runPasses_succ_apply, runProgram_apply] at h
  cases hpassable : isPassable (c.program engine) && (arguments source folder).all isPassable with
  | true => rfl
  | false =>
    rw [hpassable] at h
    cases h

theorem runPasses_idle (hpassable :
    (isPassable (c.program engine) && (arguments source folder).all isPassable) = true)
    (passes : Nat) (s : Surroundings σ) :
    c.runPasses Programs.idle engine source folder passes s = (.ok (), s) := by
  induction passes with
  | zero => rfl
  | succ passes ih =>
    rw [runPasses_succ_apply, runProgram_apply, hpassable]
    exact ih

/-- What the compiler answers when its runs are over. -/
def answer (ran : Except CompileFailure Unit) (files : Tree) : Except CompileFailure Path :=
  match ran with
  | .error failure => .error failure
  | .ok () =>
    bif (files.stat (sibling source folder "pdf")).isOk then .ok (sibling source folder "pdf")
    else .error ⟨engine, "no document produced at " ++ (sibling source folder "pdf").text,
      some (sibling source folder "log")⟩

/-- The surroundings once the old log is gone. -/
def cleared (s : Surroundings σ) : Surroundings σ :=
  (Act.removeFile (sibling source folder "log") s).2

/-- The runs of the program in a call of the compiler. -/
def ran (s : Surroundings σ) : Except CompileFailure Unit × Surroundings σ :=
  c.runPasses programs engine source folder (max c.passes 1) (cleared source folder s)

theorem compiler_apply (s : Surroundings σ) :
    c.compiler programs engine source folder s =
      (answer engine source folder (c.ran programs engine source folder s).1
          (c.ran programs engine source folder s).2.files,
        (c.ran programs engine source folder s).2) := by
  simp only [compiler, Act.bind_apply]
  rw [← cleared, ← ran]
  rcases c.ran programs engine source folder s with ⟨failure | _, s⟩
  · rfl
  · simp only [Act.bind_apply, answer]
    rw [Act.isThere_apply]
    cases (s.files.stat (sibling source folder "pdf")).isOk <;> rfl

theorem answer_eq_ok {ran : Except CompileFailure Unit} {files : Tree} {path : Path}
    (h : answer engine source folder ran files = .ok path) :
    ran = .ok () ∧ path = sibling source folder "pdf" ∧ (files.stat path).isOk = true := by
  unfold answer at h
  split at h
  · cases h
  · cases hthere : (files.stat (sibling source folder "pdf")).isOk with
    | false =>
      rw [hthere] at h
      cases h
    | true =>
      rw [hthere] at h
      cases h
      exact ⟨rfl, rfl, hthere⟩

/-- The runs of programs in a call of the compiler. -/
def calls (s : Surroundings σ) : List ProgramCall :=
  (c.compiler programs.watched engine source folder (s.withTools (s.tools, []))).2.tools.2

theorem cleared_withTools (s : Surroundings σ) (before : List ProgramCall) :
    cleared source folder (s.withTools (s.tools, before)) =
      (cleared source folder s).withTools ((cleared source folder s).tools, before) := by
  have hremoved := Act.Agree.change (τ := σ × List ProgramCall)
    (·.removeFile · (sibling source folder "log")) s (s.tools, before)
  unfold cleared Act.removeFile
  rw [hremoved.1]
  simp only [hremoved.2]

theorem compiler_watched (s : Surroundings σ) :
    c.compiler programs.watched engine source folder (s.withTools (s.tools, [])) =
        ((c.compiler programs engine source folder s).1,
          (c.compiler programs engine source folder s).2.withTools
            ((c.compiler programs engine source folder s).2.tools,
              c.calls programs engine source folder s)) ∧
      Linked (cleared source folder s).files (c.calls programs engine source folder s)
        (c.compiler programs engine source folder s).2.files ∧
      ∀ call ∈ c.calls programs engine source folder s, call.IsOf programs := by
  obtain ⟨calls, hrun, hlinked, hof⟩ := c.runPasses_watched programs engine source folder
    (max c.passes 1) (cleared source folder s) []
  rw [← cleared_withTools, ← ran, ← ran, List.nil_append] at hrun
  rw [← ran] at hlinked
  have hcalls : c.calls programs engine source folder s = calls := by
    rw [SystemCompiler.calls, compiler_apply, hrun]
    rfl
  rw [hcalls, compiler_apply, compiler_apply, hrun]
  exact ⟨rfl, hlinked, hof⟩

/-- A call of the compiler that leaves it to the programs what they do returns only documents that
one of its runs made, exactly if no document is there once the old log is gone, or no program can be
run at all. -/
theorem document_made_iff (s : Surroundings σ) :
    (∀ (programs : Programs σ) (path : Path),
        (c.compiler programs engine source folder s).1 = .ok path →
        ∃ call ∈ c.calls programs engine source folder s, call.Made path ∧
          call.after.stat path =
            (c.compiler programs engine source folder s).2.files.stat path) ↔
      ((isPassable (c.program engine) && (arguments source folder).all isPassable) = true →
        ((cleared source folder s).files.stat (sibling source folder "pdf")).isOk = false) := by
  constructor
  · intro hmade hpassable
    cases hthere : ((cleared source folder s).files.stat (sibling source folder "pdf")).isOk with
    | false => rfl
    | true =>
      have hran : c.ran Programs.idle engine source folder s = (.ok (), cleared source folder s) :=
        c.runPasses_idle engine source folder hpassable _ _
      have hidle : (c.compiler Programs.idle engine source folder s).1 =
          .ok (sibling source folder "pdf") := by
        rw [compiler_apply, hran]
        simp only [answer, hthere, cond_true]
      obtain ⟨call, hmem, ⟨-, hchanged⟩, -⟩ := hmade Programs.idle _ hidle
      obtain ⟨s₁, hbefore, hafter⟩ :=
        (c.compiler_watched Programs.idle engine source folder s).2.2 call hmem
      refine absurd ?_ hchanged
      rw [hbefore, hafter]
      rfl
  · intro hnone programs path hok
    obtain ⟨-, hlinked, -⟩ := c.compiler_watched programs engine source folder s
    rw [compiler_apply] at hok hlinked ⊢
    obtain ⟨hran, hpath, hthere⟩ := answer_eq_ok engine source folder hok
    rcases hlinked.stat_eq_or_made hthere with hkept | hmade
    · obtain ⟨passes, hpasses⟩ : ∃ passes, max c.passes 1 = passes + 1 :=
        ⟨max c.passes 1 - 1, by omega⟩
      rw [ran, hpasses] at hran
      have hold := hnone (c.passable_of_runPasses programs engine source folder hran)
      rw [← hpath, hkept, hthere] at hold
      cases hold
    · exact hmade

end SystemCompiler

/-- Programs of which one leaves half a document and fails, and any other does nothing and ends
well. -/
def Programs.half (failing : String) (document : Path) : Programs Unit := fun program _ => do
  if program = failing then
    let _ ← Act.write document (Text.encode "half")
    return .ended (some 1) .empty .empty
  else return .ended (some 0) .empty .empty

-- One call returns what was there before it, and with retries the document of a failed attempt is
-- returned as one of the other engine.
theorem compiler_returns_old_document :
    (let c := SystemCompiler.standard 60
     let s := (Act.write ⟨"/run/cv.pdf"⟩ (Text.encode "old") Surroundings.bare).2
     (c.compiler Programs.idle .xelatex ⟨"/run/cv.tex"⟩ ⟨"/run"⟩ s).1.toOption =
        some ⟨"/run/cv.pdf"⟩ ∧
      ∀ call ∈ c.calls Programs.idle .xelatex ⟨"/run/cv.tex"⟩ ⟨"/run"⟩ s,
        ¬call.Made ⟨"/run/cv.pdf"⟩) ∧
    (let c := SystemCompiler.standard 60
     let programs := Programs.half (c.program .xelatex) ⟨"/run/cv.pdf"⟩
     let retrying : RetryingCompiler Unit := ⟨c.compiler programs, .standard 0, ⟨"/logs"⟩⟩
     (retrying.compile ⟨"/run/cv.tex"⟩ ⟨"/run"⟩ "cv" .bare).1.toOption.map
        (fun d => (d.path, d.engine, d.bytes.toList)) =
      some (⟨"/run/cv.pdf"⟩, .pdflatex, (Text.encode "half").toList)) := by
  refine ⟨⟨by decide +kernel, ?_⟩, by decide +kernel⟩
  intro call hmem hmade
  obtain ⟨-, -, hof⟩ := SystemCompiler.compiler_watched (.standard 60) Programs.idle .xelatex
    ⟨"/run/cv.tex"⟩ ⟨"/run"⟩ (Act.write ⟨"/run/cv.pdf"⟩ (Text.encode "old") Surroundings.bare).2
  obtain ⟨s, hbefore, hafter⟩ := hof call hmem
  refine hmade.2 ?_
  rw [hbefore, hafter]
  rfl

end ResumePress
