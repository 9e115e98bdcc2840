import ResumePress.Proofs.Compile.Calls

/-!
The numbers in a compilation. The attempts are numbered without a gap, and one that is followed by
another has a number below the bound of the policy. So counters that hold the bound hold all numbers.
-/

namespace ResumePress

open Files

variable {σ : Type}

namespace Attempts

variable {compiler : Compiler σ} {policy : RetryPolicy} {source folder : Path} {started : Duration}
  {more number : Nat} {engine : TexEngine} {s : Surroundings σ}
  {starts : List (TexEngine × Surroundings σ)} {made : Attempts × Surroundings σ}

theorem Course.numbers
    (h : Course compiler policy source folder started more number engine s starts made) :
    made.1.list.map Attempt.number = List.range' number made.1.list.length := by
  induction h with
  | found | gaveUp => rfl
  | retried _ _ _ ih => simp [after, record, ih, List.range'_succ]

theorem Course.length_le
    (h : Course compiler policy source folder started more number engine s starts made) :
    made.1.list.length ≤ more + 1 := by
  induction h with
  | found | gaveUp => simp
  | retried _ _ _ ih => simpa [after] using ih

end Attempts

namespace RetryingCompiler

variable (c : RetryingCompiler σ) (source folder : Path) (s : Surroundings σ)

theorem attempts_numbers :
    (c.attempts source folder s).1.list.map Attempt.number =
      List.range' 1 (c.attempts source folder s).1.list.length := by
  obtain ⟨starts, hcourse⟩ := Attempts.run_course c.compiler c.policy source folder s.waited
    (c.policy.bound - 1) 1 .primary s
  exact hcourse.numbers

theorem length_attempts_le :
    (c.attempts source folder s).1.list.length ≤ c.policy.bound := by
  obtain ⟨starts, hcourse⟩ := Attempts.run_course c.compiler c.policy source folder s.waited
    (c.policy.bound - 1) 1 .primary s
  have hlength := hcourse.length_le
  have hbound : 1 ≤ c.policy.bound := Nat.le_max_right _ _
  rw [Nat.sub_add_cancel hbound] at hlength
  exact hlength

theorem number_le_bound {attempt : Attempt}
    (h : attempt ∈ (c.attempts source folder s).1.list) : attempt.number ≤ c.policy.bound := by
  have hnumber : attempt.number ∈ (c.attempts source folder s).1.list.map Attempt.number :=
    List.mem_map_of_mem h
  rw [attempts_numbers, List.mem_range'_1] at hnumber
  have := length_attempts_le c source folder s
  omega

/-- An attempt that another one follows leaves room for its number. -/
theorem number_lt_bound {attempt : Attempt}
    (h : attempt ∈ (c.attempts source folder s).1.list.dropLast) :
    attempt.number < c.policy.bound := by
  have hnumbers := attempts_numbers c source folder s
  have hbound := length_attempts_le c source folder s
  generalize (c.attempts source folder s).1.list = list at h hnumbers hbound
  rcases List.eq_nil_or_concat list with rfl | ⟨before, last, rfl⟩
  · cases h
  · rw [List.concat_eq_append] at h hnumbers hbound
    rw [List.dropLast_concat] at h
    rw [List.map_append, List.length_append, List.length_singleton, List.range'_1_concat] at hnumbers
    have hbefore := (List.append_inj hnumbers (by simp)).1
    have hnumber : attempt.number ∈ before.map Attempt.number := List.mem_map_of_mem h
    rw [hbefore, List.mem_range'_1] at hnumber
    rw [List.length_append, List.length_singleton] at hbound
    omega

/-- A compilation without a document reports how many attempts were made. -/
theorem attempts_of_compile {tag : String} {e : Exhaustion}
    (h : (c.compile source folder tag s).1 = .error e) :
    e.attempts = (c.attempts source folder s).1.list.length := by
  have hattempts : c.attempts source folder s = Attempts.run c.compiler c.policy source folder
    s.waited (c.policy.bound - 1) 1 .primary s := rfl
  rw [compile_apply] at h
  rw [hattempts]
  revert h
  rcases Attempts.run c.compiler c.policy source folder s.waited (c.policy.bound - 1) 1 .primary s
    with ⟨⟨list, _ | document⟩, s'⟩ <;> rintro ⟨⟩
  rfl

end RetryingCompiler

end ResumePress
