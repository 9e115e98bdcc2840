import ResumePress.Config.Basic

/-!
The numbers of an environment. A numeral is a row of decimal digits, with a plus sign in front or
without one, whose value fits into 64 bits; exactly the numerals are read, and each as its value. A
variable gives the value of the numeral in it, or a default if it is not set.
-/

namespace ResumePress.Config

/-- A text writes a number of 64 bits in decimal. -/
def IsNumeral (s : List Char) (n : Nat) : Prop :=
  ∃ digits, (s = digits ∨ s = '+' :: digits) ∧ digits ≠ [] ∧ (∀ c ∈ digits, c.isDigit = true) ∧
    n = Nat.ofDigitChars 10 digits 0 ∧ n < UInt64.size

theorem numberBound_eq : numberBound = UInt64.size := rfl

theorem le_ofDigitChars (s : List Char) (n : Nat) : n ≤ Nat.ofDigitChars 10 s n := by
  rw [Nat.ofDigitChars_eq_ofDigitChars_zero]
  have hpow : 0 < 10 ^ s.length := Nat.pow_pos (by decide)
  have := Nat.le_mul_of_pos_left n hpow
  omega

/-- No step leaves the bound unless the number does, since further digits do not make it smaller. -/
theorem readDigits_eq_ok {s : List Char} {n m : Nat} (hn : n < UInt64.size) :
    readDigits n s = .ok m ↔
      (∀ c ∈ s, c.isDigit = true) ∧ m = Nat.ofDigitChars 10 s n ∧ m < UInt64.size := by
  induction s generalizing n with
  | nil =>
    simp only [readDigits, Except.ok.injEq, Nat.ofDigitChars_nil]
    constructor
    · rintro rfl
      exact ⟨nofun, rfl, hn⟩
    · rintro ⟨-, rfl, -⟩
      rfl
  | cons c s ih =>
    rw [readDigits, List.forall_mem_cons, Nat.ofDigitChars_cons, Nat.mul_comm 10 n, numberBound_eq]
    by_cases hc : c.isDigit = true
    · simp only [hc, Bool.not_true, Bool.false_eq_true, if_false, true_and]
      split
      · exact ih ‹_›
      · have := le_ofDigitChars s (n * 10 + (c.toNat - '0'.toNat))
        refine ⟨nofun, ?_⟩
        rintro ⟨-, rfl, hm⟩
        omega
    · simp [hc]

theorem readNumber_plus {digits : List Char} (h : digits ≠ []) :
    readNumber ('+' :: digits) = readDigits 0 digits := by
  cases digits with
  | nil => exact absurd rfl h
  | cons c digits => rfl

theorem readNumber_cons {c : Char} (h : c ≠ '+') (digits : List Char) :
    readNumber (c :: digits) = readDigits 0 (c :: digits) := by
  unfold readNumber
  split
  · cases ‹c :: digits = []›
  · exact absurd (List.cons.inj ‹c :: digits = ['+']›).1 h
  · exact absurd (List.cons.inj ‹c :: digits = '+' :: _›).1 h
  · rfl

theorem readNumber_eq_ok {s : List Char} {n : Nat} : readNumber s = .ok n ↔ IsNumeral s n := by
  have hzero : 0 < UInt64.size := by decide
  constructor
  · intro h
    rcases s with _ | ⟨c, s⟩
    · cases h
    · by_cases hc : c = '+'
      · subst hc
        have hs : s ≠ [] := by rintro rfl; cases h
        rw [readNumber_plus hs, readDigits_eq_ok hzero] at h
        exact ⟨s, .inr rfl, hs, h⟩
      · rw [readNumber_cons hc, readDigits_eq_ok hzero] at h
        exact ⟨c :: s, .inl rfl, List.cons_ne_nil _ _, h⟩
  · rintro ⟨digits, rfl | rfl, hne, h⟩
    · obtain ⟨c, digits, rfl⟩ := List.exists_cons_of_ne_nil hne
      have hc : c ≠ '+' := by
        rintro rfl
        exact absurd (h.1 '+' List.mem_cons_self) (by decide)
      rw [readNumber_cons hc, readDigits_eq_ok hzero]
      exact h
    · rw [readNumber_plus hne, readDigits_eq_ok hzero]
      exact h

namespace Environment

/-- The number that a variable stands for: the default if it is not set, else what its text writes
between blanks. -/
def Gives (env : Environment) (name : String) (fallback n : Nat) : Prop :=
  match env.get? name with
  | none => n = fallback
  | some raw => IsNumeral (Text.trim raw.toList) n

/-- A variable that is set to a text which is no number. -/
def IsMalformed (env : Environment) (name : String) : Prop :=
  ∃ raw, env.get? name = some raw ∧ ∀ n, ¬IsNumeral (Text.trim raw.toList) n

end Environment

theorem numberOr_eq_ok {env : Environment} {name : String} {fallback n : Nat} :
    numberOr env name fallback = .ok n ↔ env.Gives name fallback n := by
  unfold numberOr Environment.Gives
  cases env.get? name with
  | none => exact ⟨fun h => (Except.ok.inj h).symm, fun h => congrArg _ h.symm⟩
  | some raw =>
    dsimp only
    rw [← readNumber_eq_ok]
    cases readNumber (Text.trim raw.toList) with
    | ok m => simp
    | error e => simp

theorem Environment.Gives.lt {env : Environment} {name : String} {fallback n : Nat}
    (h : env.Gives name fallback n) (hfallback : fallback < UInt64.size) : n < UInt64.size := by
  unfold Gives at h
  split at h
  · rwa [h]
  · obtain ⟨digits, -, -, -, -, hn⟩ := h
    exact hn

theorem Environment.Gives.eq {env : Environment} {name : String} {fallback n m : Nat}
    (hn : env.Gives name fallback n) (hm : env.Gives name fallback m) : n = m :=
  Except.ok.inj ((numberOr_eq_ok.2 hn).symm.trans (numberOr_eq_ok.2 hm))

theorem hoursOr_eq_ok {env : Environment} {name : String} {fallback : Nat} {d : Duration} :
    hoursOr env name fallback = .ok d ↔ ∃ hours, env.Gives name fallback hours ∧
      hours * 3600 < UInt64.size ∧ d = .ofSecs (hours * 3600) := by
  simp only [← numberOr_eq_ok]
  unfold hoursOr
  cases numberOr env name fallback with
  | error e => simp
  | ok hours =>
    simp only [Except.ok.injEq, exists_eq_left', ← numberBound_eq]
    by_cases hfit : hours * 3600 < numberBound
    · rw [if_pos hfit, Except.ok.injEq, eq_comm]
      exact ⟨fun h => ⟨hfit, h⟩, And.right⟩
    · rw [if_neg hfit]
      exact ⟨nofun, fun h => absurd h.1 hfit⟩

/-- A variable gives a number exactly if it is not malformed. -/
theorem exists_gives_iff {env : Environment} {name : String} (fallback : Nat) :
    (∃ n, env.Gives name fallback n) ↔ ¬env.IsMalformed name := by
  unfold Environment.Gives Environment.IsMalformed
  cases env.get? name with
  | none => simp
  | some raw => simp

end ResumePress.Config
