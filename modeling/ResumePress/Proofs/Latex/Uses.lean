import ResumePress.Latex.Directive

/-!
Uses of directives. What is read off a text is a use in its written form, and the written form of a
use is read wherever it stands. A text is settled if at each of its positions either a use stands or
none can come about, whatever follows; so a settled text keeps its uses, and the text behind it has
its own.
-/

namespace ResumePress.Latex

theorem upTo?_eq_some {close : Char} {s before after : List Char} :
    upTo? close s = some (before, after) ↔ s = before ++ close :: after ∧ close ∉ before := by
  constructor
  · intro h
    refine ⟨eq_of_upTo? h, ?_⟩
    induction s generalizing before with
    | nil => cases h
    | cons c s ih =>
      unfold upTo? at h
      split at h
      · cases h
        exact List.not_mem_nil
      · rename_i hc
        obtain ⟨parts, hparts, heq⟩ := Option.map_eq_some_iff.1 h
        cases heq
        exact List.not_mem_cons_of_ne_of_not_mem (Ne.symm hc) (ih hparts)
  · rintro ⟨rfl, h⟩
    induction before with
    | nil => simp [upTo?]
    | cons c before ih =>
      rw [List.mem_cons, not_or] at h
      rw [List.cons_append, upTo?, if_neg (Ne.symm h.1), ih h.2]
      rfl

theorem upTo?_append {close : Char} {s before after : List Char}
    (h : upTo? close s = some (before, after)) (rest : List Char) :
    upTo? close (s ++ rest) = some (before, after ++ rest) := by
  obtain ⟨rfl, hnot⟩ := upTo?_eq_some.1 h
  exact upTo?_eq_some.2 ⟨by simp, hnot⟩

namespace Directive

variable {d : Directive} {use : Use} {s rest : List Char} {uses : List Use}

/-- What a use of a directive can say. -/
structure IsUse (d : Directive) (use : Use) : Prop where
  takesOptions : use.options ≠ none → d.takesOptions = true
  options : ∀ o ∈ use.options, ']' ∉ o
  argument : '\x7d' ∉ use.argument
  ne_nil : d.needsArgument = true → use.argument ≠ []

namespace IsUse

/-- Other options, where there are some. -/
theorem withOptions {old new : List Char} (h : d.IsUse use) (hold : use.options = some old)
    (hnew : ']' ∉ new) : d.IsUse ⟨some new, use.argument⟩ where
  takesOptions _ := h.takesOptions (by simp [hold])
  options o ho := Option.mem_some_iff.1 ho ▸ hnew
  argument := h.argument
  ne_nil := h.ne_nil

theorem withArgument {new : List Char} (h : d.IsUse use) (hne : new ≠ []) (hnew : '\x7d' ∉ new) :
    d.IsUse ⟨use.options, new⟩ :=
  ⟨h.takesOptions, h.options, hnew, fun _ => hne⟩

end IsUse

theorem not_mem_of_readOptions? {options : Option (List Char)}
    (h : readOptions? s = some (options, rest)) : ∀ o ∈ options, ']' ∉ o := by
  unfold readOptions? at h
  split at h
  · obtain ⟨parts, hparts, heq⟩ := Option.map_eq_some_iff.1 h
    cases heq
    rintro o ⟨⟩
    exact (upTo?_eq_some.1 hparts).2
  · cases h
    nofun

theorem not_mem_of_readArgument? {argument : List Char}
    (h : readArgument? s = some (argument, rest)) : '\x7d' ∉ argument := by
  unfold readArgument? at h
  split at h
  · exact (upTo?_eq_some.1 h).2
  · cases h

theorem isUse_of_read? (h : d.read? s = some (use, rest)) : d.IsUse use := by
  unfold read? at h
  split at h
  · dsimp only at h
    split at h
    · cases h
    · rename_i options tail ho
      split at h
      · cases h
      · rename_i argument tail' ha
        split at h
        · cases h
        · rename_i hneeds
          cases h
          refine ⟨fun hsome => ?_, ?_, not_mem_of_readArgument? ha, fun hneed hnil => ?_⟩
          · cases htakes : d.takesOptions
            · rw [htakes, if_neg Bool.false_ne_true] at ho
              cases ho
              exact absurd rfl hsome
            · rfl
          · split at ho
            · exact not_mem_of_readOptions? ho
            · cases ho
              nofun
          · exact hneeds (by simp_all)
  · cases h

theorem readOptions?_bracketed {options : Option (List Char)} (h : ∀ o ∈ options, ']' ∉ o)
    (argument rest : List Char) :
    readOptions? (bracketed options ++ (braced argument ++ rest)) =
      some (options, braced argument ++ rest) := by
  cases options with
  | none => rfl
  | some o =>
    have hup : upTo? ']' (o ++ ']' :: (braced argument ++ rest)) =
        some (o, braced argument ++ rest) := upTo?_eq_some.2 ⟨rfl, h o rfl⟩
    simp [bracketed, readOptions?, hup]

theorem read?_written (h : d.IsUse use) (rest : List Char) :
    d.read? (d.written use ++ rest) = some (use, rest) := by
  have hname : d.name.isPrefixOf (d.written use ++ rest) = true := by
    simp [List.isPrefixOf_iff_prefix, written]
  have hdrop : (d.written use ++ rest).drop d.name.length =
      bracketed use.options ++ (braced use.argument ++ rest) := by
    simp [written]
  have hoptions : (if d.takesOptions then
      readOptions? (bracketed use.options ++ (braced use.argument ++ rest))
      else some (none, bracketed use.options ++ (braced use.argument ++ rest))) =
        some (use.options, braced use.argument ++ rest) := by
    cases htakes : d.takesOptions
    · have hnone : use.options = none := by
        cases hoptions : use.options with
        | none => rfl
        | some o => exact absurd (h.takesOptions (by simp [hoptions])) (by simp [htakes])
      rw [hnone]
      rfl
    · exact readOptions?_bracketed h.options _ _
  have hargument : readArgument? (braced use.argument ++ rest) = some (use.argument, rest) := by
    have hup : upTo? '\x7d' (use.argument ++ '\x7d' :: rest) = some (use.argument, rest) :=
      upTo?_eq_some.2 ⟨rfl, h.argument⟩
    simpa [braced, readArgument?] using hup
  have hneeded : (d.needsArgument && use.argument.isEmpty) = false := by
    cases hneed : d.needsArgument
    · rfl
    · simp [h.ne_nil hneed]
  unfold read?
  rw [if_pos hname, hdrop]
  dsimp only
  rw [hoptions]
  dsimp only
  rw [hargument]
  simp [hneeded]

theorem read?_eq_some :
    d.read? s = some (use, rest) ↔ d.IsUse use ∧ s = d.written use ++ rest := by
  constructor
  · intro h
    exact ⟨isUse_of_read? h, eq_of_read? h⟩
  · rintro ⟨h, rfl⟩
    exact read?_written h rest

/-! ### Scanning -/

theorem matchAt_eq_none (h : d.read? s = none) : d.pattern.matchAt s = none := by
  simp [pattern, h]

theorem matchAt_written (h : d.IsUse use) (rest : List Char) :
    d.pattern.matchAt (d.written use ++ rest) = some (d.written use, use) := by
  simp [pattern, read?_written h]

theorem matchAt_eq_some {part : List Char} : d.pattern.matchAt s = some (part, use) ↔
    d.IsUse use ∧ part = d.written use ∧ part <+: s := by
  constructor
  · intro h
    obtain ⟨⟨use', rest⟩, hread, heq⟩ := Option.map_eq_some_iff.1 h
    cases heq
    obtain ⟨huse, rfl⟩ := read?_eq_some.1 hread
    exact ⟨huse, rfl, List.prefix_append _ rest⟩
  · rintro ⟨huse, rfl, rest, rfl⟩
    exact matchAt_written huse rest

theorem values_cons_of_none {c : Char} (h : d.read? (c :: s) = none) :
    d.pattern.values (c :: s) = d.pattern.values s := by
  simp only [Text.Pattern.values, Text.Pattern.hits,
    Text.Pattern.scan_cons_of_none _ (matchAt_eq_none h)]
  rfl

theorem values_written (h : d.IsUse use) (rest : List Char) :
    d.pattern.values (d.written use ++ rest) = use :: d.pattern.values rest := by
  simp only [Text.Pattern.values, Text.Pattern.hits,
    Text.Pattern.scan_of_matchAt _ (matchAt_written h rest), List.drop_left]
  rfl

theorem replace_cons_of_none {c : Char} (h : d.read? (c :: s) = none)
    (f : List Char → Use → List Char) :
    d.pattern.replace f (c :: s) = c :: d.pattern.replace f s := by
  simp only [Text.Pattern.replace, Text.Pattern.scan_cons_of_none _ (matchAt_eq_none h)]
  rfl

theorem replace_written (h : d.IsUse use) (f : List Char → Use → List Char) (rest : List Char) :
    d.pattern.replace f (d.written use ++ rest) =
      f (d.written use) use ++ d.pattern.replace f rest := by
  simp only [Text.Pattern.replace, Text.Pattern.scan_of_matchAt _ (matchAt_written h rest),
    List.drop_left]
  rfl

/-! ### Settled texts -/

/-- Whether no argument can be read at the start of a text, whatever follows. -/
def blocksArgument (d : Directive) : List Char → Bool
  | [] => false
  | c :: s => c != '\x7b' || (d.needsArgument && s.head? == some '\x7d')

/-- Whether a use that a name starts cannot go on with a text, whatever follows. -/
def blocksTail (d : Directive) (s : List Char) : Bool :=
  match if d.takesOptions then readOptions? s else some (none, s) with
  | none => false
  | some (_, rest) => d.blocksArgument rest

/-- Whether no use can be read at the start of a text, whatever follows. -/
def blocks (d : Directive) (s : List Char) : Bool :=
  if d.name.isPrefixOf s then d.blocksTail (s.drop d.name.length) else !s.isPrefixOf d.name

theorem readOptions?_of_ne (h : s.head? ≠ some '[') : readOptions? s = some (none, s) := by
  unfold readOptions?
  split
  · exact absurd rfl h
  · rfl

theorem readOptions?_append {options : Option (List Char)} (hs : s ≠ [])
    (h : readOptions? s = some (options, rest)) (more : List Char) :
    readOptions? (s ++ more) = some (options, rest ++ more) := by
  match s, hs with
  | c :: s, _ =>
    by_cases hc : c = '['
    · subst hc
      obtain ⟨parts, hparts, heq⟩ := Option.map_eq_some_iff.1 h
      cases heq
      simp [readOptions?, upTo?_append hparts]
    · have hnone : ∀ s, readOptions? (c :: s) = some (none, c :: s) :=
        fun s => readOptions?_of_ne fun heq => hc (Option.some.inj heq)
      rw [hnone] at h
      cases h
      exact hnone (s ++ more)

theorem readArgument?_of_blocksArgument (h : d.blocksArgument s = true) (more : List Char) :
    readArgument? (s ++ more) = none ∨
      d.needsArgument = true ∧ ∃ rest, readArgument? (s ++ more) = some ([], rest) := by
  match s, h with
  | c :: s, h =>
    by_cases hc : c = '\x7b'
    · subst hc
      obtain ⟨hneeds, hclose⟩ : d.needsArgument = true ∧ s.head? = some '\x7d' := by
        simpa [blocksArgument] using h
      obtain ⟨s, rfl⟩ := List.head?_eq_some_iff.1 hclose
      exact .inr ⟨hneeds, s ++ more, rfl⟩
    · refine .inl ?_
      rw [List.cons_append, readArgument?]
      intro s heq
      cases heq
      exact hc rfl

theorem read?_of_blocks (h : d.blocks s = true) (more : List Char) :
    d.read? (s ++ more) = none := by
  unfold blocks at h
  split at h
  · rename_i hname
    obtain ⟨tail, rfl⟩ := List.isPrefixOf_iff_prefix.1 hname
    rw [List.drop_left, blocksTail] at h
    split at h
    · cases h
    · rename_i options rest ho
      have htail : tail ≠ [] := by
        rintro rfl
        have hrest : rest = [] := by
          split at ho
          · cases ho
            rfl
          · cases ho
            rfl
        rw [hrest] at h
        cases h
      have hoptions : (if d.takesOptions then readOptions? (tail ++ more)
          else some (none, tail ++ more)) = some (options, rest ++ more) := by
        split at ho
        · rename_i htakes
          rw [if_pos htakes]
          exact readOptions?_append htail ho more
        · rename_i htakes
          rw [if_neg htakes]
          cases ho
          rfl
      unfold read?
      rw [List.append_assoc, if_pos (by simp), List.drop_left]
      dsimp only
      rw [hoptions]
      dsimp only
      rcases readArgument?_of_blocksArgument h more with hnone | ⟨hneeds, rest', hempty⟩
      · rw [hnone]
      · rw [hempty]
        simp [hneeds]
  · rename_i hname
    have hlonger : ¬d.name.isPrefixOf (s ++ more) = true := by
      rw [List.isPrefixOf_iff_prefix] at hname ⊢
      intro hstart
      rcases List.prefix_or_prefix_of_prefix hstart (List.prefix_append s more) with hin | hin
      · exact hname hin
      · rw [List.isPrefixOf_iff_prefix.2 hin] at h
        cases h
    unfold read?
    rw [if_neg hlonger]

/-- The texts that are settled, with their uses. -/
inductive Settles (d : Directive) : List Char → List Use → Prop
  | nil : d.Settles [] []
  | plain {c : Char} {s : List Char} {uses : List Use} :
      d.blocks (c :: s) = true → d.Settles s uses → d.Settles (c :: s) uses
  | use {use : Use} {s : List Char} {uses : List Use} :
      d.IsUse use → d.Settles s uses → d.Settles (d.written use ++ s) (use :: uses)

theorem Settles.isUse (h : d.Settles s uses) : ∀ use ∈ uses, d.IsUse use := by
  induction h with
  | nil => nofun
  | plain _ _ ih => exact ih
  | use huse _ ih => exact List.forall_mem_cons.2 ⟨huse, ih⟩

theorem Settles.values_append (h : d.Settles s uses) (rest : List Char) :
    d.pattern.values (s ++ rest) = uses ++ d.pattern.values rest := by
  induction h with
  | nil => rfl
  | @plain c s _ hblocks _ ih =>
    have hnone : d.read? (c :: (s ++ rest)) = none := read?_of_blocks hblocks rest
    rw [List.cons_append, values_cons_of_none hnone, ih]
  | use huse _ ih => rw [List.append_assoc, values_written huse, ih, List.cons_append]

/-- Whether a text is settled after its first `skip` characters. -/
def closesFrom (d : Directive) : (skip : Nat) → List Char → Bool
  | _, [] => true
  | skip + 1, _ :: s => closesFrom d skip s
  | 0, c :: s =>
    match d.read? (c :: s) with
    | some (use, _) => closesFrom d ((d.written use).length - 1) s
    | none => d.blocks (c :: s) && closesFrom d 0 s

/-- Whether a text leaves no use open at its end. -/
def closes (d : Directive) (s : List Char) : Bool :=
  d.closesFrom 0 s

theorem closesFrom_eq_drop (d : Directive) (skip : Nat) (s : List Char) :
    d.closesFrom skip s = d.closes (s.drop skip) := by
  induction s generalizing skip with
  | nil => cases skip <;> rfl
  | cons c s ih =>
    cases skip with
    | zero => rfl
    | succ n => exact ih n

theorem settles_of_closes (d : Directive) (s : List Char) (h : d.closes s = true) :
    d.Settles s (d.pattern.values s) := by
  match s with
  | [] => exact .nil
  | c :: s =>
    unfold closes closesFrom at h
    split at h
    · rename_i use rest hread
      obtain ⟨huse, hs⟩ := read?_eq_some.1 hread
      have hrest : (c :: s).drop (d.written use).length = rest := by rw [hs, List.drop_left]
      have hpos : 0 < (d.written use).length :=
        List.length_pos_iff.2 (by simp [written, d.name_ne_nil])
      have hdrop : s.drop ((d.written use).length - 1) = rest := by
        rw [← hrest, ← Nat.succ_pred_eq_of_pos hpos]
        rfl
      rw [closesFrom_eq_drop, hdrop] at h
      have ih := settles_of_closes d rest h
      rw [hs, values_written huse]
      exact .use huse ih
    · rename_i hread
      obtain ⟨hblocks, hs⟩ := Bool.and_eq_true_iff.1 h
      rw [values_cons_of_none hread]
      exact .plain hblocks (settles_of_closes d s hs)
termination_by s.length
decreasing_by
  · rw [hs, List.length_append]
    omega
  · simp

end Directive

end ResumePress.Latex
