import ResumePress.Proofs.Latex.Amendments
import ResumePress.Proofs.Text.Occurrences
import ResumePress.Proofs.Text.Scan

/-!
Uses on both sides of a border between two texts. If none runs over it, the texts are read one by
one, and a line behind the border can be left out.
-/

namespace ResumePress.Latex

open Text

namespace Directive

variable {d : Directive} {use : Use} {a b s rest part line : List Char} {c : Char}

/-! ### Borders -/

/-- Whether no use in two texts together runs over the border between them. -/
def SplitsAt (d : Directive) (a b : List Char) : Prop :=
  ∀ span ∈ d.pattern.spans (a ++ b), span.1 < a.length → span.2 ≤ a.length

instance (d : Directive) (a b : List Char) : Decidable (d.SplitsAt a b) :=
  inferInstanceAs (Decidable (∀ span ∈ _, _))

/-- The uses that a text begins with do not depend on what follows. -/
theorem matchAt_append (h : d.pattern.matchAt s = some (part, use)) (rest : List Char) :
    d.pattern.matchAt (s ++ rest) = some (part, use) := by
  obtain ⟨huse, hpart, hprefix⟩ := matchAt_eq_some.1 h
  exact matchAt_eq_some.2 ⟨huse, hpart, hprefix.trans (List.prefix_append s rest)⟩

theorem splitsAt_nil (b : List Char) : d.SplitsAt [] b :=
  fun _ _ h => absurd h (Nat.not_lt_zero _)

theorem splitsAt_cons (h : d.pattern.matchAt (c :: s ++ b) = none) :
    d.SplitsAt (c :: s) b ↔ d.SplitsAt s b := by
  rw [List.cons_append] at h
  unfold SplitsAt
  rw [List.cons_append, Pattern.spans_cons_of_none h, List.forall_mem_map]
  simp only [List.length_cons, Nat.add_lt_add_iff_right, Nat.add_le_add_iff_right]

theorem splitsAt_append (h : d.pattern.matchAt (part ++ rest) = some (part, use)) :
    d.SplitsAt (part ++ rest) b ↔ d.SplitsAt rest b := by
  have hmatch := matchAt_append h b
  rw [List.append_assoc] at hmatch
  unfold SplitsAt
  rw [List.append_assoc, Pattern.spans_append_of_matchAt hmatch, List.forall_mem_cons,
    List.forall_mem_map, List.length_append, and_iff_right (fun _ => Nat.le_add_right _ _)]
  simp only [Nat.add_comm part.length, Nat.add_lt_add_iff_right, Nat.add_le_add_iff_right]

/-- What is no use in front of the border is none together with what follows. -/
theorem SplitsAt.matchAt_eq_none (h : d.SplitsAt (c :: s) b)
    (hnone : d.pattern.matchAt (c :: s) = none) : d.pattern.matchAt (c :: s ++ b) = none := by
  rw [Option.eq_none_iff_forall_not_mem]
  rintro ⟨part, use⟩ hmatch
  obtain ⟨huse, hpart, rest, hrest⟩ := matchAt_eq_some.1 hmatch
  have hspan : (0, part.length) ∈ d.pattern.spans (c :: s ++ b) := by
    rw [← hrest] at hmatch ⊢
    rw [Pattern.spans_append_of_matchAt hmatch]
    exact List.mem_cons_self
  have hin : part <+: c :: s :=
    List.prefix_of_prefix_length_le ⟨rest, hrest⟩ (List.prefix_append _ b)
      (h _ hspan (Nat.succ_pos _))
  rw [matchAt_eq_some.2 ⟨huse, hpart, hin⟩] at hnone
  cases hnone

theorem SplitsAt.values_append (h : d.SplitsAt a b) :
    d.pattern.values (a ++ b) = d.pattern.values a ++ d.pattern.values b := by
  induction a using d.pattern.scan_induction with
  | nil => rfl
  | plain c s hnone ih =>
    have hnone' := h.matchAt_eq_none hnone
    have ih := ih ((splitsAt_cons hnone').1 h)
    rw [List.cons_append] at hnone'
    unfold Pattern.values at ih ⊢
    rw [List.cons_append, Pattern.hits_cons_of_none hnone', Pattern.hits_cons_of_none hnone, ih]
  | hit part use rest hmatch ih =>
    have ih := ih ((splitsAt_append hmatch).1 h)
    have hmatch' := matchAt_append hmatch b
    rw [List.append_assoc] at hmatch'
    unfold Pattern.values at ih ⊢
    rw [List.append_assoc, Pattern.hits_append_of_matchAt hmatch',
      Pattern.hits_append_of_matchAt hmatch, List.map_cons, ih, List.map_cons, List.cons_append]

theorem hits_eq (d : Directive) (s : List Char) :
    d.pattern.hits s = (d.pattern.values s).map fun use => (d.written use, use) := by
  unfold Pattern.values
  induction s using d.pattern.scan_induction with
  | nil => rfl
  | plain c s hnone ih =>
    rw [Pattern.hits_cons_of_none hnone]
    exact ih
  | hit part use rest hmatch ih =>
    obtain ⟨-, rfl, -⟩ := matchAt_eq_some.1 hmatch
    rw [Pattern.hits_append_of_matchAt hmatch, List.map_cons, List.map_cons, ← ih]

theorem of_mem_scan (h : .hit part use ∈ d.pattern.scan s) :
    part = d.written use ∧ d.IsUse use := by
  obtain ⟨rest, hmatch⟩ := Pattern.matchAt_of_mem_scan h
  obtain ⟨huse, hpart, -⟩ := matchAt_eq_some.1 hmatch
  exact ⟨hpart, huse⟩

theorem isUse_of_mem_values (h : use ∈ d.pattern.values s) : d.IsUse use := by
  obtain ⟨part, hpiece⟩ := Pattern.mem_values.1 h
  exact (of_mem_scan hpiece).2

/-! ### Other texts behind a border -/

/-- Whether a text ends in options that are not closed. -/
def LeavesOpen (d : Directive) (s : List Char) : Prop :=
  ∃ options, ']' ∉ options ∧ (d.name ++ '[' :: options) <:+ s

theorem LeavesOpen.of_suffix (h : d.LeavesOpen s) (hsuffix : s <:+ a) : d.LeavesOpen a := by
  obtain ⟨options, hfree, hin⟩ := h
  exact ⟨options, hfree, hin.trans hsuffix⟩

/-- What a first text behind a border closes, a second text closes too: options, if there are open
ones in front of the border, with the same text behind them, and arguments. -/
structure ClosesToo (d : Directive) (s b b' : List Char) : Prop where
  options : d.LeavesOpen s → ∀ more rest, ']' ∉ more → b = more ++ ']' :: rest →
    ∃ more', ']' ∉ more' ∧ b' = more' ++ ']' :: rest
  argument : ∀ more rest, '\x7d' ∉ more → b = more ++ '\x7d' :: rest →
    ∃ more' rest', '\x7d' ∉ more' ∧ b' = more' ++ '\x7d' :: rest'

theorem ClosesToo.of_suffix {b' : List Char} (h : d.ClosesToo a b b') (hsuffix : s <:+ a) :
    d.ClosesToo s b b' :=
  ⟨fun hopen => h.options (hopen.of_suffix hsuffix), h.argument⟩

/-- A use that begins in front of a border with one text behind it begins there with the other. -/
theorem matchAt_exchange {b' : List Char} (hcommand : d.IsCommand)
    (hstart : ∀ c ∈ s.getLast?, c = '\n') (hne : s ≠ []) (hcloses : d.ClosesToo s b b')
    (h : d.pattern.matchAt (s ++ b') = none) : d.pattern.matchAt (s ++ b) = none := by
  rw [Option.eq_none_iff_forall_not_mem] at h ⊢
  rintro ⟨part, use⟩ hmatch
  obtain ⟨huse, rfl, rest, hrest⟩ := matchAt_eq_some.1 hmatch
  have hnot : ∀ use', d.IsUse use' → ¬d.written use' <+: s ++ b' :=
    fun use' huse' hin => h (d.written use', use') (matchAt_eq_some.2 ⟨huse', rfl, hin⟩)
  rcases List.append_eq_append_iff.1 hrest with ⟨more, rfl, -⟩ | ⟨extra, hwritten, rfl⟩
  · exact hnot use huse (by simp only [List.append_assoc, List.prefix_append])
  · obtain ⟨u, c, rfl⟩ := (List.eq_nil_or_concat s).resolve_left hne
    obtain rfl : c = '\n' := hstart c (by simp)
    have hu : u ≠ [] := by
      rintro rfl
      obtain ⟨word, hname, -⟩ := hcommand
      simp [written, hname] at hwritten
    rw [List.concat_eq_append] at hwritten hnot hcloses
    rw [List.append_assoc, List.singleton_append] at hwritten
    rcases written_eq_cases hcommand (by simp) hu hwritten with
      ⟨front, back, hoptions, rfl, rfl⟩ | ⟨front, back, hargument, rfl⟩
    · -- the options go on behind the border
      have hfree := huse.options _ hoptions
      rw [List.mem_append, List.mem_cons, not_or, not_or] at hfree
      have hopen : d.LeavesOpen (d.name ++ '[' :: front ++ ['\n']) :=
        ⟨front ++ ['\n'], by simp [hfree.1], by simp⟩
      obtain ⟨more, hmore, rfl⟩ := hcloses.options hopen back (braced use.argument ++ rest)
        hfree.2.2 (by simp)
      have huse' : d.IsUse ⟨some (front ++ '\n' :: more), use.argument⟩ :=
        huse.withOptions hoptions (by simp [hfree.1, hmore])
      refine hnot _ huse' ⟨rest, ?_⟩
      simp [written, bracketed]
    · -- the argument goes on behind the border
      have hfree := huse.argument
      rw [hargument, List.mem_append, List.mem_cons, not_or, not_or] at hfree
      obtain ⟨more, rest', hmore, rfl⟩ := hcloses.argument back rest hfree.2.2 (by simp)
      have huse' : d.IsUse ⟨use.options, front ++ '\n' :: more⟩ :=
        huse.withArgument (by simp) (by simp [hfree.1, hmore])
      have hfront : d.name ++ bracketed use.options ++ '\x7b' :: front ++
          '\n' :: (back ++ ['\x7d']) = u ++ '\n' :: (back ++ ['\x7d']) := by
        rw [← hwritten]
        simp [written, braced, hargument]
      refine hnot _ huse' ⟨rest', ?_⟩
      rw [← List.append_cancel_right hfront]
      simp [written, braced]

theorem SplitsAt.exchange {b' : List Char} (hcommand : d.IsCommand)
    (hstart : ∀ c ∈ a.getLast?, c = '\n') (hcloses : d.ClosesToo a b b') (h : d.SplitsAt a b') :
    d.SplitsAt a b := by
  induction a using d.pattern.scan_induction with
  | nil => exact splitsAt_nil b
  | plain c s hnone ih =>
    have hnone' := h.matchAt_eq_none hnone
    rw [splitsAt_cons (matchAt_exchange hcommand hstart (List.cons_ne_nil c s) hcloses hnone')]
    refine ih (fun e he => hstart e ?_) (hcloses.of_suffix (List.suffix_cons c s))
      ((splitsAt_cons hnone').1 h)
    rw [List.getLast?_cons, Option.mem_def.1 he]
    rfl
  | hit part use rest hmatch ih =>
    rw [splitsAt_append hmatch]
    refine ih (fun e he => hstart e ?_) (hcloses.of_suffix (List.suffix_append part rest))
      ((splitsAt_append hmatch).1 h)
    rw [List.getLast?_append, Option.mem_def.1 he]
    rfl

/-- A line behind the border can be left out, unless it closes options. -/
theorem SplitsAt.without_line (hcommand : d.IsCommand) (hstart : ∀ c ∈ a.getLast?, c = '\n')
    (hopen : ']' ∈ line → ¬d.LeavesOpen a) (h : d.SplitsAt a (line ++ '\n' :: b)) :
    d.SplitsAt a b := by
  refine h.exchange hcommand hstart ⟨?_, ?_⟩
  · rintro hleft more rest hmore rfl
    have hline : ']' ∉ line := fun hclose => hopen hclose hleft
    exact ⟨line ++ '\n' :: more, by simp [hline, hmore], by simp⟩
  · rintro more rest - rfl
    have hmem : '\x7d' ∈ line ++ '\n' :: (more ++ '\x7d' :: rest) := by simp
    obtain ⟨inner, after, hinner, hclose⟩ := List.eq_append_cons_of_mem hmem
    exact ⟨inner, after, hclose, hinner⟩

/-- A text that closes neither options nor an argument can be put behind the border. -/
theorem SplitsAt.insert {n : List Char} (hcommand : d.IsCommand)
    (hstart : ∀ c ∈ a.getLast?, c = '\n') (hbracket : ']' ∉ n) (hbrace : '\x7d' ∉ n)
    (h : d.SplitsAt a b) : d.SplitsAt a (n ++ b) := by
  refine h.exchange hcommand hstart ⟨fun _ => ?_, ?_⟩
  · intro more rest hmore hclose
    obtain ⟨more', rfl, hmore'⟩ := exists_append_of_not_mem hbracket hclose
    exact ⟨more', fun hin => hmore (List.mem_append_right n hin), hmore'⟩
  · intro more rest hmore hclose
    obtain ⟨more', rfl, hmore'⟩ := exists_append_of_not_mem hbrace hclose
    exact ⟨more', rest, fun hin => hmore (List.mem_append_right n hin), hmore'⟩

end Directive

end ResumePress.Latex
