import ResumePress.Text.Blank
import ResumePress.Text.Find
import ResumePress.Text.Lines
import ResumePress.Text.Pattern

/-!
First occurrences in texts that are put together, the parts of a text between separators, and the
blanks around a part of a text. A first occurrence stays the first when the text goes on behind it.
In front of it any text may be put that holds no occurrence, unless one arises across the border.
-/

namespace ResumePress.Text

variable {needle a b s before after : List Char}

/-- What comes first behind a text that does not hold it. -/
theorem exists_append_of_not_mem {c : Char} {u v rest : List Char} (hu : c ∉ u)
    (h : u ++ v = s ++ c :: rest) : ∃ more, s = u ++ more ∧ v = more ++ c :: rest := by
  rcases List.append_eq_append_iff.1 h with ⟨more, hs, hv⟩ | ⟨more, rfl, hv⟩
  · exact ⟨more, hs, hv⟩
  · cases more with
    | nil => exact ⟨[], by simp, hv.symm⟩
    | cons c' more =>
      obtain ⟨rfl, -⟩ := List.cons.inj hv
      exact absurd (by simp) hu

/-! ### Cutting -/

theorem cut?_append (h : cut? needle s = some (before, after)) (rest : List Char) :
    cut? needle (s ++ rest) = some (before, after ++ rest) := by
  induction s generalizing before with
  | nil =>
    cases needle with
    | nil =>
      cases h
      exact cut?_nil_left rest
    | cons c needle => cases h
  | cons c s ih =>
    unfold cut? at h
    split at h
    · rename_i hp
      cases h
      have hstart := List.isPrefixOf_iff_prefix.1 hp
      rw [List.cons_append, cut?, ← List.cons_append, if_pos
        (List.isPrefixOf_iff_prefix.2 (hstart.trans (List.prefix_append _ rest))),
        List.drop_append_of_le_length hstart.length_le]
    · rename_i hp
      obtain ⟨⟨before', after'⟩, hcut, heq⟩ := Option.map_eq_some_iff.1 h
      cases heq
      have hcut := ih hcut
      -- a needle that stands first now would reach beyond the occurrence that comes later
      have hlong : ¬needle.isPrefixOf (c :: (s ++ rest)) = true := by
        intro hp'
        have hs := eq_of_cut? ‹cut? needle s = _›
        have hlength : needle.length ≤ (c :: s).length := by
          rw [hs]
          simp only [List.length_cons, List.length_append]
          omega
        refine hp (List.isPrefixOf_iff_prefix.2 ?_)
        exact List.prefix_of_prefix_length_le (List.isPrefixOf_iff_prefix.1 hp')
          (List.prefix_append (c :: s) rest) hlength
      rw [List.cons_append, cut?, if_neg hlong, hcut]
      rfl

/-- An occurrence that starts in the first of two texts and ends in the second one. -/
def Straddles (needle a b : List Char) : Prop :=
  ∃ k ∈ List.range needle.length, 0 < k ∧ needle.take k <:+ a ∧ needle.drop k <+: b

instance : Decidable (Straddles needle a b) :=
  inferInstanceAs (Decidable (∃ k ∈ List.range needle.length, _))

theorem straddles_cons {c : Char} (h : Straddles needle a b) : Straddles needle (c :: a) b := by
  obtain ⟨k, hk, hpos, ha, hb⟩ := h
  exact ⟨k, hk, hpos, ha.trans (List.suffix_cons c a), hb⟩

theorem prefix_append_cases (h : needle <+: a ++ b) (hne : a ≠ []) :
    needle <+: a ∨ Straddles needle a b := by
  obtain ⟨rest, hrest⟩ := h
  rcases List.append_eq_append_iff.1 hrest with ⟨more, rfl, -⟩ | ⟨extra, rfl, rfl⟩
  · exact .inl (List.prefix_append needle more)
  · cases extra with
    | nil => exact .inl (by simp)
    | cons c extra =>
      refine .inr ⟨a.length, by simp, List.length_pos_iff.2 hne, ?_, ?_⟩
      · simp
      · simp

theorem cut?_append_right (ha : ¬needle <:+: a) (hborder : ¬Straddles needle a b) :
    cut? needle (a ++ b) = (cut? needle b).map fun parts => (a ++ parts.1, parts.2) := by
  induction a with
  | nil => simp
  | cons c a ih =>
    have hfirst : ¬needle.isPrefixOf (c :: (a ++ b)) = true := by
      intro h
      rcases prefix_append_cases (List.isPrefixOf_iff_prefix.1 h) (List.cons_ne_nil c a)
        with hin | hin
      · exact ha hin.isInfix
      · exact hborder hin
    rw [List.cons_append, cut?, if_neg hfirst,
      ih (fun h => ha (List.infix_cons h)) fun h => hborder (straddles_cons h), Option.map_map]
    rfl

theorem infix_of_cut? (h : cut? needle s = some (before, after)) : needle <:+: s :=
  contains_iff_isInfix.1 (Option.isSome_iff_exists.2 ⟨_, h⟩)

theorem exists_cut? (h : needle <:+: s) : ∃ before after, cut? needle s = some (before, after) := by
  obtain ⟨⟨before, after⟩, hcut⟩ := Option.isSome_iff_exists.1 (contains_iff_isInfix.2 h)
  exact ⟨before, after, hcut⟩

/-- No occurrence stands before the first one. -/
theorem length_le_of_cut? (h : cut? needle (a ++ needle ++ b) = some (before, after)) :
    before.length ≤ a.length := by
  obtain ⟨front, back, hcut⟩ := exists_cut? (List.suffix_append a needle).isInfix
  rw [cut?_append hcut] at h
  cases h
  have hlength := congrArg List.length (eq_of_cut? hcut)
  simp only [List.length_append] at hlength
  omega

/-- The first occurrence in a text is the first one in every part of the text that has it. -/
theorem cut?_part {u v : List Char}
    (h : cut? needle (u ++ (a ++ needle ++ b) ++ v) = some (u ++ a, b ++ v)) :
    cut? needle (a ++ needle ++ b) = some (a, b) := by
  obtain ⟨first, rest, hcut⟩ := exists_cut? (s := a ++ needle ++ b) ⟨a, b, rfl⟩
  have hsame := eq_of_cut? hcut
  have hlow : first.length ≤ a.length := length_le_of_cut? hcut
  have hhigh : (u ++ a).length ≤ (u ++ first).length := by
    have hfront : u ++ (a ++ needle ++ b) ++ v = (u ++ first) ++ needle ++ (rest ++ v) := by
      rw [hsame]
      simp only [List.append_assoc]
    exact length_le_of_cut? (hfront ▸ h)
  have hlength : a.length = first.length := by
    simp only [List.length_append] at hhigh
    omega
  rw [List.append_assoc, List.append_assoc] at hsame
  obtain ⟨rfl, hbehind⟩ := List.append_inj hsame hlength
  rw [hcut, List.append_cancel_left hbehind]

theorem Pattern.eq_of_cut? {α : Type} {p : Pattern α} {part : List Char}
    (h : p.cut? s = some (before, part, after)) :
    s = before ++ (part ++ after) ∧ ∃ a, p.matchAt (part ++ after) = some (part, a) := by
  induction s generalizing before with
  | nil => cases h
  | cons c s ih =>
    unfold Pattern.cut? at h
    split at h
    · rename_i hmatch
      cases h
      obtain ⟨rest, hrest⟩ := p.isPrefix hmatch
      rw [← hrest, List.drop_left, hrest]
      exact ⟨rfl, _, hmatch⟩
    · obtain ⟨⟨before', part', after'⟩, hcut, heq⟩ := Option.map_eq_some_iff.1 h
      cases heq
      obtain ⟨rfl, hmatch⟩ := ih hcut
      exact ⟨rfl, hmatch⟩

/-! ### Splitting -/

theorem splitAt_ne_nil (sep : Char) (s : List Char) : splitAt sep s ≠ [] := by
  cases s with
  | nil => nofun
  | cons c s =>
    unfold splitAt
    split
    · nofun
    · split <;> nofun

theorem splitAt_append (sep : Char) (s rest : List Char) :
    splitAt sep (s ++ sep :: rest) = splitAt sep s ++ splitAt sep rest := by
  induction s with
  | nil => simp [splitAt]
  | cons c s ih =>
    by_cases hc : c = sep
    · simp [splitAt, hc, ih]
    · rw [List.cons_append, splitAt, if_neg hc, ih, splitAt, if_neg hc]
      cases hparts : splitAt sep s with
      | nil => exact absurd hparts (splitAt_ne_nil sep s)
      | cons part parts => rfl

theorem splitAt_of_not_mem {sep : Char} {s : List Char} (h : sep ∉ s) : splitAt sep s = [s] := by
  induction s with
  | nil => rfl
  | cons c s ih =>
    rw [List.mem_cons, not_or] at h
    rw [splitAt, if_neg (Ne.symm h.1), ih h.2]

theorem joinWith_splitAt (sep : Char) (s : List Char) : joinWith [sep] (splitAt sep s) = s := by
  induction s with
  | nil => rfl
  | cons c s ih =>
    unfold splitAt
    obtain ⟨part, parts, hparts⟩ := List.exists_cons_of_ne_nil (splitAt_ne_nil sep s)
    rw [hparts] at ih ⊢
    split
    · rename_i hc
      rw [joinWith, ih, hc]
      · rfl
      · nofun
    · dsimp only
      cases parts with
      | nil => rw [← ih]; rfl
      | cons next parts =>
        rw [← ih]
        rfl

/-! ### Trimming -/

theorem infix_trimStart (h : a <:+: b) : trimStart a <:+: trimStart b := by
  obtain ⟨u, v, rfl⟩ := h
  have hback : trimStart a <:+: trimStart (a ++ v) := by
    unfold trimStart
    rw [List.dropWhile_append]
    split
    · rename_i hblank
      rw [List.isEmpty_iff.1 hblank]
      exact List.nil_infix
    · exact (List.prefix_append _ v).isInfix
  have hfront : ∀ w, trimStart w <:+: trimStart (u ++ w) := by
    intro w
    unfold trimStart
    rw [List.dropWhile_append]
    split
    · exact List.infix_rfl
    · exact (List.dropWhile_suffix _).isInfix.trans (List.suffix_append _ w).isInfix
  rw [List.append_assoc]
  exact hback.trans (hfront (a ++ v))

theorem infix_trimEnd (h : a <:+: b) : trimEnd a <:+: trimEnd b :=
  List.reverse_infix.2 (infix_trimStart (List.reverse_infix.2 h))

/-- What a part shows without its outer blanks is shown by the whole without its own. -/
theorem infix_trim (h : a <:+: b) : trim a <:+: trim b :=
  infix_trimEnd (infix_trimStart h)

end ResumePress.Text
