import Mathlib.Data.List.TakeWhile
import ResumePress.Proofs.Text.Lines

/-!
The ends of texts, and markers in texts. Trimming takes blanks off the ends of a text and leaves
what stands between two characters that are not blank. A marker starts with a character that is
nowhere else in it, so none arises where a text meets one.
-/

namespace ResumePress.Text

variable {needle a b s u v : List Char}

/-! ### Blanks at the ends -/

theorem trimEnd_eq (s : List Char) : trimEnd s = (trimStart s.reverse).reverse := rfl

theorem trimStart_isSuffix (s : List Char) : trimStart s <:+ s :=
  List.dropWhile_suffix _

theorem trimEnd_isPrefix (s : List Char) : trimEnd s <+: s := by
  rw [trimEnd_eq, ← List.reverse_suffix, List.reverse_reverse]
  exact trimStart_isSuffix s.reverse

theorem trim_isInfix (s : List Char) : trim s <:+: s :=
  (trimEnd_isPrefix _).isInfix.trans (trimStart_isSuffix s).isInfix

/-- What is taken off at the start of a text is blank. -/
theorem exists_blanks_trimStart (s : List Char) :
    ∃ u, (∀ c ∈ u, isBlank c = true) ∧ s = u ++ trimStart s :=
  ⟨s.takeWhile isBlank, fun _ hc => List.mem_takeWhile_imp hc,
    List.takeWhile_append_dropWhile.symm⟩

/-- What is taken off at the end of a text is blank. -/
theorem exists_blanks_trimEnd (s : List Char) :
    ∃ v, (∀ c ∈ v, isBlank c = true) ∧ s = trimEnd s ++ v := by
  obtain ⟨u, hu, hs⟩ := exists_blanks_trimStart s.reverse
  refine ⟨u.reverse, by simpa using hu, ?_⟩
  calc s = s.reverse.reverse := s.reverse_reverse.symm
    _ = (u ++ trimStart s.reverse).reverse := by rw [← hs]
    _ = trimEnd s ++ u.reverse := List.reverse_append

/-- A text that starts with no blank stays when what stands before it is trimmed. -/
theorem trimStart_append (hs : trimStart s = s) (u : List Char) :
    trimStart (u ++ s) = trimStart u ++ s := by
  unfold trimStart at hs ⊢
  rw [List.dropWhile_append]
  split
  · rename_i hblank
    rw [hs, List.isEmpty_iff.1 hblank, List.nil_append]
  · rfl

/-- A text that ends with no blank stays when what stands behind it is trimmed. -/
theorem trimEnd_append (hs : trimEnd s = s) (v : List Char) :
    trimEnd (s ++ v) = s ++ trimEnd v := by
  have hreverse : trimStart s.reverse = s.reverse := by
    rw [← List.reverse_eq_iff, ← trimEnd_eq, hs]
  rw [trimEnd_eq, List.reverse_append, trimStart_append hreverse, List.reverse_append,
    List.reverse_reverse, trimEnd_eq]

theorem trimStart_append_of_ne_nil (hs : trimStart s ≠ []) (v : List Char) :
    trimStart (s ++ v) = trimStart s ++ v := by
  unfold trimStart at hs ⊢
  rw [List.dropWhile_append, if_neg (by simpa using hs)]

/-- Blanks around a text make no difference to what is left of it. -/
theorem trim_blanks (hu : ∀ c ∈ u, isBlank c = true) (hv : ∀ c ∈ v, isBlank c = true)
    (s : List Char) : trim (u ++ s ++ v) = trim s := by
  have hend : ∀ w, trimEnd (w ++ v) = trimEnd w := by
    intro w
    have hreverse : ∀ c ∈ v.reverse, isBlank c = true := by simpa using hv
    rw [trimEnd, List.reverse_append, List.dropWhile_append_of_pos hreverse, ← trimEnd]
  have hstart : trimStart (u ++ (s ++ v)) = trimStart (s ++ v) := List.dropWhile_append_of_pos hu
  rw [List.append_assoc, trim, hstart]
  by_cases hs : trimStart s = []
  · have hblank : ∀ c ∈ s ++ v, isBlank c = true := fun c hc =>
      (List.mem_append.1 hc).elim (List.dropWhile_eq_nil_iff.1 hs c) (hv c)
    have hnone : trimStart (s ++ v) = [] := List.dropWhile_eq_nil_iff.2 hblank
    rw [hnone, trim, hs]
  · rw [trimStart_append_of_ne_nil hs, hend, trim]

/-- A text without blanks at its ends keeps its place when the text around it is trimmed. -/
theorem trim_around (hne : s ≠ []) (hs : trim s = s) (u v : List Char) :
    trim (u ++ s ++ v) = trimStart u ++ s ++ trimEnd v := by
  have hstart : trimStart s = s := by
    refine (trimStart_isSuffix s).eq_of_length_le ?_
    calc s.length = (trim s).length := by rw [hs]
      _ ≤ (trimStart s).length := (trimEnd_isPrefix _).length_le
  have hend : trimEnd s = s := by
    rw [trim, hstart] at hs
    exact hs
  have hfront : trimStart (s ++ v) = s ++ v := by
    rw [trimStart_append_of_ne_nil (hstart.symm ▸ hne), hstart]
  have hback : trimEnd (trimStart u ++ s) = trimStart u ++ s := by
    have hreverse : trimStart s.reverse ≠ [] := by
      rw [← List.reverse_ne_nil_iff, ← trimEnd_eq, hend]
      exact hne
    rw [trimEnd_eq, List.reverse_append, trimStart_append_of_ne_nil hreverse, List.reverse_append,
      List.reverse_reverse, ← trimEnd_eq, hend]
  rw [List.append_assoc, trim, trimStart_append hfront, ← List.append_assoc, trimEnd_append hback]

/-! ### Markers -/

/-- A text whose first character is not in the rest of it. -/
def IsMarker (needle : List Char) : Prop :=
  ∃ c rest, needle = c :: rest ∧ c ∉ rest

theorem IsMarker.not_straddles (h : IsMarker needle) (a b : List Char) :
    ¬Straddles needle a (needle ++ b) := by
  obtain ⟨c, rest, rfl, hc⟩ := h
  rintro ⟨k, hk, hpos, -, hback⟩
  obtain ⟨k, rfl⟩ := Nat.exists_eq_succ_of_ne_zero hpos.ne'
  obtain ⟨d, tail, htail⟩ := List.exists_cons_of_ne_nil (l := rest.drop k) (by
    simpa using List.mem_range.1 hk)
  rw [List.drop_succ_cons, htail, List.cons_append] at hback
  obtain ⟨rfl, -⟩ := List.cons_prefix_cons.1 hback
  exact hc (List.mem_of_mem_drop (htail ▸ List.mem_cons_self))

/-- A marker behind a text that has none is the first one. -/
theorem IsMarker.cut?_append (h : IsMarker needle) (ha : ¬needle <:+: a) (b : List Char) :
    cut? needle (a ++ needle ++ b) = some (a, b) := by
  have hself : cut? needle (needle ++ b) = some ([], b) := by
    obtain ⟨c, rest, rfl, -⟩ := h
    rw [List.cons_append, cut?, ← List.cons_append,
      if_pos (List.isPrefixOf_iff_prefix.2 (List.prefix_append _ b)), List.drop_left]
  rw [List.append_assoc, cut?_append_right ha (h.not_straddles a b), hself, Option.map_some,
    List.append_nil]

/-- A word without line feeds is in lines that are put together only if one of them has it. -/
theorem not_infix_joinWith {parts : List (List Char)} (hne : needle ≠ []) (hline : '\n' ∉ needle)
    (h : ∀ part ∈ parts, ¬needle <:+: part) : ¬needle <:+: joinWith ['\n'] parts := by
  induction parts with
  | nil => exact fun hin => hne (List.eq_nil_of_infix_nil hin)
  | cons part parts ih =>
    obtain ⟨hpart, hparts⟩ := List.forall_mem_cons.1 h
    cases parts with
    | nil => exact hpart
    | cons next parts =>
      rw [joinWith, List.append_assoc, List.singleton_append, infix_separated_iff hline, not_or]
      · exact ⟨hpart, ih hparts⟩
      · exact List.cons_ne_nil _ _

end ResumePress.Text
