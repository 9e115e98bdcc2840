import ResumePress.Proofs.Text.Occurrences

/-!
Lines of texts whose characters carry something with them, such as their positions. Such a text has
the lines of its characters, and a word without line ends that is first in the text is first in the
first line that has it.
-/

namespace ResumePress.Text

variable {α : Type} (char : α → Char)

/-- The lines of a text whose characters carry something with them. -/
def linesBy : List α → List (List α)
  | [] => []
  | c :: s =>
    if char c = '\n' then [] :: linesBy s
    else if char c = '\r' ∧ s.head?.map char = some '\n' then linesBy s
    else
      match linesBy s with
      | [] => [[c]]
      | line :: rest => (c :: line) :: rest

theorem lines_cons {c : Char} {s : List Char} (hline : c ≠ '\n')
    (hend : ¬(c = '\r' ∧ s.head? = some '\n')) :
    lines (c :: s) =
      match lines s with
      | [] => [[c]]
      | line :: rest => (c :: line) :: rest := by
  rw [lines.eq_def]
  split
  · rename_i heq
    cases heq
  · rename_i heq
    exact absurd (List.cons.inj heq).1 hline
  · rename_i heq
    obtain ⟨rfl, rfl⟩ := List.cons.inj heq
    exact absurd ⟨rfl, rfl⟩ hend
  · rename_i heq
    obtain ⟨rfl, rfl⟩ := List.cons.inj heq
    rfl

theorem lines_return {s : List Char} (h : s.head? = some '\n') : lines ('\r' :: s) = lines s := by
  cases s with
  | nil => cases h
  | cons c s =>
    obtain rfl : c = '\n' := Option.some.inj h
    rfl

theorem lines_ne_nil {s : List Char} (h : s ≠ []) : lines s ≠ [] := by
  induction s with
  | nil => exact absurd rfl h
  | cons c s ih =>
    by_cases hline : c = '\n'
    · rw [hline, lines]
      exact List.cons_ne_nil _ _
    · by_cases hend : c = '\r' ∧ s.head? = some '\n'
      · rw [hend.1, lines_return hend.2]
        refine ih ?_
        rintro rfl
        cases hend.2
      · rw [lines_cons hline hend]
        cases lines s <;> exact List.cons_ne_nil _ _

/-- What follows a line feed is read on its own. -/
theorem lines_append (s rest : List Char) :
    lines (s ++ '\n' :: rest) = lines (s ++ ['\n']) ++ lines rest := by
  induction s with
  | nil => rfl
  | cons c s ih =>
    have hhead : (s ++ '\n' :: rest).head? = (s ++ ['\n']).head? := by
      cases s <;> rfl
    rw [List.cons_append, List.cons_append]
    by_cases hline : c = '\n'
    · rw [hline, lines, lines, ih, List.cons_append]
    · by_cases hend : c = '\r' ∧ (s ++ ['\n']).head? = some '\n'
      · rw [hend.1, lines_return hend.2, lines_return (hhead.trans hend.2), ih]
      · rw [lines_cons hline hend, lines_cons hline (hhead ▸ hend), ih]
        cases hlines : lines (s ++ ['\n']) with
        | nil => exact absurd hlines (lines_ne_nil (by simp))
        | cons line rest => rfl

/-- A text without line feeds is one line, and may lose a carriage return at its end. -/
theorem lines_line {s : List Char} (h : '\n' ∉ s) :
    ∃ text, lines (s ++ ['\n']) = [text] ∧ (s = text ∨ s = text ++ ['\r']) := by
  induction s with
  | nil => exact ⟨[], rfl, .inl rfl⟩
  | cons c s ih =>
    rw [List.mem_cons, not_or] at h
    obtain ⟨text, hlines, htext⟩ := ih h.2
    by_cases hend : c = '\r' ∧ (s ++ ['\n']).head? = some '\n'
    · obtain ⟨rfl, hhead⟩ := hend
      cases s with
      | nil => exact ⟨[], rfl, .inr rfl⟩
      | cons d s =>
        obtain rfl : d = '\n' := Option.some.inj hhead
        exact absurd List.mem_cons_self h.2
    · refine ⟨c :: text, ?_, ?_⟩
      · rw [List.cons_append, lines_cons (Ne.symm h.1) hend, hlines]
      · rcases htext with rfl | rfl
        · exact .inl rfl
        · exact .inr rfl

/-- A word does not run over a character that is not in it. -/
theorem infix_separated_iff {sep : Char} {needle s rest : List Char} (h : sep ∉ needle) :
    needle <:+: s ++ sep :: rest ↔ needle <:+: s ∨ needle <:+: rest := by
  constructor
  · intro hin
    induction s with
    | nil =>
      rcases List.infix_cons_iff.1 hin with hin | hin
      · cases needle with
        | nil => exact .inl List.nil_infix
        | cons c needle =>
          rw [(List.cons_prefix_cons.1 hin).1] at h
          exact absurd List.mem_cons_self h
      · exact .inr hin
    | cons c s ih =>
      rcases List.infix_cons_iff.1 hin with hin | hin
      · -- an occurrence at the start ends before the separator
        obtain ⟨more, hmore⟩ := hin
        change needle ++ more = c :: s ++ sep :: rest at hmore
        rcases List.append_eq_append_iff.1 hmore with ⟨tail, htail, -⟩ | ⟨tail, htail, hrest⟩
        · exact .inl ⟨[], tail, by simpa using htail.symm⟩
        · cases tail with
          | nil => exact .inl ⟨[], [], by simpa using htail⟩
          | cons d tail =>
            rw [htail, (List.cons.inj hrest).1] at h
            simp at h
      · exact (ih hin).imp_left List.infix_cons
  · rintro (hin | hin)
    · exact hin.trans (List.prefix_append s _).isInfix
    · exact (List.infix_cons hin).trans (List.suffix_append s _).isInfix

theorem map_linesBy (s : List α) : (linesBy char s).map (List.map char) = lines (s.map char) := by
  induction s with
  | nil => rfl
  | cons c s ih =>
    rw [linesBy, List.map_cons]
    split
    · rename_i hline
      rw [hline, lines, ← ih]
      rfl
    · rename_i hline
      split
      · rename_i hend
        obtain ⟨hreturn, hhead⟩ := hend
        cases s with
        | nil => cases hhead
        | cons d s =>
          have hd : char d = '\n' := Option.some.inj hhead
          rw [ih, List.map_cons, hreturn, hd]
          rfl
      · rename_i hend
        have hend' : ¬(char c = '\r' ∧ (s.map char).head? = some '\n') := by
          rw [List.head?_map]
          exact hend
        rw [lines_cons hline hend', ← ih]
        cases linesBy char s <;> rfl

theorem flatten_linesBy_sublist (s : List α) : (linesBy char s).flatten.Sublist s := by
  induction s with
  | nil => exact .slnil
  | cons c s ih =>
    rw [linesBy]
    split
    · exact ih.cons c
    · split
      · exact ih.cons c
      · cases hlines : linesBy char s with
        | nil => exact (List.nil_sublist s).cons_cons c
        | cons line rest =>
          rw [hlines] at ih
          exact ih.cons_cons c

/-- Only the ends of the lines are in none of them. -/
theorem exists_mem_linesBy {s : List α} {c : α} (hc : c ∈ s) (hline : char c ≠ '\n')
    (hreturn : char c ≠ '\r') : ∃ line ∈ linesBy char s, c ∈ line := by
  induction s with
  | nil => cases hc
  | cons d s ih =>
    rw [linesBy]
    rcases List.mem_cons.1 hc with rfl | hc
    · rw [if_neg hline, if_neg fun h => hreturn h.1]
      cases linesBy char s with
      | nil => exact ⟨[c], List.mem_cons_self, List.mem_cons_self⟩
      | cons line rest => exact ⟨c :: line, List.mem_cons_self, List.mem_cons_self⟩
    · obtain ⟨line, hmem, hin⟩ := ih hc
      split
      · exact ⟨line, List.mem_cons_of_mem _ hmem, hin⟩
      · split
        · exact ⟨line, hmem, hin⟩
        · cases hlines : linesBy char s with
          | nil =>
            rw [hlines] at hmem
            cases hmem
          | cons front rest =>
            rw [hlines] at hmem
            rcases List.mem_cons.1 hmem with rfl | hmem
            · exact ⟨d :: line, List.mem_cons_self, List.mem_cons_of_mem _ hin⟩
            · exact ⟨line, List.mem_cons_of_mem _ hmem, hin⟩

theorem prefix_of_linesBy {s line : List α} {rest : List (List α)}
    (h : linesBy char s = line :: rest) : line <+: s := by
  induction s generalizing line rest with
  | nil => cases h
  | cons c s ih =>
    rw [linesBy] at h
    split at h
    · cases h
      exact List.nil_prefix
    · split at h
      · rename_i hend
        cases s with
        | nil => cases h
        | cons d s =>
          have hd : char d = '\n' := Option.some.inj hend.2
          rw [linesBy, if_pos hd] at h
          cases h
          exact List.nil_prefix
      · cases hlines : linesBy char s with
        | nil =>
          rw [hlines] at h
          cases h
          exact ⟨s, rfl⟩
        | cons front rest =>
          rw [hlines] at h
          cases h
          exact (List.prefix_cons_inj c).2 (ih hlines)

/-- Whether a character is in the first line with a word. -/
def InFirst (needle : List Char) : List (List α) → α → Prop
  | [], _ => False
  | line :: rest, c =>
    if contains needle (line.map char) = true then c ∈ line else InFirst needle rest c

variable {char} in
theorem InFirst.findIdx? {needle : List Char} {found : List (List α)} {c : α}
    (h : InFirst char needle found c) :
    ∃ k line, found.findIdx? (fun line => contains needle (line.map char)) = some k ∧
      found[k]? = some line ∧ c ∈ line := by
  induction found with
  | nil => exact h.elim
  | cons line rest ih =>
    rw [InFirst] at h
    split at h
    · rename_i hhere
      exact ⟨0, line, by rw [List.findIdx?_cons, if_pos hhere], rfl, h⟩
    · rename_i hnot
      obtain ⟨k, line', hfind, hk, hin⟩ := ih h
      refine ⟨k + 1, line', ?_, hk, hin⟩
      rw [List.findIdx?_cons, if_neg hnot, hfind]
      rfl

variable {char} in
/-- A character in front of a line matters only if the word begins with it. -/
theorem InFirst.cons {needle : List Char} {s line : List α} {rest : List (List α)} {c d : α}
    (h : InFirst char needle (line :: rest) d) (hstart : ¬needle <+: (c :: s).map char)
    (hline : line <+: s) : InFirst char needle ((c :: line) :: rest) d := by
  have hsame : contains needle ((c :: line).map char) = contains needle (line.map char) := by
    rw [Bool.eq_iff_iff, contains_iff_isInfix, contains_iff_isInfix, List.map_cons,
      List.infix_cons_iff]
    refine or_iff_right fun hp => hstart (hp.trans ?_)
    rw [← List.map_cons]
    exact ((List.prefix_cons_inj c).2 hline).map char
  rw [InFirst] at h ⊢
  rw [hsame]
  split at h
  · rename_i hhere
    rw [if_pos hhere]
    exact List.mem_cons_of_mem c h
  · rename_i hnot
    rwa [if_neg hnot]

section Words

variable {needle : List Char} (hline : '\n' ∉ needle) (hreturn : '\r' ∉ needle)
include hline hreturn

/-- A word at the start of a text is at the start of the first line. -/
theorem prefix_linesBy {s : List α} (hne : needle ≠ []) (h : needle <+: s.map char) :
    ∃ line rest, linesBy char s = line :: rest ∧ needle <+: line.map char := by
  induction s generalizing needle with
  | nil => exact absurd (List.prefix_nil.1 h) hne
  | cons c s ih =>
    obtain ⟨d, needle, rfl⟩ := List.exists_cons_of_ne_nil hne
    obtain ⟨rfl, htail⟩ := List.cons_prefix_cons.1 h
    rw [List.mem_cons, not_or] at hline hreturn
    have hsplit : linesBy char (c :: s) =
        match linesBy char s with
        | [] => [[c]]
        | line :: rest => (c :: line) :: rest := by
      rw [linesBy, if_neg (Ne.symm hline.1), if_neg fun h => hreturn.1 h.1.symm]
    by_cases hneedle : needle = []
    · subst hneedle
      rw [hsplit]
      cases linesBy char s with
      | nil => exact ⟨[c], [], rfl, List.prefix_rfl⟩
      | cons line rest => exact ⟨c :: line, rest, rfl, ⟨line.map char, rfl⟩⟩
    · obtain ⟨line, rest, hlines, hin⟩ := ih hline.2 hreturn.2 hneedle htail
      rw [hsplit, hlines]
      exact ⟨c :: line, rest, rfl, List.cons_prefix_cons.2 ⟨rfl, hin⟩⟩

/-- The first occurrence of a word is in the first line with it. -/
theorem exists_inFirst {s : List α} {before after : List Char} (hne : needle ≠ [])
    (h : cut? needle (s.map char) = some (before, after)) :
    ∃ c, s[before.length]? = some c ∧ InFirst char needle (linesBy char s) c := by
  induction s generalizing before with
  | nil =>
    rw [List.map_nil, cut?, if_neg (by simpa using hne)] at h
    cases h
  | cons c s ih =>
    rw [List.map_cons] at h
    by_cases hstart : needle <+: char c :: s.map char
    · -- the word is at the start of the first line
      obtain ⟨line, rest, hlines, hin⟩ := prefix_linesBy (s := c :: s) char hline hreturn hne hstart
      rw [cut?, if_pos (List.isPrefixOf_iff_prefix.2 hstart)] at h
      cases h
      obtain ⟨tail, htail⟩ := prefix_of_linesBy char hlines
      cases line with
      | nil => exact absurd (List.prefix_nil.1 hin) hne
      | cons d line =>
        cases htail
        refine ⟨c, rfl, ?_⟩
        rw [hlines, InFirst, if_pos (contains_iff_isInfix.2 hin.isInfix)]
        exact List.mem_cons_self
    · rw [cut?, if_neg fun hp => hstart (List.isPrefixOf_iff_prefix.1 hp)] at h
      obtain ⟨⟨before', after'⟩, hcut, heq⟩ := Option.map_eq_some_iff.1 h
      cases heq
      obtain ⟨d, hd, hin⟩ := ih hcut
      refine ⟨d, hd, ?_⟩
      rw [linesBy]
      split
      · have hempty : ¬contains needle [] = true := by
          rw [contains_iff_isInfix]
          exact fun h => hne (List.eq_nil_of_infix_nil h)
        rw [InFirst, List.map_nil, if_neg hempty]
        exact hin
      · split
        · exact hin
        · cases hlines : linesBy char s with
          | nil =>
            rw [hlines] at hin
            exact hin.elim
          | cons front rest =>
            rw [hlines] at hin
            exact hin.cons hstart (prefix_of_linesBy char hlines)

theorem exists_line_of_infix {s : List Char} (hne : needle ≠ []) (h : needle <:+: s) :
    ∃ line ∈ lines s, contains needle line = true := by
  obtain ⟨before, after, hcut⟩ := exists_cut? h
  rw [← List.map_id s] at hcut
  obtain ⟨c, -, hin⟩ := exists_inFirst id hline hreturn hne hcut
  obtain ⟨k, line, hfind, -⟩ := hin.findIdx?
  have hlines : linesBy id s = lines s := by simpa using map_linesBy id s
  obtain ⟨hlt, hline, -⟩ := List.findIdx?_eq_some_iff_getElem.1 hfind
  rw [List.map_id] at hline
  exact ⟨_, hlines ▸ List.getElem_mem hlt, hline⟩

end Words

end ResumePress.Text
