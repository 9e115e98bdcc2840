import ResumePress.Latex.Preamble
import ResumePress.Proofs.Latex.Borders
import ResumePress.Proofs.Text.Lines

/-!
Preambles and comments. Only the commands are read without comment lines; packages, the class and
the words that call for packages count wherever they stand. A comment line may be left out if it
says none of these first, and a package in one is taken for a package.
-/

namespace ResumePress.Latex

open Text

theorem isCommand_of_mem : ∀ d ∈ [documentClass, package], d.IsCommand := by
  have hplain : ∀ word ∈ ["documentclass".toList, "usepackage".toList],
      (word.all fun c => c != '\\' && c != '\n' && c != '%' && c != ']') = true := by decide
  simp only [List.forall_mem_cons, List.all_eq_true, Bool.and_eq_true, bne_iff_ne, and_assoc]
    at hplain ⊢
  exact ⟨⟨_, rfl, hplain.1⟩, ⟨_, rfl, hplain.2.1⟩, nofun⟩

namespace Preamble

variable {before line after s t : List Char}

/-! ### Words that call for packages -/

/-- The packages that are called for, with the words that call for them. -/
def implied : List (List (List Char) × String) :=
  [(["\\begin\x7btabularx\x7d".toList], "\\usepackage\x7btabularx\x7d"),
    (["\\begin\x7blongtable\x7d".toList], "\\usepackage\x7blongtable\x7d"),
    (colorStarts, "\\usepackage[dvipsnames]\x7bxcolor\x7d"),
    (["\\setmainfont".toList], "\\usepackage\x7bfontspec\x7d")]

def Mentions (words : List (List Char)) (s : List Char) : Prop :=
  ∃ word ∈ words, word <:+: s

instance (words : List (List Char)) (s : List Char) : Decidable (Mentions words s) :=
  inferInstanceAs (Decidable (∃ word ∈ words, word <:+: s))

theorem contains_iff_mentions (word s : List Char) :
    contains word s = true ↔ Mentions [word] s := by
  simp only [Mentions, List.mem_singleton, exists_eq_left, contains_iff_isInfix]

theorem occursIn_color_iff : colorCommand.occursIn s = true ↔ Mentions colorStarts s := by
  have hmatch : ∀ rest,
      (colorCommand.matchAt rest).isSome ↔ ∃ word ∈ colorStarts, word <+: rest := by
    intro rest
    simp only [colorCommand, Option.isSome_map, List.find?_isSome, List.isPrefixOf_iff_prefix]
  rw [Pattern.occursIn_iff]
  simp only [hmatch, Mentions, List.infix_iff_prefix_suffix]
  constructor
  · rintro ⟨rest, hrest, word, hword, hin⟩
    exact ⟨word, hword, rest, hin, hrest⟩
  · rintro ⟨word, hword, rest, hin, hrest⟩
    exact ⟨rest, hrest, word, hword, hin⟩

theorem impliedPackages_eq (s : List Char) :
    impliedPackages s = (implied.filter fun group => Mentions group.1 s).map Prod.snd := by
  simp only [impliedPackages, contains_iff_mentions, occursIn_color_iff, implied, List.filter_cons,
    List.filter_nil, decide_eq_true_eq]
  split <;> split <;> split <;> split <;> rfl

theorem mentions_line_iff {words : List (List Char)} (h : ∀ word ∈ words, '\n' ∉ word) :
    Mentions words (s ++ '\n' :: t) ↔ Mentions words s ∨ Mentions words t := by
  unfold Mentions
  rw [← exists_or]
  refine exists_congr fun word => ?_
  rw [← and_or_left]
  exact and_congr_right fun hword => infix_separated_iff (h word hword)

theorem mentions_append_iff (hstart : ∀ c ∈ before.getLast?, c = '\n')
    {words : List (List Char)} (h : ∀ word ∈ words, '\n' ∉ word) :
    Mentions words (before ++ s) ↔ Mentions words before ∨ Mentions words s := by
  have hempty : Mentions words [] → Mentions words s :=
    fun ⟨word, hword, hin⟩ => ⟨word, hword, hin.trans List.nil_infix⟩
  rcases List.eq_nil_or_concat before with rfl | ⟨u, c, rfl⟩
  · exact ⟨.inr, fun h => h.elim hempty id⟩
  · obtain rfl : c = '\n' := hstart c (by simp)
    rw [List.concat_eq_append, List.append_assoc, List.singleton_append, mentions_line_iff h,
      mentions_line_iff h, or_assoc,
      or_iff_right_of_imp (a := Mentions words []) (b := Mentions words s) hempty]

/-! ### Commands -/

/-- What stands between the first line with one property and the first line with another one. -/
def between (starts ends : List Char → Bool) (all : List (List Char)) : List (List Char) :=
  match all.findIdx? starts, all.findIdx? ends with
  | some first, some last => (all.take last).drop (first + 1)
  | _, _ => []

theorem commandLines_eq (s : List Char) : commandLines s =
    ((between (contains className) (contains beginDocument) (lines s)).filter
      fun line => isCommand (trim line)).map trim := by
  have hfilter : (fun line => isCommand (trim line)) = isCommand ∘ trim := rfl
  rw [hfilter, ← List.filter_map]
  unfold commandLines between
  dsimp only
  cases (lines s).findIdx? (contains className) with
  | none => rfl
  | some first => cases (lines s).findIdx? (contains beginDocument) <;> rfl

/-- A line that does not count and is not the first one of either kind may be left out. -/
theorem between_append {starts ends counts : List Char → Bool} {front back : List (List Char)}
    {line : List Char} (hcounts : counts line = false)
    (hstarts : starts line = true → ∃ other ∈ front, starts other = true)
    (hends : ends line = true → ∃ other ∈ front, ends other = true) :
    (between starts ends (front ++ line :: back)).filter counts =
      (between starts ends (front ++ back)).filter counts := by
  have hlater : ∀ {p : List Char → Bool}, (p line = true → ∃ other ∈ front, p other = true) →
      front.findIdx? p = none → p line = false := by
    intro p hp hnone
    rw [Bool.eq_false_iff]
    intro hline
    obtain ⟨other, hmem, hother⟩ := hp hline
    rw [List.findIdx?_eq_none_iff.1 hnone other hmem] at hother
    cases hother
  have htake : ∀ n all, (front ++ all).take (n + front.length) = front ++ all.take n := by
    intro n all
    rw [Nat.add_comm, List.take_length_add_append]
  have hdrop : ∀ n all, (front ++ all).drop (n + front.length) = all.drop n := by
    intro n all
    rw [Nat.add_comm, List.drop_length_add_append]
  -- each of the two lines is in front of the one that is left out, or else behind it
  unfold between
  simp only [List.findIdx?_append, List.findIdx?_cons]
  cases hfirst : front.findIdx? starts with
  | some first =>
    have hlow := (List.findIdx?_eq_some_iff_getElem.1 hfirst).1
    cases hlast : front.findIdx? ends with
    | some last =>
      have hhigh := (List.findIdx?_eq_some_iff_getElem.1 hlast).1
      simp only [Option.some_or]
      rw [List.take_append_of_le_length (by omega), List.take_append_of_le_length (by omega)]
    | none =>
      rw [hlater hends hlast]
      cases back.findIdx? ends with
      | none => rfl
      | some last =>
        simp only [Option.some_or, Option.none_or, Option.map_some, Bool.false_eq_true, if_false]
        rw [htake, htake, List.drop_append_of_le_length (by omega),
          List.drop_append_of_le_length (by omega), List.filter_append, List.filter_append,
          List.take_succ_cons, List.filter_cons_of_neg (by simp [hcounts])]
  | none =>
    rw [hlater hstarts hfirst]
    cases hlast : front.findIdx? ends with
    | some last =>
      have hhigh := (List.findIdx?_eq_some_iff_getElem.1 hlast).1
      cases back.findIdx? starts with
      | none => rfl
      | some first =>
        simp only [Option.some_or, Option.none_or, Option.map_some, Bool.false_eq_true, if_false]
        rw [List.drop_eq_nil_of_le (by simp; omega), List.drop_eq_nil_of_le (by simp; omega)]
    | none =>
      rw [hlater hends hlast]
      cases back.findIdx? starts with
      | none => rfl
      | some first =>
        cases back.findIdx? ends with
        | none => rfl
        | some last =>
          simp only [Option.none_or, Option.map_some, Bool.false_eq_true, if_false]
          rw [htake, htake, Nat.add_right_comm, Nat.add_right_comm first front.length, hdrop,
            hdrop, List.take_succ_cons, List.drop_succ_cons]

/-! ### Comment lines -/

/-- A comment line of a source, outside of the declarations that begin before it. -/
structure CommentLine (before line after : List Char) : Prop where
  start : ∀ c ∈ before.getLast?, c = '\n'
  single : '\n' ∉ line
  comment : (trimStart line).head? = some '%'
  outside : ∀ d ∈ [Latex.documentClass, package], d.SplitsAt before (line ++ '\n' :: after)

instance (before line after : List Char) : Decidable (CommentLine before line after) :=
  -- not by going through all characters
  let _ : Decidable (∀ c ∈ before.getLast?, c = '\n') := Option.decidableForallMem _
  decidable_of_iff ((∀ c ∈ before.getLast?, c = '\n') ∧ '\n' ∉ line ∧
      (trimStart line).head? = some '%' ∧
      ∀ d ∈ [Latex.documentClass, package], d.SplitsAt before (line ++ '\n' :: after))
    ⟨fun h => ⟨h.1, h.2.1, h.2.2.1, h.2.2.2⟩, fun h => ⟨h.start, h.single, h.comment, h.outside⟩⟩

/-- Whether a line declares nothing, and says nothing that is not said without it. -/
structure Idle (before line after : List Char) : Prop where
  options : ']' ∈ line → ∀ d ∈ [Latex.documentClass, package], ¬d.LeavesOpen before
  packages : package.Settles (line ++ ['\n']) []
  documentClass : Latex.documentClass.Settles (line ++ ['\n']) [] ∨
    Latex.documentClass.pattern.values before ≠ []
  boundaries : ∀ word ∈ [className, beginDocument], word <:+: line → word <:+: before
  words : ∀ group ∈ implied, Mentions group.1 line →
    Mentions group.1 before ∨ Mentions group.1 after

theorem lines_append_of_start (hstart : ∀ c ∈ before.getLast?, c = '\n') (s : List Char) :
    lines (before ++ s) = lines before ++ lines s := by
  rcases List.eq_nil_or_concat before with rfl | ⟨u, c, rfl⟩
  · rfl
  · obtain rfl : c = '\n' := hstart c (by simp)
    rw [List.concat_eq_append, List.append_assoc, List.singleton_append, lines_append]

theorem isCommand_comment {text : List Char} (h : (trimStart line).head? = some '%')
    (htext : line = text ∨ line = text ++ ['\r']) : isCommand (trim text) = false := by
  have hstart : (trimStart text).head? = some '%' := by
    rcases htext with rfl | rfl
    · exact h
    · unfold trimStart at h ⊢
      rw [List.dropWhile_append] at h
      split at h
      · cases h
      · cases hfront : text.dropWhile isBlank with
        | nil => simp_all
        | cons c front =>
          rw [hfront] at h
          exact h
  obtain ⟨rest, hrest⟩ := List.head?_eq_some_iff.1 hstart
  have hhead : (trim text).head? = some '%' := by
    unfold trim trimEnd
    rw [hrest, List.reverse_cons, List.dropWhile_append]
    split
    · rfl
    · rw [List.reverse_append]
      rfl
  simp [isCommand, hhead]

theorem commandLines_comment (h : CommentLine before line after)
    (hidle : ∀ word ∈ [className, beginDocument], word <:+: line → word <:+: before) :
    commandLines (before ++ (line ++ '\n' :: after)) = commandLines (before ++ after) := by
  obtain ⟨text, hlines, htext⟩ := lines_line h.single
  have hplain : ∀ word ∈ [className, beginDocument], '\n' ∉ word ∧ '\r' ∉ word ∧ word ≠ [] := by
    decide
  have hmention : ∀ word ∈ [className, beginDocument], contains word text = true →
      ∃ other ∈ lines before, contains word other = true := by
    intro word hword hin
    have hline : word <:+: line := by
      refine (contains_iff_isInfix.1 hin).trans ?_
      rcases htext with rfl | rfl
      · exact List.infix_rfl
      · exact (List.prefix_append text _).isInfix
    obtain ⟨hfeed, hreturn, hne⟩ := hplain word hword
    exact exists_line_of_infix hfeed hreturn hne (hidle word hword hline)
  rw [commandLines_eq, commandLines_eq, lines_append_of_start h.start,
    lines_append_of_start h.start, lines_append, hlines, List.singleton_append]
  exact congrArg (List.map trim)
    (between_append (isCommand_comment h.comment htext) (hmention _ (by simp))
      (hmention _ (by simp)))

theorem values_comment (h : CommentLine before line after) {d : Directive}
    (hd : d ∈ [Latex.documentClass, package]) {uses : List Use}
    (hline : d.Settles (line ++ ['\n']) uses) :
    d.pattern.values (before ++ (line ++ '\n' :: after)) =
      d.pattern.values before ++ (uses ++ d.pattern.values after) := by
  have hvalues := hline.values_append after
  rw [List.append_assoc, List.singleton_append] at hvalues
  rw [(h.outside d hd).values_append, hvalues]

theorem values_without_comment (h : CommentLine before line after) {d : Directive}
    (hd : d ∈ [Latex.documentClass, package]) (hopen : ']' ∈ line → ¬d.LeavesOpen before) :
    d.pattern.values (before ++ after) = d.pattern.values before ++ d.pattern.values after :=
  ((h.outside d hd).without_line (isCommand_of_mem d hd) h.start hopen).values_append

theorem mentions_comment (h : CommentLine before line after) {words : List (List Char)}
    (hwords : ∀ word ∈ words, '\n' ∉ word) :
    (Mentions words (before ++ (line ++ '\n' :: after)) ↔
      Mentions words before ∨ Mentions words line ∨ Mentions words after) ∧
    (Mentions words (before ++ after) ↔ Mentions words before ∨ Mentions words after) := by
  rw [mentions_append_iff h.start hwords, mentions_append_iff h.start hwords,
    mentions_line_iff hwords]
  exact ⟨Iff.rfl, Iff.rfl⟩

theorem single_implied : ∀ group ∈ implied, ∀ word ∈ group.1, '\n' ∉ word := by
  decide

theorem impliedPackages_comment (h : CommentLine before line after) :
    (impliedPackages (before ++ after)).Sublist
        (impliedPackages (before ++ (line ++ '\n' :: after))) ∧
      (impliedPackages (before ++ (line ++ '\n' :: after)) = impliedPackages (before ++ after) ↔
        ∀ group ∈ implied, Mentions group.1 line →
          Mentions group.1 before ∨ Mentions group.1 after) := by
  have hwith : ∀ group ∈ implied, Mentions group.1 (before ++ (line ++ '\n' :: after)) ↔
      Mentions group.1 before ∨ Mentions group.1 line ∨ Mentions group.1 after :=
    fun group hgroup => (mentions_comment h (single_implied group hgroup)).1
  have hwithout : ∀ group ∈ implied, Mentions group.1 (before ++ after) ↔
      Mentions group.1 before ∨ Mentions group.1 after :=
    fun group hgroup => (mentions_comment h (single_implied group hgroup)).2
  have hsublist : (implied.filter fun group => Mentions group.1 (before ++ after)).Sublist
      (implied.filter fun group => Mentions group.1 (before ++ (line ++ '\n' :: after))) := by
    have hfilter : (implied.filter fun group => Mentions group.1 (before ++ after)) =
        (implied.filter fun group => Mentions group.1 (before ++ (line ++ '\n' :: after))).filter
          fun group => Mentions group.1 (before ++ after) := by
      rw [List.filter_filter]
      refine List.filter_congr fun group hgroup => ?_
      rw [← Bool.decide_and, decide_eq_decide, hwith group hgroup, hwithout group hgroup]
      exact (and_iff_left_of_imp fun hin => hin.imp_right .inr).symm
    rw [hfilter]
    exact List.filter_sublist
  rw [impliedPackages_eq, impliedPackages_eq]
  refine ⟨hsublist.map _, ?_, ?_⟩
  · intro heq group hgroup hline
    have hlength := congrArg List.length heq
    rw [List.length_map, List.length_map] at hlength
    have hmem : group ∈
        implied.filter fun group => Mentions group.1 (before ++ (line ++ '\n' :: after)) :=
      List.mem_filter.2 ⟨hgroup, decide_eq_true ((hwith group hgroup).2 (.inr (.inl hline)))⟩
    rw [← hsublist.eq_of_length hlength.symm] at hmem
    exact (hwithout group hgroup).1 (of_decide_eq_true (List.mem_filter.1 hmem).2)
  · intro hwords
    congr 1
    refine List.filter_congr fun group hgroup => ?_
    rw [decide_eq_decide, hwith group hgroup, hwithout group hgroup]
    have := hwords group hgroup
    grind

attribute [ext] Preamble

theorem documentClass_eq (source : String) : (ofSource source).documentClass =
    ((Latex.documentClass.pattern.values source.toList).head?.map fun use =>
      String.ofList (Latex.documentClass.written use)).getD defaultClass := by
  simp only [ofSource, Pattern.first?, Directive.hits_eq, List.head?_map]
  cases (Latex.documentClass.pattern.values source.toList).head? <;> rfl

theorem packages_eq (source : String) : (ofSource source).packages =
    (package.pattern.values source.toList).map (fun use => String.ofList (package.written use)) ++
      impliedPackages source.toList := by
  simp only [ofSource, declarations, Directive.hits_eq, List.map_map]
  rfl

theorem toList_comment (before line after : String) :
    (before ++ line ++ "\n" ++ after).toList =
      before.toList ++ (line.toList ++ '\n' :: after.toList) := by
  simp

/-- A comment line may be left out if it is idle. The packages that are declared in a comment line
are among the packages, so they change if it declares one or calls for one. -/
theorem ofSource_comment (before line after : String)
    (h : CommentLine before.toList line.toList after.toList) :
    (Idle before.toList line.toList after.toList →
      ofSource (before ++ line ++ "\n" ++ after) = ofSource (before ++ after)) ∧
    (package.closes (line.toList ++ ['\n']) = true →
      (∀ use ∈ package.pattern.values (line.toList ++ ['\n']),
        String.ofList (package.written use) ∈
          (ofSource (before ++ line ++ "\n" ++ after)).packages) ∧
      ((']' ∈ line.toList → ¬package.LeavesOpen before.toList) →
        ((ofSource (before ++ line ++ "\n" ++ after)).packages =
            (ofSource (before ++ after)).packages ↔
          package.pattern.values (line.toList ++ ['\n']) = [] ∧
            ∀ group ∈ implied, Mentions group.1 line.toList →
              Mentions group.1 before.toList ∨ Mentions group.1 after.toList))) := by
  have hpackage : package ∈ [Latex.documentClass, package] := by simp
  have hclass : Latex.documentClass ∈ [Latex.documentClass, package] := by simp
  have himplied := impliedPackages_comment h
  refine ⟨fun hidle => ?_, fun hcloses => ?_⟩
  · have hwithout := fun d hd => values_without_comment (d := d) h hd
      fun hclose => hidle.options hclose d hd
    refine Preamble.ext ?_ ?_ ?_
    · rw [documentClass_eq, documentClass_eq, toList_comment, String.toList_append,
        hwithout _ hclass]
      rcases hidle.documentClass with hsettles | hne
      · rw [values_comment h hclass hsettles, List.nil_append]
      · obtain ⟨use, uses, huses⟩ := List.exists_cons_of_ne_nil hne
        rw [(h.outside _ hclass).values_append, huses]
        rfl
    · rw [packages_eq, packages_eq, toList_comment, String.toList_append,
        values_comment h hpackage hidle.packages, List.nil_append, hwithout _ hpackage,
        himplied.2.2 hidle.words]
    · show (commandLines _).map String.ofList = (commandLines _).map String.ofList
      rw [toList_comment, String.toList_append, commandLines_comment h hidle.boundaries]
  · have hvalues := values_comment h hpackage (package.settles_of_closes _ hcloses)
    refine ⟨fun use huse => ?_, fun hopen => ?_⟩
    · rw [packages_eq, toList_comment, hvalues]
      refine List.mem_append_left _ (List.mem_map.2 ⟨use, ?_, rfl⟩)
      simp [huse]
    · have hwithout := values_without_comment h hpackage hopen
      rw [packages_eq, packages_eq, toList_comment, String.toList_append, hvalues, hwithout,
        ← himplied.2]
      constructor
      · intro heq
        have hlength := congrArg List.length heq
        have himpl := himplied.1.length_le
        simp only [List.length_append, List.length_map] at hlength
        have hnil := List.length_eq_zero_iff.1
          (show (package.pattern.values (line.toList ++ ['\n'])).length = 0 by omega)
        rw [hnil, List.nil_append] at heq
        exact ⟨hnil, List.append_cancel_left heq⟩
      · rintro ⟨hnil, heq⟩
        rw [hnil, heq, List.nil_append]

-- a comment that names what is above and below it, and a package in a comment
theorem ofSource_comment_of_cv :
    let before := "\\documentclass\x7bcv\x7d\n\\usepackage[a4]\x7bgeometry\x7d\n"
    let line := "  % \\documentclass, \\usepackage and \\color\x7bred\x7d"
    let active := "%\\usepackage\x7bfoo\x7d"
    let after := "\\color\x7bred\x7d\n\\begin\x7bdocument\x7d\n"
    ofSource (before ++ line ++ "\n" ++ after) = ofSource (before ++ after) ∧
      "\\usepackage\x7bfoo\x7d" ∈ (ofSource (before ++ active ++ "\n" ++ after)).packages ∧
      (ofSource (before ++ active ++ "\n" ++ after)).packages ≠
        (ofSource (before ++ after)).packages := by
  intro before line active after
  have hcomment : CommentLine before.toList line.toList after.toList := by decide +kernel
  have hvalues : package.pattern.values (line.toList ++ ['\n']) = [] := by decide +kernel
  have hidle : Idle before.toList line.toList after.toList := {
    options := fun h => absurd h (by decide +kernel)
    packages := by
      have hsettles := package.settles_of_closes (line.toList ++ ['\n']) (by decide +kernel)
      rwa [hvalues] at hsettles
    documentClass := .inr (by decide +kernel)
    boundaries := by decide +kernel
    words := by decide +kernel }
  have hactive : CommentLine before.toList active.toList after.toList := by decide +kernel
  obtain ⟨hin, hiff⟩ := (ofSource_comment before active after hactive).2 (by decide +kernel)
  refine ⟨(ofSource_comment before line after hcomment).1 hidle, ?_, ?_⟩
  · exact hin ⟨none, "foo".toList⟩ (by decide +kernel)
  · rw [ne_eq, hiff fun h => absurd h (by decide +kernel)]
    decide +kernel

-- a package, a class, the beginning of the body and a font in a comment, the word before the class,
-- and a bracket in a comment behind options that are not closed
theorem ofSource_comment_ne : ([
      ("\\documentclass\x7bcv\x7d\n", "% \\usepackage\x7bfoo\x7d", "Hi\n"),
      ("% classes\n", "% \\documentclass\x7bold\x7d", "\\documentclass\x7bcv\x7d\n"),
      ("\\documentclass\x7bcv\x7d\n", "% \\begin\x7bdocument\x7d",
        "\\raggedright\n\\begin\x7bdocument\x7d\n"),
      ("\\documentclass\x7bcv\x7d\n", "% \\setmainfont\x7bx\x7d", "Hi\n"),
      ("% cv\n", "% \\documentclass is below",
        "\\raggedright\n\\documentclass\x7bcv\x7d\n\\begin\x7bdocument\x7d\n"),
      ("\\usepackage[p\n", "% q] r", "]\x7bz\x7d\n")].all
    fun parts => CommentLine parts.1.toList parts.2.1.toList parts.2.2.toList ∧
      ofSource (parts.1 ++ parts.2.1 ++ "\n" ++ parts.2.2) ≠
        ofSource (parts.1 ++ parts.2.2)) = true := by
  decide +kernel

end Preamble

end ResumePress.Latex
