import ResumePress.Proofs.Latex.Groups
import ResumePress.Proofs.Text.Margins
import ResumePress.Template.Profile

/-!
Headings with an icon. The title of a heading ends at the first closing brace, and there the icon
goes: behind the whole title if it has no groups, and otherwise behind the first group that closes
in it. All else in a content stays as it is.
-/

namespace ResumePress

open Latex Text

namespace Latex

/-- What a heading starts with. -/
def headingStart : List Char := heading.name ++ ['\x7b']

/-- A heading and the text behind it. -/
structure Section where
  title : List Char
  text : List Char

/-- The name of a heading with an icon. -/
def iconHeading : List Char := "\\headright".toList

/-- The icon of a heading. -/
def icon : List Char := "\\workIcon".toList

/-- A heading with an icon on its right. -/
def headingRight (title : List Char) : List Char :=
  iconHeading ++ braced title ++ braced icon

namespace Section

/-- A section that has one heading, with a title in which all groups are closed. -/
structure IsWhole (s : Section) : Prop where
  ne_nil : s.title ≠ []
  balanced : Balanced s.title
  title : ¬headingStart <:+: s.title
  text : ¬headingStart <:+: s.text

instance (s : Section) : Decidable s.IsWhole :=
  decidable_of_iff (s.title ≠ [] ∧ Balanced s.title ∧ ¬headingStart <:+: s.title ∧
      ¬headingStart <:+: s.text)
    ⟨fun h => ⟨h.1, h.2.1, h.2.2.1, h.2.2.2⟩, fun h => ⟨h.ne_nil, h.balanced, h.title, h.text⟩⟩

/-- The section as it is written. -/
def written (s : Section) : List Char :=
  heading.name ++ braced s.title ++ s.text

/-- The section with an icon behind its title. -/
def intended (s : Section) : List Char :=
  headingRight s.title ++ s.text

/-- The title before the first closing brace. -/
def front (s : Section) : List Char :=
  s.title.takeWhile (· != '\x7d')

/-- What stands between the first closing brace and the text, with the brace that ends the title if
that is not the first one. -/
def rest (s : Section) : List Char :=
  (s.title.dropWhile (· != '\x7d') ++ ['\x7d']).tail

/-- The section with an icon behind the first closing brace. -/
def restyled (s : Section) : List Char :=
  headingRight s.front ++ s.rest ++ s.text

variable {s : Section}

theorem parts_of_not_mem (h : '\x7d' ∉ s.title) : s.front = s.title ∧ s.rest = [] := by
  have hall : ∀ c ∈ s.title, (c != '\x7d') = true := fun c hc =>
    bne_iff_ne.2 fun heq => h (heq ▸ hc)
  rw [front, rest, List.takeWhile_eq_self_iff.2 hall, List.dropWhile_eq_nil_iff.2 hall]
  exact ⟨rfl, rfl⟩

theorem parts_of_mem (h : '\x7d' ∈ s.title) :
    ∃ tail, s.title = s.front ++ '\x7d' :: tail ∧ s.rest = tail ++ ['\x7d'] := by
  obtain ⟨before, tail, htitle, hbefore⟩ := List.eq_append_cons_of_mem h
  have hall : ∀ c ∈ before, (c != '\x7d') = true := fun c hc =>
    bne_iff_ne.2 fun heq => hbefore (heq ▸ hc)
  refine ⟨tail, ?_, ?_⟩
  · rw [front, htitle, List.takeWhile_append_of_pos hall]
    simp
  · rw [rest, htitle, List.dropWhile_append_of_pos hall]
    simp

theorem title_eq (s : Section) : s.title ++ ['\x7d'] = s.front ++ '\x7d' :: s.rest := by
  by_cases h : '\x7d' ∈ s.title
  · obtain ⟨tail, htitle, hrest⟩ := parts_of_mem h
    rw [hrest, ← List.cons_append, ← List.append_assoc, ← htitle]
  · obtain ⟨hfront, hrest⟩ := parts_of_not_mem h
    rw [hfront, hrest]

theorem not_mem_front (s : Section) : '\x7d' ∉ s.front := fun h => by
  simpa using List.mem_takeWhile_imp h

theorem IsWhole.front_ne_nil (h : s.IsWhole) : s.front ≠ [] := by
  intro hnil
  obtain ⟨c, tail, htitle⟩ := List.exists_cons_of_ne_nil h.ne_nil
  -- a title that is balanced closes nothing at its start
  have hc : c ≠ '\x7d' := by
    rintro rfl
    have := h.balanced.count_le ['\x7d'] ⟨tail, htitle.symm⟩
    simp at this
  simp [front, htitle, hc] at hnil

/-! ### The sections as they are read -/

theorem IsWhole.isUse_front (h : s.IsWhole) : heading.IsUse ⟨none, s.front⟩ where
  takesOptions hsome := absurd rfl hsome
  options := nofun
  argument := not_mem_front s
  ne_nil _ := h.front_ne_nil

theorem braced_title (s : Section) : braced s.title = braced s.front ++ s.rest := by
  have hbraced : braced s.title = '\x7b' :: (s.title ++ ['\x7d']) := rfl
  rw [hbraced, title_eq]
  simp [braced]

theorem written_eq (s : Section) :
    s.written = heading.written ⟨none, s.front⟩ ++ (s.rest ++ s.text) := by
  rw [written, braced_title]
  simp [Directive.written, bracketed]

theorem headingStart_prefix (s : Section) : headingStart <+: s.written :=
  ⟨s.title ++ ['\x7d'] ++ s.text, by simp [headingStart, written, braced]⟩

theorem IsWhole.not_infix_rest (h : s.IsWhole) : ¬headingStart <:+: s.rest ++ s.text := by
  intro hin
  have hsuffix : s.rest ++ s.text <:+ s.title ++ '\x7d' :: s.text := by
    refine ⟨s.front ++ ['\x7d'], ?_⟩
    have htitle : s.title ++ '\x7d' :: s.text = s.title ++ ['\x7d'] ++ s.text := by simp
    rw [htitle, title_eq]
    simp
  rcases (infix_separated_iff (by decide)).1 (hin.trans hsuffix.isInfix) with hin | hin
  · exact h.title hin
  · exact h.text hin

/-! ### Where the icon goes -/

/-- A group that closes in the title is open in front of that, and behind it more is closed than
opened, as the title ends in balance. -/
theorem IsWhole.height_rest_neg (h : s.IsWhole) (hclose : '\x7d' ∈ s.title) :
    height s.rest < 0 := by
  obtain ⟨tail, htitle, hrest⟩ := parts_of_mem hclose
  obtain ⟨hlow, hend⟩ := balanced_iff.1 h.balanced
  have hopen : 0 ≤ height (s.front ++ ['\x7d']) := hlow _ ⟨tail, by simp [← htitle]⟩
  have hcons : height ('\x7d' :: tail) = -1 + height tail := height_append ['\x7d'] tail
  rw [htitle, height_append, hcons] at hend
  rw [height_append, height_close] at hopen
  rw [hrest, height_append, height_close]
  omega

end Section

/-- A text that may change places with an argument opens no fewer groups than it closes: it is made
of whole copies of the argument and a part of one. -/
theorem height_nonneg_of_comm {argument s : List Char} (hclose : '\x7d' ∉ argument)
    (h : braced argument ++ s = s ++ braced argument) : 0 ≤ height s := by
  rcases List.prefix_or_prefix_of_prefix (List.prefix_append (braced argument) s)
    (h ▸ List.prefix_append s (braced argument)) with ⟨rest, rfl⟩ | hpart
  · have hrest : braced argument ++ rest = rest ++ braced argument := by
      rw [List.append_assoc] at h
      exact List.append_cancel_left h
    have hle := height_nonneg_of_comm hclose hrest
    have hargument := height_nonneg hclose
    rw [height_append, height_braced]
    omega
  · exact height_nonneg_of_prefix_braced hclose hpart
termination_by s.length
decreasing_by
  rename_i hs
  rw [← hs, List.length_append, braced]
  simp

namespace Section

variable {s : Section}

/-- The icon stands behind the whole title exactly if no group closes in it. -/
theorem IsWhole.restyled_eq_intended_iff (h : s.IsWhole) :
    s.restyled = s.intended ↔ '\x7d' ∉ s.title := by
  constructor
  · intro heq hclose
    simp only [restyled, intended, headingRight, braced_title, List.append_assoc,
      List.append_cancel_left_eq] at heq
    rw [← List.append_assoc, ← List.append_assoc s.rest] at heq
    have hlow := height_nonneg_of_comm (by decide) (List.append_cancel_right heq)
    exact Int.not_le.2 (h.height_rest_neg hclose) hlow
  · intro hclose
    obtain ⟨hfront, hrest⟩ := parts_of_not_mem hclose
    rw [restyled, intended, hfront, hrest, List.append_nil]

theorem length_restyled (s : Section) : s.restyled.length = s.intended.length := by
  rw [restyled, intended, headingRight, headingRight, braced_title]
  simp only [List.length_append]
  omega

end Section

/-- Texts of the same lengths can be told apart part by part. -/
theorem flatMap_eq_iff {α : Type} {f g : α → List Char} {items : List α}
    (h : ∀ x ∈ items, (f x).length = (g x).length) :
    items.flatMap f = items.flatMap g ↔ ∀ x ∈ items, f x = g x := by
  induction items with
  | nil => simp
  | cons x items ih =>
    obtain ⟨hx, hitems⟩ := List.forall_mem_cons.1 h
    rw [List.flatMap_cons, List.flatMap_cons, List.forall_mem_cons, ← ih hitems]
    constructor
    · intro heq
      exact List.append_inj heq hx
    · rintro ⟨hfirst, hrest⟩
      rw [hfirst, hrest]

/-! ### Sections one after the other -/

variable {a b lead : List Char} {sections : List Section}

theorem isMarker_headingStart : IsMarker headingStart := ⟨'\\', _, rfl, by decide⟩

theorem headingStart_prefix_of_read? {s rest : List Char} {use : Use}
    (h : heading.read? s = some (use, rest)) : headingStart <+: s := by
  obtain ⟨huse, rfl⟩ := Directive.read?_eq_some.1 h
  have hnone : use.options = none := by
    by_contra hsome
    exact absurd (huse.takesOptions hsome) (by decide)
  exact ⟨use.argument ++ ['\x7d'] ++ rest, by
    simp [headingStart, Directive.written, hnone, bracketed, braced]⟩

/-- Text in which no heading starts stays as it is, in front of a heading or at the end. -/
theorem replace_append (f : List Char → Use → List Char) (ha : ¬headingStart <:+: a)
    (hb : b = [] ∨ headingStart <+: b) :
    heading.pattern.replace f (a ++ b) = a ++ heading.pattern.replace f b := by
  induction a with
  | nil => rfl
  | cons c a ih =>
    have hread : heading.read? (c :: (a ++ b)) = none := by
      rw [Option.eq_none_iff_forall_ne_some]
      rintro ⟨use, rest⟩ hsome
      rcases prefix_append_cases (headingStart_prefix_of_read? hsome) (List.cons_ne_nil c a)
        with hin | hborder
      · exact ha hin.isInfix
      · rcases hb with rfl | ⟨b, rfl⟩
        · obtain ⟨k, hk, -, -, hback⟩ := hborder
          have := List.drop_eq_nil_iff.1 (List.prefix_nil.1 hback)
          exact absurd (List.mem_range.1 hk) (Nat.not_lt.2 this)
        · exact isMarker_headingStart.not_straddles _ _ hborder
    rw [List.cons_append, Directive.replace_cons_of_none hread, List.cons_append,
      ih fun hin => ha (List.infix_cons hin)]

theorem flatMap_written (sections : List Section) :
    sections.flatMap Section.written = [] ∨ headingStart <+: sections.flatMap Section.written := by
  cases sections with
  | nil => exact .inl rfl
  | cons s sections =>
    rw [List.flatMap_cons]
    exact .inr (s.headingStart_prefix.trans (List.prefix_append _ _))

/-- Every section of a text is restyled on its own. -/
theorem replace_sections (h : ∀ s ∈ sections, s.IsWhole) :
    heading.pattern.replace (fun _ use => headingRight use.argument)
      (sections.flatMap Section.written) = sections.flatMap Section.restyled := by
  induction sections with
  | nil => rfl
  | cons s sections ih =>
    obtain ⟨hs, hsections⟩ := List.forall_mem_cons.1 h
    rw [List.flatMap_cons, List.flatMap_cons, Section.written_eq, List.append_assoc,
      Directive.replace_written hs.isUse_front,
      replace_append _ hs.not_infix_rest (flatMap_written sections), ih hsections]
    simp only [Section.restyled, List.append_assoc]

theorem headingsToRight_eq (content : String) : Profile.headingsToRight content =
    String.ofList (heading.pattern.replace (fun _ use => headingRight use.argument)
      content.toList) := rfl

theorem headingsToRight_sections (hlead : ¬headingStart <:+: lead)
    (h : ∀ s ∈ sections, s.IsWhole) :
    Profile.headingsToRight (String.ofList (lead ++ sections.flatMap Section.written)) =
      String.ofList (lead ++ sections.flatMap Section.restyled) := by
  rw [headingsToRight_eq, String.toList_ofList, replace_append _ hlead (flatMap_written sections),
    replace_sections h]

end Latex

/-- The two-column template restyles a text of sections whose groups are all closed by putting an
icon behind the first closing brace of every heading. The icon stands behind the whole title of each
of them, and everything else is as it was, exactly if no title has a group. -/
theorem ProfileTable.restyles_sections {lead : List Char} {sections : List Latex.Section}
    (hlead : ¬Latex.headingStart <:+: lead) (h : ∀ s ∈ sections, s.IsWhole) :
    ∃ f, (builtin.get? "John_Miller_CV").bind Profile.restyle = some f ∧
      f (String.ofList (lead ++ sections.flatMap Section.written)) =
        .ok (String.ofList (lead ++ sections.flatMap Section.restyled)) ∧
      (f (String.ofList (lead ++ sections.flatMap Section.written)) =
          .ok (String.ofList (lead ++ sections.flatMap Section.intended)) ↔
        ∀ s ∈ sections, '\x7b' ∉ s.title ∧ '\x7d' ∉ s.title) := by
  have hall := Latex.headingsToRight_sections hlead h
  refine ⟨fun content => .ok (Profile.headingsToRight content), rfl, congrArg _ hall, ?_⟩
  dsimp only
  rw [hall, Except.ok.injEq, String.ofList_inj, List.append_cancel_left_eq,
    Latex.flatMap_eq_iff fun s _ => s.length_restyled]
  refine forall₂_congr fun s hs => ?_
  rw [(h s hs).restyled_eq_intended_iff]
  refine ⟨fun hclose => ⟨fun hopen => ?_, hclose⟩, And.right⟩
  have hcount := (h s hs).balanced.count_eq
  rw [List.count_eq_zero_of_not_mem hclose] at hcount
  exact List.count_eq_zero.1 hcount hopen

-- A plain title, and one with a group, behind which the icon gets.
theorem restyles_grouped_title :
    let lead := "CV\n".toList
    let sections : List Latex.Section :=
      [⟨"Skills".toList, "\nLean\n".toList⟩, ⟨"\\textbf\x7bA\x7d B".toList, "\n".toList⟩]
    ¬Latex.headingStart <:+: lead ∧ (∀ s ∈ sections, s.IsWhole) ∧
      ∃ f, (ProfileTable.builtin.get? "John_Miller_CV").bind Profile.restyle = some f ∧
        f (String.ofList (lead ++ sections.flatMap Latex.Section.written)) =
          .ok ("CV\n\\headright\x7bSkills\x7d\x7b\\workIcon\x7d\nLean\n" ++
            "\\headright\x7b\\textbf\x7bA\x7d\x7b\\workIcon\x7d B\x7d\n") := by
  intro lead sections
  have hlead : ¬Latex.headingStart <:+: lead := by decide +kernel
  have hsections : ∀ s ∈ sections, s.IsWhole := by decide +kernel
  obtain ⟨f, hf, hrestyled, -⟩ := ProfileTable.restyles_sections hlead hsections
  have hresult : String.ofList (lead ++ sections.flatMap Latex.Section.restyled) =
      "CV\n\\headright\x7bSkills\x7d\x7b\\workIcon\x7d\nLean\n" ++
        "\\headright\x7b\\textbf\x7bA\x7d\x7b\\workIcon\x7d B\x7d\n" := by
    decide +kernel
  exact ⟨hlead, hsections, f, hf, hresult ▸ hrestyled⟩

-- The group of the title is cut off from what follows it.
theorem heading_cut_at_group :
    let s : Latex.Section := ⟨"\\textbf\x7bA\x7d B".toList, []⟩
    s.IsWhole ∧
      ∃ f, (ProfileTable.builtin.get? "John_Miller_CV").bind Profile.restyle = some f ∧
        f (String.ofList s.written) =
          .ok "\\headright\x7b\\textbf\x7bA\x7d\x7b\\workIcon\x7d B\x7d" ∧
        f (String.ofList s.written) ≠ .ok (String.ofList s.intended) := by
  intro s
  have hcut : Profile.headingsToRight (String.ofList s.written) =
      "\\headright\x7b\\textbf\x7bA\x7d\x7b\\workIcon\x7d B\x7d" := by
    decide +kernel
  refine ⟨by decide +kernel, _, rfl, congrArg _ hcut, fun hsame => ?_⟩
  rw [Except.ok.injEq, hcut] at hsame
  exact absurd hsame (by decide +kernel)

end ResumePress
