import Mathlib.Data.List.Pairwise
import ResumePress.Latex.Document
import ResumePress.Proofs.Latex.Uses
import ResumePress.Proofs.Text.Scan

/-!
What a scan finds, told without scanning. The words of a language that stand in a text may overlap.
A scan lists some of them, in order and apart from each other, such that every word starts inside of
one that is listed. If no word is the start of another one, there is one such list for a text and no
more, and it has the matches of any pattern that takes the words. So the packages and the images of
a text, whatever it leaves open, are told by the form of their directives alone.
-/

namespace ResumePress

namespace Text

variable {α : Type} {language : List Char → Prop} {s front : List Char} {span : Nat × Nat}
  {spans others : List (Nat × Nat)}

/-- The part of a text from a position up to another one. -/
def slice (s : List Char) (span : Nat × Nat) : List Char :=
  (s.take span.2).drop span.1

/-- A word of a language stands in a text from a position up to another one. -/
def IsWordAt (language : List Char → Prop) (s : List Char) (span : Nat × Nat) : Prop :=
  span.2 ≤ s.length ∧ language (slice s span)

/-- What a scan of a text for the words of a language lists. -/
structure IsScan (language : List Char → Prop) (s : List Char) (spans : List (Nat × Nat)) :
    Prop where
  words : ∀ span ∈ spans, IsWordAt language s span
  /-- The listed words stand in order, and none reaches into the next one. -/
  apart : spans.Pairwise fun span next => span.2 ≤ next.1
  /-- Every word in the text starts inside of a listed one. -/
  complete : ∀ span, IsWordAt language s span →
    ∃ found ∈ spans, found.1 ≤ span.1 ∧ span.1 < found.2

/-! ### Words in texts -/

theorem slice_prefix_drop (s : List Char) (span : Nat × Nat) : slice s span <+: s.drop span.1 := by
  rw [slice, List.drop_take]
  exact List.take_prefix _ _

theorem slice_append (front s : List Char) (span : Nat × Nat) :
    slice (front ++ s) (span.1 + front.length, span.2 + front.length) = slice s span := by
  simp only [slice, Nat.add_comm _ front.length, List.take_length_add_append,
    List.drop_length_add_append]

theorem isWordAt_append :
    IsWordAt language (front ++ s) (span.1 + front.length, span.2 + front.length) ↔
      IsWordAt language s span := by
  rw [IsWordAt, slice_append, List.length_append, Nat.add_comm front.length,
    Nat.add_le_add_iff_right, IsWordAt]

namespace IsWordAt

theorem length_slice (h : IsWordAt language s span) :
    (slice s span).length = span.2 - span.1 := by
  rw [slice, List.length_drop, List.length_take_of_le h.1]

theorem start_lt (h : IsWordAt language s span) (hne : ¬language []) : span.1 < span.2 := by
  by_contra hle
  have hnil : slice s span = [] :=
    List.eq_nil_of_length_eq_zero (by rw [h.length_slice]; omega)
  exact hne (hnil ▸ h.2)

/-- A word that starts behind the front part of a text is one of the rest. -/
theorem exists_behind (h : IsWordAt language (front ++ s) span) (hstart : front.length ≤ span.1)
    (hlt : span.1 < span.2) :
    ∃ behind, span = (behind.1 + front.length, behind.2 + front.length) ∧
      IsWordAt language s behind := by
  have hspan : span = (span.1 - front.length + front.length,
      span.2 - front.length + front.length) := by
    ext <;> dsimp only <;> omega
  exact ⟨(span.1 - front.length, span.2 - front.length), hspan, isWordAt_append.1 (hspan ▸ h)⟩

end IsWordAt

/-! ### The scan of a text behind another one -/

namespace IsScan

variable (h : IsScan language s spans)
include h

theorem words_append (front : List Char) :
    ∀ span ∈ spans.map fun span => (span.1 + front.length, span.2 + front.length),
      IsWordAt language (front ++ s) span :=
  List.forall_mem_map.2 fun span hspan => isWordAt_append.2 (h.words span hspan)

theorem apart_add (length : Nat) :
    (spans.map fun span => (span.1 + length, span.2 + length)).Pairwise
      fun span next => span.2 ≤ next.1 :=
  List.pairwise_map.2 (h.apart.imp fun hle => Nat.add_le_add_right hle length)

theorem complete_append (hne : ¬language []) (hword : IsWordAt language (front ++ s) span)
    (hstart : front.length ≤ span.1) :
    ∃ found ∈ spans.map fun span => (span.1 + front.length, span.2 + front.length),
      found.1 ≤ span.1 ∧ span.1 < found.2 := by
  obtain ⟨behind, rfl, hbehind⟩ := hword.exists_behind hstart (hword.start_lt hne)
  obtain ⟨found, hfound, hbegins, hreaches⟩ := h.complete behind hbehind
  exact ⟨_, List.mem_map_of_mem hfound, Nat.add_le_add_right hbegins _,
    Nat.add_lt_add_right hreaches _⟩

end IsScan

/-! ### One scan and no other -/

namespace IsScan

theorem apart_of_ne (h : IsScan language s spans) {found : Nat × Nat} (hspan : span ∈ spans)
    (hfound : found ∈ spans) (hne : found ≠ span) : found.2 ≤ span.1 ∨ span.2 ≤ found.1 := by
  have hapart : spans.Pairwise fun a b => a.2 ≤ b.1 ∨ b.2 ≤ a.1 := h.apart.imp Or.inl
  have hsymm : Std.Symm fun a b : Nat × Nat => a.2 ≤ b.1 ∨ b.2 ≤ a.1 := ⟨fun _ _ => Or.symm⟩
  exact hapart.forall hfound hspan hne

/-- What one scan lists is listed by every other one. The induction is on where a listed word
starts: if the other scan listed a word around that start, then this scan would list it as well. -/
theorem subset (hne : ¬language [])
    (hcode : ∀ {u v t}, language u → language v → u <+: t → v <+: t → u = v)
    (h : IsScan language s spans) (h' : IsScan language s others) : spans ⊆ others := by
  intro span hspan
  induction hstart : span.1 using Nat.strongRecOn generalizing span spans others with
  | ind start ih =>
    subst hstart
    have hword := h.words span hspan
    obtain ⟨found, hfound, hbegins, hreaches⟩ := h'.complete span hword
    have hother := h'.words found hfound
    rcases Nat.lt_or_eq_of_le hbegins with hbefore | hsame
    · have hlisted : found ∈ spans := ih found.1 hbefore h' h hfound rfl
      have hlt := hword.start_lt hne
      have hdistinct : found ≠ span := fun heq => Nat.ne_of_lt hbefore (heq ▸ rfl)
      rcases h.apart_of_ne hspan hlisted hdistinct with hleft | hright
      · omega
      · omega
    · have hslices : slice s found = slice s span :=
        hcode hother.2 hword.2 (hsame ▸ slice_prefix_drop s found) (slice_prefix_drop s span)
      have hlengths := congrArg List.length hslices
      rw [hother.length_slice, hword.length_slice] at hlengths
      have hends : found.2 = span.2 := by
        have hlt := hword.start_lt hne
        omega
      rwa [← Prod.ext hsame hends]

/-- A text has one scan for a language in which no word is the start of another one. -/
theorem unique (hne : ¬language [])
    (hcode : ∀ {u v t}, language u → language v → u <+: t → v <+: t → u = v)
    (h : IsScan language s spans) (h' : IsScan language s others) : spans = others := by
  have hlt : ∀ {spans}, IsScan language s spans → ∀ span ∈ spans, span.1 < span.2 :=
    fun h span hspan => (h.words span hspan).start_lt hne
  have hnodup : ∀ {spans}, IsScan language s spans → spans.Nodup := fun h =>
    h.apart.imp_of_mem fun hspan _ hapart heq => by
      have := hlt h _ hspan
      rw [← heq] at hapart
      omega
  have hperm : spans.Perm others := (List.perm_ext_iff_of_nodup (hnodup h) (hnodup h')).2
    fun span => ⟨fun hspan => h.subset hne hcode h' hspan, fun hspan => h'.subset hne hcode h hspan⟩
  refine hperm.eq_of_pairwise (fun span next hspan hnext hleft hright => ?_) h.apart h'.apart
  have := hlt h span hspan
  have := hlt h' next hnext
  omega

end IsScan

/-! ### Patterns of languages -/

namespace Pattern

variable {p : Pattern α}

/-- A pattern takes the words of a language and nothing else. -/
def Takes (p : Pattern α) (language : List Char → Prop) : Prop :=
  ∀ {s part}, (∃ a, p.matchAt s = some (part, a)) ↔ language part ∧ part <+: s

/-- The matches are the parts of the text that the spans show. -/
theorem map_fst_hits (p : Pattern α) (s : List Char) :
    (p.hits s).map Prod.fst = (p.spans s).map (slice s) := by
  induction s using p.scan_induction with
  | nil => rfl
  | plain c s hnone ih =>
    rw [hits_cons_of_none hnone, spans_cons_of_none hnone, ih, List.map_map]
    exact List.map_congr_left fun span _ => (slice_append [c] s span).symm
  | hit part a rest hmatch ih =>
    rw [hits_append_of_matchAt hmatch, spans_append_of_matchAt hmatch, List.map_cons, ih,
      List.map_cons, List.map_map]
    congr 1
    · simp [slice]
    · exact List.map_congr_left fun span _ => (slice_append part rest span).symm

namespace Takes

variable (h : p.Takes language)
include h

theorem not_nil : ¬language [] := by
  intro hnil
  obtain ⟨a, hmatch⟩ := h.2 ⟨hnil, List.nil_prefix (l := [])⟩
  exact p.ne_nil hmatch rfl

theorem eq_of_starts {u v t : List Char} (hu : language u) (hv : language v) (hut : u <+: t)
    (hvt : v <+: t) : u = v := by
  obtain ⟨a, ha⟩ := h.2 ⟨hu, hut⟩
  obtain ⟨b, hb⟩ := h.2 ⟨hv, hvt⟩
  exact congrArg Prod.fst (Option.some.inj (ha.symm.trans hb))

/-- Where nothing matches at the start of a text, words start behind it. -/
theorem start_pos {c : Char} (hnone : p.matchAt (c :: s) = none)
    (hword : IsWordAt language (c :: s) span) : 0 < span.1 := by
  by_contra hfirst
  have hstart : span.1 = 0 := Nat.eq_zero_of_not_pos hfirst
  have hprefix := slice_prefix_drop (c :: s) span
  rw [hstart, List.drop_zero] at hprefix
  obtain ⟨a, hmatch⟩ := h.2 ⟨hword.2, hprefix⟩
  rw [hnone] at hmatch
  cases hmatch

/-- The matches of a pattern are what a scan for its words lists. -/
theorem isScan_spans (s : List Char) : IsScan language s (p.spans s) := by
  have hne := h.not_nil
  induction s using p.scan_induction with
  | nil =>
    refine ⟨List.forall_mem_nil _, .nil, fun span hword => ?_⟩
    have hend : span.2 = 0 := Nat.le_zero.1 hword.1
    exact absurd (hword.start_lt hne) (hend ▸ Nat.not_lt_zero _)
  | plain c s hnone ih =>
    rw [spans_cons_of_none hnone]
    exact
      { words := ih.words_append [c]
        apart := ih.apart_add 1
        complete := fun span hword =>
          have hrest : IsWordAt language ([c] ++ s) span := hword
          ih.complete_append hne hrest (h.start_pos hnone hword) }
  | hit part a rest hmatch ih =>
    rw [spans_append_of_matchAt hmatch]
    have hpart : IsWordAt language (part ++ rest) (0, part.length) := by
      refine ⟨by simp, ?_⟩
      have hslice : slice (part ++ rest) (0, part.length) = part := by simp [slice]
      exact hslice.symm ▸ (h.1 ⟨a, hmatch⟩).1
    refine
      { words := List.forall_mem_cons.2 ⟨hpart, ih.words_append part⟩
        apart := List.pairwise_cons.2 ⟨?_, ih.apart_add part.length⟩
        complete := fun span hword => ?_ }
    · exact List.forall_mem_map.2 fun span _ => Nat.le_add_left _ _
    · rcases Nat.lt_or_ge span.1 part.length with hinside | hbehind
      · exact ⟨_, List.mem_cons_self, Nat.zero_le _, hinside⟩
      · obtain ⟨found, hfound, hcovers⟩ := ih.complete_append hne hword hbehind
        exact ⟨found, List.mem_cons_of_mem _ hfound, hcovers⟩

/-- What a pattern finds in a text is told by its words. -/
theorem isScan_iff : IsScan language s spans ↔ spans = p.spans s := by
  constructor
  · intro hscan
    exact hscan.unique h.not_nil h.eq_of_starts (h.isScan_spans s)
  · rintro rfl
    exact h.isScan_spans s

end Takes

end Pattern

end Text

/-! ### Directives -/

namespace Latex

open Text

/-- What may stand between the name of a directive and its argument: nothing, or a text without a
closing bracket between brackets. -/
inductive IsOptionsText : List Char → Prop
  | absent : IsOptionsText []
  | given {x : List Char} (hx : ']' ∉ x) : IsOptionsText ('[' :: x ++ [']'])

/-- The form of a directive with options: a name, maybe options, and between braces an argument
without a closing brace that the directive allows. -/
inductive HasForm (name : String) (allowed : List Char → Prop) : List Char → Prop
  | intro {options y : List Char} (hoptions : IsOptionsText options) (hy : '\x7d' ∉ y)
    (hallowed : allowed y) :
    HasForm name allowed (name.toList ++ options ++ '\x7b' :: y ++ ['\x7d'])

/-- The uses of a directive that takes options have its form. -/
theorem Directive.takes_hasForm {d : Directive} {name : String} {allowed : List Char → Prop}
    (hname : d.name = name.toList) (htakes : d.takesOptions = true)
    (hallowed : ∀ y, allowed y ↔ (d.needsArgument = true → y ≠ [])) :
    d.pattern.Takes (HasForm name allowed) := by
  intro s part
  simp only [matchAt_eq_some]
  constructor
  · rintro ⟨⟨options, y⟩, huse, rfl, hprefix⟩
    refine ⟨?_, hprefix⟩
    have hoptions : IsOptionsText (bracketed options) := by
      cases options with
      | none => exact .absent
      | some x => exact .given (huse.options x rfl)
    have hform : HasForm name allowed _ :=
      .intro hoptions huse.argument ((hallowed y).2 huse.ne_nil)
    simpa [written, braced, hname] using hform
  · rintro ⟨@⟨options, y, hoptions, hy, hfits⟩, hprefix⟩
    obtain ⟨given, hgiven, hbracket⟩ :
        ∃ given : Option (List Char), bracketed given = options ∧ ∀ x ∈ given, ']' ∉ x := by
      cases hoptions with
      | absent => exact ⟨none, rfl, fun x hx => absurd hx (Option.not_mem_none x)⟩
      | given hx => exact ⟨some _, rfl, fun x heq => Option.mem_some.1 heq ▸ hx⟩
    refine ⟨⟨given, y⟩, ⟨fun _ => htakes, hbracket, hy, (hallowed y).1 hfits⟩, ?_, hprefix⟩
    simp [written, braced, hname, hgiven]

theorem takes_package : package.pattern.Takes (HasForm "\\usepackage" fun _ => True) :=
  Directive.takes_hasForm rfl rfl fun _ => iff_of_true trivial fun h => absurd h (by decide)

theorem takes_image : image.pattern.Takes (HasForm "\\includegraphics" (· ≠ [])) :=
  Directive.takes_hasForm rfl rfl fun _ => ⟨fun hne _ => hne, fun h => h rfl⟩

/-- The packages of a text are a scan for the texts that have the form of a package, and its images
are one for those that have the form of an image with a path: they stand in order, apart from each
other, and whatever else has the form starts inside of one of them. -/
theorem scans_follow_forms (s : List Char) :
    (IsScan (HasForm "\\usepackage" fun _ => True) s (package.pattern.spans s) ∧
      declarations s = (package.pattern.spans s).map (slice s)) ∧
    (IsScan (HasForm "\\includegraphics" (· ≠ [])) s (image.pattern.spans s) ∧
      (image.pattern.hits s).map Prod.fst = (image.pattern.spans s).map (slice s)) :=
  ⟨⟨takes_package.isScan_iff.2 rfl, package.pattern.map_fst_hits s⟩,
    takes_image.isScan_iff.2 rfl, image.pattern.map_fst_hits s⟩

-- The first two options are followed by no argument, so what the first brackets hold is found; the
-- last package starts inside of the argument before it.
example :
    let s := "\\usepackage[\\usepackage\x7ba\x7d\\usepackage[]".toList ++
      "\\usepackage\x7b\\usepackage\x7bb\x7d\x7d".toList
    package.pattern.spans s = [(12, 26), (39, 65)] := by decide +kernel

end Latex

end ResumePress
