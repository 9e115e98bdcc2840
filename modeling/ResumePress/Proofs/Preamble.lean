import Mathlib.Data.List.Flatten
import Mathlib.Data.List.Sort
import ResumePress.Latex.Preamble
import ResumePress.Proofs.Latex.Uses
import ResumePress.Proofs.Text.Lines
import ResumePress.Proofs.Text.Scan

/-!
Preambles and where they were read. Classes and packages are found wherever they stand, commands by
whole lines. The two readings share out the text between the class and the body exactly if the
source keeps its declarations to lines of their own.
-/

namespace ResumePress.Latex

open Text

def DeclaredAt (source : List Char) (i : Nat) : Prop :=
  ∃ span ∈ documentClass.pattern.spans source ++ package.pattern.spans source,
    span.1 ≤ i ∧ i < span.2

instance (source : List Char) (i : Nat) : Decidable (DeclaredAt source i) :=
  inferInstanceAs (Decidable (∃ span ∈ _, _))

/-- Whether the class directive is mentioned before the body begins. -/
def ClassFirst (source : List Char) : Prop :=
  ∃ mention ∈ cut? className source, ∃ marker ∈ cut? beginDocument source,
    mention.1.length < marker.1.length

instance (source : List Char) : Decidable (ClassFirst source) :=
  inferInstanceAs (Decidable (∃ mention ∈ _, _))

namespace Preamble

/-! ### Lines with positions -/

/-- A line whose characters have their positions with them. -/
abbrev Row := List (Char × Nat)

namespace Row

def text (row : Row) : List Char :=
  row.map Prod.fst

/-- The line without its outer blanks. -/
def trimmed (row : Row) : Row :=
  ((row.dropWhile fun c => isBlank c.1).reverse.dropWhile fun c => isBlank c.1).reverse

def isComment (row : Row) : Bool :=
  row.trimmed.text.head? == some '%'

/-- Whether the line starts like a package declaration. -/
def isPackage (row : Row) : Bool :=
  package.name.isPrefixOf row.trimmed.text

theorem trimmed_text (row : Row) : row.trimmed.text = trim row.text := by
  simp only [trimmed, text, trim, trimStart, trimEnd, List.dropWhile_map, Function.comp_def,
    ← List.map_reverse]

theorem trimmed_sublist (row : Row) : row.trimmed.Sublist row := by
  have hend := List.dropWhile_sublist (fun c : Char × Nat => isBlank c.1)
    (l := (row.dropWhile fun c => isBlank c.1).reverse)
  have hstart := List.dropWhile_sublist (fun c : Char × Nat => isBlank c.1) (l := row)
  exact (List.reverse_sublist.1 (by simpa [trimmed] using hend)).trans hstart

theorem mem_trimmed {row : Row} {c : Char × Nat} (hc : c ∈ row) (hblank : isBlank c.1 = false) :
    c ∈ row.trimmed := by
  have hdrop : ∀ {s : Row}, c ∈ s → c ∈ s.dropWhile fun c => isBlank c.1 := by
    intro s hs
    induction s with
    | nil => exact hs
    | cons d s ih =>
      rw [List.dropWhile_cons]
      split
      · rename_i hd
        rcases List.mem_cons.1 hs with rfl | hs
        · simp [hblank] at hd
        · exact ih hs
      · exact hs
  rw [trimmed, List.mem_reverse]
  exact hdrop (List.mem_reverse.2 (hdrop hc))

theorem isCommand_trimmed {row : Row} (h : row.trimmed ≠ []) :
    isCommand row.trimmed.text = true ↔ row.isComment = false ∧ row.isPackage = false := by
  have hne : row.trimmed.text.isEmpty = false := by simpa [text] using h
  simp [isCommand, isComment, isPackage, hne]

end Row

/-- The lines of a source with the positions of their characters. -/
def rows (source : List Char) : List Row :=
  linesBy Prod.fst source.zipIdx

/-- The first line that mentions the class directive. -/
def classIndex? (source : List Char) : Option Nat :=
  (rows source).findIdx? fun row => contains className row.text

/-- The first line with the marker of the body. -/
def markerIndex? (source : List Char) : Option Nat :=
  (rows source).findIdx? fun row => contains beginDocument row.text

/-- These two lines. -/
def boundaryRows (source : List Char) : List Row :=
  ((classIndex? source).toList ++ (markerIndex? source).toList).filterMap fun k => (rows source)[k]?

/-- The lines between them. -/
def innerRows (source : List Char) : List Row :=
  match classIndex? source, markerIndex? source with
  | some first, some last => ((rows source).take last).drop (first + 1)
  | _, _ => []

/-- The commands with the positions where they were read. -/
def entries (source : List Char) : List Row :=
  ((innerRows source).map Row.trimmed).filter fun row => isCommand row.text

/-- The end of the first class declaration and the beginning of the body. -/
def between? (source : List Char) : Option (Nat × Nat) :=
  match Latex.documentClass.pattern.cut? source, cut? beginDocument source with
  | some (before, written, _), some (preamble, _) =>
    some (before.length + written.length, preamble.length)
  | _, _ => none

/-- Whether a character is text between the class and the body that no declaration has and no
comment line. -/
def IsOther (source : List Char) (c : Char × Nat) : Prop :=
  (∃ bounds ∈ between? source, bounds.1 ≤ c.2 ∧ c.2 < bounds.2) ∧ isBlank c.1 = false ∧
    ¬DeclaredAt source c.2 ∧ ∀ row ∈ rows source, c ∈ row → row.isComment = false

instance (source : List Char) (c : Char × Nat) : Decidable (IsOther source c) :=
  inferInstanceAs (Decidable (_ ∧ _))

def others (source : List Char) : List (Char × Nat) :=
  source.zipIdx.filter fun c => IsOther source c

/-- The declarations and the commands share out the text between the class and the body. -/
structure Partitions (source : List Char) : Prop where
  /-- No command has text of a declaration. -/
  apart : ∀ entry ∈ entries source, ∀ c ∈ entry, ¬DeclaredAt source c.2
  /-- All other text is in the commands. -/
  complete : (others source).Sublist (entries source).flatten

instance (source : List Char) : Decidable (Partitions source) :=
  decidable_of_iff ((∀ entry ∈ entries source, ∀ c ∈ entry, ¬DeclaredAt source c.2) ∧
      (others source).Sublist (entries source).flatten)
    ⟨fun h => ⟨h.1, h.2⟩, fun h => ⟨h.apart, h.complete⟩⟩

/-- Whether a character is in one of the lines that are not read for commands: the two at the ends,
and those between them that start like a package declaration. -/
def Unread (source : List Char) (c : Char × Nat) : Prop :=
  (∃ row ∈ boundaryRows source, c ∈ row) ∨
    ∃ row ∈ innerRows source, row.isPackage = true ∧ c ∈ row

instance (source : List Char) (c : Char × Nat) : Decidable (Unread source c) :=
  inferInstanceAs (Decidable (_ ∨ _))

/-- The lines of the preamble are either for declarations or for other text. -/
structure Tidy (source : List Char) : Prop where
  others : ∀ c ∈ others source, ¬Unread source c
  commands : ∀ row ∈ innerRows source, row.isComment = false → row.isPackage = false →
    ∀ c ∈ row.trimmed, ¬DeclaredAt source c.2

instance (source : List Char) : Decidable (Tidy source) :=
  decidable_of_iff ((∀ c ∈ others source, ¬Unread source c) ∧
      ∀ row ∈ innerRows source, row.isComment = false → row.isPackage = false →
        ∀ c ∈ row.trimmed, ¬DeclaredAt source c.2)
    ⟨fun h => ⟨h.1, h.2⟩, fun h => ⟨h.others, h.commands⟩⟩

variable {source : List Char}

theorem map_text_rows (source : List Char) : (rows source).map Row.text = lines source := by
  rw [rows, show Row.text = List.map Prod.fst from rfl, map_linesBy, List.zipIdx_map_fst]

theorem map_text_entries (source : List Char) :
    (entries source).map Row.text = commandLines source := by
  have hindex : ∀ word, (lines source).findIdx? (contains word) =
      (rows source).findIdx? fun row => contains word row.text := by
    intro word
    rw [← map_text_rows, List.findIdx?_map]
    rfl
  have htrim : Row.text ∘ Row.trimmed = trim ∘ Row.text :=
    funext fun row => row.trimmed_text
  have hcommand : (fun row => isCommand (Row.text row)) = isCommand ∘ Row.text := rfl
  unfold commandLines entries innerRows
  dsimp only
  rw [hindex, hindex, hcommand, ← List.filter_map, List.map_map, htrim, ← List.map_map]
  unfold classIndex? markerIndex?
  cases (rows source).findIdx? fun row => contains className row.text with
  | none => rfl
  | some first =>
    cases (rows source).findIdx? fun row => contains beginDocument row.text with
    | none => rfl
    | some last => rw [← map_text_rows, List.map_drop, List.map_take]

/-! ### Order -/

theorem pairwise_zipIdx (source : List Char) :
    source.zipIdx.Pairwise fun c d => c.2 < d.2 := by
  rw [List.pairwise_iff_getElem]
  intro i j hi hj hij
  simpa using hij

theorem pairwise_rows (source : List Char) :
    (rows source).Pairwise fun row row' => ∀ c ∈ row, ∀ d ∈ row', c.2 < d.2 :=
  (List.pairwise_flatten.1
    ((pairwise_zipIdx source).sublist (flatten_linesBy_sublist Prod.fst source.zipIdx))).2

theorem lt_of_lt_index {i j : Nat} {row row' : Row} {c d : Char × Nat}
    (hi : (rows source)[i]? = some row) (hj : (rows source)[j]? = some row') (hc : c ∈ row)
    (hd : d ∈ row') (h : i < j) : c.2 < d.2 := by
  obtain ⟨hi', rfl⟩ := List.getElem?_eq_some_iff.1 hi
  obtain ⟨hj', rfl⟩ := List.getElem?_eq_some_iff.1 hj
  exact List.pairwise_iff_getElem.1 (pairwise_rows source) i j hi' hj' h c hc d hd

theorem index_le_of_le {i j : Nat} {row row' : Row} {c d : Char × Nat}
    (hi : (rows source)[i]? = some row) (hj : (rows source)[j]? = some row') (hc : c ∈ row)
    (hd : d ∈ row') (h : c.2 ≤ d.2) : i ≤ j := by
  by_contra hlt
  have := lt_of_lt_index hj hi hd hc (Nat.lt_of_not_le hlt)
  omega

theorem index_unique {i j : Nat} {row row' : Row} {c : Char × Nat}
    (hi : (rows source)[i]? = some row) (hj : (rows source)[j]? = some row') (hc : c ∈ row)
    (hc' : c ∈ row') : i = j :=
  Nat.le_antisymm (index_le_of_le hi hj hc hc' (Nat.le_refl _))
    (index_le_of_le hj hi hc' hc (Nat.le_refl _))

theorem row_unique {row row' : Row} {c : Char × Nat} (hrow : row ∈ rows source)
    (hrow' : row' ∈ rows source) (hc : c ∈ row) (hc' : c ∈ row') : row = row' := by
  obtain ⟨i, hi⟩ := List.mem_iff_getElem?.1 hrow
  obtain ⟨j, hj⟩ := List.mem_iff_getElem?.1 hrow'
  rw [index_unique hi hj hc hc', hj] at hi
  exact (Option.some.inj hi).symm

theorem innerRows_sublist (source : List Char) : (innerRows source).Sublist (rows source) := by
  unfold innerRows
  split
  · exact (List.drop_sublist _ _).trans (List.take_sublist _ _)
  · exact List.nil_sublist _

theorem mem_innerRows {first last : Nat} (hfirst : classIndex? source = some first)
    (hlast : markerIndex? source = some last) {row : Row} :
    row ∈ innerRows source ↔ ∃ k, first < k ∧ k < last ∧ (rows source)[k]? = some row := by
  simp only [innerRows, hfirst, hlast, List.mem_iff_getElem?, List.getElem?_drop,
    List.getElem?_take]
  constructor
  · rintro ⟨i, hi⟩
    split at hi
    · rename_i hless
      exact ⟨first + 1 + i, by omega, hless, hi⟩
    · cases hi
  · rintro ⟨k, hlow, hhigh, hk⟩
    refine ⟨k - (first + 1), ?_⟩
    have hsum : first + 1 + (k - (first + 1)) = k := by omega
    rw [hsum, if_pos hhigh, hk]

theorem entries_flatten_sublist (source : List Char) :
    (entries source).flatten.Sublist source.zipIdx := by
  have htrimmed : ∀ found : List Row, (found.map Row.trimmed).flatten.Sublist found.flatten := by
    intro found
    induction found with
    | nil => exact .slnil
    | cons row found ih => exact row.trimmed_sublist.append ih
  have hfilter := (List.filter_sublist (p := fun row => isCommand (Row.text row))
    (l := (innerRows source).map Row.trimmed)).flatten
  exact ((hfilter.trans (htrimmed _)).trans (innerRows_sublist source).flatten).trans
    (flatten_linesBy_sublist Prod.fst source.zipIdx)

/-- Text of a source that is all found in another part of it is found there in order. -/
theorem sublist_of_subset {found part : List (Char × Nat)} (hfound : found.Sublist source.zipIdx)
    (hpart : part.Sublist source.zipIdx) (h : found ⊆ part) : found.Sublist part := by
  have hless := (pairwise_zipIdx source).sublist hfound
  have hnodup : found.Nodup := hless.imp fun hlt heq => by simp [heq] at hlt
  have : Std.Antisymm fun c d : Char × Nat => c.2 < d.2 :=
    ⟨fun c d hcd hdc => absurd hcd (Nat.lt_asymm hdc)⟩
  exact List.sublist_of_subperm_of_pairwise (List.subperm_of_subset hnodup h) hless
    ((pairwise_zipIdx source).sublist hpart)

/-! ### The text between -/

theorem mem_entries {row : Row} :
    row ∈ entries source ↔ row.text ≠ [] ∧ ∃ full ∈ innerRows source, full.isComment = false ∧
      full.isPackage = false ∧ full.trimmed = row := by
  simp only [entries, List.mem_filter, List.mem_map]
  constructor
  · rintro ⟨⟨full, hfull, rfl⟩, hcommand⟩
    have hne : full.trimmed ≠ [] := by
      intro h
      rw [h] at hcommand
      cases hcommand
    obtain ⟨hcomment, hpackage⟩ := (Row.isCommand_trimmed hne).1 hcommand
    exact ⟨by simpa [Row.text] using hne, full, hfull, hcomment, hpackage, rfl⟩
  · rintro ⟨hne, full, hfull, hcomment, hpackage, rfl⟩
    have hne' : full.trimmed ≠ [] := by
      intro h
      exact hne (by rw [h]; rfl)
    exact ⟨⟨full, hfull, rfl⟩, (Row.isCommand_trimmed hne').2 ⟨hcomment, hpackage⟩⟩

theorem exists_eq_of_class {before written after : List Char}
    (h : Latex.documentClass.pattern.cut? source = some (before, written, after)) :
    ∃ rest, source = before ++ className ++ rest := by
  obtain ⟨rfl, use, hmatch⟩ := Pattern.eq_of_cut? h
  obtain ⟨-, rfl, -⟩ := Directive.matchAt_eq_some.1 hmatch
  refine ⟨bracketed use.options ++ braced use.argument ++ after, ?_⟩
  simp only [Directive.written, List.append_assoc]
  rfl

theorem exists_row_of_cut? {word before after : List Char} (hline : '\n' ∉ word)
    (hreturn : '\r' ∉ word) (hne : word ≠ []) (h : cut? word source = some (before, after)) :
    ∃ k row c, (rows source).findIdx? (fun row => contains word row.text) = some k ∧
      (rows source)[k]? = some row ∧ c ∈ row ∧ c.2 = before.length := by
  rw [← List.zipIdx_map_fst 0 source] at h
  obtain ⟨c, hc, hin⟩ := exists_inFirst Prod.fst hline hreturn hne h
  obtain ⟨k, row, hfind, hk, hin⟩ := hin.findIdx?
  refine ⟨k, row, c, hfind, hk, hin, ?_⟩
  rw [List.getElem?_zipIdx] at hc
  obtain ⟨d, -, rfl⟩ := Option.map_eq_some_iff.1 hc
  exact Nat.zero_add _

/-- The class declaration does not begin before the first mention of the directive. -/
theorem bounds_of_between? {bounds : Nat × Nat} {mention marker : List Char × List Char}
    (h : between? source = some bounds) (hmention : cut? className source = some mention)
    (hmarker : cut? beginDocument source = some marker) :
    mention.1.length ≤ bounds.1 ∧ bounds.2 = marker.1.length := by
  unfold between? at h
  rw [hmarker] at h
  cases hclass : Latex.documentClass.pattern.cut? source with
  | none =>
    rw [hclass] at h
    cases h
  | some parts =>
    obtain ⟨before, written, after⟩ := parts
    rw [hclass] at h
    cases h
    obtain ⟨rest, hsource⟩ := exists_eq_of_class hclass
    rw [hsource] at hmention
    exact ⟨(length_le_of_cut? hmention).trans (Nat.le_add_right _ _), rfl⟩

/-- The other text stands in the lines from the class to the body. -/
theorem exists_row_of_mem_others (h : ClassFirst source) {c : Char × Nat}
    (hc : c ∈ others source) : ∃ first last k row, classIndex? source = some first ∧
      markerIndex? source = some last ∧ first ≤ k ∧ k ≤ last ∧ (rows source)[k]? = some row ∧
      c ∈ row := by
  obtain ⟨hmem, hother⟩ := List.mem_filter.1 hc
  obtain ⟨⟨bounds, hbounds, hlow, hhigh⟩, hblank, -⟩ := of_decide_eq_true hother
  obtain ⟨row, hrow, hin⟩ := exists_mem_linesBy Prod.fst hmem
    (fun h => by rw [h] at hblank; cases hblank) (fun h => by rw [h] at hblank; cases hblank)
  obtain ⟨k, hk⟩ := List.mem_iff_getElem?.1 hrow
  obtain ⟨mention, hmention, marker, hmarker, -⟩ := h
  obtain ⟨first, start, d, hfirst, hstart, hd, hdpos⟩ := exists_row_of_cut? (by decide)
    (by decide) (by decide) hmention
  obtain ⟨last, stop, e, hlast, hstop, he, hepos⟩ := exists_row_of_cut? (by decide)
    (by decide) (by decide) hmarker
  obtain ⟨hbegins, hends⟩ := bounds_of_between? hbounds hmention hmarker
  refine ⟨first, last, k, row, hfirst, hlast, ?_, ?_, hk, hin⟩
  · exact index_le_of_le hstart hk hd hin (by omega)
  · exact index_le_of_le hk hstop hin he (by omega)

/-- What is in the commands is in no unread line. -/
theorem not_unread_of_mem {c : Char × Nat} (h : c ∈ (entries source).flatten) :
    ¬Unread source c := by
  obtain ⟨entry, hentry, hc⟩ := List.mem_flatten.1 h
  obtain ⟨-, row, hrow, -, hpackage, rfl⟩ := mem_entries.1 hentry
  have hin := row.trimmed_sublist.subset hc
  rintro (⟨row', hrow', hin'⟩ | ⟨row', hrow', hpackage', hin'⟩)
  · obtain ⟨k, hindex, hk⟩ := List.mem_filterMap.1 hrow'
    cases hfirst : classIndex? source with
    | none => simp [innerRows, hfirst] at hrow
    | some first =>
      cases hlast : markerIndex? source with
      | none => simp [innerRows, hfirst, hlast] at hrow
      | some last =>
        obtain ⟨k', hlow, hhigh, hk'⟩ := (mem_innerRows hfirst hlast).1 hrow
        have := index_unique hk hk' hin' hin
        simp only [hfirst, hlast, Option.toList_some, List.cons_append, List.nil_append,
          List.mem_cons, List.not_mem_nil, or_false] at hindex
        omega
  · have hrows := (innerRows_sublist source).subset
    rw [row_unique (hrows hrow) (hrows hrow') hin hin', hpackage'] at hpackage
    cases hpackage

theorem mem_entries_of_others (hclass : ClassFirst source) {c : Char × Nat}
    (hc : c ∈ others source) (hread : ¬Unread source c) : c ∈ (entries source).flatten := by
  obtain ⟨first, last, k, row, hfirst, hlast, hlow, hhigh, hk, hin⟩ :=
    exists_row_of_mem_others hclass hc
  have hother := of_decide_eq_true (List.mem_filter.1 hc).2
  have hends : ¬(k = first ∨ k = last) := by
    intro hends
    refine hread (.inl ⟨row, List.mem_filterMap.2 ⟨k, ?_, hk⟩, hin⟩)
    simpa [hfirst, hlast] using hends
  have hrow := (mem_innerRows hfirst hlast).2 ⟨k, by omega, by omega, hk⟩
  have hcomment := hother.2.2.2 row (List.mem_of_getElem? hk) hin
  have hpackage : row.isPackage = false := by
    rw [Bool.eq_false_iff]
    exact fun hpackage => hread (.inr ⟨row, hrow, hpackage, hin⟩)
  have htrimmed := Row.mem_trimmed hin hother.2.1
  have hne : row.trimmed.text ≠ [] := by simpa [Row.text] using List.ne_nil_of_mem htrimmed
  have hentry := mem_entries.2 ⟨hne, row, hrow, hcomment, hpackage, rfl⟩
  exact List.mem_flatten.2 ⟨row.trimmed, hentry, htrimmed⟩

theorem others_read_sublist (hclass : ClassFirst source) :
    ((others source).filter fun c => ¬Unread source c).Sublist (entries source).flatten := by
  refine sublist_of_subset (List.filter_sublist.trans List.filter_sublist)
    (entries_flatten_sublist source) ?_
  intro c hc
  obtain ⟨hother, hread⟩ := List.mem_filter.1 hc
  exact mem_entries_of_others hclass hother (of_decide_eq_true hread)

theorem tidy_of_partitions (h : Partitions source) : Tidy source := by
  constructor
  · exact fun c hc => not_unread_of_mem (h.complete.subset hc)
  · intro row hrow hcomment hpackage c hin
    refine h.apart _ (mem_entries.2 ⟨?_, row, hrow, hcomment, hpackage, rfl⟩) c hin
    simpa [Row.text] using List.ne_nil_of_mem hin

theorem partitions_of_tidy (hclass : ClassFirst source) (h : Tidy source) : Partitions source := by
  constructor
  · intro entry hentry c hc
    obtain ⟨-, row, hrow, hcomment, hpackage, rfl⟩ := mem_entries.1 hentry
    exact h.commands row hrow hcomment hpackage c hc
  · have hall := List.filter_eq_self.2 fun c hc => decide_eq_true (h.others c hc)
    have hread := others_read_sublist hclass
    rwa [hall] at hread

/-- The commands of a source are read where `entries` says, and the other text of the lines that
are read is in them, in order. Every piece of the text between the class and the body is in a
declaration or in the commands, and in one only, exactly if the source is tidy. -/
theorem partitions_iff_tidy (source : String) (h : ClassFirst source.toList) :
    (ofSource source).commands = (entries source.toList).map (fun row => String.ofList row.text) ∧
      ((others source.toList).filter fun c => ¬Unread source.toList c).Sublist
        (entries source.toList).flatten ∧
      (Partitions source.toList ↔ Tidy source.toList) := by
  refine ⟨?_, others_read_sublist h, tidy_of_partitions, partitions_of_tidy h⟩
  show (commandLines source.toList).map String.ofList = _
  rw [← map_text_entries, List.map_map]
  rfl

-- a class and a package with options, a comment and a command
theorem partitions_of_lines :
    let source := "\\documentclass[11pt]\x7barticle\x7d\n  % margins\n" ++
      "\\usepackage[margin=1cm]\x7bgeometry\x7d\n\\raggedright\n\\begin\x7bdocument\x7d\n"
    ClassFirst source.toList ∧ Tidy source.toList ∧ Partitions source.toList ∧
      (ofSource source).commands = ["\\raggedright"] := by
  intro source
  have hclass : ClassFirst source.toList := by decide +kernel
  have htidy : Tidy source.toList := by decide +kernel
  obtain ⟨hcommands, -, hiff⟩ := partitions_iff_tidy source hclass
  refine ⟨hclass, htidy, hiff.2 htidy, ?_⟩
  rw [hcommands]
  decide +kernel

-- text behind the class, options over three lines, text behind a package, a package behind a
-- command, a blank before the braces, text before the body
theorem not_partitions : ([
      "\\documentclass\x7bcv\x7d\\raggedright\n\\begin\x7bdocument\x7d\n",
      "\\documentclass\x7bcv\x7d\n\\usepackage[\na4paper\n]\x7ba\x7d\n\\begin\x7bdocument\x7d\n",
      "\\documentclass\x7bcv\x7d\n\\usepackage\x7ba\x7d\\raggedright\n\\begin\x7bdocument\x7d\n",
      "\\documentclass\x7bcv\x7d\n\\raggedright\\usepackage\x7ba\x7d\n\\begin\x7bdocument\x7d\n",
      "\\documentclass\x7bcv\x7d\n\\usepackage \x7ba\x7d\n\\begin\x7bdocument\x7d\n",
      "\\documentclass\x7bcv\x7d\n\\raggedright\\begin\x7bdocument\x7d\n"].all
    fun source => ClassFirst source.toList ∧ ¬Partitions source.toList) = true := by
  decide +kernel

end Preamble

end ResumePress.Latex
