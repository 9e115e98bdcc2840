import ResumePress.Proofs.Comments
import ResumePress.Proofs.Conflicts
import ResumePress.Proofs.Placement
import ResumePress.Proofs.Text.Margins

/-!
What the package block of a preview covers. A name in a list is read off the whole argument as it is
read off the list that stays, so every name that the source declares, and every common one, is still
declared by an entry, unless its package is superseded. The entries of a block without additional
packages are single directives, one on a line, and are read off it again.
-/

namespace ResumePress

open Latex Latex.Resolution Text

namespace Latex

variable {s u v : List Char} {raw : String} {d : Declaration} {name : List Char}

/-! ### Names in arguments -/

theorem names_append (a b : List Char) : names (a ++ ',' :: b) = names a ++ names b := by
  rw [names, splitAt_append, List.map_append, List.filter_append]
  rfl

theorem names_of_not_mem (h : ',' ∉ s) : names s = [trim s].filter (!·.isEmpty) := by
  rw [names, splitAt_of_not_mem h]
  rfl

theorem not_mem_of_blanks (h : ∀ c ∈ u, isBlank c = true) : ',' ∉ u := by
  intro hmem
  have hcomma := h ',' hmem
  revert hcomma
  decide

/-- Blanks around an argument are blanks around its first and its last part. -/
theorem names_blanks {u v : List Char} (hu : ∀ c ∈ u, isBlank c = true)
    (hv : ∀ c ∈ v, isBlank c = true) (s : List Char) : names (u ++ s ++ v) = names s := by
  by_cases hcomma : ',' ∈ s
  · obtain ⟨a, b, hs, ha⟩ := List.eq_append_cons_of_mem hcomma
    have hnil : ∀ c ∈ ([] : List Char), isBlank c = true := nofun
    have hsplit : u ++ s ++ v = u ++ a ++ [] ++ ',' :: ([] ++ b ++ v) := by simp [hs]
    rw [hsplit, hs, names_append, names_append, names_blanks hnil hv b, names_blanks hu hnil a]
  · have hfree : ',' ∉ u ++ s ++ v := by
      simp [hcomma, not_mem_of_blanks hu, not_mem_of_blanks hv]
    rw [names_of_not_mem hfree, names_of_not_mem hcomma, trim_blanks hu hv]
termination_by s.length
decreasing_by
  all_goals
    rw [hs, List.length_append, List.length_cons]
    omega

theorem names_trim (s : List Char) : names (trim s) = names s := by
  obtain ⟨u, hu, hstart⟩ := exists_blanks_trimStart s
  obtain ⟨v, hv, hend⟩ := exists_blanks_trimEnd (trimStart s)
  have hs : s = u ++ trim s ++ v := by
    rw [List.append_assoc, trim, ← hend, ← hstart]
  rw [← names_blanks hu hv (trim s), ← hs]

theorem nonblank?_eq_some {inner : String} :
    Declaration.nonblank? s = some inner ↔ trim s ≠ [] ∧ inner = String.ofList (trim s) := by
  simp only [Declaration.nonblank?, List.isEmpty_iff]
  split
  · rename_i h
    simp [h]
  · rename_i h
    simp [h, eq_comm]

/-- A declaration has the name that its first directive gives. -/
theorem exists_use_of_parse? (h : Declaration.parse? raw = some d) :
    ∃ use ∈ package.pattern.values raw.toList, d.name.toList = trim use.argument := by
  unfold Declaration.parse? Pattern.first? at h
  split at h
  · cases h
  · rename_i part use hfirst
    obtain ⟨inner, hinner, rfl⟩ := Option.map_eq_some_iff.1 h
    obtain ⟨-, rfl⟩ := nonblank?_eq_some.1 hinner
    exact ⟨use, List.mem_map.2 ⟨_, List.mem_of_head? hfirst, rfl⟩, String.toList_ofList⟩

/-- A raw text declares every package in the list that it names. -/
theorem mem_declaredNames_of_parse? (hd : Declaration.parse? raw = some d)
    (hname : name ∈ names d.name.toList) : name ∈ declaredNames raw.toList := by
  obtain ⟨use, huse, heq⟩ := exists_use_of_parse? hd
  rw [heq, names_trim] at hname
  exact List.mem_flatMap.2 ⟨use, huse, hname⟩

/-! ### Declarations that stand alone -/

theorem isCommand_package : package.IsCommand :=
  isCommand_of_mem package (by simp)

/-- A raw text that is one directive and nothing else. -/
def IsDirective (raw : String) : Prop :=
  declarations raw.toList = [raw.toList]

instance (raw : String) : Decidable (IsDirective raw) :=
  inferInstanceAs (Decidable (_ = _))

theorem hits_written {use : Use} (huse : package.IsUse use) :
    package.pattern.hits (package.written use) = [(package.written use, use)] := by
  have hmatch := Directive.matchAt_written huse []
  have hhits := Pattern.hits_append_of_matchAt hmatch
  rwa [List.append_nil] at hhits

theorem isDirective_iff :
    IsDirective raw ↔ ∃ use, package.IsUse use ∧ raw.toList = package.written use := by
  constructor
  · intro h
    rw [IsDirective, declarations, Directive.hits_eq, List.map_map] at h
    obtain ⟨use, huse, hraw⟩ := List.map_eq_singleton_iff.1 h
    exact ⟨use, Directive.isUse_of_mem_values (huse ▸ List.mem_singleton_self use), hraw.symm⟩
  · rintro ⟨use, huse, hraw⟩
    rw [IsDirective, declarations, hraw, hits_written huse]
    rfl

theorem isDirective_of_mem_declarations {source written : List Char}
    (h : written ∈ declarations source) : IsDirective (String.ofList written) := by
  rw [declarations, Directive.hits_eq, List.map_map] at h
  obtain ⟨use, huse, rfl⟩ := List.mem_map.1 h
  exact isDirective_iff.2 ⟨use, Directive.isUse_of_mem_values huse, String.toList_ofList⟩

/-- A directive that declares a package is read, and the package is in the list that it names. -/
theorem IsDirective.exists_parse? (h : IsDirective raw) (hname : name ∈ declaredNames raw.toList) :
    ∃ d, Declaration.parse? raw = some d ∧ name ∈ names d.name.toList := by
  obtain ⟨use, huse, hraw⟩ := isDirective_iff.1 h
  have hlisted : name ∈ names (trim use.argument) := by
    rw [hraw, declaredNames, Pattern.values, hits_written huse] at hname
    simpa [names_trim] using hname
  have hne : trim use.argument ≠ [] := fun hempty => by
    rw [hempty] at hlisted
    cases hlisted
  rw [Declaration.parse?, Pattern.first?, hraw, hits_written huse, List.head?_cons]
  dsimp only
  rw [nonblank?_eq_some.2 ⟨hne, rfl⟩]
  refine ⟨_, rfl, ?_⟩
  rwa [String.toList_ofList]

/-- Directives on lines of their own are read one by one. -/
theorem declarations_lines {block : List String} (h : ∀ raw ∈ block, IsDirective raw) :
    declarations (joinWith ['\n'] (block.map String.toList)) = block.map String.toList := by
  induction block with
  | nil => rfl
  | cons raw block ih =>
    obtain ⟨hraw, hblock⟩ := List.forall_mem_cons.1 h
    cases block with
    | nil => exact hraw
    | cons next block =>
      obtain ⟨use, huse, hwritten⟩ := isDirective_iff.1 hraw
      have hbreak : ∀ rest, package.pattern.matchAt ('\n' :: rest) = none := by
        intro rest
        have hblocks := Directive.blocks_cons_of_ne (c := '\n') isCommand_package (by decide) []
        exact Directive.matchAt_eq_none (Directive.read?_of_blocks hblocks rest)
      have ih := ih hblock
      unfold declarations at ih ⊢
      rw [List.map_cons, joinWith, hwritten, List.append_assoc,
        Pattern.hits_append_of_matchAt (Directive.matchAt_written huse _), List.singleton_append,
        Pattern.hits_cons_of_none (hbreak _), List.map_cons, ih]
      · simp

end Latex

/-! ### The package block -/

/-- Whether an entry of a block has a name, as a whole. -/
def HasEntry (block : List String) (name : String) : Prop :=
  ∃ raw ∈ block, ∃ d ∈ Declaration.parse? raw, d.name = name

instance (block : List String) (name : String) : Decidable (HasEntry block name) :=
  inferInstanceAs (Decidable (∃ raw ∈ block, _))

/-- What is read off a list of raw texts has an entry, if its name is not superseded. -/
theorem hasEntry_of_parse? {all : List String} {raw : String} {d : Declaration} (hraw : raw ∈ all)
    (hd : Declaration.parse? raw = some d)
    (hkept : isSuperseded (merge (all.filterMap Declaration.parse?)) d.name = false) :
    HasEntry (resolve all) d.name := by
  have hmem : d ∈ all.filterMap Declaration.parse? := List.mem_filterMap.2 ⟨raw, hraw, hd⟩
  have hname : d.name ∈ Resolution.names (arrange (merge (all.filterMap Declaration.parse?))) :=
    mem_names_arrange.2 ⟨mem_names_merge.2 (List.mem_map_of_mem hmem), hkept⟩
  obtain ⟨e, he, heq⟩ := List.mem_map.1 hname
  exact ⟨e.text, List.mem_map_of_mem he, e, parse?_text he, heq⟩

/-- A package that is superseded is superseded by an entry. -/
theorem hasEntry_of_isSuperseded {all : List String} {name : String}
    (h : isSuperseded (merge (all.filterMap Declaration.parse?)) name = true) :
    ∃ pair ∈ supersessions, pair.2 = name ∧ HasEntry (resolve all) pair.1 := by
  obtain ⟨pair, hpair, heq, hmem⟩ := isSuperseded_eq_true.1 h
  obtain ⟨d, hd, hname⟩ := List.mem_map.1 (mem_names_merge.1 hmem)
  obtain ⟨raw, hraw, hread⟩ := List.mem_filterMap.1 hd
  refine ⟨pair, hpair, heq, ?_⟩
  rw [← hname]
  exact hasEntry_of_parse? hraw hread (hname ▸ isSuperseded_fst _ hpair)

/-- A package that a directive declares is declared by an entry, or it is superseded. -/
theorem covered_of_isDirective {all : List String} {raw name : String} (hraw : raw ∈ all)
    (hdirective : IsDirective raw) (hname : Declares raw name) :
    (∃ entry ∈ resolve all, Declares entry name) ∨
      ∃ pair ∈ supersessions, pair.2 = name ∧ HasEntry (resolve all) pair.1 := by
  obtain ⟨d, hd, hlisted⟩ := hdirective.exists_parse? hname
  cases hsuperseded : isSuperseded (merge (all.filterMap Declaration.parse?)) d.name with
  | false =>
    obtain ⟨entry, hentry, e, he, heq⟩ := hasEntry_of_parse? hraw hd hsuperseded
    exact .inl ⟨entry, hentry, mem_declaredNames_of_parse? he (heq ▸ hlisted)⟩
  | true =>
    -- only single names are superseded
    have hsingle : ∀ pair ∈ supersessions, Latex.names pair.2.toList = [pair.2.toList] := by
      decide
    obtain ⟨pair, hpair, heq, hentry⟩ := hasEntry_of_isSuperseded hsuperseded
    rw [← heq, hsingle pair hpair, List.mem_singleton, String.toList_inj] at hlisted
    exact .inr ⟨pair, hpair, hlisted.symm, hentry⟩

namespace Template

theorem isDirective_of_mem_packages {source raw : String}
    (h : raw ∈ (Preamble.ofSource source).packages) : IsDirective raw := by
  rcases List.mem_append.1 h with h | h
  · obtain ⟨written, hwritten, rfl⟩ := List.mem_map.1 h
    exact isDirective_of_mem_declarations hwritten
  · have himplied : ∀ group ∈ Preamble.implied, IsDirective group.2 := by decide +kernel
    rw [Preamble.impliedPackages_eq] at h
    obtain ⟨group, hgroup, rfl⟩ := List.mem_map.1 h
    exact himplied group (List.mem_filter.1 hgroup).1

/-- What a source declares is declared by one of its directives. -/
theorem exists_declares_of_source {source name : String} (h : Declares source name) :
    ∃ raw ∈ (Preamble.ofSource source).packages, Declares raw name := by
  obtain ⟨use, huse, hname⟩ := List.mem_flatMap.1 h
  have hmem : package.written use ∈ declarations source.toList := by
    rw [declarations, Directive.hits_eq, List.map_map]
    exact List.mem_map_of_mem huse
  refine ⟨String.ofList (package.written use),
    List.mem_append_left _ (List.mem_map_of_mem hmem), ?_⟩
  rw [Declares, String.toList_ofList, declaredNames, Pattern.values,
    hits_written (Directive.isUse_of_mem_values huse)]
  simpa using hname

theorem isDirective_of_mem_essentials {declared : List String} {raw : String}
    (h : raw ∈ Preview.essentials declared) : IsDirective raw := by
  have hcommon : ∀ raw ∈ commonPackages, IsDirective raw := by decide +kernel
  exact hcommon raw (List.mem_filter.1 h).1

/-- A common package is declared, or it is added. -/
theorem exists_declares_common {declared : List String} {name : String} (h : name ∈ commonNames) :
    ∃ raw ∈ declared ++ Preview.essentials declared, Declares raw name := by
  by_cases hdeclared : ∃ raw ∈ declared, Declares raw name
  · obtain ⟨raw, hraw, hname⟩ := hdeclared
    exact ⟨raw, List.mem_append_left _ hraw, hname⟩
  · obtain ⟨d, hd, rfl⟩ := List.mem_map.1 h
    obtain ⟨raw, hraw, hread⟩ := List.mem_filterMap.1 hd
    have hsingle : ∀ raw ∈ commonPackages, IsSingle raw := by decide +kernel
    have hessential : raw ∈ Preview.essentials declared := by
      refine List.mem_filter.2 ⟨hraw, ?_⟩
      rw [hread]
      simpa [Declares] using hdeclared
    exact ⟨raw, List.mem_append_right _ hessential,
      (declares_of_single hread (hsingle raw hraw)).2 rfl⟩

/-- The packages that the source of a template declares and the common ones are all declared in the
package block of every preview, but for those that are superseded by an entry; and without
additional packages the block, as it stands in the document, is read entry by entry. -/
theorem packageBlock_covers (t : Template) (p : Profile) (o : PreviewOptions) :
    let preamble := Preamble.ofSource t.source
    let block := Preview.packageBlock preamble o.packages
    (∃ rest, (t.preview p o).toList = preamble.documentClass.toList ++
        "\n\n% Essential packages\n".toList ++ Preview.stacked block ++
        "\n\n% Original preamble commands\n".toList ++ rest) ∧
      (∀ name, Declares t.source name ∨ name ∈ commonNames →
        (∃ raw ∈ block, Declares raw name) ∨
          (name = "fontenc" ∧ HasEntry block "fontspec") ∨
          (name = "amsmath" ∧ HasEntry block "unicode-math")) ∧
      (o.packages = [] → declarations (Preview.stacked block) = block.map String.toList) := by
  intro preamble block
  have hdirective : ∀ raw ∈ preamble.packages ++ Preview.essentials preamble.packages,
      IsDirective raw := fun raw hraw => (List.mem_append.1 hraw).elim
    isDirective_of_mem_packages isDirective_of_mem_essentials
  refine ⟨?_, ?_, ?_⟩
  · have htext : (t.preview p o).toList = _ := String.toList_ofList
    rw [htext]
    simp only [List.append_assoc]
    exact ⟨_, rfl⟩
  · intro name hname
    have hall : ∃ raw ∈ preamble.packages ++ Preview.essentials preamble.packages,
        Declares raw name := by
      rcases hname with hname | hname
      · obtain ⟨raw, hraw, hdeclares⟩ := exists_declares_of_source hname
        exact ⟨raw, List.mem_append_left _ hraw, hdeclares⟩
      · exact exists_declares_common hname
    obtain ⟨raw, hraw, hdeclares⟩ := hall
    rcases covered_of_isDirective (List.mem_append_left o.packages hraw) (hdirective raw hraw)
      hdeclares with h | ⟨pair, hpair, rfl, hentry⟩
    · exact .inl h
    · simp only [supersessions, List.mem_cons, List.not_mem_nil, or_false] at hpair
      rcases hpair with rfl | rfl
      · exact .inr (.inl ⟨rfl, hentry⟩)
      · exact .inr (.inr ⟨rfl, hentry⟩)
  · intro hnone
    refine declarations_lines fun raw hraw => ?_
    have hmem := mem_of_mem_resolve hraw
    rw [hnone, List.append_nil] at hmem
    exact hdirective raw hmem

end Template

-- The list names what the block has in another entry too, and excludes a common package only by the
-- entry that its body calls for.
theorem packageBlock_covers_list :
    let t := Template.ofSource
      "\\usepackage\x7bfontspec, xunicode\x7d\\begin\x7bdocument\x7d\\setmainfont"
    let block := Preview.packageBlock (Preamble.ofSource t.source) []
    Declares t.source "xunicode" ∧ (∃ raw ∈ block, Declares raw "xunicode") ∧
      "fontenc" ∈ commonNames ∧ (¬∃ raw ∈ block, Declares raw "fontenc") ∧
      HasEntry block "fontspec" ∧
      declarations (Preview.stacked block) = block.map String.toList := by
  intro t block
  obtain ⟨-, hcovers, hread⟩ := Template.packageBlock_covers t .plain Preview.defaults
  have hlisted : Declares t.source "xunicode" := by decide +kernel
  have hcommon : "fontenc" ∈ commonNames := by decide +kernel
  have hexcluded : ¬∃ raw ∈ block, Declares raw "fontenc" := by decide +kernel
  refine ⟨hlisted, ?_, hcommon, hexcluded, ?_, hread rfl⟩
  · refine (hcovers "xunicode" (.inl hlisted)).resolve_right ?_
    decide
  · rcases (hcovers "fontenc" (.inr hcommon)).resolve_left hexcluded with h | h
    · exact h.2
    · exact absurd h.1 (by decide)

end ResumePress
