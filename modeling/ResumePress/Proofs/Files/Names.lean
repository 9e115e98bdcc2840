import ResumePress.Proofs.Files.Leads
import ResumePress.Proofs.Text.Occurrences
import ResumePress.Text.Hex

/-!
Names at the end of paths. A plain name added to a path is the last step of the path, so what is
found there has that name, unless a link has it.
-/

namespace ResumePress

namespace Text

theorem isAlphanum_hexDigit (n : Nat) : (hexDigit n).isAlphanum = true := by
  have hdigit : n % 16 < 16 := Nat.mod_lt _ (by decide)
  have hall : ∀ k < 16, (Nat.digitChar k).isAlphanum = true := by decide
  exact hall _ hdigit

theorem isAlphanum_of_mem_hex {bytes : List UInt8} {c : Char} (h : c ∈ (hex bytes).toList) :
    c.isAlphanum = true := by
  simp only [hex, String.toList_ofList, List.mem_flatMap, List.mem_cons, List.not_mem_nil, or_false] at h
  obtain ⟨byte, -, rfl | rfl⟩ := h
  · exact isAlphanum_hexDigit _
  · exact isAlphanum_hexDigit _

theorem not_slash_mem_hex (bytes : List UInt8) : '/' ∉ (hex bytes).toList := fun h =>
  absurd (isAlphanum_of_mem_hex h) (by decide)

theorem cutLast?_append {sep : Char} {after : List Char} (h : sep ∉ after) (before : List Char) :
    cutLast? [sep] (before ++ sep :: after) = some (before, after) := by
  have hborder : ¬Straddles [sep] after.reverse (sep :: before.reverse) := by
    rintro ⟨k, hk, hpos, -⟩
    have := List.mem_range.1 hk
    simp only [List.length_singleton] at this
    omega
  have hnot : ¬[sep] <:+: after.reverse := fun hin => by
    simpa [h] using hin.subset List.mem_cons_self
  rw [cutLast?, List.reverse_singleton, List.reverse_append, List.reverse_cons, List.append_assoc,
    List.singleton_append, cut?_append_right hnot hborder]
  simp [cut?]

theorem eq_of_cutLast? {needle s before after : List Char}
    (h : cutLast? needle s = some (before, after)) : s = before ++ needle ++ after := by
  obtain ⟨⟨front, back⟩, hcut, heq⟩ := Option.map_eq_some_iff.1 h
  cases heq
  have hreverse := congrArg List.reverse (eq_of_cut? hcut)
  simpa using hreverse

end Text

namespace Path

open Files

/-- A single component that leads somewhere. -/
structure IsPlain (name : String) : Prop where
  noSlash : '/' ∉ name.toList
  notVoid : isVoid name.toList = false
  notUp : name.toList ≠ ['.', '.']

variable {p : Path} {name : String}

theorem IsPlain.step (h : IsPlain name) : step name.toList = .name name := by
  simp [Path.step, h.notVoid, h.notUp]

theorem IsPlain.append {a b : String} (ha : '/' ∉ a.toList) (hb : '/' ∉ b.toList)
    (hlength : 3 ≤ b.toList.length) : IsPlain (a ++ b) := by
  have hlong : 3 ≤ (a ++ b).toList.length := by
    rw [String.toList_append, List.length_append]
    omega
  refine ⟨?_, ?_, ?_⟩
  · rw [String.toList_append, List.mem_append, not_or]
    exact ⟨ha, hb⟩
  · unfold isVoid
    cases hname : (a ++ b).toList with
    | nil => rw [hname] at hlong; cases hlong
    | cons c rest =>
      cases rest with
      | nil => rw [hname] at hlong; simp at hlong
      | cons d rest => simp
  · intro hname
    rw [hname] at hlong
    simp at hlong

theorem not_isAbsolute (h : '/' ∉ name.toList) : isAbsolute ⟨name⟩ = false := by
  unfold isAbsolute
  dsimp only
  cases hname : name.toList with
  | nil => rfl
  | cons c rest =>
    rw [hname] at h
    simpa using fun heq : c = '/' => h (heq ▸ List.mem_cons_self)

theorem IsPlain.ne_nil (h : IsPlain name) : name.toList ≠ [] := by
  intro hname
  have hvoid := h.notVoid
  rw [hname] at hvoid
  cases hvoid

/-- The segments of a path that come before a name added to it: all but an empty one at its end. -/
def lead (p : Path) : List (List Char) :=
  if p.text = "" then []
  else if p.text.toList.getLast? = some '/' then p.segments.dropLast
  else p.segments

theorem lead_subset (p : Path) : p.lead ⊆ p.segments := by
  unfold lead
  split
  · exact List.nil_subset _
  · split
    · exact List.dropLast_subset _
    · exact List.Subset.refl _

theorem segments_eq_lead (hp : p.text ≠ "") : p.segments = p.lead ∨ p.segments = p.lead ++ [[]] := by
  unfold lead
  rw [if_neg hp]
  split
  · rename_i hslash
    obtain ⟨before, hbefore⟩ := List.getLast?_eq_some_iff.1 hslash
    right
    rw [segments, hbefore, Text.splitAt_append]
    simp [Text.splitAt]
  · exact .inl rfl

theorem segments_join (h : '/' ∉ name.toList) : (p.join name).segments = p.lead ++ [name.toList] := by
  have hname := Text.splitAt_of_not_mem h
  unfold join lead
  rw [not_isAbsolute h]
  simp only [Bool.false_eq_true, if_false]
  by_cases hempty : p.text = ""
  · simp [hempty, segments, hname]
  · by_cases hslash : p.text.toList.getLast? = some '/'
    · obtain ⟨before, hbefore⟩ := List.getLast?_eq_some_iff.1 hslash
      rw [if_pos (.inr hslash), if_neg hempty, if_pos hslash]
      simp only [segments, String.toList_append, hbefore]
      rw [List.append_assoc, List.singleton_append, Text.splitAt_append, Text.splitAt_append, hname]
      simp [Text.splitAt]
    · simp only [hempty, hslash, or_self, if_false, segments, String.toList_append]
      have hone : "/".toList = ['/'] := rfl
      rw [hone, List.append_assoc, List.singleton_append, Text.splitAt_append, hname]

theorem isAbsolute_join (h : IsPlain name) (hp : p.text ≠ "") :
    (p.join name).isAbsolute = p.isAbsolute := by
  have hne : p.text.toList ≠ [] := by simpa using hp
  obtain ⟨c, rest, htext⟩ := List.exists_cons_of_ne_nil hne
  unfold join
  rw [not_isAbsolute h.noSlash]
  simp only [Bool.false_eq_true, if_false]
  split <;> simp [isAbsolute, htext]

theorem filter_segments (p : Path) :
    p.segments.filter (fun segment => !isVoid segment) =
      p.lead.filter fun segment => !isVoid segment := by
  by_cases hp : p.text = ""
  · simp [lead, segments, hp, Text.splitAt, isVoid]
  · rcases segments_eq_lead hp with hsegments | hsegments <;> rw [hsegments]
    rw [List.filter_append]
    simp [isVoid]

theorem startsHere_join (h : IsPlain name) : (p.join name).startsHere = p.startsHere := by
  have hname : name.toList ≠ ['.'] := fun heq => by
    have hvoid := h.notVoid
    rw [heq] at hvoid
    cases hvoid
  unfold startsHere
  rw [segments_join h.noSlash]
  by_cases hp : p.text = ""
  · simp [lead, segments, hp, Text.splitAt, hname]
  · rcases segments_eq_lead hp with hsegments | hsegments <;> rw [hsegments] <;>
      cases p.lead <;> simp [hname]

/-- A name added to a path is one more component of it. -/
theorem components_join (h : IsPlain name) :
    (p.join name).components = p.components ++ [.name name] := by
  have habsolute : (p.join name).isAbsolute = p.isAbsolute := by
    by_cases hp : p.text = ""
    · have hempty : p = ⟨""⟩ := by rw [← hp]
      rw [hempty, join, not_isAbsolute h.noSlash]
      simpa [isAbsolute] using not_isAbsolute h.noSlash
    · exact isAbsolute_join h hp
  have hinner : ((p.join name).segments.filter fun segment => !isVoid segment).map component =
      (p.segments.filter fun segment => !isVoid segment).map component ++ [.name name] := by
    rw [segments_join h.noSlash, filter_segments, List.filter_append, List.map_append]
    simp [h.notVoid, component, h.notUp]
  unfold components
  rw [habsolute, startsHere_join h, hinner]
  split
  · rfl
  · split <;> rfl

theorem steps_join (h : IsPlain name) :
    ∃ before, (p.join name).steps = before ++ [.name name] ∧
      (p.text ≠ "" → p.steps = before ∨ p.steps = before ++ [.here]) := by
  refine ⟨p.lead.map Path.step, ?_, fun hne => (segments_eq_lead hne).imp ?_ ?_⟩
  · simp [steps, segments_join h.noSlash, h.step]
  · intro hbefore
    rw [steps, hbefore]
  · intro hbefore
    rw [steps, hbefore, List.map_append]
    rfl

theorem backwards_join (h : IsPlain name) :
    (p.join name).backwards = name.toList :: p.lead.reverse := by
  simp [backwards, segments_join h.noSlash, h.notVoid]

theorem fileName?_join (h : IsPlain name) : (p.join name).fileName? = some name := by
  simp [fileName?, backwards_join h, h.notUp]

theorem stem?_join (h : IsPlain name) : (p.join name).stem? = some (splitName name).1 := by
  rw [stem?, fileName?_join h, Option.map_some]

theorem extension?_join (h : IsPlain name) : (p.join name).extension? = (splitName name).2 := by
  rw [extension?, fileName?_join h, Option.bind_some]

theorem splitName_append {stem extension : String} (hne : stem ≠ "")
    (hdot : '.' ∉ extension.toList) :
    splitName (stem ++ "." ++ extension) = (stem, some extension) := by
  have hname : (stem ++ "." ++ extension).toList = stem.toList ++ '.' :: extension.toList := by
    simp
  rw [splitName, hname, Text.cutLast?_append hdot]
  cases hstem : stem.toList with
  | nil => exact absurd (String.toList_eq_nil_iff.1 hstem) hne
  | cons c rest => simp [← hstem]

/-- A name with an extension is a stem, a point and the extension. -/
theorem eq_of_splitName {name extension : String} (h : (splitName name).2 = some extension) :
    (splitName name).1 ≠ "" ∧ name = (splitName name).1 ++ "." ++ extension := by
  unfold splitName at h ⊢
  cases hcut : Text.cutLast? ['.'] name.toList with
  | none => simp [hcut] at h
  | some parts =>
    obtain ⟨before, after⟩ := parts
    have hname := Text.eq_of_cutLast? hcut
    cases before with
    | nil => simp [hcut] at h
    | cons c before =>
      simp only [hcut, Option.some.injEq] at h
      subst h
      refine ⟨by simp, String.toList_inj.1 ?_⟩
      simp [hname]

theorem ofBackwards_segments (p : Path) : ofBackwards p.segments.reverse = p.text := by
  rw [ofBackwards, List.reverse_reverse, segments, Text.joinWith_splitAt, String.ofList_toList]

theorem withoutEndSlashes_of_getLast? {c : Char} (h : p.text.toList.getLast? = some c)
    (hc : c ≠ '/') : p.withoutEndSlashes = p := by
  obtain ⟨before, hbefore⟩ := List.getLast?_eq_some_iff.1 h
  unfold withoutEndSlashes
  have hdrop : p.text.toList.reverse.dropWhile (· == '/') = p.text.toList.reverse := by
    simp [hbefore, hc]
  rw [hdrop]
  cases hreverse : p.text.toList.reverse with
  | nil => simp [hbefore] at hreverse
  | cons last rest =>
    dsimp only
    rw [← hreverse, List.reverse_reverse, String.ofList_toList]

theorem text_join_append (h : '/' ∉ name.toList) :
    ∃ after, (p.join name).text = p.text ++ after := by
  unfold join
  rw [not_isAbsolute h]
  simp only [Bool.false_eq_true, if_false]
  split
  · exact ⟨_, rfl⟩
  · exact ⟨_, String.append_assoc⟩

theorem text_join (h : '/' ∉ name.toList) :
    ∃ before, (p.join name).text.toList = before ++ name.toList := by
  unfold join
  rw [not_isAbsolute h]
  simp only [Bool.false_eq_true, if_false]
  split
  · exact ⟨_, String.toList_append⟩
  · exact ⟨_, by rw [String.toList_append]⟩

/-- A path that ends in a name does not end in a slash. -/
theorem getLast?_join (h : IsPlain name) :
    ∃ c, (p.join name).text.toList.getLast? = some c ∧ c ≠ '/' := by
  obtain ⟨before, hbefore⟩ := text_join (p := p) h.noSlash
  obtain ⟨start, c, hname⟩ := (List.eq_nil_or_concat name.toList).resolve_left h.ne_nil
  refine ⟨c, ?_, ?_⟩
  · rw [hbefore, hname, List.concat_eq_append, ← List.append_assoc, List.getLast?_concat]
  · rintro rfl
    exact h.noSlash (by simp [hname])

theorem withoutEndSlashes_join (h : IsPlain name) :
    (p.join name).withoutEndSlashes = p.join name := by
  obtain ⟨c, hlast, hc⟩ := getLast?_join (p := p) h
  exact withoutEndSlashes_of_getLast? hlast hc

theorem ends_join (h : IsPlain name) :
    (p.join name).text ≠ "" ∧ (p.join name).text.toList.getLast? ≠ some '/' := by
  obtain ⟨c, hlast, hc⟩ := getLast?_join (p := p) h
  refine ⟨fun hempty => ?_, fun hslash => ?_⟩
  · simp [hempty] at hlast
  · rw [hlast] at hslash
    exact hc (Option.some.inj hslash)

theorem lead_join (h : IsPlain name) : (p.join name).lead = (p.join name).segments := by
  rw [lead, if_neg (ends_join h).1, if_neg (ends_join h).2]

/-- A name can be taken away again from a path with two names added. -/
theorem parent?_join {a b : String} (ha : IsPlain a) (hb : IsPlain b) :
    ((p.join a).join b).parent? = some (p.join a) := by
  have hkept : (p.join a).segments.reverse.dropWhile isVoid = a.toList :: p.lead.reverse := by
    simp [segments_join ha.noSlash, ha.notVoid]
  rw [parent?, backwards_join hb, lead_join ha]
  dsimp only
  rw [hkept]
  dsimp only
  have hsegments : a.toList :: p.lead.reverse = (p.join a).segments.reverse := by
    simp [segments_join ha.noSlash]
  rw [hsegments, ofBackwards_segments]

theorem withFileName_join {a b : String} (ha : IsPlain a) (hb : IsPlain b) (name : String) :
    ((p.join a).join b).withFileName name = (p.join a).join name := by
  rw [withFileName, fileName?_join hb, parent?_join ha hb]

/-- Names can be added to a path one by one. -/
theorem join_join {a b : String} (ha : IsPlain a) (hb : isAbsolute ⟨b⟩ = false) :
    (p.join a).join b = p.join (a ++ "/" ++ b) := by
  have hboth : isAbsolute ⟨a ++ "/" ++ b⟩ = false := by
    obtain ⟨c, rest, hname⟩ := List.exists_cons_of_ne_nil ha.ne_nil
    have habsolute := not_isAbsolute ha.noSlash
    simpa [isAbsolute, hname] using habsolute
  rw [join.eq_def (p.join a), hb, if_neg Bool.false_ne_true,
    if_neg (not_or.2 ⟨(ends_join ha).1, (ends_join ha).2⟩), join, join, hboth,
    not_isAbsolute ha.noSlash, if_neg Bool.false_ne_true, if_neg Bool.false_ne_true]
  split <;> simp only [String.append_assoc]

/-- A text can be put behind a name that is added to a path. -/
theorem mk_text_append {a b : String} (ha : '/' ∉ a.toList) (hb : '/' ∉ b.toList) :
    Path.mk ((p.join a).text ++ b) = p.join (a ++ b) := by
  have hboth : '/' ∉ (a ++ b).toList := by simp [ha, hb]
  rw [join, join, not_isAbsolute ha, not_isAbsolute hboth, if_neg Bool.false_ne_true,
    if_neg Bool.false_ne_true]
  split <;> simp only [String.append_assoc]

theorem IsPlain.of_noPoint (hname : name.toList ≠ []) (hslash : '/' ∉ name.toList)
    (hdot : '.' ∉ name.toList) : IsPlain name := by
  refine ⟨hslash, ?_, fun heq => hdot (by simp [heq])⟩
  simp only [isVoid, Bool.or_eq_false_iff, beq_eq_false_iff_ne]
  exact ⟨hname, fun heq => hdot (by simp [heq])⟩

/-- A name without a point is its own stem. -/
theorem splitName_of_noPoint (hdot : '.' ∉ name.toList) : splitName name = (name, none) := by
  have hcut : Text.cutLast? ['.'] name.toList = none := by
    unfold Text.cutLast?
    cases hparts : Text.cut? ['.'].reverse name.toList.reverse with
    | none => rfl
    | some parts =>
      have hreverse := Text.eq_of_cut? hparts
      exact absurd (List.mem_reverse.1 (by rw [hreverse]; simp)) hdot
  rw [splitName, hcut]

/-- A name without an extension is given one. -/
theorem withExtension_join (hname : name.toList ≠ []) (hslash : '/' ∉ name.toList)
    (hdot : '.' ∉ name.toList) {extension : String} (hextension : '/' ∉ extension.toList) :
    (p.join name).withExtension extension = p.join (name ++ "." ++ extension) := by
  have hplain : IsPlain name := .of_noPoint hname hslash hdot
  have hstem : (p.join name).stem? = some name := by
    rw [stem?_join hplain, splitName_of_noPoint hdot]
  have hfull : '/' ∉ (name ++ "." ++ extension).toList := by
    simp [hslash, hextension]
  rw [withExtension, backwards_join hplain, hstem]
  dsimp only
  rw [if_neg fun hpoint => hdot (by simp [hpoint.1])]
  have hsegments : (name ++ "." ++ extension).toList :: p.lead.reverse =
      (p.join (name ++ "." ++ extension)).segments.reverse := by
    simp [segments_join hfull]
  rw [hsegments, ofBackwards_segments]

/-- A slash at the end does not count for the extension of a name. -/
theorem withExtension_join_slash (hname : name.toList ≠ []) (hslash : '/' ∉ name.toList)
    (hdot : '.' ∉ name.toList) {extension : String} (hextension : '/' ∉ extension.toList) :
    ((p.join name).join "").withExtension extension = p.join (name ++ "." ++ extension) := by
  have hplain : IsPlain name := .of_noPoint hname hslash hdot
  have hback : ((p.join name).join "").backwards = (p.join name).backwards := by
    rw [backwards, segments_join (by decide), lead_join hplain, List.reverse_append]
    rfl
  have hstem : (p.join name).stem? = some name := by
    rw [stem?_join hplain, splitName_of_noPoint hdot]
  have hstemSlash : ((p.join name).join "").stem? = some name := by
    rw [stem?, fileName?, hback, ← fileName?, ← stem?, hstem]
  rw [← withExtension_join hname hslash hdot hextension, withExtension, withExtension, hback,
    backwards_join hplain, hstem, hstemSlash]
  dsimp only
  rw [if_neg fun hpoint => hdot (by simp [hpoint.1]), if_neg fun hpoint => hdot (by simp [hpoint.1])]

theorem withFileName_eq_join (p : Path) (name : String) :
    ∃ folder : Path, p.withFileName name = folder.join name := by
  unfold withFileName
  split
  · exact ⟨_, rfl⟩
  · exact ⟨p, rfl⟩

end Path

namespace Files.Tree

variable {t : Tree} {followLast : Bool} {links : Nat} {place found folder : Place}
  {steps : List Path.Step} {path : Path} {name : String}

/-- A point at the end does not matter where links are followed. -/
theorem Leads.of_here (h : t.Leads true links place (steps ++ [.here]) found) :
    t.Leads true links place steps found := by
  generalize heq : steps ++ [.here] = all at h
  induction h generalizing steps with
  | done => simp at heq
  | here h ih =>
    cases steps with
    | nil =>
      cases heq
      exact h
    | cons step steps =>
      cases heq
      exact .here (ih rfl)
  | up _ ih =>
    cases steps with
    | nil => cases heq
    | cons step steps =>
      cases heq
      exact .up (ih rfl)
  | down hname hfolder _ ih =>
    cases steps with
    | nil => cases heq
    | cons step steps =>
      cases heq
      exact .down hname hfolder (ih rfl)
  | last =>
    cases steps with
    | nil => cases heq
    | cons step steps => simp at heq
  | jump hname hlink _ _ ih =>
    cases steps with
    | nil => cases heq
    | cons step steps =>
      cases heq
      exact .jump hname hlink (.inr rfl) (ih (List.append_assoc ..))

/-- What comes before a name added to a path leads where the path leads. -/
theorem exists_leads_join (hname : Path.IsPlain name) (h : t.locate true path = .ok folder) :
    ∃ before, (path.join name).steps = before ++ [.name name] ∧
      t.Leads true 40 (if path.isAbsolute then [] else t.home) before folder := by
  obtain ⟨hwalkable, hway⟩ := locate_eq_ok.1 h
  obtain ⟨before, hsteps, hends⟩ := Path.steps_join (p := path) hname
  refine ⟨before, hsteps, ?_⟩
  rcases hends hwalkable.2.1 with heq | heq <;> rw [heq] at hway
  · exact hway
  · exact hway.of_here

/-- Where a name added to the path of a folder leads, if it leads anywhere. -/
theorem locate_join (hroot : t.IsRooted) (hname : Path.IsPlain name)
    (hfolder : t.locate true path = .ok folder) (hisFolder : t.folderAt folder = true)
    (hlink : t.link? (folder ++ [name]) = none ∨ followLast = false)
    (h : t.locate followLast (path.join name) = .ok found) : found = folder ++ [name] := by
  obtain ⟨before, hsteps, hbefore⟩ := exists_leads_join hname hfolder
  obtain ⟨-, hwayJoin⟩ := locate_eq_ok.1 h
  rw [Path.isAbsolute_join hname (locate_eq_ok.1 hfolder).1.2.1, hsteps] at hwayJoin
  have hshort := (hwayJoin.unsnoc hroot (hroot.folderAt_start path)).1
  have hfollow := follow_eq_ok.2 (hbefore.snoc hisFolder hshort hlink)
  rw [follow_eq_ok.2 hwayJoin] at hfollow
  exact Except.ok.inj hfollow

/-- What a path that ends in a name leads to has the name. -/
theorem name_of_locate_join (hname : Path.IsPlain name)
    (hlink : followLast = false ∨ ∀ folder, t.link? (folder ++ [name]) = none)
    (h : t.locate followLast (path.join name) = .ok found) : ∃ folder, found = folder ++ [name] := by
  obtain ⟨-, hway⟩ := locate_eq_ok.1 h
  obtain ⟨before, hsteps, -⟩ := Path.steps_join (p := path) hname
  rw [hsteps] at hway
  exact hway.name_of_last hlink

end Files.Tree

end ResumePress
