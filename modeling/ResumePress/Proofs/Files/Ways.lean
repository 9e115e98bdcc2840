import ResumePress.Proofs.Files.Names
import ResumePress.Proofs.Files.Regions
import ResumePress.Proofs.Surroundings

/-!
Ways down from a folder. Names that are added to the path of a folder one by one lead down from it
as long as no link is on the way, and to make the folders of such a path is to make no others.
-/

namespace ResumePress

open Files

/-- The path with some names added, one below the other. -/
def Path.below (base : Path) (names : List String) : Path :=
  names.foldl Path.join base

theorem Path.below_snoc (base : Path) (names : List String) (name : String) :
    base.below (names ++ [name]) = (base.below names).join name := by
  simp [below]

namespace Files

/-- The places that are passed on the way down from a folder along some names. -/
def OnWay (root : Place) (names : List String) (place : Place) : Prop :=
  ∃ passed, passed ≠ [] ∧ passed <+: names ∧ place = root ++ passed

theorem OnWay.mono {root : Place} {names more : List String} {place : Place}
    (h : OnWay root names place) (hmore : names <+: more) : OnWay root more place := by
  obtain ⟨passed, hpassed, hprefix, rfl⟩ := h
  exact ⟨passed, hpassed, hprefix.trans hmore, rfl⟩

theorem OnWay.inside {root : Place} {name : String} {names : List String} {place : Place}
    (h : OnWay root (name :: names) place) : root ++ [name] <+: place := by
  obtain ⟨passed, hne, hprefix, rfl⟩ := h
  obtain ⟨first, more, rfl⟩ := List.exists_cons_of_ne_nil hne
  obtain ⟨rfl, -⟩ := List.cons_prefix_cons.1 hprefix
  exact ⟨more, by simp⟩

namespace Tree

/-- A path leads to a folder, and on the way down from there along some names are no links. -/
structure HasWay (t : Tree) (base : Path) (root : Place) (names : List String) : Prop where
  isRooted : t.IsRooted
  locate : t.locate true base = .ok root
  isFolder : t.folderAt root = true
  isPlain : ∀ name ∈ names, Path.IsPlain name
  link? : ∀ passed, passed <+: names → t.link? (root ++ passed) = none

variable {t t' : Tree} {base path : Path} {root found place : Place} {names : List String}
  {name : String} {followLast : Bool} {region altered : Place → Prop} {now : Instant}

/-- The path that a name is added to leads to a folder. -/
theorem IsRooted.locate_of_join (hroot : t.IsRooted) (hpath : path.text ≠ "")
    (hlead : path.lead = path.segments) (hname : Path.IsPlain name)
    (h : t.locate followLast (path.join name) = .ok found) :
    ∃ folder, t.locate true path = .ok folder ∧ t.folderAt folder = true := by
  obtain ⟨⟨hnul, -, hlength⟩, hway⟩ := locate_eq_ok.1 h
  have hsteps : (path.join name).steps = path.steps ++ [.name name] := by
    simp [Path.steps, Path.segments_join hname.noSlash, hlead, hname.step]
  rw [hsteps, Path.isAbsolute_join hname hpath] at hway
  obtain ⟨-, folder, hfolder, hbefore⟩ := hway.unsnoc hroot (hroot.folderAt_start path)
  obtain ⟨after, hafter⟩ := Path.text_join_append (p := path) hname.noSlash
  rw [hafter] at hnul hlength
  refine ⟨folder, locate_eq_ok.2 ⟨⟨?_, hpath, ?_⟩, hbefore⟩, hfolder⟩
  · exact fun hmem => hnul (by simp [hmem])
  · rw [String.utf8ByteSize_append] at hlength
    omega

namespace HasWay

theorem of_prefix (h : t.HasWay base root names) {passed : List String} (hpassed : passed <+: names) :
    t.HasWay base root passed :=
  { h with
    isPlain := fun name hname => h.isPlain name (hpassed.subset hname)
    link? := fun more hmore => h.link? more (hmore.trans hpassed) }

/-- A way stays where it is in a tree that spares all but what was empty. -/
theorem of_spares (h : t.HasWay base root names) (hs : Spares region altered t t')
    (hempty : ∀ place, region place → t.get? place = none) : t'.HasWay base root names where
  isRooted := hs.isRooted h.isRooted
  locate := by
    refine hs.locate hempty h.locate fun hregion => ?_
    exact get?_ne_none.2 (.inr h.isFolder) (hempty root hregion)
  isFolder := by
    refine hs.folderAt root (fun hregion => ?_) h.isFolder
    exact get?_ne_none.2 (.inr h.isFolder) (hempty root hregion)
  isPlain := h.isPlain
  link? := fun passed hpassed => hs.link?_eq_none (h.link? passed hpassed)

theorem of_grown (h : t.HasWay base root names) (hgrown : Grown t t') : t'.HasWay base root names :=
  h.of_spares (hgrown.spares : Spares (fun _ => False) (fun _ => False) t t') nofun

theorem snoc (h : t.HasWay base root names) (hname : Path.IsPlain name)
    (hlink : t.link? (root ++ names ++ [name]) = none) : t.HasWay base root (names ++ [name]) :=
  { h with
    isPlain := by simpa [or_imp, forall_and] using And.intro h.isPlain hname
    link? := by
      intro passed hpassed
      rcases List.prefix_concat_iff.1 hpassed with rfl | hpassed
      · rwa [← List.append_assoc]
      · exact h.link? passed hpassed }

/-- Where the names lead, if they lead anywhere. -/
theorem locate_eq (h : t.HasWay base root names) (hne : names ≠ [])
    (hlocate : t.locate followLast (base.below names) = .ok found) : found = root ++ names := by
  induction names using List.reverseRecOn generalizing followLast found with
  | nil => exact absurd rfl hne
  | append_singleton passed name ih =>
    have hname := h.isPlain name (by simp)
    have hlink := h.link? _ (List.prefix_refl _)
    rw [Path.below_snoc] at hlocate
    rw [← List.append_assoc] at hlink ⊢
    rcases List.eq_nil_or_concat passed with rfl | ⟨before, last, hpassed⟩
    · rw [List.append_nil] at hlink ⊢
      exact locate_join h.isRooted hname h.locate h.isFolder (.inl hlink) hlocate
    · have hlast : Path.IsPlain last := h.isPlain last (by simp [hpassed])
      have hbelow : base.below passed = (base.below before).join last := by
        rw [hpassed, List.concat_eq_append, Path.below_snoc]
      have hends := Path.ends_join (p := base.below before) hlast
      obtain ⟨folder, hfolder, hisFolder⟩ := h.isRooted.locate_of_join (hbelow ▸ hends.1)
        (hbelow ▸ Path.lead_join hlast) hname hlocate
      obtain rfl := ih (h.of_prefix (List.prefix_append _ _)) (by simp [hpassed]) hfolder
      exact locate_join h.isRooted hname hfolder hisFolder (.inl hlink) hlocate

/-- A name at the end of a way leads to its place, if anywhere, when links there are not followed. -/
theorem locate_last (h : t.HasWay base root names) (hne : names ≠ []) (hname : Path.IsPlain name)
    (hlocate : t.locate false ((base.below names).join name) = .ok found) :
    found = root ++ names ++ [name] := by
  obtain ⟨before, last, hnames⟩ := (List.eq_nil_or_concat names).resolve_left hne
  have hlast : Path.IsPlain last := h.isPlain last (by simp [hnames])
  have hbelow : base.below names = (base.below before).join last := by
    rw [hnames, List.concat_eq_append, Path.below_snoc]
  have hpath : (base.below names).text ≠ "" := hbelow ▸ (Path.ends_join hlast).1
  have hlead : (base.below names).lead = (base.below names).segments := hbelow ▸ Path.lead_join hlast
  obtain ⟨folder, hfolder, hisFolder⟩ := h.isRooted.locate_of_join hpath hlead hname hlocate
  obtain rfl := h.locate_eq hne hfolder
  exact locate_join h.isRooted hname hfolder hisFolder (.inr rfl) hlocate

/-! ### Making the folders of a way -/

/-- The way to a name in a folder that is there does not break off. -/
theorem locate_ne_notFound (h : t.HasWay base root [name]) (hshort : name.utf8ByteSize ≤ 255) :
    t.locate false (base.join name) ≠ .error .notFound := by
  have hname := h.isPlain name (by simp)
  obtain ⟨hwalkable, hway⟩ := locate_eq_ok.1 h.locate
  obtain ⟨before, hsteps, hpath⟩ := Path.steps_join (p := base) hname
  have hbefore : t.Leads true 40 (if base.isAbsolute then [] else t.home) before root := by
    rcases hpath hwalkable.2.1 with heq | heq <;> rw [heq] at hway
    · exact hway
    · exact hway.of_here
  have hlast : t.Leads false 40 (if base.isAbsolute then [] else t.home) (before ++ [.name name])
      (root ++ [name]) := hbefore.snoc h.isFolder hshort (.inr rfl)
  have hfollow := follow_eq_ok.2 hlast
  rw [← hsteps, ← Path.isAbsolute_join hname hwalkable.2.1] at hfollow
  unfold Tree.locate
  rw [if_neg (Path.ends_join hname).1, hfollow]
  split
  · nofun
  · split <;> nofun

theorem makeFolder_ne_notFound (h : t.HasWay base root [name]) (hshort : name.utf8ByteSize ≤ 255) :
    t.makeFolder now (base.join name) ≠ .error .notFound := by
  have hfound := h.locate_ne_notFound hshort
  unfold makeFolder
  rw [Path.withoutEndSlashes_join (h.isPlain name (by simp))]
  cases hlocate : t.locate false (base.join name) with
  | error e => exact fun heq => hfound (by rw [hlocate, Except.error.inj heq])
  | ok place =>
    dsimp only
    split <;> nofun

theorem makeFolder_adds (h : t.HasWay base root names) (hne : names ≠ [])
    (hmade : t.makeFolder now (base.below names) = .ok t') : Adds t t' (root ++ names) := by
  obtain ⟨place, hlocate, hadds⟩ := Tree.makeFolder_adds h.isRooted hmade
  obtain ⟨passed, name, rfl⟩ := (List.eq_nil_or_concat names).resolve_left hne
  rw [List.concat_eq_append, Path.below_snoc,
    Path.withoutEndSlashes_join (h.isPlain name (by simp)), ← Path.below_snoc,
    ← List.concat_eq_append] at hlocate
  rwa [h.locate_eq hne hlocate] at hadds

theorem folderAt_adds (hadds : Adds t t' (root ++ names)) (hne : names ≠ []) (place : Place) :
    t'.folderAt place = t.folderAt place ∨
      (OnWay root names place ∧ t'.folderAt place = true) := by
  rw [hadds.folderAt]
  by_cases hplace : place = root ++ names
  · exact .inr ⟨⟨names, hne, List.prefix_refl _, hplace⟩, by rw [hplace, Function.update_self]⟩
  · exact .inl (Function.update_of_ne hplace _ _)

-- The induction is on the depth: if a folder is missing, those above it are made first.
theorem makeFoldersFrom_folderAt (h : t.HasWay base root names) (hne : names ≠ [])
    (hshort : ∀ name ∈ names, name.utf8ByteSize ≤ 255) (depth : Nat) (place : Place) :
    (makeFoldersFrom now depth t (base.below names)).2.folderAt place = t.folderAt place ∨
      (OnWay root names place ∧
        (makeFoldersFrom now depth t (base.below names)).2.folderAt place = true) := by
  induction depth generalizing names with
  | zero => exact .inl rfl
  | succ depth ih =>
    unfold makeFoldersFrom
    split
    · exact .inl rfl
    · split
      · rename_i hmade
        exact folderAt_adds (h.makeFolder_adds hne hmade) hne place
      · rename_i hmissing
        obtain ⟨passed, name, rfl⟩ := (List.eq_nil_or_concat names).resolve_left hne
        rw [List.concat_eq_append] at *
        have hname := h.isPlain name (by simp)
        rcases List.eq_nil_or_concat passed with rfl | ⟨before, last, hpassed⟩
        · exact absurd hmissing (h.makeFolder_ne_notFound (hshort name (by simp)))
        · have hparent : (base.below (passed ++ [name])).parent? = some (base.below passed) := by
            rw [hpassed, List.concat_eq_append, Path.below_snoc, Path.below_snoc,
              Path.parent?_join (h.isPlain last (by simp [hpassed])) hname]
          have hbelow := ih (h.of_prefix (List.prefix_append _ _)) (by simp [hpassed])
            (fun other hother => hshort other (by simp [hother]))
          have hgrown : Grown t (makeFoldersFrom now depth t (base.below passed)).2 :=
            makeFoldersFrom_grown h.isRooted depth
          rw [hparent]
          dsimp only
          generalize makeFoldersFrom now depth t (base.below passed) = made at hbelow hgrown
          have hless : made.2.folderAt place = t.folderAt place ∨
              (OnWay root (passed ++ [name]) place ∧ made.2.folderAt place = true) :=
            hbelow.imp id fun ⟨hway, htrue⟩ => ⟨hway.mono (List.prefix_append _ _), htrue⟩
          obtain ⟨e | _, above⟩ := made
          · exact hless
          · have habove := h.of_grown hgrown
            dsimp only
            split
            · rename_i hmade
              have hadds := habove.makeFolder_adds hne hmade
              rcases folderAt_adds hadds hne place with hsame | hnew
              · rw [hsame]
                exact hless
              · exact .inr hnew
            · exact hless
      · exact .inl rfl

theorem makeFolders_changes (h : t.HasWay base root names) (hne : names ≠ [])
    (hshort : ∀ name ∈ names, name.utf8ByteSize ≤ 255) (now : Instant) :
    Changes region altered (OnWay root names) t (t.makeFolders now (base.below names)).2 where
  toSpares := (makeFolders_grown h.isRooted now _).spares
  folders := fun place _ => h.makeFoldersFrom_folderAt hne hshort _ place

end HasWay

/-! ### A folder without links -/

/-- The places directly inside the folder at the end of a way. -/
def InFolder (root : Place) (names : List String) (place : Place) : Prop :=
  ∃ name, place = root ++ names ++ [name]

theorem InFolder.inside (h : InFolder root (name :: names) place) : root ++ [name] <+: place := by
  obtain ⟨last, rfl⟩ := h
  exact ⟨names ++ [last], by simp⟩

/-- What is in the folder at the end of a way is not on the way. -/
theorem InFolder.not_onWay (h : InFolder root names place) : ¬OnWay root names place := by
  rintro ⟨passed, -, hprefix, rfl⟩
  obtain ⟨last, hsame⟩ := h
  have hlength := congrArg List.length hsame
  have hless := hprefix.length_le
  simp only [List.length_append, List.length_singleton] at hlength
  omega

/-- A place is neither on the way along some names nor in the folder at its end. -/
structure IsOff (root : Place) (names : List String) (place : Place) : Prop where
  onWay : ¬OnWay root names place
  inFolder : ¬InFolder root names place

/-- Ways that part at once have nothing in common. -/
theorem isOff_of_inside {other : String} {others : List String} (hne : name ≠ other)
    (h : root ++ name :: names <+: place) : IsOff root (other :: others) place := by
  have hname : root ++ [name] <+: place := .trans ⟨names, by simp⟩ h
  have hnot : ¬root ++ [other] <+: place := fun hother => hne <| by
    simpa using List.prefix_of_prefix_length_le hname hother (by simp)
  exact ⟨fun hway => hnot hway.inside, fun hfolder => hnot hfolder.inside⟩

/-- A way to a folder that has no links in it. -/
structure HasFolder (t : Tree) (base : Path) (root : Place) (names : List String) : Prop
    extends HasWay t base root names where
  nonempty : names ≠ []
  inside : ∀ name, t.link? (root ++ names ++ [name]) = none

namespace HasFolder

theorem of_spares (h : t.HasFolder base root names) (hs : Spares region altered t t')
    (hempty : ∀ place, region place → t.get? place = none) : t'.HasFolder base root names where
  toHasWay := h.toHasWay.of_spares hs hempty
  nonempty := h.nonempty
  inside := fun name => hs.link?_eq_none (h.inside name)

theorem of_grown (h : t.HasFolder base root names) (hgrown : Grown t t') :
    t'.HasFolder base root names :=
  h.of_spares (hgrown.spares : Spares (fun _ => False) (fun _ => False) t t') nofun

theorem way (h : t.HasFolder base root names) (hname : Path.IsPlain name) :
    t.HasWay base root (names ++ [name]) :=
  h.toHasWay.snoc hname (h.inside name)

/-- A name in the folder leads to what has the name there. -/
theorem locate_eq (h : t.HasFolder base root names) (hname : Path.IsPlain name)
    (hlocate : t.locate followLast ((base.below names).join name) = .ok found) :
    found = root ++ names ++ [name] := by
  rw [← Path.below_snoc] at hlocate
  rw [(h.way hname).locate_eq (List.concat_ne_nil _ _) hlocate, List.append_assoc]

theorem sets_write (h : t.HasFolder base root names) (hname : Path.IsPlain name) {bytes : ByteArray}
    (hwrite : t.write now ((base.below names).join name) bytes = .ok t') :
    Sets t t' (root ++ names ++ [name]) (some ⟨.file bytes, now⟩) := by
  obtain ⟨place, hlocate, hsets⟩ := write_sets h.isRooted hwrite
  rwa [h.locate_eq hname hlocate] at hsets

end HasFolder

section Work

variable {σ : Type} (h : t.HasFolder base root names)
  (hempty : ∀ place, region place → t.get? place = none)
include h hempty

theorem makeFolders_keeps (hshort : ∀ name ∈ names, name.utf8ByteSize ≤ 255) :
    Act.Keeps (Changes region (InFolder root names) (OnWay root names) t)
      (Act.makeFolders (base.below names) : Act σ _) := fun s hs =>
  hs.trans ((h.of_spares hs.toSpares hempty).makeFolders_changes h.nonempty hshort s.now)

theorem write_keeps (hname : Path.IsPlain name) (bytes : ByteArray) :
    Act.Keeps (Changes region (InFolder root names) (OnWay root names) t)
      (Act.write ((base.below names).join name) bytes : Act σ _) := by
  refine .change fun u now u' hu hwrite => hu.trans ?_
  have hthere := h.of_spares hu.toSpares hempty
  have hsets := hthere.sets_write hname hwrite
  refine (hsets.edits ⟨name, rfl⟩ (by simp [Entry.target?])).changes ?_
  rintro place ⟨name, rfl⟩
  exact hthere.inside name

theorem removeFile_keeps (hname : Path.IsPlain name) :
    Act.Keeps (Changes region (InFolder root names) (OnWay root names) t)
      (Act.removeFile ((base.below names).join name) : Act σ _) := by
  refine .change fun u now u' hu hremove => hu.trans ?_
  have hthere := h.of_spares hu.toSpares hempty
  obtain ⟨place, hlocate, -, hsets⟩ := removeFile_sets hthere.isRooted hremove
  refine (hsets.edits ⟨name, hthere.locate_eq hname hlocate⟩ (by simp)).changes ?_
  rintro place ⟨name, rfl⟩
  exact hthere.inside name

theorem rename_keeps {other : String} (hname : Path.IsPlain name) (hother : Path.IsPlain other) :
    Act.Keeps (Changes region (InFolder root names) (OnWay root names) t)
      (Act.rename ((base.below names).join name) ((base.below names).join other) : Act σ _) := by
  refine .change fun u now u' hu hrename => hu.trans ?_
  have hthere := h.of_spares hu.toSpares hempty
  obtain ⟨old, node, new, hold, hnode, hnew, hmoved⟩ := rename_sets hthere.isRooted hrename
  obtain rfl := hthere.locate_eq hname hold
  obtain rfl := hthere.locate_eq hother hnew
  rcases hmoved with ⟨-, rfl⟩ | ⟨-, mid, hgone, hput⟩
  · exact .refl _ _ _ _
  · have hleaf := hthere.inside name
    rw [Tree.link?, hnode] at hleaf
    refine ((hgone.edits ⟨name, rfl⟩ (by simp)).trans
      (hput.edits ⟨other, rfl⟩ (by simpa using hleaf))).changes ?_
    rintro place ⟨name, rfl⟩
    exact hthere.inside name

end Work

end Tree

end Files

end ResumePress
