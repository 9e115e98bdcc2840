import ResumePress.Proofs.Cache
import ResumePress.Proofs.Openings

/-!
What the cache does to the files of its folder. To keep bytes is to change the entry of their key and
nothing else, to ask for them is to look at that entry, and to evict is to remove entries.
-/

namespace ResumePress

open Files Files.Tree

variable {σ : Type}

/-- A tree that lost the files with some names in a folder and nothing else. -/
structure Files.Tree.Loses (folder : Place) (gone : List String) (t t' : Tree) : Prop
    extends Edits (fun place => ∃ name ∈ gone, place = folder ++ [name]) t t' where
  lost : ∀ name ∈ gone, t'.leaf? (folder ++ [name]) = none

namespace Files.Tree.Loses

variable {t t' t'' : Tree} {folder : Place} {name : String} {gone : List String}

theorem refl (folder : Place) (t : Tree) : t.Loses folder [] t :=
  ⟨.refl _ _, by simp⟩

theorem leaf_of_not_mem (h : t.Loses folder gone t') (hname : name ∉ gone) :
    t'.leaf? (folder ++ [name]) = t.leaf? (folder ++ [name]) := by
  refine h.leaf _ ?_
  rintro ⟨other, hother, heq⟩
  obtain rfl : name = other := by simpa using heq
  exact hname hother

theorem cons (h : Sets t t' (folder ++ [name]) none) (h' : t'.Loses folder gone t'')
    (hnot : name ∉ gone) : t.Loses folder (name :: gone) t'' where
  toEdits := by
    refine (h.edits ⟨name, List.mem_cons_self, rfl⟩ (by simp)).trans (h'.mono ?_)
    rintro place ⟨other, hother, rfl⟩
    exact ⟨other, List.mem_cons_of_mem _ hother, rfl⟩
  lost := fun other hother => by
    rcases List.mem_cons.1 hother with rfl | hother
    · rw [h'.leaf_of_not_mem hnot, h.leaf_self]
    · exact h'.lost other hother

end Files.Tree.Loses

namespace Cache

/-- A cache in a folder that is below a base, or the base itself. -/
structure IsAt (c : Cache) (base : Path) (names : List String) : Prop where
  folder : c.folder = base.below names
  proper : ∀ name ∈ names, Path.IsProper name
  short : ∀ name ∈ names, name.utf8ByteSize ≤ 255
  ends : names = [] → base.withoutEndSlashes = base

/-- Letters and digits, at least one. -/
structure IsKey (key : String) : Prop where
  nonempty : key ≠ ""
  chars : ∀ c ∈ key.toList, c.isAlphanum = true

/-- The place of an entry. -/
def entrySpot (root : Place) (names : List String) (key : String) : Place :=
  root ++ names ++ [entryName key]

/-- The place where an entry is written aside. -/
def asideSpot (root : Place) (names : List String) (key token : String) : Place :=
  root ++ names ++ [stagingName key token]

/-- Whether the file that an entry is written to aside can have its name. -/
def fits (c : Cache) (key : String) : Bool :=
  !c.folder.overlong (stagingName key (Text.hexPadded 32 0))

/-! ### Names -/

variable {c : Cache} {base : Path} {root : Place} {names : List String} {key : String}

theorem entrySpot_inj {other : String} :
    entrySpot root names key = entrySpot root names other ↔ key = other :=
  ⟨fun h => entryName_inj (List.singleton_inj.1 (List.append_cancel_left h)), fun h => h ▸ rfl⟩

theorem entrySpot_ne_asideSpot {other token : String} :
    entrySpot root names key ≠ asideSpot root names other token := fun h =>
  entryName_ne_append (c := 'p') (by decide) (by decide)
    (List.singleton_inj.1 (List.append_cancel_left h))

theorem not_onWay_of_concat {name : String} : ¬OnWay root names (root ++ names ++ [name]) :=
  InFolder.not_onWay ⟨name, rfl⟩

namespace IsKey

variable (h : IsKey key)
include h

theorem not_mem {c : Char} (hc : c.isAlphanum = false) : c ∉ key.toList := fun hmem => by
  rw [h.chars c hmem] at hc
  cases hc

theorem isProper_entryName : Path.IsProper (entryName key) := by
  refine ⟨isPlain_entryName (h.not_mem (by decide)), ?_⟩
  simp only [entryName, String.toList_append, List.mem_append, not_or]
  exact ⟨⟨h.not_mem (by decide), by decide⟩, by decide⟩

theorem isProper_stagingName (n : Nat) : Path.IsProper (stagingName key (Text.hexPadded 32 n)) := by
  have htoken : '\x00' ∉ (Text.hexPadded 32 n).toList := fun hmem =>
    absurd (Workspace.isAlphanum_of_mem_hexPadded hmem) (by decide)
  refine ⟨isPlain_stagingName (h.not_mem (by decide)) (Workspace.not_slash_mem_hexPadded 32 n), ?_⟩
  simp only [stagingName, String.toList_append, List.mem_append, not_or]
  exact ⟨⟨⟨⟨⟨h.not_mem (by decide), by decide⟩, by decide⟩, by decide⟩, htoken⟩, by decide⟩

theorem overlong_stagingName (n : Nat) :
    c.folder.overlong (stagingName key (Text.hexPadded 32 n)) = !c.fits key := by
  have hsize : ∀ m, (Text.hexPadded 32 m).utf8ByteSize = 32 := fun m => by
    rw [← String.ofList_toList (s := Text.hexPadded 32 m),
      utf8ByteSize_of_isAlphanum fun _ => Workspace.isAlphanum_of_mem_hexPadded,
      String.length_toList, Text.length_hexPadded]
  rw [fits, Bool.not_not]
  refine Path.overlong_congr (h.isProper_stagingName n).noSlash (h.isProper_stagingName 0).noSlash ?_
  simp only [stagingName, String.utf8ByteSize_append, hsize]

/-- An entry that can be written aside can be put in place. -/
theorem overlong_entryName (hfits : c.fits key = true) : c.folder.overlong (entryName key) = false := by
  have hshort := h.overlong_stagingName (c := c) 0
  have heq : stagingName key (Text.hexPadded 32 0) =
      entryName key ++ ("." ++ Text.hexPadded 32 0 ++ ".tmp") := by
    simp only [stagingName, entryName, String.append_assoc]
  have hslash := (h.isProper_stagingName 0).noSlash
  rw [hfits, heq] at hshort
  rw [heq] at hslash
  exact Path.overlong_of_append hslash hshort

theorem extension?_entryName (folder : Path) :
    (folder.join (entryName key)).extension? = some extension := by
  rw [Path.extension?_join h.isProper_entryName.toIsPlain, entryName,
    Path.splitName_append h.nonempty (by decide)]

end IsKey

/-! ### Keeping an entry -/

section Steps

variable (hat : c.IsAt base names)
include hat

/-- Where a name in the folder of the cache leads. -/
theorem locate_in {t : Tree} (hway : t.HasWay base root names)
    (hthere : t.folderAt (root ++ names) = true) {name : String} (hname : Path.IsProper name)
    {followLast : Bool} (hlink : t.link? (root ++ names ++ [name]) = none ∨ followLast = false) :
    t.locate followLast (c.folder.join name) =
      if c.folder.overlong name then .error .nameTooLong else .ok (root ++ names ++ [name]) := by
  rw [hat.folder]
  exact hway.locate_in hat.proper hat.short hthere hname hlink

/-- Bytes are written aside and put in place, or the name is too long and nothing is written. -/
theorem replace_entry {t : Tree} (hway : t.HasWay base root names)
    (hthere : t.folderAt (root ++ names) = true) (hkey : IsKey key)
    (hentry : t.folderAt (entrySpot root names key) = false) {n : Nat}
    (haside : t.folderAt (asideSpot root names key (Text.hexPadded 32 n)) = false)
    (hlink : t.link? (asideSpot root names key (Text.hexPadded 32 n)) = none) (now : Instant)
    (bytes : ByteArray) :
    let staging := c.folder.join (stagingName key (Text.hexPadded 32 n))
    (c.fits key = false ∧ t.write now staging bytes = .error .nameTooLong ∧
      t.removeFile now staging = .error .nameTooLong) ∨
    (c.fits key = true ∧ ∃ mid t', t.write now staging bytes = .ok mid ∧
      mid.rename now staging (c.folder.join (entryName key)) = .ok t' ∧
      Edits (fun place => place = entrySpot root names key ∨
        place = asideSpot root names key (Text.hexPadded 32 n)) t t' ∧
      t'.leaf? (entrySpot root names key) = some ⟨.file bytes, now⟩ ∧
      t'.leaf? (asideSpot root names key (Text.hexPadded 32 n)) = none) := by
  intro staging
  have hproper := hkey.isProper_stagingName n
  have hlocate : ∀ followLast, t.locate followLast staging =
      if !c.fits key then .error .nameTooLong
      else .ok (asideSpot root names key (Text.hexPadded 32 n)) := fun followLast => by
    rw [← hkey.overlong_stagingName n]
    exact locate_in hat hway hthere hproper (.inl hlink)
  cases hfits : c.fits key with
  | false =>
    rw [hfits] at hlocate
    refine .inl ⟨rfl, ?_, ?_⟩
    · rw [Tree.write, hlocate]
      rfl
    · rw [Tree.removeFile, Tree.find, hlocate]
      rfl
  | true =>
    rw [hfits] at hlocate
    obtain ⟨mid, hwrite⟩ := write_isOk now bytes (hlocate true) haside
    obtain ⟨place, hplace, hwritten⟩ := write_sets hway.isRooted hwrite
    obtain rfl := Except.ok.inj (hplace.symm.trans (hlocate true))
    have hmid : Spares (fun _ => False) (· = asideSpot root names key (Text.hexPadded 32 n)) t mid :=
      hwritten.spares (.inr rfl) hlink (by simp [Entry.target?])
    have hwayMid := hway.of_spares hmid fun _ => False.elim
    have hthereMid : mid.folderAt (root ++ names) = true := hwritten.folderAt ▸ hthere
    have hold : mid.locate false staging = _ := locate_in hat hwayMid hthereMid hproper (.inr rfl)
    have hnew : mid.locate false (c.folder.join (entryName key)) = _ :=
      locate_in hat hwayMid hthereMid hkey.isProper_entryName (.inr rfl)
    rw [hkey.overlong_stagingName, hfits, Bool.not_true, if_neg Bool.false_ne_true] at hold
    rw [hkey.overlong_entryName hfits, if_neg Bool.false_ne_true] at hnew
    have hentryMid : mid.folderAt (entrySpot root names key) = false := hwritten.folderAt ▸ hentry
    obtain ⟨t', hrename⟩ := rename_isOk now hold hwritten.leaf_self hnew hentryMid
    obtain ⟨old, node, new, hfound, hnode, hplaced, hmoved⟩ := rename_sets hwayMid.isRooted hrename
    obtain rfl := Except.ok.inj (hold.symm.trans hfound)
    obtain rfl := Except.ok.inj (hnew.symm.trans hplaced)
    obtain rfl := Option.some.inj (hwritten.leaf_self.symm.trans hnode)
    obtain ⟨-, gone, hgone, hput⟩ := hmoved.resolve_left fun hsame => entrySpot_ne_asideSpot hsame.1
    refine .inr ⟨rfl, mid, t', hwrite, hrename, ?_, hput.leaf_self, ?_⟩
    · exact (hwritten.edits (.inr rfl) (by simp [Entry.target?])).trans
        ((hgone.edits (.inr rfl) (by simp)).trans (hput.edits (.inl rfl) (by simp [Entry.target?])))
    · rw [hput.leaf_of_ne entrySpot_ne_asideSpot.symm]
      exact hgone.leaf_self

/-- The folder of a cache can be made if nothing is in the way. -/
theorem makeFolders_ready {t : Tree} (hway : t.HasWay base root names)
    (hfree : t.wayFault? base root names = none) (now : Instant) :
    ∃ t', t.makeFolders now c.folder = (.ok (), t') ∧ t'.folderAt (root ++ names) = true ∧
      Changes (fun _ => False) (fun _ => False) (OnWay root names) t t' := by
  rw [hat.folder]
  by_cases hne : names = []
  · subst hne
    refine ⟨t, makeFolders_of_folder hway.locate hway.isFolder (hat.ends rfl) now, ?_, .refl ..⟩
    rw [List.append_nil]
    exact hway.isFolder
  · obtain ⟨hmade, hthere⟩ := hway.makeFolders_result hne hat.proper hat.short now
    rw [hfree] at hmade
    exact ⟨_, Prod.ext hmade rfl, hthere hfree, hway.makeFolders_changes hne hat.short now⟩

/-- What is put under a key becomes its entry, if the name is short enough, and what it was written
aside to is gone. Nothing else changes. -/
theorem put_result {s : Surroundings σ} (hway : s.files.HasWay base root names)
    (hfree : s.files.wayFault? base root names = none) (hkey : IsKey key)
    (hentry : ∀ name ∈ [entryName key, stagingName key (Text.hexPadded 32 (s.random s.drawn))],
      s.files.folderAt (root ++ names ++ [name]) = false ∧
        s.files.link? (root ++ names ++ [name]) = none) (bytes : ByteArray) :
    let aside := asideSpot root names key (Text.hexPadded 32 (s.random s.drawn))
    ∃ files drawn, (c.put key bytes s).2 = { s with files := files, drawn := drawn } ∧
      Changes (fun _ => False) (fun place => place = entrySpot root names key ∨ place = aside)
        (OnWay root names) s.files files ∧
      files.leaf? (entrySpot root names key) =
        (if c.fits key then some ⟨.file bytes, s.now⟩
          else s.files.leaf? (entrySpot root names key)) ∧
      files.leaf? aside = if c.fits key then none else s.files.leaf? aside := by
  intro aside
  obtain ⟨⟨hentry, hentryLink⟩, hrest⟩ := List.forall_mem_cons.1 hentry
  obtain ⟨haside, hasideLink⟩ := List.forall_mem_singleton.1 hrest
  obtain ⟨t, hmade, hthere, hgrown⟩ := makeFolders_ready hat hway hfree s.now
  have hway' : t.HasWay base root names := hway.of_spares hgrown.toSpares nofun
  have hsame : ∀ name, t.folderAt (root ++ names ++ [name]) =
      s.files.folderAt (root ++ names ++ [name]) := fun name =>
    (hgrown.folders _ id).resolve_right fun hnew => not_onWay_of_concat hnew.1
  have hlink : t.link? aside = none := (hgrown.link? _ id).trans hasideLink
  rw [put_apply, Act.makeFolders_apply, hmade]
  dsimp only
  rcases replace_entry hat hway' hthere hkey ((hsame _).trans hentry) ((hsame _).trans haside) hlink
    s.now bytes with
    ⟨hfits, hwrite, hremove⟩ | ⟨hfits, mid, t', hwrite, hrename, hedits, hplaced, hgone⟩
  · rw [hwrite]
    dsimp only
    rw [Act.removeFile_apply, hremove, hfits]
    exact ⟨t, s.drawn + 1, rfl, hgrown.mono (fun _ => False.elim) fun _ => id, hgrown.leaf _ id id,
      hgrown.leaf _ id id⟩
  · rw [hwrite]
    dsimp only
    rw [hrename, hfits]
    refine ⟨t', s.drawn + 1, rfl, ?_, hplaced, hgone⟩
    refine (hgrown.mono (fun _ => False.elim) fun _ => id).trans (hedits.changes ?_)
    rintro place (rfl | rfl)
    · exact (hgrown.link? _ id).trans hentryLink
    · exact hlink

/-- If nothing has the name that an entry is written aside under, the entry is all that changes. -/
theorem put_kept {s : Surroundings σ} (hway : s.files.HasWay base root names)
    (hfree : s.files.wayFault? base root names = none) (hkey : IsKey key)
    (hentry : s.files.folderAt (entrySpot root names key) = false)
    (hlink : s.files.link? (entrySpot root names key) = none)
    (haside : s.files.get?
      (asideSpot root names key (Text.hexPadded 32 (s.random s.drawn))) = none) (bytes : ByteArray) :
    ∃ files drawn, (c.put key bytes s).2 = { s with files := files, drawn := drawn } ∧
      Changes (fun _ => False) (· = entrySpot root names key) (OnWay root names) s.files files ∧
      files.leaf? (entrySpot root names key) =
        if c.fits key then some ⟨.file bytes, s.now⟩
        else s.files.leaf? (entrySpot root names key) := by
  obtain ⟨hleaf, hfolder⟩ := get?_eq_none.1 haside
  have hasideLink : s.files.link?
      (asideSpot root names key (Text.hexPadded 32 (s.random s.drawn))) = none := by
    rw [Tree.link?, hleaf, Option.bind_none]
  obtain ⟨files, drawn, heq, hchanges, hkept, hgone⟩ := put_result hat hway hfree hkey
    (List.forall_mem_cons.2
      ⟨⟨hentry, hlink⟩, List.forall_mem_singleton.2 ⟨hfolder, hasideLink⟩⟩) bytes
  refine ⟨files, drawn, heq, { hchanges with leaf := fun place _ hplace => ?_ }, hkept⟩
  by_cases haside : place = asideSpot root names key (Text.hexPadded 32 (s.random s.drawn))
  · rw [haside, hgone, hleaf, ite_self]
  · exact hchanges.leaf place id (not_or.2 ⟨hplace, haside⟩)

/-! ### Asking for an entry -/

omit hat in
/-- What is found is the file behind the path of the entry, if it is fresh. -/
theorem getAt_apply (now : Instant) (s : Surroundings σ) :
    c.getAt key now s = ((s.files.stat (c.file key)).toOption.bind fun node =>
      if c.isFresh now node then node.entry.bytes? else none, s) := by
  rw [getAt, Act.bind_apply, Act.stat, Act.look_apply]
  have hread := read_toOption s.files (c.file key)
  cases hstat : s.files.stat (c.file key) with
  | error e => rfl
  | ok node =>
    rw [hstat] at hread
    dsimp only [Except.toOption, Option.bind_some] at hread ⊢
    split
    · rw [Act.bind_apply, Act.read_apply, Act.pure_apply, ← hread]
    · rfl

theorem getAt_entry {s : Surroundings σ} (hway : s.files.HasWay base root names) (hkey : IsKey key)
    (hlink : s.files.link? (entrySpot root names key) = none) (now : Instant) :
    c.getAt key now s =
      ((if c.folder.overlong (entryName key) then none
        else s.files.get? (entrySpot root names key)).bind fun node =>
          if c.isFresh now node then node.entry.bytes? else none, s) := by
  rw [getAt_apply, hat.folder]
  congr 2
  rw [file, hat.folder]
  exact hway.stat_join hat.proper hat.short hkey.isProper_entryName hlink

/-- The folder of a cache is at its place, if the path leads anywhere. -/
theorem locate_folder_eq {t : Tree} (hway : t.HasWay base root names) {place : Place}
    (hlocate : t.locate true c.folder = .ok place) : place = root ++ names := by
  rw [hat.folder] at hlocate
  by_cases hne : names = []
  · subst hne
    rw [List.append_nil]
    exact Except.ok.inj (hlocate.symm.trans hway.locate)
  · exact hway.locate_eq hne hlocate

/-- If something in the folder of a cache can be opened, so can the folder. -/
theorem locate_folder {t : Tree} (hway : t.HasWay base root names) {name : String}
    (hthere : t.get? (root ++ names ++ [name]) ≠ none) (hname : '/' ∉ name.toList) {place : Place}
    (hlocate : t.locate false (c.folder.join name) = .ok place) :
    t.locate true c.folder = .ok (root ++ names) := by
  obtain ⟨⟨-, -, hlength⟩, -⟩ := locate_eq_ok.1 hlocate
  obtain ⟨after, hafter⟩ := Path.text_join_append (p := c.folder) hname
  rw [hafter, String.utf8ByteSize_append] at hlength
  have hfolder := hway.isRooted.above (List.cons_ne_nil name []) hthere
  rw [hat.folder] at hlength ⊢
  rcases List.eq_nil_or_concat names with rfl | ⟨before, last, rfl⟩
  · rw [List.append_nil]
    exact hway.locate
  · rw [List.concat_eq_append] at *
    have hbefore : t.folderAt (root ++ before) = true :=
      hway.isRooted.above (List.cons_ne_nil last [])
        (get?_ne_none.2 (.inr (by rw [List.append_assoc]; exact hfolder)))
    rw [hway.locate_way hat.proper hat.short, if_neg (by omega), if_pos hbefore]

end Steps

/-! ### Removing entries -/

/-- The name of an entry that can be opened and is not fresh. -/
structure Expired (c : Cache) (t : Tree) (folder : Place) (now : Instant) (name : String) : Prop where
  extension : (c.folder.join name).extension? = some extension
  opens : t.locate false (c.folder.join name) = .ok (folder ++ [name])
  stale : ∃ node, t.leaf? (folder ++ [name]) = some node ∧ c.isFresh now node = false

/-- What has the name of an entry is found under its name and is no link. -/
def Tidy (c : Cache) (t : Tree) (folder : Place) (name : String) : Prop :=
  (c.folder.join name).extension? = some extension →
    Path.IsPlain name ∧ t.link? (folder ++ [name]) = none

theorem evictAll_apply (now : Instant) (name : String) (rest : List String) (s : Surroundings σ) :
    c.evictAll now (name :: rest) s =
      if (c.folder.join name).extension? = some extension ∧
          (s.files.entry (c.folder.join name)).toOption.any (fun node => !c.isFresh now node) then
        match s.files.removeFile s.now (c.folder.join name) with
        | .error _ => c.evictAll now rest s
        | .ok files => ((c.evictAll now rest { s with files := files }).1 + 1,
            (c.evictAll now rest { s with files := files }).2)
      else c.evictAll now rest s := by
  rw [evictAll]
  by_cases hextension : (c.folder.join name).extension? = some extension
  · cases hentry : s.files.entry (c.folder.join name) with
    | error e => simp [hextension, hentry, Act.entry, Except.toOption]
    | ok node =>
      cases hfresh : c.isFresh now node with
      | true => simp [hextension, hentry, hfresh, Act.entry, Except.toOption]
      | false =>
        cases hremoved : s.files.removeFile s.now (c.folder.join name) with
        | error e =>
          simp [hextension, hentry, hfresh, Act.entry, Except.toOption, Act.removeFile_apply, hremoved,
            Act.changed]
        | ok files =>
          simp [hextension, hentry, hfresh, Act.entry, Except.toOption, Act.removeFile_apply, hremoved]
          rfl
  · simp [hextension]

section Evictions

variable {s : Surroundings σ} {folder : Place} {name : String} {listed : List String}
  (now : Instant)

/-- A name is passed over, unless it is that of an entry that is not fresh, which is removed. -/
theorem evictAll_cons (listed : List String) (hroot : s.files.IsRooted) (hfolder : s.files.locate true c.folder = .ok folder)
    (hthere : s.files.folderAt folder = true) (htidy : c.Tidy s.files folder name) :
    (¬c.Expired s.files folder now name ∧
      c.evictAll now (name :: listed) s = c.evictAll now listed s) ∨
    (c.Expired s.files folder now name ∧ ∃ files, Sets s.files files (folder ++ [name]) none ∧
      c.evictAll now (name :: listed) s = ((c.evictAll now listed { s with files := files }).1 + 1,
        (c.evictAll now listed { s with files := files }).2)) := by
  by_cases hexpired : c.Expired s.files folder now name
  · obtain ⟨node, hleaf, hstale⟩ := hexpired.stale
    have hentry : s.files.entry (c.folder.join name) = .ok node := by
      rw [Tree.entry, find_eq_ok.2 ⟨hexpired.opens, (leaf?_eq_some.1 hleaf).1⟩]
      rfl
    obtain ⟨files, hremoved⟩ := removeFile_isOk s.now hexpired.opens (hleaf ▸ Option.some_ne_none _)
    obtain ⟨place, hplace, -, hsets⟩ := removeFile_sets hroot hremoved
    obtain rfl := Except.ok.inj (hexpired.opens.symm.trans hplace)
    refine .inr ⟨hexpired, files, hsets, ?_⟩
    rw [evictAll_apply, hentry, if_pos ⟨hexpired.extension, by simpa [Except.toOption] using hstale⟩,
      hremoved]
  · refine .inl ⟨hexpired, ?_⟩
    rw [evictAll_apply]
    split
    · rename_i hchosen
      obtain ⟨hextension, hstale⟩ := hchosen
      cases hremoved : s.files.removeFile s.now (c.folder.join name) with
      | error e => rfl
      | ok files =>
        obtain ⟨place, hplace, hleaf, -⟩ := removeFile_sets hroot hremoved
        obtain rfl := locate_join hroot (htidy hextension).1 hfolder hthere (.inr rfl) hplace
        obtain ⟨node, hnode⟩ := Option.ne_none_iff_exists'.1 hleaf
        rw [Tree.entry, find_eq_ok.2 ⟨hplace, (leaf?_eq_some.1 hnode).1⟩] at hstale
        exact absurd ⟨hextension, hplace, node, hnode,
          by simpa [Except.toOption, Except.map] using hstale⟩ hexpired
    · rfl

/-- The names are gone through one by one, and those of entries that are not fresh are removed. -/
theorem evictAll_loses (hroot : s.files.IsRooted) (hfolder : s.files.locate true c.folder = .ok folder)
    (hthere : s.files.folderAt folder = true) (htidy : ∀ name ∈ listed, c.Tidy s.files folder name) :
    ∃ gone files, c.evictAll now listed s = (gone.length, { s with files := files }) ∧
      gone.Nodup ∧ s.files.Loses folder gone files ∧
      ∀ name, name ∈ gone ↔ name ∈ listed ∧ c.Expired s.files folder now name := by
  induction listed generalizing s with
  | nil => exact ⟨[], s.files, rfl, .nil, .refl _ _, by simp⟩
  | cons name listed ih =>
    obtain ⟨hname, hlisted⟩ := List.forall_mem_cons.1 htidy
    rcases evictAll_cons now listed hroot hfolder hthere hname with
      ⟨hexpired, heq⟩ | ⟨hexpired, files, hsets, heq⟩
    · obtain ⟨gone, files, hrest, hnodup, hloses, hgone⟩ := ih hroot hfolder hthere hlisted
      refine ⟨gone, files, heq.trans hrest, hnodup, hloses, fun other => ?_⟩
      rw [hgone, List.mem_cons]
      refine and_congr_left fun hother => ⟨.inr, fun hmem => hmem.resolve_left ?_⟩
      rintro rfl
      exact hexpired hother
    · have hlinks := hsets.link?_eq (hname hexpired.extension).2 (by simp)
      have hlocate : ∀ {followLast path place}, files.locate followLast path = .ok place ↔
          s.files.locate followLast path = .ok place :=
        locate_iff hsets.home hsets.folderAt hlinks
      obtain ⟨gone, files', hrest, hnodup, hloses, hgone⟩ := ih (s := { s with files := files })
        (hsets.isRooted hroot) (hlocate.2 hfolder) (hsets.folderAt ▸ hthere)
        fun other hother hextension => by
          rw [hlinks]
          exact hlisted other hother hextension
      have hsame : ∀ other, other ≠ name →
          (c.Expired files folder now other ↔ c.Expired s.files folder now other) := fun other hne => by
        have hleaf : files.leaf? (folder ++ [other]) = s.files.leaf? (folder ++ [other]) :=
          hsets.leaf_of_ne fun heq => hne (by simpa using heq)
        exact ⟨fun h => ⟨h.extension, hlocate.1 h.opens, hleaf ▸ h.stale⟩,
          fun h => ⟨h.extension, hlocate.2 h.opens, hleaf.symm ▸ h.stale⟩⟩
      have hnot : name ∉ gone := fun hmem => by
        obtain ⟨node, hnode, -⟩ := ((hgone name).1 hmem).2.stale
        rw [hsets.leaf_self] at hnode
        cases hnode
      refine ⟨name :: gone, files', ?_, hnodup.cons hnot, .cons hsets hloses hnot, fun other => ?_⟩
      · rw [heq, hrest, List.length_cons]
      · by_cases hother : other = name
        · simp [hother, hexpired]
        · simp [hother, hgone, hsame other hother]

variable {now} in
theorem Expired.there (h : c.Expired s.files folder now name) :
    s.files.get? (folder ++ [name]) ≠ none := by
  obtain ⟨node, hnode, -⟩ := h.stale
  rw [(leaf?_eq_some.1 hnode).1]
  exact Option.some_ne_none _

/-- The entries that are not fresh are removed and counted, and nothing else changes. If the folder cannot
be listed there is nothing to do. -/
theorem evictAt_loses (hroot : s.files.IsRooted)
    (hfolder : ∀ place, s.files.locate true c.folder = .ok place → place = folder)
    (hlist : ∀ name, c.Expired s.files folder now name →
      s.files.locate true c.folder = .ok folder)
    (htidy : ∀ name, s.files.get? (folder ++ [name]) ≠ none → c.Tidy s.files folder name) :
    ∃ gone files, c.evictAt now s = (gone.length, { s with files := files }) ∧ gone.Nodup ∧
      s.files.Loses folder gone files ∧
      ∀ name, name ∈ gone ↔ c.Expired s.files folder now name := by
  rw [evictAt, Act.bind_apply, Act.list, Act.look_apply]
  cases hlisted : s.files.list c.folder with
  | error e =>
    refine ⟨[], s.files, rfl, .nil, .refl _ _, fun name => ⟨nofun, fun hexpired => ?_⟩⟩
    have hthere := hroot.above (List.cons_ne_nil name []) hexpired.there
    rw [list_eq_ok.2 ⟨folder, hlist name hexpired, hthere, rfl⟩] at hlisted
    cases hlisted
  | ok listed =>
    obtain ⟨place, hlocate, hthere, rfl⟩ := list_eq_ok.1 hlisted
    obtain rfl := hfolder place hlocate
    obtain ⟨gone, files, heq, hnodup, hloses, hgone⟩ := evictAll_loses now hroot hlocate hthere
      fun name hname => htidy name (mem_children.1 hname)
    refine ⟨gone, files, heq, hnodup, hloses, fun name => ?_⟩
    rw [hgone, mem_children]
    exact and_iff_right_of_imp Expired.there

/-- In a folder on a way all that counts is what has the name of an entry. -/
theorem evictAt_below (hat : c.IsAt base names) (hway : s.files.HasWay base root names)
    (htidy : ∀ name, s.files.get? (root ++ names ++ [name]) ≠ none →
      c.Tidy s.files (root ++ names) name) :
    ∃ gone files, c.evictAt now s = (gone.length, { s with files := files }) ∧ gone.Nodup ∧
      s.files.Loses (root ++ names) gone files ∧
      ∀ name, name ∈ gone ↔ c.Expired s.files (root ++ names) now name :=
  evictAt_loses now hway.isRooted (fun _ => locate_folder_eq hat hway)
    (fun name h => locate_folder hat hway h.there (htidy name h.there h.extension).1.noSlash h.opens) htidy

end Evictions

end Cache

end ResumePress
