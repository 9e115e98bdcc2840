import ResumePress.Proofs.Files.Leads

/-!
What the operations on a rooted tree do to its views. A file or a link changes at one place at a
time; folders come one by one and go with all they hold.
-/

namespace ResumePress.Files

open Function (update)

namespace Tree

/-- A tree with more folders. -/
structure Grown (t t' : Tree) : Prop where
  leaf : t'.leaf? = t.leaf?
  folderAt : ∀ place, t.folderAt place = true → t'.folderAt place = true
  home : t'.home = t.home
  isRooted : t.IsRooted → t'.IsRooted

/-- A tree with a folder at a place where nothing was. -/
structure Adds (t t' : Tree) (place : Place) : Prop where
  parent : t.folderAt place.dropLast = true
  free : t.get? place = none
  leaf : t'.leaf? = t.leaf?
  folderAt : t'.folderAt = update t.folderAt place true
  home : t'.home = t.home

/-- A tree without what was at a place and below it. -/
structure Drops (t t' : Tree) (place : Place) : Prop where
  notRoot : place ≠ []
  leaf : ∀ other, t'.leaf? other = if place <+: other then none else t.leaf? other
  folderAt : ∀ other, t'.folderAt other = if place <+: other then false else t.folderAt other
  home : t'.home = t.home

variable {t t' t'' : Tree} {place : Place} {now : Instant} {path source target : Path}

namespace Grown

theorem refl (t : Tree) : Grown t t := ⟨rfl, fun _ h => h, rfl, id⟩

theorem trans (h : Grown t t') (h' : Grown t' t'') : Grown t t'' where
  leaf := h'.leaf.trans h.leaf
  folderAt := fun place hfolder => h'.folderAt place (h.folderAt place hfolder)
  home := h'.home.trans h.home
  isRooted := fun hroot => h'.isRooted (h.isRooted hroot)

theorem link? (h : Grown t t') : t'.link? = t.link? := by
  funext place
  simp only [Tree.link?, h.leaf]

end Grown

theorem Adds.isRooted (h : Adds t t' place) (hroot : t.IsRooted) : t'.IsRooted where
  parent parent name hbelow := by
    have hgrows : ∀ other, t.folderAt other = true → t'.folderAt other = true := by
      intro other hother
      rw [h.folderAt, Function.update_apply, hother, ite_self]
    apply hgrows
    by_cases hplace : parent ++ [name] = place
    · have hparent := h.parent
      rw [← hplace, List.dropLast_concat] at hparent
      exact hparent
    · refine hroot.parent parent name (get?_ne_none.2 ?_)
      have hbelow := get?_ne_none.1 hbelow
      rwa [h.leaf, h.folderAt, Function.update_of_ne hplace] at hbelow
  home := by
    rw [h.home, h.folderAt, Function.update_apply, hroot.home, ite_self]

theorem Adds.grown (h : Adds t t' place) : Grown t t' where
  leaf := h.leaf
  folderAt other hother := by
    rw [h.folderAt, Function.update_apply, hother, ite_self]
  home := h.home
  isRooted := h.isRooted

theorem Adds.alike (h : Adds t t' place) (h' : Alike t' t'') : Adds t t'' place :=
  { h with
    leaf := h'.leaf.trans h.leaf
    folderAt := h'.folderAt.trans h.folderAt
    home := h'.home.trans h.home }

theorem Drops.alike (h : Drops t t' place) (h' : Alike t' t'') : Drops t t'' place where
  notRoot := h.notRoot
  leaf := by
    rw [h'.leaf]
    exact h.leaf
  folderAt := by
    rw [h'.folderAt]
    exact h.folderAt
  home := h'.home.trans h.home

theorem Drops.isRooted (h : Drops t t' place) (hroot : t.IsRooted) (hhome : ¬place <+: t.home) :
    t'.IsRooted where
  parent parent name hbelow := by
    have hnot : ¬place <+: parent ++ [name] := by
      intro hinside
      refine hbelow (get?_eq_none.2 ⟨?_, ?_⟩)
      · rw [h.leaf, if_pos hinside]
      · rw [h.folderAt, if_pos hinside]
    have hbelow := get?_ne_none.1 hbelow
    rw [h.leaf, h.folderAt, if_neg hnot, if_neg hnot] at hbelow
    have hparent : ¬place <+: parent := fun hinside => hnot <| hinside.trans <| List.prefix_append _ _
    rw [h.folderAt, if_neg hparent]
    exact hroot.parent parent name (get?_ne_none.2 hbelow)
  home := by
    rw [h.home, h.folderAt, if_neg hhome]
    exact hroot.home

/-! ### Files -/

theorem find_eq_ok {followLast : Bool} {node : Node} :
    t.find followLast path = .ok (place, node) ↔
      t.locate followLast path = .ok place ∧ t.get? place = some node := by
  unfold find
  cases hlocate : t.locate followLast path with
  | error e => exact ⟨nofun, nofun⟩
  | ok found =>
    dsimp only
    constructor
    · intro h
      split at h
      · cases h
        exact ⟨rfl, ‹_›⟩
      · cases h
    · rintro ⟨hfound, hnode⟩
      cases hfound
      rw [hnode]

theorem read_eq_ok {bytes : ByteArray} : t.read path = .ok bytes ↔
    ∃ place modified, t.locate true path = .ok place ∧
      t.leaf? place = some ⟨.file bytes, modified⟩ := by
  unfold read stat
  constructor
  · intro h
    cases hfind : t.find true path with
    | error e => simp [hfind, Except.map] at h
    | ok found =>
      obtain ⟨place, entry, modified⟩ := found
      obtain ⟨hlocate, hget⟩ := find_eq_ok.1 hfind
      simp only [hfind, Except.map] at h
      cases entry with
      | file =>
        cases h
        exact ⟨place, modified, hlocate, leaf?_eq_some.2 ⟨hget, rfl⟩⟩
      | _ => cases h
  · rintro ⟨place, modified, hlocate, hleaf⟩
    rw [find_eq_ok.2 ⟨hlocate, (leaf?_eq_some.1 hleaf).1⟩]
    rfl

theorem openFolder_eq_ok {listed : List String} : t.openFolder path = .ok (place, listed) ↔
    t.locate true path = .ok place ∧ t.folderAt place = true ∧ listed = t.children place := by
  unfold openFolder
  constructor
  · intro h
    split at h
    · cases h
    · rename_i place modified hfind
      obtain ⟨hlocate, hget⟩ := find_eq_ok.1 hfind
      cases h
      exact ⟨hlocate, folderAt_eq_true.2 ⟨_, hget, rfl⟩, rfl⟩
    · cases h
  · rintro ⟨hlocate, hfolder, rfl⟩
    obtain ⟨⟨entry, modified⟩, hget, hisFolder⟩ := folderAt_eq_true.1 hfolder
    rw [find_eq_ok.2 ⟨hlocate, hget⟩]
    cases entry with
    | folder => rfl
    | _ => cases hisFolder

theorem list_eq_ok {listed : List String} : t.list path = .ok listed ↔
    ∃ place, t.locate true path = .ok place ∧ t.folderAt place = true ∧
      listed = t.children place := by
  unfold list
  constructor
  · intro h
    cases hopened : t.openFolder path with
    | error e =>
      rw [hopened] at h
      cases h
    | ok opened =>
      rw [hopened] at h
      cases h
      exact ⟨_, openFolder_eq_ok.1 hopened⟩
  · rintro ⟨place, hlisted⟩
    rw [openFolder_eq_ok.2 hlisted]
    rfl

theorem isFolder_eq_false {node : Node} (h : ∀ modified, node = ⟨.folder, modified⟩ → False) :
    node.entry.isFolder = false := by
  obtain ⟨entry, modified⟩ := node
  cases entry with
  | folder => exact (h modified rfl).elim
  | _ => rfl

theorem write_sets (hroot : t.IsRooted) {bytes : ByteArray}
    (h : t.write now path bytes = .ok t') :
    ∃ place, t.locate true path = .ok place ∧ Sets t t' place (some ⟨.file bytes, now⟩) := by
  unfold write at h
  split at h
  · cases h
  · rename_i place hlocate
    refine ⟨place, hlocate, ?_⟩
    have hparent := hroot.dropLast_of_locate hlocate
    split at h
    · rename_i hget
      have hsets : Sets t (t.put place ⟨.file bytes, now⟩) place _ :=
        sets_put hparent (get?_eq_none.1 hget).2 rfl
      cases h
      refine hsets.alike (alike_stamp now place ?_)
      rw [hsets.folderAt, hparent]
    · cases h
    · rename_i node hnot hget
      cases h
      have hleaf : t.leaf? place = some node :=
        leaf?_eq_some.2 ⟨hget, isFolder_eq_false fun modified heq => hnot modified heq⟩
      exact sets_put hparent (folderAt_of_leaf? hleaf) rfl

/-- A stamp gives what holds a place another time, whatever it is. -/
theorem stamp_eq (t : Tree) (now : Instant) (place : Place) :
    t.stamp now place = t ∨ ∃ node, place.dropLast ≠ [] ∧ t.get? place.dropLast = some node ∧
      t.stamp now place = t.put place.dropLast { node with modified := now } := by
  unfold stamp
  cases hparent : place.dropLast with
  | nil => exact .inl rfl
  | cons name rest =>
    cases hget : t.get? (name :: rest) with
    | none => exact .inl (by simp [hget])
    | some node => exact .inr ⟨node, List.cons_ne_nil _ _, rfl, by simp [hget]⟩

theorem home_stamp (t : Tree) (now : Instant) (place : Place) :
    (t.stamp now place).home = t.home := by
  rcases stamp_eq t now place with h | ⟨node, -, -, h⟩ <;> rw [h]
  rfl

theorem folderAt_stamp (t : Tree) (now : Instant) (place : Place) :
    (t.stamp now place).folderAt = t.folderAt := by
  rcases stamp_eq t now place with h | ⟨node, hparent, hget, h⟩ <;> rw [h]
  rw [folderAt_put hparent]
  exact Function.update_eq_self_iff.2 (by simp [folderAt, hget])

theorem link?_stamp (t : Tree) (now : Instant) (place : Place) :
    (t.stamp now place).link? = t.link? := by
  rcases stamp_eq t now place with h | ⟨⟨entry, modified⟩, hparent, hget, h⟩ <;> rw [h]
  funext other
  by_cases hother : other = place.dropLast
  · subst hother
    cases entry <;> simp [link?, leaf?, get?_put_self _ hparent, hget, Option.filter,
      Entry.isFolder, Entry.target?]
  · simp [link?, leaf?, get?_put_of_ne _ hother]

theorem leaf?_stamp (t : Tree) (now : Instant) {place : Place} (hplace : place ≠ []) :
    (t.stamp now place).leaf? place = t.leaf? place := by
  have hne : place ≠ place.dropLast := fun heq => by
    have hlength := congrArg List.length heq
    have := List.length_pos_iff.2 hplace
    rw [List.length_dropLast] at hlength
    omega
  rcases stamp_eq t now place with h | ⟨node, -, -, h⟩ <;> rw [h]
  simp [leaf?, get?_put_of_ne _ hne]

theorem leaf?_stamp_eq_none (t : Tree) (now : Instant) (place other : Place) :
    (t.stamp now place).leaf? other = none ↔ t.leaf? other = none := by
  rcases stamp_eq t now place with h | ⟨node, hparent, hget, h⟩ <;> rw [h]
  by_cases hother : other = place.dropLast
  · subst hother
    cases hfolder : node.entry.isFolder <;>
      simp [leaf?, get?_put_self _ hparent, hget, Option.filter, hfolder]
  · simp [leaf?, get?_put_of_ne _ hother]

/-- What is put where a path leads can be read: the way to it does not pass it. -/
theorem read_of_put {bytes : ByteArray} (hlocate : t.locate true path = .ok place)
    (hplace : t.folderAt place = false) (hhome : t'.home = t.home)
    (hfolder : t'.folderAt = (t.put place ⟨.file bytes, now⟩).folderAt)
    (hlink : t'.link? = (t.put place ⟨.file bytes, now⟩).link?)
    (hleaf : t'.leaf? place = some ⟨.file bytes, now⟩) : t'.read path = .ok bytes := by
  have hne := ne_nil_of_folderAt hplace
  refine read_eq_ok.2 ⟨place, now, locate_of_ends hlocate hplace hhome ?_ ?_ ?_, hleaf⟩
  · rw [hfolder, folderAt_put hne]
    exact Function.update_eq_self_iff.2 hplace.symm
  · intro other hother
    rw [hlink, link?, link?, leaf?_put hne, Function.update_of_ne hother]
  · rw [link?, hleaf]
    rfl

theorem read_write {bytes : ByteArray} (h : t.write now path bytes = .ok t') :
    t'.read path = .ok bytes := by
  unfold write at h
  split at h
  · cases h
  · rename_i place hlocate
    split at h
    · rename_i hget
      have hplace := (get?_eq_none.1 hget).2
      have hne := ne_nil_of_folderAt hplace
      cases h
      refine read_of_put hlocate hplace (home_stamp ..) (folderAt_stamp ..) (link?_stamp ..) ?_
      rw [leaf?_stamp _ _ hne, leaf?_put hne, Function.update_self]
      rfl
    · cases h
    · rename_i node hnot hget
      have hplace : t.folderAt place = false := by
        simpa [folderAt, hget] using isFolder_eq_false fun modified heq => hnot modified heq
      cases h
      exact read_of_put hlocate hplace rfl rfl rfl
        (by simp [leaf?_put (ne_nil_of_folderAt hplace), Entry.isFolder])

theorem copy_eq_ok {target : Path} (h : t.copy now source target = .ok t') :
    ∃ bytes, t.read source = .ok bytes ∧ t.write now target bytes = .ok t' := by
  unfold copy at h
  split at h
  · cases h
  · rename_i bytes modified hstat
    refine ⟨bytes, ?_, h⟩
    simp only [read, hstat]
  · cases h

theorem removeFile_sets (hroot : t.IsRooted) (h : t.removeFile now path = .ok t') :
    ∃ place, t.locate false path = .ok place ∧ t.leaf? place ≠ none ∧ Sets t t' place none := by
  unfold removeFile at h
  split at h
  · cases h
  · cases h
  · rename_i place node hnot hfind
    obtain ⟨hlocate, hget⟩ := find_eq_ok.1 hfind
    cases h
    have hisLeaf := isFolder_eq_false fun modified heq => hnot modified heq
    have hleaf : t.leaf? place ≠ none :=
      Option.ne_none_iff_exists'.2 ⟨node, leaf?_eq_some.2 ⟨hget, hisLeaf⟩⟩
    have hsets := sets_erase hroot hleaf
    refine ⟨place, hlocate, hleaf, hsets.alike (alike_stamp now place ?_)⟩
    rw [hsets.folderAt]
    exact hsets.parent

/-- A file or a link that a path leads to can be removed. -/
theorem removeFile_isOk (now : Instant) (hlocate : t.locate false path = .ok place)
    (hleaf : t.leaf? place ≠ none) : ∃ t', t.removeFile now path = .ok t' := by
  obtain ⟨⟨entry, modified⟩, hnode⟩ := Option.ne_none_iff_exists'.1 hleaf
  obtain ⟨hget, hfolder⟩ := leaf?_eq_some.1 hnode
  have hfind := find_eq_ok.2 ⟨hlocate, hget⟩
  cases entry with
  | folder => cases hfolder
  | _ =>
    unfold removeFile
    rw [hfind]
    exact ⟨_, rfl⟩

/-- A path that can be read leads, itself or by a link that stands there, to something. -/
theorem exists_locate_of_read {bytes : ByteArray} (h : t.read path = .ok bytes) :
    ∃ place, t.locate false path = .ok place ∧ t.leaf? place ≠ none := by
  obtain ⟨place, modified, hlocate, hleaf⟩ := read_eq_ok.1 h
  obtain ⟨hwalkable, hway⟩ := locate_eq_ok.1 hlocate
  rcases hway.spare with hway | ⟨link, hway, hlink⟩
  · exact ⟨place, locate_eq_ok.2 ⟨hwalkable, hway⟩, by simp [hleaf]⟩
  · refine ⟨link, locate_eq_ok.2 ⟨hwalkable, hway⟩, fun hnone => hlink ?_⟩
    rw [link?, hnone]
    rfl

/-- What cannot be removed cannot be read. -/
theorem not_read_of_removeFile_error {e : Fault} (h : t.removeFile now path = .error e)
    (bytes : ByteArray) : t.read path ≠ .ok bytes := by
  intro hread
  obtain ⟨place, hlocate, hleaf⟩ := exists_locate_of_read hread
  obtain ⟨t', hok⟩ := removeFile_isOk now hlocate hleaf
  rw [h] at hok
  cases hok

/-- What was removed cannot be read: no new way leads anywhere. -/
theorem not_read_of_removeFile (h : t.removeFile now path = .ok t') (bytes : ByteArray) :
    t'.read path ≠ .ok bytes := by
  intro hread
  obtain ⟨found, hfound, hleaf⟩ := exists_locate_of_read hread
  obtain ⟨hwalkable, hway⟩ := locate_eq_ok.1 hfound
  unfold removeFile at h
  split at h
  · cases h
  · cases h
  · rename_i place node hnot hfind
    obtain ⟨hlocate, hget⟩ := find_eq_ok.1 hfind
    have hplace : place ≠ [] := by
      refine ne_nil_of_folderAt (t := t) ?_
      simpa [folderAt, hget] using isFolder_eq_false fun modified heq => hnot modified heq
    cases h
    rw [Ne, leaf?_stamp_eq_none, leaf?_erase hplace] at hleaf
    have hother : ¬place <+: found := fun hinside => hleaf (if_pos hinside)
    rw [home_stamp] at hway
    have hsame : t.locate false path = .ok found := by
      refine locate_eq_ok.2 ⟨hwalkable, hway.of_links ?_ ?_ ?_⟩
      · intro other hfolder
        rw [folderAt_stamp, folderAt_erase hplace] at hfolder
        split at hfolder
        · cases hfolder
        · exact hfolder
      · rw [folderAt_stamp, folderAt_erase hplace, if_neg hother]
      · intro other target hlink
        rw [link?_stamp, link?, leaf?_erase hplace] at hlink
        split at hlink
        · cases hlink
        · exact hlink
    rw [hlocate] at hsame
    cases hsame
    exact hother (List.prefix_refl _)

theorem rename_sets (hroot : t.IsRooted) (h : t.rename now source target = .ok t') :
    ∃ old node new, t.locate false source = .ok old ∧ t.leaf? old = some node ∧
      t.locate false target = .ok new ∧
      ((new = old ∧ t' = t) ∨
        (new ≠ old ∧ ∃ mid, Sets t mid old none ∧ Sets mid t' new (some node))) := by
  unfold rename at h
  split at h
  · cases h
  · cases h
  · rename_i old node hnot hfind
    obtain ⟨hlocate, hget⟩ := find_eq_ok.1 hfind
    have hisLeaf := isFolder_eq_false fun modified heq => hnot modified heq
    have hleaf : t.leaf? old = some node := leaf?_eq_some.2 ⟨hget, hisLeaf⟩
    split at h
    · cases h
    · rename_i new hnew
      refine ⟨old, node, new, hlocate, hleaf, hnew, ?_⟩
      split at h
      · cases h
        exact .inl ⟨‹_›, rfl⟩
      · rename_i hne
        have herased := sets_erase hroot (Option.ne_none_iff_exists'.2 ⟨node, hleaf⟩)
        have hnotFolder : t.folderAt new = false := by
          split at h
          · cases h
          · rename_i hnotFolder
            cases hfolder : t.folderAt new with
            | false => rfl
            | true =>
              obtain ⟨⟨entry, modified⟩, hthere, hisFolder⟩ := folderAt_eq_true.1 hfolder
              cases entry with
              | folder => exact absurd hthere (hnotFolder modified)
              | _ => cases hisFolder
        split at h
        · cases h
        · cases h
          have hput : Sets (t.erase old) ((t.erase old).put new node) new (some node) := by
            refine sets_put ?_ ?_ hisLeaf
            · rw [herased.folderAt]
              exact hroot.dropLast_of_locate hnew
            · rw [herased.folderAt, hnotFolder]
          have hfirst : Alike ((t.erase old).put new node) _ := alike_stamp now old (by
            rw [hput.folderAt, herased.folderAt]
            exact herased.parent)
          have hsecond : Alike (((t.erase old).put new node).stamp now old) _ :=
            alike_stamp now new (by
              rw [hfirst.folderAt, hput.folderAt]
              exact hput.parent)
          exact .inr ⟨hne, _, herased, (hput.alike hfirst).alike hsecond⟩

/-! ### Folders -/

theorem makeFolder_adds (hroot : t.IsRooted) (h : t.makeFolder now path = .ok t') :
    ∃ place, t.locate false path.withoutEndSlashes = .ok place ∧ Adds t t' place := by
  unfold makeFolder at h
  split at h
  · cases h
  · rename_i place hlocate
    split at h
    · rename_i hget
      cases h
      have hne : place ≠ [] := ne_nil_of_folderAt (get?_eq_none.1 hget).2
      have hparent := hroot.dropLast_of_locate hlocate
      have hadds : Adds t (t.put place ⟨.folder, now⟩) place := by
        refine ⟨hparent, hget, ?_, folderAt_put hne _, rfl⟩
        rw [leaf?_put hne, if_pos (show Entry.folder.isFolder = true from rfl),
          ← (get?_eq_none.1 hget).1, Function.update_eq_self]
      refine ⟨place, hlocate, hadds.alike (alike_stamp now place ?_)⟩
      rw [hadds.folderAt, Function.update_apply, hparent, ite_self]
    · cases h

theorem makeFoldersFrom_grown (hroot : t.IsRooted) (depth : Nat) :
    Grown t (makeFoldersFrom now depth t path).2 := by
  induction depth generalizing path with
  | zero => exact .refl t
  | succ depth ih =>
    unfold makeFoldersFrom
    split
    · exact .refl t
    · split
      · rename_i hmade
        obtain ⟨place, -, hadds⟩ := makeFolder_adds hroot hmade
        exact hadds.grown
      · split
        · exact .refl t
        · rename_i parent hparent
          have hgrown := @ih parent
          split
          · rename_i hmade
            rwa [hmade] at hgrown
          · rename_i hmade
            rw [hmade] at hgrown
            split
            · rename_i hlast
              obtain ⟨place, -, hadds⟩ := makeFolder_adds (hgrown.isRooted hroot) hlast
              exact hgrown.trans hadds.grown
            · exact hgrown
      · exact .refl t

theorem makeFolders_grown (hroot : t.IsRooted) (now : Instant) (path : Path) :
    Grown t (t.makeFolders now path).2 :=
  makeFoldersFrom_grown hroot _

theorem removeFolder_drops (hroot : t.IsRooted) (h : t.removeFolder now path = .ok t') :
    ∃ place, t.locate false path = .ok place ∧ Drops t t' place := by
  unfold removeFolder at h
  split at h
  · cases h
  · cases h
  · cases h
  · rename_i place node hnot hplace hfind
    obtain ⟨hlocate, hget⟩ := find_eq_ok.1 hfind
    cases h
    have hdrops : Drops t (t.erase place) place :=
      ⟨hplace, leaf?_erase hplace, folderAt_erase hplace, rfl⟩
    refine ⟨place, hlocate, hdrops.alike (alike_stamp now place ?_)⟩
    have hshort : ¬place <+: place.dropLast := by
      intro hprefix
      have hlength := hprefix.length_le
      have := List.length_pos_iff.2 hplace
      rw [List.length_dropLast] at hlength
      omega
    rw [hdrops.folderAt, if_neg hshort]
    exact hroot.dropLast (by simp [hget])

/-- A folder that a path leads to can be removed, unless it is the root. -/
theorem removeFolder_isOk (now : Instant) (hlocate : t.locate false path = .ok place)
    (hfolder : t.folderAt place = true) (hplace : place ≠ []) :
    ∃ t', t.removeFolder now path = .ok t' := by
  obtain ⟨⟨entry, modified⟩, hget, hisFolder⟩ := folderAt_eq_true.1 hfolder
  have hfind := find_eq_ok.2 ⟨hlocate, hget⟩
  cases entry with
  | folder =>
    cases place with
    | nil => exact absurd rfl hplace
    | cons name rest =>
      unfold removeFolder
      rw [hfind]
      exact ⟨_, rfl⟩
  | _ => cases hisFolder

end Tree

end ResumePress.Files
