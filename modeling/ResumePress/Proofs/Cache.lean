import ResumePress.Proofs.CacheKey
import ResumePress.Proofs.Runs

/-!
The entries of the cache. Files that are named like entries are entries, whatever folder they are
in. The cache makes one only when it puts a file in place that it wrote aside, so if what it is
given was made for the key, then all entries are what was made for their keys.
-/

namespace ResumePress

open Files Files.Tree

variable {σ : Type}

theorem Named.unique {name name' : String} {place : Place} (h : Named name place)
    (h' : Named name' place) : name = name' := by
  obtain ⟨folder, rfl⟩ := h
  obtain ⟨folder', heq⟩ := h'
  have hlast := congrArg List.getLast? heq
  rw [List.getLast?_concat, List.getLast?_concat] at hlast
  exact Option.some.inj hlast

/-- A name that the press may give to a file outside of run folders. -/
def IsOwn (name : String) : Prop :=
  ∃ stem, ∃ ending ∈ [".pdf", ".log", ".tmp"], name = stem ++ ending

namespace Cache

/-- The name of the file of an entry. -/
def entryName (key : String) : String := key ++ "." ++ extension

/-- The name under which an entry is written aside. -/
def stagingName (key token : String) : String :=
  key ++ "." ++ extension ++ "." ++ token ++ ".tmp"

theorem isOwn_entryName (key : String) : IsOwn (entryName key) :=
  ⟨key, ".pdf", by simp, String.append_assoc ..⟩

theorem isOwn_stagingName (key token : String) : IsOwn (stagingName key token) :=
  ⟨_, ".tmp", by simp, rfl⟩

theorem entryName_inj {key key' : String} (h : entryName key = entryName key') : key = key' := by
  have hlists := congrArg String.toList h
  simp only [entryName, String.toList_append, List.append_assoc] at hlists
  exact String.toList_inj.1 (List.append_cancel_right hlists)

/-- An entry is told from any other file by the last letter of its name. -/
theorem entryName_ne_append {key stem ending : String} {c : Char}
    (hlast : ending.toList.getLast? = some c) (hc : c ≠ 'f') : entryName key ≠ stem ++ ending := by
  intro h
  have hends := congrArg (fun name : String => name.toList.getLast?) h
  simp only [entryName, String.toList_append, List.getLast?_append, hlast, Option.some_or] at hends
  exact hc (Option.some.inj hends).symm

theorem isPlain_entryName {key : String} (hkey : '/' ∉ key.toList) :
    Path.IsPlain (entryName key) := by
  rw [entryName, String.append_assoc]
  exact .append hkey (by decide) (by decide)

theorem isPlain_stagingName {key token : String} (hkey : '/' ∉ key.toList)
    (htoken : '/' ∉ token.toList) : Path.IsPlain (stagingName key token) := by
  refine .append ?_ (by decide) (by decide)
  simp only [String.toList_append, List.mem_append, not_or]
  exact ⟨⟨⟨⟨hkey, by decide⟩, by decide⟩, by decide⟩, htoken⟩

/-- A tree in which every entry is what was made for its key, and no link has a name of the
press. -/
structure Entries (made : String → ByteArray → Prop) (t : Tree) : Prop where
  isRooted : t.IsRooted
  link : ∀ name, IsOwn name → ∀ place, Named name place → t.link? place = none
  made : ∀ key place bytes modified, Named (entryName key) place →
    t.leaf? place = some ⟨.file bytes, modified⟩ → made key bytes

namespace Entries

variable {made more : String → ByteArray → Prop} {t t' : Tree} {place : Place} {leaf : Option Node}

theorem mono (h : Entries made t) (hmore : ∀ key bytes, made key bytes → more key bytes) :
    Entries more t :=
  { h with made := fun key place bytes modified hplace hleaf =>
      hmore key bytes (h.made key place bytes modified hplace hleaf) }

theorem grown (h : Entries made t) (hgrown : Grown t t') : Entries made t' where
  isRooted := hgrown.isRooted h.isRooted
  link := by
    rw [hgrown.link?]
    exact h.link
  made := by
    rw [hgrown.leaf]
    exact h.made

/-- One file comes, goes or changes. -/
theorem sets (h : Entries made t) (hsets : Sets t t' place leaf)
    (hlink : ∀ node ∈ leaf, node.entry.target? = none)
    (hmade : ∀ key, Named (entryName key) place → ∀ bytes modified,
      leaf = some ⟨.file bytes, modified⟩ → made key bytes) : Entries made t' where
  isRooted := hsets.isRooted h.isRooted
  link name hname other hother := by
    by_cases heq : other = place
    · rw [Tree.link?, heq, hsets.leaf_self]
      cases leaf with
      | none => rfl
      | some node => exact hlink node rfl
    · rw [Tree.link?, hsets.leaf_of_ne heq]
      exact h.link name hname other hother
  made key other bytes modified hother hleaf := by
    by_cases heq : other = place
    · rw [heq, hsets.leaf_self] at hleaf
      exact hmade key (heq ▸ hother) bytes modified hleaf
    · rw [hsets.leaf_of_ne heq] at hleaf
      exact h.made key other bytes modified hother hleaf

theorem removeFile (h : Entries made t) {now : Instant} {path : Path}
    (hremoved : t.removeFile now path = .ok t') : Entries made t' := by
  obtain ⟨place, -, -, hsets⟩ := removeFile_sets h.isRooted hremoved
  exact h.sets hsets (by simp) fun key _ bytes modified heq => by cases heq

/-- What is read as an entry was made for its key. -/
theorem made_of_read (h : Entries made t) {folder : Path} {key : String} {bytes : ByteArray}
    (hname : Path.IsPlain (entryName key))
    (hread : t.read (folder.join (entryName key)) = .ok bytes) : made key bytes := by
  obtain ⟨place, modified, hlocate, hleaf⟩ := read_eq_ok.1 hread
  have hplace := name_of_locate_join hname
    (.inr fun folder => h.link _ (isOwn_entryName key) _ ⟨folder, rfl⟩) hlocate
  exact h.made key place bytes modified hplace hleaf

/-- What is written aside is no entry, and once it is in place the entry has its bytes. -/
theorem replace (h : Entries made t) {now : Instant} {folder : Path} {key token : String}
    {bytes : ByteArray} {t₁ : Tree} (hstaging : Path.IsPlain (stagingName key token))
    (hentry : Path.IsPlain (entryName key)) (hmade : made key bytes)
    (hwrite : t.write now (folder.join (stagingName key token)) bytes = .ok t₁) :
    Entries made t₁ ∧ ∀ t₂, t₁.rename now (folder.join (stagingName key token))
      (folder.join (entryName key)) = .ok t₂ → Entries made t₂ := by
  obtain ⟨place, hlocate, hsets⟩ := write_sets h.isRooted hwrite
  have hlink := fun folder => h.link _ (isOwn_stagingName key token) _ ⟨folder, rfl⟩
  have hnamed := name_of_locate_join hstaging (.inr hlink) hlocate
  have hwritten : Entries made t₁ := by
    refine h.sets hsets (by simp [Entry.target?]) fun other hother => ?_
    exact absurd (hother.unique hnamed) (entryName_ne_append (c := 'p') (by decide) (by decide))
  refine ⟨hwritten, fun t₂ hrename => ?_⟩
  obtain ⟨old, node, new, hold, hnode, hnew, hmoved⟩ := rename_sets hwritten.isRooted hrename
  have hplace : place = old := by
    have hthere := locate_false_of_true hlocate fun other hother => by
      obtain ⟨beside, rfl⟩ := name_of_locate_join hstaging (.inl rfl) hother
      exact hlink beside
    have hlinks := hsets.link?_eq (h.isRooted.link?_of_locate hlocate) (by simp [Entry.target?])
    have hstill := (locate_iff hsets.home hsets.folderAt hlinks).2 hthere
    rw [hold] at hstill
    exact (Except.ok.inj hstill).symm
  obtain rfl : node = ⟨.file bytes, now⟩ := by
    rw [← hplace, hsets.leaf_self] at hnode
    exact (Option.some.inj hnode).symm
  rcases hmoved with ⟨-, rfl⟩ | ⟨-, mid, hgone, hput⟩
  · exact hwritten
  · have hmid := hwritten.sets hgone (by simp) fun key _ bytes modified heq => by cases heq
    refine hmid.sets hput (by simp [Entry.target?]) fun other hother bytes' modified heq => ?_
    have hnewName := name_of_locate_join hentry (.inl rfl) hnew
    cases heq
    rw [entryName_inj (hother.unique hnewName)]
    exact hmade

end Entries

variable {made : String → ByteArray → Prop} {key : String} {bytes : ByteArray}
  {s s' : Surroundings σ}

theorem removed_entries (h : Entries made s.files) (path : Path) :
    Entries made (Act.removeFile path s).2.files := by
  rw [Act.removeFile_apply]
  cases hremoved : s.files.removeFile s.now path with
  | error e => exact h
  | ok files => exact h.removeFile hremoved


theorem get_apply (c : Cache) (key : String) (s : Surroundings σ) :
    c.get key s = c.getAt key s.now s := by
  rw [get, Act.bind_apply]
  rfl

/-- Asking changes nothing. -/
theorem get_same (c : Cache) (key : String) (s : Surroundings σ) : (c.get key s).2 = s := by
  rw [get_apply, getAt, Act.bind_apply, Act.stat, Act.look_apply]
  cases s.files.stat (c.file key) with
  | error e => rfl
  | ok node =>
    dsimp only
    split <;> rfl

/-- What is found was made for the key. -/
theorem get_made (c : Cache) (hname : Path.IsPlain (entryName key)) (h : Entries made s.files)
    (bytes : ByteArray) (hbytes : (c.get key s).1 = some bytes) : made key bytes := by
  rw [get_apply, getAt, Act.bind_apply, Act.stat, Act.look_apply] at hbytes
  cases hstat : s.files.stat (c.file key) with
  | error e => simp [hstat] at hbytes
  | ok node =>
    rw [hstat] at hbytes
    dsimp only at hbytes
    split at hbytes
    · rw [Act.bind_apply, Act.read_apply, Act.pure_apply] at hbytes
      cases hread : s.files.read (c.file key) with
      | error e => simp [hread, Except.toOption] at hbytes
      | ok found =>
        obtain rfl : found = bytes := by simpa [hread, Except.toOption] using hbytes
        exact h.made_of_read hname hread
    · cases hbytes

theorem put_apply (c : Cache) (key : String) (bytes : ByteArray) (s : Surroundings σ) :
    c.put key bytes s =
      match Act.makeFolders c.folder s with
      | (.error _, s) => ((), s)
      | (.ok (), s) =>
        let staging := c.folder.join (stagingName key (Text.hexPadded 32 (s.random s.drawn)))
        let drawn := { s with drawn := s.drawn + 1 }
        match s.files.write s.now staging bytes with
        | .error _ => ((), (Act.removeFile staging drawn).2)
        | .ok files =>
          match files.rename s.now staging (c.folder.join (entryName key)) with
          | .error _ => ((), (Act.removeFile staging { drawn with files := files }).2)
          | .ok files => ((), { drawn with files := files }) := by
  rw [put, Act.bind_apply]
  rcases Act.makeFolders c.folder s with ⟨e | _, s⟩
  · rfl
  · simp only [Act.bind_apply, Act.drawToken, Act.draw, Act.pure_apply, Act.write_apply, file,
      stagingName, entryName]
    generalize c.folder.join (key ++ "." ++ extension ++ "." ++ _ ++ ".tmp") = staging
    generalize c.folder.join (key ++ "." ++ extension) = entry
    cases s.files.write s.now staging bytes with
    | error e => rfl
    | ok files =>
      simp only [Act.changed_ok, Act.bind_apply, Act.rename_apply]
      cases files.rename s.now staging entry <;> rfl

/-- What is put under a key becomes its entry, or is not kept. -/
theorem put_entries (c : Cache) (hkey : '/' ∉ key.toList) (h : Entries made s.files)
    (hmade : made key bytes) : Entries made (c.put key bytes s).2.files := by
  have hgrown := makeFolders_grown h.isRooted s.now c.folder
  have hentry := isPlain_entryName hkey
  rw [put_apply, Act.makeFolders_apply]
  generalize s.files.makeFolders s.now c.folder = ready at hgrown
  obtain ⟨e | _, t⟩ := ready
  · exact h.grown hgrown
  · have ht := h.grown hgrown
    have hstaging := isPlain_stagingName hkey
      (Workspace.not_slash_mem_hexPadded 32 (s.random s.drawn))
    dsimp only at ht ⊢
    cases hwrite : t.write s.now (c.folder.join (stagingName key _)) bytes with
    | error e =>
      dsimp only
      exact removed_entries (s := { s with files := t, drawn := s.drawn + 1 }) ht _
    | ok files =>
      obtain ⟨hwritten, hplaced⟩ := ht.replace hstaging hentry hmade hwrite
      dsimp only
      cases hrename : files.rename s.now (c.folder.join (stagingName key _))
        (c.folder.join (entryName key)) with
      | error e =>
        dsimp only
        exact removed_entries (s := { s with files := files, drawn := s.drawn + 1 }) hwritten _
      | ok files' => exact hplaced files' hrename

end Cache

end ResumePress
