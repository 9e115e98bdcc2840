import ResumePress.Compile.Workspace
import ResumePress.Proofs.Files.Names
import ResumePress.Proofs.Files.Regions
import ResumePress.Proofs.Surroundings

/-!
The folder of a run is new, and nothing is in it. As long as a run changes nothing outside of it but
files, the path of the folder leads there, and closing the run removes the folder with all it holds.
-/

namespace ResumePress

open Files Files.Tree

namespace Workspace

/-- A tree in which the folder of a run stands and is empty. -/
structure IsOpen (w : Workspace) (folder : Place) (t : Tree) : Prop where
  isRooted : t.IsRooted
  locate : t.locate false w.folder = .ok folder
  isFolder : t.folderAt folder = true
  notRoot : folder ≠ []
  notHome : t.home ≠ folder
  empty : ∀ place, Below folder place → t.get? place = none

variable {σ : Type} {w : Workspace} {folder : Place} {t t' : Tree} {altered : Place → Prop}
  {s s' : Surroundings σ}

namespace IsOpen

theorem not_prefix_home (h : w.IsOpen folder t) : ¬folder <+: t.home := by
  intro hinside
  have hempty := get?_eq_none.1 (h.empty t.home ⟨hinside, h.notHome⟩)
  rw [h.isRooted.home] at hempty
  cases hempty.2

variable (h : w.IsOpen folder t) (hspares : Spares (Below folder) altered t t')
include h hspares

theorem isFolder_of_spares : t'.folderAt folder = true :=
  hspares.folderAt folder (not_below_self folder) h.isFolder

theorem locate_of_spares (followLast : Bool) : t'.locate followLast w.folder = .ok folder := by
  have hlocate := hspares.locate h.empty h.locate (not_below_self folder)
  cases followLast with
  | false => exact hlocate
  | true =>
    exact locate_true_of_false hlocate (link?_of_folderAt (h.isFolder_of_spares hspares))

theorem link?_of_spares {place : Place} (hplace : Below folder place) : t'.link? place = none := by
  refine hspares.link?_eq_none ?_
  rw [Tree.link?, (get?_eq_none.1 (h.empty place hplace)).1]
  rfl

end IsOpen

theorem drops_close (h : w.IsOpen folder t) (hspares : Spares (Below folder) altered t s.files) :
    Drops s.files (w.close s).2.files folder := by
  have hlocate := h.locate_of_spares hspares false
  obtain ⟨files, hremove⟩ := removeFolder_isOk s.now hlocate (h.isFolder_of_spares hspares)
    h.notRoot
  obtain ⟨place, hplace, hdrops⟩ := removeFolder_drops (hspares.isRooted h.isRooted) hremove
  rw [hlocate] at hplace
  cases hplace
  rw [close, Act.bind_apply, Act.removeFolder_apply, hremove]
  exact hdrops

theorem close_cases (w : Workspace) (hroot : s.files.IsRooted) :
    (w.close s).2.files = s.files ∨
      ∃ place, s.files.locate false w.folder = .ok place ∧
        Drops s.files (w.close s).2.files place := by
  rw [close, Act.bind_apply, Act.removeFolder_apply]
  cases hremove : s.files.removeFolder s.now w.folder with
  | error e => exact .inl rfl
  | ok files => exact .inr (removeFolder_drops hroot hremove)

/-! ### Making the folder -/

theorem isAlphanum_of_mem_ending {n : Nat} {c : Char} (h : c ∈ (ending n).toList) :
    c.isAlphanum = true := by
  have halphabet : ('A' :: alphabet).all Char.isAlphanum = true := by decide +kernel
  simp only [ending, String.toList_ofList, List.mem_map] at h
  obtain ⟨d, -, rfl⟩ := h
  refine List.all_eq_true.1 halphabet _ ?_
  rw [List.getD_eq_getElem?_getD]
  cases hget : alphabet[d]? with
  | none => exact List.mem_cons_self
  | some c => exact List.mem_cons_of_mem _ (List.mem_of_getElem? hget)

theorem not_slash_mem_ending (n : Nat) : '/' ∉ (ending n).toList :=
  fun h => absurd (isAlphanum_of_mem_ending h) (by decide)

theorem withoutEndSlashes_ending (stem : String) (n : Nat) :
    (Path.mk (stem ++ ending n)).withoutEndSlashes = ⟨stem ++ ending n⟩ := by
  have hlength : (ending n).toList.length = 6 := by simp [ending]
  obtain ⟨before, c, hlast⟩ := List.eq_nil_or_concat _ |>.resolve_left
    (List.ne_nil_of_length_eq_add_one hlength)
  refine Path.withoutEndSlashes_of_getLast? (c := c) ?_ ?_
  · rw [String.toList_append, hlast, List.concat_eq_append, ← List.append_assoc,
      List.getLast?_concat]
  · rintro rfl
    exact not_slash_mem_ending n (by simp [hlast])

theorem makeFolder_succ_apply (stem : Path) (tries : Nat) :
    makeFolder stem (tries + 1) s =
      let path := Path.mk (stem.text ++ ending (s.random s.drawn))
      let s := { s with drawn := s.drawn + 1 }
      match s.files.makeFolder s.now path with
      | .ok files => (.ok path, { s with files := files })
      | .error .alreadyExists => makeFolder stem tries s
      | .error e => (.error (.atPath e path), s) := by
  rw [makeFolder, Act.bind_apply, Act.draw]
  simp only [Act.bind_apply, Act.makeFolder_apply]
  cases s.files.makeFolder s.now ⟨stem.text ++ ending (s.random s.drawn)⟩ with
  | ok files => rfl
  | error e => cases e <;> rfl

theorem isOpen_of_adds (hroot : t.IsRooted) (hlocate : t.locate false w.folder = .ok folder)
    (hadds : Adds t t' folder) : w.IsOpen folder t' := by
  have hnot : t.folderAt folder = false := (get?_eq_none.1 hadds.free).2
  have hisFolder : t'.folderAt folder = true := by rw [hadds.folderAt, Function.update_self]
  refine ⟨hadds.isRooted hroot, ?_, hisFolder, ne_nil_of_folderAt hnot, ?_, ?_⟩
  · refine locate_congr hlocate (fun _ => True) hadds.home (fun place _ => hadds.grown.folderAt place)
      (fun place _ => ?_) (fun place hplace => absurd trivial hplace) trivial
    rw [hadds.grown.link?]
  · rintro hhome
    rw [← hhome, hadds.home, hroot.home] at hnot
    cases hnot
  · rintro place ⟨⟨rest, rfl⟩, hplace⟩
    have hrest : rest ≠ [] := by simpa using hplace
    have hnone := get?_eq_none.1 (hroot.get?_append hnot hrest)
    refine get?_eq_none.2 ⟨by rw [hadds.leaf, hnone.1], ?_⟩
    rw [hadds.folderAt, Function.update_of_ne hplace, hnone.2]

/-- The folder of a run comes to be where nothing was, or nothing comes to be. -/
theorem makeFolder_cases (hroot : s.files.IsRooted) (stem : Path) (tries : Nat) (token : String) :
    match makeFolder stem tries s with
    | (.error _, s') => s'.files = s.files
    | (.ok path, s') =>
      ∃ folder, (Workspace.mk path token).IsOpen folder s'.files ∧ Adds s.files s'.files folder := by
  induction tries generalizing s with
  | zero => rfl
  | succ tries ih =>
    rw [makeFolder_succ_apply]
    dsimp only
    cases hmade : s.files.makeFolder s.now ⟨stem.text ++ ending (s.random s.drawn)⟩ with
    | ok files =>
      obtain ⟨place, hlocate, hadds⟩ := makeFolder_adds hroot hmade
      rw [withoutEndSlashes_ending] at hlocate
      exact ⟨place, isOpen_of_adds hroot hlocate hadds, hadds⟩
    | error e =>
      cases e with
      | alreadyExists => exact @ih { s with drawn := s.drawn + 1 } hroot
      | _ => rfl

/-- How often a name is tried is left open. -/
theorem create_apply (root : Path) (name : String) : ∃ tries, ∀ s : Surroundings σ,
    create root name s =
      match Act.makeFolders root s with
      | (.error e, s) => (.error e, s)
      | (.ok (), s) =>
        match makeFolder ((Act.absolute root s).1.join (namePrefix ++ name ++ "-")) tries s with
        | (.error e, s) => (.error e, s)
        | (.ok folder, s) =>
          (.ok ⟨folder, Instant.compact s.now ++ "-" ++ Text.hexPadded 32 (s.random s.drawn)⟩,
            { s with drawn := s.drawn + 1 }) := by
  refine ⟨65536, fun s => ?_⟩
  rw [create]
  generalize 65536 = tries
  rw [Act.bind_apply]
  rcases Act.makeFolders root s with ⟨e | _, s⟩
  · rfl
  · have habsolute : (Act.absolute root s).2 = s := by
      unfold Act.absolute
      split <;> rfl
    dsimp only
    rw [Act.bind_apply, habsolute]
    generalize (Act.absolute root s).1 = absolute
    rw [Act.bind_apply]
    rcases makeFolder (absolute.join (namePrefix ++ name ++ "-")) tries s with ⟨e | folder, s⟩
    · rfl
    · rfl

/-- Beside the folders that lead to it only the folder of the run comes to be. -/
theorem create_cases (hroot : s.files.IsRooted) (root : Path) (name : String) :
    match create root name s with
    | (.error _, s') => s'.files = (s.files.makeFolders s.now root).2
    | (.ok w, s') => ∃ folder, w.IsOpen folder s'.files ∧
      Adds (s.files.makeFolders s.now root).2 s'.files folder := by
  have hmade := makeFolders_grown hroot s.now root
  obtain ⟨tries, happly⟩ := create_apply (σ := σ) root name
  rw [happly, Act.makeFolders_apply]
  cases (s.files.makeFolders s.now root).1 with
  | error e => rfl
  | ok =>
    dsimp only
    generalize (Act.absolute root _).1.join _ = stem
    have hfolder := makeFolder_cases (s := { s with files := (s.files.makeFolders s.now root).2 })
      (hmade.isRooted hroot) stem tries
    rcases hdone : makeFolder stem tries { s with files := (s.files.makeFolders s.now root).2 }
      with ⟨e | path, s'⟩ <;> rw [hdone] at hfolder
    · exact hfolder ""
    · exact hfolder _

theorem create_grown (hroot : s.files.IsRooted) (root : Path) (name : String) :
    Grown s.files (create root name s).2.files := by
  have hmade := makeFolders_grown hroot s.now root
  have hcreated := create_cases hroot root name
  generalize create root name s = created at hcreated
  obtain ⟨e | w, s'⟩ := created
  · rwa [hcreated]
  · obtain ⟨folder, -, hadds⟩ := hcreated
    exact hmade.trans hadds.grown

theorem create_opened (hroot : s.files.IsRooted) {root : Path} {name : String}
    (h : create root name s = (.ok w, s')) :
    ∃ folder, w.IsOpen folder s'.files := by
  have hcreated := create_cases hroot root name
  rw [h] at hcreated
  obtain ⟨folder, hopen, -⟩ := hcreated
  exact ⟨folder, hopen⟩

/-! ### Tokens -/

theorem isAlphanum_of_mem_hexPadded {count n : Nat} {c : Char}
    (h : c ∈ (Text.hexPadded count n).toList) : c.isAlphanum = true := by
  simp only [Text.hexPadded, String.toList_ofList, List.mem_map] at h
  obtain ⟨d, -, rfl⟩ := h
  exact Text.isAlphanum_hexDigit d

theorem not_slash_mem_hexPadded (count n : Nat) : '/' ∉ (Text.hexPadded count n).toList :=
  fun h => absurd (isAlphanum_of_mem_hexPadded h) (by decide)

theorem isAlphanum_of_mem_digits {width n : Nat} {c : Char}
    (h : c ∈ (Instant.digits width n).toList) : c.isAlphanum = true := by
  have hdigit : c = '0' ∨ c ∈ Nat.toDigits 10 n := by
    simp only [Instant.digits, String.toList_ofList, List.mem_append] at h
    exact h.imp List.eq_of_mem_replicate id
  rcases hdigit with rfl | hdigit
  · rfl
  · have hisDigit := Nat.isDigit_of_mem_toDigits (by decide) (by decide) hdigit
    simp [Char.isAlphanum, hisDigit]

theorem isAlphanum_of_mem_compact {now : Instant} {c : Char}
    (h : c ∈ (Instant.compact now).toList) : c.isAlphanum = true := by
  simp only [Instant.compact, String.toList_append, List.mem_append] at h
  rcases h with (((((h | h) | h) | h) | h) | h) | h
  case inl.inl.inl.inr =>
    obtain rfl : c = 'T' := by simpa using h
    rfl
  all_goals exact isAlphanum_of_mem_digits h

/-- Tokens have letters, digits and hyphens. -/
theorem create_token_chars {root : Path} {name : String} (h : create root name s = (.ok w, s')) :
    ∀ c ∈ w.token.toList, c.isAlphanum = true ∨ c = '-' := by
  obtain ⟨tries, happly⟩ := create_apply (σ := σ) root name
  rw [happly] at h
  split at h
  · cases h
  · split at h
    · cases h
    · cases h
      intro c hc
      simp only [String.toList_append, List.mem_append] at hc
      rcases hc with (hc | hc) | hc
      · exact .inl (isAlphanum_of_mem_compact hc)
      · exact .inr (by simpa using hc)
      · exact .inl (isAlphanum_of_mem_hexPadded hc)

/-- The token of a run is no more than part of a name. -/
theorem create_token {root : Path} {name : String} (h : create root name s = (.ok w, s')) :
    '/' ∉ w.token.toList :=
  fun hslash => absurd (create_token_chars h _ hslash) (by decide)

end Workspace

end ResumePress
