import ResumePress.Proofs.Files.Names

/-!
Ways to folders. Every link on the way to a folder leads to a folder itself. So such a way stays
where it is in a tree that keeps the folders and the links to folders, and in one that loses a folder
whose name is neither on the way nor in a link.
-/

namespace ResumePress.Files

open ResumePress.Path (Step)

namespace Tree

/-- A link to a folder stands at a place. -/
def LinksToFolder (t : Tree) (place : Place) : Prop :=
  ∃ target folder, t.link? place = some target ∧
    t.Leads true 40 (if target.isAbsolute then [] else place.dropLast) target.steps folder ∧
    t.folderAt folder = true

variable {t t' : Tree} {followLast : Bool} {links more : Nat} {place found : Place} {name : String}
  {steps rest : List Step}

namespace Leads

theorem mono (h : t.Leads followLast links place steps found) (hmore : links ≤ more) :
    t.Leads followLast more place steps found := by
  induction h generalizing more with
  | done => exact .done _ _
  | here _ ih => exact .here (ih hmore)
  | up _ ih => exact .up (ih hmore)
  | down hname hfolder _ ih => exact .down hname hfolder (ih hmore)
  | last hname hfolder hlink => exact .last hname hfolder hlink
  | jump hname hlink hrest _ ih =>
    obtain ⟨less, rfl⟩ := Nat.exists_eq_succ_of_ne_zero (Nat.ne_zero_of_lt hmore)
    exact .jump hname hlink hrest (ih (Nat.le_of_succ_le_succ hmore))

/-- The first part of a way to a folder leads to a folder. -/
theorem part (h : t.Leads true links place (steps ++ rest) found) (hroot : t.IsRooted)
    (hplace : t.folderAt place = true) (hfound : t.folderAt found = true) :
    ∃ folder, t.folderAt folder = true ∧ t.Leads true links place steps folder := by
  generalize heq : steps ++ rest = all at h
  induction h generalizing steps with
  | done =>
    obtain ⟨rfl, -⟩ := List.append_eq_nil_iff.1 heq
    exact ⟨_, hplace, .done _ _⟩
  | here _ ih =>
    cases steps with
    | nil => exact ⟨_, hplace, .done _ _⟩
    | cons _ steps =>
      cases heq
      obtain ⟨folder, hfolder, hway⟩ := ih hplace hfound rfl
      exact ⟨folder, hfolder, .here hway⟩
  | up _ ih =>
    cases steps with
    | nil => exact ⟨_, hplace, .done _ _⟩
    | cons _ steps =>
      cases heq
      obtain ⟨folder, hfolder, hway⟩ := ih (hroot.dropLast (get?_ne_none.2 (.inr hplace))) hfound rfl
      exact ⟨folder, hfolder, .up hway⟩
  | down hname hdown _ ih =>
    cases steps with
    | nil => exact ⟨_, hplace, .done _ _⟩
    | cons _ steps =>
      cases heq
      obtain ⟨folder, hfolder, hway⟩ := ih hdown hfound rfl
      exact ⟨folder, hfolder, .down hname hdown hway⟩
  | last _ hnot =>
    rw [hnot] at hfound
    cases hfound
  | @jump _ place _ _ _ target hname hlink _ _ ih =>
    cases steps with
    | nil => exact ⟨_, hplace, .done _ _⟩
    | cons _ steps =>
      cases heq
      have hstart : t.folderAt (if target.isAbsolute then [] else place) = true := by
        split
        · rfl
        · exact hplace
      obtain ⟨folder, hfolder, hway⟩ := ih hstart hfound (List.append_assoc ..)
      exact ⟨folder, hfolder, .jump hname hlink (.inr rfl) hway⟩

/-- A way to a folder does not pass a folder whose name is neither on it nor in a link, and is there
in every tree that has the other folders and the links to folders. -/
theorem kept {above : Place} (h : t.Leads true links place steps found) (hlinks : links ≤ 40)
    (hroot : t.IsRooted) (hplace : t.folderAt place = true) (hfound : t.folderAt found = true)
    (hsteps : .name name ∉ steps)
    (hnames : ∀ place target, t.link? place = some target → .name name ∉ target.steps)
    (hstart : ¬above ++ [name] <+: place)
    (hfolder : ∀ place, ¬above ++ [name] <+: place → t.folderAt place = true →
      t'.folderAt place = true)
    (hlink : ∀ place, ¬above ++ [name] <+: place → t.LinksToFolder place →
      t'.link? place = t.link? place) :
    t'.Leads true links place steps found ∧ ¬above ++ [name] <+: found := by
  have hdown : ∀ {place : Place} {other : String}, ¬above ++ [name] <+: place → name ≠ other →
      ¬above ++ [name] <+: place ++ [other] := by
    intro place other hnot hne hinside
    rcases List.prefix_concat_iff.1 hinside with heq | hinside
    · exact hne (by simpa using (List.append_inj' heq rfl).2)
    · exact hnot hinside
  induction h with
  | done => exact ⟨.done _ _, hstart⟩
  | here _ ih =>
    obtain ⟨hway, hend⟩ := ih hlinks hplace hfound (List.not_mem_of_not_mem_cons hsteps) hstart
    exact ⟨.here hway, hend⟩
  | up _ ih =>
    obtain ⟨hway, hend⟩ := ih hlinks (hroot.dropLast (get?_ne_none.2 (.inr hplace))) hfound
      (List.not_mem_of_not_mem_cons hsteps) fun hinside => hstart (hinside.trans (List.dropLast_prefix _))
    exact ⟨.up hway, hend⟩
  | down hname hthere _ ih =>
    have hnext := hdown hstart fun heq => hsteps (heq ▸ List.mem_cons_self)
    obtain ⟨hway, hend⟩ := ih hlinks hthere hfound (List.not_mem_of_not_mem_cons hsteps) hnext
    exact ⟨.down hname (hfolder _ hnext hthere) hway, hend⟩
  | last _ hnot =>
    rw [hnot] at hfound
    cases hfound
  | @jump _ place _ other rest target hname hjump hrest h ih =>
    have hnext := hdown hstart fun heq => hsteps (heq ▸ List.mem_cons_self)
    have hthere : t.folderAt (if target.isAbsolute then [] else place) = true := by
      split
      · rfl
      · exact hplace
    have hto : t.LinksToFolder (place ++ [other]) := by
      obtain ⟨folder, hisFolder, hway⟩ := h.part hroot hthere hfound
      refine ⟨target, folder, hjump, ?_, hisFolder⟩
      rw [List.dropLast_concat]
      exact hway.mono (by omega)
    have hmem : .name name ∉ target.steps ++ rest := by
      rw [List.mem_append, not_or]
      exact ⟨hnames _ _ hjump, List.not_mem_of_not_mem_cons hsteps⟩
    obtain ⟨hway, hend⟩ := ih (by omega) hthere hfound hmem (by
      split
      · simp
      · exact hstart)
    exact ⟨.jump hname ((hlink _ hnext hto).trans hjump) hrest hway, hend⟩

end Leads

/-- A name in a folder is found where it was in a tree that has lost another folder, if neither the
path of the folder nor a link mentions the name of the lost one. -/
theorem locate_kept {above : Place} {path : Path} {file : String} (hroot : t.IsRooted)
    (hfile : Path.IsPlain file) (h : t.locate false (path.join file) = .ok found)
    (hsteps : .name name ∉ path.steps)
    (hnames : ∀ place target, t.link? place = some target → .name name ∉ target.steps)
    (hhome : t'.home = t.home) (hstart : ¬above ++ [name] <+: t.home)
    (hfolder : ∀ place, ¬above ++ [name] <+: place → t.folderAt place = true →
      t'.folderAt place = true)
    (hlink : ∀ place, ¬above ++ [name] <+: place → t.LinksToFolder place →
      t'.link? place = t.link? place) :
    t'.locate false (path.join file) = .ok found ∧ ¬above ++ [name] <+: found.dropLast := by
  obtain ⟨hwalkable, hway⟩ := locate_eq_ok.1 h
  have hjoin : (path.join file).steps = path.lead.map Path.step ++ [.name file] := by
    simp [Path.steps, Path.segments_join hfile.noSlash, hfile.step]
  rw [hjoin] at hway
  obtain ⟨hshort, folder, hisFolder, hbefore⟩ := hway.unsnoc hroot (hroot.folderAt_start _)
  have hfound : found = folder ++ [file] := by
    have hlast := follow_eq_ok.2 (hbefore.snoc hisFolder hshort (.inr rfl))
    rw [follow_eq_ok.2 hway] at hlast
    exact Except.ok.inj hlast
  have hlead : .name name ∉ path.lead.map Path.step := fun hmem =>
    hsteps (List.map_subset _ path.lead_subset hmem)
  obtain ⟨hkept, hend⟩ := hbefore.kept (Nat.le_refl 40) hroot (hroot.folderAt_start _) hisFolder
    hlead hnames (by
      split
      · simp
      · exact hstart) hfolder hlink
  rw [hfound, List.dropLast_concat]
  refine ⟨locate_eq_ok.2 ⟨hwalkable, ?_⟩, hend⟩
  rw [hhome, hjoin]
  exact hkept.snoc (hfolder _ hend hisFolder) hshort (.inr rfl)

end Tree

end ResumePress.Files
