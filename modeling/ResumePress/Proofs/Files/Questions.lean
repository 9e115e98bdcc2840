import ResumePress.Proofs.Files.Spots

/-!
What a path asks about. A walk looks at one place after the other, and where it ends, or breaks off,
is told by what stands at these. Whatever changes at other places does not matter to it.
-/

namespace ResumePress.Files.Tree

open ResumePress.Path (Step)

/-- The places that are looked at on the way along steps, along at most so many links. -/
inductive Asks (t : Tree) : Nat → Place → List Step → Place → Prop where
  | here {links : Nat} {place asked : Place} {rest : List Step} (h : Asks t links place rest asked) :
      Asks t links place (.here :: rest) asked
  | up {links : Nat} {place asked : Place} {rest : List Step}
      (h : Asks t links place.dropLast rest asked) : Asks t links place (.up :: rest) asked
  | name (links : Nat) (place : Place) (name : String) (rest : List Step) :
      Asks t links place (.name name :: rest) (place ++ [name])
  | down {links : Nat} {place asked : Place} {name : String} {rest : List Step}
      (hfolder : t.folderAt (place ++ [name]) = true)
      (h : Asks t links (place ++ [name]) rest asked) :
      Asks t links place (.name name :: rest) asked
  | jump {links : Nat} {place asked : Place} {name : String} {rest : List Step} {target : Path}
      (hlink : t.link? (place ++ [name]) = some target)
      (h : Asks t links (if target.isAbsolute then [] else place) (target.steps ++ rest) asked) :
      Asks t (links + 1) place (.name name :: rest) asked

/-- The places that are looked at to find what is behind a path. -/
def AsksFor (t : Tree) (path : Path) : Place → Prop :=
  t.Asks 40 (if path.isAbsolute then [] else t.home) path.steps

variable {t t' : Tree} {links : Nat} {place found : Place} {steps : List Step} {path : Path}

/-- Trees agree on a place if the same file, link or folder stands there. -/
def AgreesAt (t t' : Tree) (place : Place) : Prop :=
  t'.leaf? place = t.leaf? place ∧ t'.folderAt place = t.folderAt place

/-- The inductions are on the links that may be followed and, below, on the steps. -/
theorem follow_of_asks (h : ∀ asked, t.Asks links place steps asked → t.AgreesAt t' asked) :
    t'.follow true links place steps = t.follow true links place steps := by
  induction links generalizing place steps with
  | zero =>
    induction steps generalizing place with
    | nil => rfl
    | cons step rest ih =>
      cases step with
      | here => exact ih fun asked hasked => h asked (.here hasked)
      | up => exact ih fun asked hasked => h asked (.up hasked)
      | name name =>
        obtain ⟨hleaf, hfolder⟩ := h _ (.name 0 place name rest)
        rw [follow_name, follow_name, hfolder, hleaf, link?, link?, hleaf]
        split
        · rfl
        · split
          · rename_i hdown
            exact ih fun asked hasked => h asked (.down hdown hasked)
          · rfl
  | succ links ihLinks =>
    induction steps generalizing place with
    | nil => rfl
    | cons step rest ih =>
      cases step with
      | here => exact ih fun asked hasked => h asked (.here hasked)
      | up => exact ih fun asked hasked => h asked (.up hasked)
      | name name =>
        obtain ⟨hleaf, hfolder⟩ := h _ (.name _ place name rest)
        have hlink : t'.link? (place ++ [name]) = t.link? (place ++ [name]) := by
          rw [link?, link?, hleaf]
        rw [follow_name, follow_name, hfolder, hleaf, hlink]
        split
        · rfl
        · split
          · rename_i hdown
            exact ih fun asked hasked => h asked (.down hdown hasked)
          · cases hjump : t.link? (place ++ [name]) with
            | none => rfl
            | some target =>
              simp only [atLink]
              rw [ihLinks fun asked hasked => h asked (.jump hjump hasked)]

/-- A path leads where it led, or nowhere as before, in a tree that agrees on what it asks for. -/
theorem locate_of_asks (hhome : t'.home = t.home)
    (h : ∀ asked, t.AsksFor path asked → t.AgreesAt t' asked) :
    t'.locate true path = t.locate true path := by
  unfold locate
  rw [hhome, follow_of_asks h]

/-- What is found is looked at, if it is no folder. -/
theorem Leads.asks (h : t.Leads true links place steps found) (hroot : t.IsRooted)
    (hplace : t.folderAt place = true) (hfound : t.folderAt found = false) :
    t.Asks links place steps found := by
  induction h with
  | done =>
    rw [hplace] at hfound
    cases hfound
  | here _ ih => exact .here (ih hplace hfound)
  | up _ ih => exact .up (ih (hroot.dropLast (get?_ne_none.2 (.inr hplace))) hfound)
  | down _ hfolder _ ih => exact .down hfolder (ih hfolder hfound)
  | last => exact .name ..
  | jump _ hlink _ _ ih =>
    refine .jump hlink (ih ?_ hfound)
    split
    · rfl
    · exact hplace

theorem get?_of_not_folderAt (h : t.folderAt place = false) : t.get? place = t.leaf? place := by
  cases hthere : t.get? place with
  | none => simp [leaf?, hthere]
  | some node =>
    have hnot : node.entry.isFolder = false := by simpa [folderAt, hthere] using h
    simp [leaf?, hthere, Option.filter, hnot]

/-- What stands behind a path is the same in a tree that agrees on what the path asks for, unless it
is a folder. -/
theorem stat_of_asks (hroot : t.IsRooted) (hhome : t'.home = t.home)
    (h : ∀ asked, t.AsksFor path asked → t.AgreesAt t' asked)
    (hfolder : ∀ place, t.locate true path = .ok place → t.folderAt place = false) :
    (t'.stat path).toOption = (t.stat path).toOption := by
  rw [stat_toOption, stat_toOption, locate_of_asks hhome h]
  cases hlocate : t.locate true path with
  | error e => rfl
  | ok place =>
    have hplace := hfolder place hlocate
    obtain ⟨hleaf, hsame⟩ := h place
      ((locate_eq_ok.1 hlocate).2.asks hroot (hroot.folderAt_start path) hplace)
    simp only [Except.toOption, Option.bind_some]
    rw [get?_of_not_folderAt (hsame.trans hplace), get?_of_not_folderAt hplace, hleaf]

end ResumePress.Files.Tree
