import ResumePress.Proofs.CleanUp
import ResumePress.Proofs.Files.Spots

/-!
Where runs are opened. Whether the folder of a run can be made, and where, is told by what stands in
the way of the folder of runs and by how long the paths are. Which name is drawn for it shows in no
more than the path.
-/

namespace ResumePress

open Files Files.Tree

variable {σ : Type}

/-- The fault without the path it happened at. -/
def Files.Fault.anonymous : Fault → Fault
  | .atPath cause _ => cause.anonymous
  | cause => cause

/-! ### Names that are drawn -/

theorem utf8ByteSize_of_isAlphanum {s : List Char} (h : ∀ c ∈ s, c.isAlphanum = true) :
    (String.ofList s).utf8ByteSize = s.length := by
  induction s with
  | nil => rfl
  | cons c s ih =>
    obtain ⟨hc, hs⟩ := List.forall_mem_cons.1 h
    have hsize : c.utf8Size = 1 := by
      rw [Char.utf8Size_eq_one_iff]
      exact UInt32.le_iff_toNat_le.2 (Nat.le_of_lt_succ (toNat_lt_of_isAlphanum hc))
    rw [String.ofList_cons, String.utf8ByteSize_append, String.utf8ByteSize_singleton, hsize, ih hs,
      List.length_cons, Nat.add_comm]

namespace Path

/-- Below folders with names of the same length the same names are too long. -/
theorem overlong_join_congr {p : Path} {a b : String} (ha : IsPlain a) (hb : IsPlain b)
    (hsize : a.utf8ByteSize = b.utf8ByteSize) : (p.join a).overlong = (p.join b).overlong := by
  funext name
  have hjoin : ∀ c, IsPlain c → (p.join c).join name =
      if isAbsolute ⟨name⟩ then ⟨name⟩ else ⟨(p.join c).text ++ "/" ++ name⟩ := fun c hc => by
    rw [join, if_neg (not_or.2 ⟨(ends_join hc).1, (ends_join hc).2⟩)]
  rw [overlong, overlong, hjoin a ha, hjoin b hb]
  split
  · rfl
  · simp only [String.utf8ByteSize_append, size_join ha.noSlash, size_join hb.noSlash, hsize]

/-- To add a path and then a name is to add the path with the name. -/
theorem join_text_join {p q : Path} {name : String} (hq : q.text ≠ "")
    (hrelative : q.isAbsolute = false) (hname : IsPlain name) :
    p.join (q.join name).text = (p.join q.text).join name := by
  have hboth := isAbsolute_join hname hq
  rw [hrelative] at hboth
  have hends : ∀ before : String, (before ++ q.text = "" ∨
      (before ++ q.text).toList.getLast? = some '/') ↔
        (q.text = "" ∨ q.text.toList.getLast? = some '/') := by
    intro before
    have hne : q.text.toList ≠ [] := by simpa using hq
    have hwhole : before ++ q.text ≠ "" := fun heq => by
      have hlist := congrArg String.toList heq
      rw [String.toList_append] at hlist
      exact hne (List.append_eq_nil_iff.1 hlist).2
    rw [or_iff_right hwhole, or_iff_right hq, String.toList_append,
      List.getLast?_append_of_ne_nil _ hne]
  have hleft : p.join (q.join name).text =
      ⟨(if p.text = "" ∨ p.text.toList.getLast? = some '/' then p.text else p.text ++ "/") ++
        (q.join name).text⟩ := by
    rw [join, hboth, if_neg Bool.false_ne_true]
    split <;> rfl
  have hright : p.join q.text =
      ⟨(if p.text = "" ∨ p.text.toList.getLast? = some '/' then p.text else p.text ++ "/") ++
        q.text⟩ := by
    rw [join, hrelative, if_neg Bool.false_ne_true]
    split <;> rfl
  rw [hleft, hright]
  generalize (if p.text = "" ∨ p.text.toList.getLast? = some '/' then p.text else p.text ++ "/") =
    before
  rw [join, join, not_isAbsolute hname.noSlash, if_neg Bool.false_ne_true, if_neg Bool.false_ne_true]
  simp only [hends]
  by_cases hslash : q.text = "" ∨ q.text.toList.getLast? = some '/'
  · rw [if_pos hslash, if_pos hslash, String.append_assoc]
  · rw [if_neg hslash, if_neg hslash]
    simp only [String.append_assoc]

end Path

/-- The path that starts at the root, for a tree with its home folder. -/
def Files.Tree.absolute (t : Tree) (path : Path) : Path :=
  if path.isAbsolute then path else (Path.mk ("/" ++ "/".intercalate t.home)).join path.text

theorem Act.absolute_apply (path : Path) (s : Surroundings σ) :
    Act.absolute path s = (s.files.absolute path, s) := by
  unfold Act.absolute Files.Tree.absolute
  split <;> rfl

theorem Files.Tree.absolute_join {t : Tree} {base : Path} {name : String} (hbase : base.text ≠ "")
    (hname : Path.IsPlain name) : t.absolute (base.join name) = (t.absolute base).join name := by
  rw [absolute, absolute, Path.isAbsolute_join hname hbase]
  cases hrelative : base.isAbsolute with
  | true => rfl
  | false => exact Path.join_text_join hbase hrelative hname

theorem Files.Tree.absolute_below {t : Tree} {base : Path} {names : List String}
    (hbase : base.text ≠ "") (hplain : ∀ name ∈ names, Path.IsPlain name) :
    t.absolute (base.below names) = (t.absolute base).below names := by
  induction names using List.reverseRecOn with
  | nil => rfl
  | append_singleton names name ih =>
    have hbefore : ∀ name ∈ names, Path.IsPlain name := fun name hname => hplain name (by simp [hname])
    rw [Path.below_snoc, Path.below_snoc, absolute_join (Path.below_ne_empty hbase hbefore)
      (hplain name (by simp)), ih hbefore]

theorem Files.Tree.anonymous_of_wayFault? {t : Tree} {base : Path} {root : Place}
    {names : List String} {e : Fault} (h : t.wayFault? base root names = some e) : e.anonymous = e := by
  unfold wayFault? at h
  split at h
  · cases h
    rfl
  · split at h
    · cases h
      rfl
    · split at h
      · cases h
        rfl
      · cases h

namespace Workspace

theorem size_ending (n : Nat) : (ending n).utf8ByteSize = 6 := by
  have halphanum : ∀ c ∈ (ending n).toList, c.isAlphanum = true := fun _ => isAlphanum_of_mem_ending
  rw [← String.ofList_toList (s := ending n), utf8ByteSize_of_isAlphanum halphanum]
  simp [ending]

/-- The name of the folder of a run for a template. -/
def folderName (t : Template) (n : Nat) : String := namePrefix ++ t.stem ++ "-" ++ ending n

theorem isProper_folderName (t : Template) (n : Nat) : Path.IsProper (folderName t n) := by
  have hplain : Path.IsPlain (folderName t n) := by
    refine .append ?_ (not_slash_mem_ending n) (by simp [ending])
    simp only [String.toList_append, List.mem_append, not_or]
    exact ⟨⟨by decide, t.not_slash_mem_stem⟩, by decide⟩
  refine ⟨hplain, ?_⟩
  simp only [folderName, String.toList_append, List.mem_append, not_or]
  refine ⟨⟨⟨by decide, t.not_mem_stem (by decide) (by decide)⟩, by decide⟩, fun hnul => ?_⟩
  exact absurd (isAlphanum_of_mem_ending hnul) (by decide)

variable {t : Template} {base : Path} {root : Place} {names : List String} {s : Surroundings σ}

theorem overlong_folderName (p : Path) (n : Nat) :
    p.overlong (folderName t n) = p.overlong (folderName t 0) := by
  refine Path.overlong_congr (isProper_folderName t n).noSlash (isProper_folderName t 0).noSlash ?_
  simp only [folderName, String.utf8ByteSize_append, size_ending]

/-- Whether the folder of a run can be made in a folder that is there is told by the lengths of the
paths, unless all names are taken. The induction is on the tries. -/
theorem makeFolder_foreseen (h : s.files.HasWay base root names)
    (hproper : ∀ name ∈ names, Path.IsProper name) (hshort : ∀ name ∈ names, name.utf8ByteSize ≤ 255)
    (hthere : s.files.folderAt (root ++ names) = true) (tries : Nat) :
    match makeFolder ((base.below names).join (namePrefix ++ t.stem ++ "-")) tries s with
    | (.error e, _) => (∃ path, e = .atPath .namesTaken path) ∨
      ((base.below names).overlong (folderName t 0) = true ∧ ∃ path, e = .atPath .nameTooLong path)
    | (.ok path, _) => (base.below names).overlong (folderName t 0) = false ∧
      ∃ n, path = (base.below names).join (folderName t n) := by
  have hpath : ∀ n, Path.mk (((base.below names).join (namePrefix ++ t.stem ++ "-")).text ++ ending n) =
      (base.below names).join (folderName t n) := by
    intro n
    refine Path.mk_text_append ?_ (not_slash_mem_ending n)
    simp only [String.toList_append, List.mem_append, not_or]
    exact ⟨⟨by decide, t.not_slash_mem_stem⟩, by decide⟩
  have hmake : ∀ n, s.files.makeFolder s.now ((base.below names).join (folderName t n)) =
      if (base.below names).overlong (folderName t 0) then .error .nameTooLong
      else
        (s.files.get? (root ++ names ++ [folderName t n])).elim
          (.ok ((s.files.put (root ++ names ++ [folderName t n]) ⟨.folder, s.now⟩).stamp s.now
            (root ++ names ++ [folderName t n])))
          fun _ => .error .alreadyExists := by
    intro n
    unfold Tree.makeFolder
    rw [Path.withoutEndSlashes_join (isProper_folderName t n).toIsPlain,
      h.locate_in hproper hshort hthere (isProper_folderName t n) (.inr rfl), overlong_folderName]
    cases (base.below names).overlong (folderName t 0) with
    | true => rfl
    | false =>
      rw [if_neg Bool.false_ne_true, if_neg Bool.false_ne_true]
      dsimp only
      cases s.files.get? (root ++ names ++ [folderName t n]) <;> rfl
  induction tries generalizing s with
  | zero => exact .inl ⟨_, rfl⟩
  | succ tries ih =>
    rw [makeFolder_succ_apply]
    dsimp only
    rw [hpath, hmake]
    cases hlong : (base.below names).overlong (folderName t 0) with
    | true => exact .inr ⟨rfl, _, rfl⟩
    | false =>
      rw [if_neg Bool.false_ne_true]
      cases s.files.get? (root ++ names ++ [folderName t (s.random s.drawn)]) with
      | none => exact ⟨rfl, _, rfl⟩
      | some _ =>
        have hrest := @ih { s with drawn := s.drawn + 1 } h hthere hmake
        rwa [hlong] at hrest

/-- Why the run of a template cannot be opened: something stands in the way of the folder of runs, or
the paths are too long. -/
def openingFault? (t : Template) (base : Path) (root : Place) (files : Tree) : Option Fault :=
  match files.wayFault? base root Config.tempWay with
  | some e => some e
  | none =>
    if ((files.absolute base).below Config.tempWay).overlong (folderName t 0) then some .nameTooLong
    else none

/-- Whether a run can be opened is foreseen, unless all names are taken, and so is where. -/
theorem create_foreseen (hplace : s.files.IsWorkplace base root)
    (hreached : s.files.locate true (s.files.absolute base) = .ok root)
    (hfound : ∀ path,
      (create (base.below Config.tempWay) t.stem s).1 ≠ .error (.atPath .namesTaken path)) :
    match create (base.below Config.tempWay) t.stem s with
    | (.error e, _) => openingFault? t base root s.files = some e.anonymous
    | (.ok w, opened) => openingFault? t base root s.files = none ∧
      ∃ n, w.folder = ((s.files.absolute base).below Config.tempWay).join (folderName t n) ∧
        w.IsOpen (root ++ Config.tempWay ++ [folderName t n]) opened.files := by
  have hshort : ∀ name ∈ Config.tempWay, name.utf8ByteSize ≤ 255 := by decide
  have hproper : ∀ name ∈ Config.tempWay, Path.IsProper name := by
    intro name hname
    obtain rfl : name = "temp" := by simpa [Config.tempWay] using hname
    exact ⟨⟨by decide, by decide, by decide⟩, by decide⟩
  have hway : s.files.HasWay base root Config.tempWay :=
    hplace.logs.toHasWay.of_prefix (by simp [Config.tempWay, Config.logWay])
  have hruns : s.files.absolute (base.below Config.tempWay) =
      (s.files.absolute base).below Config.tempWay :=
    absolute_below (locate_eq_ok.1 hplace.logs.locate).1.2.1 hway.isPlain
  obtain ⟨hmade, hready⟩ := hway.makeFolders_result (by simp [Config.tempWay]) hproper hshort s.now
  have hgrown := makeFolders_grown hplace.isRooted s.now (base.below Config.tempWay)
  have hcreated := create_cases hplace.isRooted (base.below Config.tempWay) t.stem
  obtain ⟨tries, happly⟩ := create_apply (σ := σ) (base.below Config.tempWay) t.stem
  rw [happly, Act.makeFolders_apply] at hfound hcreated ⊢
  unfold openingFault?
  cases hfault : s.files.wayFault? base root Config.tempWay with
  | some e =>
    rw [hfault] at hmade
    rw [hmade]
    dsimp only
    rw [anonymous_of_wayFault? hfault]
  | none =>
    rw [hfault] at hmade
    have hthere := hready hfault
    rw [hmade] at hfound hcreated ⊢
    dsimp only at hfound hcreated ⊢
    generalize (s.files.makeFolders s.now (base.below Config.tempWay)).2 = files at *
    have habsolute : files.absolute (base.below Config.tempWay) =
        (s.files.absolute base).below Config.tempWay := by
      rw [← hruns, absolute, absolute, hgrown.home]
    have hwayMade : files.HasWay (s.files.absolute base) root Config.tempWay :=
      HasWay.of_grown { hway with locate := hreached } hgrown
    rw [Act.absolute_apply, habsolute] at hfound hcreated ⊢
    have hfolder := makeFolder_foreseen (t := t) (s := { s with files := files }) hwayMade hproper
      hshort hthere tries
    generalize makeFolder (((s.files.absolute base).below Config.tempWay).join
      (namePrefix ++ t.stem ++ "-")) tries { s with files := files } = done at hfolder hfound hcreated ⊢
    obtain ⟨e | path, s'⟩ := done
    · rcases hfolder with ⟨path, rfl⟩ | ⟨hlong, path, rfl⟩
      · exact absurd rfl (hfound path)
      · rw [hlong]
        rfl
    · obtain ⟨hlong, n, rfl⟩ := hfolder
      obtain ⟨folder, hopen, hadds⟩ := hcreated
      have hlocate := hopen.locate
      dsimp only at hlocate hopen
      rw [(hwayMade.of_grown hadds.grown).locate_in hproper hshort (hadds.grown.folderAt _ hthere)
        (isProper_folderName t n) (.inr rfl), overlong_folderName, hlong, if_neg Bool.false_ne_true]
        at hlocate
      rw [hlong]
      exact ⟨rfl, n, rfl, Except.ok.inj hlocate ▸ hopen⟩

end Workspace

end ResumePress
