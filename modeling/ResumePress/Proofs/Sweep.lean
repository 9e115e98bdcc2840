import ResumePress.Proofs.Sweep.Age

/-!
What a sweep removes. Folders of runs and logs go exactly if they are old, and nothing else changes but
the times of the two folders that they were in; so an earlier sweep makes no difference to a later
one. All this holds if nothing fails and what goes is not on the way to the root of runs or to the
logs: a sweep that cannot open the logs leaves them and does not say so.
-/

namespace ResumePress.Sweep

open Files Files.Tree

variable {σ : Type} {t t' v : Tree} {s s' s₁ sMid : Surroundings σ} {root : Path} {place : Place}
  {retention : Duration} {now earlier : Instant} {times : List Instant}
  {gone left logs spared names : List String} {report runs : SweepReport}

/-- A root of runs: its path leads to a folder in which the logs are no link. -/
structure IsRoot (t : Tree) (root : Path) (place : Place) : Prop where
  isRooted : t.IsRooted
  /-- The tree has only names that files can have. -/
  isPlain : ∀ folder name, t.get? (folder ++ [name]) ≠ none → Path.IsPlain name
  locate : t.locate true root = .ok place
  isFolder : t.folderAt place = true
  logs : t.link? (place ++ [logFolder]) = none

/-- The paths of the root of runs and of its logs, if it has any, lead there. -/
structure Reaches (t : Tree) (root : Path) (place : Place) : Prop where
  runs : t.locate true root = .ok place
  logs : t.folderAt (place ++ [logFolder]) = true →
    t.locate true (root.join logFolder) = .ok (place ++ [logFolder])

theorem isPlain_logFolder : Path.IsPlain logFolder :=
  ⟨by decide, by decide, by decide⟩

/-! ### The whole sweep -/

theorem runAt_eq {runs : SweepReport} {mid : Surroundings σ} (retention : Duration) (now : Instant)
    (hopened : s.files.openFolder root = .ok (place, names))
    (hruns : removeChosen root place id (fun node => node.entry.isFolder && isStale retention now node)
      (fun path => Act.change fun t now => t.removeFolder now path)
      (names.filter (·.startsWith Workspace.namePrefix)) ⟨[], []⟩ s = (runs, mid)) :
    runAt root retention now s =
      match mid.files.openFolder (root.join logFolder) with
      | .error _ => (.ok runs, mid)
      | .ok (folder, names) =>
        let outcome := removeChosen (root.join logFolder) folder (fun name => logFolder ++ "/" ++ name)
          (fun node => node.entry.isFile && isStale retention now node)
          (fun path => Act.change fun t now => t.removeFile now path) names runs mid
        (.ok outcome.1, outcome.2) := by
  have hthere : (s.files.stat root).isOk = true := by
    obtain ⟨hlocate, hfolder, -⟩ := openFolder_eq_ok.1 hopened
    obtain ⟨node, hget, -⟩ := folderAt_eq_true.1 hfolder
    rw [stat, find_eq_ok.2 ⟨hlocate, hget⟩]
    rfl
  have hremove : (Act.removeFolder : Path → Act σ (Except Fault Unit)) =
      fun path => Act.change fun t now => t.removeFolder now path := rfl
  rw [runAt, Act.bind_apply, Act.isThere_apply, hthere]
  simp only [Bool.not_true, Bool.false_eq_true, if_false]
  rw [Act.bind_apply, Act.openFolder, Act.look_apply, hopened]
  simp only [Act.bind_apply]
  rw [hremove, hruns, Act.openFolder, Act.look_apply]
  dsimp only
  cases mid.files.openFolder (root.join logFolder) <;> rfl

/-- What the part of a sweep did that goes through the root of runs. -/
def ClearsRuns (root : Path) (place : Place) (retention : Duration) (now : Instant)
    (s : Surroundings σ) (report : SweepReport) (s' : Surroundings σ) (gone left : List String) : Prop :=
  Clears (fun t now path => t.removeFolder now path) root place id
    (fun node => node.entry.isFolder && isStale retention now node)
    ((s.files.children place).filter (·.startsWith Workspace.namePrefix)) ⟨[], []⟩ s report s' gone left

/-- What the part of a sweep did that goes through the folder of logs. -/
def ClearsLogs (root : Path) (place : Place) (retention : Duration) (now : Instant)
    (report : SweepReport) (s : Surroundings σ) (report' : SweepReport) (s' : Surroundings σ)
    (gone left : List String) : Prop :=
  Clears (fun t now path => t.removeFile now path) (root.join logFolder) (place ++ [logFolder])
    (fun name => logFolder ++ "/" ++ name) (fun node => node.entry.isFile && isStale retention now node)
    (s.files.children (place ++ [logFolder])) report s report' s' gone left

/-- A sweep goes through the root of runs and then, if they can be opened, through the logs. -/
theorem runAt_clears (h : IsRoot t root place) (retention : Duration) (now : Instant)
    (hpart : s.files.IsPartOf t) (hlocate : s.files.locate true root = .ok place)
    (hfolder : s.files.folderAt place = true) :
    ∃ runs mid gone left, ClearsRuns root place retention now s runs mid gone left ∧
      ((∀ opened, mid.files.openFolder (root.join logFolder) ≠ .ok opened) ∧
          runAt root retention now s = (.ok runs, mid) ∨
        ∃ report s' logs spared, mid.files.folderAt (place ++ [logFolder]) = true ∧
          ClearsLogs root place retention now runs mid report s' logs spared ∧
          runAt root retention now s = (.ok report, s')) := by
  have hopened := openFolder_eq_ok.2 ⟨hlocate, hfolder, rfl⟩
  have hplain : ∀ name ∈ (s.files.children place).filter (·.startsWith Workspace.namePrefix),
      Path.IsPlain name := fun name hname =>
    h.isPlain place name (hpart.get?_ne_none (mem_children.1 (List.mem_filter.1 hname).1))
  obtain ⟨runs, mid, gone, left, hruns, hclears⟩ := removeChosen_clears id
    (fun node => node.entry.isFolder && isStale retention now node) ⟨[], []⟩ removes_removeFolder
    h.isRooted h.locate h.isFolder hplain hpart hfolder
  refine ⟨runs, mid, gone, left, hclears, ?_⟩
  rw [runAt_eq retention now hopened hruns]
  cases hlogs : mid.files.openFolder (root.join logFolder) with
  | error e => exact .inl ⟨nofun, rfl⟩
  | ok opened =>
    obtain ⟨inner, listed⟩ := opened
    obtain ⟨hinner, hisFolder, rfl⟩ := openFolder_eq_ok.1 hlogs
    have hmid := hclears.sheds.isPartOf.trans hpart
    have hsomething := get?_ne_none.2 (.inr hisFolder)
    obtain rfl := hmid.locate_join h.isRooted isPlain_logFolder h.locate h.isFolder (.inl h.logs) hinner
      hsomething
    obtain ⟨report, s', logs, spared, heq, hclears'⟩ := removeChosen_clears
      (fun name => logFolder ++ "/" ++ name)
      (fun node => node.entry.isFile && isStale retention now node) runs removes_removeFile h.isRooted
      (hmid.locate hinner hsomething) (hmid.folderAt hisFolder)
      (fun name hname => h.isPlain _ name (hmid.get?_ne_none (mem_children.1 hname))) hmid hisFolder
    refine .inr ⟨report, s', logs, spared, hisFolder, hclears', ?_⟩
    dsimp only
    rw [heq]

/-- A sweep of a root of runs always reports. -/
theorem runAt_isAnswered (h : IsRoot s.files root place) (retention : Duration) (now : Instant) :
    ∃ report, (runAt root retention now s).1 = .ok report := by
  obtain ⟨runs, mid, gone, left, -, hrest⟩ :=
    runAt_clears h retention now (.refl _) h.locate h.isFolder
  rcases hrest with ⟨-, heq⟩ | ⟨report, s', logs, spared, -, -, heq⟩
  · exact ⟨runs, by rw [heq]⟩
  · exact ⟨report, by rw [heq]⟩

theorem ClearsRuns.mem_iff (h : ClearsRuns root place retention now s runs s' gone left)
    (name : String) : name ∈ gone ∨ name ∈ left ↔ IsStaleRun s.files place retention now name := by
  rw [h.mem, List.mem_filter, mem_children]
  constructor
  · exact fun ⟨⟨_, hnamed⟩, hchosen⟩ => ⟨hnamed, hchosen⟩
  · exact fun ⟨hnamed, hchosen⟩ => ⟨⟨hchosen.get?_ne_none, hnamed⟩, hchosen⟩

theorem ClearsLogs.mem_iff (h : ClearsLogs root place retention now runs s report s' logs spared)
    (name : String) : name ∈ logs ∨ name ∈ spared ↔ IsStaleLog s.files place retention now name := by
  rw [h.mem, mem_children]
  exact ⟨And.right, fun hchosen => ⟨IsChosen.get?_ne_none hchosen, hchosen⟩⟩

/-- The logs are as old after the runs are gone. -/
theorem ClearsRuns.isStaleLog_iff (h : ClearsRuns root place retention now s runs s' gone left)
    (name : String) :
    IsStaleLog s'.files place retention now name ↔ IsStaleLog s.files place retention now name := by
  have hget := get?_logs h.sheds (fun name hname => ((h.mem_iff name).1 (.inl hname)).1) [name]
  rw [IsStaleLog, IsStaleLog, IsChosen, IsChosen, List.append_assoc, List.singleton_append, hget]

theorem ClearsRuns.folderAt_logs (h : ClearsRuns root place retention now s runs s' gone left) :
    s'.files.folderAt (place ++ [logFolder]) = s.files.folderAt (place ++ [logFolder]) := by
  have hget := get?_logs h.sheds (fun name hname => ((h.mem_iff name).1 (.inl hname)).1) []
  rw [Tree.folderAt, Tree.folderAt, hget]

/-- What a sweep is to report as removed. -/
def IsListed (t : Tree) (place : Place) (retention : Duration) (now : Instant) (shown : String) : Prop :=
  IsStaleRun t place retention now shown ∨
    ∃ name, IsStaleLog t place retention now name ∧ shown = logFolder ++ "/" ++ name

/-- What a sweep did that did not fail. -/
structure Sweeps (root : Path) (place : Place) (retention : Duration) (now : Instant)
    (s : Surroundings σ) (report : SweepReport) (s' : Surroundings σ) : Prop where
  isPart : s'.files.IsPartOf s.files
  isGrounded : s'.files.IsGrounded
  swept : IsSweptAt s.files s'.files place retention now [s.now]
  nodup : report.removed.Nodup
  mem : ∀ shown, shown ∈ report.removed ↔ IsListed s.files place retention now shown
  same : report.removed = [] → s' = s
  runs : ∀ name, IsStaleRun s.files place retention now name →
    s.files.locate false (root.join name) = .ok (place ++ [name])
  logs : ∀ name, IsStaleLog s.files place retention now name →
    s.files.locate false ((root.join logFolder).join name) = .ok (place ++ [logFolder] ++ [name])

theorem nodup_removed (hgone : gone.Nodup) (hlogs : logs.Nodup)
    (hplain : ∀ name ∈ gone, Path.IsPlain name) :
    (gone ++ logs.map fun name => logFolder ++ "/" ++ name).Nodup := by
  have hshown : ∀ a b : String, logFolder ++ "/" ++ a = logFolder ++ "/" ++ b → a = b := by
    intro a b heq
    have htext := congrArg String.toList heq
    rw [String.toList_append, String.toList_append (t := b), List.append_cancel_left_eq] at htext
    exact String.toList_inj.1 htext
  refine List.nodup_append.2 ⟨hgone, List.pairwise_map.2 ?_, ?_⟩
  · exact hlogs.imp fun hne heq => hne (hshown _ _ heq)
  rintro name hname _ hlog rfl
  obtain ⟨log, -, rfl⟩ := List.mem_map.1 hlog
  exact (hplain _ hname).noSlash (by simp)

theorem sweeps_of_clears
    (hplain : ∀ folder name, s.files.get? (folder ++ [name]) ≠ none → Path.IsPlain name)
    (hground : s.files.IsGrounded)
    (hruns : ClearsRuns root place retention now s runs sMid gone [])
    (hlogs : ClearsLogs root place retention now runs sMid report s' logs []) :
    Sweeps root place retention now s report s' := by
  have hgone : ∀ name, name ∈ gone ↔ IsStaleRun s.files place retention now name := fun name => by
    simpa using hruns.mem_iff name
  have hold : ∀ name, name ∈ logs ↔ IsStaleLog s.files place retention now name := fun name => by
    simpa [hruns.isStaleLog_iff] using hlogs.mem_iff name
  have hremoved : report.removed = gone ++ logs.map fun name => logFolder ++ "/" ++ name := by
    rw [hlogs.removed, hruns.removed, List.map_id]
    rfl
  have hsheds := hlogs.sheds
  rw [hruns.now] at hsheds
  refine ⟨hsheds.isPartOf.trans hruns.sheds.isPartOf,
    hsheds.isGrounded (hruns.sheds.isGrounded hground), .of_sheds hground hruns.sheds hgone hsheds hold,
    ?_, fun shown => ?_, fun hnothing => ?_, fun name hname => ?_, fun name hname => ?_⟩
  · rw [hremoved]
    refine nodup_removed hruns.nodup hlogs.nodup fun name hname => ?_
    exact hplain place name ((hgone name).1 hname).2.get?_ne_none
  · rw [hremoved, List.mem_append, List.mem_map, hgone, IsListed]
    simp only [hold, eq_comm]
  · rw [hremoved, List.append_eq_nil_iff, List.map_eq_nil_iff] at hnothing
    rw [hlogs.same hnothing.2, hruns.same hnothing.1]
  · exact hruns.able name ((hgone name).2 hname)
  · have hthere := IsChosen.get?_ne_none ((hruns.isStaleLog_iff name).2 hname)
    exact hruns.sheds.isPartOf.locate (hlogs.able name ((hold name).2 hname)) hthere

/-- A sweep that does not fail removes what is old, if the logs can be opened after the runs are gone. -/
theorem runAt_sweeps (h : IsRoot t root place) (hpart : s.files.IsPartOf t)
    (hground : s.files.IsGrounded) (hlocate : s.files.locate true root = .ok place)
    (hfolder : s.files.folderAt place = true)
    (heq : runAt root retention now s = (.ok report, s')) (hfailed : report.failed = [])
    (hreach : Reaches s'.files root place) : Sweeps root place retention now s report s' := by
  have hplain : ∀ folder name, s.files.get? (folder ++ [name]) ≠ none → Path.IsPlain name :=
    fun folder name hthere => h.isPlain folder name (hpart.get?_ne_none hthere)
  obtain ⟨runs, sMid, gone, left, hruns, hrest⟩ := runAt_clears h retention now hpart hlocate hfolder
  rcases hrest with ⟨hclosed, heq'⟩ | ⟨report', s'', logs, spared, -, hlogs, heq'⟩
  · cases heq.symm.trans heq'
    have hleft : left = [] := by simpa [hruns.failed] using hfailed
    subst hleft
    have hnone : ∀ name, ¬IsStaleLog s'.files place retention now name := by
      intro name hstale
      have hisFolder : s'.files.folderAt (place ++ [logFolder]) = true :=
        hruns.sheds.isGrounded hground _ name (IsChosen.get?_ne_none hstale)
      exact hclosed _ (openFolder_eq_ok.2 ⟨hreach.logs hisFolder, hisFolder, rfl⟩)
    exact sweeps_of_clears hplain hground hruns (.nothing fun name _ => hnone name)
  · cases heq.symm.trans heq'
    have hleft : left = [] ∧ spared = [] := by simpa [hlogs.failed, hruns.failed] using hfailed
    obtain ⟨rfl, rfl⟩ := hleft
    exact sweeps_of_clears hplain hground hruns hlogs

/-- A part of a tree that can be left of it: what is old is gone, and the paths lead to the folders. -/
structure IsRest (v t : Tree) (root : Path) (place : Place) (retention : Duration) (now : Instant) :
    Prop where
  isPart : v.IsPartOf t
  reaches : Reaches v root place
  runs : v.folderAt place = true
  logs : t.folderAt (place ++ [logFolder]) = true → v.folderAt (place ++ [logFolder]) = true
  gone : ∀ other, Goes t place retention now other → v.get? other = none

theorem IsRest.reaches_of (h : IsRest v t root place retention now) (hpart : v.IsPartOf t')
    (hpart' : t'.IsPartOf t) : Reaches t' root place where
  runs := hpart.locate h.reaches.runs (get?_ne_none.2 (.inr h.runs))
  logs hfolder := by
    have hisFolder := h.logs (hpart'.folderAt hfolder)
    exact hpart.locate (h.reaches.logs hisFolder) (get?_ne_none.2 (.inr hisFolder))

/-- What can be left of the tree is left when the old runs are gone. -/
theorem ClearsRuns.isPartOf (h : ClearsRuns root place retention now s runs s' gone left)
    (hrest : IsRest v s.files root place retention now) : v.IsPartOf s'.files :=
  h.sheds.isPartOf_of_gone hrest.isPart fun name hname other hbelow =>
    hrest.gone other (.inl ⟨name, (h.mem_iff name).1 (.inl hname), hbelow⟩)

/-- No run is left that the path of the root still leads to. -/
theorem ClearsRuns.left_eq_nil (h : ClearsRuns root place retention now s runs s' gone left)
    (hroot : IsRoot t root place) (hpart : s.files.IsPartOf t)
    (hrest : IsRest v s.files root place retention now)
    (hruns : ∀ name, IsStaleRun s.files place retention now name →
      t.locate false (root.join name) = .ok (place ++ [name])) : left = [] := by
  refine List.eq_nil_iff_forall_not_mem.2 fun name hname => ?_
  obtain ⟨u, hu, hend, hsame, hfail⟩ := h.unable name hname
  have hstale := (h.mem_iff name).1 (.inr hname)
  obtain ⟨-, node, hget, hnode⟩ := id hstale
  have hv := (h.isPartOf hrest).trans hend
  have hplain := hroot.isPlain place name (hpart.get?_ne_none hstale.2.get?_ne_none)
  have hjoin := locate_join_of hroot.isRooted hplain (hruns name hstale) (hrest.reaches_of hv hu).runs
    (hv.folderAt hrest.runs)
  have hisFolder : u.folderAt (place ++ [name]) = true :=
    folderAt_eq_true.2 ⟨node, hsame.trans hget, (Bool.and_eq_true_iff.1 hnode).1⟩
  obtain ⟨u', hremove⟩ := removeFolder_isOk s.now hjoin hisFolder (by simp)
  exact hfail u' hremove

/-- What can be left of the tree is left when the old logs are gone too. -/
theorem ClearsLogs.isPartOf (h : ClearsLogs root place retention now runs sMid report s' logs spared)
    (hruns : ClearsRuns root place retention now s runs sMid gone left) (hground : s.files.IsGrounded)
    (hrest : IsRest v s.files root place retention now) : v.IsPartOf s'.files := by
  refine h.sheds.isPartOf_of_gone (hruns.isPartOf hrest) fun name hname other hbelow => ?_
  have hstale := (hruns.isStaleLog_iff name).1 ((h.mem_iff name).1 (.inl hname))
  obtain ⟨rest, rfl⟩ := hbelow
  by_cases hnil : rest = []
  · subst hnil
    exact hrest.gone _ (.inr ⟨name, hstale, by simp⟩)
  · exact Classical.not_not.1 fun hthere =>
      hrest.isPart.get?_ne_none hthere (hground.get?_append hstale.folderAt hnil)

/-- No log is left that the path of the logs still leads to. -/
theorem ClearsLogs.left_eq_nil (h : ClearsLogs root place retention now runs sMid report s' logs spared)
    (hclears : ClearsRuns root place retention now s runs sMid gone left)
    (hroot : IsRoot t root place) (hpart : s.files.IsPartOf t) (hground : s.files.IsGrounded)
    (hrest : IsRest v s.files root place retention now)
    (hfolder : sMid.files.folderAt (place ++ [logFolder]) = true)
    (hlogs : ∀ name, IsStaleLog s.files place retention now name →
      t.locate false ((root.join logFolder).join name) = .ok (place ++ [logFolder] ++ [name])) :
    spared = [] := by
  refine List.eq_nil_iff_forall_not_mem.2 fun name hname => ?_
  obtain ⟨u, hu, hend, hsame, hfail⟩ := h.unable name hname
  have hstale := (h.mem_iff name).1 (.inr hname)
  have hv := (h.isPartOf hclears hground hrest).trans hend
  have hu' := hu.trans hclears.sheds.isPartOf
  have hisFolder : u.folderAt (place ++ [logFolder]) = true :=
    hv.folderAt (hrest.logs (hclears.folderAt_logs.symm.trans hfolder))
  have hplain := hroot.isPlain (place ++ [logFolder]) name
    ((hclears.sheds.isPartOf.trans hpart).get?_ne_none (IsChosen.get?_ne_none hstale))
  have hjoin := locate_join_of hroot.isRooted hplain
    (hlogs name ((hclears.isStaleLog_iff name).1 hstale)) ((hrest.reaches_of hv hu').logs hisFolder)
    hisFolder
  obtain ⟨u', hremove⟩ := removeFile_isOk sMid.now hjoin (hstale.leaf? hsame)
  exact hfail u' hremove

/-- A sweep does not fail if something can be left of the tree. -/
theorem runAt_isOk (h : IsRoot t root place) (hpart : s.files.IsPartOf t)
    (hground : s.files.IsGrounded) (hrest : IsRest v s.files root place retention now)
    (hruns : ∀ name, IsStaleRun s.files place retention now name →
      t.locate false (root.join name) = .ok (place ++ [name]))
    (hlogs : ∀ name, IsStaleLog s.files place retention now name →
      t.locate false ((root.join logFolder).join name) = .ok (place ++ [logFolder] ++ [name])) :
    ∃ report s', runAt root retention now s = (.ok report, s') ∧ report.failed = [] ∧
      v.IsPartOf s'.files ∧ Reaches s'.files root place := by
  obtain ⟨runs, sMid, gone, left, hclears, hthen⟩ := runAt_clears h retention now hpart
    (hrest.reaches_of hrest.isPart (.refl _)).runs (hrest.isPart.folderAt hrest.runs)
  obtain rfl := hclears.left_eq_nil h hpart hrest hruns
  have hfailed : runs.failed = [] := by simpa using hclears.failed
  rcases hthen with ⟨-, heq⟩ | ⟨report, s', logs, spared, hfolder, hclears', heq⟩
  · have hv := hclears.isPartOf hrest
    exact ⟨runs, sMid, heq, hfailed, hv, hrest.reaches_of hv hclears.sheds.isPartOf⟩
  · obtain rfl := hclears'.left_eq_nil hclears h hpart hground hrest hfolder hlogs
    have hv := hclears'.isPartOf hclears hground hrest
    exact ⟨report, s', heq, by simpa [hfailed] using hclears'.failed, hv,
      hrest.reaches_of hv (hclears'.sheds.isPartOf.trans hclears.sheds.isPartOf)⟩

/-- What a sweep leaves is left of the tree, if the paths still lead to the folders. -/
theorem IsSweptAt.isRest (h : IsSweptAt t v place retention now times) (hpart : v.IsPartOf t)
    (hreach : Reaches v root place) (hfolder : t.folderAt place = true) :
    IsRest v t root place retention now where
  isPart := hpart
  reaches := hreach
  runs := (h.folderAt_eq not_goes_root).trans hfolder
  logs hlogs := (h.folderAt_eq not_goes_logs).trans hlogs
  gone := h.gone

theorem IsRest.mono (h : IsRest v t root place retention now) (hle : earlier ≤ now) :
    IsRest v t root place retention earlier :=
  { h with gone := fun other hgoes => h.gone other (hgoes.mono hle) }

/-- Where something can be left of the tree, a sweep does all that it is to do. -/
theorem exists_sweeps (h : IsRoot t root place) (hpart : s.files.IsPartOf t)
    (hground : s.files.IsGrounded) (hrest : IsRest v s.files root place retention now)
    (hruns : ∀ name, IsStaleRun s.files place retention now name →
      t.locate false (root.join name) = .ok (place ++ [name]))
    (hlogs : ∀ name, IsStaleLog s.files place retention now name →
      t.locate false ((root.join logFolder).join name) = .ok (place ++ [logFolder] ++ [name])) :
    ∃ report s', runAt root retention now s = (.ok report, s') ∧ report.failed = [] ∧
      v.IsPartOf s'.files ∧ Reaches s'.files root place ∧
      Sweeps root place retention now s report s' := by
  obtain ⟨report, s', heq, hfailed, hleft, hreach⟩ := runAt_isOk h hpart hground hrest hruns hlogs
  have hsweeps := runAt_sweeps h hpart hground (hrest.reaches_of hrest.isPart (.refl _)).runs
    (hrest.isPart.folderAt hrest.runs) heq hfailed hreach
  exact ⟨report, s', heq, hfailed, hleft, hreach, hsweeps⟩

/-- A sweep that removes all that it tries to remove, and after which the paths of the root and of the
logs still lead there. -/
def Succeeds (root : Path) (place : Place) (retention : Duration) (now : Instant)
    (s : Surroundings σ) : Prop :=
  ∃ report, (runAt root retention now s).1 = .ok report ∧ report.failed = [] ∧
    Reaches (runAt root retention now s).2.files root place

theorem Succeeds.exists_sweeps (hs : Succeeds root place retention now s) (h : IsRoot t root place)
    (hpart : s.files.IsPartOf t) (hground : s.files.IsGrounded)
    (hlocate : s.files.locate true root = .ok place) (hfolder : s.files.folderAt place = true) :
    ∃ report s', runAt root retention now s = (.ok report, s') ∧ report.failed = [] ∧
      Reaches s'.files root place ∧ Sweeps root place retention now s report s' := by
  obtain ⟨report, hreport, hfailed, hreach⟩ := hs
  have heq : runAt root retention now s = (.ok report, (runAt root retention now s).2) :=
    Prod.ext hreport rfl
  have hsweeps := runAt_sweeps h hpart hground hlocate hfolder heq hfailed hreach
  exact ⟨report, _, heq, hfailed, hreach, hsweeps⟩

theorem succeeds_of_eq (heq : runAt root retention now s = (.ok report, s'))
    (hfailed : report.failed = []) (hreach : Reaches s'.files root place) :
    Succeeds root place retention now s := by
  rw [Succeeds, heq]
  exact ⟨report, rfl, hfailed, hreach⟩

/-- Nothing that is to go is on the way to the root of runs or to the logs. -/
structure IsClear (t : Tree) (root : Path) (place : Place) (retention : Duration) (now : Instant) :
    Prop where
  reaches : Reaches t root place
  runs : ∀ asked, t.AsksFor root asked → ¬Goes t place retention now asked
  logs : ∀ asked, t.AsksFor (root.join logFolder) asked → ¬Goes t place retention now asked

/-- A sweep, be it that something cannot be removed, leaves alone what is not to go. -/
theorem runAt_agreesAt (h : IsRoot s.files root place)
    (heq : runAt root retention now s = (.ok report, s')) :
    s'.files.home = s.files.home ∧
      ∀ other, ¬Goes s.files place retention now other → s.files.AgreesAt s'.files other := by
  obtain ⟨runs, sMid, gone, left, hclears, hrest⟩ :=
    runAt_clears h retention now (.refl _) h.locate h.isFolder
  have hmid : ∀ other, ¬Goes s.files place retention now other → s.files.AgreesAt sMid.files other :=
    fun other hnot => hclears.sheds.agreesAt fun name hname hbelow =>
      hnot (.inl ⟨name, (hclears.mem_iff name).1 (.inl hname), hbelow⟩)
  rcases hrest with ⟨-, heq'⟩ | ⟨report', s'', logs, spared, -, hlogs, heq'⟩
  · cases heq.symm.trans heq'
    exact ⟨hclears.sheds.home, hmid⟩
  · cases heq.symm.trans heq'
    refine ⟨hlogs.sheds.home.trans hclears.sheds.home, fun other hnot => ?_⟩
    by_cases hgone : ∃ name ∈ logs, place ++ [logFolder] ++ [name] <+: other
    · obtain ⟨name, hname, hbelow⟩ := hgone
      have hstale := (hclears.isStaleLog_iff name).1 ((hlogs.mem_iff name).1 (.inl hname))
      have hnothing := get?_eq_none.1 (hlogs.sheds.get?_of_below hname hbelow)
      obtain ⟨rest, rfl⟩ := hbelow
      have hrest : rest ≠ [] := by
        rintro rfl
        exact hnot (.inr ⟨name, hstale, by simp⟩)
      have hnone := get?_eq_none.1 (h.isRooted.get?_append hstale.folderAt hrest)
      exact ⟨hnothing.1.trans hnone.1.symm, hnothing.2.trans hnone.2.symm⟩
    · obtain ⟨hleaf, hfolder⟩ := hmid other hnot
      obtain ⟨hleaf', hfolder'⟩ :=
        hlogs.sheds.agreesAt fun name hname hbelow => hgone ⟨name, hname, hbelow⟩
      exact ⟨hleaf'.trans hleaf, hfolder'.trans hfolder⟩

/-- Where the ways are clear, a sweep succeeds if all removals do. -/
theorem IsClear.succeeds (hclear : IsClear s.files root place retention now)
    (h : IsRoot s.files root place) (hreport : (runAt root retention now s).1 = .ok report)
    (hfailed : report.failed = []) : Succeeds root place retention now s := by
  obtain ⟨hhome, hagrees⟩ := runAt_agreesAt h (Prod.ext hreport rfl)
  refine ⟨report, hreport, hfailed, ?_, fun hlogs => ?_⟩
  · rw [locate_of_asks hhome fun asked hasked => hagrees asked (hclear.runs asked hasked)]
    exact h.locate
  · rw [locate_of_asks hhome fun asked hasked => hagrees asked (hclear.logs asked hasked)]
    exact hclear.reaches.logs ((hagrees _ not_goes_logs).2.symm.trans hlogs)

/-- An earlier sweep and then this one succeed if this one does alone, and come to the same. -/
theorem Succeeds.split (h : IsRoot s.files root place) (hle : earlier ≤ now)
    (hs : Succeeds root place retention now s)
    (hfiles : s₁.files = (runAt root retention earlier s).2.files) :
    Succeeds root place retention earlier s ∧ Succeeds root place retention now s₁ ∧
      AgreesBut (runAt root retention now s).2.files (runAt root retention now s₁).2.files
        fun other => IsTouched s.files place retention now other ∧ s₁.now ≠ s.now := by
  obtain ⟨report, s', heq, -, hreach, hsweeps⟩ :=
    hs.exists_sweeps h (.refl _) h.isRooted.parent h.locate h.isFolder
  have hrest := hsweeps.swept.isRest hsweeps.isPart hreach h.isFolder
  obtain ⟨first, sMid, heqFirst, hfirst, hleft, hreachFirst, hsweepsFirst⟩ :=
    Sweep.exists_sweeps h (.refl _) h.isRooted.parent (hrest.mono hle)
      (fun name hname => hsweeps.runs name (hname.mono hle))
      fun name hname => hsweeps.logs name (hname.mono hle)
  obtain ⟨files, clock, waited, random, drawn, tools⟩ := s₁
  rw [heqFirst] at hfiles
  obtain rfl : files = sMid.files := hfiles
  have hrest' : IsRest s'.files sMid.files root place retention now := by
    refine ⟨hleft, hreach, hrest.runs, fun hlogs => ?_, fun other hgoes => ?_⟩
    · exact hrest.logs (hsweepsFirst.isPart.folderAt hlogs)
    · exact hrest.gone other ((hsweepsFirst.swept.goes_iff hle other).2 (.inr hgoes))
  obtain ⟨second, last, heqSecond, hsecond, -, hreachSecond, hsweepsSecond⟩ :=
    Sweep.exists_sweeps (s := ⟨sMid.files, clock, waited, random, drawn, tools⟩) h hsweepsFirst.isPart
      hsweepsFirst.isGrounded hrest'
      (fun name hname => hsweeps.runs name ((hsweepsFirst.swept.isStaleRun_iff hle).2 (.inr hname)))
      fun name hname => hsweeps.logs name ((hsweepsFirst.swept.isStaleLog_iff hle).2 (.inr hname))
  refine ⟨succeeds_of_eq heqFirst hfirst hreachFirst, succeeds_of_eq heqSecond hsecond hreachSecond, ?_⟩
  rw [heq, heqSecond]
  exact hsweeps.swept.agreesBut (hsweepsFirst.swept.trans hle hsweepsSecond.swept)

/-- A sweep finds nothing after the same sweep. -/
theorem Succeeds.again (hs : Succeeds root place retention now s) (h : IsRoot s.files root place)
    (hfiles : s₁.files = (runAt root retention now s).2.files) :
    runAt root retention now s₁ = (.ok ⟨[], []⟩, s₁) := by
  have hnext := (hs.split h (Nat.le_refl now) hfiles).2.1
  obtain ⟨first, sMid, heqFirst, -, hreach, hsweeps⟩ :=
    hs.exists_sweeps h (.refl _) h.isRooted.parent h.locate h.isFolder
  obtain ⟨files, clock, waited, random, drawn, tools⟩ := s₁
  rw [heqFirst] at hfiles
  obtain rfl : files = sMid.files := hfiles
  obtain ⟨⟨removed, failed⟩, last, heq, hfailed, -, hsecond⟩ :=
    hnext.exists_sweeps h hsweeps.isPart hsweeps.isGrounded hreach.runs
      ((hsweeps.swept.folderAt_eq not_goes_root).trans h.isFolder)
  have hnothing : removed = [] := by
    refine List.eq_nil_iff_forall_not_mem.2 fun shown hshown => ?_
    rcases (hsecond.mem shown).1 hshown with hrun | ⟨name, hlog, -⟩
    · exact hsweeps.swept.not_isStaleRun hrun
    · exact hsweeps.swept.not_isStaleLog hlog
  obtain rfl : failed = [] := hfailed
  subst hnothing
  rw [heq, hsecond.same rfl]

/-- What two sweeps remove one sweep can remove. -/
theorem Succeeds.join (h : IsRoot s.files root place) (hle : earlier ≤ now)
    (hfirst : Succeeds root place retention earlier s)
    (hfiles : s₁.files = (runAt root retention earlier s).2.files)
    (hsecond : Succeeds root place retention now s₁) : Succeeds root place retention now s := by
  obtain ⟨first, sMid, heqFirst, -, hreachFirst, hsweepsFirst⟩ :=
    hfirst.exists_sweeps h (.refl _) h.isRooted.parent h.locate h.isFolder
  obtain ⟨files, clock, waited, random, drawn, tools⟩ := s₁
  rw [heqFirst] at hfiles
  obtain rfl : files = sMid.files := hfiles
  obtain ⟨second, last, heqSecond, -, hreachSecond, hsweepsSecond⟩ :=
    hsecond.exists_sweeps h hsweepsFirst.isPart hsweepsFirst.isGrounded hreachFirst.runs
      ((hsweepsFirst.swept.folderAt_eq not_goes_root).trans h.isFolder)
  have hrest := (hsweepsFirst.swept.trans hle hsweepsSecond.swept).isRest
    (hsweepsSecond.isPart.trans hsweepsFirst.isPart) hreachSecond h.isFolder
  -- what was not removed by the first sweep is removed by the second, and its path is as before
  obtain ⟨report, s', heq, hfailed, -, hreach, -⟩ :=
    Sweep.exists_sweeps h (.refl _) h.isRooted.parent hrest
      (fun name hname => ((hsweepsFirst.swept.isStaleRun_iff hle).1 hname).elim (hsweepsFirst.runs name)
        fun hstale => hsweepsFirst.isPart.locate (hsweepsSecond.runs name hstale)
          hstale.2.get?_ne_none)
      fun name hname => ((hsweepsFirst.swept.isStaleLog_iff hle).1 hname).elim (hsweepsFirst.logs name)
        fun hstale => hsweepsFirst.isPart.locate (hsweepsSecond.logs name hstale)
          (IsChosen.get?_ne_none hstale)
  exact succeeds_of_eq heq hfailed hreach

/-- A root of runs with an old run and a new one, and with an old log and a new one. -/
def crowded : Surroundings Unit where
  files :=
    { nodes :=
        [(["temp"], ⟨.folder, 0⟩), (["temp", "run-a"], ⟨.folder, 20⟩),
          (["temp", "run-a", "main.tex"], ⟨.file .empty, 20⟩), (["temp", "run-b"], ⟨.folder, 95⟩),
          (["temp", "logs"], ⟨.folder, 20⟩), (["temp", "logs", "a.log"], ⟨.file .empty, 20⟩),
          (["temp", "logs", "b.log"], ⟨.file .empty, 95⟩)]
      home := [] }
  now := 100
  waited := 0
  random := id
  drawn := 0
  tools := ()

theorem link?_crowded (place : Place) : crowded.files.link? place = none :=
  link?_of_nodes (by decide) place

theorem isRoot_crowded (root : Path) (hlocate : crowded.files.locate true root = .ok ["temp"]) :
    IsRoot crowded.files root ["temp"] where
  isRooted := .of_nodes (by decide) (by decide)
  isPlain folder name hthere := by
    have hplain : ∀ n ∈ crowded.files.nodes, ∀ name ∈ n.1.getLast?,
        '/' ∉ name.toList ∧ Path.isVoid name.toList = false ∧ name.toList ≠ ['.', '.'] := by
      decide +kernel
    obtain ⟨node, hget⟩ := Option.ne_none_iff_exists'.1 hthere
    obtain ⟨hslash, hvoid, hup⟩ := hplain _ (mem_nodes_of_get? (by simp) hget) name (by simp)
    exact ⟨hslash, hvoid, hup⟩
  locate := hlocate
  isFolder := by decide
  logs := link?_crowded _

theorem isClear_crowded : IsClear crowded.files ⟨"temp"⟩ ["temp"] 10 100 where
  reaches := ⟨by decide +kernel, fun _ => by decide +kernel⟩
  runs asked hasked := by
    have hsteps : Path.steps ⟨"temp"⟩ = [.name "temp"] := by decide +kernel
    rw [AsksFor, hsteps] at hasked
    cases hasked with
    | name => exact not_goes_root
    | down _ hasked => cases hasked
    | jump hlink =>
      rw [link?_crowded] at hlink
      cases hlink
  logs asked hasked := by
    have hsteps : (Path.join ⟨"temp"⟩ logFolder).steps = [.name "temp", .name "logs"] := by
      decide +kernel
    rw [AsksFor, hsteps] at hasked
    cases hasked with
    | name => exact not_goes_root
    | down _ hasked =>
      cases hasked with
      | name => exact not_goes_logs
      | down _ hasked => cases hasked
      | jump hlink =>
        rw [link?_crowded] at hlink
        cases hlink
    | jump hlink =>
      rw [link?_crowded] at hlink
      cases hlink

end ResumePress.Sweep
