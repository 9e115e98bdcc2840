import ResumePress.Proofs.CleanUp
import ResumePress.Proofs.Entries

/-!
The cache is a map whose entries expire. Requests come one after the other, at times that do not go
back. An entry is found for as long as it is fresh; whether an entry that is no longer fresh was removed
makes no difference to what is found.
-/

namespace ResumePress

open Files Files.Tree

namespace Cache

/-- What a cache is asked for. -/
inductive Request where
  | put (key : String) (bytes : ByteArray)
  | get (key : String)
  | evict

variable {σ : Type}

/-- Serves a request at a time. -/
def serve (c : Cache) (time : Instant) : Request → Act σ Unit
  | .put key bytes => c.put key bytes
  | .get key => do
    let _ ← c.getAt key time
  | .evict => do
    let _ ← c.evictAt time

/-- The surroundings after requests, of which the latest comes first. -/
def served (c : Cache) (s : Surroundings σ) : List (Instant × Request) → Surroundings σ
  | [] => s
  | (time, request) :: earlier => (c.serve time request { c.served s earlier with now := time }).2

/-- When something was last put under a key, and what it was. -/
def lastPut (key : String) : List (Instant × Request) → Option (Instant × ByteArray)
  | [] => none
  | (time, .put other bytes) :: earlier =>
    if other = key then some (time, bytes) else lastPut key earlier
  | _ :: earlier => lastPut key earlier

/-- What a map whose entries expire has for a key. Nothing is kept if the name is too long. -/
def recalled (c : Cache) (past : List (Instant × Request)) (now : Instant) (key : String) :
    Option ByteArray :=
  ((lastPut key past).filter fun put =>
    c.fits key && decide (Instant.since now put.1 < c.timeToLive)).map Prod.snd

/-- The entry of a key after requests, with its time. -/
def held (c : Cache) (key : String) : List (Instant × Request) → Option (Instant × ByteArray)
  | [] => none
  | (time, .put other bytes) :: earlier =>
    if other = key ∧ c.fits key = true then some (time, bytes) else c.held key earlier
  | (_, .get _) :: earlier => c.held key earlier
  | (time, .evict) :: earlier =>
    (c.held key earlier).filter fun put => Instant.since time put.1 < c.timeToLive

/-- Requests before a time, in order, that put things under keys only. -/
structure IsPast (past : List (Instant × Request)) (now : Instant) : Prop where
  ordered : past.Pairwise fun later earlier => earlier.1 ≤ later.1
  before : ∀ request ∈ past, request.1 ≤ now
  keys : ∀ time key bytes, (time, .put key bytes) ∈ past → IsKey key

/-- A folder that is there or can be made, without entries and without what could be taken for an
entry that is written aside. -/
structure Ready (c : Cache) (base : Path) (root : Place) (names : List String)
    (s : Surroundings σ) : Prop where
  way : s.files.HasWay base root names
  free : s.files.wayFault? base root names = none
  empty : ∀ name, s.files.get? (root ++ names ++ [name]) ≠ none →
    (c.folder.join name).extension? ≠ some extension
  anew : ∀ key n,
    s.files.get? (asideSpot root names key (Text.hexPadded 32 (s.random n))) = none

/-- The place of an entry. -/
def IsEntry (root : Place) (names : List String) (place : Place) : Prop :=
  ∃ key, IsKey key ∧ place = entrySpot root names key

/-- The folder holds the entries that there should be after requests, and else only what it held at the
start. -/
structure Follows (c : Cache) (root : Place) (names : List String) (start : Surroundings σ)
    (past : List (Instant × Request)) (s : Surroundings σ) : Prop where
  random : s.random = start.random
  changes : Changes (fun _ => False) (IsEntry root names) (OnWay root names) start.files s.files
  leaf : ∀ key, IsKey key → s.files.leaf? (entrySpot root names key) =
    (c.held key past).map fun put => ⟨.file put.2, put.1⟩

variable {c : Cache} {base : Path} {root : Place} {names : List String} {key : String}
  {bytes : ByteArray} {start s : Surroundings σ} {past : List (Instant × Request)}
  {now time : Instant}

theorem IsPast.earlier {request : Instant × Request} (h : IsPast (request :: past) now) :
    IsPast past request.1 where
  ordered := h.ordered.of_cons
  before := fun _ => List.rel_of_pairwise_cons h.ordered
  keys := fun time key bytes hmem => h.keys time key bytes (List.mem_cons_of_mem _ hmem)

theorem IsPast.of_sublist {fewer : List (Instant × Request)} (h : IsPast past now)
    (hfewer : fewer.Sublist past) : IsPast fewer now where
  ordered := h.ordered.sublist hfewer
  before := fun request hrequest => h.before request (hfewer.subset hrequest)
  keys := fun time key bytes hmem => h.keys time key bytes (hfewer.subset hmem)

/-! ### Entries as a map -/

theorem fits_of_held {put : Instant × ByteArray} (h : c.held key past = some put) :
    c.fits key = true := by
  induction past with
  | nil => cases h
  | cons request past ih =>
    obtain ⟨time, request⟩ := request
    cases request with
    | put other bytes =>
      rw [held] at h
      split at h
      · rename_i hsame
        exact hsame.2
      · exact ih h
    | get other => exact ih h
    | evict => exact ih (Option.eq_some_of_filter_eq_some h)

/-- An eviction makes no difference later: what it removes would not be fresh. -/
theorem recalled_eq (hpast : IsPast past now) : c.recalled past now key =
    ((c.held key past).filter fun put => Instant.since now put.1 < c.timeToLive).map Prod.snd := by
  induction past with
  | nil => rfl
  | cons request past ih =>
    have ih := ih (hpast.of_sublist (List.sublist_cons_self _ _))
    have hbefore := hpast.before _ List.mem_cons_self
    obtain ⟨time, request⟩ := request
    cases request with
    | put other bytes =>
      rw [recalled, lastPut, held]
      by_cases hsame : other = key
      · subst hsame
        cases hfits : c.fits other with
        | true => simp [Option.filter]
        | false =>
          have hnone : c.held other past = none := Option.eq_none_iff_forall_ne_some.2 fun put hput =>
            Bool.false_ne_true (hfits.symm.trans (fits_of_held hput))
          simp [Option.filter, hnone]
      · rw [if_neg hsame, if_neg fun hput => hsame hput.1]
        exact ih
    | get other => exact ih
    | evict =>
      refine ih.trans (congrArg _ ?_)
      rw [held, Option.filter_filter]
      cases c.held key past with
      | none => rfl
      | some put =>
        have hlonger : Instant.since time put.1 ≤ Instant.since now put.1 :=
          Nat.sub_le_sub_right hbefore put.1
        have hboth : Instant.since now put.1 < c.timeToLive ↔
            Instant.since time put.1 < c.timeToLive ∧ Instant.since now put.1 < c.timeToLive :=
          ⟨fun hnow => ⟨hlonger.trans_lt hnow, hnow⟩, And.right⟩
        rw [Option.filter_some, Option.filter_some, ← Bool.decide_and, decide_eq_decide.2 hboth]

theorem lastPut_evicted (key : String) (later : List (Instant × Request)) :
    lastPut key (later ++ (time, .evict) :: past) = lastPut key (later ++ past) := by
  induction later with
  | nil => rfl
  | cons request later ih =>
    obtain ⟨when, request⟩ := request
    cases request with
    | put other bytes => rw [List.cons_append, List.cons_append, lastPut, lastPut, ih]
    | _ => exact ih

/-! ### Entries in a folder -/

theorem not_isEntry_of_onWay {place : Place} (h : OnWay root names place) :
    ¬IsEntry root names place := by
  rintro ⟨key, -, rfl⟩
  exact not_onWay_of_concat h

/-- At the start there is no entry. -/
theorem Ready.get?_entry (h : c.Ready base root names start) (hkey : IsKey key) :
    start.files.get? (entrySpot root names key) = none := by
  by_contra hthere
  exact h.empty _ hthere (hkey.extension?_entryName c.folder)

namespace Follows

variable (h : c.Follows root names start past s)
include h

theorem folderAt_inside (name : String) : s.files.folderAt (root ++ names ++ [name]) =
    start.files.folderAt (root ++ names ++ [name]) :=
  (h.changes.folders _ id).resolve_right fun hnew => not_onWay_of_concat hnew.1

variable (hready : c.Ready base root names start)
include hready

theorem way : s.files.HasWay base root names :=
  hready.way.of_spares h.changes.toSpares nofun

theorem free : s.files.wayFault? base root names = none := by
  have hleaf : ∀ place, ¬IsEntry root names place → s.files.leaf? place = start.files.leaf? place :=
    fun place => h.changes.leaf place id
  have hfolder : ¬IsEntry root names (root ++ names) := by
    rintro ⟨key, -, heq⟩
    simp [entrySpot] at heq
  rw [← hready.free, wayFault?, wayFault?, hleaf _ hfolder, blocked_congr fun place hplace =>
    hleaf place (not_isEntry_of_onWay (hplace.mono (List.dropLast_prefix _)))]

theorem get?_aside (key : String) (n : Nat) :
    s.files.get? (asideSpot root names key (Text.hexPadded 32 (s.random n))) = none := by
  obtain ⟨hleaf, hfolder⟩ := get?_eq_none.1 (hready.anew key n)
  rw [h.random]
  refine get?_eq_none.2 ⟨?_, (h.folderAt_inside _).trans hfolder⟩
  refine (h.changes.leaf _ id ?_).trans hleaf
  rintro ⟨other, -, heq⟩
  exact entrySpot_ne_asideSpot heq.symm

theorem folderAt_entry (hkey : IsKey key) : s.files.folderAt (entrySpot root names key) = false :=
  (h.folderAt_inside _).trans (get?_eq_none.1 (hready.get?_entry hkey)).2

theorem link?_entry (hkey : IsKey key) : s.files.link? (entrySpot root names key) = none := by
  refine h.changes.link?_eq_none ?_
  rw [Tree.link?, (get?_eq_none.1 (hready.get?_entry hkey)).1, Option.bind_none]

/-- What has the name of an entry is one. -/
theorem isEntry_of_extension {name : String}
    (hthere : s.files.get? (root ++ names ++ [name]) ≠ none)
    (hextension : (c.folder.join name).extension? = some extension) :
    ∃ key, IsKey key ∧ name = entryName key := by
  by_cases hentry : IsEntry root names (root ++ names ++ [name])
  · obtain ⟨key, hkey, heq⟩ := hentry
    exact ⟨key, hkey, by simpa [entrySpot] using heq⟩
  · refine absurd hextension (hready.empty name fun hnone => hthere ?_)
    obtain ⟨hleaf, hfolder⟩ := get?_eq_none.1 hnone
    exact get?_eq_none.2 ⟨(h.changes.leaf _ id hentry).trans hleaf,
      (h.folderAt_inside name).trans hfolder⟩

theorem put (hat : c.IsAt base names) (hkey : IsKey key) (bytes : ByteArray) :
    c.Follows root names start ((time, .put key bytes) :: past)
      (c.put key bytes { s with now := time }).2 := by
  obtain ⟨files, drawn, heq, hchanges, hself⟩ := put_kept hat (s := { s with now := time })
    (h.way hready) (h.free hready) hkey (h.folderAt_entry hready hkey) (h.link?_entry hready hkey)
    (h.get?_aside hready key _) bytes
  rw [heq]
  refine ⟨h.random, h.changes.trans (hchanges.mono ?_ fun _ => id), fun other hother => ?_⟩
  · rintro place rfl
    exact ⟨key, hkey, rfl⟩
  · rw [held]
    by_cases hsame : other = key
    · subst hsame
      rw [hself, h.leaf other hother]
      split <;> simp_all
    · rw [hchanges.leaf _ id (mt entrySpot_inj.1 hsame), h.leaf other hother,
        if_neg fun hput => hsame hput.1.symm]

omit hready in
/-- To ask for something changes nothing. -/
theorem get (other : String) : c.Follows root names start ((time, .get other) :: past)
    (c.serve time (.get other) { s with now := time }).2 := by
  rw [serve, Act.bind_apply, getAt_apply]
  exact { h with }

/-- An eviction removes the entries that are not fresh. -/
theorem evictAt (hat : c.IsAt base names) (now : Instant) :
    ∃ gone files, c.evictAt now s = (gone.length, { s with files := files }) ∧ gone.Nodup ∧
      s.files.Loses (root ++ names) gone files ∧
      ∀ name, name ∈ gone ↔ ∃ key put, IsKey key ∧ name = entryName key ∧
        c.held key past = some put ∧ c.timeToLive ≤ Instant.since now put.1 := by
  obtain ⟨gone, files, heq, hnodup, hloses, hgone⟩ := evictAt_below now hat (h.way hready)
    fun name hthere hextension => by
      obtain ⟨key, hkey, rfl⟩ := h.isEntry_of_extension hready hthere hextension
      exact ⟨hkey.isProper_entryName.toIsPlain, h.link?_entry hready hkey⟩
  refine ⟨gone, files, heq, hnodup, hloses, fun name => (hgone name).trans ⟨fun hexpired => ?_, ?_⟩⟩
  · obtain ⟨node, hnode, hstale⟩ := hexpired.stale
    obtain ⟨key, hkey, rfl⟩ := h.isEntry_of_extension hready hexpired.there hexpired.extension
    obtain ⟨put, hput, rfl⟩ := Option.map_eq_some_iff.1 ((h.leaf key hkey).symm.trans hnode)
    exact ⟨key, put, hkey, rfl, hput, by simpa [isFresh] using hstale⟩
  · rintro ⟨key, put, hkey, rfl, hput, hage⟩
    have hleaf := h.leaf key hkey
    rw [hput] at hleaf
    have hfolder : s.files.folderAt (root ++ names) = true :=
      (h.way hready).isRooted.above (List.cons_ne_nil (entryName key) [])
        (by rw [← entrySpot, (leaf?_eq_some.1 hleaf).1]; exact Option.some_ne_none _)
    refine ⟨hkey.extension?_entryName _, ?_, _, hleaf, by simpa [isFresh] using hage⟩
    rw [locate_in hat (h.way hready) hfolder hkey.isProper_entryName (.inr rfl),
      hkey.overlong_entryName (fits_of_held hput), if_neg Bool.false_ne_true]

theorem evict (hat : c.IsAt base names) :
    c.Follows root names start ((time, .evict) :: past)
      (c.evictAt time { s with now := time }).2 := by
  have h' : c.Follows root names start past { s with now := time } := { h with }
  obtain ⟨gone, files, heq, -, hloses, hgone⟩ := h'.evictAt hready hat time
  rw [heq]
  refine ⟨h.random, h.changes.trans (hloses.toEdits.mono ?_ |>.changes ?_), fun key hkey => ?_⟩
  · rintro place ⟨name, hname, rfl⟩
    obtain ⟨key, -, hkey, rfl, -⟩ := (hgone name).1 hname
    exact ⟨key, hkey, rfl⟩
  · rintro place ⟨key, hkey, rfl⟩
    exact h.link?_entry hready hkey
  · rw [held]
    by_cases hname : entryName key ∈ gone
    · obtain ⟨other, put, -, hsame, hput, hage⟩ := (hgone _).1 hname
      obtain rfl := entryName_inj hsame
      rw [entrySpot, hloses.lost _ hname, hput]
      simp [Option.filter, hage]
    · rw [entrySpot, hloses.leaf_of_not_mem hname]
      refine (h.leaf key hkey).trans (congrArg _ ?_)
      cases hheld : c.held key past with
      | none => rfl
      | some put =>
        refine (Option.filter_eq_some_iff.2 ⟨rfl, ?_⟩).symm
        by_contra hstale
        exact hname ((hgone _).2 ⟨key, put, hkey, rfl, hheld, by simpa using hstale⟩)

/-- What is found is what the map has. -/
theorem getAt (hat : c.IsAt base names) (hkey : IsKey key) (hpast : IsPast past now) :
    c.getAt key now s = (c.recalled past now key, s) := by
  rw [getAt_entry hat (h.way hready) hkey (h.link?_entry hready hkey), recalled_eq hpast]
  have hleaf := h.leaf key hkey
  congr 1
  cases hheld : c.held key past with
  | none =>
    rw [hheld] at hleaf
    rw [get?_eq_none.2 ⟨hleaf, h.folderAt_entry hready hkey⟩, ite_self]
    rfl
  | some put =>
    rw [hheld] at hleaf
    rw [hkey.overlong_entryName (fits_of_held hheld), if_neg Bool.false_ne_true,
      (leaf?_eq_some.1 hleaf).1]
    simp [isFresh, Entry.bytes?, Option.filter]

end Follows

theorem follows_served (hat : c.IsAt base names) (hready : c.Ready base root names start)
    (hpast : IsPast past now) : c.Follows root names start past (c.served start past) := by
  induction past generalizing now with
  | nil =>
    refine ⟨rfl, .refl .., fun key hkey => ?_⟩
    exact (get?_eq_none.1 (hready.get?_entry hkey)).1
  | cons request past ih =>
    have hearlier := ih hpast.earlier
    obtain ⟨time, request⟩ := request
    cases request with
    | put key bytes => exact hearlier.put hready hat (hpast.keys _ _ _ List.mem_cons_self) bytes
    | get key => exact hearlier.get key
    | evict => exact hearlier.evict hready hat

/-- A cache for an hour. -/
def hourly : Cache := ⟨⟨"/run/cache"⟩, .ofSecs 3600⟩

theorem isAt_hourly : hourly.IsAt ⟨"/run"⟩ ["cache"] where
  folder := by decide
  proper := by
    rintro name hname
    obtain rfl := List.mem_singleton.1 hname
    exact ⟨⟨by decide, by decide, by decide⟩, by decide⟩
  short := by decide
  ends := nofun

theorem ready_bare : hourly.Ready ⟨"/run"⟩ ["run"] ["cache"] Surroundings.bare where
  way :=
    { isRooted := Surroundings.isRooted_bare
      locate := by decide +kernel
      isFolder := by decide
      isPlain := fun name hname => (isAt_hourly.proper name hname).toIsPlain
      link? := fun _ _ => Surroundings.link?_bare _ }
  free := by decide +kernel
  empty name hthere := absurd (Surroundings.get?_bare (by simp)) hthere
  anew _ _ := Surroundings.get?_bare (by simp [asideSpot])

/-- The letter a, so many times. -/
def keyOfLength (n : Nat) : String := String.ofList (List.replicate n 'a')

theorem isKey_keyOfLength {n : Nat} (hn : n ≠ 0) : IsKey (keyOfLength n) where
  nonempty := by simpa [keyOfLength] using hn
  chars := fun c hc => by
    rw [keyOfLength, String.toList_ofList] at hc
    rw [List.eq_of_mem_replicate hc]
    decide

theorem not_fits_keyOfLength {n : Nat} (hn : 255 < n) : hourly.fits (keyOfLength n) = false := by
  have hchars := (isKey_keyOfLength (n := n) (by omega)).chars
  have hsize : (keyOfLength n).utf8ByteSize = n := by
    rw [keyOfLength, String.toList_ofList] at hchars
    rw [keyOfLength, utf8ByteSize_of_isAlphanum hchars, List.length_replicate]
  have hlong : 255 < (stagingName (keyOfLength n) (Text.hexPadded 32 0)).utf8ByteSize := by
    simp only [stagingName, String.utf8ByteSize_append, hsize]
    omega
  simp [fits, Path.overlong, hlong]

end Cache

end ResumePress
