import Mathlib.Data.List.Induction
import Mathlib.Data.List.Nodup
import Mathlib.Data.List.Pairwise
import ResumePress.Latex.Resolution

/-!
Laws of resolution. Merging is a fold, so it may start from what is merged already; what looks at
names only can be done before it as well as after it; and a package that supersedes another one is
never superseded itself. Hence lists of declarations may be resolved piece by piece.
-/

namespace ResumePress.Latex

theorem Declaration.text_of_parse? {raw : String} {d : Declaration}
    (h : Declaration.parse? raw = some d) : d.text = raw := by
  unfold Declaration.parse? at h
  split at h
  · cases h
  · obtain ⟨name, -, rfl⟩ := Option.map_eq_some_iff.1 h
    rfl

namespace Resolution

/-- The names of declarations, in their order. -/
def names (slots : List Declaration) : List String :=
  slots.map Declaration.name

variable {d e : Declaration} {slots declared : List Declaration} {name : String}

/-! ### Merging -/

theorem mem_insert (h : e ∈ insert d slots) : e = d ∨ e ∈ slots := by
  induction slots with
  | nil => exact .inl (List.mem_singleton.1 h)
  | cons f slots ih =>
    unfold insert at h
    split at h
    · split at h
      · exact (List.mem_cons.1 h).imp_right (List.mem_cons_of_mem f)
      · exact .inr h
    · rcases List.mem_cons.1 h with rfl | h
      · exact .inr List.mem_cons_self
      · exact (ih h).imp_right (List.mem_cons_of_mem f)

theorem names_insert (d : Declaration) (slots : List Declaration) :
    names (insert d slots) =
      if d.name ∈ names slots then names slots else names slots ++ [d.name] := by
  induction slots with
  | nil => rfl
  | cons e slots ih =>
    unfold insert
    split
    · rename_i h
      split <;> simp [names, h]
    · rename_i h
      have hne : d.name ≠ e.name := Ne.symm h
      have hcons : names (e :: slots) = e.name :: names slots := rfl
      show e.name :: names (insert d slots) = _
      rw [ih, hcons]
      by_cases hmem : d.name ∈ names slots <;> simp [hmem, hne]

/-- What declarations become when they are added one after the other. -/
def mergeInto (slots declared : List Declaration) : List Declaration :=
  declared.foldl (fun slots d => insert d slots) slots

theorem merge_append (a b : List Declaration) : merge (a ++ b) = mergeInto (merge a) b :=
  List.foldl_append

theorem merge_snoc (declared : List Declaration) (d : Declaration) :
    merge (declared ++ [d]) = insert d (merge declared) :=
  merge_append declared [d]

theorem mem_of_mem_merge (h : d ∈ merge declared) : d ∈ declared := by
  induction declared using List.reverseRecOn with
  | nil => exact h
  | append_singleton declared e ih =>
    rw [merge_snoc] at h
    rcases mem_insert h with rfl | h
    · simp
    · exact List.mem_append_left _ (ih h)

theorem mem_names_merge : name ∈ names (merge declared) ↔ name ∈ names declared := by
  induction declared using List.reverseRecOn with
  | nil => rfl
  | append_singleton declared d ih =>
    have hnames : names (declared ++ [d]) = names declared ++ [d.name] := List.map_append
    rw [merge_snoc, names_insert, hnames, List.mem_append, List.mem_singleton, ← ih]
    split
    · rename_i h
      exact ⟨.inl, fun h' => h'.elim id fun heq => heq ▸ h⟩
    · simp

theorem nodup_names_merge (declared : List Declaration) : (names (merge declared)).Nodup := by
  induction declared using List.reverseRecOn with
  | nil => exact List.nodup_nil
  | append_singleton declared d ih =>
    rw [merge_snoc, names_insert]
    split
    · exact ih
    · rename_i h
      simpa using List.Nodup.concat h ih

/-- The higher ranked of two declarations of one name stays, the first of equals. -/
theorem insert_insert (hname : e.name = d.name) (slots : List Declaration) :
    insert d (insert e slots) = insert (if e.priority < d.priority then d else e) slots := by
  induction slots with
  | nil =>
    simp only [insert, hname, if_true]
    split <;> rfl
  | cons f slots ih =>
    by_cases hf : f.name = d.name
    · by_cases hpriority : e.priority < d.priority
      · by_cases hfe : f.priority < e.priority <;>
          simp [insert, hf, hname, hpriority, hfe]
        omega
      · by_cases hfe : f.priority < e.priority <;>
          simp [insert, hf, hname, hpriority, hfe]
        omega
    · have hf' : f.name ≠ e.name := fun h => hf (h.trans hname)
      have hbest : f.name ≠ (if e.priority < d.priority then d else e).name := by
        split <;> assumption
      simp only [insert, hf, hf', hbest, if_false, ih]

/-- A name that is there already keeps its position, so another name may be added before. -/
theorem insert_comm (hne : e.name ≠ d.name) (hd : d.name ∈ names slots) :
    insert d (insert e slots) = insert e (insert d slots) := by
  induction slots with
  | nil => cases hd
  | cons f slots ih =>
    by_cases hf : f.name = d.name
    · have hfe : f.name ≠ e.name := fun h => hne (h.symm.trans hf)
      by_cases hpriority : f.priority < d.priority <;>
        simp [insert, hf, hpriority, hne.symm]
    · have hd' : d.name ∈ names slots :=
        (List.mem_cons.1 hd).resolve_left (Ne.symm hf)
      by_cases hfe : f.name = e.name
      · by_cases hpriority : f.priority < e.priority <;>
          simp [insert, hfe, hpriority, hne]
      · simp only [insert, hf, hfe, if_false, ih hd']

theorem insert_mergeInto (hmem : d.name ∈ names slots) (hnot : d.name ∉ names declared) :
    insert d (mergeInto slots declared) = mergeInto (insert d slots) declared := by
  induction declared generalizing slots with
  | nil => rfl
  | cons e declared ih =>
    simp only [names, List.map_cons, List.mem_cons, not_or] at hnot
    have hmem' : d.name ∈ names (insert e slots) := by
      rw [names_insert]
      split
      · exact hmem
      · exact List.mem_append_left _ hmem
    show insert d (mergeInto (insert e slots) declared) =
      mergeInto (insert e (insert d slots)) declared
    rw [ih hmem' hnot.2, insert_comm (Ne.symm hnot.1) hmem]

theorem mergeInto_insert (hnodup : (names declared).Nodup) (slots : List Declaration)
    (d : Declaration) : mergeInto slots (insert d declared) = insert d (mergeInto slots declared) := by
  induction declared generalizing slots with
  | nil => rfl
  | cons e declared ih =>
    obtain ⟨hnot, hnodup⟩ := List.nodup_cons.1 hnodup
    by_cases hname : e.name = d.name
    · -- the two stand in one slot on the left, and are added one after the other on the right
      have hmem : d.name ∈ names (insert e slots) := by
        rw [names_insert, hname]
        split
        · assumption
        · simp
      have hright : insert d (mergeInto slots (e :: declared)) =
          mergeInto (insert d (insert e slots)) declared :=
        insert_mergeInto hmem (hname ▸ hnot)
      rw [hright, insert_insert hname, insert, if_pos hname]
      split <;> rfl
    · rw [insert, if_neg hname]
      exact ih hnodup (insert e slots)

/-- Declarations may be merged among themselves before they are added. -/
theorem mergeInto_merge (slots declared : List Declaration) :
    mergeInto slots (merge declared) = mergeInto slots declared := by
  induction declared using List.reverseRecOn with
  | nil => rfl
  | append_singleton declared d ih =>
    rw [merge_snoc, mergeInto_insert (nodup_names_merge declared), ih, mergeInto, mergeInto,
      List.foldl_append]
    rfl

theorem merge_merge_append (a b : List Declaration) :
    merge (merge a ++ merge b) = merge (a ++ b) := by
  have hmerged : merge (merge a) = merge a := mergeInto_merge [] a
  rw [merge_append, merge_append, hmerged, mergeInto_merge]

/-! ### Choosing by name -/

/-- The declarations whose names pass a test. -/
def named (test : String → Bool) (slots : List Declaration) : List Declaration :=
  slots.filter fun d => test d.name

theorem named_insert (test : String → Bool) (d : Declaration) (slots : List Declaration) :
    named test (insert d slots) =
      if test d.name then insert d (named test slots) else named test slots := by
  induction slots with
  | nil =>
    unfold named insert
    cases h : test d.name <;> simp [h]
  | cons e slots ih =>
    by_cases hname : e.name = d.name
    · by_cases hpriority : e.priority < d.priority <;> cases h : test d.name <;>
        simp [named, insert, hname, hpriority, h]
    · simp only [insert, hname, if_false]
      cases he : test e.name
      · simpa [named, he] using ih
      · cases h : test d.name <;> simpa [named, he, h, insert, hname] using ih

theorem named_merge (test : String → Bool) (declared : List Declaration) :
    named test (merge declared) = merge (named test declared) := by
  induction declared using List.reverseRecOn with
  | nil => rfl
  | append_singleton declared d ih =>
    rw [merge_snoc, named_insert, ih]
    cases h : test d.name
    · simp [named, h]
    · have hnamed : named test (declared ++ [d]) = named test declared ++ [d] := by
        simp [named, h]
      rw [hnamed, merge_snoc, if_pos rfl]

/-! ### Superseded packages -/

theorem isSuperseded_eq_true :
    isSuperseded slots name = true ↔
      ∃ pair ∈ supersessions, pair.2 = name ∧ pair.1 ∈ names slots := by
  simp [isSuperseded, names]

/-- No package that supersedes another one is superseded itself. -/
theorem isSuperseded_fst (slots : List Declaration) {pair : String × String}
    (h : pair ∈ supersessions) : isSuperseded slots pair.1 = false := by
  have hchain : ∀ p ∈ supersessions, ∀ q ∈ supersessions, q.2 ≠ p.1 := by decide
  refine Bool.eq_false_iff.2 fun hsuperseded => ?_
  obtain ⟨other, hother, heq, -⟩ := isSuperseded_eq_true.1 hsuperseded
  exact hchain pair h other hother heq

theorem mem_arrange :
    d ∈ arrange slots ↔ d ∈ slots ∧ isSuperseded slots d.name = false := by
  cases h : isCommon d.name <;> simp [arrange, h]

theorem mem_names_arrange :
    name ∈ names (arrange slots) ↔ name ∈ names slots ∧ isSuperseded slots name = false := by
  constructor
  · intro h
    obtain ⟨d, hd, rfl⟩ := List.mem_map.1 h
    obtain ⟨hslot, hkept⟩ := mem_arrange.1 hd
    exact ⟨List.mem_map_of_mem hslot, hkept⟩
  · rintro ⟨h, hkept⟩
    obtain ⟨d, hd, rfl⟩ := List.mem_map.1 h
    exact List.mem_map_of_mem (mem_arrange.2 ⟨hd, hkept⟩)

theorem nodup_names_arrange {slots : List Declaration} (h : (names slots).Nodup) :
    (names (arrange slots)).Nodup := by
  have hsplit : (arrange slots).Perm (slots.filter fun d => !isSuperseded slots d.name) :=
    List.filter_append_perm ..
  exact ((hsplit.map Declaration.name).nodup_iff).2 (h.sublist (List.filter_sublist.map _))

theorem isSuperseded_merge_mono {a b : List Declaration}
    (hsubset : ∀ name ∈ names a, name ∈ names b)
    (h : isSuperseded (merge b) name = false) : isSuperseded (merge a) name = false := by
  rw [Bool.eq_false_iff, Ne, isSuperseded_eq_true] at h ⊢
  rintro ⟨pair, hpair, heq, hmem⟩
  exact h ⟨pair, hpair, heq, mem_names_merge.2 (hsubset _ (mem_names_merge.1 hmem))⟩

/-- What is superseded by the pieces is superseded by the whole. -/
theorem isSuperseded_pieces (a b : List Declaration) (name : String) :
    isSuperseded (merge (arrange (merge a) ++ arrange (merge b))) name =
      isSuperseded (merge (a ++ b)) name := by
  have hkept : ∀ pair ∈ supersessions, ∀ c : List Declaration,
      pair.1 ∈ names (arrange (merge c)) ↔ pair.1 ∈ names c := by
    intro pair hpair c
    rw [mem_names_arrange, mem_names_merge]
    exact and_iff_left (isSuperseded_fst _ hpair)
  have happend : ∀ c c' : List Declaration, names (c ++ c') = names c ++ names c' :=
    fun _ _ => List.map_append
  rw [Bool.eq_iff_iff, isSuperseded_eq_true, isSuperseded_eq_true]
  refine exists_congr fun pair => and_congr_right fun hpair => and_congr_right fun _ => ?_
  rw [mem_names_merge, mem_names_merge, happend, happend, List.mem_append, List.mem_append,
    hkept pair hpair, hkept pair hpair]

/-! ### Resolving piece by piece -/

theorem named_named_of_imp {test keep : String → Bool}
    (h : ∀ name, test name = true → keep name = true) (slots : List Declaration) :
    named test (named keep slots) = named test slots := by
  simp only [named, List.filter_filter]
  refine List.filter_congr fun d _ => ?_
  cases htest : test d.name
  · rfl
  · simp [h _ htest]

theorem named_named_of_not {test drop : String → Bool}
    (h : ∀ name, test name = true → drop name = false) (slots : List Declaration) :
    named test (named drop slots) = [] := by
  simp only [named, List.filter_filter, List.filter_eq_nil_iff, Bool.and_eq_true, not_and]
  intro d _ htest
  simp [h _ htest]

/-- Within one of the two classes the arrangement keeps the order. -/
theorem named_arrange {test : String → Bool} (common : Bool)
    (hkept : ∀ name, test name = true → isSuperseded slots name = false)
    (hclass : ∀ name, test name = true → isCommon name = common) :
    named test (arrange slots) = named test slots := by
  have hstays : ∀ name, test name = true → (!isSuperseded slots name) = true := by
    intro name h
    rw [hkept name h]
    rfl
  have hsplit : named test (arrange slots) =
      named test (named isCommon (named (fun name => !isSuperseded slots name) slots)) ++
        named test (named (fun name => !isCommon name)
          (named (fun name => !isSuperseded slots name) slots)) :=
    List.filter_append ..
  rw [hsplit]
  cases common with
  | true =>
    have hother : ∀ name, test name = true → (!isCommon name) = false := by simpa using hclass
    rw [named_named_of_imp hclass, named_named_of_not hother, named_named_of_imp hstays,
      List.append_nil]
  | false =>
    have hother : ∀ name, test name = true → (!isCommon name) = true := by simpa using hclass
    rw [named_named_of_not hclass, named_named_of_imp hother, named_named_of_imp hstays,
      List.nil_append]

theorem arrange_eq_append (slots : List Declaration) :
    arrange slots =
      named (fun name => !isSuperseded slots name && isCommon name) slots ++
        named (fun name => !isSuperseded slots name && !isCommon name) slots := by
  simp only [arrange, named, List.filter_filter, Bool.and_comm]

theorem arrange_pieces (a b : List Declaration) :
    arrange (merge (arrange (merge a) ++ arrange (merge b))) = arrange (merge (a ++ b)) := by
  -- one class of the packages that the whole keeps
  have hclass : ∀ (test : String → Bool) (common : Bool),
      (∀ name, test name = true → isSuperseded (merge (a ++ b)) name = false) →
      (∀ name, test name = true → isCommon name = common) →
      named test (merge (arrange (merge a) ++ arrange (merge b))) =
        named test (merge (a ++ b)) := by
    intro test common hkept hcommon
    have ha : named test (arrange (merge a)) = named test (merge a) :=
      named_arrange common (fun name h => isSuperseded_merge_mono
        (fun name hname => by simp_all [names]) (hkept name h)) hcommon
    have hb : named test (arrange (merge b)) = named test (merge b) :=
      named_arrange common (fun name h => isSuperseded_merge_mono
        (fun name hname => by simp_all [names]) (hkept name h)) hcommon
    have happend : ∀ c c' : List Declaration, named test (c ++ c') = named test c ++ named test c' :=
      fun _ _ => List.filter_append ..
    rw [named_merge, happend, ha, hb, named_merge, named_merge, merge_merge_append, named_merge,
      happend]
  rw [arrange_eq_append (merge (_ ++ _)), arrange_eq_append (merge (a ++ b))]
  simp only [isSuperseded_pieces]
  rw [hclass _ true (by simp +contextual) (by simp), hclass _ false (by simp +contextual) (by simp)]

/-- A declaration that stays is read off its own text. -/
theorem parse?_text {raw : List String}
    (h : d ∈ arrange (merge (raw.filterMap Declaration.parse?))) :
    Declaration.parse? d.text = some d := by
  obtain ⟨r, -, hr⟩ := List.mem_filterMap.1 (mem_of_mem_merge (mem_arrange.1 h).1)
  rw [Declaration.text_of_parse? hr, hr]

theorem filterMap_parse?_resolve (raw : List String) :
    (resolve raw).filterMap Declaration.parse? =
      arrange (merge (raw.filterMap Declaration.parse?)) := by
  show List.filterMap Declaration.parse?
    (List.map Declaration.text (arrange (merge (raw.filterMap Declaration.parse?)))) = _
  rw [List.filterMap_map]
  exact (List.filterMap_congr fun _ => parse?_text).trans List.filterMap_some

/-- An entry of a resolution is the text of one of the declarations that stay. -/
theorem exists_of_mem_resolve {raw : List String} {r : String} (h : r ∈ resolve raw) :
    ∃ d ∈ arrange (merge (raw.filterMap Declaration.parse?)), Declaration.parse? r = some d := by
  obtain ⟨d, hd, rfl⟩ := List.mem_map.1 h
  exact ⟨d, hd, parse?_text hd⟩

theorem mem_of_mem_resolve {raw : List String} {r : String} (h : r ∈ resolve raw) : r ∈ raw := by
  obtain ⟨d, hd, rfl⟩ := List.mem_map.1 h
  obtain ⟨r, hr, hread⟩ := List.mem_filterMap.1 (mem_of_mem_merge (mem_arrange.1 hd).1)
  rwa [Declaration.text_of_parse? hread]

theorem nodup_resolve (raw : List String) : (resolve raw).Nodup := by
  have hnodup := nodup_names_arrange (nodup_names_merge (raw.filterMap Declaration.parse?))
  refine List.Nodup.map_on (fun d hd e he heq => ?_) (List.Nodup.of_map _ hnodup)
  have hread := parse?_text hd
  rw [heq, parse?_text he] at hread
  exact (Option.some.inj hread).symm

end Resolution

open Resolution

theorem resolve_resolve_append (a b : List String) :
    resolve (resolve a ++ resolve b) = resolve (a ++ b) := by
  show ((arrange (merge ((resolve a ++ resolve b).filterMap Declaration.parse?))).map
    Declaration.text) = ((arrange (merge ((a ++ b).filterMap Declaration.parse?))).map
      Declaration.text)
  rw [List.filterMap_append, filterMap_parse?_resolve, filterMap_parse?_resolve, arrange_pieces,
    List.filterMap_append]

theorem resolve_resolve (a : List String) : resolve (resolve a) = resolve a := by
  have h := resolve_resolve_append a []
  have hnil : resolve [] = [] := rfl
  rwa [hnil, List.append_nil, List.append_nil] at h

/-- Resolving a part of a list beforehand, and with it dropping what that part supersedes, changes
no later result, and nothing that was resolved is skipped. -/
theorem resolve_piecewise (a b : List String) :
    resolve (resolve a ++ resolve b) = resolve (a ++ b) ∧
      resolve (resolve a) = resolve a ∧
      (Resolution.ofDeclarations (resolve a ++ resolve b)).skipped = [] ∧
      ∀ before after, resolve (before ++ resolve a ++ after) = resolve (before ++ a ++ after) := by
  refine ⟨resolve_resolve_append a b, resolve_resolve a, ?_, fun before after => ?_⟩
  · refine List.filter_eq_nil_iff.2 fun r hr => ?_
    have hread : ∃ d, Declaration.parse? r = some d := by
      rcases List.mem_append.1 hr with hr | hr <;>
        exact (exists_of_mem_resolve hr).imp fun _ => And.right
    obtain ⟨d, hread⟩ := hread
    simp [hread]
  · have hbefore : resolve (before ++ resolve a) = resolve (before ++ a) := by
      rw [← resolve_resolve_append before (resolve a), resolve_resolve, resolve_resolve_append]
    calc resolve (before ++ resolve a ++ after)
        = resolve (resolve (before ++ resolve a) ++ resolve after) :=
          (resolve_resolve_append _ _).symm
      _ = resolve (resolve (before ++ a) ++ resolve after) := by rw [hbefore]
      _ = resolve (before ++ a ++ after) := resolve_resolve_append _ _

end ResumePress.Latex
