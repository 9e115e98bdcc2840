import ResumePress.Text.Pattern

/-!
Scans of texts. A scan goes through a text match by match and character by character, and so does
what is proved about it.
-/

namespace ResumePress.Text.Pattern

variable {α : Type} {p : Pattern α} {s part : List Char} {a : α}

/-- Facts about a text follow the scan of it. -/
@[elab_as_elim]
theorem scan_induction (p : Pattern α) {motive : List Char → Prop} (nil : motive [])
    (plain : ∀ c s, p.matchAt (c :: s) = none → motive s → motive (c :: s))
    (hit : ∀ part a rest, p.matchAt (part ++ rest) = some (part, a) → motive rest →
      motive (part ++ rest)) (s : List Char) : motive s := by
  match s with
  | [] => exact nil
  | c :: s =>
    cases h : p.matchAt (c :: s) with
    | none => exact plain c s h (scan_induction p nil plain hit s)
    | some found =>
      obtain ⟨part, a⟩ := found
      obtain ⟨rest, hrest⟩ := p.isPrefix h
      have hpos := List.length_pos_iff.2 (p.ne_nil h)
      rw [← hrest] at h ⊢
      exact hit part a rest h (scan_induction p nil plain hit rest)
termination_by s.length
decreasing_by
  · simp
  · rw [← hrest, List.length_append]
    omega

theorem scan_append_of_matchAt {rest : List Char} (h : p.matchAt (part ++ rest) = some (part, a)) :
    p.scan (part ++ rest) = .hit part a :: p.scan rest := by
  rw [scan_of_matchAt p h, List.drop_left]

theorem hits_cons_of_none {c : Char} (h : p.matchAt (c :: s) = none) :
    p.hits (c :: s) = p.hits s := by
  rw [hits, scan_cons_of_none p h]
  rfl

theorem hits_append_of_matchAt {rest : List Char} (h : p.matchAt (part ++ rest) = some (part, a)) :
    p.hits (part ++ rest) = (part, a) :: p.hits rest := by
  rw [hits, scan_append_of_matchAt h]
  rfl

/-- Every match of a scan stands somewhere. -/
theorem matchAt_of_mem_scan (h : .hit part a ∈ p.scan s) :
    ∃ rest, p.matchAt (part ++ rest) = some (part, a) := by
  induction s using p.scan_induction with
  | nil => exact absurd h List.not_mem_nil
  | plain c s hnone ih =>
    rw [scan_cons_of_none p hnone, List.mem_cons] at h
    rcases h with h | h
    · cases h
    · exact ih h
  | hit part' a' rest hmatch ih =>
    rw [scan_append_of_matchAt hmatch, List.mem_cons] at h
    rcases h with h | h
    · cases h
      exact ⟨rest, hmatch⟩
    · exact ih h

/-- Where the matches of a scan stand, behind `start` characters. -/
def spansFrom (start : Nat) : List (Piece α) → List (Nat × Nat)
  | [] => []
  | .plain _ :: rest => spansFrom (start + 1) rest
  | .hit part _ :: rest => (start, start + part.length) :: spansFrom (start + part.length) rest

/-- Where the matches of a text stand: from a position up to another one. -/
def spans (p : Pattern α) (s : List Char) : List (Nat × Nat) :=
  spansFrom 0 (p.scan s)

theorem spansFrom_add (start shift : Nat) (pieces : List (Piece α)) :
    spansFrom (start + shift) pieces =
      (spansFrom start pieces).map fun span => (span.1 + shift, span.2 + shift) := by
  induction pieces generalizing start with
  | nil => rfl
  | cons piece pieces ih =>
    cases piece with
    | plain c =>
      rw [spansFrom, spansFrom, ← ih, Nat.add_right_comm]
    | hit part a =>
      rw [spansFrom, spansFrom, List.map_cons, ← ih, Nat.add_right_comm]

theorem spans_cons_of_none {c : Char} (h : p.matchAt (c :: s) = none) :
    p.spans (c :: s) = (p.spans s).map fun span => (span.1 + 1, span.2 + 1) := by
  rw [spans, scan_cons_of_none p h, spansFrom, spansFrom_add]
  rfl

theorem spans_append_of_matchAt {rest : List Char}
    (h : p.matchAt (part ++ rest) = some (part, a)) :
    p.spans (part ++ rest) = (0, part.length) ::
      (p.spans rest).map fun span => (span.1 + part.length, span.2 + part.length) := by
  rw [spans, scan_append_of_matchAt h, spansFrom, spansFrom_add, Nat.zero_add]
  rfl

/-- A pattern occurs exactly where it matches at some position. -/
theorem occursIn_iff : p.occursIn s = true ↔ ∃ rest, rest <:+ s ∧ (p.matchAt rest).isSome := by
  unfold occursIn first?
  induction s using p.scan_induction with
  | nil =>
    constructor
    · intro h
      cases h
    · rintro ⟨rest, hrest, hmatch⟩
      obtain ⟨⟨part, a⟩, hsome⟩ := Option.isSome_iff_exists.1 hmatch
      obtain rfl := List.suffix_nil.1 hrest
      exact absurd (List.prefix_nil.1 (p.isPrefix hsome)) (p.ne_nil hsome)
  | plain c s hnone ih =>
    rw [hits_cons_of_none hnone, ih]
    constructor
    · rintro ⟨rest, hrest, hmatch⟩
      exact ⟨rest, hrest.trans (List.suffix_cons c s), hmatch⟩
    · rintro ⟨rest, hrest, hmatch⟩
      rcases List.suffix_cons_iff.1 hrest with rfl | hrest
      · rw [hnone] at hmatch
        cases hmatch
      · exact ⟨rest, hrest, hmatch⟩
  | hit part a rest hmatch ih =>
    rw [hits_append_of_matchAt hmatch]
    have hfound : (p.matchAt (part ++ rest)).isSome := by rw [hmatch, Option.isSome_some]
    exact iff_of_true rfl ⟨_, List.suffix_rfl, hfound⟩

theorem mem_values : a ∈ p.values s ↔ ∃ part, .hit part a ∈ p.scan s := by
  unfold values hits
  constructor
  · intro h
    obtain ⟨⟨part, _⟩, hmem, rfl⟩ := List.mem_map.1 h
    obtain ⟨piece, hpiece, heq⟩ := List.mem_filterMap.1 hmem
    cases piece with
    | plain c => cases heq
    | hit part a =>
      cases heq
      exact ⟨_, hpiece⟩
  · rintro ⟨part, h⟩
    exact List.mem_map.2 ⟨(part, a), List.mem_filterMap.2 ⟨_, h, rfl⟩, rfl⟩

end ResumePress.Text.Pattern
