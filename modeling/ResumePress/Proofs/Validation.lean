import ResumePress.Proofs.Placement
import ResumePress.Proofs.Surroundings
import ResumePress.Validation

/-!
What validation finds. For probes that answer by the name they are asked for, the errors are told in
closed form, kind by kind, and a template is valid exactly if its source has the shape of a document
and every probe finds what it looks for.
-/

namespace ResumePress

open Latex

/-- The reason of a crash. -/
def Probe.crash? : Probe → Option String
  | .answered _ => none
  | .crashed reason => some reason

namespace Validation

/-- The errors of one kind: that of the first crash, or else one for every name whose probe did not
find it. -/
def findings (kind : Kind) (answer : String → Probe) (names : List String) : List String :=
  match names.findSome? fun name => (answer name).crash? with
  | some reason => [kind.crashed reason]
  | none => (names.filter fun name => !(answer name).isPresent).map kind.missing

variable {σ : Type} {answer : String → Probe}

section Closed

variable {property : (α : Type) → Act σ α → Prop} (hclosed : Act.IsClosed property)
include hclosed

theorem unavailable_closed {probe : String → Act σ Probe} (h : ∀ name, property _ (probe name))
    (names : List String) : property _ (unavailable probe names) := by
  induction names with
  | nil => exact hclosed.pure _
  | cons name names ih =>
    refine hclosed.bind (h name) fun result => ?_
    split
    · exact hclosed.pure _
    · refine hclosed.bind ih fun result => ?_
      split <;> exact hclosed.pure _

theorem requirementErrors_closed {toolchain : Toolchain σ} {kind : Kind}
    (h : ∀ name, property _ (kind.probe toolchain name)) (t : Template) :
    property _ (requirementErrors toolchain t kind) := by
  refine hclosed.bind (unavailable_closed hclosed h _) fun result => ?_
  split <;> exact hclosed.pure _

/-- What holds of every probe holds of a validation. -/
theorem validate_closed {toolchain : Toolchain σ}
    (h : ∀ kind name, property _ (Kind.probe toolchain kind name)) (t : Template) :
    property _ (t.validate toolchain) := by
  have hkind := fun kind => requirementErrors_closed hclosed (h kind) t
  refine hclosed.bind ?_ fun _ => hclosed.pure _
  exact hclosed.bind (hkind .font) fun _ => hclosed.bind (hkind .package) fun _ => hclosed.pure _

end Closed

theorem findings_eq_nil_iff (kind : Kind) (names : List String) :
    findings kind answer names = [] ↔ ∀ name ∈ names, (answer name).isPresent = true := by
  unfold findings
  cases hcrash : names.findSome? fun name => (answer name).crash? with
  | none => simp [List.filter_eq_nil_iff]
  | some reason =>
    obtain ⟨name, hmem, hname⟩ := List.exists_of_findSome?_eq_some hcrash
    have habsent : (answer name).isPresent = false := by
      cases h : answer name with
      | answered a => simp [h, Probe.crash?] at hname
      | crashed _ => rfl
    apply iff_of_false
    · exact List.cons_ne_nil _ _
    · intro hall
      simp [hall name hmem] at habsent

theorem structuralErrors_eq_nil_iff (source : String) :
    structuralErrors source = [] ↔ className <:+: source.toList ∧
      beginDocument <:+: source.toList ∧ endDocument <:+: source.toList := by
  simp only [← Text.contains_iff_isInfix]
  cases hclass : Text.contains className source.toList <;>
    simp [structuralErrors, hasClass, hasEnvironment, hclass]

/-- A check asks for one name after the other until a probe crashes. -/
theorem unavailable_answer {probe : String → Act σ Probe}
    (h : ∀ name s, (probe name s).1 = answer name) (names : List String) (s : Surroundings σ) :
    (unavailable probe names s).1 =
      match names.findSome? fun name => (answer name).crash? with
      | some reason => .error reason
      | none => .ok (names.filter fun name => !(answer name).isPresent) := by
  induction names generalizing s with
  | nil => rfl
  | cons name rest ih =>
    rw [unavailable, Act.bind_apply, h name s, List.findSome?_cons]
    cases hprobe : answer name with
    | crashed reason => rfl
    | answered a =>
      have hpresent : (answer name).isPresent = a.isAvailable := by rw [hprobe]; rfl
      have hnone : (Probe.answered a).crash? = none := rfl
      dsimp only
      rw [Act.bind_apply, ih, hnone, List.filter_cons, hpresent]
      cases rest.findSome? fun name => (answer name).crash? with
      | some reason => rfl
      | none => cases a.isAvailable <;> rfl

theorem requirementErrors_answer {toolchain : Toolchain σ} {kind : Kind}
    (h : ∀ name s, (kind.probe toolchain name s).1 = answer name) (t : Template)
    (s : Surroundings σ) :
    (requirementErrors toolchain t kind s).1 = findings kind answer (kind.required t) := by
  rw [requirementErrors, Act.bind_apply, unavailable_answer h, findings]
  cases (kind.required t).findSome? fun name => (answer name).crash? <;> rfl

end Validation

open Validation

/-- The errors of a template are those of its shape, of its fonts and of its packages, and only they
decide whether it is valid. -/
theorem Template.validate_findings {σ : Type} (t : Template) (toolchain : Toolchain σ)
    (answer : Kind → String → Probe)
    (h : ∀ kind name s, (kind.probe toolchain name s).1 = answer kind name) (s : Surroundings σ) :
    (t.validate toolchain s).1.errors =
        structuralErrors t.source ++ findings .font (answer .font) t.fonts ++
          findings .package (answer .package) t.packages ∧
      ((t.validate toolchain s).1.isValid = true ↔
        (className <:+: t.source.toList ∧ beginDocument <:+: t.source.toList ∧
          endDocument <:+: t.source.toList) ∧
        (∀ font ∈ t.fonts, answer .font font = .answered .present) ∧
        ∀ package ∈ t.packages, answer .package package = .answered .present) := by
  have hfonts := requirementErrors_answer (h .font) t s
  have hpackages :=
    requirementErrors_answer (h .package) t (requirementErrors toolchain t .font s).2
  have herrors : (t.validate toolchain s).1.errors =
      structuralErrors t.source ++ findings .font (answer .font) t.fonts ++
        findings .package (answer .package) t.packages := by
    show structuralErrors t.source ++ ((requirementErrors toolchain t .font s).1 ++
      (requirementErrors toolchain t .package (requirementErrors toolchain t .font s).2).1) = _
    rw [hfonts, hpackages, List.append_assoc]
    rfl
  have hpresent : ∀ probe : Probe, probe.isPresent = true ↔ probe = .answered .present := by
    intro probe
    rcases probe with (_ | _ | _) | _ <;> simp [Probe.isPresent, Availability.isAvailable]
  have hvalid : (t.validate toolchain s).1.isValid = true ↔
      (t.validate toolchain s).1.errors = [] := by
    show (t.validate toolchain s).1.errors.isEmpty = true ↔ _
    exact List.isEmpty_iff
  refine ⟨herrors, ?_⟩
  rw [hvalid, herrors, List.append_eq_nil_iff, List.append_eq_nil_iff, structuralErrors_eq_nil_iff,
    findings_eq_nil_iff, findings_eq_nil_iff, and_assoc]
  simp only [hpresent]

-- A font that is required twice and cannot be looked for, and a crash behind a missing package.
theorem validate_findings_of_crash :
    let t := { Template.ofSource "\\documentclass\x7bcv\x7d" with
      fonts := ["Charter", "Lato", "Charter"], packages := ["moderncv", "calc", "array"] }
    let toolchain : Toolchain Unit :=
      { font := fun name => return .answered (if name = "Lato" then .present else .unchecked "slow")
        package := fun name => return if name = "calc" then .crashed "lost" else .answered .absent }
    let v := (t.validate toolchain .bare).1
    v.errors = ["Missing document environment", "Required font not installed: Charter",
        "Required font not installed: Charter", "Failed to check package requirements: lost"] ∧
      v.isValid = false := by
  intro t toolchain v
  let answer : Kind → String → Probe := fun kind name => (kind.probe toolchain name .bare).1
  obtain ⟨herrors, hvalid⟩ := Template.validate_findings t toolchain answer
    (fun kind _ _ => by cases kind <;> rfl) .bare
  refine ⟨herrors.trans (by decide +kernel), Bool.eq_false_iff.2 fun h => ?_⟩
  exact absurd (hvalid.1 h).2.1 (by decide +kernel)

end ResumePress
