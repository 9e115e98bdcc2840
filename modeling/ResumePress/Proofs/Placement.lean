import ResumePress.Proofs.Text.Occurrences
import ResumePress.Template.Content

/-!
Where contents are placed. A text that is placed in the body of a source is in the body of the
document: behind its beginning and before its end. A place outside of the body, or an end that only
arises where the text meets the source, keeps the text out of it.
-/

namespace ResumePress

open Latex Text

namespace Template

/-- What stands before and behind the place of a text in a source: around the first placeholder, or
else around the line before the last end of the body. -/
def seat? (placeholder source : List Char) : Option (List Char × List Char) :=
  match cut? placeholder source with
  | some parts => some parts
  | none =>
    (cutLast? endDocument source).map fun parts => (parts.1, '\n' :: endDocument ++ parts.2)

theorem place_eq (placeholder source text : List Char) :
    place placeholder source text =
      match seat? placeholder source with
      | some (before, after) => before ++ text ++ after
      | none => source := by
  unfold place seat?
  rcases cut? placeholder source with _ | ⟨before, after⟩
  · rcases cutLast? endDocument source with _ | ⟨before, after⟩
    · rfl
    · simp
  · rfl

theorem toList_render (t : Template) (p : Profile) (content : String) {before after : List Char}
    (hseat : seat? p.placeholder.toList t.source.toList = some (before, after)) :
    (t.render p content).toList = before ++ (t.adapt p content).toList ++ after := by
  rw [render, String.toList_ofList, place_eq, hseat]

end Template

/-- Two texts bring a needle together neither in themselves nor across their border. -/
theorem Text.not_infix_append {needle a b : List Char} (ha : ¬needle <:+: a)
    (hb : ¬needle <:+: b) (hborder : ¬Straddles needle a b) : ¬needle <:+: a ++ b := by
  intro h
  obtain ⟨before, after, hcut⟩ := exists_cut? h
  rw [cut?_append_right ha hborder] at hcut
  obtain ⟨_, hcut, -⟩ := Option.map_eq_some_iff.1 hcut
  exact hb (infix_of_cut? hcut)

/-- The body of a document reaches from the first beginning to the next end. -/
theorem Latex.body?_append {before preamble lead text after tail rest : List Char}
    (hbefore : cut? beginDocument before = some (preamble, lead))
    (hafter : cut? endDocument after = some (tail, rest))
    (hnone : ¬endDocument <:+: lead ++ text) (hborder : ¬Straddles endDocument (lead ++ text) after) :
    body? (before ++ text ++ after) = some (trim (lead ++ text ++ tail)) := by
  rw [body?, List.append_assoc, cut?_append hbefore, Option.bind_some]
  dsimp only
  rw [← List.append_assoc, cut?_append_right hnone hborder, hafter]
  rfl

namespace Template

/-- A content whose place has a beginning before it, no end between the two, and an end behind it is
in the body of the document, between what the source has there, as long as no end arises across the
borders of the content. -/
theorem render_body (t : Template) (p : Profile) (content : String)
    {before after preamble lead tail rest : List Char}
    (hseat : seat? p.placeholder.toList t.source.toList = some (before, after))
    (hbegin : cut? beginDocument before = some (preamble, lead))
    (hlead : ¬endDocument <:+: lead)
    (hend : cut? endDocument after = some (tail, rest))
    (hcontent : ¬endDocument <:+: (t.adapt p content).toList)
    (hfront : ¬Straddles endDocument lead (t.adapt p content).toList)
    (hback : ¬Straddles endDocument (lead ++ (t.adapt p content).toList) after) :
    ∃ body ∈ body? (t.render p content).toList,
      body = trim (lead ++ (t.adapt p content).toList ++ tail) ∧
        trim (t.adapt p content).toList <:+: body := by
  refine ⟨_, ?_, rfl, infix_trim ⟨lead, tail, rfl⟩⟩
  rw [toList_render t p content hseat]
  exact body?_append hbegin hend (not_infix_append hlead hcontent hfront) hback

end Template

/-- A template with a source alone. -/
def Template.ofSource (source : String) : Template where
  id := "Test"
  name := "Test"
  path := ⟨"templates/latex/Test.tex"⟩
  source := source
  description := none
  sourceUrl := none
  images := []
  fonts := []
  packages := []
  previewImage := none
  isDefault := false

-- The end is mentioned before the beginning, and both it and the placeholder behind the body.
theorem render_body_among_comments :
    let t := Template.ofSource ("% before \\end\x7bdocument\x7d\n\\begin\x7bdocument\x7d\nHi " ++
      "%RESUME_CONTENT%\n\\end\x7bdocument\x7d\n% %RESUME_CONTENT% \\end\x7bdocument\x7d\n")
    ∃ body ∈ body? (t.render .plain " Hello ").toList,
      body = trim ("\nHi ".toList ++ (t.adapt .plain " Hello ").toList ++ "\n".toList) ∧
        trim (t.adapt .plain " Hello ").toList <:+: body := by
  intro t
  have hseat : Template.seat? Profile.plain.placeholder.toList t.source.toList =
      some ("% before \\end\x7bdocument\x7d\n\\begin\x7bdocument\x7d\nHi ".toList,
        "\n\\end\x7bdocument\x7d\n% %RESUME_CONTENT% \\end\x7bdocument\x7d\n".toList) := by
    decide +kernel
  have hbegin : cut? beginDocument
      "% before \\end\x7bdocument\x7d\n\\begin\x7bdocument\x7d\nHi ".toList =
        some ("% before \\end\x7bdocument\x7d\n".toList, "\nHi ".toList) := by
    decide +kernel
  have hend : cut? endDocument
      "\n\\end\x7bdocument\x7d\n% %RESUME_CONTENT% \\end\x7bdocument\x7d\n".toList =
        some ("\n".toList, "\n% %RESUME_CONTENT% \\end\x7bdocument\x7d\n".toList) := by
    decide +kernel
  exact Template.render_body t .plain " Hello " hseat hbegin (by decide +kernel) hend
    (by decide +kernel) (by decide +kernel) (by decide +kernel)

/-- A source that has a body and a place for contents, and still the body of its document does not
have a content in it that mentions no border of a body. -/
def KeepsOut (source content : String) : Prop :=
  let t := Template.ofSource source
  let text := (t.adapt .plain content).toList
  (body? source.toList).isSome = true ∧ trim Profile.plain.placeholder.toList ≠ [] ∧
    endDocument <:+: source.toList ∧ ¬beginDocument <:+: text ∧ ¬endDocument <:+: text ∧
    ¬∃ body ∈ body? (t.render .plain content).toList, trim text <:+: body

instance (source content : String) : Decidable (KeepsOut source content) :=
  inferInstanceAs (Decidable (_ ∧ _ ∧ _ ∧ _ ∧ _ ∧ ¬∃ body ∈ body? _, _))

-- The placeholder in a comment before the body, an end in a comment behind it, and an end that the
-- content completes.
theorem content_outside_body :
    KeepsOut ("\\documentclass\x7barticle\x7d\n% %RESUME_CONTENT% marks the content\n" ++
        "\\begin\x7bdocument\x7d\n%RESUME_CONTENT%\n\\end\x7bdocument\x7d\n") "Hello" ∧
      KeepsOut ("\\begin\x7bdocument\x7d\nHi\n\\end\x7bdocument\x7d\n" ++
        "% \\end\x7bdocument\x7d\n") "Hello" ∧
      KeepsOut ("\\begin\x7bdocument\x7d\n\\end\x7b%RESUME_CONTENT%\n" ++
        "\\end\x7bdocument\x7d\n") "document\x7d" := by
  decide +kernel

end ResumePress
