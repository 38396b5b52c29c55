import Landscape.Proofs.Build.Unplaced
import Landscape.Proofs.Grammar.Unmoved
import Landscape.Reading

/-!
# Layout does not change the meaning

What a text means is what its tokens mean. Where they stand, and what blanks and
comments are between them, decides nothing: not whether the text is a document,
not what is reported, and not the model. Spans are copied into the tree and from
there into the findings, but no step of reading, of registering or of linking
looks at one.

The two halves of that are proved elsewhere, each for two runs at a time: the
grammar reads one document apart from places, or fails for one reason
(`Unmoved.document`), and documents that are equal apart from places are built
alike (`Document.build_unplaced`). Here they are put together.
-/

namespace Landscape

/-- Two readings that agree apart from places. Both reject their text and say the
same, or both give the same tree, from which the same is built under any policy,
whatever text it is then reported against. -/
inductive SameReading : Except Diagnostic Document → Except Diagnostic Document → Prop
  | rejected {e e' : Diagnostic} (said : e.unplaced = e'.unplaced) :
      SameReading (.error e) (.error e')
  | read {d d' : Document} (tree : d.unplaced = d'.unplaced)
      (model : ∀ (policy : Policy) (source source' : Option String),
        (d.build policy source).model = (d'.build policy source').model)
      (diagnostics : ∀ (policy : Policy) (source source' : Option String),
        (d.build policy source).diagnostics.map Diagnostic.unplaced =
          (d'.build policy source').diagnostics.map Diagnostic.unplaced) :
      SameReading (.ok d) (.ok d')

theorem Grammar.Failure.diagnostic_unplaced {f g : Failure} (h : f.unplaced = g.unplaced)
    (text text' : String) :
    (f.diagnostic text).unplaced = (g.diagnostic text').unplaced := by
  rw [diagnostic, diagnostic, Diagnostic.unplaced_placedIn, Diagnostic.unplaced_placedIn,
    message_eq h, expectedTexts, expectedTexts, expected_eq h]

theorem sameReading_documentOfLexemes {xs ys : List Lexeme}
    (h : xs.map Lexeme.token = ys.map Lexeme.token) (text text' : String) :
    SameReading (documentOfLexemes text xs) (documentOfLexemes text' ys) := by
  rw [documentOfLexemes, documentOfLexemes, Document.ofLexemes, Document.ofLexemes]
  have hreply := Grammar.Unmoved.document xs ys h
  generalize Grammar.document xs = r, Grammar.document ys = s at hreply ⊢
  cases hreply with
  | fail failure => exact .rejected (Grammar.Failure.diagnostic_unplaced failure text text')
  | ok tree _ _ =>
      exact .read tree
        (fun policy source source' => (Document.build_unplaced tree policy source source').1)
        (fun policy source source' => (Document.build_unplaced tree policy source source').2)

theorem documentOf_eq_documentOfLexemes {text : String} {xs : List Lexeme}
    (h : scan text = .ok xs) : documentOf text = documentOfLexemes text xs := by
  rw [documentOf, lexemesOf, h]
  rfl

/-- The same tokens in two layouts read the same, whatever texts they are said to
stand in. In particular the texts do that they were scanned from. -/
theorem documentOf_layout {xs ys : List Lexeme} (h : xs.map Lexeme.token = ys.map Lexeme.token) :
    (∀ text text', SameReading (documentOfLexemes text xs) (documentOfLexemes text' ys)) ∧
      ∀ text text', scan text = .ok xs → scan text' = .ok ys →
        SameReading (documentOf text) (documentOf text') := by
  refine ⟨sameReading_documentOfLexemes h, fun text text' hxs hys => ?_⟩
  rw [documentOf_eq_documentOfLexemes hxs, documentOf_eq_documentOfLexemes hys]
  exact sameReading_documentOfLexemes h text text'

/-- One domain written on a line, and written with a comment in it. -/
theorem documentOf_layout_comment :
    SameReading (documentOf "Domain D \x7b\x7d") (documentOf "Domain D // x\n\x7b \x7d") :=
  (@documentOf_layout
    [⟨.name "Domain", ⟨0, 6⟩⟩, ⟨.name "D", ⟨7, 8⟩⟩, ⟨.openBrace, ⟨9, 10⟩⟩,
      ⟨.closeBrace, ⟨10, 11⟩⟩]
    [⟨.name "Domain", ⟨0, 6⟩⟩, ⟨.name "D", ⟨7, 8⟩⟩, ⟨.openBrace, ⟨14, 15⟩⟩,
      ⟨.closeBrace, ⟨16, 17⟩⟩] rfl).2 _ _ (by decide +kernel) (by decide +kernel)

end Landscape
