import Landscape.Proofs.Grammar.MendsDocument
import Landscape.Proofs.Text.ByteOrder
import Landscape.Reading

/-!
# A syntax error blames the right lexeme

Lexemes that are no document are refused with one diagnostic, and it stands at
one lexeme or at the end. Declarations are read one after the other, and the
failure that is reported is the furthest one, of all alternatives that were given
up on the way and at any depth. So that what it stands at is the mistake, or
comes before it, has two halves (`documentOfLexemes_blames`): it is not within
the declarations that were read, and what is in front of it can be gone on with
into a document.

The first half is that a repetition has the failure of the round that it ended
with in doubt. The second half is `Mends.elements`. The rest is about what the
diagnostic says: the expectations are sorted by the order of texts, which is that
of their bytes, and told once.
-/

namespace Landscape

open Grammar

/-! ## What was expected -/

/-- A list in increasing order keeps one of each after a repeated one is dropped. -/
theorem pairwise_lt_of_sorted {texts : List String} (h : texts.Pairwise (· ≤ ·)) :
    let once := texts.foldr
      (fun text rest => if rest.head? = some text then rest else text :: rest) []
    once.Pairwise (· < ·) ∧ ∀ text ∈ once, text ∈ texts := by
  induction texts with
  | nil => exact ⟨.nil, nofun⟩
  | cons text texts ih =>
      obtain ⟨hle, hsorted⟩ := List.pairwise_cons.1 h
      obtain ⟨hincreasing, hmem⟩ := ih hsorted
      simp only [List.foldr_cons]
      generalize texts.foldr _ [] = rest at *
      split
      · exact ⟨hincreasing, fun t ht => List.mem_cons_of_mem _ (hmem t ht)⟩
      · next hne =>
          refine ⟨List.pairwise_cons.2 ⟨fun t ht => ?_, hincreasing⟩, ?_⟩
          · cases rest with
            | nil => cases ht
            | cons first rest =>
                have hfirst : text < first := by
                  refine Std.lt_of_le_of_ne (hle _ (hmem _ List.mem_cons_self)) ?_
                  rintro rfl
                  exact hne rfl
                rcases List.mem_cons.1 ht with rfl | ht
                · exact hfirst
                · exact String.lt_trans hfirst (List.rel_of_pairwise_cons hincreasing ht)
          · intro t ht
            rcases List.mem_cons.1 ht with rfl | ht
            · exact List.mem_cons_self
            · exact List.mem_cons_of_mem _ (hmem t ht)

theorem Grammar.Failure.expectedTexts_increasing (f : Failure) :
    f.expectedTexts.Pairwise (· < ·) := by
  have hsorted : ((f.expected.map Expectation.text).mergeSort fun a b => decide (a ≤ b)).Pairwise
      fun a b => decide (a ≤ b) = true :=
    List.pairwise_mergeSort
      (fun a b c hab hbc => by
        simp only [decide_eq_true_eq] at *
        exact String.le_trans hab hbc)
      (fun a b => by simpa using String.le_total a b) _
  exact (pairwise_lt_of_sorted (by simpa using hsorted)).1

/-! ## Where reading stopped -/

/-- What is reported of lexemes that are no document is where their declarations
stop, and that is not within those that were read. -/
theorem Document.exists_of_ofLexemes_eq_error {lexemes : List Lexeme} {failure : Failure}
    (h : ofLexemes lexemes = .error failure) :
    ∃ elements unread f, Parser.many element lexemes = .ok elements unread (some f) ∧
      f.rest.length ≤ unread.length ∧ failure.rest = f.rest := by
  obtain ⟨elements, unread, f, hmany, hle⟩ := Doubts.many .element .element lexemes
  refine ⟨elements, unread, f, hmany, hle, ?_⟩
  rw [ofLexemes, document_eq, hmany] at h
  cases unread with
  | nil => cases h
  | cons found rest =>
      obtain rfl := Except.error.inj h
      rcases Failure.rest_furthest ⟨found :: rest, [.endOfInput]⟩ f with ⟨hplace, hge⟩ | ⟨hplace, -⟩
      · have hunread := (Remains.many .element).suffix hmany
        have hstops : (Parser.many element lexemes).StopsAt f := hmany ▸ .ok hle
        have hdoubt := hstops.suffix (.many .element)
        refine hplace.trans ?_
        exact ((List.suffix_of_suffix_length_le hdoubt hunread hle).eq_of_length
          (Nat.le_antisymm hle hge)).symm
      · exact hplace

/-! ## Diagnostics -/

/-- A diagnostic has the line and the column of an offset, counted from one. -/
structure Diagnostic.LocatedAt (x : Diagnostic) (source : String) (o : Nat) : Prop where
  line_eq : x.line = some ((positionIn source o).line + 1)
  column_eq : x.column = some ((positionIn source o).column + 1)

theorem Grammar.Failure.diagnostic_of_cons {f : Failure} {found : Lexeme} {rest : List Lexeme}
    (h : f.rest = found :: rest) (source : String) :
    (f.diagnostic source).message = "Unexpected " ++ found.token.describe ∧
      (f.diagnostic source).LocatedAt source (min found.span.start source.utf8ByteSize) := by
  obtain ⟨_, expected⟩ := f
  subst h
  exact ⟨rfl, rfl, rfl⟩

theorem Grammar.Failure.diagnostic_of_nil {f : Failure} (h : f.rest = []) (source : String) :
    (f.diagnostic source).message = "Unexpected end of input" ∧
      (f.diagnostic source).LocatedAt source source.utf8ByteSize := by
  obtain ⟨_, expected⟩ := f
  subst h
  have hend : min source.utf8ByteSize source.utf8ByteSize = source.utf8ByteSize := Nat.min_self _
  exact ⟨rfl, hend ▸ rfl, hend ▸ rfl⟩

theorem Grammar.Failure.expected_diagnostic (f : Failure) (source : String) :
    (f.diagnostic source).expected = none ∨ ∃ texts, (f.diagnostic source).expected = some texts ∧
      texts ≠ [] ∧ texts.Pairwise fun a b => Text.utf8Bytes a < Text.utf8Bytes b := by
  have hexpected : (f.diagnostic source).expected =
      if f.expectedTexts.isEmpty then none else some f.expectedTexts := rfl
  rw [hexpected]
  split
  · exact .inl rfl
  · next hne =>
      exact .inr ⟨_, rfl, fun hnil => hne (by rw [hnil]; rfl),
        f.expectedTexts_increasing.imp Text.utf8Bytes_lt_iff.2⟩

/-- A diagnostic blames the lexeme with the number `e`, or the end if there is no
such lexeme. -/
structure Diagnostic.Blames (x : Diagnostic) (source : String) (lexemes : List Lexeme)
    (e : Nat) : Prop where
  severity_eq : x.severity = .error
  code_eq : x.code = some Code.syntaxError.text
  lexeme : ∀ found, lexemes[e]? = some found →
    x.message = "Unexpected " ++ found.token.describe ∧
      x.LocatedAt source (min found.span.start source.utf8ByteSize)
  endOfInput : lexemes[e]? = none →
    x.message = "Unexpected end of input" ∧ x.LocatedAt source source.utf8ByteSize
  /-- What is in front of it is the beginning of a document. -/
  blameless : ∃ more d, documentOfLexemes source (lexemes.take e ++ more) = .ok d
  expected : x.expected = none ∨ ∃ texts, x.expected = some texts ∧ texts ≠ [] ∧
    texts.Pairwise fun a b => Text.utf8Bytes a < Text.utf8Bytes b

theorem documentOfLexemes_blames {source : String} {lexemes : List Lexeme} {x : Diagnostic}
    (h : documentOfLexemes source lexemes = .error x) :
    ∃ elements read unread doubt e,
      Parser.many element lexemes = .ok elements unread doubt ∧ lexemes = read ++ unread ∧
        read.length ≤ e ∧ e ≤ lexemes.length ∧ x.Blames source lexemes e := by
  obtain ⟨failure, hfails, rfl⟩ : ∃ failure, Document.ofLexemes lexemes = .error failure ∧
      failure.diagnostic source = x := by
    rw [documentOfLexemes] at h
    split at h
    · cases h
    · next failure hfails => exact ⟨failure, hfails, Except.error.inj h⟩
  obtain ⟨elements, unread, f, hmany, hle, hplace⟩ := Document.exists_of_ofLexemes_eq_error hfails
  obtain ⟨read, hread⟩ := (Remains.many .element).suffix hmany
  obtain ⟨front, more, hlexemes, htakes⟩ := Mends.elements.mended lexemes f (hmany ▸ .ok hle)
  refine ⟨elements, read, unread, some f, front.length, hmany, hread.symm, ?_, ?_, ?_⟩
  · have hlength := congrArg List.length (hread.trans hlexemes)
    simp only [List.length_append] at hlength
    omega
  · rw [hlexemes, List.length_append]
    exact Nat.le_add_right _ _
  have hblamed : lexemes[front.length]? = f.rest.head? := by
    rw [hlexemes, List.getElem?_append_right (Nat.le_refl _), Nat.sub_self, List.head?_eq_getElem?]
  refine ⟨rfl, rfl, fun found hfound => ?_, fun hnone => ?_, ?_, failure.expected_diagnostic source⟩
  · obtain ⟨rest, hrest⟩ := List.head?_eq_some_iff.1 (hblamed.symm.trans hfound)
    exact failure.diagnostic_of_cons (hplace.trans hrest) source
  · exact failure.diagnostic_of_nil
      (hplace.trans (List.head?_eq_none_iff.1 (hblamed.symm.trans hnone))) source
  · obtain ⟨elements', doubt, hmended⟩ := htakes [] rfl
    rw [List.append_nil] at hmended
    refine ⟨more, ⟨elements'⟩, ?_⟩
    have hdocument : Document.ofLexemes (front ++ more) = .ok ⟨elements'⟩ :=
      Document.ofLexemes_eq_ok_iff.2 ⟨doubt, hmended⟩
    rw [hlexemes, List.take_left, documentOfLexemes, hdocument]

/-- A keyword in the body of a domain without the name that should come next. The
declarations in front of the body are only two lexemes. -/
theorem namelessEntity_blames :
    let lexemes : List Lexeme := [⟨.name "Domain", ⟨0, 6⟩⟩, ⟨.name "A", ⟨7, 8⟩⟩,
      ⟨.openBrace, ⟨9, 10⟩⟩, ⟨.name "Entity", ⟨11, 17⟩⟩, ⟨.closeBrace, ⟨18, 19⟩⟩]
    let failure : Failure := ⟨lexemes.drop 4, [.name, .token .equals]⟩
    documentOfLexemes "Domain A { Entity }" lexemes =
        .error (failure.diagnostic "Domain A { Entity }") ∧
      ∃ elements read unread doubt e,
        Parser.many element lexemes = .ok elements unread doubt ∧ lexemes = read ++ unread ∧
          read.length ≤ e ∧ e ≤ lexemes.length ∧
          (failure.diagnostic "Domain A { Entity }").Blames "Domain A { Entity }" lexemes e := by
  intro lexemes failure
  have hfails : documentOfLexemes "Domain A { Entity }" lexemes =
      .error (failure.diagnostic "Domain A { Entity }") := by
    have hdocument : Document.ofLexemes lexemes = .error failure := rfl
    rw [documentOfLexemes, hdocument]
  exact ⟨hfails, documentOfLexemes_blames hfails⟩

end Landscape
