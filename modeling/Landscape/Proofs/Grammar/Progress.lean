import Landscape.Proofs.Grammar.Clauses
import Landscape.Proofs.Grammar.MendsMap
import Landscape.Proofs.Grammar.Unfolding

/-!
# Every repetition comes to an end

A repetition goes round as often as its parser succeeds, and it would never stop at
a parser that succeeds without reading. There is none among those that the grammar
repeats. Each of them reads a token in every case, some through a keyword, some
through a comma, and those that skip tokens through what they skip. So a repetition
goes round at most once for every token, and what ends it is a place where its
parser fails (`Repeats`).

The other way to go on for ever would be a body that uses itself where it stands.
A body in a body is looked for behind an opening brace and nowhere else: a parser
that is right there, whatever it says of other inputs, does as well as the body
itself (`repetitions_end`).
-/

namespace Landscape.Grammar

variable {α : Type} {p : Parser α}

/-- A parser that may be repeated. -/
structure Repeats (p : Parser α) : Prop where
  /-- Where it succeeds it leaves an end of the input that is shorter. -/
  shortens : ∀ input value rest doubt, p input = .ok value rest doubt →
    rest <:+ input ∧ rest.length < input.length
  /-- A repetition ends where the parser fails, after one round for each token at
  most. -/
  ends : ∀ input, ∃ values rest doubt failure, Parser.many p input = .ok values rest doubt ∧
    p rest = .fail failure ∧ values.length + rest.length ≤ input.length
  /-- No limit that is longer than the input plays a part. -/
  unlimited : ∀ input limit, input.length < limit →
    Parser.upTo p limit input = Parser.many p input

namespace Advances

theorem length_values_le (hp : Advances p) :
    Consumes (Parser.many p) fun read values => values.length ≤ read.length := by
  refine Consumes.many hp (Nat.le_refl 0) fun first _ others values hfirst hothers => ?_
  have hpos := List.length_pos_iff.2 hfirst
  rw [List.length_cons, List.length_append]
  omega

theorem repeats (hp : Advances p) : Repeats p where
  shortens input value rest doubt h := by
    obtain ⟨read, hread, -⟩ := hp _ _ _ _ h
    exact ⟨⟨read, hread.symm⟩, hp.length_lt h⟩
  ends input := by
    obtain ⟨values, rest, doubt, hmany⟩ := Parser.exists_many_eq p input
    obtain ⟨failure, hfailure⟩ := hp.exists_fail_of_many hmany
    obtain ⟨read, rfl, hlength⟩ := hp.length_values_le _ _ _ _ hmany
    refine ⟨values, rest, doubt, failure, hmany, hfailure, ?_⟩
    rw [List.length_append]
    exact Nat.add_le_add_right hlength _
  unlimited _ _ hlimit := hp.upTo_eq hlimit (Nat.lt_succ_self _)

/-- An item of a list with its comma. -/
theorem afterComma (hp : ReadsBalanced p) : Advances (do Parser.exactly .comma; p) :=
  bind exactly fun _ => hp

end Advances

/-- Every parser that the grammar repeats reads something wherever it succeeds, and
what a body is depends on bodies only behind the opening braces of its input. -/
theorem repetitions_end :
    (Repeats element ∧ Repeats contextClause ∧ Repeats mapEntry ∧ Repeats attributeEntry ∧
      (∀ scope, Repeats (bodyEntry scope (body scope))) ∧ Repeats headingToken ∧
      Repeats (Parser.anyToken fun t => !(t.isBrace || isTopLevelKeyword t))) ∧
    (Repeats (do Parser.exactly .comma; reference) ∧ Repeats (do Parser.exactly .comma; value) ∧
      Repeats (do Parser.exactly .comma; name)) ∧
    ∀ (scope : Scope) (input : List Lexeme) (inner : Parser (List Entry)),
      AgreeOn (BehindBrace (· <:+ input)) inner (body scope) →
        ((fun entries => entries.filterMap id) <$> Parser.many (bodyEntry scope inner)) input =
          body scope input := by
  refine ⟨⟨Advances.element.repeats, Advances.contextClause.repeats, Advances.mapEntry.repeats,
    Advances.attributeEntry.repeats, fun _ => (Advances.bodyEntry .body).repeats,
    Advances.headingToken.repeats, Advances.token.repeats⟩,
    ⟨(Advances.afterComma .reference).repeats, (Advances.afterComma .value).repeats,
      (Advances.afterComma .name).repeats⟩, ?_⟩
  intro scope input inner hinner
  have hentries : AgreeOn (· <:+ input) (Parser.many (bodyEntry scope (body scope)))
      (Parser.many (bodyEntry scope inner)) :=
    .many (.suffix input) (.bodyEntry .body)
      (.bodyEntry (.suffix input) fun xs hxs => (hinner xs hxs).symm)
  rw [body_eq]
  exact (hentries.map input (List.suffix_refl input)).symm

/-- A body, read with the help of a parser that refuses to read it. -/
theorem repetitions_end_within :
    let lexemes : List Lexeme := [⟨.name "Service", 0, 7⟩, ⟨.name "S", 8, 9⟩, ⟨.openBrace, 10, 11⟩,
      ⟨.name "k", 12, 13⟩, ⟨.equals, 13, 14⟩, ⟨.number "1", 14, 15⟩, ⟨.closeBrace, 16, 17⟩]
    let inner : Parser (List Entry) := fun xs =>
      if xs.length = 7 then .fail ⟨xs, []⟩ else body .context xs
    inner lexemes = .fail ⟨lexemes, []⟩ ∧
      ((fun entries => entries.filterMap id) <$> Parser.many (bodyEntry .context inner)) lexemes =
        body .context lexemes := by
  intro lexemes inner
  refine ⟨rfl, repetitions_end.2.2 .context lexemes inner ?_⟩
  rintro xs ⟨opening, -, hxs⟩
  have hlt : xs.length < 7 := hxs.length_le
  exact if_neg (Nat.ne_of_lt hlt)

end Landscape.Grammar
