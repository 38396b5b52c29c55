import Landscape.Proofs.Grammar.Balance

/-!
# Nothing is repeated without being read

`many` is given a limit that depends on the length of the input. It means
nothing as long as every round reads a token, since the input is used up before
the limit is. So of each parser that the grammar repeats it is shown here that it
advances whenever it succeeds, and then `many` is what it should be: it stops
where its parser fails, and otherwise goes on with what is left
(`Parser.many_of_fail`, `Advances.many_of_ok`).

A sequence advances if one of its parts does. For most rules of the grammar that
is the first, their keyword; the sides of a relationship may start with roles
that are left out, and there it is the second.
-/

namespace Landscape.Grammar

variable {α β : Type}

/-! ## Repetition under a limit -/

theorem Parser.many_of_fail {p : Parser α} {input : List Lexeme} {failure : Failure}
    (h : p input = .fail failure) : Parser.many p input = .ok [] input (some failure) := by
  simp only [Parser.many, Parser.upTo, h]

/-- A repetition succeeds, at worst without a value. -/
theorem Parser.exists_many_eq (p : Parser α) (input : List Lexeme) :
    ∃ values rest doubt, Parser.many p input = .ok values rest doubt := by
  suffices ∀ limit input, ∃ values rest doubt,
      Parser.upTo p limit input = .ok values rest doubt from this _ input
  intro limit
  induction limit with
  | zero => exact fun input => ⟨[], input, none, rfl⟩
  | succ limit ih =>
      intro input
      cases hvalue : p input with
      | fail failure => exact ⟨[], input, some failure, by simp only [Parser.upTo, hvalue]⟩
      | ok value rest doubt =>
          obtain ⟨values, final, later, hlater⟩ := ih rest
          exact ⟨value :: values, final, Failure.merge doubt later, by
            simp only [Parser.upTo, hvalue, hlater]⟩

/-! ## Parsers that read something -/

/-- Whenever a parser succeeds it has read something. -/
def Advances (p : Parser α) : Prop :=
  Consumes p fun read _ => read ≠ []

namespace Advances

variable {p : Parser α}

theorem length_lt (hp : Advances p) {input rest : List Lexeme} {value : α}
    {doubt : Option Failure} (h : p input = .ok value rest doubt) :
    rest.length < input.length := by
  obtain ⟨read, rfl, hread⟩ := hp _ _ _ _ h
  rw [List.length_append]
  exact Nat.lt_add_of_pos_left (List.length_pos_iff.2 hread)

/-! ## Combinators -/

theorem token {accept : Token → Option α} {expected : List Expectation} :
    Advances (Parser.token accept expected) :=
  Consumes.token fun _ _ _ => List.cons_ne_nil _ _

theorem exactly {t : Token} : Advances (Parser.exactly t) :=
  Consumes.exactly fun _ _ => List.cons_ne_nil _ _

theorem bind {next : α → Parser β} (hp : Advances p)
    (hnext : ∀ value, ReadsBalanced (next value)) : Advances (p >>= next) :=
  Consumes.bind hp fun _ value hread => (hnext value).imp fun _ _ _ =>
    List.append_ne_nil_of_left_ne_nil hread _

theorem bind_right {next : α → Parser β} (hp : ReadsBalanced p)
    (hnext : ∀ value, Advances (next value)) : Advances (p >>= next) :=
  Consumes.bind hp fun _ value _ => (hnext value).imp fun _ _ hread =>
    List.append_ne_nil_of_right_ne_nil _ hread

theorem map {f : α → β} (hp : Advances p) : Advances (f <$> p) :=
  Consumes.map hp

theorem located {p : Parser (Span → α)} (hp : Advances p) : Advances (Parser.located p) :=
  Consumes.located (hp.imp fun _ _ hread _ => hread)

/-! ## Repetition -/

/-- Any two limits that the input cannot reach are the same. -/
theorem upTo_eq (hp : Advances p) {input : List Lexeme} {m n : Nat} (hm : input.length < m)
    (hn : input.length < n) : Parser.upTo p m input = Parser.upTo p n input := by
  induction m generalizing input n with
  | zero => omega
  | succ m ih =>
      obtain ⟨n, rfl⟩ : ∃ k, n = k + 1 := ⟨n - 1, by omega⟩
      simp only [Parser.upTo]
      cases hvalue : p input with
      | fail failure => rfl
      | ok value rest doubt =>
          have shorter := hp.length_lt hvalue
          have same : Parser.upTo p m rest = Parser.upTo p n rest := ih (by omega) (by omega)
          simp only [same]

theorem many_of_ok (hp : Advances p) {input rest final : List Lexeme} {value : α}
    {values : List α} {doubt later : Option Failure} (h : p input = .ok value rest doubt)
    (hlater : Parser.many p rest = .ok values final later) :
    Parser.many p input = .ok (value :: values) final (Failure.merge doubt later) := by
  have shorter := hp.length_lt h
  rw [Parser.many, ← hp.upTo_eq shorter (Nat.lt_succ_self rest.length)] at hlater
  simp only [Parser.many, Parser.upTo, h, hlater]

/-! ## What the grammar repeats -/

theorem headingToken : Advances headingToken := by
  intro input value rest doubt h
  rw [Grammar.headingToken] at h
  split at h
  · cases h
  · exact token _ _ _ _ h

theorem attributeSetting : Advances attributeSetting :=
  located (bind token fun _ => .bind (.exactly rfl) fun _ => .bind_pure (.separated .value))

theorem bodyEntry {scope : Scope} {inner : Parser (List Entry)}
    (hinner : ReadsBalanced inner) : Advances (bodyEntry scope inner) := by
  have named {κ : Type} {accept : Token → Option κ} {heading : κ → String → Heading} :
      Advances (namedDeclaration (Parser.token accept []) heading inner) :=
    located (bind token fun _ => .bind .name fun _ =>
      .bind (.many ReadsNoBrace.headingToken.balanced) fun _ =>
        .bind_pure (.optional (.braced hinner)))
  have unknown : Advances (unknownBlock inner) :=
    located (bind token fun _ => .bind (.many ReadsNoBrace.headingToken.balanced) fun _ =>
      .bind_pure (.braced hinner))
  refine Consumes.firstOf ?_
  simp only [List.forall_mem_cons]
  exact ⟨map named, map named, map named, map named, map named, map attributeSetting,
    map unknown, map (bind token fun _ => .pure), nofun⟩

theorem relation : Advances relation :=
  have endpoint : Advances endpoint := located (bind_right (.optional .roles) fun _ =>
    bind token fun _ => .bind_pure (.optional .roles))
  located (bind endpoint fun _ => .bind .connection fun _ => .bind .endpoint fun _ =>
    .bind (.optional (.bind (.exactly rfl) fun _ => .name)) fun _ =>
      .bind_pure (.optional .relationAttributes))

theorem mapEntry : Advances mapEntry := by
  refine Consumes.firstOf ?_
  simp only [List.forall_mem_cons]
  exact ⟨bind exactly fun _ => .bind_pure .references, map attributeSetting, map relation, nofun⟩

theorem contextClause : Advances contextClause := by
  refine Consumes.firstOf ?_
  simp only [List.forall_mem_cons]
  exact ⟨bind exactly fun _ => .bind_pure .references, bind exactly fun _ => .bind_pure .references,
    bind exactly fun _ => .bind_pure .reference, nofun⟩

theorem element : Advances element := by
  refine Consumes.firstOf ?_
  simp only [List.forall_mem_cons]
  refine ⟨?_, ?_, ?_, ?_, ?_, ?_, nofun⟩ <;> refine map (located ?_)
  · exact bind exactly fun _ => .bind .name fun _ => .bind_pure (.optional (.braced .body))
  · exact bind exactly fun _ => .bind .name fun _ => .bind (.many .contextClause) fun _ =>
      .bind_pure (.optional (.braced .body))
  · exact bind exactly fun _ => .bind (.optional .name) fun _ =>
      .bind_pure (.braced (.many .mapEntry))
  · exact bind exactly fun _ => .bind .name fun _ => .bind_pure (.optional (.braced .body))
  · exact bind exactly fun _ => .bind_pure .string
  · have word : ReadsNoBrace (Parser.anyToken fun t => !(t.isBrace || isTopLevelKeyword t)) :=
      .anyToken fun t ht => by simp_all
    exact bind token fun _ => .bind (.many word.balanced) fun _ =>
      .bind_pure (.optional (.braced .body))

end Advances

end Landscape.Grammar
