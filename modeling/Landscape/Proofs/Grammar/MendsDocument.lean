import Landscape.Proofs.Grammar.MendsBody

/-!
# Mending a document

The declarations of a document are told apart by the keyword that they start
with, all but the last two: the word `import` opens a declaration without meaning
if no path comes after it. Then the path is what is missing, and it would have
been an import (`Mends.orElse_of_doubt`).

Between declarations an opening brace is the one token that starts none of them,
and no body stands open there. So a body that was never closed cannot be reached
by what is changed behind it, and declarations are mended one after the other
(`Mends.elements`).
-/

namespace Landscape.Grammar

open Landscape.Grammar.Parser

variable {α β : Type}

/-! ## Alternatives told apart by a doubt -/

/-- Where a parser fails and the other one succeeds, the other one has a doubt
that is not in front of the failure. -/
def DoubtedBehind (p q : Parser α) : Prop :=
  ∀ input failure value rest doubt, p input = .fail failure → q input = .ok value rest doubt →
    ∃ f ∈ doubt, f.rest.length ≤ failure.rest.length

theorem Decides.orElse_of_doubt {p q : Parser α} {C : List Lexeme → Prop} (hp : Decides p C)
    (hq : Decides q C) (hfailing : DecidesFailing p) (hdoubted : DoubtedBehind p q) :
    Decides (Parser.orElse p q) C := by
  refine hp.orElse_of hq fun hvalue hother hdoubt tail' _ _ => ?_
  obtain ⟨f, hf, hle⟩ := hdoubted _ _ _ _ _ hvalue hother
  exact hfailing _ _ _ hvalue (Nat.lt_of_lt_of_le (hdoubt f hf) hle) tail'

/-- If reading stops where the first alternative fails, it is the first one that
is mended. -/
theorem Mends.orElse_of_doubt {p q : Parser α} {fill fill' : List Lexeme} {F : List Lexeme → Prop}
    (hp : Mends p fill F) (hq : Mends q fill' F) (hfailing : DecidesFailing p)
    (hdoubted : DoubtedBehind p q) : Mends (Parser.orElse p q) fill F := by
  refine ⟨hp.remains.orElse hq.remains, hp.fills.orElse_left, fun input f h => ?_⟩
  rcases h.orElse with ⟨g, hstops, hplace⟩ | ⟨failure, g, hvalue, hstops, hplace, hother⟩
  · obtain ⟨front, more, hinput, htakes⟩ := (hp.mended input).exists_of_rest_eq hstops hplace
    exact ⟨front, more, hinput, htakes.orElse_left⟩
  have hle : f.rest.length ≤ failure.rest.length := by
    rcases hother with ⟨value, rest, doubt, hok⟩ | hlt
    · obtain ⟨e, he, hle⟩ := hdoubted _ _ _ _ _ hvalue hok
      rw [hok, Option.mem_def.1 he] at hstops
      cases hstops with
      | ok => rwa [← hplace]
    · exact Nat.le_of_lt hlt
  rcases Nat.lt_or_eq_of_le hle with hlt | hsame
  · obtain ⟨front, more, rfl, htakes⟩ := hq.mended input g hstops
    refine ⟨front, more, by rw [hplace], htakes.orElse_right fun after _ => ?_⟩
    rw [List.append_assoc]
    exact hfailing _ _ _ hvalue (by rwa [Failure.Precedes, hplace]) _
  · obtain ⟨front, more, hinput, htakes⟩ := hp.mended input failure (by rw [hvalue]; exact .fail)
    have hrest : failure.rest = f.rest := by
      have hsuffix := hstops.suffix hq.remains
      rw [hplace] at hsuffix
      exact ((List.suffix_of_suffix_length_le hsuffix ⟨front, hinput.symm⟩ hle).eq_of_length
        hsame).symm
    exact ⟨front, more, by rwa [← hrest], htakes.orElse_left⟩

/-! ## Bodies that may be left out -/

theorem Decides.optional_braced_body {scope : Scope} :
    Decides (Parser.optional (Parser.braced (Grammar.body scope))) (Avoids .openBrace) :=
  braced_body.optional_avoids fun _ h => .bind (.exactly h)

theorem Mends.optional_braced_body {scope : Scope} :
    Mends (Parser.optional (Parser.braced (Grammar.body scope))) [] (· = []) := by
  refine braced_body.optional_nil fun after h => ?_
  subst h
  exact (Declines.bind (.exactly .nil)).exists_fail

/-! ## Alternatives told apart by a keyword -/

/-- A parser that declines whatever does not start with the token `t`. -/
def OpensWith (t : Token) (p : Parser α) : Prop :=
  ∀ xs, Avoids t xs → p.Declines xs

namespace OpensWith

variable {t u : Token}

theorem exactly_bind {next : Unit → Parser α} : OpensWith t (Parser.exactly t >>= next) :=
  fun _ h => .bind (.exactly h)

theorem located {p : Parser (Span → α)} (hp : OpensWith t p) : OpensWith t (Parser.located p) :=
  fun xs h => (hp xs h).located

theorem map {f : α → β} {p : Parser α} (hp : OpensWith t p) : OpensWith t (f <$> p) :=
  fun xs h => (hp xs h).map

theorem declines {p : Parser α} (hp : OpensWith u p) {xs : List Lexeme}
    (h : (xs.map Lexeme.token).head? = some t) (htu : t ≠ u) : p.Declines xs :=
  hp xs fun heq => htu (Option.some.inj (h.symm.trans heq))

theorem excludes {p q : Parser α} (hp : OpensWith t p)
    (hq : ∀ xs : List Lexeme, (xs.map Lexeme.token).head? = some t → q.Declines xs) :
    p.Excludes q := by
  intro xs
  by_cases h : Avoids t xs
  · exact .inl (hp xs h)
  · exact .inr (hq xs (Decidable.not_not.1 h))

end OpensWith

/-! ## Clauses of a context -/

/-- A clause that lists references behind its word. -/
def listClause (word : String) (clause : List Reference → ContextClause) :
    Parser ContextClause := do
  keyword word
  let references ← references
  return clause references

def refinesClause : Parser ContextClause := do
  keyword "refines"
  let reference ← reference
  return .refines reference

theorem contextClause_eq : contextClause =
    orElse (listClause "implements" .implements)
      (orElse (listClause "realizes" .realizes) (firstOf [refinesClause])) :=
  rfl

section

variable {word : String} {clause : List Reference → ContextClause}

theorem OpensWith.listClause : OpensWith (.name word) (listClause word clause) :=
  exactly_bind

theorem OpensWith.refinesClause : OpensWith (.name "refines") refinesClause :=
  exactly_bind

theorem Decides.listClause {C : List Lexeme → Prop} : Decides (listClause word clause) C :=
  bind exactly fun _ => bind_pure references

theorem DecidesFailing.listClause : DecidesFailing (listClause word clause) :=
  bind .exactly .exactly (fun _ => references.bind_pure) fun _ => .bind .references fun _ => .pure

theorem Mends.listClause : Mends (listClause word clause)
    [(Token.name word).nowhere, (Token.name "x").nowhere] (Avoids .comma) :=
  bind (exactly (F := fun _ => True)) .exactly (fun _ => references.bind_pure) fun _ _ => trivial

end

theorem Decides.refinesClause {C : List Lexeme → Prop} : Decides refinesClause C :=
  bind exactly fun _ => bind_pure reference

theorem DecidesFailing.refinesClause : DecidesFailing refinesClause :=
  bind .exactly .exactly (fun _ => .bind_pure (.located (.bind_pure .token)))
    fun _ => .bind (.located (.bind .token fun _ => .pure)) fun _ => .pure

theorem Mends.refinesClause {F : List Lexeme → Prop} : Mends refinesClause
    [(Token.name "refines").nowhere, (Token.name "x").nowhere] F :=
  bind (exactly (F := fun _ => True)) .exactly (fun _ => reference.bind_pure) fun _ _ => trivial

theorem realizes_excludes :
    (listClause "realizes" .realizes).Excludes (firstOf [refinesClause]) :=
  OpensWith.listClause.excludes fun _ h =>
    .firstOf (List.forall_mem_singleton.2 (OpensWith.refinesClause.declines h (by decide)))

theorem implements_excludes : (listClause "implements" .implements).Excludes
    (orElse (listClause "realizes" .realizes) (firstOf [refinesClause])) :=
  OpensWith.listClause.excludes fun _ h =>
    .orElse (OpensWith.listClause.declines h (by decide))
      (.firstOf (List.forall_mem_singleton.2 (OpensWith.refinesClause.declines h (by decide))))

theorem Decides.contextClause {C : List Lexeme → Prop} : Decides contextClause C := by
  rw [contextClause_eq]
  exact listClause.orElse (listClause.orElse (firstOf_singleton refinesClause) realizes_excludes)
    implements_excludes

theorem DecidesFailing.contextClause : DecidesFailing contextClause := by
  rw [contextClause_eq]
  exact listClause.orElse (listClause.orElse (firstOf (List.forall_mem_singleton.2 refinesClause)))

theorem Mends.contextClause : Mends contextClause
    [(Token.name "implements").nowhere, (Token.name "x").nowhere] (Avoids .comma) := by
  rw [contextClause_eq]
  exact listClause.orElse (listClause.orElse (firstOf_singleton refinesClause) realizes_excludes)
    implements_excludes

theorem Mends.contextClauses : Mends (Parser.many Grammar.contextClause) [] (· = []) := by
  refine (contextClause.imp fun after h => ?_).many .contextClause
    (Decides.contextClause (C := fun _ => True)) (fun _ h => absurd trivial h) fun after h => ?_
  · subst h
    exact .nil
  · subst h
    have hdeclines : Grammar.contextClause.Declines [] :=
      .orElse (OpensWith.listClause _ .nil) (.orElse (OpensWith.listClause _ .nil)
        (.firstOf (List.forall_mem_singleton.2 (OpensWith.refinesClause _ .nil))))
    exact hdeclines.exists_fail

/-! ## Declarations -/

namespace Decides

theorem domain : Decides domain (Avoids .openBrace) :=
  located <| bind exactly fun _ => bind token fun _ => bind_pure optional_braced_body

theorem boundedContext : Decides boundedContext (Avoids .openBrace) :=
  located <| bind exactly fun _ => bind token fun _ =>
    bind (many contextClause .contextClause .contextClause) fun _ => bind_pure optional_braced_body

theorem useCase : Decides useCase (Avoids .openBrace) :=
  located <| bind exactly fun _ => bind token fun _ => bind_pure optional_braced_body

theorem importLine {C : List Lexeme → Prop} : Decides importLine C :=
  located <| bind exactly fun _ => bind_pure token

theorem unknownDeclaration : Decides unknownDeclaration (Avoids .openBrace) :=
  located <| bind token fun _ => bind (many token .token .token) fun _ =>
    bind_pure optional_braced_body

end Decides

theorem DecidesFailing.importLine : DecidesFailing importLine :=
  located <| bind .exactly .exactly (fun _ => .bind_pure .token) fun _ =>
    .bind .token fun _ => .pure

namespace Mends

theorem domain : Mends domain [(Token.name "Domain").nowhere, (Token.name "x").nowhere] (· = []) :=
  located <| bind (exactly (F := fun _ => True)) .exactly
    (fun _ => bind (name (F := fun _ => True)) .token (fun _ => optional_braced_body.bind_pure)
      fun _ _ => trivial)
    fun _ _ => trivial

theorem boundedContext : Mends boundedContext
    [(Token.name "BoundedContext").nowhere, (Token.name "x").nowhere] (· = []) :=
  located <| bind (exactly (F := fun _ => True)) .exactly
    (fun _ => bind (name (F := fun _ => True)) .token
      (fun _ => contextClauses.bind (.many .contextClause .contextClause .contextClause)
        (fun _ => optional_braced_body.bind_pure) fun _ h => h)
      fun _ _ => trivial)
    fun _ _ => trivial

theorem useCase : Mends useCase
    [(Token.name "UseCase").nowhere, (Token.name "x").nowhere] (· = []) :=
  located <| bind (exactly (F := fun _ => True)) .exactly
    (fun _ => bind (name (F := fun _ => True)) .token (fun _ => optional_braced_body.bind_pure)
      fun _ _ => trivial)
    fun _ _ => trivial

theorem importLine {F : List Lexeme → Prop} : Mends importLine
    [(Token.name "import").nowhere, (Token.string "x").nowhere] F :=
  located <| bind (exactly (F := fun _ => True)) .exactly
    (fun _ => bind_pure (token rfl)) fun _ _ => trivial

theorem unknownDeclaration : Mends unknownDeclaration [(Token.name "x").nowhere] (· = []) := by
  have word : Mends (anyToken fun t => !(t.isBrace || isTopLevelKeyword t))
      [(Token.name "x").nowhere] (· = []) :=
    token rfl
  have words : Mends (Parser.many (anyToken fun t => !(t.isBrace || isTopLevelKeyword t))) []
      (· = []) :=
    word.many .token (Decides.token (C := fun _ => True)) (fun _ h => absurd trivial h)
      fun after h => by
        subst h
        exact ⟨_, rfl⟩
  have keyword : Mends (blockKeyword isTopLevelKeyword) [(Token.name "x").nowhere] fun _ => True :=
    token rfl
  exact located <| keyword.bind .token
    (fun _ => words.bind (.many .token .token .token) (fun _ => optional_braced_body.bind_pure)
      fun _ h => h)
    fun _ _ => trivial

end Mends

namespace OpensWith

theorem domain : OpensWith (.name "Domain") domain :=
  located exactly_bind

theorem boundedContext : OpensWith (.name "BoundedContext") boundedContext :=
  located exactly_bind

theorem contextMap : OpensWith (.name "ContextMap") contextMap :=
  located exactly_bind

theorem useCase : OpensWith (.name "UseCase") useCase :=
  located exactly_bind

theorem importLine : OpensWith (.name "import") importLine :=
  located exactly_bind

end OpensWith

theorem unknownDeclaration_declines {xs : List Lexeme}
    (h : ∀ text, (xs.map Lexeme.token).head? = some (.name text) → text ∈ topLevelKeywords) :
    unknownDeclaration.Declines xs := by
  refine .located (.bind (.token fun t ht => ?_))
  cases t with
  | name text => simp [isTopLevelKeyword, isOneOf, h text ht]
  | _ => rfl

/-- A declaration without meaning is in doubt behind its first lexeme. -/
theorem exists_doubt_of_unknownDeclaration {input rest : List Lexeme} {value : UnknownDecl}
    {doubt : Option Failure} (h : unknownDeclaration input = .ok value rest doubt) :
    ∃ f ∈ doubt, f.rest.length < input.length := by
  rw [unknownDeclaration, Parser.located] at h
  split at h
  · next hvalue =>
      cases h
      obtain ⟨_, mid, _, late, hkeyword, hnext, rfl⟩ := exists_of_bind_eq_ok hvalue
      obtain ⟨x, rfl, -, -⟩ := exists_of_token_eq_ok hkeyword
      obtain ⟨_, _, _, later, hwords, -, rfl⟩ := exists_of_bind_eq_ok hnext
      -- The words behind the keyword stop at some lexeme, and that is in doubt.
      obtain ⟨_, rest', f, hwords', hle⟩ := Doubts.many .token .token mid
      obtain ⟨-, rfl, rfl⟩ := Reply.ok.inj (hwords.symm.trans hwords')
      obtain ⟨g, hg, hg'⟩ := Failure.exists_mem_merge_left (Option.mem_some_self f) later
      obtain ⟨e, he, he'⟩ := Failure.exists_mem_merge_right hg _
      have hmid := (Remains.suffix (.many .token) hwords).length_le
      exact ⟨e, he, Nat.lt_succ_of_le (by omega)⟩
  · cases h

/-! ## Documents -/

/-- A declaration without meaning, with or without the word `import`. -/
def unknownElement : Parser Element :=
  orElse (Element.unknown <$> importLine) (firstOf [Element.unknown <$> unknownDeclaration])

theorem element_eq : element =
    orElse (Element.domain <$> domain) (orElse (Element.context <$> boundedContext)
      (orElse (Element.map <$> contextMap) (orElse (Element.useCase <$> useCase)
        unknownElement))) :=
  rfl

theorem importLine_doubted : DoubtedBehind (Element.unknown <$> importLine)
    (firstOf [Element.unknown <$> unknownDeclaration]) := by
  intro input failure value rest doubt hfail hvalue
  have within : FailsWithin 1 (Element.unknown <$> importLine) :=
    .map (.located (.exactly_bind (.map .token)))
  have hle := within _ _ hfail
  obtain ⟨f, hf, hlt⟩ : ∃ f ∈ doubt, f.rest.length < input.length := by
    rw [Parser.firstOf, Parser.orElse] at hvalue
    split at hvalue
    · next hunknown =>
        cases hvalue
        obtain ⟨_, _, _, _, hdeclaration, hpure, rfl⟩ := exists_of_bind_eq_ok hunknown
        cases hpure
        obtain ⟨f, hf, hlt⟩ := exists_doubt_of_unknownDeclaration hdeclaration
        obtain ⟨g, hg, hle⟩ := Failure.exists_mem_merge_left hf none
        exact ⟨g, hg, Nat.lt_of_le_of_lt hle hlt⟩
    · cases hvalue
  exact ⟨f, hf, by omega⟩

theorem Decides.unknownElement : Decides unknownElement (Avoids .openBrace) :=
  importLine.map.orElse_of_doubt (firstOf_singleton unknownDeclaration.map) (.map .importLine)
    importLine_doubted

theorem Mends.unknownElement : Mends unknownElement
    [(Token.name "import").nowhere, (Token.string "x").nowhere] (· = []) :=
  importLine.map.orElse_of_doubt (firstOf_singleton unknownDeclaration.map) (.map .importLine)
    importLine_doubted

theorem unknownElement_declines {text : String} {xs : List Lexeme}
    (h : (xs.map Lexeme.token).head? = some (.name text)) (htext : text ∈ topLevelKeywords) :
    unknownElement.Declines xs := by
  refine .orElse (OpensWith.importLine.map.declines h ?_) (.firstOf ?_)
  · rintro ⟨⟩
    exact absurd htext (by decide)
  · refine List.forall_mem_singleton.2 (.map (unknownDeclaration_declines fun text' heq => ?_))
    obtain rfl := Token.name.inj (Option.some.inj (h.symm.trans heq))
    exact htext

theorem useCase_excludes : (Element.useCase <$> useCase).Excludes unknownElement :=
  OpensWith.useCase.map.excludes fun _ h => unknownElement_declines h (by decide)

theorem contextMap_excludes : (Element.map <$> contextMap).Excludes
    (orElse (Element.useCase <$> useCase) unknownElement) :=
  OpensWith.contextMap.map.excludes fun _ h =>
    .orElse (OpensWith.useCase.map.declines h (by decide)) (unknownElement_declines h (by decide))

theorem boundedContext_excludes : (Element.context <$> boundedContext).Excludes
    (orElse (Element.map <$> contextMap) (orElse (Element.useCase <$> useCase) unknownElement)) :=
  OpensWith.boundedContext.map.excludes fun _ h =>
    .orElse (OpensWith.contextMap.map.declines h (by decide)) <|
    .orElse (OpensWith.useCase.map.declines h (by decide)) (unknownElement_declines h (by decide))

theorem domain_excludes : (Element.domain <$> domain).Excludes
    (orElse (Element.context <$> boundedContext)
      (orElse (Element.map <$> contextMap) (orElse (Element.useCase <$> useCase)
        unknownElement))) :=
  OpensWith.domain.map.excludes fun _ h =>
    .orElse (OpensWith.boundedContext.map.declines h (by decide)) <|
    .orElse (OpensWith.contextMap.map.declines h (by decide)) <|
    .orElse (OpensWith.useCase.map.declines h (by decide)) (unknownElement_declines h (by decide))

theorem Decides.element : Decides element (Avoids .openBrace) := by
  rw [element_eq]
  exact domain.map.orElse (boundedContext.map.orElse (contextMap.map.orElse
    (useCase.map.orElse unknownElement useCase_excludes) contextMap_excludes)
    boundedContext_excludes) domain_excludes

theorem Mends.element : Mends element
    [(Token.name "Domain").nowhere, (Token.name "x").nowhere] (· = []) := by
  rw [element_eq]
  exact domain.map.orElse (boundedContext.map.orElse (contextMap.map.orElse
    (useCase.map.orElse unknownElement useCase_excludes) contextMap_excludes)
    boundedContext_excludes) domain_excludes

/-- A declaration starts with a name. -/
theorem element_declines {xs : List Lexeme} (h : ∀ text, Avoids (.name text) xs) :
    element.Declines xs := by
  rw [element_eq]
  exact .orElse (OpensWith.domain.map _ (h _)) <| .orElse (OpensWith.boundedContext.map _ (h _)) <|
    .orElse (OpensWith.contextMap.map _ (h _)) <| .orElse (OpensWith.useCase.map _ (h _)) <|
    .orElse (OpensWith.importLine.map _ (h _)) <| .firstOf <| List.forall_mem_singleton.2 <|
    .map (unknownDeclaration_declines fun text heq => absurd heq (h text))

/-- Where reading stops among declarations, it would have gone on to the end with
other lexemes from there on. -/
theorem Mends.elements : Mends (Parser.many Grammar.element) [] (· = []) := by
  refine element.many .element .element (fun xs h => element_declines fun text heq => ?_)
    fun after h => ?_
  · exact absurd (heq.symm.trans (Decidable.not_not.1 h)) nofun
  · subst h
    exact (element_declines fun _ => .nil).exists_fail

end Landscape.Grammar
