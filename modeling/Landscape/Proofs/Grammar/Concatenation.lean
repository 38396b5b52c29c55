import Landscape.Proofs.Grammar.Extends

/-!
# Documents one after the other

Two documents, written one after the other, are one document with the elements
of both. No parser knows where its input comes from, so what could go wrong is
that the first document reaches over the seam: that one of its optional parts or
repetitions, which stopped at the end of the input, finds in the second document
what it missed before.

Between braces nothing of the kind can happen (`Confined`). Outside of them three
things have to be kept away from the seam. A list of names goes on behind a comma
and a declaration goes on with a brace; the first document does not end in front
of either, since no element begins with them. And a clause begins with a word in
front of a name, which is why the first document must not end with such a word.
-/

namespace Landscape.Grammar

variable {α β : Type}

namespace Extends

variable {ys : List Lexeme} {C : List Lexeme → Prop}

theorem reference : Extends ys reference C :=
  located (bind_pure name)

/-- What is in braces is over with the closing one, whatever comes after it. -/
theorem braced {p : Parser α} (hp : ∀ n, Confined n p p) : Extends ys (Parser.braced p) C := by
  refine ⟨(hp 0).balanced.braced, fun xs value rest doubt h _ _ => ?_⟩
  cases xs with
  | nil => cases h
  | cons x inner =>
      rw [List.cons_append]
      rw [Confined.braced_cons] at h ⊢
      by_cases hx : x.token = .openBrace
      · rw [if_pos hx] at h ⊢
        cases hvalue : p inner with
        | fail failure => simp [hvalue] at h
        | ok value' left doubt' =>
            obtain ⟨read, hinner, hread⟩ := (hp 0).balanced _ _ _ _ hvalue
            cases left with
            | nil => simp [hvalue, Parser.exactly] at h
            | cons y left =>
                by_cases hy : y.token = .closeBrace
                · simp only [hvalue, Parser.exactly, if_pos hy] at h
                  cases h
                  have henclosed : Enclosed (inner.map Lexeme.token) := by
                    rw [hinner, List.map_append, List.map_cons, hy]
                    exact .closeBrace hread
                  rw [(hp _).followed _ ys (Nat.le_refl inner.length) henclosed, hvalue]
                  simp only [Reply.followedBy, List.cons_append, Parser.exactly, if_pos hy]
                  exact ⟨_, rfl⟩
                · simp [hvalue, Parser.exactly, if_neg hy] at h
      · rw [if_neg hx] at h
        cases h

theorem contextMap : Extends ys contextMap C := by
  have name : Extends ys (Parser.optional Grammar.name) (· ≠ []) :=
    optional name (.token fun h => absurd rfl h)
  refine located (bind_always (exactly rfl) fun _ => bind name (fun _ =>
    bind_pure (braced fun _ => .many .mapEntry .mapEntry .mapEntry)) ?_)
  rintro _ _ _ _ _ h - rfl
  cases h

theorem importLine : Extends ys importLine C :=
  located (bind_always (exactly rfl) fun _ => bind_pure
    (token fun t _ h => by cases t <;> first | rfl | cases h))

end Extends

/-! ## In front of a keyword -/

section

variable {ys : List Lexeme} (hys : EndsOpen (ys.map Lexeme.token))
include hys

/-- A list of names goes on behind a comma. -/
theorem Extends.references : Extends ys references (Avoids .comma) := by
  have item : Extends ys (do Parser.exactly .comma; Grammar.reference) fun _ => True :=
    bind_always (exactly rfl) fun _ => reference
  refine bind_always reference fun _ => bind_pure (many item ?_ ?_ ?_ ?_)
  · exact .bind .exactly fun _ => .reference
  · exact .of_refuses fun xs hxs => Refuses.bind (Refuses.exactly (hxs.append (hys.avoids rfl)))
  · exact fun _ _ _ _ _ => trivial
  · exact fun _ _ => trivial

namespace KeepsFailing

/-- A word without a name behind it would find one behind the seam. -/
theorem clause {text : String} {next : Unit → Parser ContextClause}
    (htext : text ∈ clauseKeywords) (hnext : KeepsFailing ys (next ()) (· ≠ [])) :
    KeepsFailing ys (keyword text >>= next) fun _ => True := by
  have seam : Avoids (.name text) ys := by
    refine hys.avoids ?_
    revert text
    decide
  refine bind (exactly fun _ => seam) (.exactly rfl) (fun _ => hnext) ?_
  rintro xs value mid doubt h hxs - rfl
  obtain ⟨read, rfl, hread⟩ := Consumes.exactly
    (P := fun read _ => read.map Lexeme.token = [.name text])
    (fun found hfound => by rw [List.map_singleton, hfound]) _ _ _ _ h
  rw [List.append_nil, hread] at hxs
  have hplain : clauseKeywords.contains text = false := hxs _ rfl
  simp [htext] at hplain

omit hys in
theorem reference : KeepsFailing ys reference (· ≠ []) :=
  located (bind_succeeds (token fun h => absurd rfl h) fun _ => .pure)

omit hys in
theorem references : KeepsFailing ys references (· ≠ []) :=
  bind_succeeds reference fun _ => .many_pure

theorem implementsClause : KeepsFailing ys
    (do keyword "implements"; let rs ← Grammar.references; return ContextClause.implements rs)
    fun _ => True :=
  clause hys (by decide) (bind_succeeds references fun _ => .pure)

theorem realizesClause : KeepsFailing ys
    (do keyword "realizes"; let rs ← Grammar.references; return ContextClause.realizes rs)
    fun _ => True :=
  clause hys (by decide) (bind_succeeds references fun _ => .pure)

theorem contextClause : KeepsFailing ys contextClause fun _ => True :=
  firstOf_cons (implementsClause hys) <| firstOf_cons (realizesClause hys) <|
    firstOf_cons (clause hys (by decide) (bind_succeeds reference fun _ => .pure)) firstOf_nil

theorem importLine : KeepsFailing ys importLine fun _ => True := by
  have string : KeepsFailing ys string fun _ => True := by
    refine token fun _ t ht => ?_
    have hkeyword := hys t ht
    cases t with
    | string text => cases hkeyword
    | _ => rfl
  exact located (bind (exactly fun _ => hys.avoids rfl) (.exactly rfl)
    (fun _ => bind_succeeds string fun _ => .pure) fun _ _ _ _ _ _ _ => trivial)

end KeepsFailing

namespace Extends

theorem contextClause : Extends ys contextClause (Avoids .comma) := by
  refine orElse_of_keepsFailing ?_ (orElse_of_keepsFailing ?_ (firstOf_singleton ?_)
    (.realizesClause hys)) (.implementsClause hys)
  · exact bind_always (exactly rfl) fun _ => bind_pure (references hys)
  · exact bind_always (exactly rfl) fun _ => bind_pure (references hys)
  · exact bind_always (exactly rfl) fun _ => bind_pure reference

theorem clauses : Extends ys (Parser.many Grammar.contextClause) (Avoids .comma) := by
  refine many (contextClause hys) .contextClause
    ((KeepsFailing.contextClause hys).imp fun _ _ => trivial) ?_ fun _ h => h
  -- The clause that comes next begins with its word.
  refine fun xs value rest doubt => Refuses.avoids fun ts => Refuses.firstOf ?_
  simp only [List.forall_mem_cons]
  exact ⟨Refuses.exactly_bind nofun, Refuses.exactly_bind nofun, Refuses.exactly_bind nofun, nofun⟩

/-- A body that was left out is missing still, unless a brace comes next. -/
theorem optional_braced {p : Parser α} (hp : ∀ n, Confined n p p) :
    Extends ys (Parser.optional (Parser.braced p)) (Avoids .openBrace) :=
  optional (braced hp) (.of_refuses fun _ hxs =>
    Refuses.bind (Refuses.exactly (hxs.append (hys.avoids rfl))))

theorem domain : Extends ys domain (Avoids .openBrace) :=
  located (bind_always (exactly rfl) fun _ => bind_always name fun _ =>
    bind_pure (optional_braced hys fun _ => .body))

theorem boundedContext :
    Extends ys boundedContext fun rest => Avoids .openBrace rest ∧ Avoids .comma rest := by
  have hbody : Extends ys (Parser.optional (Parser.braced (body .context)))
      fun rest => Avoids .openBrace rest ∧ Avoids .comma rest :=
    (optional_braced hys fun _ => .body).imp fun _ h => h.1
  refine located (bind_always (exactly rfl) fun _ => bind_always name fun _ =>
    bind (clauses hys) (fun _ => bind_pure hbody) ?_)
  -- A body that comes after the clauses begins with its brace.
  intro clauses xs decl rest doubt h hrest
  have consumed : Consumes (Parser.optional (Parser.braced (body .context)))
      fun read _ => Avoids .comma read :=
    .optional (ReadsBalanced.body.consumes_braced.imp fun _ _ ⟨_, hread, _⟩ => by
      simp [Avoids, hread, inBraces]) .nil
  obtain ⟨read, rfl, hread⟩ :=
    Consumes.bind_pure (Q := fun read _ => Avoids .comma read) consumed _ _ _ _ h
  exact hread.append hrest.2

theorem useCase : Extends ys useCase (Avoids .openBrace) :=
  located (bind_always (exactly rfl) fun _ => bind_always name fun _ =>
    bind_pure (optional_braced hys fun _ => .body))

theorem unknownDeclaration : Extends ys unknownDeclaration (Avoids .openBrace) := by
  have keyword {C : List Lexeme → Prop} : Extends ys (blockKeyword isTopLevelKeyword) C :=
    token fun t _ h => by cases t <;> first | rfl | cases h
  have word : Extends ys (Parser.anyToken fun t => !(t.isBrace || isTopLevelKeyword t))
      fun _ => True :=
    anyToken fun t ht => by simp_all
  have stops : KeepsFailing ys (Parser.anyToken fun t => !(t.isBrace || isTopLevelKeyword t))
      fun _ => True :=
    .token fun _ t ht => by simp [hys t ht]
  have words {C : List Lexeme → Prop} :
      Extends ys (Parser.many (Parser.anyToken fun t => !(t.isBrace || isTopLevelKeyword t))) C :=
    (many word .token stops (fun _ _ _ _ _ => trivial) fun _ h => h).imp fun _ _ => trivial
  exact located (bind_always keyword fun _ => bind_always words fun _ =>
    bind_pure (optional_braced hys fun _ => .body))

end Extends

end

/-! ## Elements -/

/-- A parser fails in front of the given keywords, and in front of nothing. -/
def Leaves (keywords : List String) (p : Parser α) : Prop :=
  ∀ ts, (∀ t ∈ ts.head?, isOneOf keywords t) → Refuses p ts

theorem isOneOf_of_subset {keywords others : List String} (h : keywords ⊆ others) {t : Token}
    (ht : isOneOf keywords t) : isOneOf others t := by
  cases t with
  | name text => exact List.contains_iff_mem.2 (h (List.contains_iff_mem.1 ht))
  | _ => cases ht

/-- The alternatives that come last read neither a keyword of another
declaration nor nothing. -/
theorem leaves_unknown {keywords : List String} (hkeywords : keywords ⊆ topLevelKeywords) :
    Leaves keywords
      (Parser.firstOf
        [Element.unknown <$> importLine, Element.unknown <$> unknownDeclaration]) := by
  intro ts hts
  have hends : EndsOpen ts := fun t ht => isOneOf_of_subset hkeywords (hts t ht)
  have keyword : Refuses (blockKeyword isTopLevelKeyword) ts := by
    refine Refuses.token fun t ht => ?_
    have hkeyword := hends t ht
    cases t with
    | name text => simp [hkeyword]
    | _ => rfl
  refine Refuses.firstOf ?_
  simp only [List.forall_mem_cons]
  refine ⟨Refuses.declaration fun heq => ?_, Refuses.map (Refuses.located (Refuses.bind keyword)),
    nofun⟩
  exact absurd (hends _ heq) (by decide)

section

variable {ys : List Lexeme} {p : Parser β} {C : List Lexeme → Prop}

/-- A declaration in front of other alternatives. Where one of these was taken,
the declaration had no chance because of its keyword. -/
theorem Extends.declaration {text : String} {keywords : List String} {f : α → β}
    {next : Unit → Parser (Span → α)} (htext : text ∉ keywords)
    (hdeclaration : Extends ys (Parser.located (keyword text >>= next)) C)
    (hp : Extends ys p C ∧ Leaves (text :: keywords) p) :
    Extends ys (Parser.orElse (f <$> Parser.located (keyword text >>= next)) p) C ∧
      Leaves keywords (Parser.orElse (f <$> Parser.located (keyword text >>= next)) p) := by
  obtain ⟨hp, hleaves⟩ := hp
  refine ⟨orElse hdeclaration.map hp fun xs failure value rest doubt _ hvalue _ => ?_,
    fun ts hts => Refuses.orElse (Refuses.declaration fun heq => htext ?_) (hleaves ts ?_)⟩
  · refine Refuses.declaration (fun heq => ?_) _ rfl
    cases xs with
    | nil =>
        obtain ⟨failure', hfailure⟩ := hleaves [] nofun [] rfl
        rw [hvalue] at hfailure
        cases hfailure
    | cons x xs =>
        refine Refuses.avoids (fun ts => hleaves _ ?_) hvalue heq
        simp [isOneOf]
  · simpa [isOneOf] using hts _ heq
  · intro t ht
    have hkeyword := hts t ht
    cases t with
    | name other => simp_all [isOneOf]
    | _ => cases hkeyword

end

theorem Extends.element {ys : List Lexeme} (hys : EndsOpen (ys.map Lexeme.token)) :
    Extends ys element fun rest => Avoids .openBrace rest ∧ Avoids .comma rest := by
  have left {p : Parser Element} (hp : Extends ys p (Avoids .openBrace)) :
      Extends ys p fun rest => Avoids .openBrace rest ∧ Avoids .comma rest :=
    hp.imp fun _ h => h.1
  have alternatives : Extends ys Grammar.element
      (fun rest => Avoids .openBrace rest ∧ Avoids .comma rest) ∧ Leaves [] Grammar.element := by
    refine declaration (by decide) ((domain hys).imp fun _ h => h.1) ?_
    refine declaration (by decide) (boundedContext hys) ?_
    refine declaration (by decide) contextMap ?_
    refine declaration (by decide) ((useCase hys).imp fun _ h => h.1) ⟨?_, ?_⟩
    · exact orElse_of_keepsFailing importLine.map
        (firstOf_singleton ((unknownDeclaration hys).imp fun _ h => h.1).map)
        (.map (.importLine hys))
    · exact leaves_unknown (by decide)
  exact alternatives.1

/-- Nothing is left, or else another element comes, and that begins with a name. -/
theorem avoids_of_many {xs : List Lexeme} {elements : List Element} {doubt : Option Failure}
    (h : Parser.many element xs = .ok elements [] doubt) :
    Avoids .openBrace xs ∧ Avoids .comma xs := by
  cases hvalue : element xs with
  | fail failure =>
      rw [Parser.many_of_fail hvalue] at h
      cases h
      exact ⟨.nil, .nil⟩
  | ok e rest early =>
      exact ⟨Refuses.avoids (fun ts => Refuses.element (by simp)) hvalue,
        Refuses.avoids (fun ts => Refuses.element (by simp)) hvalue⟩

theorem many_element_append {xs ys : List Lexeme} {elements others : List Element}
    {doubt late : Option Failure} (hxs : Parser.many element xs = .ok elements [] doubt)
    (hys : Parser.many element ys = .ok others [] late)
    (hkeyword : EndsOpen (ys.map Lexeme.token))
    (hclause : EndsOutsideClause (xs.map Lexeme.token)) :
    ∃ doubt', Parser.many element (xs ++ ys) = .ok (elements ++ others) [] doubt' := by
  induction hk : xs.length using Nat.strongRecOn generalizing xs elements doubt with
  | ind k ih =>
      subst hk
      cases hvalue : element xs with
      | fail failure =>
          rw [Parser.many_of_fail hvalue] at hxs
          cases hxs
          exact ⟨late, hys⟩
      | ok e rest early =>
          obtain ⟨later, final, doubt', hlater⟩ := Parser.exists_many_eq element rest
          rw [Advances.element.many_of_ok hvalue hlater] at hxs
          cases hxs
          have hrest := ReadsBalanced.element.endsOutsideClause hvalue hclause
          obtain ⟨early', hfirst⟩ := (Extends.element hkeyword).appended _ _ _ _ hvalue hclause
            (avoids_of_many hlater)
          obtain ⟨doubt'', hothers⟩ :=
            ih rest.length (Advances.element.length_lt hvalue) hlater hrest rfl
          exact ⟨_, Advances.element.many_of_ok hfirst hothers⟩

end Landscape.Grammar

namespace Landscape

open Grammar

namespace Document

variable {xs ys : List Lexeme} {d e : Document}

/-- Documents can be written one after the other, if the second one starts with
a keyword and the first one does not end with a word that opens a clause. -/
theorem ofLexemes_append (hxs : Document.ofLexemes xs = .ok d)
    (hys : Document.ofLexemes ys = .ok e)
    (hkeyword : ∀ t ∈ (ys.map Lexeme.token).head?, isTopLevelKeyword t)
    (hclause : ∀ t ∈ (xs.map Lexeme.token).getLast?, ¬isOneOf clauseKeywords t) :
    Document.ofLexemes (xs ++ ys) = .ok ⟨d.elements ++ e.elements⟩ := by
  obtain ⟨doubt, hxs⟩ := ofLexemes_eq_ok_iff.1 hxs
  obtain ⟨late, hys⟩ := ofLexemes_eq_ok_iff.1 hys
  exact ofLexemes_eq_ok_iff.2 (many_element_append hxs hys hkeyword fun t ht => by
    simpa using hclause t ht)

/-- Declarations that could all go on: `import x Domain D BoundedContext A
implements B`. -/
def openEnded : List Lexeme :=
  [⟨.name "import", 0, 6⟩, ⟨.name "x", 7, 8⟩, ⟨.name "Domain", 9, 15⟩, ⟨.name "D", 16, 17⟩,
    ⟨.name "BoundedContext", 18, 32⟩, ⟨.name "A", 33, 34⟩, ⟨.name "implements", 35, 45⟩,
    ⟨.name "B", 46, 47⟩]

theorem openEnded_ofLexemes_append :
    let ys : List Lexeme := [⟨.name "ContextMap", 48, 58⟩, ⟨.openBrace, 59, 60⟩,
      ⟨.name "contains", 61, 69⟩, ⟨.name "A", 70, 71⟩, ⟨.closeBrace, 72, 73⟩]
    let d : Document := ⟨[.unknown ⟨"import", ["x"], none, 0, 8⟩, .domain ⟨"D", [], 9, 17⟩,
      .context ⟨"A", [⟨"B", 46, 47⟩], [], none, [], 18, 47⟩]⟩
    let e : Document := ⟨[.map ⟨none, [.contains [⟨"A", 70, 71⟩]], [], 48, 73⟩]⟩
    Document.ofLexemes openEnded = .ok d ∧ Document.ofLexemes ys = .ok e ∧
      (∀ t ∈ (ys.map Lexeme.token).head?, isTopLevelKeyword t) ∧
      (∀ t ∈ (openEnded.map Lexeme.token).getLast?, ¬isOneOf clauseKeywords t) ∧
      Document.ofLexemes (openEnded ++ ys) = .ok ⟨d.elements ++ e.elements⟩ :=
  ⟨rfl, rfl, by decide, by decide, ofLexemes_append rfl rfl (by decide) (by decide)⟩

/-- A word that opens a clause takes the keyword behind the seam for a name. -/
example :
    let xs : List Lexeme := [⟨.name "BoundedContext", 0, 14⟩, ⟨.name "A", 15, 16⟩,
      ⟨.name "implements", 17, 27⟩]
    let ys : List Lexeme := [⟨.name "Domain", 28, 34⟩, ⟨.name "D", 35, 36⟩]
    Document.ofLexemes (xs ++ ys) =
      .ok ⟨[.context ⟨"A", [⟨"Domain", 28, 34⟩], [], none, [], 0, 34⟩,
        .unknown ⟨"D", [], none, 35, 36⟩]⟩ :=
  rfl

end Document

end Landscape
