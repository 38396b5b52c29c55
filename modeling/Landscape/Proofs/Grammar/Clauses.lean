import Landscape.Proofs.Grammar.Declared
import Landscape.Proofs.Grammar.Extends

/-!
# Clauses of a context

The header of a context is its name and its clauses, and a clause is a keyword
with the names that it refers to. The clauses end where no other one can be read,
and one can be read wherever such a keyword is in front of a name. So if there is
no body in between, nothing is left behind a context that could be a clause of it
(`ContextRead`).

A keyword without a name may be left. It is not missed as a clause, since outside
braces any other name opens a declaration without meaning, and the keyword is as
good a name as any (`Document.ofLexemes_clauses`). A body behind it is the body of
that declaration.
-/

namespace Landscape

open Grammar

/-- The tokens start with the keyword of a clause and a name. -/
def OpensClause (ts : List Token) : Prop :=
  ∃ keyword ∈ clauseKeywords, ∃ name, [.name keyword, .name name] <+: ts

/-- The header of a context, and the clauses in it. All references are kept, except
that of the contexts that it refines the last one counts. -/
structure ContextDecl.HasHeader (decl : ContextDecl) (header : List Lexeme)
    (clauses : List ContextClause) : Prop where
  tokens_eq : header.map Lexeme.token =
    .name "BoundedContext" :: .name decl.name :: clauses.flatMap ContextClause.tokens
  refer : ∀ c ∈ clauses, c.isWritable
  implements_eq : decl.implements = clauses.flatMap ContextClause.implemented
  realizes_eq : decl.realizes = clauses.flatMap ContextClause.realized
  refines_eq : decl.refines = (clauses.filterMap ContextClause.refined?).getLast?

/-- What a context is read from: a header and perhaps a body. Without a body no
clause comes after it. -/
structure ContextRead (after stretch : List Lexeme) (decl : ContextDecl) : Prop where
  exists_header : ∃ header part clauses, stretch = header ++ part ∧ InBraces part ∧
    decl.HasHeader header clauses ∧ (part = [] → ¬OpensClause (after.map Lexeme.token))

namespace Grammar

variable {α : Type} {xs : List Lexeme}

/-! ## Where a clause starts -/

namespace SucceedsOn

theorem firstOf {p : Parser α} {ps : List (Parser α)} (hp : p ∈ ps) (h : SucceedsOn p xs) :
    SucceedsOn (Parser.firstOf ps) xs := by
  induction ps with
  | nil => cases hp
  | cons q ps ih =>
      show ∃ value rest doubt, Parser.orElse q (Parser.firstOf ps) xs = .ok value rest doubt
      rw [Parser.orElse]
      cases hq : q xs with
      | ok value rest doubt => exact ⟨value, rest, doubt, rfl⟩
      | fail failure =>
          rcases List.mem_cons.1 hp with rfl | hp
          · obtain ⟨value, rest, doubt, hvalue⟩ := h
            rw [hvalue] at hq
            cases hq
          · obtain ⟨value, rest, doubt, hvalue⟩ := ih hp
            exact ⟨value, rest, doubt, by simp only [hvalue]⟩

variable {y : Lexeme} {text : String}

theorem reference (hy : y.token = .name text) : SucceedsOn reference (y :: xs) := by
  have hname : name (y :: xs) = .ok text xs none := by rw [name, Parser.token, hy]
  exact located (bind_pure ⟨_, _, _, hname⟩)

theorem references (hy : y.token = .name text) : SucceedsOn references (y :: xs) := by
  have hreference : SucceedsOn Grammar.reference (y :: xs) := reference hy
  obtain ⟨r, rest, doubt, hr⟩ := hreference
  exact bind hr (bind_pure (Parser.exists_many_eq _ _))

theorem contextClause (h : OpensClause (xs.map Lexeme.token)) : SucceedsOn contextClause xs := by
  obtain ⟨keyword, hkeyword, name, ts, hts⟩ := h
  obtain ⟨x, rest, rfl, hx, hrest⟩ := List.map_eq_cons_iff.1 hts.symm
  obtain ⟨y, more, rfl, hy, -⟩ := List.map_eq_cons_iff.1 hrest
  have opened (text : String) (ht : x.token = .name text) :
      Grammar.keyword text (x :: y :: more) = .ok () (y :: more) none := by
    rw [Grammar.keyword, Parser.exactly, if_pos ht]
  simp only [clauseKeywords, List.mem_cons, List.not_mem_nil, or_false] at hkeyword
  rcases hkeyword with rfl | rfl | rfl
  · exact firstOf List.mem_cons_self (bind (opened _ hx) (bind_pure (references hy)))
  · exact firstOf (List.mem_cons_of_mem _ List.mem_cons_self)
      (bind (opened _ hx) (bind_pure (references hy)))
  · exact firstOf (List.mem_cons_of_mem _ (List.mem_cons_of_mem _ List.mem_cons_self))
      (bind (opened _ hx) (bind_pure (reference hy)))

end SucceedsOn

/-- A repetition ends where there is no other round. -/
theorem Advances.exists_fail_of_many {p : Parser α} (hp : Advances p) {rest : List Lexeme}
    {values : List α} {doubt : Option Failure} (h : Parser.many p xs = .ok values rest doubt) :
    ∃ failure, p rest = .fail failure := by
  induction hn : xs.length using Nat.strongRecOn generalizing xs values doubt with
  | ind n ih =>
      cases hvalue : p xs with
      | fail failure =>
          rw [Parser.many_of_fail hvalue] at h
          cases h
          exact ⟨failure, hvalue⟩
      | ok value mid early =>
          obtain ⟨others, final, late, hothers⟩ := Parser.exists_many_eq p mid
          rw [hp.many_of_ok hvalue hothers] at h
          cases h
          exact ih mid.length (hn ▸ hp.length_lt hvalue) hothers rfl

/-! ## Headers -/

theorem consumes_referenceName : Consumes reference fun read r =>
    read.map Lexeme.token = [.name r.name] :=
  consumes_reference.imp fun _ _ h => h.opens

theorem consumes_referenceList : Consumes references fun read rs =>
    read.map Lexeme.token = referenceTokens rs ∧ rs ≠ [] := by
  refine Consumes.separated consumes_referenceName (fun _ _ hread => ⟨hread, nofun⟩) ?_
  rintro first r comma others rs hfirst hcomma ⟨hothers, hne⟩
  refine ⟨?_, nofun⟩
  rw [List.map_append, List.map_cons, hfirst, hcomma, hothers, referenceTokens, referenceTokens,
    List.map_cons, commaSeparated_cons _ (List.map_eq_nil_iff.not.2 hne)]
  rfl

theorem consumes_clauseTokens : Consumes contextClause fun read c =>
    read.map Lexeme.token = c.tokens ∧ c.isWritable := by
  have clause {text : String} {clause : List Reference → ContextClause}
      (htokens : ∀ rs, (clause rs).tokens = .name text :: referenceTokens rs)
      (hwritable : ∀ rs, (clause rs).isWritable = !rs.isEmpty) :
      Consumes (do keyword text; let rs ← references; return clause rs) fun read c =>
        read.map Lexeme.token = c.tokens ∧ c.isWritable := by
    refine Consumes.bind consumes_exactly ?_
    rintro _ _ ⟨x, rfl, hx⟩
    refine Consumes.bind_pure (consumes_referenceList.imp fun read rs ⟨hread, hne⟩ => ⟨?_, ?_⟩)
    · rw [List.map_append, List.map_singleton, hx, hread, htokens]
      rfl
    · simpa [hwritable] using hne
  refine Consumes.firstOf ?_
  simp only [List.forall_mem_cons]
  refine ⟨clause (fun _ => rfl) fun _ => rfl, clause (fun _ => rfl) fun _ => rfl,
    Consumes.bind consumes_exactly ?_, nofun⟩
  rintro _ _ ⟨x, rfl, hx⟩
  refine Consumes.bind_pure (consumes_referenceName.imp fun read r hread => ⟨?_, rfl⟩)
  rw [List.map_append, List.map_singleton, hx, hread]
  rfl

/-- The clauses that are read are written one after the other, and no other one
can be read behind them. -/
theorem splits_clauses : Splits (Parser.many contextClause) fun read rest clauses =>
    (read.map Lexeme.token = clauses.flatMap ContextClause.tokens ∧
      ∀ c ∈ clauses, c.isWritable) ∧ ∃ failure, contextClause rest = .fail failure := by
  have written : Consumes (Parser.many contextClause) fun read clauses =>
      read.map Lexeme.token = clauses.flatMap ContextClause.tokens ∧
        ∀ c ∈ clauses, c.isWritable := by
    refine Consumes.many consumes_clauseTokens ⟨rfl, nofun⟩ ?_
    rintro first c others clauses ⟨hfirst, hc⟩ ⟨hothers, hclauses⟩
    exact ⟨by rw [List.map_append, hfirst, hothers, List.flatMap_cons],
      List.forall_mem_cons.2 ⟨hc, hclauses⟩⟩
  intro input clauses rest doubt h
  obtain ⟨read, rfl, hread⟩ := written _ _ _ _ h
  exact ⟨read, rfl, hread, Advances.contextClause.exists_fail_of_many h⟩

theorem splits_contextRead : Splits boundedContext fun read rest decl =>
    ContextRead rest read decl := by
  refine Splits.located (Splits.bind consumes_exactly ?_)
  rintro _ _ _ ⟨x, rfl, hx⟩
  refine Splits.bind consumes_name ?_
  rintro _ name _ ⟨y, rfl, hy⟩
  refine Splits.bind splits_clauses ?_
  rintro words clauses mid ⟨⟨hwords, hwritable⟩, failure, hfailure⟩
  refine Splits.bind_pure (Splits.imp consumes_optionalBody ?_)
  rintro part rest entries hpart hmid - -
  refine ⟨[x, y] ++ words, part, clauses, by simp, hpart, ⟨?_, hwritable, rfl, rfl, rfl⟩, ?_⟩
  · rw [List.map_append, hwords, List.map_cons, List.map_singleton, hx, hy]
    rfl
  · rintro rfl hopens
    -- A clause that starts there would have been read.
    obtain ⟨c, later, doubt, hc⟩ := SucceedsOn.contextClause hopens
    rw [hmid, List.nil_append, hc] at hfailure
    cases hfailure

/-! ## Elements -/

/-- Each item is read from a stretch, and with what is left behind that stretch. -/
inductive InTurn (R : List Lexeme → List Lexeme → α → Prop) (rest : List Lexeme) :
    List (List Lexeme) → List α → Prop
  | nil : InTurn R rest [] []
  | cons {stretch : List Lexeme} {stretches : List (List Lexeme)} {item : α} {items : List α}
      (read : R (stretches.flatten ++ rest) stretch item) (more : InTurn R rest stretches items) :
      InTurn R rest (stretch :: stretches) (item :: items)

namespace InTurn

variable {R : List Lexeme → List Lexeme → α → Prop} {rest : List Lexeme}
  {stretches : List (List Lexeme)} {items : List α} {item : α} {i : Nat}

theorem forall₂ (h : InTurn R rest stretches items) :
    List.Forall₂ (fun stretch item => ∃ after, R after stretch item) stretches items := by
  induction h with
  | nil => exact .nil
  | cons hread _ ih => exact .cons ⟨_, hread⟩ ih

/-- Behind a stretch are the stretches of the items after it. -/
theorem getElem? (h : InTurn R rest stretches items) {stretch : List Lexeme}
    (hstretch : stretches[i]? = some stretch) (hitem : items[i]? = some item) :
    R ((stretches.drop (i + 1)).flatten ++ rest) stretch item := by
  induction h generalizing i with
  | nil => simp at hitem
  | cons hread _ ih =>
      cases i with
      | zero =>
          cases hstretch
          cases hitem
          exact hread
      | succ i => exact ih hstretch hitem

end InTurn

/-- What is known of the stretch of an element, if it is a context. -/
theorem splits_elementsInTurn : Splits (Parser.many element) fun read rest elements =>
    ∃ stretches, stretches.flatten = read ∧ InTurn (fun after stretch e =>
      ElementRead after stretch e ∧ ∀ decl, e = .context decl → ContextRead after stretch decl)
      rest stretches elements := by
  have other {β : Type} {p : Parser β} {make : β → Element} (hp : ReadsBalanced p)
      (hmake : ∀ value decl, make value ≠ .context decl) :
      Splits (make <$> p) fun read rest e =>
        ∀ decl, e = .context decl → ContextRead rest read decl :=
    Splits.map (Splits.imp hp fun _ _ value _ decl heq => absurd heq (hmake value decl))
  have context : Splits (Element.context <$> boundedContext) fun read rest e =>
      ∀ decl, e = .context decl → ContextRead rest read decl := by
    refine Splits.map (splits_contextRead.imp ?_)
    rintro read rest decl hread _ ⟨⟩
    exact hread
  have contexts : Splits element fun read rest e =>
      ∀ decl, e = .context decl → ContextRead rest read decl := by
    refine Splits.firstOf ?_
    simp only [List.forall_mem_cons]
    exact ⟨other .domain nofun, context, other .contextMap nofun, other .useCase nofun,
      other .importLine nofun, other .unknownDeclaration nofun, nofun⟩
  have item : Splits element fun read rest e => ElementRead rest read e ∧
      ∀ decl, e = .context decl → ContextRead rest read decl := by
    intro input e rest doubt h
    obtain ⟨read, rfl, hread⟩ := splits_element _ _ _ _ h
    obtain ⟨read', heq, hcontext⟩ := contexts _ _ _ _ h
    obtain rfl := List.append_cancel_right heq
    exact ⟨read, rfl, hread, hcontext⟩
  refine Splits.many item (fun _ => ⟨[], rfl, .nil⟩) ?_
  rintro first e _ rest elements hfirst ⟨stretches, rfl, hothers⟩
  exact ⟨first :: stretches, rfl, .cons hfirst hothers⟩

end Grammar

/-- Of the elements only declarations without meaning open with a keyword of a
clause. -/
theorem Element.exists_unknown_of_opening {e : Element} {keyword : String}
    (hkeyword : keyword ∈ clauseKeywords) (h : e.opening.head? = some keyword) :
    ∃ unknown, e = .unknown unknown ∧ unknown.keyword = keyword := by
  cases e with
  | unknown unknown => exact ⟨unknown, rfl, Option.some.inj h⟩
  | _ =>
      obtain rfl := Option.some.inj h
      exact absurd hkeyword (by decide)

theorem Element.opening_ne_nil (e : Element) : e.opening ≠ [] := by
  cases e <;> exact List.cons_ne_nil _ _

namespace Document

/-- The header of a context consists of its name and its clauses, each with at
least one reference, and if it is all that is written of the context, no keyword
of a clause with a name behind it comes next. A keyword of a clause that does come
next opens a declaration without meaning. -/
theorem ofLexemes_clauses {lexemes : List Lexeme} {d : Document}
    (h : Document.ofLexemes lexemes = .ok d) :
    ∃ stretches : List (List Lexeme), stretches.flatten = lexemes ∧
      List.Forall₂ (fun stretch e => e.span = spanOf stretch) stretches d.elements ∧
      ∀ (i : Nat) stretch decl, stretches[i]? = some stretch →
        d.elements[i]? = some (.context decl) →
        ContextRead (stretches.drop (i + 1)).flatten stretch decl ∧
          ∀ keyword ∈ clauseKeywords,
            ((stretches.drop (i + 1)).flatten.map Lexeme.token).head? = some (.name keyword) →
            ∃ unknown, d.elements[i + 1]? = some (.unknown unknown) ∧
              unknown.keyword = keyword := by
  obtain ⟨doubt, hmany⟩ := ofLexemes_eq_ok_iff.1 h
  obtain ⟨read, hread, stretches, rfl, hstretches⟩ := splits_elementsInTurn _ _ _ _ hmany
  rw [List.append_nil] at hread
  have hspans := hstretches.forall₂.imp fun stretch e ⟨_, hread, _⟩ => hread.laidOut.span_eq
  refine ⟨stretches, hread.symm, hspans, fun i stretch decl hstretch hdecl => ⟨?_, ?_⟩⟩
  · have hcontext := (hstretches.getElem? hstretch hdecl).2 decl rfl
    rwa [List.append_nil] at hcontext
  · intro keyword hkeyword hhead
    have hnext := List.forall₂_drop (i + 1) hstretches.forall₂
    cases hlater : stretches.drop (i + 1) with
    | nil => simp [hlater] at hhead
    | cons next later =>
        rw [hlater] at hnext hhead
        obtain ⟨e, others, ⟨after, hread, -⟩, -, helements⟩ := List.forall₂_cons_left_iff.1 hnext
        obtain ⟨first, words, hopening⟩ := List.exists_cons_of_ne_nil e.opening_ne_nil
        obtain ⟨ts, hts⟩ : e.opening.map Token.name <+: next.map Lexeme.token := hread.laidOut.opens
        rw [List.flatten_cons, List.map_append, ← hts, hopening] at hhead
        have hfirst : first = keyword := Token.name.inj (Option.some.inj hhead)
        obtain ⟨unknown, rfl, hunknown⟩ := Element.exists_unknown_of_opening hkeyword
          (by rw [hopening, hfirst]; rfl)
        refine ⟨unknown, ?_, hunknown⟩
        rw [← List.head?_drop, helements]
        rfl

/-- A context with a clause, and a clause without a name in front of its body. -/
def detachedBody : List Lexeme :=
  [.name "BoundedContext", .name "A", .name "implements", .name "S", .name "refines", .openBrace,
    .name "type", .equals, .name "APPLICATION", .closeBrace].mapIdx fun i t =>
      ⟨t, 2 * i, 2 * i + 1⟩

/-- The body is that of a declaration without meaning. -/
def detachedContext : Document :=
  ⟨[.context ⟨"A", [⟨"S", ⟨6, 7⟩⟩], [], none, [], ⟨0, 7⟩⟩,
    .unknown ⟨"refines", [],
      some [.setting .plain ⟨"type", [.name "APPLICATION"], ⟨12, 17⟩⟩], ⟨8, 19⟩⟩]⟩

theorem detachedContext_clauses :
    Document.ofLexemes detachedBody = .ok detachedContext ∧
      ∃ stretches : List (List Lexeme), stretches.flatten = detachedBody ∧
        List.Forall₂ (fun stretch e => e.span = spanOf stretch) stretches
          detachedContext.elements ∧
        ∀ (i : Nat) stretch decl, stretches[i]? = some stretch →
          detachedContext.elements[i]? = some (.context decl) →
          ContextRead (stretches.drop (i + 1)).flatten stretch decl ∧
            ∀ keyword ∈ clauseKeywords,
              ((stretches.drop (i + 1)).flatten.map Lexeme.token).head? = some (.name keyword) →
              ∃ unknown, detachedContext.elements[i + 1]? = some (.unknown unknown) ∧
                unknown.keyword = keyword := by
  have hread : Document.ofLexemes detachedBody = .ok detachedContext := rfl
  exact ⟨hread, ofLexemes_clauses hread⟩

/-- A keyword of a clause may open a declaration without meaning right behind a
context without a body, and where no name comes behind it there may still be a
document. -/
theorem clause_keyword_left :
    (¬∀ lexemes d, Document.ofLexemes lexemes = .ok d → ∀ before decl unknown later,
      d.elements = before ++ .context decl :: .unknown unknown :: later →
      (∀ x ∈ lexemes, decl.span.start ≤ x.span.start → x.span.stop ≤ decl.span.stop →
        x.token.isBrace = false) →
      unknown.keyword ∉ clauseKeywords) ∧
    ¬∀ header key rest (decl : ContextDecl) clauses keyword, decl.HasHeader header clauses →
      key.token = .name keyword → keyword ∈ clauseKeywords →
      (∀ next ∈ rest.head?, ∀ name, next.token ≠ .name name) →
      ∃ failure, Document.ofLexemes (header ++ key :: rest) = .error failure := by
  have hread : Document.ofLexemes detachedBody = .ok detachedContext := rfl
  constructor
  · intro h
    exact h _ _ hread [] _ _ [] rfl (by decide) (by decide)
  · intro h
    have hheader : ContextDecl.HasHeader ⟨"A", [⟨"S", .none⟩], [], none, [], .none⟩
        (detachedBody.take 4) [.implements [⟨"S", .none⟩]] :=
      ⟨by decide, by decide, rfl, rfl, rfl⟩
    obtain ⟨failure, hfailure⟩ := h _ ⟨.name "refines", ⟨8, 9⟩⟩ (detachedBody.drop 5) _ _
      "refines" hheader rfl (by decide) (by rintro _ ⟨⟩; exact nofun)
    cases hread.symm.trans hfailure

end Document

end Landscape
