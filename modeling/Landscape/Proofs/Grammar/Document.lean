import Landscape.Proofs.Grammar.Body
import Landscape.Proofs.Grammar.Map

/-!
# Writing and reading

Reading undoes writing: from the tokens of a document, wherever they stand, that
document is read again (`Document.ofLexemes_tokens`).

At the top only the first word matters. Four keywords open the declarations that
are known, a declaration with another keyword is read as an unknown one, and an
`import` with one string is tried before that. What takes care are unknown
declarations without a body. They go on to the next of the four keywords, and so
they can be written only in front of a known declaration or at the end.
-/

namespace Landscape

namespace UseCasePart

theorem isWritable_toEntry {part : UseCasePart} (h : part.isWritable) :
    part.toEntry.isWritable .plain :=
  (Bool.and_eq_true_iff.1 h).1

theorem ofEntry_toEntry {part : UseCasePart} (h : part.isWritable) :
    ofEntry part.toEntry.unplaced = part.unplaced := by
  cases part with
  | actor value => rfl
  | benefit value => rfl
  | scope value => rfl
  | level value => rfl
  | secondaryActors values =>
      cases values with
      | nil => cases h
      | cons value values =>
          simp [toEntry, Entry.unplaced, Attribute.unplaced, ofEntry, Attribute.firstValue?,
            unplaced, Value.text, Function.comp_def]
  | other entry =>
      cases entry with
      | setting scope setting =>
          cases scope with
          | plain =>
              have hkey := (Bool.and_eq_true_iff.1 h).2
              simp only [toEntry, unplaced, Entry.unplaced, Attribute.unplaced, ofEntry]
              split
              all_goals simp_all [ownKeys]
          | subdomain => rfl
          | context => rfl
      | entity entity => rfl
      | declaration heading body span => rfl
      | unknownLine keyword words span => rfl

end UseCasePart

namespace Grammar

variable {ts after : List Token}

/-! ## Domains and use cases -/

theorem Reads.optional_body {scope : Scope} {entries : List Entry}
    (h : isWritableBody scope entries) :
    Reads (Parser.optional (Parser.braced (Grammar.body scope)))
      (inBraces (bodyTokens entries)) after
      fun v => (v.getD []).map Entry.unplaced = entries.map Entry.unplaced :=
  optional_some (between (body h))

theorem Reads.domain {decl : DomainDecl} (h : isWritableBody .subdomain decl.body) :
    Reads domain (Element.domain decl).tokens after fun v => v.unplaced = decl.unplaced := by
  refine located (exactly_bind (token_bind rfl (bind_pure ((optional_body h).imp
    fun v hv span => ?_))))
  simp only [DomainDecl.unplaced, unplacedBody_eq_map, hv]

theorem Reads.useCase {decl : UseCaseDecl} (h : decl.parts.all UseCasePart.isWritable) :
    Reads useCase (Element.useCase decl).tokens after fun v => v.unplaced = decl.unplaced := by
  rw [List.all_eq_true] at h
  have hentries : isWritableBody .plain (decl.parts.map UseCasePart.toEntry) := by
    rw [isWritableBody_iff, List.forall_mem_map]
    exact fun part hpart => UseCasePart.isWritable_toEntry (h part hpart)
  refine located (exactly_bind (token_bind rfl (bind_pure ((optional_body hentries).imp
    fun v hv span => ?_))))
  have parts := congrArg (List.map UseCasePart.ofEntry) hv
  simp only [UseCaseDecl.unplaced, List.map_map, Function.comp_def] at parts ⊢
  simp only [UseCasePart.unplaced_ofEntry, parts]
  refine congrArg (UseCaseDecl.mk _ · _) (List.map_congr_left fun part hpart => ?_)
  exact UseCasePart.ofEntry_toEntry (h part hpart)

/-! ## Contexts -/

namespace ContextClause

def unplaced : ContextClause → ContextClause
  | implements references => .implements (references.map Reference.unplaced)
  | realizes references => .realizes (references.map Reference.unplaced)
  | refines reference => .refines reference.unplaced

/-- Clauses that list something. -/
def isWritable : ContextClause → Bool
  | implements references => !references.isEmpty
  | realizes references => !references.isEmpty
  | refines _ => true

theorem unplaced_implemented (c : ContextClause) :
    c.unplaced.implemented = c.implemented.map Reference.unplaced := by
  cases c <;> rfl

theorem unplaced_realized (c : ContextClause) :
    c.unplaced.realized = c.realized.map Reference.unplaced := by
  cases c <;> rfl

theorem unplaced_refined? (c : ContextClause) :
    c.unplaced.refined? = c.refined?.map Reference.unplaced := by
  cases c <;> rfl

end ContextClause

theorem isWritable_of_mem_clauses {decl : ContextDecl} {c : ContextClause}
    (h : c ∈ decl.clauses) : c.isWritable := by
  simp only [ContextDecl.clauses, List.mem_append, List.mem_map] at h
  rcases h with (h | h) | ⟨r, -, rfl⟩
  · split at h
    · cases h
    · next hne =>
        obtain rfl := List.mem_singleton.1 h
        simpa [ContextClause.isWritable] using hne
  · split at h
    · cases h
    · next hne =>
        obtain rfl := List.mem_singleton.1 h
        simpa [ContextClause.isWritable] using hne
  · rfl

theorem flatMap_implemented_clauses (decl : ContextDecl) :
    decl.clauses.flatMap ContextClause.implemented = decl.implements := by
  cases hi : decl.implements <;> cases hr : decl.realizes <;> cases hf : decl.refines <;>
    simp [ContextDecl.clauses, ContextClause.implemented, hi, hr, hf]

theorem flatMap_realized_clauses (decl : ContextDecl) :
    decl.clauses.flatMap ContextClause.realized = decl.realizes := by
  cases hi : decl.implements <;> cases hr : decl.realizes <;> cases hf : decl.refines <;>
    simp [ContextDecl.clauses, ContextClause.realized, hi, hr, hf]

theorem filterMap_refined?_clauses (decl : ContextDecl) :
    decl.clauses.filterMap ContextClause.refined? = decl.refines.toList := by
  cases hi : decl.implements <;> cases hr : decl.realizes <;> cases hf : decl.refines <;>
    simp [ContextDecl.clauses, ContextClause.refined?, List.filterMap_cons, hi, hr, hf]

theorem Reads.contextClause {c : ContextClause} (h : c.isWritable)
    (hafter : after.head? ≠ some .comma) :
    Reads contextClause c.tokens after fun v => v.unplaced = c.unplaced := by
  cases c with
  | implements rs =>
      have hne : rs ≠ [] := by
        rintro rfl
        cases h
      refine firstOf_head (exactly_bind (bind_pure ((references hne hafter).imp
        fun vs => congrArg ContextClause.implements)))
  | realizes rs =>
      have hne : rs ≠ [] := by
        rintro rfl
        cases h
      refine firstOf_tail (Refuses.exactly_bind (by simp)) ?_
      refine firstOf_head (exactly_bind (bind_pure ((references hne hafter).imp
        fun vs => congrArg ContextClause.realizes)))
  | refines r =>
      refine firstOf_tail (Refuses.exactly_bind (by simp)) ?_
      refine firstOf_tail (Refuses.exactly_bind (by simp)) ?_
      refine firstOf_head (exactly_bind (bind_pure (reference.imp
        fun v => congrArg ContextClause.refines)))

theorem Refuses.contextClause : Refuses contextClause (.openBrace :: ts) := by
  refine firstOf ?_
  simp only [List.forall_mem_cons]
  exact ⟨exactly_bind nofun, exactly_bind nofun, exactly_bind nofun, nofun⟩

theorem ContextClause.tokens_ne (c : ContextClause) :
    c.tokens ≠ [] ∧ c.tokens.head? ≠ some .comma := by
  cases c <;> simp [tokens]

theorem Reads.many_contextClause {clauses : List ContextClause}
    (h : ∀ c ∈ clauses, c.isWritable) :
    Reads (Parser.many Grammar.contextClause) (clauses.flatMap ContextClause.tokens)
      (.openBrace :: after)
      fun vs => vs.map ContextClause.unplaced = clauses.map ContextClause.unplaced := by
  refine many (fun c _ => c.tokens_ne.1) ?_ Refuses.contextClause
  intro c later hsuffix
  refine contextClause (h c (hsuffix.subset List.mem_cons_self)) ?_
  exact head?_flatMap_append_ne (fun c' _ => c'.tokens_ne) (by simp)

theorem Reads.boundedContext {decl : ContextDecl} (h : isWritableBody .context decl.body) :
    Reads boundedContext (Element.context decl).tokens after
      fun v => v.unplaced = decl.unplaced := by
  refine located (exactly_bind (token_bind rfl (bind
    (many_contextClause fun c => isWritable_of_mem_clauses) fun vs hvs => ?_)))
  refine bind_pure ((optional_body h).imp fun v hv span => ?_)
  have implemented := congrArg (List.flatMap ContextClause.implemented) hvs
  have realized := congrArg (List.flatMap ContextClause.realized) hvs
  have refined := congrArg (List.filterMap ContextClause.refined?) hvs
  simp only [flatMap_map_comm ContextClause.unplaced_implemented,
    flatMap_implemented_clauses] at implemented
  simp only [flatMap_map_comm ContextClause.unplaced_realized,
    flatMap_realized_clauses] at realized
  simp only [filterMap_map_comm ContextClause.unplaced_refined?,
    filterMap_refined?_clauses] at refined
  have last : ((vs.filterMap ContextClause.refined?).getLast?).map Reference.unplaced =
      decl.refines.map Reference.unplaced := by
    rw [← List.getLast?_map, refined]
    cases decl.refines <;> rfl
  simp only [ContextDecl.unplaced, unplacedBody_eq_map, implemented, realized, last, hv]

/-! ## Unknown declarations -/

/-- What an open declaration may stand in front of. -/
def EndsOpen (after : List Token) : Prop :=
  ∀ t ∈ after.head?, isTopLevelKeyword t

theorem Reads.importLine {decl : UnknownDecl} (h : decl.isImport) :
    Reads importLine decl.tokens after fun v => v.unplaced = decl.unplaced := by
  obtain ⟨keyword, words, body, span⟩ := decl
  simp only [UnknownDecl.isImport, Bool.and_eq_true, decide_eq_true_eq,
    List.length_eq_one_iff, Option.isNone_iff_eq_none] at h
  obtain ⟨⟨rfl, word, rfl⟩, rfl⟩ := h
  exact located (exactly_bind (token_bind rfl (pure fun _ => rfl)))

/-- The words of a declaration end with its body, or with a keyword. -/
theorem eq_or_isTopLevelKeyword {decl : UnknownDecl} (himport : decl.isImport = false)
    (h : decl.isOpen → EndsOpen after) :
    ∀ t ∈ (decl.bodyPart ++ after).head?, t = .openBrace ∨ isTopLevelKeyword t := by
  intro t ht
  cases hbody : decl.body with
  | some body =>
      rw [UnknownDecl.bodyPart, hbody] at ht
      exact .inl (Option.some.inj ht).symm
  | none =>
      rw [UnknownDecl.bodyPart, hbody] at ht
      exact .inr (h (by simp [UnknownDecl.isOpen, hbody, himport]) t ht)

theorem Refuses.importLine {decl : UnknownDecl} (hwritable : decl.isWritable)
    (himport : decl.isImport = false) (h : decl.isOpen → EndsOpen after) :
    Refuses importLine (decl.tokens ++ after) := by
  -- With this keyword there are no words, so no string comes next.
  refine located (exactly_bind fun heq => bind (token fun t ht => ?_))
  have hkeyword : decl.keyword = "import" := Token.name.inj heq
  have hwords : decl.words = [] := by
    simp only [UnknownDecl.isWritable, Bool.and_eq_true, himport, hkeyword] at hwritable
    simpa using hwritable.1.2
  rw [hwords] at ht
  rcases eq_or_isTopLevelKeyword himport h t ht with rfl | hkeyword
  · rfl
  · cases t with
    | string text => cases hkeyword
    | _ => rfl

theorem Reads.bodyPart {decl : UnknownDecl} (hbody : decl.body.all (isWritableBody .plain))
    (himport : decl.isImport = false) (h : decl.isOpen → EndsOpen after) :
    Reads (Parser.optional (Parser.braced (Grammar.body .plain))) decl.bodyPart after
      fun v => v.map unplacedBody = decl.body.map unplacedBody := by
  cases hdecl : decl.body with
  | some entries =>
      rw [UnknownDecl.bodyPart, hdecl]
      rw [hdecl] at hbody
      refine optional_some (between ((body hbody).imp fun v hv => congrArg some ?_))
      rw [unplacedBody_eq_map, unplacedBody_eq_map, hv]
  | none =>
      rw [UnknownDecl.bodyPart, hdecl]
      refine optional_none (Refuses.bind (Refuses.exactly fun heq => ?_)) rfl
      have hopen : decl.isOpen := by simp [UnknownDecl.isOpen, hdecl, himport]
      exact Bool.false_ne_true (h hopen _ heq)

theorem Reads.unknownDeclaration {decl : UnknownDecl} (hwritable : decl.isWritable)
    (himport : decl.isImport = false) (h : decl.isOpen → EndsOpen after) :
    Reads unknownDeclaration decl.tokens after fun v => v.unplaced = decl.unplaced := by
  have hends := eq_or_isTopLevelKeyword himport h
  simp only [UnknownDecl.isWritable, Bool.and_eq_true, Bool.not_eq_true'] at hwritable
  obtain ⟨⟨hkeyword, -⟩, hbody⟩ := hwritable
  have haccept : isTopLevelKeyword (.name decl.keyword) = false := hkeyword
  have hstop : Refuses (Parser.anyToken fun t => !(t.isBrace || isTopLevelKeyword t))
      (decl.bodyPart ++ after) := by
    refine Refuses.token fun t ht => ?_
    rcases hends t ht with rfl | ht
    · rfl
    · simp [ht]
  refine located (token_bind (v := decl.keyword) (by simp [haccept])
    (bind (many_words (fun _ _ => token rfl rfl) hstop) fun words hwords => ?_))
  refine bind_pure ((bodyPart hbody himport h).imp fun v hv span => ?_)
  rw [UnknownDecl.unplaced, UnknownDecl.unplaced, hwords, hv]

/-! ## Elements -/

/-- A declaration starts with its keyword. -/
theorem Refuses.declaration {α β : Type} {text : String} {next : Unit → Parser (Span → α)}
    {f : α → β} (h : ts.head? ≠ some (.name text)) :
    Refuses (f <$> Parser.located (keyword text >>= next)) ts :=
  map (located (bind (exactly h)))

/-- An unknown declaration starts with none of the four keywords. -/
theorem head?_tokens_ne_of_isWritable {decl : UnknownDecl} (h : decl.isWritable)
    {text : String} (htext : text ∈ topLevelKeywords) :
    (decl.tokens ++ after).head? ≠ some (.name text) := by
  intro heq
  have hkeyword : decl.keyword = text := Token.name.inj (Option.some.inj heq)
  simp [UnknownDecl.isWritable, hkeyword, htext] at h

theorem Reads.element_map {decl : MapDecl}
    (h : Reads Grammar.contextMap (.name "ContextMap" :: ts) after
      fun v => v.unplaced = decl.unplaced) :
    Reads Grammar.element (.name "ContextMap" :: ts) after
      fun v => v.unplaced = (Element.map decl).unplaced := by
  refine firstOf_tail (Refuses.declaration (by simp)) ?_
  refine firstOf_tail (Refuses.declaration (by simp)) ?_
  exact firstOf_head (map (h.imp fun v => congrArg Element.map))

theorem Reads.element {e : Element} (he : e.isWritable)
    (hafter : e.isOpen → EndsOpen after) :
    Reads element e.tokens after fun v => v.unplaced = e.unplaced := by
  cases e with
  | domain decl =>
      exact firstOf_head (map ((domain he).imp fun v => congrArg Element.domain))
  | context decl =>
      refine firstOf_tail (Refuses.declaration (by simp [Element.tokens])) ?_
      exact firstOf_head (map ((boundedContext he).imp fun v => congrArg Element.context))
  | map decl => exact element_map (contextMap he)
  | useCase decl =>
      refine firstOf_tail (Refuses.declaration (by simp [Element.tokens])) ?_
      refine firstOf_tail (Refuses.declaration (by simp [Element.tokens])) ?_
      refine firstOf_tail (Refuses.declaration (by simp [Element.tokens])) ?_
      exact firstOf_head (map ((useCase he).imp fun v => congrArg Element.useCase))
  | unknown decl =>
      have other := @head?_tokens_ne_of_isWritable after decl he
      refine firstOf_tail (Refuses.declaration (other (by decide))) ?_
      refine firstOf_tail (Refuses.declaration (other (by decide))) ?_
      refine firstOf_tail (Refuses.declaration (other (by decide))) ?_
      refine firstOf_tail (Refuses.declaration (other (by decide))) ?_
      cases himport : decl.isImport with
      | true =>
          exact firstOf_head (map ((importLine himport).imp
            fun v => congrArg Element.unknown))
      | false =>
          refine firstOf_tail (Refuses.map (Refuses.importLine he himport hafter)) ?_
          exact firstOf_head (map ((unknownDeclaration he himport hafter).imp
            fun v => congrArg Element.unknown))

/-- An element starts with a name. -/
theorem Refuses.element (h : ∀ text, ts.head? ≠ some (.name text)) : Refuses element ts := by
  have keyword : Refuses (blockKeyword isTopLevelKeyword) ts := by
    refine token fun t ht => ?_
    cases t with
    | name text => exact absurd ht (h text)
    | _ => rfl
  refine firstOf ?_
  simp only [List.forall_mem_cons]
  exact ⟨declaration (h _), declaration (h _), declaration (h _), declaration (h _),
    declaration (h _), map (located (bind keyword)), nofun⟩

/-! ## Documents -/

theorem endsOpen_of_isKnown {e : Element} (h : e.isKnown) : EndsOpen (e.tokens ++ ts) := by
  cases e with
  | domain decl => rintro t ⟨⟩; rfl
  | context decl => rintro t ⟨⟩; rfl
  | map decl => rintro t ⟨⟩; rfl
  | useCase decl => rintro t ⟨⟩; rfl
  | unknown decl => cases h

theorem tokens_ne_nil (e : Element) : e.tokens ≠ [] := by
  cases e <;> exact nofun

/-- What comes after an open element, in elements that are well separated. -/
theorem endsOpen_of_isSeparated {elements later : List Element} {e : Element}
    (h : Document.isSeparated elements) (hsuffix : e :: later <:+ elements)
    (hopen : e.isOpen) :
    EndsOpen (later.flatMap Element.tokens ++ []) := by
  induction elements with
  | nil => simp at hsuffix
  | cons e' rest ih =>
      rcases List.suffix_cons_iff.1 hsuffix with heq | hsuffix
      · obtain ⟨rfl, rfl⟩ := List.cons.inj heq
        cases later with
        | nil => exact nofun
        | cons next later =>
            rw [Document.isSeparated, hopen, Bool.and_eq_true] at h
            rw [List.flatMap_cons, List.append_assoc]
            exact endsOpen_of_isKnown (by simpa using h.1)
      · refine ih ?_ hsuffix
        cases rest with
        | nil => rfl
        | cons next rest => exact (Bool.and_eq_true_iff.1 h).2

theorem Reads.document {d : Document} (h : d.isWritable) :
    Reads document d.tokens [] fun v => v.unplaced = d.unplaced := by
  rw [Document.isWritable, Bool.and_eq_true, List.all_eq_true] at h
  obtain ⟨hwritable, hseparated⟩ := h
  have elements : Reads (Parser.many Grammar.element) d.tokens ([] ++ [])
      fun vs => vs.map Element.unplaced = d.elements.map Element.unplaced :=
    many (fun e _ => tokens_ne_nil e) (fun e later hsuffix =>
      element (hwritable e (hsuffix.subset List.mem_cons_self))
        (endsOpen_of_isSeparated hseparated hsuffix)) (Refuses.element nofun)
  rw [← List.append_nil d.tokens]
  refine bind elements fun vs hvs => bind_pure (endOfInput.imp fun _ _ => ?_)
  rw [Document.unplaced, Document.unplaced, hvs]

end Grammar

namespace Document

/-- The tokens of a document are read as that document, wherever they stand. -/
theorem ofLexemes_tokens {d : Document} (h : d.isWritable) {lexemes : List Lexeme}
    (hlexemes : lexemes.map Lexeme.token = d.tokens) :
    ∃ d', Document.ofLexemes lexemes = .ok d' ∧ d'.unplaced = d.unplaced := by
  obtain ⟨d', doubt, hd', hunplaced⟩ := Grammar.Reads.document h lexemes [] hlexemes rfl
  rw [List.append_nil] at hd'
  exact ⟨d', by rw [Document.ofLexemes, hd'], hunplaced⟩

/-- A document in which everything is called by a keyword. -/
def keywordsAsNames : Document :=
  ⟨[.unknown ⟨"Aggregate", ["import"], none, .none⟩,
    .domain ⟨"Domain",
      [.setting .subdomain ⟨"Subdomain", [.name "Entity", .number "1"], .none⟩,
        .declaration (.subdomain "enum" [])
          [.declaration (.unknown "contains" ["Module"]) [] .none] .none], .none⟩,
    .context ⟨"implements", [⟨"realizes", .none⟩, ⟨"refines", .none⟩], [],
      some ⟨"implements", .none⟩,
      [.setting .context ⟨"type", [.string "Event"], .none⟩], .none⟩,
    .map ⟨none, [.state "AS_IS", .contains [⟨"contains", .none⟩]],
      [⟨⟨"contains", [], ["U"], .none⟩, ⟨none, some .right⟩, ⟨"type", ["D"], [], .none⟩,
        some "state", [.technology "contains"], .none⟩], .none⟩,
    .useCase ⟨"UseCase", [.level "actor", .secondaryActors ["scope", "level"]], .none⟩,
    .unknown ⟨"import", ["Domain"], none, .none⟩]⟩

theorem keywordsAsNames_ofLexemes :
    let lexemes := keywordsAsNames.tokens.mapIdx fun i t => ⟨t, 2 * i, 2 * i + 1⟩
    keywordsAsNames.isWritable ∧ lexemes.map Lexeme.token = keywordsAsNames.tokens ∧
      ∃ d', Document.ofLexemes lexemes = .ok d' ∧ d'.unplaced = keywordsAsNames.unplaced :=
  ⟨by decide, by decide, ofLexemes_tokens (by decide) (by decide)⟩

end Document

end Landscape
