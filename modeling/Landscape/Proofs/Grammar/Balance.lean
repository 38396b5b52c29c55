import Landscape.Proofs.Document.Writing
import Landscape.Proofs.Grammar.Consumes
import Landscape.Reading

/-!
# Braces come in pairs

The grammar skips a good deal: words in a heading, tokens in a body that fit
nowhere, whole blocks with a keyword it does not know. Braces are what it never
skips. An opening brace is read in one place only, by `braced`, and from there a
reading succeeds only with the brace that closes it; every other rule names the
tokens it reads, or names what they may not be. So whatever a rule has read is
balanced by itself, and a document is one stretch of such readings
(`Document.ofLexemes_balanced`).

The body of a declaration may use itself. It is balanced at every depth of
unfolding, which is an induction that `Consumes.nested` has done.
-/

namespace Landscape

/-! ## Balanced lists of tokens -/

/-- The braces in some tokens belong together. -/
structure Balanced (ts : List Token) : Prop where
  /-- No more braces are closed than were opened, however far one looks. -/
  count_le : ∀ before, before <+: ts → before.count .closeBrace ≤ before.count .openBrace
  count_eq : ts.count .closeBrace = ts.count .openBrace

namespace Balanced

theorem iff_forall_take {ts : List Token} :
    Balanced ts ↔
      (∀ n < ts.length + 1, (ts.take n).count .closeBrace ≤ (ts.take n).count .openBrace) ∧
        ts.count .closeBrace = ts.count .openBrace := by
  refine ⟨fun h => ⟨fun n _ => h.count_le _ (List.take_prefix n ts), h.count_eq⟩,
    fun h => ⟨fun before hbefore => ?_, h.2⟩⟩
  rw [List.prefix_iff_eq_take.1 hbefore]
  exact h.1 _ (Nat.lt_succ_of_le hbefore.length_le)

instance (ts : List Token) : Decidable (Balanced ts) :=
  decidable_of_iff' _ iff_forall_take

theorem of_isBrace_eq_false {ts : List Token} (h : ∀ t ∈ ts, t.isBrace = false) :
    Balanced ts := by
  have hclose : Token.closeBrace ∉ ts := fun hmem => Bool.false_ne_true (h _ hmem).symm
  have hopen : Token.openBrace ∉ ts := fun hmem => Bool.false_ne_true (h _ hmem).symm
  refine ⟨fun before hbefore => ?_, ?_⟩
  · rw [List.count_eq_zero.2 fun hmem => hclose (hbefore.subset hmem)]
    exact Nat.zero_le _
  · rw [List.count_eq_zero.2 hclose, List.count_eq_zero.2 hopen]

theorem nil : Balanced [] :=
  of_isBrace_eq_false nofun

theorem append {ts us : List Token} (hts : Balanced ts) (hus : Balanced us) :
    Balanced (ts ++ us) := by
  refine ⟨fun before hbefore => ?_, ?_⟩
  · rcases List.prefix_or_prefix_of_prefix hbefore (List.prefix_append ts us) with h | h
    · exact hts.count_le before h
    · obtain ⟨later, rfl⟩ := h
      have hlater := hus.count_le later ((List.prefix_append_right_inj ts).1 hbefore)
      rw [List.count_append, List.count_append, hts.count_eq]
      exact Nat.add_le_add_left hlater _
  · rw [List.count_append, List.count_append, hts.count_eq, hus.count_eq]

/-- Inside a pair of braces one more is open than inside the list alone, so the
last brace can close it. -/
theorem inBraces {ts : List Token} (h : Balanced ts) : Balanced (inBraces ts) := by
  refine ⟨fun before hbefore => ?_, ?_⟩
  · rcases List.prefix_cons_iff.1 hbefore with rfl | ⟨later, rfl, hlater⟩
    · exact Nat.le_refl 0
    · have hcount : later.count .closeBrace ≤ later.count .openBrace + 1 := by
        rcases List.prefix_concat_iff.1 hlater with rfl | hlater
        · simp [h.count_eq]
        · exact Nat.le_succ_of_le (h.count_le later hlater)
      simpa using hcount
  · simp [Landscape.inBraces, h.count_eq]

end Balanced

namespace Grammar

variable {α β : Type}

/-! ## Balanced readings -/

/-- Whatever a parser reads is balanced. -/
def ReadsBalanced (p : Parser α) : Prop :=
  Consumes p fun read _ => Balanced (read.map Lexeme.token)

/-- A parser reads no brace. -/
def ReadsNoBrace (p : Parser α) : Prop :=
  Consumes p fun read _ => ∀ found ∈ read, found.token.isBrace = false

theorem ReadsNoBrace.balanced {p : Parser α} (h : ReadsNoBrace p) : ReadsBalanced p :=
  h.imp fun _ _ hread => .of_isBrace_eq_false (List.forall_mem_map.2 hread)

theorem ReadsNoBrace.token {accept : Token → Option α} {expected : List Expectation}
    (h : ∀ t value, accept t = some value → t.isBrace = false) :
    ReadsNoBrace (Parser.token accept expected) := by
  refine Consumes.token fun found value hvalue => ?_
  rw [List.forall_mem_singleton]
  exact h found.token value hvalue

theorem ReadsNoBrace.anyToken {allowed : Token → Bool}
    (h : ∀ t, allowed t → t.isBrace = false) : ReadsNoBrace (Parser.anyToken allowed) :=
  token fun t value hvalue => h t (by simpa using (Option.ite_some_none_eq_some.1 hvalue).1)

namespace ReadsNoBrace

variable {p q : Parser α}

theorem bind {next : α → Parser β} (hp : ReadsNoBrace p)
    (hnext : ∀ value, ReadsNoBrace (next value)) : ReadsNoBrace (p >>= next) := by
  refine Consumes.bind hp fun read value hread => (hnext value).imp fun read' _ hread' => ?_
  exact fun x hx => (List.mem_append.1 hx).elim (hread x) (hread' x)

theorem bind_pure {f : α → β} (hp : ReadsNoBrace p) :
    ReadsNoBrace (p >>= fun value => Pure.pure (f value)) :=
  Consumes.bind_pure hp

theorem located {p : Parser (Span → α)} (hp : ReadsNoBrace p) :
    ReadsNoBrace (Parser.located p) :=
  Consumes.located (hp.imp fun _ _ hread _ => hread)

theorem exactly {t : Token} (h : t.isBrace = false) : ReadsNoBrace (Parser.exactly t) := by
  refine Consumes.exactly fun found hfound => ?_
  rw [List.forall_mem_singleton, hfound, h]

theorem many (hp : ReadsNoBrace p) : ReadsNoBrace (Parser.many p) :=
  Consumes.many hp nofun fun _ _ _ _ hfirst hothers x hx =>
    (List.mem_append.1 hx).elim (hfirst x) (hothers x)

theorem separated (hp : ReadsNoBrace p) : ReadsNoBrace (Parser.separated p) :=
  hp.bind fun _ => bind_pure (many (bind (exactly rfl) fun _ => hp))

end ReadsNoBrace

namespace ReadsBalanced

variable {p q : Parser α}

theorem pure {value : α} : ReadsBalanced (Pure.pure value) :=
  Consumes.pure .nil

theorem bind {next : α → Parser β} (hp : ReadsBalanced p)
    (hnext : ∀ value, ReadsBalanced (next value)) : ReadsBalanced (p >>= next) := by
  refine Consumes.bind hp fun read value hread => (hnext value).imp fun read' _ hread' => ?_
  rw [List.map_append]
  exact hread.append hread'

theorem bind_pure {f : α → β} (hp : ReadsBalanced p) :
    ReadsBalanced (p >>= fun value => Pure.pure (f value)) :=
  Consumes.bind_pure hp

theorem map {f : α → β} (hp : ReadsBalanced p) : ReadsBalanced (f <$> p) :=
  Consumes.map hp

theorem located {p : Parser (Span → α)} (hp : ReadsBalanced p) :
    ReadsBalanced (Parser.located p) :=
  Consumes.located (hp.imp fun _ _ hread _ => hread)

theorem exactly {t : Token} (h : t.isBrace = false) : ReadsBalanced (Parser.exactly t) :=
  (ReadsNoBrace.exactly h).balanced

theorem optional (hp : ReadsBalanced p) : ReadsBalanced (Parser.optional p) :=
  Consumes.optional hp .nil

theorem many (hp : ReadsBalanced p) : ReadsBalanced (Parser.many p) := by
  refine Consumes.many hp .nil fun first _ others _ hfirst hothers => ?_
  rw [List.map_append]
  exact hfirst.append hothers

theorem separated (hp : ReadsBalanced p) : ReadsBalanced (Parser.separated p) :=
  hp.bind fun _ => bind_pure (many (bind (exactly rfl) fun _ => hp))

theorem between {opening closing : Token} (hopening : opening.isBrace = false)
    (hclosing : closing.isBrace = false) (hp : ReadsBalanced p) :
    ReadsBalanced (Parser.between opening closing p) :=
  bind (exactly hopening) fun _ => hp.bind fun _ => bind_pure (exactly hclosing)

/-- The one rule that reads braces reads two of them, around what `p` has read. -/
theorem consumes_braced (hp : ReadsBalanced p) : Consumes (Parser.braced p) fun read _ =>
    ∃ inner, read.map Lexeme.token = Landscape.inBraces inner ∧ Balanced inner := by
  refine (Consumes.between hp).imp ?_
  rintro _ _ ⟨opening, inside, closing, rfl, hopening, hclosing, hinside⟩
  refine ⟨inside.map Lexeme.token, ?_, hinside⟩
  rw [List.map_cons, List.map_append, List.map_singleton, hopening, hclosing]
  rfl

theorem braced (hp : ReadsBalanced p) : ReadsBalanced (Parser.braced p) :=
  hp.consumes_braced.imp fun _ _ ⟨inner, hinner, hbalanced⟩ => by
    rw [hinner]
    exact hbalanced.inBraces

end ReadsBalanced

/-! ## Words -/

theorem ReadsNoBrace.name : ReadsNoBrace name :=
  token fun t _ h => by cases t <;> first | rfl | cases h

theorem ReadsNoBrace.headingToken : ReadsNoBrace headingToken := by
  have word : ReadsNoBrace (Parser.anyToken fun t =>
      !(t.isBrace || t = .equals || isDeclarationKeyword t)) :=
    anyToken fun t ht => by simp_all
  intro input value rest doubt h
  rw [Grammar.headingToken] at h
  split at h
  · cases h
  · exact word _ _ _ _ h

theorem ReadsNoBrace.strayToken : ReadsNoBrace strayToken :=
  Consumes.bind_pure (anyToken fun t ht => by simp_all)

theorem ReadsNoBrace.reference : ReadsNoBrace reference :=
  located (bind_pure name)

theorem ReadsNoBrace.value : ReadsNoBrace value :=
  token fun t _ h => by cases t <;> first | rfl | cases h

theorem ReadsNoBrace.attributeSetting : ReadsNoBrace attributeSetting :=
  located (bind name fun _ => bind (exactly rfl) fun _ => bind_pure value.separated)

theorem ReadsNoBrace.contextClause : ReadsNoBrace contextClause := by
  refine Consumes.firstOf ?_
  simp only [List.forall_mem_cons]
  exact ⟨bind (exactly rfl) fun _ => bind_pure reference.separated,
    bind (exactly rfl) fun _ => bind_pure reference.separated,
    bind (exactly rfl) fun _ => bind_pure reference, nofun⟩

namespace ReadsBalanced

theorem name : ReadsBalanced name :=
  ReadsNoBrace.name.balanced

theorem keyword {text : String} : ReadsBalanced (keyword text) :=
  exactly rfl

theorem quietKeyword {text : String} : ReadsBalanced (quietKeyword text) :=
  (ReadsNoBrace.token fun t _ h => by cases t <;> first | rfl | cases h).balanced

theorem blockKeyword {reserved : Token → Bool} : ReadsBalanced (blockKeyword reserved) :=
  (ReadsNoBrace.token fun t _ h => by cases t <;> first | rfl | cases h).balanced

theorem objectKeyword : ReadsBalanced objectKeyword :=
  (ReadsNoBrace.token fun t _ h => by cases t <;> first | rfl | cases h).balanced

theorem relationKeyword : ReadsBalanced relationKeyword :=
  (ReadsNoBrace.token fun t _ h => by cases t <;> first | rfl | cases h).balanced

theorem string : ReadsBalanced string :=
  (ReadsNoBrace.token fun t _ h => by cases t <;> first | rfl | cases h).balanced

theorem value : ReadsBalanced value :=
  ReadsNoBrace.value.balanced

theorem reference : ReadsBalanced reference :=
  ReadsNoBrace.reference.balanced

theorem references : ReadsBalanced references :=
  separated reference

theorem attributeSetting : ReadsBalanced attributeSetting :=
  ReadsNoBrace.attributeSetting.balanced

theorem roles : ReadsBalanced roles :=
  between rfl rfl (separated name)

/-! ## Bodies -/

variable {inner : Parser (List Entry)}

theorem namedDeclaration {opening : Parser α} {heading : α → String → Heading}
    (hopening : ReadsBalanced opening) (hinner : ReadsBalanced inner) :
    ReadsBalanced (namedDeclaration opening heading inner) :=
  located (hopening.bind fun _ => bind name fun _ =>
    bind (many ReadsNoBrace.headingToken.balanced) fun _ => bind_pure (optional (braced hinner)))

theorem unknownBlock (hinner : ReadsBalanced inner) : ReadsBalanced (unknownBlock inner) :=
  located (bind blockKeyword fun _ =>
    bind (many ReadsNoBrace.headingToken.balanced) fun _ => bind_pure (braced hinner))

theorem bodyEntry {scope : Scope} (hinner : ReadsBalanced inner) :
    ReadsBalanced (bodyEntry scope inner) := by
  have group {keyword : String} {kind : GroupKind} :
      ReadsBalanced (groupDeclaration keyword kind inner) := namedDeclaration quietKeyword hinner
  refine Consumes.firstOf ?_
  simp only [List.forall_mem_cons]
  exact ⟨map (namedDeclaration quietKeyword hinner), map (namedDeclaration objectKeyword hinner),
    map group, map group, map group, map attributeSetting, map (unknownBlock hinner),
    map ReadsNoBrace.strayToken.balanced, nofun⟩

theorem body {scope : Scope} : ReadsBalanced (body scope) :=
  Consumes.nested fun _ hinner => map (many (bodyEntry hinner))

/-! ## Context maps -/

theorem anyArrow : ReadsBalanced anyArrow := by
  have mark {arrow : Arrow} : ReadsBalanced (arrowMark arrow) := bind_pure (exactly rfl)
  refine Consumes.firstOf ?_
  simp only [List.forall_mem_cons]
  exact ⟨mark, mark, mark, nofun⟩

theorem connection : ReadsBalanced connection := by
  refine Consumes.firstOf ?_
  simp only [List.forall_mem_cons]
  exact ⟨bind relationKeyword fun _ => bind_pure (optional anyArrow), bind_pure anyArrow, nofun⟩

theorem endpoint : ReadsBalanced endpoint :=
  located (bind (optional roles) fun _ => bind name fun _ => bind_pure (optional roles))

theorem relationAttributes : ReadsBalanced relationAttributes := by
  have stray : ReadsNoBrace (Parser.anyToken fun t => !t.isBrace) :=
    ReadsNoBrace.anyToken fun t ht => by simpa using ht
  exact map (braced (many (Consumes.orElse (map attributeSetting) (map stray.balanced))))

theorem relation : ReadsBalanced relation :=
  located (bind endpoint fun _ => bind connection fun _ => bind endpoint fun _ =>
    bind (optional (bind (exactly rfl) fun _ => name)) fun _ =>
      bind_pure (optional relationAttributes))

theorem mapEntry : ReadsBalanced mapEntry := by
  refine Consumes.firstOf ?_
  simp only [List.forall_mem_cons]
  exact ⟨bind keyword fun _ => bind_pure references, map attributeSetting, map relation, nofun⟩

theorem contextMap : ReadsBalanced contextMap :=
  located (bind keyword fun _ => bind (optional name) fun _ => bind_pure (braced (many mapEntry)))

/-! ## Documents -/

theorem contextClause : ReadsBalanced contextClause :=
  ReadsNoBrace.contextClause.balanced

theorem domain : ReadsBalanced domain :=
  located (bind keyword fun _ => bind name fun _ => bind_pure (optional (braced body)))

theorem boundedContext : ReadsBalanced boundedContext :=
  located (bind keyword fun _ => bind name fun _ => bind (many contextClause) fun _ =>
    bind_pure (optional (braced body)))

theorem useCase : ReadsBalanced useCase :=
  located (bind keyword fun _ => bind name fun _ => bind_pure (optional (braced body)))

theorem importLine : ReadsBalanced importLine :=
  located (bind keyword fun _ => bind_pure string)

end ReadsBalanced

/-- An unknown declaration reads braces only as those of its body. -/
theorem consumes_unknownDeclaration : Consumes unknownDeclaration fun read decl =>
    Balanced (read.map Lexeme.token) ∧
      (decl.body = none → ∀ found ∈ read, found.token.isBrace = false) := by
  have keyword : ReadsNoBrace (blockKeyword isTopLevelKeyword) :=
    .token fun t _ h => by cases t <;> first | rfl | cases h
  have word : ReadsNoBrace (Parser.anyToken fun t => !(t.isBrace || isTopLevelKeyword t)) :=
    .anyToken fun t ht => by simp_all
  have words : ReadsNoBrace (Parser.many
      (Parser.anyToken fun t => !(t.isBrace || isTopLevelKeyword t))) := word.many
  have body : Consumes (Parser.optional (Parser.braced (Grammar.body .plain)))
      fun read entries => Balanced (read.map Lexeme.token) ∧ (entries = none → read = []) :=
    Consumes.optional ((ReadsBalanced.braced ReadsBalanced.body).imp
      fun _ _ hread => ⟨hread, nofun⟩) ⟨.nil, fun _ => rfl⟩
  refine Consumes.located (Consumes.bind keyword fun first _ hfirst => ?_)
  refine Consumes.bind words fun heading _ hheading => ?_
  refine Consumes.bind_pure (body.imp fun last entries hlast span => ?_)
  have front : ∀ found ∈ first ++ heading, found.token.isBrace = false := fun found hfound =>
    (List.mem_append.1 hfound).elim (hfirst found) (hheading found)
  rw [← List.append_assoc]
  refine ⟨?_, fun hnone => ?_⟩
  · rw [List.map_append]
    exact (Balanced.of_isBrace_eq_false (List.forall_mem_map.2 front)).append hlast.1
  · rw [hlast.2 hnone, List.append_nil]
    exact front

theorem ReadsBalanced.unknownDeclaration : ReadsBalanced unknownDeclaration :=
  consumes_unknownDeclaration.imp fun _ _ h => h.1

theorem ReadsBalanced.element : ReadsBalanced element := by
  refine Consumes.firstOf ?_
  simp only [List.forall_mem_cons]
  exact ⟨map domain, map boundedContext, map contextMap, map useCase, map importLine,
    map unknownDeclaration, nofun⟩

end Grammar

namespace Document

open Grammar

theorem balanced_of_ofLexemes_eq_ok {lexemes : List Lexeme} {d : Document}
    (h : Document.ofLexemes lexemes = .ok d) : Balanced (lexemes.map Lexeme.token) := by
  obtain ⟨doubt, hmany⟩ := ofLexemes_eq_ok_iff.1 h
  obtain ⟨read, rfl, hread⟩ := ReadsBalanced.element.many _ _ _ _ hmany
  rwa [List.append_nil]

/-- Only balanced tokens are read as a document, and all others are a syntax
error. The rules that skip tokens, or that do without a body, are no exception:
what they skip are no braces, and what an entry, an unknown block or a
declaration has read is balanced by itself. -/
theorem ofLexemes_balanced (lexemes : List Lexeme) (source : String) :
    (∀ d, documentOfLexemes source lexemes = .ok d → Balanced (lexemes.map Lexeme.token)) ∧
      (¬Balanced (lexemes.map Lexeme.token) →
        ∃ diagnostic, documentOfLexemes source lexemes = .error diagnostic ∧
          diagnostic.isError ∧ diagnostic.code = some "syntax") ∧
      ReadsNoBrace strayToken ∧ ReadsNoBrace headingToken ∧
      (∀ scope, ReadsBalanced (bodyEntry scope (body scope)) ∧
        ReadsBalanced (unknownBlock (body scope))) ∧
      ReadsBalanced relationAttributes ∧ ReadsBalanced mapEntry ∧ ReadsBalanced element ∧
      Consumes unknownDeclaration fun read decl =>
        decl.body = none → ∀ found ∈ read, found.token.isBrace = false := by
  refine ⟨fun d h => ?_, fun h => ?_, .strayToken, .headingToken,
    fun scope => ⟨.bodyEntry .body, .unknownBlock .body⟩, .relationAttributes, .mapEntry,
    .element, consumes_unknownDeclaration.imp fun _ _ h => h.2⟩
  · rw [documentOfLexemes] at h
    split at h
    · next hd => exact balanced_of_ofLexemes_eq_ok hd
    · cases h
  · rw [documentOfLexemes]
    cases hd : Document.ofLexemes lexemes with
    | ok d => exact absurd (balanced_of_ofLexemes_eq_ok hd) h
    | error failure => exact ⟨_, rfl, rfl, rfl⟩

/-- As many braces are closed here as are opened, but one too early. -/
theorem earlyBrace_ofLexemes :
    let tokens : List Token := [.name "Domain", .name "D", .openBrace, .symbol '-', .closeBrace,
      .closeBrace, .name "import", .openBrace]
    let lexemes := tokens.mapIdx fun i t => ⟨t, 2 * i, 2 * i + 1⟩
    ¬Balanced (lexemes.map Lexeme.token) ∧
      ∃ diagnostic, documentOfLexemes "D D \x7b - \x7d \x7d i \x7b" lexemes = .error diagnostic ∧
        diagnostic.isError ∧ diagnostic.code = some "syntax" :=
  ⟨by decide, (ofLexemes_balanced _ _).2.1 (by decide)⟩

end Document

end Landscape
