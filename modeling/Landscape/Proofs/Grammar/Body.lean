import Landscape.Grammar.Body
import Landscape.Proofs.Grammar.Terminal

/-!
# Bodies

A body is read by trying eight things at each place, so to see that an entry is
read as itself is to see that everything tried before it fails. The keywords do
not settle that alone, since a setting may have a keyword for a key: what rules
out a declaration there is the equals sign where its name would be. What rules
out a setting for a declaration is the other way round.

The induction is on how often the body has been unfolded. It needs one level
for each pair of braces, which is less than there are tokens.
-/

namespace Landscape

theorem bodyTokens_eq_flatMap (body : List Entry) :
    bodyTokens body = body.flatMap Entry.tokens := by
  induction body with
  | nil => rw [bodyTokens, List.flatMap_nil]
  | cons entry rest ih => rw [bodyTokens, ih, List.flatMap_cons]

theorem isWritableBody_iff {scope : Scope} {body : List Entry} :
    isWritableBody scope body ↔ ∀ entry ∈ body, entry.isWritable scope := by
  induction body with
  | nil => simp [isWritableBody]
  | cons entry rest ih => rw [isWritableBody, Bool.and_eq_true, ih, List.forall_mem_cons]

namespace ObjectKind

theorem ofKeyword?_keyword (kind : ObjectKind) : ofKeyword? kind.keyword = some kind := by
  cases kind <;> rfl

theorem ofKeyword?_eq_none {keyword : String}
    (h : Grammar.declarationKeywords.contains keyword = false) :
    ofKeyword? keyword = none := by
  unfold ofKeyword?
  split
  all_goals first | rfl | exact absurd h (by decide)

end ObjectKind

/-- What can be written starts with a name. -/
theorem Entry.exists_tokens_eq {scope : Scope} {e : Entry} (h : e.isWritable scope) :
    ∃ text rest, e.tokens = .name text :: rest := by
  cases e with
  | setting scope' setting => exact ⟨_, _, by rw [tokens, Attribute.tokens]⟩
  | entity entity => simp [isWritable] at h
  | declaration heading body span =>
      rw [tokens]
      cases heading <;> exact ⟨_, _, rfl⟩
  | unknownLine keyword words span => simp [isWritable] at h

namespace Grammar

variable {α : Type} {ts after : List Token} {inner : Parser (List Entry)}

/-! ## Headings -/

theorem Reads.headingToken {word : String} :
    Reads headingToken [.string word] after fun t => t.contents = word := by
  intro read rest hread hrest
  have htoken : Reads (Parser.anyToken fun t =>
      !(t.isBrace || t = .equals || isDeclarationKeyword t)) [.string word] after
      fun t => t.contents = word := token rfl rfl
  have hahead : ¬settingAhead (read ++ rest) := by
    obtain ⟨⟨t, span⟩, rfl, ht⟩ := List.map_eq_singleton_iff.1 hread
    cases ht
    exact Bool.false_ne_true
  rw [Grammar.headingToken, if_neg hahead]
  exact htoken read rest hread hrest

theorem Refuses.headingToken : Refuses headingToken (.openBrace :: ts) := by
  intro input hinput
  rw [Grammar.headingToken]
  split
  · exact ⟨_, rfl⟩
  · exact token (by simp [Token.isBrace]) input hinput

/-- Words are written as strings, which nothing takes for anything else. -/
theorem Reads.many_words {p : Parser Token} {words : List String}
    (hp : ∀ word after, Reads p [.string word] after fun t => t.contents = word)
    (hend : Refuses p after) :
    Reads (Parser.many p) (words.map .string) after
      fun vs => vs.map Token.contents = words := by
  rw [List.map_eq_flatMap]
  refine (many (w := id) (by simp) (fun word _ _ => hp word _) hend).imp fun vs hvs => ?_
  rwa [List.map_id] at hvs

/-! ## Declarations -/

section

variable {accept : Token → Option α} {expected : List Expectation} {t : Token}
  {heading : α → String → Heading}

theorem Reads.namedDeclaration {kind : α} {name : String} {body : List Entry} {span : Span}
    (ht : accept t = some kind)
    (hbody : Reads inner (bodyTokens body) (.closeBrace :: after)
      fun vs => vs.map Entry.unplaced = body.map Entry.unplaced) :
    Reads (namedDeclaration (Parser.token accept expected) heading inner)
      (t :: .name name :: inBraces (bodyTokens body)) after
      fun v => v.unplaced = (Entry.declaration (heading kind name) body span).unplaced := by
  refine located (token_bind ht (token_bind rfl ?_))
  have noWords : Reads (Parser.many Grammar.headingToken) (([] : List String).map .string)
      (inBraces (bodyTokens body) ++ after) fun vs => vs.map Token.contents = [] :=
    many_words (fun _ _ => headingToken) Refuses.headingToken
  rw [← List.nil_append (inBraces _)]
  refine bind noWords fun _ _ => bind_pure (optional_some (between ?_))
  refine hbody.imp fun vs hvs span' => ?_
  rw [Entry.unplaced, Entry.unplaced, unplacedBody_eq_map, unplacedBody_eq_map]
  exact congrArg (Entry.declaration _ · _) hvs

/-- A declaration needs a name after its keyword. -/
theorem Refuses.namedDeclaration
    (h : accept t = none ∨ ∀ text, ts.head? ≠ some (.name text)) :
    Refuses (namedDeclaration (Parser.token accept expected) heading inner) (t :: ts) := by
  refine located (token_bind fun kind hkind => ?_)
  rcases h with h | h
  · rw [h] at hkind
    cases hkind
  · exact bind (name h)

end

theorem Reads.unknownBlock {keyword : String} {words : List String} {body : List Entry}
    {span : Span} (hkeyword : declarationKeywords.contains keyword = false)
    (hbody : Reads inner (bodyTokens body) (.closeBrace :: after)
      fun vs => vs.map Entry.unplaced = body.map Entry.unplaced) :
    Reads (unknownBlock inner)
      (.name keyword :: (words.map .string ++ inBraces (bodyTokens body))) after
      fun v => v.unplaced = (Entry.declaration (.unknown keyword words) body span).unplaced := by
  have haccept : isDeclarationKeyword (.name keyword) = false := hkeyword
  refine located (token_bind (v := keyword) (by simp [haccept]) ?_)
  refine bind (many_words (fun _ _ => headingToken) Refuses.headingToken) fun vs hvs => ?_
  refine bind_pure (between (hbody.imp fun es hes span' => ?_))
  rw [Entry.unplaced, Entry.unplaced, unplacedBody_eq_map, unplacedBody_eq_map, hvs]
  exact congrArg (Entry.declaration _ · _) hes

/-! ## One entry -/

/-- The declarations that are tried for an entry, before anything else. -/
def nestedDeclarations (inner : Parser (List Entry)) : List (Parser (Option Entry)) :=
  [some <$> namedDeclaration (quietKeyword "Subdomain") (fun _ name => .subdomain name []) inner,
    some <$> namedDeclaration objectKeyword Heading.object inner,
    some <$> groupDeclaration "Aggregate" .aggregate inner,
    some <$> groupDeclaration "Service" .service inner,
    some <$> groupDeclaration "Module" .module inner]

theorem bodyEntry_eq (scope : Scope) (inner : Parser (List Entry)) :
    bodyEntry scope inner = Parser.firstOf (nestedDeclarations inner ++
      [(fun setting => some (.setting scope setting)) <$> attributeSetting,
        some <$> unknownBlock inner, (fun _ => none) <$> strayToken]) :=
  rfl

theorem isName_eq_false {keyword : String} (h : keyword ∈ declarationKeywords) {t : Token}
    (ht : isDeclarationKeyword t = false) : t.isName keyword = false := by
  cases t with
  | name text =>
      simp only [isDeclarationKeyword, isOneOf] at ht
      by_cases heq : text = keyword
      · simp [heq, h] at ht
      · simp [Token.isName, heq]
  | _ => rfl

/-- No declaration starts with a word that is no keyword for one, nor with one
that no name comes after. -/
theorem Refuses.nestedDeclarations {t : Token}
    (h : isDeclarationKeyword t = false ∨ ∀ text, ts.head? ≠ some (.name text)) :
    ∀ p ∈ nestedDeclarations inner, Refuses p (t :: ts) := by
  have quiet {keyword : String} (hk : keyword ∈ declarationKeywords)
      {heading : Unit → String → Heading} :
      Refuses (Grammar.namedDeclaration (quietKeyword keyword) heading inner) (t :: ts) := by
    refine namedDeclaration (h.imp_left fun ht => ?_)
    rw [isName_eq_false hk ht]
    rfl
  have object : Refuses (Grammar.namedDeclaration objectKeyword Heading.object inner)
      (t :: ts) := by
    refine namedDeclaration (h.imp_left fun ht => ?_)
    cases t with
    | name text => exact ObjectKind.ofKeyword?_eq_none ht
    | _ => rfl
  simp only [Grammar.nestedDeclarations, List.forall_mem_cons]
  refine ⟨map (quiet ?_), map object, map (quiet ?_), map (quiet ?_), map (quiet ?_), nofun⟩
  all_goals decide

/-- Where a body ends there is no entry. -/
theorem Refuses.bodyEntry {scope : Scope} :
    Refuses (bodyEntry scope inner) (.closeBrace :: ts) := by
  rw [bodyEntry_eq]
  refine firstOf_append (nestedDeclarations (.inl rfl)) ?_
  simp only [List.forall_mem_cons]
  refine ⟨map (attributeSetting_of_head (by simp)), ?_, ?_, nofun⟩
  · exact map (located (bind (token (by simp))))
  · exact map (bind (token (by simp [Token.isBrace])))

namespace Reads

variable {scope : Scope}

theorem bodyEntry_setting {a : Attribute} (ha : a.isWritable)
    (hafter : after.head? ≠ some .comma) :
    Reads (bodyEntry scope inner) a.tokens after
      fun v => v.map Entry.unplaced = some (Entry.setting scope a).unplaced := by
  rw [bodyEntry_eq]
  refine firstOf_append (Refuses.nestedDeclarations (.inr (by simp))) ?_
  refine firstOf_head (map ((attributeSetting ha hafter).imp fun v hv => ?_))
  rw [Option.map_some, Entry.unplaced, Entry.unplaced, hv]

theorem bodyEntry_declaration {heading : Heading} {body : List Entry} {span : Span}
    (hheading : heading.isWritable)
    (hbody : Reads inner (bodyTokens body) (.closeBrace :: after)
      fun vs => vs.map Entry.unplaced = body.map Entry.unplaced) :
    Reads (bodyEntry scope inner) (heading.tokens ++ inBraces (bodyTokens body)) after
      fun v => v.map Entry.unplaced =
        some (Entry.declaration heading body span).unplaced := by
  have known {p : Parser Entry} {ts : List Token} {e : Entry}
      (h : Reads p ts after fun v => v.unplaced = e.unplaced) :
      Reads (some <$> p) ts after fun v => v.map Entry.unplaced = some e.unplaced :=
    map (h.imp fun v hv => by rw [Option.map_some, hv])
  cases heading with
  | subdomain name entities =>
      obtain rfl := List.isEmpty_iff.1 hheading
      exact firstOf_head (known (namedDeclaration rfl hbody))
  | object kind name =>
      refine firstOf_tail (Refuses.map (Refuses.namedDeclaration (.inl ?_))) ?_
      · cases kind <;> rfl
      · exact firstOf_head (known (namedDeclaration (kind.ofKeyword?_keyword) hbody))
  | group kind name =>
      refine firstOf_tail (Refuses.map (Refuses.namedDeclaration (.inl ?_))) ?_
      · cases kind <;> rfl
      refine firstOf_tail (Refuses.map (Refuses.namedDeclaration (.inl ?_))) ?_
      · cases kind <;> rfl
      cases kind with
      | aggregate => exact firstOf_head (known (namedDeclaration rfl hbody))
      | service =>
          refine firstOf_tail (Refuses.map (Refuses.namedDeclaration (.inl rfl))) ?_
          exact firstOf_head (known (namedDeclaration rfl hbody))
      | «module» =>
          refine firstOf_tail (Refuses.map (Refuses.namedDeclaration (.inl rfl))) ?_
          refine firstOf_tail (Refuses.map (Refuses.namedDeclaration (.inl rfl))) ?_
          exact firstOf_head (known (namedDeclaration rfl hbody))
  | unknown keyword words =>
      have hkeyword : declarationKeywords.contains keyword = false := by
        rwa [Heading.isWritable, Bool.not_eq_true'] at hheading
      rw [bodyEntry_eq]
      refine firstOf_append (Refuses.nestedDeclarations (.inl hkeyword)) ?_
      -- A word or a brace comes next, in any case no equals sign.
      refine firstOf_tail (Refuses.map (Refuses.attributeSetting ?_)) ?_
      · cases words <;> exact nofun
      · exact firstOf_head (known (unknownBlock hkeyword hbody))

end Reads

theorem length_body_lt (heading : Heading) (body : List Entry) (span : Span) :
    (bodyTokens body).length < (Entry.declaration heading body span).tokens.length := by
  rw [Entry.tokens, inBraces]
  simp only [List.length_append, List.length_cons]
  omega

/-- An entry is read as itself if what stands between its braces is. -/
theorem Reads.bodyEntry {scope : Scope} {e : Entry} (he : e.isWritable scope)
    (hafter : after.head? ≠ some .comma)
    (hinner : ∀ body after, isWritableBody scope body →
      (bodyTokens body).length < e.tokens.length →
      Reads inner (bodyTokens body) (.closeBrace :: after)
        fun vs => vs.map Entry.unplaced = body.map Entry.unplaced) :
    Reads (bodyEntry scope inner) e.tokens after
      fun v => v.map Entry.unplaced = some e.unplaced := by
  cases e with
  | setting scope' setting =>
      simp only [Entry.isWritable, Bool.and_eq_true, decide_eq_true_eq] at he
      obtain ⟨rfl, he⟩ := he
      rw [Entry.tokens]
      exact bodyEntry_setting he hafter
  | declaration heading body span =>
      have hlt := length_body_lt heading body span
      simp only [Entry.isWritable, Bool.and_eq_true] at he
      rw [Entry.tokens] at hlt ⊢
      exact bodyEntry_declaration he.1 (hinner body after he.2 hlt)
  | entity entity => simp [Entry.isWritable] at he
  | unknownLine keyword words span => simp [Entry.isWritable] at he

/-! ## Bodies -/

theorem length_tokens_le {e : Entry} {body : List Entry} (h : e ∈ body) :
    e.tokens.length ≤ (bodyTokens body).length := by
  induction body with
  | nil => cases h
  | cons e' rest ih =>
      rw [bodyTokens, List.length_append]
      rcases List.mem_cons.1 h with rfl | h
      · exact Nat.le_add_right _ _
      · exact Nat.le_trans (ih h) (Nat.le_add_left _ _)

/-- In front of the brace that closes it, a body is read as it was written. -/
theorem Reads.body {scope : Scope} {entries : List Entry}
    (h : isWritableBody scope entries) :
    Reads (body scope) (bodyTokens entries) (.closeBrace :: after)
      fun vs => vs.map Entry.unplaced = entries.map Entry.unplaced := by
  refine nested fun depth hdepth => ?_
  induction depth generalizing entries after with
  | zero => exact absurd hdepth (Nat.not_lt_zero _)
  | succ depth ih =>
      have hwritable := isWritableBody_iff.1 h
      rw [bodyTokens_eq_flatMap]
      refine map ((many (u := Option.map Entry.unplaced) (w := fun e => some e.unplaced)
        ?_ ?_ Refuses.bodyEntry).imp fun vs hvs => ?_)
      · intro e he
        obtain ⟨text, ts, htokens⟩ := Entry.exists_tokens_eq (hwritable e he)
        simp [htokens]
      · intro e later hsuffix
        have he := hsuffix.subset (List.mem_cons_self)
        refine bodyEntry (hwritable e he) (head?_flatMap_append_ne ?_ (by simp)) ?_
        · intro e' he'
          have he' := hwritable e' (hsuffix.subset (List.mem_cons_of_mem e he'))
          obtain ⟨text, ts, htokens⟩ := Entry.exists_tokens_eq he'
          simp [htokens]
        · -- What is between the braces of an entry is shorter than the body around it.
          intro body after hbody hlt
          have hle := length_tokens_le he
          exact ih hbody (by omega)
      · exact map_filterMap_id hvs

end Grammar

end Landscape
