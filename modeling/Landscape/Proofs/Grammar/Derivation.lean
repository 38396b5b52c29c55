import Landscape.Proofs.Grammar.Advances
import Landscape.Proofs.Grammar.Body

/-!
# What a body was read from

A body is generous, and what it skips cannot be told from its entries alone. A
derivation tells it (`BodyRead`): the lexemes of a body are settings, headings
with or without braces after them, and tokens that mean nothing, and whatever
stands between braces has a derivation of its own. Every reading of a body has
one (`splits_body`).

Two rules look at more than they read. A heading ends where a setting starts,
and a token is skipped only if no setting starts with it. Derivations keep what
was seen then (`Words`, `BodyRead.stray`), and that is why they speak of the
lexemes that come after.
-/

namespace Landscape

/-! ## Pieces of a body -/

/-- The value that a token is. -/
def Value.ofToken? : Token → Option Value
  | .string text => some (.string text)
  | .name text | .relation text => some (.name text)
  | .number digits => some (.number digits)
  | _ => none

/-- The key and the first value of the setting that some lexemes start with. -/
def settingStart? : List Lexeme → Option (String × Value)
  | ⟨.name key, _⟩ :: ⟨.equals, _⟩ :: ⟨t, _⟩ :: _ => (Value.ofToken? t).map (key, ·)
  | _ => none

/-- The heading that a keyword and a name make. -/
def Heading.named? (keyword name : String) : Option Heading :=
  if keyword = "Subdomain" then some (.subdomain name [])
  else if keyword = "Aggregate" then some (.group .aggregate name)
  else if keyword = "Service" then some (.group .service name)
  else if keyword = "Module" then some (.group .module name)
  else (ObjectKind.ofKeyword? keyword).map (.object · name)

theorem ObjectKind.mem_declarationKeywords {keyword : String} {kind : ObjectKind}
    (h : ofKeyword? keyword = some kind) : keyword ∈ Grammar.declarationKeywords := by
  refine Decidable.byContradiction fun hnot => ?_
  rw [ofKeyword?_eq_none (by simpa using hnot)] at h
  cases h

namespace Heading

theorem named?_object {keyword : String} {kind : ObjectKind}
    (h : ObjectKind.ofKeyword? keyword = some kind) (name : String) :
    named? keyword name = some (.object kind name) := by
  have other {text : String} (htext : ObjectKind.ofKeyword? text = none) : keyword ≠ text := by
    rintro rfl
    rw [htext] at h
    cases h
  rw [named?, if_neg (other rfl), if_neg (other rfl), if_neg (other rfl), if_neg (other rfl), h]
  rfl

theorem mem_declarationKeywords {keyword name : String} {heading : Heading}
    (h : named? keyword name = some heading) : keyword ∈ Grammar.declarationKeywords := by
  unfold named? at h
  split at h
  · next hkeyword => simp [hkeyword, Grammar.declarationKeywords]
  split at h
  · next hkeyword => simp [hkeyword, Grammar.declarationKeywords]
  split at h
  · next hkeyword => simp [hkeyword, Grammar.declarationKeywords]
  split at h
  · next hkeyword => simp [hkeyword, Grammar.declarationKeywords]
  · obtain ⟨kind, hkind, -⟩ := Option.map_eq_some_iff.1 h
    exact ObjectKind.mem_declarationKeywords hkind

end Heading

namespace Grammar

variable {α : Type} {scope : Scope} {read after : List Lexeme} {a : Attribute}

/-- What a setting is read from. -/
structure SettingRead (read : List Lexeme) (a : Attribute) : Prop where
  exists_tokens : ∃ ts, read.map Lexeme.token = .name a.key :: .equals :: commaSeparated ts ∧
    ts ≠ [] ∧ ts.map Value.ofToken? = a.values.map some
  span_eq : a.span = spanOf read
  not_brace : ∀ x ∈ read, x.token.isBrace = false

/-- A token that may stand in a heading. -/
structure IsWord (t : Token) : Prop where
  not_brace : t.isBrace = false
  ne_equals : t ≠ .equals
  not_keyword : isDeclarationKeyword t = false

/-- The words of a heading in front of other lexemes. -/
inductive Words (after : List Lexeme) : List Lexeme → Prop
  | nil : Words after []
  | cons {x : Lexeme} {words : List Lexeme} (isWord : IsWord x.token)
      (noSetting : ¬settingAhead (x :: (words ++ after))) (more : Words after words) :
      Words after (x :: words)

/-- What the heading of a declaration is read from. The keyword of an unknown
block is a word like the others. -/
inductive HeadRead (after : List Lexeme) : List Lexeme → Heading → Prop
  | named {opening name : Lexeme} {words : List Lexeme} {keyword text : String}
      {heading : Heading} (keyword_eq : opening.token = .name keyword)
      (name_eq : name.token = .name text) (named : Heading.named? keyword text = some heading)
      (rest : Words after words) : HeadRead after (opening :: name :: words) heading
  | unknown {opening : Lexeme} {words : List Lexeme} {keyword : String}
      (keyword_eq : opening.token = .name keyword) (rest : Words after (opening :: words)) :
      HeadRead after (opening :: words)
        (.unknown keyword ((words.map Lexeme.token).map Token.contents))

/-- What the entries of a body are read from, in front of other lexemes. -/
inductive BodyRead (scope : Scope) : List Lexeme → List Lexeme → List Entry → Prop
  | done {after : List Lexeme} : BodyRead scope [] after []
  | stray {x : Lexeme} {read after : List Lexeme} {entries : List Entry}
      (not_brace : x.token.isBrace = false) (not_keyword : isDeclarationKeyword x.token = false)
      (noSetting : settingStart? (x :: (read ++ after)) = none)
      (more : BodyRead scope read after entries) : BodyRead scope (x :: read) after entries
  | setting {first read after : List Lexeme} {a : Attribute} {entries : List Entry}
      (setting : SettingRead first a) (more : BodyRead scope read after entries) :
      BodyRead scope (first ++ read) after (.setting scope a :: entries)
  | bodiless {head read after : List Lexeme} {heading : Heading} {entries : List Entry}
      (heads : HeadRead (read ++ after) head heading)
      (more : BodyRead scope read after entries) :
      BodyRead scope (head ++ read) after (.declaration heading [] (spanOf head) :: entries)
  | declaration {head inside read after : List Lexeme} {opening closing : Lexeme}
      {heading : Heading} {body entries : List Entry}
      (heads : HeadRead (opening :: (inside ++ closing :: (read ++ after))) head heading)
      (opening_eq : opening.token = .openBrace) (closing_eq : closing.token = .closeBrace)
      (inner : BodyRead scope inside (closing :: (read ++ after)) body)
      (more : BodyRead scope read after entries) :
      BodyRead scope (head ++ opening :: (inside ++ closing :: read)) after
        (.declaration heading body (spanOf (head ++ opening :: (inside ++ [closing]))) :: entries)

/-- What a body with its braces is read from. -/
inductive BracedRead (scope : Scope) (after : List Lexeme) : List Lexeme → List Entry → Prop
  | braced {inside : List Lexeme} {opening closing : Lexeme} {body : List Entry}
      (opening_eq : opening.token = .openBrace) (closing_eq : closing.token = .closeBrace)
      (inner : BodyRead scope inside (closing :: after) body) :
      BracedRead scope after (opening :: (inside ++ [closing])) body

/-- What a body is read from that may be left out with its braces. -/
inductive OptionalRead (scope : Scope) (after : List Lexeme) :
    List Lexeme → Option (List Entry) → Prop
  | none : OptionalRead scope after [] none
  | some {read : List Lexeme} {body : List Entry} (braced : BracedRead scope after read body) :
      OptionalRead scope after read (some body)

/-! ## Settings -/

theorem commaSeparated_cons (t : Token) {ts : List Token} (h : ts ≠ []) :
    commaSeparated (t :: ts) = t :: .comma :: commaSeparated ts := by
  obtain ⟨u, us, rfl⟩ := List.exists_cons_of_ne_nil h
  rfl

/-- A list of single tokens. -/
theorem consumes_separated {accept : Token → Option α} {expected : List Expectation} :
    Consumes (Parser.separated (Parser.token accept expected)) fun read values =>
      ∃ ts, read.map Lexeme.token = commaSeparated ts ∧ ts ≠ [] ∧
        ts.map accept = values.map some := by
  have item : Consumes (Parser.token accept expected) fun read value =>
      ∃ t, read.map Lexeme.token = [t] ∧ accept t = some value :=
    Consumes.token fun found value h => ⟨found.token, rfl, h⟩
  refine Consumes.separated item ?_ ?_
  · rintro first value ⟨t, hfirst, ht⟩
    exact ⟨[t], hfirst, nofun, by simp [ht]⟩
  · rintro first value comma others values ⟨t, hfirst, ht⟩ hcomma ⟨ts, hothers, hne, hts⟩
    refine ⟨t :: ts, ?_, nofun, by simp [ht, hts]⟩
    rw [List.map_append, List.map_cons, hfirst, hcomma, hothers, commaSeparated_cons t hne]
    rfl

theorem consumes_name : Consumes name fun read text => ∃ x, read = [x] ∧ x.token = .name text := by
  refine Consumes.token fun found text h => ⟨found, rfl, ?_⟩
  cases ht : found.token <;> rw [ht] at h <;> cases h
  rfl

theorem consumes_blockKeyword {reserved : Token → Bool} :
    Consumes (blockKeyword reserved) fun read text =>
      ∃ x, read = [x] ∧ x.token = .name text ∧ reserved (.name text) = false := by
  refine Consumes.token fun found text h => ⟨found, rfl, ?_⟩
  cases ht : found.token with
  | name other =>
      rw [ht] at h
      obtain ⟨hnot, htext⟩ := Option.ite_none_left_eq_some.1 h
      obtain rfl := Option.some.inj htext
      exact ⟨rfl, by simpa using hnot⟩
  | _ => rw [ht] at h; cases h

theorem consumes_exactly {t : Token} :
    Consumes (Parser.exactly t) fun read _ => ∃ x, read = [x] ∧ x.token = t :=
  Consumes.exactly fun found h => ⟨found, rfl, h⟩

theorem consumes_attributeSetting : Consumes attributeSetting SettingRead := by
  have tokens : Consumes attributeSetting fun read a => (∃ ts, read.map Lexeme.token =
      .name a.key :: .equals :: commaSeparated ts ∧ ts ≠ [] ∧
        ts.map Value.ofToken? = a.values.map some) ∧ a.span = spanOf read := by
    refine Consumes.spanned (Consumes.bind consumes_name ?_)
    rintro _ text ⟨key, rfl, hkey⟩
    refine Consumes.bind consumes_exactly ?_
    rintro _ _ ⟨equals, rfl, hequals⟩
    refine Consumes.bind_pure (consumes_separated.imp ?_)
    rintro read values ⟨ts, hread, hne, hts⟩
    exact ⟨⟨ts, by simp [hkey, hequals, hread], hne, hts⟩, rfl⟩
  exact (tokens.and ReadsNoBrace.attributeSetting).imp fun _ _ ⟨⟨htokens, hspan⟩, hflat⟩ =>
    ⟨htokens, hspan, hflat⟩

/-! ## Headings -/

theorem splits_headingToken : Splits headingToken fun read rest t =>
    ∃ x : Lexeme, read = [x] ∧ x.token = t ∧ IsWord t ∧ ¬settingAhead (x :: rest) := by
  intro input t rest doubt h
  rw [headingToken] at h
  split at h
  · cases h
  · next hno =>
      have word : Consumes (Parser.anyToken fun t =>
          !(t.isBrace || t = .equals || isDeclarationKeyword t)) fun read t =>
          ∃ x : Lexeme, read = [x] ∧ x.token = t ∧ IsWord t := by
        refine Consumes.token fun found t hfound => ⟨found, rfl, ?_⟩
        obtain ⟨hallowed, rfl⟩ := Option.ite_some_none_eq_some.1 hfound
        simp only [Bool.not_eq_true', Bool.or_eq_false_iff, decide_eq_false_iff_not] at hallowed
        exact ⟨rfl, hallowed.1.1, hallowed.1.2, hallowed.2⟩
      obtain ⟨_, rfl, x, rfl, hx, hword⟩ := word _ _ _ _ h
      exact ⟨[x], rfl, x, rfl, hx, hword, hno⟩

theorem splits_headingTokens : Splits (Parser.many headingToken) fun read rest ts =>
    Words rest read ∧ ts = read.map Lexeme.token := by
  refine Splits.many splits_headingToken (fun rest => ⟨.nil, rfl⟩) ?_
  rintro _ t others rest ts ⟨x, rfl, rfl, hword, hno⟩ ⟨hothers, rfl⟩
  exact ⟨.cons hword hno hothers, rfl⟩

/-! ## Bodies -/

theorem splits_braced {inner : Parser (List Entry)} (hinner : Splits inner (BodyRead scope)) :
    Splits (Parser.braced inner) fun read rest body => BracedRead scope rest read body := by
  refine (Splits.between hinner).imp ?_
  rintro _ rest body ⟨opening, inside, closing, rfl, hopening, hclosing, hbody⟩
  exact .braced hopening hclosing hbody

theorem splits_optional {inner : Parser (List Entry)} (hinner : Splits inner (BodyRead scope)) :
    Splits (Parser.optional (Parser.braced inner)) fun read rest body =>
      OptionalRead scope rest read body :=
  Splits.optional ((splits_braced hinner).imp fun _ _ _ => .some) fun _ => .none

/-- An entry in front of the other entries of a body. -/
def EntryRead (scope : Scope) (read rest : List Lexeme) (entry : Option Entry) : Prop :=
  ∀ later after entries, rest = later ++ after → BodyRead scope later after entries →
    BodyRead scope (read ++ later) after (entry.toList ++ entries)

theorem EntryRead.braced {head read rest : List Lexeme} {heading : Heading} {body : List Entry}
    (hhead : HeadRead (read ++ rest) head heading) (hbody : BracedRead scope rest read body) :
    EntryRead scope (head ++ read) rest
      (some (.declaration heading body (spanOf (head ++ read)))) := by
  rintro later after entries rfl hlater
  obtain ⟨hopening, hclosing, hinner⟩ := hbody
  simp only [List.cons_append, List.append_assoc, List.nil_append] at hhead ⊢
  exact .declaration hhead hopening hclosing hinner hlater

theorem EntryRead.optional {head read rest : List Lexeme} {heading : Heading}
    {body : Option (List Entry)} (hhead : HeadRead (read ++ rest) head heading)
    (hbody : OptionalRead scope rest read body) :
    EntryRead scope (head ++ read) rest
      (some (.declaration heading (body.getD []) (spanOf (head ++ read)))) := by
  cases hbody with
  | none =>
      rintro later after entries rfl hlater
      rw [List.append_nil]
      exact .bodiless hhead hlater
  | some hbody => exact .braced hhead hbody

variable {inner : Parser (List Entry)}

theorem splits_namedDeclaration {opening : Parser α} {heading : α → String → Heading}
    (hopening : Consumes opening fun read kind => ∃ x keyword, read = [x] ∧
      x.token = .name keyword ∧ ∀ text, Heading.named? keyword text = some (heading kind text))
    (hinner : Splits inner (BodyRead scope)) :
    Splits (namedDeclaration opening heading inner) fun read rest entry =>
      EntryRead scope read rest (some entry) := by
  refine Splits.located (Splits.bind hopening ?_)
  rintro _ kind _ ⟨x, keyword, rfl, hkeyword, hnamed⟩
  refine Splits.bind consumes_name ?_
  rintro _ text _ ⟨name, rfl, hname⟩
  refine Splits.bind splits_headingTokens ?_
  rintro words _ mid ⟨hwords, rfl⟩
  refine Splits.bind_pure ((splits_optional hinner).imp ?_)
  rintro part rest body hbody rfl - -
  have hentry := EntryRead.optional (.named hkeyword hname (hnamed text) hwords) hbody
  exact hentry

theorem eq_equals_of_settingAhead {x y : Lexeme} {rest : List Lexeme}
    (h : settingAhead (x :: y :: rest)) : y.token = .equals := by
  obtain ⟨t, span⟩ := x
  obtain ⟨u, span'⟩ := y
  cases t with
  | name text => cases u <;> first | rfl | cases h
  | _ => cases h

theorem splits_unknownBlock (hinner : Splits inner (BodyRead scope)) :
    Splits (unknownBlock inner) fun read rest entry => EntryRead scope read rest (some entry) := by
  refine Splits.located (Splits.bind consumes_blockKeyword ?_)
  rintro _ text _ ⟨x, rfl, hx, hnot⟩
  have hword : IsWord x.token := by
    rw [hx]
    exact ⟨rfl, nofun, hnot⟩
  refine Splits.bind splits_headingTokens ?_
  rintro words _ mid ⟨hwords, rfl⟩
  refine Splits.bind_pure ((splits_braced hinner).imp ?_)
  rintro part rest body hbody rfl -
  -- What comes after the keyword is another word or the brace.
  have hno : ¬settingAhead (x :: (words ++ (part ++ rest))) := by
    intro hahead
    cases hwords with
    | nil =>
        obtain ⟨hopening, -, -⟩ := hbody
        have hequals := eq_equals_of_settingAhead hahead
        rw [hopening] at hequals
        cases hequals
    | cons hnext => exact hnext.ne_equals (eq_equals_of_settingAhead hahead)
  have hentry := EntryRead.braced (.unknown hx (.cons hword hno hwords)) hbody
  exact hentry

/-! ## Where a setting starts -/

/-- A parser succeeds on some lexemes. -/
def SucceedsOn (p : Parser α) (xs : List Lexeme) : Prop :=
  ∃ value rest doubt, p xs = .ok value rest doubt

namespace SucceedsOn

variable {β : Type} {p : Parser α} {xs rest : List Lexeme} {value : α} {doubt : Option Failure}

theorem bind {next : α → Parser β} (hp : p xs = .ok value rest doubt)
    (hnext : SucceedsOn (next value) rest) : SucceedsOn (p >>= next) xs := by
  obtain ⟨result, final, later, hresult⟩ := hnext
  refine ⟨result, final, Failure.merge doubt later, ?_⟩
  show Parser.andThen p next xs = _
  simp only [Parser.andThen, hp, hresult, Reply.after]

theorem bind_pure {f : α → β} (hp : SucceedsOn p xs) :
    SucceedsOn (p >>= fun value => Pure.pure (f value)) xs := by
  obtain ⟨value, rest, doubt, hp⟩ := hp
  exact bind hp ⟨_, _, _, rfl⟩

theorem located {p : Parser (Span → α)} (hp : SucceedsOn p xs) :
    SucceedsOn (Parser.located p) xs := by
  obtain ⟨value, rest, doubt, hp⟩ := hp
  exact ⟨_, rest, doubt, by simp only [Parser.located, hp]; rfl⟩

theorem attributeSetting (h : settingStart? xs ≠ none) : SucceedsOn attributeSetting xs := by
  unfold settingStart? at h
  split at h
  · next key s s' t s'' later =>
      have value : SucceedsOn value (⟨t, s''⟩ :: later) := by
        cases t <;> first | exact absurd rfl h | exact ⟨_, _, _, rfl⟩
      obtain ⟨v, rest, doubt, hv⟩ := value
      refine located (bind rfl (bind rfl (bind_pure (bind hv (bind_pure ?_)))))
      exact Parser.exists_many_eq _ _
  · exact absurd rfl h

end SucceedsOn

theorem firstOf_append_of_fail {ps qs : List (Parser α)} {xs rest : List Lexeme} {value : α}
    {doubt : Option Failure} (hps : ∀ p ∈ ps, ∃ failure, p xs = .fail failure)
    (hqs : Parser.firstOf qs xs = .ok value rest doubt) :
    Parser.firstOf (ps ++ qs) xs = .ok value rest doubt := by
  induction ps with
  | nil => exact hqs
  | cons p ps ih =>
      obtain ⟨failure, hfailure⟩ := hps p List.mem_cons_self
      have hrest := ih fun q hq => hps q (List.mem_cons_of_mem p hq)
      show Parser.orElse p (Parser.firstOf (ps ++ qs)) xs = _
      simp only [Parser.orElse, hfailure, hrest]

/-- Where a setting starts, it is a setting that is read. -/
theorem bodyEntry_of_settingStart (scope : Scope) (inner : Parser (List Entry))
    {xs : List Lexeme} (h : settingStart? xs ≠ none) :
    ∃ a rest doubt, bodyEntry scope inner xs = .ok (some (.setting scope a)) rest doubt := by
  obtain ⟨a, rest, doubt, ha⟩ := SucceedsOn.attributeSetting h
  refine ⟨a, rest, doubt, ?_⟩
  rw [bodyEntry_eq]
  refine firstOf_append_of_fail (fun p hp => ?_) ?_
  · unfold settingStart? at h
    split at h
    · exact Refuses.nestedDeclarations (.inr (by simp)) p hp _ rfl
    · exact absurd rfl h
  · have hmap : ((fun setting => some (Entry.setting scope setting)) <$> attributeSetting) xs =
        .ok (some (.setting scope a)) rest doubt := by
      show Parser.andThen attributeSetting _ xs = _
      rw [Parser.andThen, ha]
      cases doubt <;> rfl
    show Parser.orElse _ _ xs = _
    simp only [Parser.orElse, hmap]

theorem splits_quietDeclaration {keyword : String} {heading : Unit → String → Heading}
    (hnamed : ∀ text, Heading.named? keyword text = some (heading () text))
    (hinner : Splits inner (BodyRead scope)) :
    Splits (namedDeclaration (quietKeyword keyword) heading inner) fun read rest entry =>
      EntryRead scope read rest (some entry) := by
  refine splits_namedDeclaration (Consumes.token fun found _ h => ?_) hinner
  refine ⟨found, keyword, rfl, ?_, hnamed⟩
  cases ht : found.token with
  | name text =>
      rw [ht] at h
      simpa [Token.isName] using h
  | _ => rw [ht] at h; cases h

theorem splits_objectDeclaration (hinner : Splits inner (BodyRead scope)) :
    Splits (namedDeclaration objectKeyword Heading.object inner) fun read rest entry =>
      EntryRead scope read rest (some entry) := by
  refine splits_namedDeclaration (Consumes.token fun found kind h => ?_) hinner
  cases ht : found.token with
  | name text =>
      rw [ht] at h
      exact ⟨found, text, rfl, ht, Heading.named?_object h⟩
  | _ => rw [ht] at h; cases h

theorem splits_bodyEntry (hinner : Splits inner (BodyRead scope)) :
    Splits (bodyEntry scope inner) (EntryRead scope) := by
  have setting : Splits attributeSetting fun read rest a =>
      EntryRead scope read rest (some (.setting scope a)) :=
    Splits.imp consumes_attributeSetting fun _ _ _ ha later after entries _ hlater =>
      .setting ha hlater
  have known {p : Parser Entry}
      (h : Splits p fun read rest entry => EntryRead scope read rest (some entry)) :
      Splits (some <$> p) fun read rest entry =>
        (entry = none → settingStart? (read ++ rest) = none) → EntryRead scope read rest entry :=
    Splits.map (h.imp fun _ _ _ h _ => h)
  have stray : Splits strayToken fun read rest _ =>
      ((none : Option Entry) = none → settingStart? (read ++ rest) = none) →
        EntryRead scope read rest none := by
    refine Splits.bind_pure (Splits.token fun found rest t h hno later after entries hrest => ?_)
    obtain ⟨hallowed, rfl⟩ := Option.ite_some_none_eq_some.1 h
    simp only [Bool.not_eq_true', Bool.or_eq_false_iff] at hallowed
    subst hrest
    exact .stray hallowed.1 hallowed.2 (hno rfl)
  -- A token is skipped where everything else has failed, a setting in particular.
  have entries : Splits (bodyEntry scope inner) fun read rest entry =>
      (entry = none → settingStart? (read ++ rest) = none) → EntryRead scope read rest entry := by
    refine Splits.firstOf ?_
    simp only [List.forall_mem_cons]
    exact ⟨known (splits_quietDeclaration (fun _ => rfl) hinner),
      known (splits_objectDeclaration hinner),
      known (splits_quietDeclaration (fun _ => rfl) hinner),
      known (splits_quietDeclaration (fun _ => rfl) hinner),
      known (splits_quietDeclaration (fun _ => rfl) hinner),
      Splits.map (setting.imp fun _ _ _ h _ => h), known (splits_unknownBlock hinner),
      Splits.map stray, List.forall_mem_nil _⟩
  intro input entry rest doubt h
  obtain ⟨read, rfl, hentry⟩ := entries _ _ _ _ h
  refine ⟨read, rfl, hentry fun hnone => ?_⟩
  refine Decidable.byContradiction fun hstart => ?_
  obtain ⟨a, rest', doubt', ha⟩ := bodyEntry_of_settingStart scope inner hstart
  rw [ha] at h
  cases h
  cases hnone

/-- Every reading of a body has a derivation. -/
theorem splits_body : Splits (body scope) (BodyRead scope) := by
  refine Splits.nested fun inner hinner => Splits.map ?_
  refine Splits.many (splits_bodyEntry hinner) (fun _ => .done) ?_
  intro first entry others rest entries hfirst hothers
  have hread := hfirst others rest _ rfl hothers
  cases entry <;> exact hread

end Grammar

end Landscape
