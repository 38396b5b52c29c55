import Landscape.Proofs.Build.Registration
import Landscape.Proofs.Grammar.Parts

/-!
# What is read is well formed

The builder takes much for granted. It looks for a setting in one scope and
passes over it in another, it takes the first value of a setting, and a setting
that has a form of its own it does not look for among the others. Documents that
were put together by other means need not be like that, but those read from a
text are (`Element.isWellFormed`). They are all but writable: only the words of
an unknown declaration may be such that no writing gives them back.

Bodies follow their derivation, which has one case for each kind of entry and
keeps one scope all the way down (`BodyRead.isWritable`). What is left are the
places where a setting is given a form of its own. Each looks at the key and
wants a first value, and since there is one it is the key that decides.

So the builder passes over no setting for where it stands: what a declaration
states is what its settings state (`filterMap_settingsIn`).
-/

namespace Landscape

/-! ## Well-formed elements -/

/-- Whether an element is of a form that the grammar gives it. Settings have a
value and one scope at any depth, unknown blocks have a body and a keyword that
means nothing, there are no entities without a declaration, members and
connections are not empty, and what has a form of its own is in that form. -/
def Element.isWellFormed : Element → Bool
  | unknown decl =>
    !Grammar.topLevelKeywords.contains decl.keyword && decl.body.all (isWritableBody .plain)
  | e => e.isWritable

/-- What an attribute states about the subdomain it stands in. -/
def Attribute.subdomainStatement? (a : Attribute) : Option Statement :=
  if a.key = "type" then a.type? else a.vision?

/-! ## Forms of their own -/

/-- A setting with a value that no form of its own was found for has the key of
none. -/
theorem Attribute.key_not_mem {a : Attribute} (h : a.isWritable) {keys : List String}
    (hkeys : ∀ key ∈ keys, ∀ value, a.key = key → a.firstValue? = some value → False) :
    a.key ∉ keys := by
  obtain ⟨key, values, span⟩ := a
  cases values with
  | nil => cases h
  | cons value values => exact fun hmem => hkeys key hmem value.text rfl rfl

theorem MapSetting.isWritable_ofAttribute {a : Attribute} (h : a.isWritable) :
    (ofAttribute a).isWritable := by
  unfold ofAttribute
  split
  · rfl
  · rfl
  · next htype hstate =>
      have hkey : a.key ∉ ownKeys := by
        refine a.key_not_mem h ?_
        simp only [ownKeys, List.forall_mem_cons]
        exact ⟨htype, hstate, List.forall_mem_nil _⟩
      simpa [isWritable, h] using hkey

theorem RelationAttribute.isWritable_ofAttribute {a : Attribute} (h : a.isWritable) :
    (ofAttribute a).isWritable := by
  unfold ofAttribute
  split
  · rfl
  · rfl
  · next htype htechnology =>
      have hkey : a.key ∉ ownKeys := by
        refine a.key_not_mem h ?_
        simp only [ownKeys, List.forall_mem_cons]
        exact ⟨htype, htechnology, List.forall_mem_nil _⟩
      simpa [isWritable, h] using hkey

namespace UseCasePart

theorem isWritable_ofSetting {a : Attribute} (h : a.isWritable) :
    (ofEntry (.setting .plain a)).isWritable := by
  unfold ofEntry
  dsimp only
  split
  case h_2 => simpa [isWritable, toEntry, Entry.isWritable, Attribute.isWritable] using h
  case h_6 hactor hactors hbenefit hscope hlevel =>
    have hkey : a.key ∉ ownKeys := by
      refine a.key_not_mem h ?_
      simp only [ownKeys, List.forall_mem_cons]
      exact ⟨hactor, hactors, hbenefit, hscope, hlevel, List.forall_mem_nil _⟩
    simpa [isWritable, toEntry, Entry.isWritable, h] using hkey
  all_goals simp [isWritable, toEntry, Entry.isWritable, Attribute.isWritable]

theorem isWritable_ofEntry {e : Entry} (h : e.isWritable .plain) : (ofEntry e).isWritable := by
  cases e with
  | setting scope a =>
      obtain ⟨hscope, ha⟩ : scope = .plain ∧ a.isWritable := by simpa [Entry.isWritable] using h
      rw [hscope]
      exact isWritable_ofSetting ha
  | declaration heading body span => simpa [ofEntry, isWritable, toEntry] using h
  | entity entity => simp [Entry.isWritable] at h
  | unknownLine keyword words span => simp [Entry.isWritable] at h

end UseCasePart

namespace Grammar

variable {α : Type} {scope : Scope} {read after : List Lexeme}

/-! ## Bodies -/

theorem SettingRead.isWritable {a : Attribute} (h : SettingRead read a) : a.isWritable := by
  obtain ⟨ts, -, hne, hvalues⟩ := h.exists_tokens
  cases hall : a.values with
  | nil => exact absurd (List.map_eq_nil_iff.1 (hall ▸ hvalues)) hne
  | cons value values => rw [Attribute.isWritable, hall]; rfl

theorem HeadRead.isWritable {heading : Heading} (h : HeadRead after read heading) :
    heading.isWritable := by
  cases h with
  | named _ _ hnamed _ =>
      obtain ⟨-, hname, hown⟩ := Heading.of_named? hnamed
      cases heading with
      | subdomain name entities => simpa [Heading.isWritable, Heading.ownEntities] using hown
      | object kind name => rfl
      | group kind name => rfl
      | unknown keyword words => cases hname
  | unknown hkeyword hwords =>
      cases hwords with
      | cons hword _ _ =>
          have hnot := hword.not_keyword
          rw [hkeyword] at hnot
          rwa [Heading.isWritable, Bool.not_eq_true']

/-- The entries of a body are of the forms that its rules give them, and so are
those between the braces inside. -/
theorem BodyRead.isWritable {entries : List Entry} (h : BodyRead scope read after entries) :
    isWritableBody scope entries := by
  induction h with
  | done => rfl
  | stray _ _ _ _ ih => exact ih
  | setting hsetting _ ih => simp [isWritableBody, Entry.isWritable, hsetting.isWritable, ih]
  | bodiless hhead _ ih => simp [isWritableBody, Entry.isWritable, hhead.isWritable, ih]
  | declaration hhead _ _ _ _ ihbody ih =>
      simp [isWritableBody, Entry.isWritable, hhead.isWritable, ihbody, ih]

/-! ## Forms of values

A parser that gives values of one form, whatever it reads. -/

def Gives (p : Parser α) (good : α → Prop) : Prop :=
  Consumes p fun _ value => good value

theorem Gives.many {p : Parser α} {good : α → Prop} (hp : Gives p good) :
    Gives (Parser.many p) fun values => ∀ value ∈ values, good value := by
  refine (consumes_many hp).imp fun read values h value hvalue => ?_
  obtain ⟨-, -, hgood⟩ := h.exists_of_mem hvalue
  exact hgood

theorem Gives.braced {p : Parser α} {good : α → Prop} (hp : Gives p good) :
    Gives (Parser.braced p) good :=
  (Consumes.between hp).imp fun _ _ ⟨_, _, _, _, _, _, hgood⟩ => hgood

theorem Gives.optionalBody : Gives (Parser.optional (Parser.braced (body scope)))
    fun entries => entries.all (isWritableBody scope) := by
  refine Splits.imp (splits_optional splits_body) fun _ _ _ h => ?_
  cases h with
  | none => rfl
  | some hbody =>
      obtain ⟨-, -, hinside⟩ := hbody
      exact hinside.isWritable

theorem isWritableBody_getD {entries : Option (List Entry)}
    (h : entries.all (isWritableBody scope)) : isWritableBody scope (entries.getD []) := by
  cases entries with
  | none => rfl
  | some entries => exact h

/-! ## Elements with a body of entries -/

theorem Gives.domain : Gives domain fun decl => (Element.domain decl).isWellFormed := by
  refine Consumes.spanned (Consumes.bind consumes_exactly fun _ _ _ => ?_)
  refine Consumes.bind consumes_name fun _ name _ => Consumes.bind_pure ?_
  exact optionalBody.imp fun _ _ h => isWritableBody_getD h

theorem Gives.boundedContext :
    Gives boundedContext fun decl => (Element.context decl).isWellFormed := by
  refine Consumes.spanned (Consumes.bind consumes_exactly fun _ _ _ => ?_)
  refine Consumes.bind consumes_name fun _ name _ => ?_
  refine Consumes.bind (consumes_many consumes_contextClause) fun _ clauses _ =>
    Consumes.bind_pure ?_
  exact optionalBody.imp fun _ _ h => isWritableBody_getD h

theorem Gives.useCase : Gives useCase fun decl => (Element.useCase decl).isWellFormed := by
  refine Consumes.spanned (Consumes.bind consumes_exactly fun _ _ _ => ?_)
  refine Consumes.bind consumes_name fun _ name _ => Consumes.bind_pure ?_
  refine optionalBody.imp fun _ entries h => ?_
  have hentries := isWritableBody_iff.1 (isWritableBody_getD h)
  refine List.all_eq_true.2 (List.forall_mem_map.2 fun entry hentry => ?_)
  exact UseCasePart.isWritable_ofEntry (hentries entry hentry)

theorem Gives.importLine :
    Gives importLine fun decl => (Element.unknown decl).isWellFormed := by
  refine Consumes.spanned (Consumes.bind consumes_exactly fun _ _ _ => Consumes.bind_pure ?_)
  exact Consumes.token fun _ _ _ => rfl

theorem Gives.unknownDeclaration :
    Gives unknownDeclaration fun decl => (Element.unknown decl).isWellFormed := by
  have word : Gives (Parser.anyToken fun t => !(t.isBrace || isTopLevelKeyword t))
      fun _ => True := Consumes.token fun _ _ _ => trivial
  refine Consumes.spanned (Consumes.bind consumes_blockKeyword ?_)
  rintro _ keyword ⟨_, -, -, hkeyword⟩
  refine Consumes.bind word.many fun _ words _ => Consumes.bind_pure ?_
  refine optionalBody.imp fun _ _ h => Bool.and_eq_true_iff.2 ⟨?_, h⟩
  rwa [Bool.not_eq_true']

/-! ## Context maps -/

theorem Gives.connection : Gives connection fun c => c.keyword.isSome || c.arrow.isSome := by
  refine Consumes.firstOf ?_
  simp only [List.forall_mem_cons]
  refine ⟨Consumes.bind ReadsBalanced.relationKeyword fun _ _ _ => Consumes.bind_pure ?_,
    Consumes.bind_pure (ReadsBalanced.anyArrow.imp fun _ _ _ => rfl), nofun⟩
  exact Consumes.optional (ReadsBalanced.anyArrow.imp fun _ _ _ => rfl) rfl

theorem Gives.relationAttributes :
    Gives relationAttributes fun attributes => attributes.all RelationAttribute.isWritable := by
  have entry : Gives (Parser.orElse
      ((fun setting => some (RelationAttribute.ofAttribute setting)) <$> attributeSetting)
      ((fun _ => none) <$> Parser.anyToken fun t => !t.isBrace))
      fun entry => ∀ a ∈ entry, a.isWritable := by
    refine Consumes.orElse (Consumes.map (consumes_attributeSetting.imp ?_))
      (Consumes.map (Consumes.token fun _ _ _ => nofun))
    rintro _ a ha _ ⟨⟩
    exact RelationAttribute.isWritable_ofAttribute ha.isWritable
  refine Consumes.map (entry.many.braced.imp fun _ entries hentries => ?_)
  refine List.all_eq_true.2 fun a ha => ?_
  obtain ⟨entry, hmem, hsome⟩ := List.mem_filterMap.1 ha
  exact hentries entry hmem a hsome

theorem Gives.relation : Gives relation fun decl => decl.isWritable := by
  have attributes : Gives (Parser.optional Grammar.relationAttributes) fun attributes =>
      (attributes.getD []).all RelationAttribute.isWritable :=
    Consumes.optional relationAttributes rfl
  refine Consumes.spanned (Consumes.bind consumes_endpoint fun _ left _ => ?_)
  refine Consumes.bind connection fun _ connection hconnection => ?_
  refine Consumes.bind consumes_endpoint fun _ right _ => ?_
  refine Consumes.bind (ReadsBalanced.optional (ReadsBalanced.bind (.exactly rfl) fun _ => .name))
    fun _ name _ => Consumes.bind_pure ?_
  exact attributes.imp fun _ _ hattributes => Bool.and_eq_true_iff.2 ⟨hconnection, hattributes⟩

theorem Gives.references : Gives references fun rs => !rs.isEmpty :=
  Consumes.separated consumes_reference (fun _ _ _ => rfl) fun _ _ _ _ _ _ _ _ => rfl

theorem Gives.mapEntry : Gives mapEntry fun entry => entry.isWritable := by
  refine Consumes.firstOf ?_
  simp only [List.forall_mem_cons]
  refine ⟨Consumes.bind consumes_exactly fun _ _ _ => Consumes.bind_pure references,
    Consumes.map (consumes_attributeSetting.imp fun _ a ha => ?_), Consumes.map relation, nofun⟩
  exact MapSetting.isWritable_ofAttribute ha.isWritable

theorem Gives.contextMap : Gives contextMap fun decl => (Element.map decl).isWellFormed := by
  refine Consumes.spanned (Consumes.bind consumes_exactly fun _ _ _ => ?_)
  refine Consumes.bind (ReadsBalanced.optional .name) fun _ name _ => Consumes.bind_pure ?_
  refine mapEntry.many.braced.imp fun _ entries hentries => List.all_eq_true.2 fun entry hmem => ?_
  -- The settings and the relationships of a map are its entries, in two lists.
  rcases List.mem_append.1 hmem with hmem | hmem
  · obtain ⟨s, hs, rfl⟩ := List.mem_map.1 hmem
    obtain ⟨entry, hentry, hsetting⟩ := List.mem_filterMap.1 hs
    cases entry with
    | setting s' => cases hsetting; exact hentries _ hentry
    | relation decl => cases hsetting
  · obtain ⟨decl, hdecl, rfl⟩ := List.mem_map.1 hmem
    obtain ⟨entry, hentry, hrelation⟩ := List.mem_filterMap.1 hdecl
    cases entry with
    | setting s => cases hrelation
    | relation decl' => cases hrelation; exact hentries _ hentry

/-! ## Documents -/

theorem Gives.element : Gives element fun e => e.isWellFormed := by
  refine Consumes.firstOf ?_
  simp only [List.forall_mem_cons]
  exact ⟨Consumes.map domain, Consumes.map boundedContext, Consumes.map contextMap,
    Consumes.map useCase, Consumes.map importLine, Consumes.map unknownDeclaration, nofun⟩

end Grammar

/-! ## What is stated -/

/-- A setting is read wherever it stands in a body of its scope. -/
theorem filterMap_settingsIn {β : Type} {scope : Scope} {statement? : Entry → Option β}
    {read : Attribute → Option β} (hsetting : ∀ a, statement? (.setting scope a) = read a)
    (hother : ∀ heading body span, statement? (.declaration heading body span) = none)
    {body : List Entry} (h : isWritableBody scope body) :
    body.filterMap statement? = (settingsIn body).filterMap read := by
  rw [settingsIn, List.filterMap_filterMap]
  refine List.filterMap_congr fun e he => ?_
  have hwritable := isWritableBody_iff.1 h e he
  cases e with
  | setting scope' a =>
      obtain ⟨hscope, -⟩ : scope' = scope ∧ a.isWritable := by
        simpa [Entry.isWritable] using hwritable
      rw [hscope]
      exact hsetting a
  | declaration heading body span => exact hother heading body span
  | entity entity => simp [Entry.isWritable] at hwritable
  | unknownLine keyword words span => simp [Entry.isWritable] at hwritable

mutual

theorem Entry.isWritable_of_mem_declarations {scope : Scope} {e x : Entry}
    (h : e.isWritable scope) (hx : x ∈ e.declarations) : x.isWritable scope := by
  cases e with
  | setting scope' a => simp [Entry.declarations] at hx
  | entity entity => simp [Entry.isWritable] at h
  | unknownLine keyword words span => simp [Entry.isWritable] at h
  | declaration heading body span =>
      have ⟨hheading, hbody⟩ : heading.isWritable ∧ isWritableBody scope body := by
        simpa [Entry.isWritable] using h
      have hown : heading.ownEntities = [] := by
        cases heading <;> simp_all [Heading.isWritable, Heading.ownEntities]
      rw [Entry.declarations, hown, List.append_nil] at hx
      rcases List.mem_cons.1 hx with rfl | hx
      · exact h
      · exact isWritable_of_mem_declarationsOf hbody hx

theorem isWritable_of_mem_declarationsOf {scope : Scope} {body : List Entry} {x : Entry}
    (h : isWritableBody scope body) (hx : x ∈ declarationsOf body) : x.isWritable scope := by
  cases body with
  | nil => simp [declarationsOf] at hx
  | cons e rest =>
      rw [isWritableBody, Bool.and_eq_true] at h
      rw [declarationsOf, List.mem_append] at hx
      rcases hx with hx | hx
      · exact Entry.isWritable_of_mem_declarations h.1 hx
      · exact isWritable_of_mem_declarationsOf h.2 hx

end

/-- In the bodies of a domain, its own settings count, and of a subdomain at any
depth the settings of that subdomain. -/
theorem DomainDecl.statements_eq {decl : DomainDecl} (h : isWritableBody .subdomain decl.body) :
    decl.body.filterMap Entry.domainStatement? =
        (settingsIn decl.body).filterMap Attribute.vision? ∧
      ∀ s ∈ decl.subdomains, s.body.filterMap Entry.subdomainStatement? =
        (settingsIn s.body).filterMap Attribute.subdomainStatement? := by
  refine ⟨filterMap_settingsIn (fun _ => rfl) (fun _ _ _ => rfl) h, fun s hs => ?_⟩
  obtain ⟨e, he, hofEntry⟩ := List.mem_filterMap.1 hs
  have hwritable := isWritable_of_mem_declarationsOf h he
  unfold SubdomainDecl.ofEntry? at hofEntry
  split at hofEntry
  · cases hofEntry
    rw [Entry.isWritable, Bool.and_eq_true] at hwritable
    exact filterMap_settingsIn (fun _ => rfl) (fun _ _ _ => rfl) hwritable.2
  · cases hofEntry

namespace Document

theorem isWellFormed_of_ofLexemes {lexemes : List Lexeme} {d : Document}
    (h : Document.ofLexemes lexemes = .ok d) : ∀ e ∈ d.elements, e.isWellFormed := by
  obtain ⟨doubt, hmany⟩ := ofLexemes_eq_ok_iff.1 h
  obtain ⟨-, -, hall⟩ := Grammar.Gives.element.many _ _ _ _ hmany
  exact hall

/-- What is read is well formed, whatever the texts and spans of the lexemes. No
setting of a domain, of a subdomain at any depth or of a context is passed over for
its scope: they state what their settings state. -/
theorem ofLexemes_wellFormed {lexemes : List Lexeme} {d : Document}
    (h : Document.ofLexemes lexemes = .ok d) :
    (∀ e ∈ d.elements, e.isWellFormed) ∧
      (∀ decl ∈ d.domains,
        decl.body.filterMap Entry.domainStatement? =
            (settingsIn decl.body).filterMap Attribute.vision? ∧
          ∀ s ∈ decl.subdomains, s.body.filterMap Entry.subdomainStatement? =
            (settingsIn s.body).filterMap Attribute.subdomainStatement?) ∧
      ∀ decl ∈ d.contexts, decl.body.filterMap Entry.contextStatement? =
        (settingsIn decl.body).filterMap Attribute.contextStatement? := by
  have hall := isWellFormed_of_ofLexemes h
  refine ⟨hall, fun decl hdecl => ?_, fun decl hdecl => ?_⟩
  · obtain ⟨e, he, hdomain⟩ := List.mem_filterMap.1 hdecl
    cases e with
    | domain decl' => cases hdomain; exact DomainDecl.statements_eq (hall _ he)
    | _ => cases hdomain
  · obtain ⟨e, he, hcontext⟩ := List.mem_filterMap.1 hdecl
    cases e with
    | context decl' =>
        cases hcontext
        exact filterMap_settingsIn (fun _ => rfl) (fun _ _ _ => rfl) (hall _ he)
    | _ => cases hcontext

/-- A subdomain in a module, a use case with settings of either form, and a context
with an aggregate between its settings. -/
def layeredDocument : Document :=
  ⟨[.domain ⟨"D", [.declaration (.group .module "M") [.declaration (.subdomain "S" [])
      [.setting .subdomain ⟨"type", [.name "CORE_DOMAIN"], ⟨18, 23⟩⟩] ⟨12, 25⟩] ⟨6, 27⟩],
      ⟨0, 29⟩⟩,
    .useCase ⟨"U", [.actor "P", .other (.setting .plain ⟨"k", [.string ""], ⟨42, 47⟩⟩)], ⟨30, 49⟩⟩,
    .context ⟨"C", [], [], none, [.setting .context ⟨"type", [.name "SYSTEM"], ⟨56, 61⟩⟩,
      .declaration (.group .aggregate "A")
        [.setting .context ⟨"type", [.name "TEAM"], ⟨68, 73⟩⟩] ⟨62, 75⟩,
      .setting .context ⟨"responsibilities", [.string "sell", .string "ship"], ⟨76, 85⟩⟩],
      ⟨50, 87⟩⟩]⟩

theorem layeredDocument_wellFormed :
    let d := layeredDocument
    let lexemes : List Lexeme := [⟨.name "Domain", 0, 1⟩, ⟨.name "D", 2, 3⟩, ⟨.openBrace, 4, 5⟩,
      ⟨.name "Module", 6, 7⟩, ⟨.name "M", 8, 9⟩, ⟨.openBrace, 10, 11⟩, ⟨.name "Subdomain", 12, 13⟩,
      ⟨.name "S", 14, 15⟩, ⟨.openBrace, 16, 17⟩, ⟨.name "type", 18, 19⟩, ⟨.equals, 20, 21⟩,
      ⟨.name "CORE_DOMAIN", 22, 23⟩, ⟨.closeBrace, 24, 25⟩, ⟨.closeBrace, 26, 27⟩,
      ⟨.closeBrace, 28, 29⟩, ⟨.name "UseCase", 30, 31⟩, ⟨.name "U", 32, 33⟩, ⟨.openBrace, 34, 35⟩,
      ⟨.name "actor", 36, 37⟩, ⟨.equals, 38, 39⟩, ⟨.name "P", 40, 41⟩, ⟨.name "k", 42, 43⟩,
      ⟨.equals, 44, 45⟩, ⟨.string "", 46, 47⟩, ⟨.closeBrace, 48, 49⟩,
      ⟨.name "BoundedContext", 50, 51⟩, ⟨.name "C", 52, 53⟩, ⟨.openBrace, 54, 55⟩,
      ⟨.name "type", 56, 57⟩, ⟨.equals, 58, 59⟩, ⟨.name "SYSTEM", 60, 61⟩,
      ⟨.name "Aggregate", 62, 63⟩, ⟨.name "A", 64, 65⟩, ⟨.openBrace, 66, 67⟩,
      ⟨.name "type", 68, 69⟩, ⟨.equals, 70, 71⟩, ⟨.name "TEAM", 72, 73⟩, ⟨.closeBrace, 74, 75⟩,
      ⟨.name "responsibilities", 76, 77⟩, ⟨.equals, 78, 79⟩, ⟨.string "sell", 80, 81⟩,
      ⟨.comma, 82, 83⟩, ⟨.string "ship", 84, 85⟩, ⟨.closeBrace, 86, 87⟩]
    let m := (d.build .lenient none).model
    (m.subdomains.map Subdomain.type = [.core] ∧
      m.contexts.map (fun c => (c.type, c.responsibilities)) = [("SYSTEM", ["sell", "ship"])]) ∧
    Document.ofLexemes lexemes = .ok d ∧ (∀ e ∈ d.elements, e.isWellFormed) ∧
      (∀ decl ∈ d.domains,
        decl.body.filterMap Entry.domainStatement? =
            (settingsIn decl.body).filterMap Attribute.vision? ∧
          ∀ s ∈ decl.subdomains, s.body.filterMap Entry.subdomainStatement? =
            (settingsIn s.body).filterMap Attribute.subdomainStatement?) ∧
      ∀ decl ∈ d.contexts, decl.body.filterMap Entry.contextStatement? =
        (settingsIn decl.body).filterMap Attribute.contextStatement? := by
  intro d lexemes m
  have hread : Document.ofLexemes lexemes = .ok d := rfl
  exact ⟨⟨rfl, rfl⟩, hread, ofLexemes_wellFormed hread⟩

/-- Documents put together by other means may be otherwise. The type of a subdomain
in the scope of a context is passed over. -/
example :
    let body : List Entry := [.setting .context ⟨"type", [.name "CORE_DOMAIN"], .none⟩]
    body.filterMap Entry.subdomainStatement? = [] ∧
      (settingsIn body).filterMap Attribute.subdomainStatement? = [.type "CORE_DOMAIN" .none] :=
  ⟨rfl, rfl⟩

end Document

end Landscape
