import Landscape.Build
import Landscape.Proofs.Document.Unplaced

/-!
# Building does not look at places

Both passes of the builder copy spans into findings and look at none of them. So
building a document without its spans gives the same model, and the same
findings without theirs (`Document.draft_unplaced`). Each step of a pass is shown
to commute with taking the spans away; what a pass does is a fold over its
steps, and commutes for that reason.

A statement about the type of a subdomain carries the span it was written at, so
settings have spans as well. They reach a finding and nothing else.
-/

namespace Landscape

/-! ## Settings -/

namespace Statement

def unplaced : Statement → Statement
  | type literal _ => type literal .none
  | statement => statement

end Statement

namespace Settings

def unplaced (s : Settings) : Settings :=
  { s with type := s.type.map fun (literal, _) => (literal, .none) }

theorem apply_unplaced (s : Settings) (statement : Statement) :
    s.unplaced.apply statement.unplaced = (s.apply statement).unplaced := by
  cases statement <;> rfl

theorem ofStatements_unplaced (statements : List Statement) :
    ofStatements (statements.map Statement.unplaced) = (ofStatements statements).unplaced := by
  exact foldl_map_comm apply_unplaced none statements

end Settings

namespace Attribute

theorem vision?_unplaced (a : Attribute) :
    a.unplaced.vision? = a.vision?.map Statement.unplaced := by
  change a.vision? = _
  rw [vision?]
  split
  · rw [Option.map_map]
    rfl
  · rfl

theorem type?_unplaced (a : Attribute) :
    a.unplaced.type? = a.type?.map Statement.unplaced := by
  rw [type?, type?, Option.map_map]
  rfl

theorem contextStatement?_unplaced (a : Attribute) :
    a.unplaced.contextStatement? = a.contextStatement?.map Statement.unplaced := by
  obtain ⟨key, values, span⟩ := a
  simp only [unplaced, contextStatement?]
  split
  · exact type?_unplaced ⟨_, values, span⟩
  · exact vision?_unplaced ⟨_, values, span⟩
  · split <;> rfl
  · rw [Option.map_map]
    rfl
  · rw [Option.map_map]
    rfl
  · rfl

end Attribute

namespace Entry

theorem domainStatement?_unplaced (e : Entry) :
    e.unplaced.domainStatement? = e.domainStatement?.map Statement.unplaced := by
  rcases e with ⟨_ | _ | _, a⟩ | _ | _ | _
  case setting.subdomain | setting.context => exact a.vision?_unplaced
  all_goals rfl

theorem subdomainStatement?_unplaced (e : Entry) :
    e.unplaced.subdomainStatement? = e.subdomainStatement?.map Statement.unplaced := by
  rcases e with ⟨_ | _ | _, a⟩ | _ | _ | _
  case setting.subdomain =>
    change (if a.key = "type" then a.unplaced.type? else a.unplaced.vision?) =
      (if a.key = "type" then a.type? else a.vision?).map Statement.unplaced
    split
    · exact a.type?_unplaced
    · exact a.vision?_unplaced
  case setting.context => exact a.vision?_unplaced
  all_goals rfl

theorem contextStatement?_unplaced (e : Entry) :
    e.unplaced.contextStatement? = e.contextStatement?.map Statement.unplaced := by
  rcases e with ⟨_ | _ | _, a⟩ | _ | _ | _
  case setting.context => exact a.contextStatement?_unplaced
  all_goals rfl

/-! The names that entries declare come without spans. -/

theorem entityName?_unplaced (e : Entry) : e.unplaced.entityName? = e.entityName? := by
  rcases e with _ | _ | ⟨_ | ⟨_ | _ | _ | _ | _ | _, _⟩ | _ | _, _, _⟩ | _
  all_goals rfl

theorem groupName?_unplaced (kind : GroupKind) (e : Entry) :
    e.unplaced.groupName? kind = e.groupName? kind := by
  rcases e with _ | _ | ⟨_ | _ | _ | _, _, _⟩ | _
  all_goals rfl

end Entry

theorem MapSetting.statement?_unplaced (s : MapSetting) :
    s.unplaced.statement? = s.statement?.map Statement.unplaced := by
  cases s with
  | type value | state value =>
      simp only [unplaced, statement?]
      split <;> rfl
  | contains references => rfl
  | other setting => rfl

/-! ## Declarations -/

theorem Heading.ownEntities_unplaced (heading : Heading) :
    heading.unplaced.ownEntities = heading.ownEntities.map Entry.unplaced := by
  cases heading with
  | subdomain name entities =>
      simp [unplaced, ownEntities, Function.comp_def, Entry.unplaced]
  | object kind name => rfl
  | group kind name => rfl
  | unknown keyword words => rfl

mutual

theorem Entry.declarations_unplaced (e : Entry) :
    e.unplaced.declarations = e.declarations.map Entry.unplaced := by
  cases e with
  | setting scope setting => simp [Entry.unplaced, Entry.declarations]
  | entity entity => simp [Entry.unplaced, Entry.declarations]
  | unknownLine keyword words span => simp [Entry.unplaced, Entry.declarations]
  | declaration heading body span =>
      rw [Entry.unplaced, Entry.declarations, Entry.declarations, declarationsOf_unplaced body,
        heading.ownEntities_unplaced, List.map_cons, List.map_append, Entry.unplaced]

theorem declarationsOf_unplaced (body : List Entry) :
    declarationsOf (unplacedBody body) = (declarationsOf body).map Entry.unplaced := by
  cases body with
  | nil => simp [unplacedBody, declarationsOf]
  | cons entry rest =>
      rw [unplacedBody, declarationsOf, declarationsOf, entry.declarations_unplaced,
        declarationsOf_unplaced rest, List.map_append]

end

/-! ## The first pass -/

namespace Finding

def unplaced : Finding → Finding
  | duplicateName kind name _ => duplicateName kind name .none
  | unknownSubdomainType literal name _ => unknownSubdomainType literal name .none
  | unresolved mention name owner _ => unresolved mention name owner .none

end Finding

def GradedFinding.unplaced (g : GradedFinding) : GradedFinding :=
  { g with finding := g.finding.unplaced }

/-- How serious a finding is does not depend on where it was made. -/
theorem Finding.graded_unplaced (policy : Policy) (finding : Finding) :
    finding.unplaced.graded policy = (finding.graded policy).unplaced := by
  cases finding <;> rfl

theorem duplicateFindings_unplaced (taken : Bool) (kind : Kind) (name : String) (span : Span) :
    duplicateFindings taken kind name .none =
      (duplicateFindings taken kind name span).map Finding.unplaced := by
  cases taken <;> rfl

namespace SubdomainDecl

def unplaced (decl : SubdomainDecl) : SubdomainDecl :=
  { decl with
    entities := decl.entities.map BareEntity.unplaced
    body := unplacedBody decl.body
    span := .none }

theorem ofEntry?_unplaced (e : Entry) :
    ofEntry? e.unplaced = Option.map SubdomainDecl.unplaced (SubdomainDecl.ofEntry? e) := by
  rcases e with _ | _ | ⟨_ | _ | _ | _, _, _⟩ | _
  all_goals rfl

theorem settings_unplaced (decl : SubdomainDecl) :
    decl.unplaced.settings = decl.settings.unplaced := by
  rw [settings, settings, ← Settings.ofStatements_unplaced,
    ← filterMap_map_comm Entry.subdomainStatement?_unplaced, ← unplacedBody_eq_map]
  rfl

theorem typeFindings_unplaced (decl : SubdomainDecl) :
    decl.unplaced.typeFindings = decl.typeFindings.map Finding.unplaced := by
  rw [typeFindings, typeFindings, settings_unplaced]
  cases h : decl.settings.type with
  | none => simp [Settings.unplaced, h]
  | some stated =>
      simp only [Settings.unplaced, h, Option.map_some]
      split <;> rfl

theorem toSubdomain_unplaced (decl : SubdomainDecl) (id : Id .subdomain) (domain : Id .domain) :
    decl.unplaced.toSubdomain id domain = decl.toSubdomain id domain := by
  have type : decl.unplaced.type = decl.type := by
    rw [SubdomainDecl.type, SubdomainDecl.type, settings_unplaced]
    cases h : decl.settings.type <;> simp [Settings.unplaced, h]
  have vision : decl.unplaced.settings.vision = decl.settings.vision := by
    rw [settings_unplaced]
    rfl
  have names : decl.unplaced.body.filterMap Entry.entityName? =
      decl.body.filterMap Entry.entityName? := by
    change (unplacedBody decl.body).filterMap _ = _
    rw [unplacedBody_eq_map]
    exact filterMap_map_of_forall_eq Entry.entityName?_unplaced _
  have bare : decl.unplaced.entities.map BareEntity.name = decl.entities.map BareEntity.name := by
    rw [unplaced, List.map_map]
    rfl
  rw [toSubdomain, toSubdomain, type, vision, names, bare]
  rfl

end SubdomainDecl

namespace DomainDecl

theorem subdomains_unplaced (decl : DomainDecl) :
    decl.unplaced.subdomains = decl.subdomains.map SubdomainDecl.unplaced := by
  rw [subdomains, subdomains, ← filterMap_map_comm SubdomainDecl.ofEntry?_unplaced,
    ← declarationsOf_unplaced]
  rfl

theorem toDomain_unplaced (decl : DomainDecl) (id : Id .domain) :
    decl.unplaced.toDomain id = decl.toDomain id := by
  have settings : Settings.ofStatements
      (decl.unplaced.body.filterMap Entry.domainStatement?) =
        (Settings.ofStatements (decl.body.filterMap Entry.domainStatement?)).unplaced := by
    rw [← Settings.ofStatements_unplaced, ← filterMap_map_comm Entry.domainStatement?_unplaced,
      ← unplacedBody_eq_map]
    rfl
  rw [toDomain, toDomain, settings]
  rfl

end DomainDecl

/-- A type that is only looked at for its literal. -/
theorem Settings.literal_unplaced (s : Settings) :
    s.unplaced.type.map Prod.fst = s.type.map Prod.fst := by
  rw [unplaced, Option.map_map]
  rfl

theorem ContextDecl.toContext_unplaced (decl : ContextDecl) (id : Id .context) :
    decl.unplaced.toContext id = decl.toContext id := by
  have settings : Settings.ofStatements
      (decl.unplaced.body.filterMap Entry.contextStatement?) =
        (Settings.ofStatements (decl.body.filterMap Entry.contextStatement?)).unplaced := by
    rw [← Settings.ofStatements_unplaced, ← filterMap_map_comm Entry.contextStatement?_unplaced,
      ← unplacedBody_eq_map]
    rfl
  have groups (kind : GroupKind) : decl.unplaced.groupNames kind = decl.groupNames kind := by
    change (declarationsOf (unplacedBody decl.body)).filterMap _ = _
    rw [declarationsOf_unplaced]
    exact filterMap_map_of_forall_eq (Entry.groupName?_unplaced kind) _
  simp only [toContext, settings, Settings.literal_unplaced, groups]
  rfl

theorem MapDecl.toMap_unplaced (decl : MapDecl) (id : Id .map) :
    decl.unplaced.toMap id = decl.toMap id := by
  have settings : Settings.ofStatements
      (decl.unplaced.settings.filterMap MapSetting.statement?) =
        (Settings.ofStatements (decl.settings.filterMap MapSetting.statement?)).unplaced := by
    rw [← Settings.ofStatements_unplaced, ← filterMap_map_comm MapSetting.statement?_unplaced]
    rfl
  simp only [toMap, settings, Settings.literal_unplaced]
  rfl

theorem UseCaseDecl.toUseCase_unplaced (decl : UseCaseDecl) (id : Id .useCase) :
    decl.unplaced.toUseCase id = decl.toUseCase id := by
  have part (useCase : UseCase) (part : UseCasePart) :
      applyPart useCase part.unplaced = applyPart useCase part := by
    cases part <;> rfl
  exact foldl_map_comm (g := fun useCase => useCase) part _ decl.parts

namespace Draft

def unplaced (draft : Draft) : Draft :=
  { draft with graded := draft.graded.map GradedFinding.unplaced }

variable (draft : Draft)

theorem report_unplaced (findings : List Finding) :
    draft.unplaced.report (findings.map Finding.unplaced) = (draft.report findings).unplaced := by
  simp only [report, unplaced, List.map_append, List.map_map, Function.comp_def,
    Finding.graded_unplaced]

theorem enter_unplaced {kind : Kind} (name : String) (id : Id kind) (span : Span) :
    draft.unplaced.enter name id .none = (draft.enter name id span).unplaced := by
  rw [enter, enter, duplicateFindings_unplaced _ _ _ span, ← report_unplaced]
  rfl

theorem registerSubdomain_unplaced (domain : Id .domain) (decl : SubdomainDecl) :
    registerSubdomain domain draft.unplaced decl.unplaced =
      (registerSubdomain domain draft decl).unplaced := by
  rw [registerSubdomain, registerSubdomain, ← enter_unplaced, ← report_unplaced,
    decl.toSubdomain_unplaced, decl.typeFindings_unplaced]
  rfl

theorem registerOwned_unplaced (domain : Id .domain) (decl : SubdomainDecl) :
    registerOwned domain draft.unplaced decl.unplaced =
      (registerOwned domain draft decl).unplaced := by
  rw [registerOwned, registerOwned, registerSubdomain_unplaced]
  rfl

theorem addDomain_unplaced (decl : DomainDecl) :
    draft.unplaced.addDomain decl.unplaced = (draft.addDomain decl).unplaced := by
  rw [addDomain, addDomain, ← enter_unplaced, decl.toDomain_unplaced]
  rfl

theorem registerDomain_unplaced (decl : DomainDecl) :
    draft.unplaced.registerDomain decl.unplaced = (draft.registerDomain decl).unplaced := by
  rw [registerDomain, registerDomain, DomainDecl.subdomains_unplaced, addDomain_unplaced]
  exact foldl_map_comm (fun draft s => registerOwned_unplaced draft _ s) _ _

theorem registerContext_unplaced (decl : ContextDecl) :
    draft.unplaced.registerContext decl.unplaced = (draft.registerContext decl).unplaced := by
  rw [registerContext, registerContext, ← enter_unplaced, decl.toContext_unplaced]
  rfl

theorem registerMap_unplaced (decl : MapDecl) :
    draft.unplaced.registerMap decl.unplaced = (draft.registerMap decl).unplaced := by
  obtain ⟨name, settings, relations, span⟩ := decl
  rw [registerMap, registerMap, MapDecl.toMap_unplaced]
  cases name with
  | none => rfl
  | some name =>
      dsimp only
      rw [← enter_unplaced]
      rfl

theorem registerUseCase_unplaced (decl : UseCaseDecl) :
    draft.unplaced.registerUseCase decl.unplaced = (draft.registerUseCase decl).unplaced := by
  rw [registerUseCase, registerUseCase, ← enter_unplaced, decl.toUseCase_unplaced]
  rfl

theorem register_unplaced (e : Element) :
    draft.unplaced.register e.unplaced = (draft.register e).unplaced := by
  cases e with
  | domain decl => rw [Element.unplaced, register, registerDomain_unplaced]; rfl
  | context decl => rw [Element.unplaced, register, registerContext_unplaced]; rfl
  | map decl => rw [Element.unplaced, register, registerMap_unplaced]; rfl
  | useCase decl => rw [Element.unplaced, register, registerUseCase_unplaced]; rfl
  | unknown decl => rfl

end Draft

theorem Document.register_unplaced (d : Document) (policy : Policy) :
    d.unplaced.register policy = (d.register policy).unplaced :=
  foldl_map_comm Draft.register_unplaced (Draft.empty policy) d.elements

/-! ## The second pass -/

namespace RelationDecl

theorem findSome?_unplaced {β : Type} {pick : RelationAttribute → Option β}
    (h : ∀ a, pick a.unplaced = pick a) (decl : RelationDecl) :
    decl.unplaced.attributes.findSome? pick = decl.attributes.findSome? pick := by
  change (decl.attributes.map RelationAttribute.unplaced).findSome? pick = _
  rw [List.findSome?_map]
  exact congrArg (decl.attributes.findSome? ·) (funext h)

theorem toRelationship_unplaced (decl : RelationDecl) (left right : Id .context) :
    decl.unplaced.toRelationship left right = decl.toRelationship left right := by
  have type : decl.unplaced.statedType? = decl.statedType? :=
    findSome?_unplaced (fun a => by cases a <;> rfl) decl
  have technology : decl.unplaced.technology? = decl.technology? :=
    findSome?_unplaced (fun a => by cases a <;> rfl) decl
  have label : decl.unplaced.label = decl.label := by
    rw [RelationDecl.label, RelationDecl.label, type]
    rfl
  rw [toRelationship, toRelationship, label, technology]
  rfl

end RelationDecl

namespace Draft

variable (draft : Draft)

theorem linkImplementation_unplaced (context : Id .context) (owner : Owner) (r : Reference) :
    linkImplementation context owner draft.unplaced r.unplaced =
      (linkImplementation context owner draft r).unplaced := by
  have hid : draft.unplaced.subdomainId? r.unplaced.name = draft.subdomainId? r.name := rfl
  rw [linkImplementation, linkImplementation, hid]
  cases draft.subdomainId? r.name with
  | some subdomain => rfl
  | none => exact draft.report_unplaced [.unresolved .implementation r.name owner r.span]

theorem linkContext_unplaced (context : Id .context) (decl : ContextDecl) :
    draft.unplaced.linkContext context decl.unplaced =
      (draft.linkContext context decl).unplaced :=
  foldl_map_comm (fun draft r => draft.linkImplementation_unplaced context _ r) draft
    decl.implements

theorem linkMember_unplaced (map : Id .map) (owner : Owner) (r : Reference) :
    linkMember map owner draft.unplaced r.unplaced = (linkMember map owner draft r).unplaced := by
  have hid : draft.unplaced.contextId? r.unplaced.name = draft.contextId? r.name := rfl
  rw [linkMember, linkMember, hid]
  cases draft.contextId? r.name with
  | some context => rfl
  | none => exact draft.report_unplaced [.unresolved .membership r.name owner r.span]

theorem endpointFindings_unplaced (owner : Owner) (e : Endpoint) :
    draft.unplaced.endpointFindings owner e.unplaced =
      (draft.endpointFindings owner e).map Finding.unplaced := by
  change (if (draft.contextId? e.name).isSome then _ else _) = _
  rw [endpointFindings]
  split <;> rfl

theorem linkRelation_unplaced (map : Id .map) (owner : Owner) (decl : RelationDecl) :
    linkRelation map owner draft.unplaced decl.unplaced =
      (linkRelation map owner draft decl).unplaced := by
  have hleft : draft.unplaced.contextId? decl.unplaced.left.name =
      draft.contextId? decl.left.name := rfl
  have hright : draft.unplaced.contextId? decl.unplaced.right.name =
      draft.contextId? decl.right.name := rfl
  have hreport : draft.unplaced.report (draft.unplaced.endpointFindings owner decl.unplaced.left ++
        draft.unplaced.endpointFindings owner decl.unplaced.right) =
      (draft.report (draft.endpointFindings owner decl.left ++
        draft.endpointFindings owner decl.right)).unplaced := by
    rw [← report_unplaced, List.map_append, ← endpointFindings_unplaced,
      ← endpointFindings_unplaced]
    rfl
  rw [linkRelation, linkRelation, hleft, hright]
  cases draft.contextId? decl.left.name with
  | none => exact hreport
  | some left =>
      cases draft.contextId? decl.right.name with
      | none => exact hreport
      | some right =>
          dsimp only
          rw [decl.toRelationship_unplaced]
          rfl

/-- The references to members of a map, gathered from its settings. -/
theorem exists_linkMap_eq (map : Id .map) :
    ∃ members : MapSetting → List Reference,
      (∀ s : MapSetting, members s.unplaced = (members s).map Reference.unplaced) ∧
        ∀ (draft : Draft) (decl : MapDecl), draft.linkMap map decl =
          decl.relations.foldl (linkRelation map (.map decl.name))
            ((decl.settings.flatMap members).foldl (linkMember map (.map decl.name)) draft) := by
  refine ⟨_, fun s => ?_, fun _ _ => rfl⟩
  cases s <;> rfl

theorem linkMap_unplaced (map : Id .map) (decl : MapDecl) :
    draft.unplaced.linkMap map decl.unplaced = (draft.linkMap map decl).unplaced := by
  obtain ⟨members, hmembers, hlink⟩ := exists_linkMap_eq map
  have hsettings : decl.unplaced.settings.flatMap members =
      (decl.settings.flatMap members).map Reference.unplaced :=
    flatMap_map_comm hmembers decl.settings
  rw [hlink, hlink, hsettings, foldl_map_comm fun draft r => linkMember_unplaced draft map _ r]
  exact foldl_map_comm (fun draft r => linkRelation_unplaced draft map _ r) _ decl.relations

theorem linkElement_unplaced (x : Element × Registration) :
    draft.unplaced.linkElement (x.map Element.unplaced id) = (draft.linkElement x).unplaced := by
  obtain ⟨element, registration⟩ := x
  cases element with
  | context decl =>
      cases registration with
      | context id => exact draft.linkContext_unplaced id decl
      | domain | map | useCase | skipped => rfl
  | map decl =>
      cases registration with
      | map id => exact draft.linkMap_unplaced id decl
      | domain | context | useCase | skipped => rfl
  | domain | useCase | unknown => cases registration <;> rfl

end Draft

theorem Document.draft_unplaced (d : Document) (policy : Policy) :
    d.unplaced.draft policy = (d.draft policy).unplaced := by
  have paired : d.unplaced.elements.zip (d.register policy).registered =
      (d.elements.zip (d.register policy).registered).map (Prod.map Element.unplaced id) :=
    List.zip_map_left ..
  rw [draft, draft, register_unplaced]
  change List.foldl Draft.linkElement _ (d.unplaced.elements.zip (d.register policy).registered) = _
  rw [paired]
  exact foldl_map_comm Draft.linkElement_unplaced _ _

/-! ## Diagnostics -/

namespace Diagnostic

/-- What a diagnostic says apart from where: without line and column, and without
the lines that it shows. -/
def unplaced (d : Diagnostic) : Diagnostic :=
  { d with line := none, column := none, context := none }

theorem unplaced_placedIn (source : String) (span : Span) (d : Diagnostic) :
    (d.placedIn source span).unplaced = d.unplaced :=
  rfl

end Diagnostic

theorem GradedFinding.unplaced_diagnostic (source source' : Option String) (g : GradedFinding) :
    (g.diagnostic source).unplaced = (g.unplaced.diagnostic source').unplaced := by
  obtain ⟨severity, finding⟩ := g
  cases source <;> cases source' <;> cases finding <;> rfl

/-- Documents that differ in places only are built into one model, with the same
diagnostics in the same order, apart from places. The texts they were read from
take no part in it. -/
theorem Document.build_unplaced {d d' : Document} (h : d.unplaced = d'.unplaced)
    (policy : Policy) (source source' : Option String) :
    (d.build policy source).model = (d'.build policy source').model ∧
      (d.build policy source).diagnostics.map Diagnostic.unplaced =
        (d'.build policy source').diagnostics.map Diagnostic.unplaced := by
  have hdraft : (d.draft policy).unplaced = (d'.draft policy).unplaced := by
    rw [← draft_unplaced, ← draft_unplaced, h]
  have said (d : Document) (source : Option String) :
      (d.build policy source).diagnostics.map Diagnostic.unplaced =
        (d.draft policy).unplaced.graded.map fun g => (g.diagnostic none).unplaced := by
    simp only [build, Draft.unplaced, List.map_map, Function.comp_def,
      ← GradedFinding.unplaced_diagnostic source none]
  refine ⟨congrArg (·.model) hdraft, ?_⟩
  rw [said, said, hdraft]

end Landscape
