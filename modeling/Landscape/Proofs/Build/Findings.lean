import Landscape.Proofs.Build.Shares

/-!
# What is found, said from the document

Findings are reported while a model is being made, but what they say does not
depend on the model. In the first pass a name is taken if an element before
declares it; the registered lists hold exactly these names. In the second pass a
mention is left unresolved if nothing in the document has the name, and links
change that for no name.

So the findings of a document can be written down without a build: first those
of the registration, element by element and each with the elements before it in
view, then the mentions without a declaration, element by element and with the
whole document in view (`Document.draft_findings`).
-/

namespace Landscape

/-! ## Names that are taken -/

theorem isSome_findLast? {α β : Type} [DecidableEq β] (f : α → β) (y : β) (xs : List α) :
    (findLast? (fun x => decide (f x = y)) xs).isSome = decide (y ∈ xs.map f) := by
  rw [Bool.eq_iff_iff, findLast?, List.find?_isSome]
  simp

theorem DomainDecl.map_name_number (domains subdomains : Nat) (decls : List DomainDecl) :
    (number domains subdomains decls).map Domain.name = decls.map DomainDecl.name :=
  map_number (fun _ _ _ => rfl) domains subdomains decls

namespace Document

variable (d : Document) {policy : Policy} (name : String)

theorem isSome_domain :
    ((d.register policy).names.find? .domain name).isSome =
      decide (name ∈ d.domains.map DomainDecl.name) := by
  rw [d.register_tracks, Model.idNamed?, Option.isSome_map, Model.domainNamed?,
    isSome_findLast?, d.domains_register, DomainDecl.map_name_number]

theorem map_name_subdomains_register :
    (d.register policy).model.subdomains.map Subdomain.name =
      d.subdomains.map SubdomainDecl.name := by
  rw [subdomains, ← map_fst_ownedSubdomains 0, List.map_map, d.subdomains_register]
  refine map_mapIdx ?_ _
  exact fun _ _ => rfl

theorem isSome_context :
    ((d.register policy).names.find? .context name).isSome =
      decide (name ∈ d.contexts.map ContextDecl.name) := by
  rw [d.register_tracks, Model.idNamed?, Option.isSome_map, Model.contextNamed?,
    isSome_findLast?, d.contexts_register]
  congr 2
  refine map_mapIdx ?_ _
  exact fun _ _ => rfl

theorem isSome_map :
    ((d.register policy).names.find? .map name).isSome =
      decide (name ∈ d.maps.filterMap MapDecl.name) := by
  have names : (d.register policy).model.maps.map ContextMap.name = d.maps.map MapDecl.name := by
    rw [d.maps_register]
    refine map_mapIdx ?_ _
    exact fun _ _ => rfl
  rw [d.register_tracks, Model.idNamed?, Option.isSome_map, Model.mapNamed?,
    isSome_findLast?, names]
  simp

theorem isSome_useCase :
    ((d.register policy).names.find? .useCase name).isSome =
      decide (name ∈ d.useCases.map UseCaseDecl.name) := by
  rw [d.register_tracks, Model.idNamed?, Option.isSome_map, Model.useCaseNamed?,
    isSome_findLast?, d.useCases_register]
  congr 2
  exact map_mapIdx (fun i decl => decl.name_toUseCase ⟨i⟩) _

end Document

/-! ## The first pass -/

/-- What is found in subdomains, given the names of those before them. -/
def SubdomainDecl.findings (before : List String) : List SubdomainDecl → List Finding
  | [] => []
  | decl :: rest =>
    decl.typeFindings ++
      duplicateFindings (decide (decl.name ∈ before)) .subdomain decl.name decl.span ++
      findings (before ++ [decl.name]) rest

/-- What is found in an element when it is registered, given the elements before
it. -/
def Element.registrationFindings (before : Document) : Element → List Finding
  | .domain decl =>
    duplicateFindings (decide (decl.name ∈ before.domains.map DomainDecl.name)) .domain
        decl.name decl.span ++
      SubdomainDecl.findings (before.subdomains.map SubdomainDecl.name) decl.subdomains
  | .context decl =>
    duplicateFindings (decide (decl.name ∈ before.contexts.map ContextDecl.name)) .context
      decl.name decl.span
  | .map decl =>
    match decl.name with
    | none => []
    | some name =>
      duplicateFindings (decide (name ∈ before.maps.filterMap MapDecl.name)) .map name decl.span
  | .useCase decl =>
    duplicateFindings (decide (decl.name ∈ before.useCases.map UseCaseDecl.name)) .useCase
      decl.name decl.span
  | .unknown _ => []

/-- What is found in elements when they are registered one after the other. -/
def Document.registrationFindings (before : Document) : List Element → List Finding
  | [] => []
  | element :: rest =>
    element.registrationFindings before ++
      registrationFindings ⟨before.elements ++ [element]⟩ rest

namespace Draft

theorem findings_enter {kind : Kind} (name : String) (id : Id kind) (span : Span)
    (draft : Draft) :
    (draft.enter name id span).findings =
      draft.findings ++ duplicateFindings (draft.names.find? kind name).isSome kind name span :=
  report_findings _ _

theorem findings_foldl_registerOwned (owner : Id .domain) {draft : Draft}
    (h : draft.Tracks) (decls : List SubdomainDecl) :
    (decls.foldl (registerOwned owner) draft).findings =
      draft.findings ++
        SubdomainDecl.findings (draft.model.subdomains.map Subdomain.name) decls := by
  induction decls generalizing draft with
  | nil => simp [SubdomainDecl.findings]
  | cons decl rest ih =>
      have taken : (draft.names.find? .subdomain decl.name).isSome =
          decide (decl.name ∈ draft.model.subdomains.map Subdomain.name) := by
        rw [h, Model.idNamed?, Option.isSome_map, Model.subdomainNamed?, isSome_findLast?]
      have found : (registerOwned owner draft decl).findings = draft.findings ++
          (decl.typeFindings ++ duplicateFindings
            (decide (decl.name ∈ draft.model.subdomains.map Subdomain.name)) .subdomain decl.name
              decl.span) := by
        change (registerSubdomain owner draft decl).findings = _
        rw [registerSubdomain, findings_enter, report_names, report_findings, taken,
          List.append_assoc]
        rfl
      have named : (registerOwned owner draft decl).model.subdomains.map Subdomain.name =
          draft.model.subdomains.map Subdomain.name ++ [decl.name] := List.map_append
      rw [List.foldl_cons, ih (registerOwned_tracks h owner decl), found, named,
        SubdomainDecl.findings, List.append_assoc]

end Draft

namespace Document

theorem findings_register_concat (d : Document) {policy : Policy} (element : Element) :
    ((d.register policy).register element).findings =
      (d.register policy).findings ++ element.registrationFindings d := by
  cases element with
  | domain decl =>
      have tracks : ((d.register policy).addDomain decl).Tracks :=
        Draft.addDomain_tracks d.register_tracks decl
      rw [Draft.register, Draft.note_findings, Draft.registerDomain,
        Draft.findings_foldl_registerOwned _ tracks, Draft.addDomain, Draft.findings_enter,
        d.isSome_domain, List.append_assoc]
      simp only [Draft.enter_model, d.map_name_subdomains_register]
      rfl
  | context decl =>
      rw [Draft.register, Draft.note_findings, Draft.registerContext, Draft.findings_enter,
        d.isSome_context]
      rfl
  | map decl =>
      rw [Draft.register, Draft.note_findings, Draft.registerMap, Element.registrationFindings]
      cases decl.name with
      | none => exact (List.append_nil _).symm
      | some name =>
          dsimp only
          rw [Draft.findings_enter, d.isSome_map]
          rfl
  | useCase decl =>
      rw [Draft.register, Draft.note_findings, Draft.registerUseCase, Draft.findings_enter,
        d.isSome_useCase]
      rfl
  | unknown decl => exact (List.append_nil _).symm

/-- Elements are registered where the ones before them have left off. -/
theorem findings_foldl_register (before : Document) {policy : Policy}
    (elements : List Element) :
    (elements.foldl Draft.register (before.register policy)).findings =
      (before.register policy).findings ++ before.registrationFindings elements := by
  induction elements generalizing before with
  | nil => exact (List.append_nil _).symm
  | cons element rest ih =>
      have concat : (before.register policy).register element =
          (Document.mk (before.elements ++ [element])).register policy := by
        rw [register, register, List.foldl_append]
        rfl
      rw [List.foldl_cons, concat, ih, ← concat, findings_register_concat,
        registrationFindings, List.append_assoc]

theorem register_findings (d : Document) {policy : Policy} :
    (d.register policy).findings = registrationFindings ⟨[]⟩ d.elements :=
  findings_foldl_register ⟨[]⟩ d.elements

end Document

/-! ## The second pass -/

/-- The finding for a mention, unless it was found. -/
def unresolvedFindings (found : Bool) (mention : Mention) (name : String) (owner : Owner)
    (span : Span) : List Finding :=
  if found then [] else [.unresolved mention name owner span]

def ContextDecl.unresolvedIn (decl : ContextDecl) (d : Document) : List Finding :=
  decl.implements.flatMap fun reference =>
    unresolvedFindings (d.subdomainId? reference.name).isSome .implementation reference.name
      (.context decl.name) reference.span

/-- The side of a relationship that no context has the name of. -/
def Endpoint.unresolvedIn (endpoint : Endpoint) (owner : Owner) (d : Document) :
    List Finding :=
  unresolvedFindings (d.contextId? endpoint.name).isSome .endpoint endpoint.name owner
    endpoint.span

def MapDecl.unresolvedIn (decl : MapDecl) (d : Document) : List Finding :=
  (decl.mentions.flatMap fun reference =>
    unresolvedFindings (d.contextId? reference.name).isSome .membership reference.name
      (.map decl.name) reference.span) ++
    decl.relations.flatMap fun r =>
      r.left.unresolvedIn (.map decl.name) d ++ r.right.unresolvedIn (.map decl.name) d

/-- What an element mentions and the document does not declare. -/
def Element.unresolvedIn (d : Document) : Element → List Finding
  | .context decl => decl.unresolvedIn d
  | .map decl => decl.unresolvedIn d
  | _ => []

namespace Draft

variable {d : Document} {draft : Draft}

/-- Whatever only makes links reports what it would report on any other draft. -/
theorem foldl_findings {α : Type} {f : Draft → α → Draft} {linksOf : α → List Link}
    {found : α → List Finding}
    (hgains : ∀ (draft : Draft) x, draft.Linkable d → draft.Gains (linksOf x) (f draft x))
    (hfindings : ∀ draft x, draft.Linkable d → (f draft x).findings = draft.findings ++ found x)
    (xs : List α) (h : draft.Linkable d) :
    (xs.foldl f draft).findings = draft.findings ++ xs.flatMap found := by
  induction xs generalizing draft with
  | nil => exact (List.append_nil _).symm
  | cons x xs ih =>
      rw [List.foldl_cons, ih (h.gains (hgains draft x h)), hfindings draft x h,
        List.flatMap_cons, List.append_assoc]

theorem linkContext_findings (h : draft.Linkable d) (context : Id .context)
    (decl : ContextDecl) :
    (draft.linkContext context decl).findings = draft.findings ++ decl.unresolvedIn d := by
  refine foldl_findings (fun draft reference h => linkImplementation_gains h _ _ reference)
    (fun draft reference h => ?_) _ h
  rw [← h.resolves.subdomain, linkImplementation, subdomainId?]
  cases draft.names.find? .subdomain reference.name with
  | none => exact draft.report_findings _
  | some id => exact (List.append_nil _).symm

theorem endpointFindings_eq (h : draft.Linkable d) (owner : Owner) (endpoint : Endpoint) :
    draft.endpointFindings owner endpoint = endpoint.unresolvedIn owner d := by
  rw [Endpoint.unresolvedIn, ← h.resolves.context]
  rfl

theorem linkRelation_findings (h : draft.Linkable d) (map : Id .map) (owner : Owner)
    (decl : RelationDecl) :
    (draft.linkRelation map owner decl).findings =
      draft.findings ++ (decl.left.unresolvedIn owner d ++ decl.right.unresolvedIn owner d) := by
  rw [linkRelation, ← endpointFindings_eq h, ← endpointFindings_eq h, endpointFindings,
    endpointFindings]
  cases draft.contextId? decl.left.name with
  | none => exact draft.report_findings _
  | some left =>
      cases draft.contextId? decl.right.name with
      | none => exact draft.report_findings _
      | some right => exact (List.append_nil _).symm

theorem linkMap_findings (h : draft.Linkable d) (map : Id .map) (decl : MapDecl) :
    (draft.linkMap map decl).findings = draft.findings ++ decl.unresolvedIn d := by
  have members := foldl_linkMember_gains h map (.map decl.name) decl.mentions
  have mentioned : (decl.mentions.foldl (linkMember map (.map decl.name)) draft).findings =
      draft.findings ++ decl.mentions.flatMap fun reference =>
        unresolvedFindings (d.contextId? reference.name).isSome .membership reference.name
          (.map decl.name) reference.span := by
    refine foldl_findings (fun draft reference h => linkMember_gains h _ _ reference)
      (fun draft reference h => ?_) _ h
    rw [← h.resolves.context, linkMember, contextId?]
    cases draft.names.find? .context reference.name with
    | none => exact draft.report_findings _
    | some id => exact (List.append_nil _).symm
  have related := foldl_findings (fun draft r h => linkRelation_gains h map (.map decl.name) r)
    (fun draft r h => linkRelation_findings h map (.map decl.name) r) decl.relations
    (h.gains members)
  rw [mentioned, List.append_assoc] at related
  exact related

theorem linkElements_findings (h : draft.Linkable d) (contexts maps : Nat)
    (elements : List Element) :
    (draft.linkElements contexts maps elements).findings =
      draft.findings ++ elements.flatMap (Element.unresolvedIn d) := by
  induction elements generalizing draft contexts maps with
  | nil => exact (List.append_nil _).symm
  | cons element rest ih =>
      cases element with
      | context decl =>
          have linked := h.gains (linkContext_gains h ⟨contexts⟩ decl)
          rw [linkElements, ih linked, linkContext_findings h, List.append_assoc,
            List.flatMap_cons, Element.unresolvedIn]
      | map decl =>
          have linked := h.gains (linkMap_gains h ⟨maps⟩ decl)
          rw [linkElements, ih linked, linkMap_findings h, List.append_assoc,
            List.flatMap_cons, Element.unresolvedIn]
      | domain decl => exact ih h contexts maps
      | useCase decl => exact ih h contexts maps
      | unknown decl => exact ih h contexts maps

end Draft

/-- All that is found in a document, in the order in which it is reported. -/
theorem Document.draft_findings (d : Document) {policy : Policy} :
    (d.draft policy).findings =
      registrationFindings ⟨[]⟩ d.elements ++ d.elements.flatMap (Element.unresolvedIn d) := by
  rw [draft_eq_linkElements, Draft.linkElements_findings (d.linkable_register policy),
    d.register_findings]

/-! ## Names that are declared once -/

/-- No two declarations of a kind have one name. Context maps without a name
are none of these. -/
structure Document.DistinctNames (d : Document) : Prop where
  domains : (d.domains.map DomainDecl.name).Nodup
  subdomains : (d.subdomains.map SubdomainDecl.name).Nodup
  contexts : (d.contexts.map ContextDecl.name).Nodup
  maps : (d.maps.filterMap MapDecl.name).Nodup
  useCases : (d.useCases.map UseCaseDecl.name).Nodup

theorem duplicateFindings_of_nodup {names : List String} {name : String}
    (h : (names ++ [name]).Nodup) (kind : Kind) (span : Span) :
    duplicateFindings (decide (name ∈ names)) kind name span = [] := by
  have hnew : name ∉ names := fun hmem =>
    (List.nodup_append.1 h).2.2 _ hmem _ List.mem_cons_self rfl
  rw [decide_eq_false hnew, duplicateFindings, if_neg Bool.false_ne_true]

/-- Subdomains that are all named differently have only their types reported. -/
theorem SubdomainDecl.findings_of_nodup {before : List String} {decls : List SubdomainDecl}
    (h : (before ++ decls.map SubdomainDecl.name).Nodup) :
    findings before decls = decls.flatMap typeFindings := by
  induction decls generalizing before with
  | nil => rfl
  | cons decl rest ih =>
      rw [List.map_cons, ← List.singleton_append, ← List.append_assoc] at h
      rw [findings, duplicateFindings_of_nodup (List.nodup_append.1 h).1, ih h,
        List.append_nil, List.flatMap_cons]

namespace Document

section

variable (xs ys : List Element)

theorem domains_append :
    (mk (xs ++ ys)).domains = (mk xs).domains ++ (mk ys).domains :=
  List.filterMap_append

theorem subdomains_append :
    (mk (xs ++ ys)).subdomains = (mk xs).subdomains ++ (mk ys).subdomains := by
  rw [subdomains, domains_append, List.flatMap_append]
  rfl

theorem contexts_append :
    (mk (xs ++ ys)).contexts = (mk xs).contexts ++ (mk ys).contexts :=
  List.filterMap_append

theorem maps_append : (mk (xs ++ ys)).maps = (mk xs).maps ++ (mk ys).maps :=
  List.filterMap_append

theorem useCases_append :
    (mk (xs ++ ys)).useCases = (mk xs).useCases ++ (mk ys).useCases :=
  List.filterMap_append

end

namespace DistinctNames

theorem of_append {before rest : List Element} (h : DistinctNames ⟨before ++ rest⟩) :
    DistinctNames ⟨before⟩ := by
  obtain ⟨hdomains, hsubdomains, hcontexts, hmaps, huseCases⟩ := h
  rw [domains_append, List.map_append] at hdomains
  rw [subdomains_append, List.map_append] at hsubdomains
  rw [contexts_append, List.map_append] at hcontexts
  rw [maps_append, List.filterMap_append] at hmaps
  rw [useCases_append, List.map_append] at huseCases
  exact ⟨(List.nodup_append.1 hdomains).1, (List.nodup_append.1 hsubdomains).1,
    (List.nodup_append.1 hcontexts).1, (List.nodup_append.1 hmaps).1,
    (List.nodup_append.1 huseCases).1⟩

theorem of_perm {d d' : Document} (h : d.DistinctNames) (hperm : d'.elements.Perm d.elements) :
    d'.DistinctNames where
  domains := ((hperm.filterMap _).map _).nodup_iff.2 h.domains
  subdomains := (((hperm.filterMap _).flatMap_right _).map _).nodup_iff.2 h.subdomains
  contexts := ((hperm.filterMap _).map _).nodup_iff.2 h.contexts
  maps := ((hperm.filterMap _).filterMap _).nodup_iff.2 h.maps
  useCases := ((hperm.filterMap _).map _).nodup_iff.2 h.useCases

theorem registrationFindings_element {before : Document} {element : Element}
    (h : DistinctNames ⟨before.elements ++ [element]⟩) :
    element.registrationFindings before =
      element.subdomains.flatMap SubdomainDecl.typeFindings := by
  obtain ⟨hdomains, hsubdomains, hcontexts, hmaps, huseCases⟩ := h
  cases element with
  | domain decl =>
      rw [domains_append, List.map_append] at hdomains
      rw [subdomains_append, List.map_append] at hsubdomains
      have hown : (Document.mk [.domain decl]).subdomains = decl.subdomains := List.append_nil _
      rw [hown] at hsubdomains
      rw [Element.registrationFindings, duplicateFindings_of_nodup hdomains,
        SubdomainDecl.findings_of_nodup hsubdomains, List.nil_append]
      exact congrArg (List.flatMap _) (List.append_nil _).symm
  | context decl =>
      rw [contexts_append, List.map_append] at hcontexts
      exact duplicateFindings_of_nodup hcontexts .context decl.span
  | map decl =>
      rw [maps_append, List.filterMap_append] at hmaps
      rw [Element.registrationFindings]
      cases hname : decl.name with
      | none => rfl
      | some name =>
          have hown : (Document.mk [.map decl]).maps.filterMap MapDecl.name = [name] := by
            simp [Document.maps, Element.map?, hname]
          rw [hown] at hmaps
          exact duplicateFindings_of_nodup hmaps .map decl.span
  | useCase decl =>
      rw [useCases_append, List.map_append] at huseCases
      exact duplicateFindings_of_nodup huseCases .useCase decl.span
  | unknown decl => rfl

/-- Then registration reports nothing but types. -/
theorem registrationFindings (before : Document) {elements : List Element}
    (h : DistinctNames ⟨before.elements ++ elements⟩) :
    before.registrationFindings elements =
      elements.flatMap fun e => e.subdomains.flatMap SubdomainDecl.typeFindings := by
  induction elements generalizing before with
  | nil => rfl
  | cons element rest ih =>
      rw [← List.singleton_append, ← List.append_assoc] at h
      have hrest :
          DistinctNames ⟨(Document.mk (before.elements ++ [element])).elements ++ rest⟩ := h
      rw [Document.registrationFindings, registrationFindings_element h.of_append, ih _ hrest,
        List.flatMap_cons]

end DistinctNames

end Document

end Landscape
