import Landscape.Proofs.Build.Linking
import Landscape.Proofs.Build.Unnoticed
import Landscape.Proofs.Build.Unplaced
import Landscape.Proofs.Document.Pruned

/-!
# Building reads nothing of what is pruned

A document without all that is read by nothing is built into the same model, with
the same findings (`Document.draft_pruned`). In each body that is looked at, idle
settings state nothing and declare nothing, and pruning keeps the declarations, at
any depth and in their order (`declarationsOf_prunedBody`). Things get their
numbers from the known elements that come before them. Neither pass counts unknown
ones, so that leaving them out moves nothing. All that is missing in the end are the
notes that they were skipped, and nothing looks for these.

Two documents that differ by edits have the same left of them, and hence the same
model and the same diagnostics (`Document.build_edited`).
-/

namespace Landscape

/-! ## Lists

What is idle can be left out of a list, if nothing is made of it. -/

section

variable {α β : Type} {idle : α → Bool}

theorem filterMap_filter_not {pick : α → Option β} (h : ∀ x, idle x → pick x = none)
    (xs : List α) : (xs.filter (!idle ·)).filterMap pick = xs.filterMap pick := by
  rw [List.filterMap_filter]
  refine congrArg (xs.filterMap ·) (funext fun x => ?_)
  cases hx : idle x with
  | false => rfl
  | true => exact (h x hx).symm

theorem flatMap_filter_not {pick : α → List β} (h : ∀ x, idle x → pick x = [])
    (xs : List α) : (xs.filter (!idle ·)).flatMap pick = xs.flatMap pick := by
  induction xs with
  | nil => rfl
  | cons x rest ih => cases hx : idle x <;> simp [hx, ih, h]

theorem foldl_filter_not {step : β → α → β} (h : ∀ y x, idle x → step y x = y) (y : β)
    (xs : List α) : (xs.filter (!idle ·)).foldl step y = xs.foldl step y := by
  rw [List.foldl_filter]
  refine congrArg (List.foldl · y xs) (funext fun y => funext fun x => ?_)
  cases hx : idle x with
  | false => rfl
  | true => exact (h y x hx).symm

theorem findSome?_filter_not {pick : α → Option β} (h : ∀ x, idle x → pick x = none)
    (xs : List α) : (xs.filter (!idle ·)).findSome? pick = xs.findSome? pick := by
  rw [← List.head?_filterMap, ← List.head?_filterMap, filterMap_filter_not h]

end

/-! ## Settings -/

namespace Attribute

variable {a : Attribute}

theorem vision?_of_not_mem (h : a.key ∉ readKeys) : a.vision? = none := by
  refine if_neg fun hkey => h ?_
  rw [hkey]
  decide

theorem contextStatement?_of_not_mem (h : a.key ∉ readKeys) : a.contextStatement? = none := by
  unfold contextStatement?
  split
  case h_6 => rfl
  all_goals next hkey => exact absurd (hkey ▸ by decide) h

end Attribute

namespace Entry

variable {e : Entry}

theorem domainStatement?_of_isIdle (h : e.isIdle) : e.domainStatement? = none := by
  rcases e with ⟨_ | _ | _, a⟩ | _ | _ | _
  case setting.subdomain | setting.context =>
    exact a.vision?_of_not_mem (by simpa [isIdle] using h)
  all_goals rfl

theorem subdomainStatement?_of_isIdle (h : e.isIdle) : e.subdomainStatement? = none := by
  rcases e with ⟨_ | _ | _, a⟩ | _ | _ | _
  case setting.subdomain =>
    have hkey : a.key ∉ Attribute.readKeys := by simpa [isIdle] using h
    have htype : a.key ≠ "type" := fun htype => hkey (htype ▸ by decide)
    rw [subdomainStatement?, if_neg htype]
    exact a.vision?_of_not_mem hkey
  case setting.context => exact a.vision?_of_not_mem (by simpa [isIdle] using h)
  all_goals rfl

theorem contextStatement?_of_isIdle (h : e.isIdle) : e.contextStatement? = none := by
  rcases e with ⟨_ | _ | _, a⟩ | _ | _ | _
  case setting.context => exact a.contextStatement?_of_not_mem (by simpa [isIdle] using h)
  all_goals rfl

theorem entityName?_of_isIdle (h : e.isIdle) : e.entityName? = none := by
  cases e with
  | setting scope a => rfl
  | _ => cases h

/-- The name of an entity stands in its heading. -/
theorem entityName?_declaration (heading : Heading) (body body' : List Entry) (span : Span) :
    (declaration heading body span).entityName? = (declaration heading body' span).entityName? := by
  rcases heading with _ | ⟨_ | _ | _ | _ | _ | _, _⟩ | _ | _
  all_goals rfl

end Entry

/-- What is picked from the entries of a body, and not from what is below them, is
still there. -/
theorem filterMap_prunedBody {β : Type} {pick : Entry → Option β}
    (hidle : ∀ e : Entry, e.isIdle → pick e = none)
    (hinside : ∀ heading body body' span,
      pick (.declaration heading body span) = pick (.declaration heading body' span))
    (body : List Entry) : (prunedBody body).filterMap pick = body.filterMap pick := by
  have hpruned (e : Entry) : pick e.pruned = pick e := by
    cases e with
    | declaration heading body span => rw [Entry.pruned]; exact hinside ..
    | _ => rw [Entry.pruned]
  rw [prunedBody_eq_map, filterMap_map_of_forall_eq hpruned, filterMap_filter_not hidle]

/-! ## Declarations -/

theorem Heading.ownEntities_pruned (heading : Heading) :
    heading.ownEntities.map Entry.pruned = heading.ownEntities := by
  cases heading with
  | subdomain name entities => simp [ownEntities, Function.comp_def, Entry.pruned]
  | _ => rfl

theorem Entry.declarations_of_isIdle {e : Entry} (h : e.isIdle) : e.declarations = [] := by
  cases e with
  | setting scope a => rw [declarations]
  | _ => cases h

mutual

theorem Entry.declarations_pruned (e : Entry) :
    e.pruned.declarations = e.declarations.map Entry.pruned := by
  cases e with
  | setting scope setting => simp [Entry.pruned, Entry.declarations]
  | entity entity => simp [Entry.pruned, Entry.declarations]
  | unknownLine keyword words span => simp [Entry.pruned, Entry.declarations]
  | declaration heading body span =>
      rw [Entry.pruned, Entry.declarations, Entry.declarations, declarationsOf_prunedBody body,
        List.map_cons, List.map_append, heading.ownEntities_pruned, Entry.pruned]

/-- Pruning keeps the declarations in a body, at any depth, but for what is idle
below them. -/
theorem declarationsOf_prunedBody (body : List Entry) :
    declarationsOf (prunedBody body) = (declarationsOf body).map Entry.pruned := by
  cases body with
  | nil => simp [prunedBody, declarationsOf]
  | cons entry rest =>
      rw [prunedBody, declarationsOf, List.map_append, ← declarationsOf_prunedBody rest]
      split
      · next h => rw [Entry.declarations_of_isIdle h, List.map_nil, List.nil_append]
      · rw [declarationsOf, entry.declarations_pruned]

end

/-! ## The first pass -/

namespace SubdomainDecl

def pruned (decl : SubdomainDecl) : SubdomainDecl :=
  { decl with body := prunedBody decl.body }

theorem ofEntry?_pruned (e : Entry) :
    ofEntry? e.pruned = Option.map SubdomainDecl.pruned (SubdomainDecl.ofEntry? e) := by
  rcases e with _ | _ | ⟨_ | _ | _ | _, _, _⟩ | _
  all_goals rfl

theorem settings_pruned (decl : SubdomainDecl) : decl.pruned.settings = decl.settings :=
  congrArg Settings.ofStatements (filterMap_prunedBody
    (fun _ => Entry.subdomainStatement?_of_isIdle) (fun _ _ _ _ => rfl) decl.body)

theorem typeFindings_pruned (decl : SubdomainDecl) :
    decl.pruned.typeFindings = decl.typeFindings := by
  rw [typeFindings, typeFindings, settings_pruned]
  rfl

theorem toSubdomain_pruned (decl : SubdomainDecl) (id : Id .subdomain) (domain : Id .domain) :
    decl.pruned.toSubdomain id domain = decl.toSubdomain id domain := by
  have names : decl.pruned.body.filterMap Entry.entityName? =
      decl.body.filterMap Entry.entityName? :=
    filterMap_prunedBody (fun _ => Entry.entityName?_of_isIdle) Entry.entityName?_declaration
      decl.body
  rw [toSubdomain, toSubdomain, type, type, settings_pruned, names]
  rfl

end SubdomainDecl

namespace DomainDecl

theorem subdomains_pruned (decl : DomainDecl) :
    decl.pruned.subdomains = decl.subdomains.map SubdomainDecl.pruned := by
  rw [subdomains, subdomains, ← filterMap_map_comm SubdomainDecl.ofEntry?_pruned,
    ← declarationsOf_prunedBody]
  rfl

theorem toDomain_pruned (decl : DomainDecl) (id : Id .domain) :
    decl.pruned.toDomain id = decl.toDomain id := by
  have statements : decl.pruned.body.filterMap Entry.domainStatement? =
      decl.body.filterMap Entry.domainStatement? :=
    filterMap_prunedBody (fun _ => Entry.domainStatement?_of_isIdle) (fun _ _ _ _ => rfl) decl.body
  rw [toDomain, toDomain, statements]
  rfl

end DomainDecl

theorem ContextDecl.toContext_pruned (decl : ContextDecl) (id : Id .context) :
    decl.pruned.toContext id = decl.toContext id := by
  have statements : decl.pruned.body.filterMap Entry.contextStatement? =
      decl.body.filterMap Entry.contextStatement? :=
    filterMap_prunedBody (fun _ => Entry.contextStatement?_of_isIdle) (fun _ _ _ _ => rfl) decl.body
  have groups (kind : GroupKind) : decl.pruned.groupNames kind = decl.groupNames kind := by
    have hgroup (e : Entry) : e.pruned.groupName? kind = e.groupName? kind := by
      rcases e with _ | _ | ⟨_ | _ | _ | _, _, _⟩ | _
      all_goals rfl
    change (declarationsOf (prunedBody decl.body)).filterMap _ = _
    rw [declarationsOf_prunedBody]
    exact filterMap_map_of_forall_eq hgroup _
  simp only [toContext, statements, groups]
  rfl

theorem MapDecl.toMap_pruned (decl : MapDecl) (id : Id .map) :
    decl.pruned.toMap id = decl.toMap id := by
  have statements : decl.pruned.settings.filterMap MapSetting.statement? =
      decl.settings.filterMap MapSetting.statement? := by
    refine filterMap_filter_not (fun s hs => ?_) decl.settings
    cases s with
    | other a => rfl
    | _ => cases hs
  rw [toMap, toMap, statements]
  rfl

theorem UseCaseDecl.toUseCase_pruned (decl : UseCaseDecl) (id : Id .useCase) :
    decl.pruned.toUseCase id = decl.toUseCase id := by
  refine foldl_filter_not (fun useCase part hpart => ?_) _ decl.parts
  cases part with
  | other entry => rfl
  | _ => cases hpart

namespace Draft

variable (draft : Draft)

theorem registerSubdomain_pruned (domain : Id .domain) (decl : SubdomainDecl) :
    registerSubdomain domain draft decl.pruned = registerSubdomain domain draft decl := by
  rw [registerSubdomain, registerSubdomain, decl.toSubdomain_pruned, decl.typeFindings_pruned]
  rfl

theorem registerOwned_pruned (domain : Id .domain) (decl : SubdomainDecl) :
    registerOwned domain draft decl.pruned = registerOwned domain draft decl := by
  rw [registerOwned, registerOwned, registerSubdomain_pruned]

theorem registerDomain_pruned (decl : DomainDecl) :
    draft.registerDomain decl.pruned = draft.registerDomain decl := by
  rw [registerDomain, registerDomain, addDomain, decl.toDomain_pruned, decl.subdomains_pruned,
    List.foldl_map]
  simp only [registerOwned_pruned]
  rfl

theorem registerContext_pruned (decl : ContextDecl) :
    draft.registerContext decl.pruned = draft.registerContext decl := by
  rw [registerContext, registerContext, decl.toContext_pruned]
  rfl

theorem registerMap_pruned (decl : MapDecl) :
    draft.registerMap decl.pruned = draft.registerMap decl := by
  rw [registerMap, registerMap, decl.toMap_pruned]
  rfl

theorem registerUseCase_pruned (decl : UseCaseDecl) :
    draft.registerUseCase decl.pruned = draft.registerUseCase decl := by
  rw [registerUseCase, registerUseCase, decl.toUseCase_pruned]
  rfl

/-- A draft without the notes on what was skipped. -/
def pruned (draft : Draft) : Draft :=
  { draft with registered := draft.registered.filter (· ≠ .skipped) }

theorem unnoticed_pruned : Unnoticed pruned where
  model_eq _ := rfl
  names_eq _ := rfl
  model _ _ := rfl
  names _ _ := rfl
  report _ _ := rfl

theorem note_pruned {registration : Registration} (h : registration ≠ .skipped) :
    draft.pruned.note registration = (draft.note registration).pruned := by
  simp [note, pruned, h]

theorem register_pruned (e : Element) :
    (e.pruned?.elim draft.pruned draft.pruned.register) = (draft.register e).pruned := by
  have h := unnoticed_pruned
  cases e with
  | domain decl =>
      change (draft.pruned.registerDomain decl.pruned).note _ = _
      rw [registerDomain_pruned, h.registerDomain]
      exact note_pruned _ nofun
  | context decl =>
      change (draft.pruned.registerContext decl.pruned).note _ = _
      rw [registerContext_pruned, h.registerContext]
      exact note_pruned _ nofun
  | map decl =>
      change (draft.pruned.registerMap decl.pruned).note _ = _
      rw [registerMap_pruned, h.registerMap]
      exact note_pruned _ nofun
  | useCase decl =>
      change (draft.pruned.registerUseCase decl.pruned).note _ = _
      rw [registerUseCase_pruned, h.registerUseCase]
      exact note_pruned _ nofun
  | unknown decl => simp [Element.pruned?, register, note, pruned]

end Draft

theorem Document.register_pruned (d : Document) (policy : Policy) :
    d.pruned.register policy = (d.register policy).pruned := by
  have start : Draft.empty policy = (Draft.empty policy).pruned := rfl
  rw [register, register, pruned, List.foldl_filterMap, start]
  refine List.foldl_hom Draft.pruned fun draft e => ?_
  rw [← draft.register_pruned]
  cases e.pruned? <;> rfl

/-! ## The second pass -/

theorem RelationDecl.toRelationship_pruned (decl : RelationDecl) (left right : Id .context) :
    decl.pruned.toRelationship left right = decl.toRelationship left right := by
  have type : decl.pruned.statedType? = decl.statedType? := by
    refine findSome?_filter_not (fun a ha => ?_) decl.attributes
    cases a with
    | other setting => rfl
    | _ => cases ha
  have technology : decl.pruned.technology? = decl.technology? := by
    refine findSome?_filter_not (fun a ha => ?_) decl.attributes
    cases a with
    | other setting => rfl
    | _ => cases ha
  have label : decl.pruned.label = decl.label := by
    rw [RelationDecl.label, RelationDecl.label, type]
    rfl
  rw [toRelationship, toRelationship, label, technology]
  rfl

theorem MapDecl.mentions_pruned (decl : MapDecl) : decl.pruned.mentions = decl.mentions := by
  refine flatMap_filter_not (fun s hs => ?_) decl.settings
  cases s with
  | other a => rfl
  | _ => cases hs

namespace Draft

variable (draft : Draft)

theorem linkRelation_pruned (map : Id .map) (owner : Owner) (decl : RelationDecl) :
    linkRelation map owner draft decl.pruned = linkRelation map owner draft decl := by
  rw [linkRelation, linkRelation]
  simp only [decl.toRelationship_pruned]
  rfl

theorem linkMap_pruned (map : Id .map) (decl : MapDecl) :
    draft.linkMap map decl.pruned = draft.linkMap map decl := by
  change (decl.relations.map RelationDecl.pruned).foldl (linkRelation map (.map decl.name))
    (decl.pruned.mentions.foldl (linkMember map (.map decl.name)) draft) = _
  rw [List.foldl_map, decl.mentions_pruned]
  simp only [linkRelation_pruned]
  rfl

theorem Unnoticed.linkElements {g : Draft → Draft} (h : Unnoticed g) (contexts maps : Nat)
    (elements : List Element) :
    (g draft).linkElements contexts maps elements =
      g (draft.linkElements contexts maps elements) := by
  induction elements generalizing draft contexts maps with
  | nil => rfl
  | cons e rest ih =>
      cases e with
      | context decl => rw [Draft.linkElements, h.linkContext, ih]; rfl
      | map decl => rw [Draft.linkElements, h.linkMap, ih]; rfl
      | domain decl | useCase decl | unknown decl => exact ih draft contexts maps

/-- Neither contexts nor maps are counted otherwise once unknown elements are gone. -/
theorem linkElements_pruned (contexts maps : Nat) (elements : List Element) :
    draft.linkElements contexts maps (elements.filterMap Element.pruned?) =
      draft.linkElements contexts maps elements := by
  induction elements generalizing draft contexts maps with
  | nil => rfl
  | cons e rest ih =>
      cases e with
      | context decl => exact ih ..
      | map decl =>
          rw [linkElements, ← ih, ← linkMap_pruned]
          rfl
      | domain decl | useCase decl | unknown decl => exact ih draft contexts maps

end Draft

namespace Document

theorem draft_pruned (d : Document) (policy : Policy) :
    d.pruned.draft policy = (d.draft policy).pruned := by
  rw [draft_eq_linkElements, draft_eq_linkElements, register_pruned,
    ← Draft.unnoticed_pruned.linkElements]
  exact (d.register policy).pruned.linkElements_pruned 0 0 d.elements

theorem build_pruned (d : Document) (policy : Policy) (source : Option String) :
    d.pruned.build policy source = d.build policy source := by
  rw [build, build, draft_pruned]
  rfl

/-- Documents that differ by edits are built into one model, with the same
diagnostics. -/
theorem build_edited {d d' : Document} (h : Relation.EqvGen Document.Edit d d') (policy : Policy)
    (source : Option String) : d.build policy source = d'.build policy source := by
  rw [← build_pruned d, pruned_eq_of_edits h, build_pruned]

/-- A context implements a subdomain and something that is not declared. What is
given is kept at the front, in the subdomain, in the context and in the map. -/
def annotated (front : List Element) (entries : List Entry) (realizes : List Reference)
    (attributes : List RelationAttribute) : Document :=
  ⟨front ++ [.domain ⟨"D", [.declaration (.subdomain "S" []) entries .none], .none⟩,
    .context ⟨"A", [⟨"S", .none⟩, ⟨"T", .none⟩], realizes, none, [], .none⟩,
    .map ⟨none, [], [⟨⟨"A", [], [], .none⟩, ⟨none, some .right⟩, ⟨"A", [], [], .none⟩, none,
      attributes, .none⟩], .none⟩]⟩

/-- An unknown declaration is inserted, and all else is removed. -/
theorem annotated_build_edited :
    let type : Entry := .setting .plain ⟨"type", [.name "CORE_DOMAIN"], .none⟩
    let since : RelationAttribute := .other ⟨"since", [.number "2"], .none⟩
    let d := annotated [] [type] [⟨"B", .none⟩] [since, .technology "REST"]
    let d' := annotated [.unknown ⟨"import", ["x"], none, .none⟩] [] [] [.technology "REST"]
    Relation.EqvGen Document.Edit d d' ∧ d.build .strict none = d'.build .strict none := by
  intro type since d d'
  have setting : Edit d (annotated [] [] [⟨"B", .none⟩] [since, .technology "REST"]) :=
    .element (.intro [] (.domain _ (.inside [] _ (.setting (.intro [] rfl [])) _ [])) _)
  have references : Edit (annotated [] [] [⟨"B", .none⟩] [since, .technology "REST"])
      (annotated [] [] [] [since, .technology "REST"]) :=
    .element (.intro [_] (.references _ [] none) _)
  have relation : Edit (annotated [] [] [] [since, .technology "REST"])
      (annotated [] [] [] [.technology "REST"]) :=
    .element (.intro [_, _] (.relation _ (.intro [] (.property (.intro [] rfl _)) [])) [])
  have unknown : Edit d' (annotated [] [] [] [.technology "REST"]) :=
    .unknown (.intro [] rfl _)
  have hedits : Relation.EqvGen Document.Edit d d' :=
    (((Relation.EqvGen.rel _ _ setting).trans _ _ _ (.rel _ _ references)).trans _ _ _
      (.rel _ _ relation)).trans _ _ _ (.symm _ _ (.rel _ _ unknown))
  exact ⟨hedits, build_edited hedits .strict none⟩

/-- In the scope of a subdomain the same setting is read. -/
example :
    let type : Entry := .setting .subdomain ⟨"type", [.name "CORE_DOMAIN"], .none⟩
    ((annotated [] [type] [] []).build .strict none).model.subdomains.map Subdomain.type =
      [.core] :=
  rfl

end Document

end Landscape
