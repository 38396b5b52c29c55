import Landscape.Proofs.Build.Findings
import Landscape.Proofs.Document.Preorder
import Mathlib.Logic.Equiv.List

/-!
# What is registered, place by place

The declarations of a document are its elements and what is nested in them. Of
the elements every one is registered but the unknown ones, in order. Of what is
nested in a domain the subdomains are, from whatever depth, and of what is
nested in a context the names of the groups. `Document.build_arenas` says which
places in the document these are, and that the things registered are exactly
what stands there, in the order of the places. What counts as a group or as an
entity, and what it is called, is read off its node.

The subdomains of all domains are in one list. Since an element only has places
below itself, the list holds the places below the document that start at a
domain, and the domain that owns a subdomain is the one its place starts at.
-/

namespace Landscape

/-! ## What stands at a place -/

namespace Node

def subdomain? : Node → Option SubdomainDecl
  | entry (.declaration (.subdomain name entities) body span) => some ⟨name, entities, body, span⟩
  | _ => none

def groupName? (kind : GroupKind) : Node → Option String
  | entry (.declaration (.group own name) ..) => if own = kind then some name else none
  | _ => none

/-- The builder picks the subdomains, and nothing else. -/
theorem filterMap_ofEntry? (entries : List Entry) :
    (entries.map entry).filterMap subdomain? = entries.filterMap SubdomainDecl.ofEntry? := by
  rw [List.filterMap_map]
  refine List.filterMap_congr fun e _ => ?_
  rcases e with _ | _ | ⟨_ | _ | _ | _, _, _⟩ | _
  all_goals rfl

theorem filterMap_entry_groupName? (kind : GroupKind) (entries : List Entry) :
    (entries.map entry).filterMap (groupName? kind) =
      entries.filterMap (Entry.groupName? kind) := by
  rw [List.filterMap_map]
  refine List.filterMap_congr fun e _ => ?_
  rcases e with _ | _ | ⟨_ | _ | _ | _, _, _⟩ | _
  all_goals rfl

/-- A group has a name, and nothing that is no group has the name of one. -/
theorem filterMap_groupName? (kind : GroupKind) (nodes : List Node) :
    (nodes.filter (·.kind = .group kind)).filterMap name? = nodes.filterMap (groupName? kind) := by
  rw [List.filterMap_filter]
  refine List.filterMap_congr fun n _ => ?_
  rcases n with _ | (_ | _ | _ | _ | _) | (_ | _ | ⟨_ | _ | ⟨own, _⟩ | _, _, _⟩ | _)
  case entry.declaration.group =>
    by_cases hkind : own = kind <;> simp [Node.kind, name?, groupName?, hkind]
  all_goals rfl

/-- A bare entity, or an object that is declared to be an entity. -/
def isEntity : Node → Bool
  | entry (.entity _) => true
  | entry (.declaration (.object kind _) ..) => kind = .entity
  | _ => false

/-- An entity has a name, and the names that are taken up are those of entities. -/
theorem filterMap_entityName? (entries : List Entry) :
    ((entries.map entry).filter isEntity).filterMap name? =
      entries.filterMap Entry.entityName? := by
  rw [List.filterMap_filter, List.filterMap_map]
  refine List.filterMap_congr fun e _ => ?_
  rcases e with _ | _ | ⟨_ | ⟨_ | _ | _ | _ | _ | _, _⟩ | _ | _, _, _⟩ | _
  all_goals rfl

theorem filterMap_subdomain? (nodes : List Node) :
    (nodes.filter (·.kind = .subdomain)).filterMap subdomain? = nodes.filterMap subdomain? := by
  rw [List.filterMap_filter]
  refine List.filterMap_congr fun n _ => ?_
  rcases n with _ | (_ | _ | _ | _ | _) | (_ | _ | ⟨_ | _ | _ | _, _, _⟩ | _)
  all_goals rfl

end Node

/-- The names of the entities right in the body of a subdomain, then of those that
come with its heading. -/
def SubdomainDecl.entityNames (decl : SubdomainDecl) : List String :=
  ((decl.body.map Node.entry).filter Node.isEntity).filterMap Node.name? ++
    decl.entities.map BareEntity.name

theorem SubdomainDecl.entities_toSubdomain (decl : SubdomainDecl) (id : Id .subdomain)
    (domain : Id .domain) : (decl.toSubdomain id domain).entities = decl.entityNames := by
  rw [entityNames, Node.filterMap_entityName?]
  rfl

namespace Document

/-- The domain that an element registers, if it is one. Domains have the numbers
of the domains before them. -/
def domainAt? (d : Document) (i : Nat) : Option (Id .domain) :=
  match d.elements[i]? with
  | some (.domain _) => some ⟨(domains ⟨d.elements.take i⟩).length⟩
  | _ => none

/-- What is to be registered of a node that lies in an element: a subdomain, if
the element is a domain, which then owns it. -/
def subdomainIn? (d : Document) (i : Nat) (x : Node) :
    Option (String × List String × Id .domain) :=
  (d.domainAt? i).bind fun owner =>
    x.subdomain?.map fun decl => (decl.name, decl.entityNames, owner)

end Document

/-! ## Domains and contexts -/

theorem DomainDecl.filterMap_subdomain? (decl : DomainDecl) :
    (Node.element (.domain decl)).descendants.filterMap Node.subdomain? = decl.subdomains :=
  Node.filterMap_ofEntry? _

theorem ContextDecl.filterMap_groupName? (decl : ContextDecl) (kind : GroupKind) :
    (Node.element (.context decl)).descendants.filterMap (Node.groupName? kind) =
      decl.groupNames kind :=
  Node.filterMap_entry_groupName? kind _

theorem ContextDecl.collects_groupNames (decl : ContextDecl) (kind : GroupKind) :
    (Node.element (.context decl)).Collects (fun _ => Node.groupName? kind)
      (decl.groupNames kind) := by
  rw [← decl.filterMap_groupName?]
  exact Node.collects_descendants ..

namespace Document

variable (d : Document) {policy : Policy}

/-- What is registered of the nodes in an element, itself included. -/
theorem filterMap_subdomainIn? {before : List Element} {e : Element} {rest : List Element}
    (h : d.elements = before ++ e :: rest) :
    (.element e :: (Node.element e).descendants).filterMap (d.subdomainIn? before.length) =
      e.subdomains.map fun s => (s.name, s.entityNames, ⟨(domains ⟨before⟩).length⟩) := by
  have hat : d.elements[before.length]? = some e := by simp [h]
  have hbefore : d.elements.take before.length = before := by simp [h]
  have pick (x : Node) : d.subdomainIn? before.length x = e.domain?.bind fun _ =>
      x.subdomain?.map fun s => (s.name, s.entityNames, ⟨(domains ⟨before⟩).length⟩) := by
    rw [subdomainIn?, domainAt?, hat, hbefore]
    cases e <;> rfl
  rw [funext pick]
  cases e with
  | domain decl =>
      have own : Element.subdomains (.domain decl) = decl.subdomains := List.append_nil _
      rw [own, ← decl.filterMap_subdomain?, List.map_filterMap]
      rfl
  | context decl | map decl | useCase decl | unknown decl =>
      exact List.filterMap_eq_nil_iff.2 fun _ _ => rfl

theorem ownedSubdomains_filterMap_cons (first : Nat) (e : Element) (rest : List Element) :
    ownedSubdomains first ((e :: rest).filterMap Element.domain?) =
      e.subdomains.map (·, ⟨first⟩) ++
        ownedSubdomains (first + (domains ⟨[e]⟩).length) (rest.filterMap Element.domain?) := by
  cases e with
  | domain decl =>
      have hpick : Element.domain? (.domain decl) = some decl := rfl
      rw [List.filterMap_cons_some hpick, ownedSubdomains_cons]
      exact congrArg (List.map _ · ++ _) (List.append_nil _).symm
  | context decl | map decl | useCase decl | unknown decl => rfl

/-- The subdomains, each with its owner, as they are met in the elements. -/
theorem flatMap_subdomainIn? {before rest : List Element} (h : d.elements = before ++ rest) :
    (((rest.map Node.element).zipIdx before.length).flatMap fun c =>
        (c.1 :: c.1.descendants).filterMap (d.subdomainIn? c.2)) =
      (ownedSubdomains (domains ⟨before⟩).length (rest.filterMap Element.domain?)).map
        fun s => (s.1.name, s.1.entityNames, s.2) := by
  induction rest generalizing before with
  | nil => rfl
  | cons e rest ih =>
      have hrest : d.elements = (before ++ [e]) ++ rest := by simp [h]
      have later := ih hrest
      rw [List.length_append, List.length_singleton] at later
      rw [List.map_cons, List.zipIdx_cons, List.flatMap_cons, later, d.filterMap_subdomainIn? h,
        ownedSubdomains_filterMap_cons, domains_append, List.length_append, List.map_append,
        List.map_map]
      rfl

/-- The subdomains that are registered are those of domains, each at a place of
its own. -/
theorem collects_subdomains :
    (Node.document d).Collects (fun place x => place.head?.bind (d.subdomainIn? · x))
      ((d.register policy).model.subdomains.map fun s => (s.name, s.entities, s.domain)) := by
  have registered :
      (d.register policy).model.subdomains.map (fun s => (s.name, s.entities, s.domain)) =
        (ownedSubdomains 0 d.domains).map fun s => (s.1.name, s.1.entityNames, s.2) := by
    rw [d.subdomains_register]
    refine map_mapIdx (fun i s => ?_) _
    rw [SubdomainDecl.entities_toSubdomain]
    rfl
  rw [registered]
  exact d.flatMap_subdomainIn? (List.nil_append d.elements).symm ▸
    Node.collects_children (.document d) d.subdomainIn?

end Document

/-! ## Links set aside -/

namespace Model

/-- A model without its links. -/
def unlinked (m : Model) : Model :=
  { m with
    subdomains := m.subdomains.map ({ · with implementations := [] })
    contexts := m.contexts.map ({ · with implements := [], map := none })
    maps := m.maps.map ({ · with contexts := [], relationships := [] }) }

theorem unlinked_foldl_link {m : Model} (h : m.Indexed) (links : List Link) :
    (links.foldl link m).unlinked = m.unlinked := by
  rw [foldl_link h]
  simp only [unlinked, List.map_map, Function.comp_def, Subdomain.foldl_link,
    Context.foldl_link, ContextMap.foldl_link]

end Model

namespace Document

variable (d : Document) {policy : Policy}

/-- The first pass links nothing. -/
theorem unlinked_register : (d.register policy).model.unlinked = (d.register policy).model := by
  have same {α β : Type} {unlink : β → β} {f : Nat → α → β} (h : ∀ i x, unlink (f i x) = f i x)
      (xs : List α) : (xs.mapIdx f).map unlink = xs.mapIdx f := by
    refine (List.map_congr_left fun y hy => ?_).trans (List.map_id _)
    obtain ⟨i, hi, rfl⟩ := List.mem_mapIdx.1 hy
    exact h i _
  have subdomains : (d.register policy).model.subdomains.map ({ · with implementations := [] }) =
      (d.register policy).model.subdomains := by
    rw [d.subdomains_register]
    refine same ?_ _
    exact fun _ _ => rfl
  have contexts :
      (d.register policy).model.contexts.map ({ · with implements := [], map := none }) =
        (d.register policy).model.contexts := by
    rw [d.contexts_register]
    refine same ?_ _
    exact fun _ _ => rfl
  have maps : (d.register policy).model.maps.map ({ · with contexts := [], relationships := [] }) =
      (d.register policy).model.maps := by
    rw [d.maps_register]
    refine same ?_ _
    exact fun _ _ => rfl
  rw [Model.unlinked, subdomains, contexts, maps]

theorem unlinked_draft : (d.draft policy).model.unlinked = (d.register policy).model := by
  rw [d.draft_model, Model.unlinked_foldl_link d.register_indexed, d.unlinked_register]

/-- Whatever is asked of the subdomains, apart from who implements them, the first
pass has settled. -/
theorem map_draft_subdomains_eq_register {β : Type} {field : Subdomain → β}
    (h : ∀ s implementations, field { s with implementations } = field s) :
    (d.draft policy).model.subdomains.map field =
      (d.register policy).model.subdomains.map field := by
  rw [d.draft_subdomains, List.map_map]
  exact List.map_congr_left fun s _ => h s _

end Document

theorem forall₂_mapIdx {α β : Type} {R : α → β → Prop} {f : Nat → α → β}
    (h : ∀ i x, R x (f i x)) (xs : List α) : List.Forall₂ R xs (xs.mapIdx f) := by
  induction xs generalizing f with
  | nil => exact .nil
  | cons x xs ih =>
      rw [List.mapIdx_cons]
      exact .cons (h 0 x) (ih fun i => h (i + 1))

namespace Document

variable (d : Document) {policy : Policy}

theorem at?_singleton {i : Nat} {e : Element} (h : d.elements[i]? = some e) :
    (Node.document d).at? [i] = some (.element e) := by
  simp [Node.at?, Node.children, h]

/-- What is registered, and that links change nothing else. -/
theorem build_arenas (policy : Policy) (source : Option String) :
    let m := (d.build policy source).model
    m.domains.map Domain.name = d.domains.map DomainDecl.name ∧
      m.maps.map ContextMap.name = d.maps.map MapDecl.name ∧
      m.useCases.map UseCase.name = d.useCases.map UseCaseDecl.name ∧
      (Node.document d).Collects (fun place x => place.head?.bind (d.subdomainIn? · x))
        (m.subdomains.map fun s => (s.name, s.entities, s.domain)) ∧
      List.Forall₂ (fun decl c => c.name = decl.name ∧
          (Node.element (.context decl)).Collects (fun _ => Node.groupName? .aggregate)
            c.aggregates ∧
          (Node.element (.context decl)).Collects (fun _ => Node.groupName? .service)
            c.services)
        d.contexts m.contexts ∧
      m.unlinked = (d.register policy).model ∧
      ∀ address, (Node.document d).ToldApart address →
        (∀ i decl, d.elements[i]? = some (.domain decl) →
          (Node.search address (· = .subdomain) (.element (.domain decl)) [i]).filterMap
            Node.subdomain? = decl.subdomains) ∧
        ∀ i decl kind, d.elements[i]? = some (.context decl) →
          (Node.search address (· = .group kind) (.element (.context decl)) [i]).filterMap
            Node.name? = decl.groupNames kind := by
  rw [build]
  refine ⟨?_, ?_, ?_, ?_, ?_, d.unlinked_draft, fun address hd => ⟨?_, ?_⟩⟩
  · rw [d.draft_domains, d.domains_register, DomainDecl.map_name_number]
  · rw [d.draft_maps]
    refine map_mapIdx ?_ _
    exact fun _ _ => rfl
  · rw [d.draft_useCases]
    exact map_mapIdx (fun i decl => decl.name_toUseCase ⟨i⟩) _
  · rw [d.map_draft_subdomains_eq_register fun _ _ => rfl]
    exact d.collects_subdomains
  · rw [d.draft_contexts]
    exact forall₂_mapIdx (fun i decl =>
      ⟨rfl, decl.collects_groupNames .aggregate, decl.collects_groupNames .service⟩) _
  · intro i decl hi
    rw [Node.search_eq hd (d.at?_singleton hi), Node.filterMap_subdomain?,
      decl.filterMap_subdomain?]
  · intro i decl kind hi
    rw [Node.search_eq hd (d.at?_singleton hi), Node.filterMap_groupName?,
      decl.filterMap_groupName?]

/-- Subdomains at several depths below two domains, and one below a context. The
first of them declares two entities in its body and lists one, and there are more
below a group in it and in the subdomain nested there. -/
def nestedSubdomains : Document :=
  let subdomain (name : String) (body : List Entry) : Entry :=
    .declaration (.subdomain name []) body .none
  let group (kind : GroupKind) (name : String) (body : List Entry) : Entry :=
    .declaration (.group kind name) body .none
  let object (kind : ObjectKind) (name : String) : Entry :=
    .declaration (.object kind name) [.entity ⟨"Inner", .none⟩] .none
  ⟨[.context ⟨"Sales", [], [], none, [group .module "orders" [group .aggregate "Order"
      [group .service "Billing" [subdomain "Lost" []]]]], .none⟩,
    .domain ⟨"Shop", [.declaration (.subdomain "Stock" [⟨"Shelf", .none⟩])
        [.entity ⟨"Box", .none⟩, object .valueObject "Weight", object .entity "Good",
          group .aggregate "Item" [object .entity "Part", subdomain "Returns"
            [object .entity "Claim"]]] .none,
      .declaration (.unknown "Group" []) [subdomain "Orders" []] .none], .none⟩,
    .domain ⟨"Office", [subdomain "Staff" []], .none⟩]⟩

theorem nestedSubdomains_arenas :
    let m := (nestedSubdomains.build ⟨.warn, .shadow⟩ none).model
    m.subdomains.map (fun s => (s.name, s.entities, s.domain)) =
        [("Stock", ["Box", "Good", "Shelf"], ⟨0⟩), ("Returns", ["Claim"], ⟨0⟩),
          ("Orders", [], ⟨0⟩), ("Staff", [], ⟨1⟩)] ∧
      m.contexts.map Context.services = [["Billing"]] ∧
      ∀ decl, nestedSubdomains.elements[1]? = some (.domain decl) →
        (Node.search Encodable.encode (· = .subdomain) (.element (.domain decl)) [1]).filterMap
          Node.subdomain? = decl.subdomains := by
  obtain ⟨-, -, -, -, -, -, search⟩ := nestedSubdomains.build_arenas ⟨.warn, .shadow⟩ none
  have apart : (Node.document nestedSubdomains).ToldApart Encodable.encode :=
    fun _ _ _ _ _ _ _ h => Encodable.encode_injective h
  exact ⟨by decide, by decide, fun decl hdecl => (search _ apart).1 1 decl hdecl⟩

end Document

end Landscape
