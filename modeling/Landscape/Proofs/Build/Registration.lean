import Landscape.Build
import Landscape.Proofs.Model.Closed

/-!
# What the first pass registers

The first pass turns every declaration into a thing, and nothing that was
registered before is touched again. So each list of the model is, from the
start, the list of the declarations of its kind, numbered. The lemmas below say
this for one element, then for all of them.

A domain is registered owning nothing, and is handed its subdomains one by one as
they are registered. While that goes on it is the last of the domains, and what it
ends up with is the run of ids that were free (`Draft.foldl_registerOwned`). This is
the one place where two lists have to agree.

What each element was registered as is noted. The ids in these notes count the
elements of the same kind that came before (`Registration.number`).
-/

namespace Landscape

/-! ## What a document declares -/

namespace Element

def domain? : Element → Option DomainDecl
  | domain decl => some decl
  | _ => none

def context? : Element → Option ContextDecl
  | context decl => some decl
  | _ => none

def map? : Element → Option MapDecl
  | map decl => some decl
  | _ => none

def useCase? : Element → Option UseCaseDecl
  | useCase decl => some decl
  | _ => none

/-- The subdomains that an element declares. Outside of domains there are none. -/
def subdomains (e : Element) : List SubdomainDecl :=
  e.domain?.toList.flatMap DomainDecl.subdomains

end Element

/-- The subdomains declared in some domains, each with the domain that it is
declared in. The domains are numbered from `first` on. -/
def ownedSubdomains (first : Nat) (domains : List DomainDecl) :
    List (SubdomainDecl × Id .domain) :=
  (domains.zipIdx first).flatMap fun (decl, index) => decl.subdomains.map (·, ⟨index⟩)

namespace Document

def domains (d : Document) : List DomainDecl :=
  d.elements.filterMap Element.domain?

/-- All subdomains that the domains of a document declare, at any depth. -/
def subdomains (d : Document) : List SubdomainDecl :=
  d.domains.flatMap DomainDecl.subdomains

def contexts (d : Document) : List ContextDecl :=
  d.elements.filterMap Element.context?

def maps (d : Document) : List MapDecl :=
  d.elements.filterMap Element.map?

def useCases (d : Document) : List UseCaseDecl :=
  d.elements.filterMap Element.useCase?

end Document

/-- A domain with some subdomains more. -/
def Domain.owning (x : Domain) (ids : List (Id .subdomain)) : Domain :=
  { x with subdomains := x.subdomains ++ ids }

/-- A domain with all its subdomains, given how many are registered before them. -/
def DomainDecl.toOwner (decl : DomainDecl) (id : Id .domain) (first : Nat) : Domain :=
  (decl.toDomain id).owning ((List.range' first decl.subdomains.length).map Id.mk)

theorem DomainDecl.subdomains_toOwner (decl : DomainDecl) (id : Id .domain) (first : Nat) :
    (decl.toOwner id first).subdomains =
      (List.range' first decl.subdomains.length).map Id.mk :=
  rfl

/-! ## One element -/

namespace Model

theorem addOwned_concat {m : Model} {before : List Domain} {x : Domain}
    (h : m.domains = before ++ [x]) (s : Id .subdomain) :
    m.addOwned ⟨before.length⟩ s = { m with domains := before ++ [x.owning [s]] } := by
  rw [addOwned, h, List.modify_eq_take_cons_drop (by simp)]
  simp [Domain.owning]

end Model

namespace Draft

/-- Subdomains are registered under the ids that are free, and these are what the
last domain owns in the end. Its own list grows from round to round, so that the
induction is on the rounds still to come, for a domain that may own some already. -/
theorem foldl_registerOwned {draft : Draft} {before : List Domain} {x : Domain}
    (h : draft.model.domains = before ++ [x]) (decls : List SubdomainDecl) :
    (decls.foldl (registerOwned ⟨before.length⟩) draft).model =
      { draft.model with
        domains := before ++
          [x.owning ((List.range' draft.model.subdomains.length decls.length).map Id.mk)]
        subdomains := draft.model.subdomains ++ decls.mapIdx fun i decl =>
          decl.toSubdomain ⟨draft.model.subdomains.length + i⟩ ⟨before.length⟩ } := by
  induction decls generalizing draft x with
  | nil => simp [Domain.owning, ← h]
  | cons decl rest ih =>
      have here : (registerSubdomain ⟨before.length⟩ draft decl).model.domains =
          before ++ [x] := h
      have later : (registerOwned ⟨before.length⟩ draft decl).model.domains =
          before ++ [x.owning [⟨draft.model.subdomains.length⟩]] := by
        rw [registerOwned, Model.addOwned_concat here]
      rw [List.foldl_cons, ih later, registerOwned, Model.addOwned_concat here, List.mapIdx_cons,
        List.length_cons, List.range'_succ]
      simp only [registerSubdomain, enter_model, report_model, List.length_append,
        List.length_singleton, List.append_assoc, List.singleton_append, Nat.add_zero,
        Domain.owning, List.map_cons]
      simp only [Nat.add_assoc, Nat.add_comm 1]

theorem registerDomain_model (draft : Draft) (decl : DomainDecl) :
    (draft.registerDomain decl).model =
      { draft.model with
        domains := draft.model.domains ++
          [decl.toOwner ⟨draft.model.domains.length⟩ draft.model.subdomains.length]
        subdomains := draft.model.subdomains ++ decl.subdomains.mapIdx fun i s =>
          s.toSubdomain ⟨draft.model.subdomains.length + i⟩
            ⟨draft.model.domains.length⟩ } := by
  have added : (draft.addDomain decl).model.domains =
      draft.model.domains ++ [decl.toDomain ⟨draft.model.domains.length⟩] := rfl
  rw [registerDomain, foldl_registerOwned added]
  rfl

theorem registerMap_model (draft : Draft) (decl : MapDecl) :
    (draft.registerMap decl).model =
      { draft.model with
        maps := draft.model.maps ++ [decl.toMap ⟨draft.model.maps.length⟩] } := by
  rw [registerMap]
  cases decl.name <;> rfl

/-- What one element adds to the model. Only a domain adds to two of its lists. -/
theorem register_model (draft : Draft) (element : Element) :
    (draft.register element).model =
      { domains := draft.model.domains ++ element.domain?.toList.map fun decl =>
          decl.toOwner ⟨draft.model.domains.length⟩ draft.model.subdomains.length
        subdomains := draft.model.subdomains ++ element.subdomains.mapIdx fun i s =>
          s.toSubdomain ⟨draft.model.subdomains.length + i⟩ ⟨draft.model.domains.length⟩
        contexts := draft.model.contexts ++ element.context?.toList.map fun decl =>
          decl.toContext ⟨draft.model.contexts.length⟩
        maps := draft.model.maps ++ element.map?.toList.map fun decl =>
          decl.toMap ⟨draft.model.maps.length⟩
        useCases := draft.model.useCases ++ element.useCase?.toList.map fun decl =>
          decl.toUseCase ⟨draft.model.useCases.length⟩ } := by
  cases element with
  | domain decl =>
      rw [register, note_model, registerDomain_model]
      simp [Element.subdomains, Element.domain?, Element.context?, Element.map?,
        Element.useCase?]
  | context decl =>
      simp [register, registerContext, Element.subdomains, Element.domain?,
        Element.context?, Element.map?, Element.useCase?]
  | map decl =>
      rw [register, note_model, registerMap_model]
      simp [Element.subdomains, Element.domain?, Element.context?, Element.map?,
        Element.useCase?]
  | useCase decl =>
      simp [register, registerUseCase, Element.subdomains, Element.domain?,
        Element.context?, Element.map?, Element.useCase?]
  | unknown decl =>
      simp [register, Element.subdomains, Element.domain?, Element.context?,
        Element.map?, Element.useCase?]

end Draft

/-! ## Ids are indices -/

theorem Model.indexed_empty : Model.empty.Indexed where
  domains := .nil
  subdomains := .nil
  contexts := .nil
  maps := .nil
  useCases := .nil

/-- Parts of a use case leave alone what no part is about. -/
theorem UseCaseDecl.toUseCase_eq {β : Type} {f : UseCase → β}
    (hf : ∀ u part, f (applyPart u part) = f u) (decl : UseCaseDecl) (id : Id .useCase) :
    f (decl.toUseCase id) = f (toUseCase ⟨decl.name, [], decl.span⟩ id) := by
  suffices ∀ (parts : List UseCasePart) (u : UseCase),
      f (parts.foldl applyPart u) = f u from this _ _
  intro parts
  induction parts with
  | nil => exact fun u => rfl
  | cons part rest ih =>
      intro u
      rw [List.foldl_cons, ih, hf]

theorem UseCaseDecl.id_toUseCase (decl : UseCaseDecl) (id : Id .useCase) :
    (decl.toUseCase id).id = id :=
  toUseCase_eq (fun u part => by cases part <;> rfl) decl id

theorem UseCaseDecl.name_toUseCase (decl : UseCaseDecl) (id : Id .useCase) :
    (decl.toUseCase id).name = decl.name :=
  toUseCase_eq (fun u part => by cases part <;> rfl) decl id

namespace Draft

theorem register_indexed {draft : Draft} (h : draft.model.Indexed) (element : Element) :
    (draft.register element).model.Indexed := by
  cases element with
  | domain decl =>
      rw [register, note_model, registerDomain_model]
      refine { h with
        domains := h.domains.concat rfl
        subdomains := h.subdomains.append ?_ }
      intro i s hs
      rw [List.getElem?_mapIdx, Option.map_eq_some_iff] at hs
      obtain ⟨decl, -, rfl⟩ := hs
      rfl
  | context decl => exact { h with contexts := h.contexts.concat rfl }
  | map decl =>
      rw [register, note_model, registerMap_model]
      exact { h with maps := h.maps.concat rfl }
  | useCase decl => exact { h with useCases := h.useCases.concat (decl.id_toUseCase _) }
  | unknown decl => exact h

end Draft

theorem Document.register_indexed (d : Document) {policy : Policy} :
    (d.register policy).model.Indexed :=
  List.foldlRecOn (motive := fun draft : Draft => draft.model.Indexed) _ _ Model.indexed_empty
    fun _ h element _ => Draft.register_indexed h element

namespace Draft

/-! ## All elements -/

/-- A list that takes up each declaration of a kind, numbered by its own
length, ends up as all of these declarations, numbered. -/
theorem foldl_register {α β : Type} (arena : Model → List β)
    (pick : Element → Option α) (make : Nat → α → β)
    (step : ∀ draft element, arena (register draft element).model =
      arena draft.model ++ (pick element).toList.map (make (arena draft.model).length))
    (draft : Draft) (elements : List Element) :
    arena (elements.foldl register draft).model =
      arena draft.model ++
        (elements.filterMap pick).mapIdx
          fun i => make ((arena draft.model).length + i) := by
  induction elements generalizing draft with
  | nil => simp
  | cons element rest ih =>
      rw [List.foldl_cons, ih, step]
      cases hpick : pick element with
      | none => simp [hpick]
      | some decl =>
          rw [List.filterMap_cons_some hpick, List.mapIdx_cons]
          simp only [Option.toList_some, List.map_cons, List.map_nil, List.length_append,
            List.length_singleton, List.append_assoc, List.singleton_append, Nat.add_zero]
          simp only [Nat.add_assoc, Nat.add_comm 1]

end Draft

theorem Document.contexts_register (d : Document) {policy : Policy} :
    (d.register policy).model.contexts = d.contexts.mapIdx fun i decl => decl.toContext ⟨i⟩ := by
  rw [Document.register, Draft.foldl_register Model.contexts Element.context?
    fun i decl => decl.toContext ⟨i⟩]
  · simp [Draft.empty, Model.empty, Document.contexts]
  · intro draft element
    rw [Draft.register_model]

theorem Document.maps_register (d : Document) {policy : Policy} :
    (d.register policy).model.maps = d.maps.mapIdx fun i decl => decl.toMap ⟨i⟩ := by
  rw [Document.register, Draft.foldl_register Model.maps Element.map?
    fun i decl => decl.toMap ⟨i⟩]
  · simp [Draft.empty, Model.empty, Document.maps]
  · intro draft element
    rw [Draft.register_model]

theorem Document.useCases_register (d : Document) {policy : Policy} :
    (d.register policy).model.useCases = d.useCases.mapIdx fun i decl => decl.toUseCase ⟨i⟩ := by
  rw [Document.register, Draft.foldl_register Model.useCases Element.useCase?
    fun i decl => decl.toUseCase ⟨i⟩]
  · simp [Draft.empty, Model.empty, Document.useCases]
  · intro draft element
    rw [Draft.register_model]

theorem ownedSubdomains_cons (first : Nat) (decl : DomainDecl) (rest : List DomainDecl) :
    ownedSubdomains first (decl :: rest) =
      decl.subdomains.map (·, ⟨first⟩) ++ ownedSubdomains (first + 1) rest := by
  simp [ownedSubdomains, List.zipIdx_cons]

theorem map_fst_ownedSubdomains (first : Nat) (domains : List DomainDecl) :
    (ownedSubdomains first domains).map Prod.fst =
      domains.flatMap DomainDecl.subdomains := by
  induction domains generalizing first with
  | nil => rfl
  | cons decl rest ih =>
      rw [ownedSubdomains_cons, List.map_append, ih, List.flatMap_cons, List.map_map]
      congr 1
      exact List.map_id _

theorem Draft.subdomains_foldl_register (draft : Draft) (elements : List Element) :
    (elements.foldl register draft).model.subdomains =
      draft.model.subdomains ++
        (ownedSubdomains draft.model.domains.length
          (elements.filterMap Element.domain?)).mapIdx
        fun i s => s.1.toSubdomain ⟨draft.model.subdomains.length + i⟩ s.2 := by
  induction elements generalizing draft with
  | nil => simp [ownedSubdomains]
  | cons element rest ih =>
      rw [List.foldl_cons, ih, register_model, Element.subdomains]
      cases hpick : element.domain? with
      | none => simp [hpick]
      | some decl =>
          rw [List.filterMap_cons_some hpick, ownedSubdomains_cons, List.mapIdx_append]
          have numbered : (decl.subdomains.map fun s => (s,
              (⟨draft.model.domains.length⟩ : Id .domain))).mapIdx (fun i s =>
              s.1.toSubdomain ⟨draft.model.subdomains.length + i⟩ s.2) =
              decl.subdomains.mapIdx fun i s =>
                s.toSubdomain ⟨draft.model.subdomains.length + i⟩
                  ⟨draft.model.domains.length⟩ := by
            rw [List.mapIdx_eq_iff]
            intro i
            simp [Function.comp_def]
          rw [numbered]
          simp only [Option.toList_some, List.flatMap_singleton, List.map_cons, List.map_nil,
            List.append_assoc, List.length_append, List.length_singleton, List.length_mapIdx,
            List.length_map, Nat.add_comm, Nat.add_left_comm]

theorem Document.subdomains_register (d : Document) {policy : Policy} :
    (d.register policy).model.subdomains =
      (ownedSubdomains 0 d.domains).mapIdx fun i s => s.1.toSubdomain ⟨i⟩ s.2 := by
  rw [Document.register, Draft.subdomains_foldl_register]
  simp [Draft.empty, Model.empty, Document.domains]

/-- A domain is given the numbers that come after the subdomains of the domains
before it. -/
def DomainDecl.number (domains subdomains : Nat) : List DomainDecl → List Domain
  | [] => []
  | decl :: rest =>
    decl.toOwner ⟨domains⟩ subdomains ::
      number (domains + 1) (subdomains + decl.subdomains.length) rest

theorem DomainDecl.map_number {β : Type} {field : Domain → β} {value : DomainDecl → β}
    (h : ∀ decl id first, field (decl.toOwner id first) = value decl) (domains subdomains : Nat)
    (decls : List DomainDecl) :
    (number domains subdomains decls).map field = decls.map value := by
  induction decls generalizing domains subdomains with
  | nil => rfl
  | cons decl rest ih => rw [number, List.map_cons, ih, List.map_cons, h]

theorem Draft.domains_foldl_register (draft : Draft) (elements : List Element) :
    (elements.foldl register draft).model.domains =
      draft.model.domains ++ DomainDecl.number draft.model.domains.length
        draft.model.subdomains.length (elements.filterMap Element.domain?) := by
  induction elements generalizing draft with
  | nil => simp [DomainDecl.number]
  | cons element rest ih =>
      rw [List.foldl_cons, ih, register_model, Element.subdomains]
      cases hpick : element.domain? with
      | none => simp [hpick]
      | some decl =>
          rw [List.filterMap_cons_some hpick, DomainDecl.number]
          simp only [Option.toList_some, List.flatMap_singleton, List.map_cons, List.map_nil,
            List.append_assoc, List.singleton_append, List.length_append,
            List.length_singleton, List.length_mapIdx]

theorem Document.domains_register (d : Document) {policy : Policy} :
    (d.register policy).model.domains = DomainDecl.number 0 0 d.domains := by
  rw [Document.register, Draft.domains_foldl_register]
  rfl

/-! ## What elements are registered as -/

/-- What elements are registered as, given how many of each kind came before. -/
def Registration.number (domains contexts maps useCases : Nat) :
    List Element → List Registration
  | [] => []
  | .domain _ :: rest => .domain ⟨domains⟩ :: number (domains + 1) contexts maps useCases rest
  | .context _ :: rest => .context ⟨contexts⟩ :: number domains (contexts + 1) maps useCases rest
  | .map _ :: rest => .map ⟨maps⟩ :: number domains contexts (maps + 1) useCases rest
  | .useCase _ :: rest => .useCase ⟨useCases⟩ :: number domains contexts maps (useCases + 1) rest
  | .unknown _ :: rest => .skipped :: number domains contexts maps useCases rest

namespace Draft

theorem registerDomain_registered (draft : Draft) (decl : DomainDecl) :
    (draft.registerDomain decl).registered = draft.registered :=
  List.foldlRecOn (motive := fun later : Draft => later.registered = draft.registered) _ _ rfl
    fun _ h _ _ => h

theorem registerMap_registered (draft : Draft) (decl : MapDecl) :
    (draft.registerMap decl).registered = draft.registered := by
  rw [registerMap]
  cases decl.name <;> rfl

theorem registered_foldl_register (draft : Draft) (elements : List Element) :
    (elements.foldl register draft).registered = draft.registered ++
      Registration.number draft.model.domains.length draft.model.contexts.length
        draft.model.maps.length draft.model.useCases.length elements := by
  induction elements generalizing draft with
  | nil => exact (List.append_nil _).symm
  | cons element rest ih =>
      rw [List.foldl_cons, ih, register_model]
      cases element with
      | domain decl =>
          simp [register, note, registerDomain_registered, Element.domain?, Element.context?,
            Element.map?, Element.useCase?, Registration.number]
      | context decl =>
          simp [register, note, registerContext, enter, report, Element.domain?,
            Element.context?, Element.map?, Element.useCase?, Registration.number]
      | map decl =>
          simp [register, note, registerMap_registered, Element.domain?, Element.context?,
            Element.map?, Element.useCase?, Registration.number]
      | useCase decl =>
          simp [register, note, registerUseCase, enter, report, Element.domain?,
            Element.context?, Element.map?, Element.useCase?, Registration.number]
      | unknown decl =>
          simp [register, note, Element.domain?, Element.context?, Element.map?,
            Element.useCase?, Registration.number]

end Draft

theorem Document.registered_register (d : Document) {policy : Policy} :
    (d.register policy).registered = Registration.number 0 0 0 0 d.elements :=
  Draft.registered_foldl_register (Draft.empty policy) d.elements

end Landscape
