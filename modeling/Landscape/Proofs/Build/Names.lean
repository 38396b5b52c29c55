import Landscape.Proofs.Build.Registration

/-!
# Names in the index and in the lists

There are two ways to find a thing by its name. While a model is being made, its
names are kept in an index, where a later entry hides an earlier one. Of a model
that is made, the lists are searched from the back. Nothing ties the one to the
other but that every thing is put at the end of its list when its name is
entered, so that is what a step of the first pass is shown to keep
(`Draft.Tracks`). Subdomains are entered while their domain is still being
registered, and a map without a name is put into its list and entered nowhere.
-/

namespace Landscape

theorem findLast?_append {α : Type} (p : α → Bool) (xs ys : List α) :
    findLast? p (xs ++ ys) = (findLast? p ys).or (findLast? p xs) := by
  rw [findLast?, List.reverse_append, List.find?_append]
  rfl

theorem findLast?_singleton {α : Type} (p : α → Bool) (x : α) :
    findLast? p [x] = if p x then some x else none :=
  List.find?_singleton

theorem findLast?_map {α β : Type} (p : β → Bool) (f : α → β) (xs : List α) :
    findLast? p (xs.map f) = (findLast? (p ∘ f) xs).map f := by
  rw [findLast?, ← List.map_reverse, List.find?_map]
  rfl

namespace Model

/-- The things of a kind, each with its name if it has one. -/
def entries (m : Model) : (kind : Kind) → List (Option String × Id kind)
  | .domain => m.domains.map fun x => (some x.name, x.id)
  | .subdomain => m.subdomains.map fun x => (some x.name, x.id)
  | .context => m.contexts.map fun x => (some x.name, x.id)
  | .map => m.maps.map fun x => (x.name, x.id)
  | .useCase => m.useCases.map fun x => (some x.name, x.id)

/-- The thing of a kind that a query finds by its name. -/
def idNamed? (m : Model) (kind : Kind) (name : String) : Option (Id kind) :=
  match kind with
  | .domain => (m.domainNamed? name).map Domain.id
  | .subdomain => (m.subdomainNamed? name).map Subdomain.id
  | .context => (m.contextNamed? name).map Context.id
  | .map => (m.mapNamed? name).map ContextMap.id
  | .useCase => (m.useCaseNamed? name).map UseCase.id

theorem idNamed?_eq (m : Model) (kind : Kind) (name : String) :
    m.idNamed? kind name =
      (findLast? (·.1 = some name) (m.entries kind)).map Prod.snd := by
  cases kind <;>
    simp only [entries, findLast?_map, Option.map_map, Function.comp_def, Option.some.injEq] <;>
    rfl

theorem entries_addOwned (m : Model) (domain : Id .domain) (subdomain : Id .subdomain)
    (kind : Kind) : (m.addOwned domain subdomain).entries kind = m.entries kind := by
  cases kind with
  | domain =>
      apply List.ext_getElem?
      intro i
      simp only [entries, addOwned, List.getElem?_map, List.getElem?_modify, Option.map_eq_map,
        Option.map_map]
      refine congrArg (Option.map · m.domains[i]?) (funext fun x => ?_)
      by_cases h : domain.index = i <;> simp [h]
  | subdomain | context | map | useCase => rfl

end Model

namespace Draft

/-- The index gives for every name what the lists give. -/
def Tracks (draft : Draft) : Prop :=
  ∀ kind name, draft.names.find? kind name = draft.model.idNamed? kind name

theorem tracks_empty (policy : Policy) : (empty policy).Tracks := by
  intro kind name
  cases kind <;> rfl

/-- A thing that is put at the end of its list under the name that it is entered
with. The index is the old one, and so are the lists of the other kinds, which is
seen kind by kind. -/
theorem Tracks.enter {draft added : Draft} (h : draft.Tracks) {kind : Kind} {name : String}
    {id : Id kind} (span : Span)
    (hown : added.model.entries kind = draft.model.entries kind ++ [(some name, id)])
    (hnames : added.names = draft.names := by rfl)
    (hothers : ∀ other ≠ kind, added.model.entries other = draft.model.entries other := by
      rintro (_ | _ | _ | _ | _) hother <;> first | rfl | exact absurd rfl hother) :
    (added.enter name id span).Tracks := by
  intro kind' name'
  rw [enter_names, enter_model, hnames, Model.idNamed?_eq]
  by_cases hkind : kind' = kind
  · subst hkind
    rw [hown, findLast?_append, findLast?_singleton]
    by_cases hname : name' = name
    · subst hname
      rw [NameIndex.find?_enter_self]
      simp
    · rw [NameIndex.find?_enter_of_ne _ _ (by simp [hname]), h, Model.idNamed?_eq]
      simp [Ne.symm hname]
  · rw [NameIndex.find?_enter_of_ne _ _ (by simp [hkind]), h, Model.idNamed?_eq,
      hothers kind' hkind]

theorem registerSubdomain_tracks {draft : Draft} (h : draft.Tracks) (owner : Id .domain)
    (decl : SubdomainDecl) : (registerSubdomain owner draft decl).Tracks :=
  h.enter _ List.map_append

/-- To own a subdomain changes neither the name nor the id of a domain. -/
theorem registerOwned_tracks {draft : Draft} (h : draft.Tracks) (owner : Id .domain)
    (decl : SubdomainDecl) : (registerOwned owner draft decl).Tracks := by
  intro kind name
  rw [Model.idNamed?_eq, registerOwned, Model.entries_addOwned, ← Model.idNamed?_eq]
  exact registerSubdomain_tracks h owner decl kind name

theorem addDomain_tracks {draft : Draft} (h : draft.Tracks) (decl : DomainDecl) :
    (draft.addDomain decl).Tracks :=
  h.enter _ List.map_append

theorem registerDomain_tracks {draft : Draft} (h : draft.Tracks) (decl : DomainDecl) :
    (draft.registerDomain decl).Tracks :=
  List.foldlRecOn _ _ (addDomain_tracks h decl) fun _ h s _ => registerOwned_tracks h _ s

theorem registerMap_tracks {draft : Draft} (h : draft.Tracks) (decl : MapDecl) :
    (draft.registerMap decl).Tracks := by
  rw [registerMap]
  cases hname : decl.name with
  | none =>
      intro kind name
      rw [Model.idNamed?_eq]
      refine (h kind name).trans ((Model.idNamed?_eq ..).trans ?_)
      cases kind with
      | map =>
          have hadded : (decl.toMap ⟨draft.model.maps.length⟩).name = none := hname
          simp [Model.entries, findLast?_append, findLast?_singleton, hadded]
      | _ => rfl
  | some name =>
      refine h.enter _ ?_
      have hadded : (decl.toMap ⟨draft.model.maps.length⟩).name = some name := hname
      rw [← hadded]
      exact List.map_append

theorem registerContext_tracks {draft : Draft} (h : draft.Tracks) (decl : ContextDecl) :
    (draft.registerContext decl).Tracks :=
  h.enter _ List.map_append

theorem registerUseCase_tracks {draft : Draft} (h : draft.Tracks) (decl : UseCaseDecl) :
    (draft.registerUseCase decl).Tracks := by
  refine h.enter _ ?_
  have hname := decl.name_toUseCase ⟨draft.model.useCases.length⟩
  have hid := decl.id_toUseCase ⟨draft.model.useCases.length⟩
  simp [Model.entries, hname, hid]

/-- Every element is registered under its name. -/
theorem register_tracks {draft : Draft} (h : draft.Tracks) (element : Element) :
    (draft.register element).Tracks := by
  cases element with
  | domain decl => exact registerDomain_tracks h decl
  | context decl => exact registerContext_tracks h decl
  | map decl => exact registerMap_tracks h decl
  | useCase decl => exact registerUseCase_tracks h decl
  | unknown decl => exact h

end Draft

theorem Document.register_tracks (d : Document) {policy : Policy} : (d.register policy).Tracks :=
  List.foldlRecOn _ _ (Draft.tracks_empty policy) fun _ h element _ =>
    Draft.register_tracks h element

end Landscape
