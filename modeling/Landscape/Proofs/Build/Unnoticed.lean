import Landscape.Build

/-!
# What the passes do not notice

Both passes read the model and the names of a draft. What else is in it, the policy,
the notes and what was found, they carry along and add to. So a change to these that
is made before a step could as well be made after it (`Draft.Unnoticed`). This is
shown here for whatever a pass does with one element. The case with anything in it
is always the one that reports, and it is given.
-/

namespace Landscape

namespace Draft

/-- A change to a draft that leaves the model and the names alone, and that can be
made before or after something is reported. -/
structure Unnoticed (g : Draft → Draft) : Prop where
  model_eq : ∀ draft, (g draft).model = draft.model
  names_eq : ∀ draft, (g draft).names = draft.names
  model : ∀ draft model, { g draft with model } = g { draft with model }
  names : ∀ draft names, { g draft with names } = g { draft with names }
  report : ∀ draft findings, (g draft).report findings = g (draft.report findings)

namespace Unnoticed

variable {g : Draft → Draft} (h : Unnoticed g) (draft : Draft)
include h

/-! ## The first pass -/

theorem enter {kind : Kind} (name : String) (id : Id kind) (span : Span) :
    (g draft).enter name id span = g (draft.enter name id span) := by
  simp only [Draft.enter, h.names_eq, h.names, h.report]

theorem registerSubdomain (domain : Id .domain) (decl : SubdomainDecl) :
    Draft.registerSubdomain domain (g draft) decl =
      g (Draft.registerSubdomain domain draft decl) := by
  simp only [Draft.registerSubdomain, h.model_eq, h.model, h.report, h.enter]

theorem registerOwned (domain : Id .domain) (decl : SubdomainDecl) :
    Draft.registerOwned domain (g draft) decl = g (Draft.registerOwned domain draft decl) := by
  simp only [Draft.registerOwned, h.registerSubdomain, h.model_eq, h.model]

theorem addDomain (decl : DomainDecl) :
    (g draft).addDomain decl = g (draft.addDomain decl) := by
  simp only [Draft.addDomain, h.model_eq, h.model, h.enter]

theorem registerDomain (decl : DomainDecl) :
    (g draft).registerDomain decl = g (draft.registerDomain decl) := by
  rw [Draft.registerDomain, h.addDomain, h.model_eq]
  exact List.foldl_hom g fun draft s => h.registerOwned draft _ s

theorem registerContext (decl : ContextDecl) :
    (g draft).registerContext decl = g (draft.registerContext decl) := by
  simp only [Draft.registerContext, h.model_eq, h.model, h.enter]

theorem registerMap (decl : MapDecl) :
    (g draft).registerMap decl = g (draft.registerMap decl) := by
  simp only [Draft.registerMap, h.model_eq, h.model, h.enter]
  cases decl.name <;> rfl

theorem registerUseCase (decl : UseCaseDecl) :
    (g draft).registerUseCase decl = g (draft.registerUseCase decl) := by
  simp only [Draft.registerUseCase, h.model_eq, h.model, h.enter]

/-! ## The second pass -/

theorem subdomainId? (name : String) : (g draft).subdomainId? name = draft.subdomainId? name := by
  rw [Draft.subdomainId?, Draft.subdomainId?, h.names_eq]

theorem contextId? (name : String) : (g draft).contextId? name = draft.contextId? name := by
  rw [Draft.contextId?, Draft.contextId?, h.names_eq]

theorem linkImplementation (context : Id .context) (owner : Owner) (reference : Reference) :
    Draft.linkImplementation context owner (g draft) reference =
      g (Draft.linkImplementation context owner draft reference) := by
  simp only [Draft.linkImplementation, h.subdomainId?, h.model_eq, h.model, h.report]
  cases draft.subdomainId? reference.name <;> rfl

theorem linkContext (context : Id .context) (decl : ContextDecl) :
    (g draft).linkContext context decl = g (draft.linkContext context decl) :=
  List.foldl_hom g fun draft reference => h.linkImplementation draft context _ reference

theorem linkMember (map : Id .map) (owner : Owner) (reference : Reference) :
    Draft.linkMember map owner (g draft) reference =
      g (Draft.linkMember map owner draft reference) := by
  simp only [Draft.linkMember, h.contextId?, h.model_eq, h.model, h.report]
  cases draft.contextId? reference.name <;> rfl

theorem linkRelation (map : Id .map) (owner : Owner) (decl : RelationDecl) :
    Draft.linkRelation map owner (g draft) decl = g (Draft.linkRelation map owner draft decl) := by
  simp only [Draft.linkRelation, endpointFindings, h.contextId?, h.model_eq, h.model, h.report]
  cases draft.contextId? decl.left.name with
  | none => rfl
  | some left => cases draft.contextId? decl.right.name <;> rfl

theorem linkMap (map : Id .map) (decl : MapDecl) :
    (g draft).linkMap map decl = g (draft.linkMap map decl) := by
  rw [Draft.linkMap, List.foldl_hom g fun draft r => h.linkMember draft map _ r]
  exact List.foldl_hom g fun draft r => h.linkRelation draft map _ r

theorem linkElement (x : Element × Registration) :
    (g draft).linkElement x = g (draft.linkElement x) := by
  obtain ⟨element, registration⟩ := x
  cases element with
  | context decl =>
      cases registration with
      | context id => exact h.linkContext draft id decl
      | domain | map | useCase | skipped => rfl
  | map decl =>
      cases registration with
      | map id => exact h.linkMap draft id decl
      | domain | context | useCase | skipped => rfl
  | domain | useCase | unknown => cases registration <;> rfl

end Unnoticed

end Draft

end Landscape
