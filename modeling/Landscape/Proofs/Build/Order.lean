import Landscape.Proofs.Build.Findings
import Landscape.Proofs.Build.Grading
import Landscape.Proofs.Build.Implementations
import Landscape.Proofs.Build.Membership
import Landscape.Proofs.Build.Places

/-!
# The order of declarations

Declarations may refer to each other in any order, and where no two of a kind
have one name the order makes no difference. Names then stand for the same
declarations in both orders, so every lookup in the one document gives what it
gives in the other, renumbered (`Document.Reordered.subdomainId?`,
`Document.Reordered.contextId?`). The lists in a built model are made of lookups
and of the declarations themselves, in the order in which a single declaration
has them, and are renumbered with them.

Two things are put together from several declarations. The contexts that
implement a subdomain are the same, but they are listed in the order of their
ids. The map that a context points at is the last of those it is a member of, so
it is the same only if there is no more than one.
-/

namespace Landscape

/-! ## Lookups -/

theorem lastPosition?_of_nodup {α β : Type} [DecidableEq β] {f : α → β} {xs : List α} {i : Nat}
    {x : α} (hnodup : (xs.map f).Nodup) (hx : xs[i]? = some x) :
    lastPosition? (fun y => decide (f y = f x)) xs = some i := by
  cases hlast : lastPosition? (fun y => decide (f y = f x)) xs with
  | none =>
      have hnone := lastPosition?_eq_none.1 hlast x (List.mem_of_getElem? hx)
      simp at hnone
  | some k =>
      obtain ⟨⟨y, hy, heq⟩, -⟩ := lastPosition?_eq_some hlast
      have hlt : k < (xs.map f).length := by
        rw [List.length_map]
        exact (List.getElem?_eq_some_iff.1 hy).1
      have hsame : (xs.map f)[k]? = (xs.map f)[i]? := by
        rw [List.getElem?_map, List.getElem?_map, hy, hx, Option.map_some, Option.map_some,
          of_decide_eq_true heq]
      rw [(List.getElem?_inj hlt hnodup).1 hsame]

/-- A name that is declared once is declared at the new id. -/
theorem lastPosition?_renumber {kind : Kind} {α β : Type} [DecidableEq β] {f : α → β}
    {xs ys : List α} {ρ : Id kind → Id kind} (hperm : ys.Perm xs) (hnodup : (xs.map f).Nodup)
    (h : ∀ id, ys[(ρ id).index]? = xs[id.index]?) (y : β) :
    (lastPosition? (fun x => decide (f x = y)) ys).map Id.mk =
      ((lastPosition? (fun x => decide (f x = y)) xs).map Id.mk).map ρ := by
  cases hlast : lastPosition? (fun x => decide (f x = y)) xs with
  | none =>
      rw [lastPosition?_eq_none] at hlast
      rw [lastPosition?_eq_none.2 fun x hx => hlast x (hperm.mem_iff.1 hx)]
      rfl
  | some i =>
      obtain ⟨⟨x, hx, heq⟩, -⟩ := lastPosition?_eq_some hlast
      obtain rfl := of_decide_eq_true heq
      have hmoved : ys[(ρ ⟨i⟩).index]? = some x := by rw [h, hx]
      rw [lastPosition?_of_nodup ((hperm.map f).nodup_iff.2 hnodup) hmoved]
      rfl

namespace Document.Reordered

variable {ρ : Renumbering} {d d' : Document} (h : d.Reordered ρ d') (hnames : d.DistinctNames)
include h hnames

theorem subdomainId? (name : String) :
    d'.subdomainId? name = (d.subdomainId? name).map (ρ .subdomain) :=
  lastPosition?_renumber ((h.perm.filterMap _).flatMap_right _) hnames.subdomains h.subdomains name

theorem contextId? (name : String) :
    d'.contextId? name = (d.contextId? name).map (ρ .context) :=
  lastPosition?_renumber (h.perm.filterMap _) hnames.contexts h.contexts name

/-! ## The lists of one declaration -/

theorem implementedIn (decl : ContextDecl) :
    decl.implementedIn d' = (decl.implementedIn d).map (ρ .subdomain) := by
  rw [ContextDecl.implementedIn, ContextDecl.implementedIn, List.map_filterMap]
  simp only [h.subdomainId? hnames]

theorem containedIn (decl : MapDecl) :
    decl.containedIn d' = (decl.containedIn d).map (ρ .context) := by
  rw [MapDecl.containedIn, MapDecl.containedIn, List.map_filterMap]
  simp only [h.contextId? hnames]

theorem resolveIn (decl : RelationDecl) :
    decl.resolveIn d' = (decl.resolveIn d).map (Relationship.renumber ρ) := by
  rw [RelationDecl.resolveIn_eq, RelationDecl.resolveIn_eq, h.contextId? hnames,
    h.contextId? hnames]
  cases d.contextId? decl.left.name <;> cases d.contextId? decl.right.name <;> rfl

theorem relationshipsIn (decl : MapDecl) :
    decl.relationshipsIn d' = (decl.relationshipsIn d).map (Relationship.renumber ρ) := by
  rw [MapDecl.relationshipsIn, MapDecl.relationshipsIn, List.map_filterMap]
  simp only [h.resolveIn hnames]

theorem joinersIn (decl : MapDecl) :
    decl.joinersIn d' = (decl.joinersIn d).map (ρ .context) := by
  rw [MapDecl.joinersIn, MapDecl.joinersIn, h.containedIn hnames, h.relationshipsIn hnames,
    List.map_append, List.flatMap_map, List.map_flatMap]
  rfl

theorem unresolvedIn (element : Element) : element.unresolvedIn d' = element.unresolvedIn d := by
  cases element with
  | context decl =>
      simp only [Element.unresolvedIn, ContextDecl.unresolvedIn, h.subdomainId? hnames,
        Option.isSome_map]
  | map decl =>
      simp only [Element.unresolvedIn, MapDecl.unresolvedIn, Endpoint.unresolvedIn,
        h.contextId? hnames, Option.isSome_map]
  | _ => rfl

end Document.Reordered

/-! ## The things of a model -/

open OrderedSet

theorem insertAll_map {α β : Type} [DecidableEq α] [DecidableEq β] {f : α → β}
    (hf : Function.Injective f) (xs set : List α) :
    insertAll (xs.map f) (set.map f) = (insertAll xs set).map f := by
  induction xs generalizing set with
  | nil => rfl
  | cons x xs ih =>
      have hinsert : OrderedSet.insert (f x) (set.map f) = (OrderedSet.insert x set).map f := by
        by_cases hx : x ∈ set
        · rw [OrderedSet.insert, if_pos (List.mem_map_of_mem hx), OrderedSet.insert, if_pos hx]
        · have hfx : f x ∉ set.map f := fun hmem => by
            obtain ⟨y, hy, heq⟩ := List.mem_map.1 hmem
            exact hx (hf heq ▸ hy)
          rw [OrderedSet.insert, if_neg hfx, OrderedSet.insert, if_neg hx, List.map_append]
          rfl
      rw [List.map_cons, insertAll, List.foldl_cons, hinsert]
      exact ih _

theorem eraseDups_map {α β : Type} [DecidableEq α] [DecidableEq β] {f : α → β}
    (hf : Function.Injective f) (xs : List α) : (xs.map f).eraseDups = xs.eraseDups.map f := by
  rw [← insertAll_nil_eq_eraseDups, ← insertAll_nil_eq_eraseDups]
  exact insertAll_map hf xs []

theorem UseCaseDecl.renumber_toUseCase (ρ : Renumbering) (decl : UseCaseDecl)
    (id : Id .useCase) : (decl.toUseCase id).renumber ρ = decl.toUseCase (ρ .useCase id) := by
  suffices ∀ (parts : List UseCasePart) (u : UseCase),
      (parts.foldl applyPart u).renumber ρ = parts.foldl applyPart (u.renumber ρ) from this _ _
  intro parts
  induction parts with
  | nil => exact fun u => rfl
  | cons part rest ih =>
      intro u
      rw [List.foldl_cons, ih, List.foldl_cons]
      cases part <;> rfl

theorem lt_length_of_getElem?_eq {α : Type} {xs ys : List α} {i j : Nat} (h : ys[i]? = xs[j]?)
    (hi : i < ys.length) : j < xs.length := by
  rw [List.getElem?_eq_getElem hi] at h
  exact (List.getElem?_eq_some_iff.1 h.symm).1

/-- Under ids that are all taken by old ones, each new thing has an old one. -/
theorem exists_of_mem {kind : Kind} {α : Type} {id : α → Id kind} {ρ : Id kind → Id kind}
    {xs ys : List α} (hxs : Numbered id xs) (hsurjective : ∀ i, ∃ j, ρ j = i)
    (hlt : ∀ i, (ρ i).index < ys.length → i.index < xs.length) {y : α}
    (hy : ys[(id y).index]? = some y) : ∃ x ∈ xs, ρ (id x) = id y := by
  obtain ⟨i, hi⟩ := hsurjective (id y)
  have hindex : i.index < xs.length := hlt i (by
    rw [hi]
    exact (List.getElem?_eq_some_iff.1 hy).1)
  refine ⟨xs[i.index], List.getElem_mem hindex, ?_⟩
  rw [hxs i.index _ (List.getElem?_eq_getElem hindex), hi]

theorem atIndex_eq_ok_of_getElem? {α : Type} {xs : List α} {i : Nat} {x : α}
    (h : xs[i]? = some x) : atIndex xs i = .ok x := by
  rw [atIndex, h]

namespace Document

/-- A subdomain carries what its declaration says, apart from its owner and the
contexts that implement it. -/
theorem getElem?_draft_subdomains {d : Document} {policy : Policy} {i : Nat} {s : Subdomain}
    (hs : (d.draft policy).model.subdomains[i]? = some s) :
    ∃ decl, d.subdomains[i]? = some decl ∧
      s = { decl.toSubdomain ⟨i⟩ s.domain with implementations := s.implementations } := by
  rw [d.draft_subdomains, d.subdomains_register, List.getElem?_map, List.getElem?_mapIdx,
    Option.map_map, Option.map_eq_some_iff] at hs
  obtain ⟨x, hx, rfl⟩ := hs
  refine ⟨x.1, ?_, rfl⟩
  rw [subdomains, ← map_fst_ownedSubdomains 0, List.getElem?_map, hx]
  rfl

theorem length_draft_subdomains (d : Document) {policy : Policy} :
    (d.draft policy).model.subdomains.length = d.subdomains.length := by
  rw [d.draft_subdomains, d.subdomains_register, List.length_map, List.length_mapIdx, subdomains,
    ← map_fst_ownedSubdomains 0, List.length_map]

/-- The map that a context points at is one of those it is a member of. -/
theorem mem_of_map_eq_some {d : Document} {policy : Policy} {c : Context}
    (hc : c ∈ (d.draft policy).model.contexts) {id : Id .map} (hid : c.map = some id) :
    ∃ x ∈ (d.draft policy).model.maps, c.id ∈ x.contexts ∧ x.id = id := by
  have hmax := d.draft_map hc
  rw [hid, Option.map_some] at hmax
  obtain ⟨x, hx, hindex⟩ := List.mem_map.1 (List.max?_mem hmax.symm)
  obtain ⟨hx, hmem⟩ := List.mem_filter.1 hx
  refine ⟨x, hx, of_decide_eq_true hmem, ?_⟩
  cases hxid : x.id
  rw [hxid] at hindex
  exact congrArg Id.mk hindex

theorem map_ne_none {d : Document} {policy : Policy} {c : Context}
    (hc : c ∈ (d.draft policy).model.contexts) {x : ContextMap}
    (hx : x ∈ (d.draft policy).model.maps) (hmem : c.id ∈ x.contexts) : c.map ≠ none := by
  intro hnone
  have hmax := d.draft_map hc
  rw [hnone, Option.map_none, eq_comm, List.max?_eq_none_iff, List.map_eq_nil_iff,
    List.filter_eq_nil_iff] at hmax
  exact hmax x hx (decide_eq_true hmem)

namespace Reordered

variable {ρ : Renumbering} {d d' : Document} {policy : Policy} (h : d.Reordered ρ d')
include h

theorem draft_domain {x : Domain} (hx : x ∈ (d.draft policy).model.domains) :
    (d'.draft policy).model.domains[(ρ .domain x.id).index]? = some (x.renumber ρ) := by
  rw [draft_domains, domains_register] at hx ⊢
  exact h.domains x hx

theorem draft_useCase {u : UseCase} (hu : u ∈ (d.draft policy).model.useCases) :
    (d'.draft policy).model.useCases[(ρ .useCase u.id).index]? = some (u.renumber ρ) := by
  rw [draft_useCases] at hu ⊢
  obtain ⟨i, hi, rfl⟩ := List.mem_mapIdx.1 hu
  rw [UseCaseDecl.id_toUseCase, List.getElem?_mapIdx, h.useCases ⟨i⟩,
    List.getElem?_eq_getElem hi, Option.map_some, UseCaseDecl.renumber_toUseCase]

/-- A domain lists its subdomains at their new ids, so these have the same owner. -/
theorem domain_eq {s s' : Subdomain} (hs : s ∈ (d.draft policy).model.subdomains)
    (hs' : s' ∈ (d'.draft policy).model.subdomains) (hid : s'.id = ρ .subdomain s.id) :
    s'.domain = ρ .domain s.domain := by
  have owned : (d.draft policy).model.Owned := d.draft_closed.owned
  have hlt := owned.domain_lt s hs
  have howner : (d.draft policy).model.domains[s.domain.index].id = s.domain :=
    d.draft_closed.indexed.domains _ _ (List.getElem?_eq_getElem hlt)
  have hlisted := (owned.mem_iff s hs _ (List.getElem_mem hlt)).2 howner
  have hmoved := h.draft_domain (List.getElem_mem hlt)
  rw [← howner]
  refine ((d'.draft_closed.owned.mem_iff s' hs' _ (List.mem_of_getElem? hmoved)).1 ?_).symm
  rw [hid]
  exact List.mem_map_of_mem hlisted

theorem draft_subdomain {s : Subdomain} (hs : s ∈ (d.draft policy).model.subdomains) :
    ∃ implementations, (d'.draft policy).model.subdomains[(ρ .subdomain s.id).index]? =
      some { s.renumber ρ with implementations } := by
  have hat := d.draft_closed.indexed.subdomains.getElem?_of_mem hs
  obtain ⟨decl, hdecl, heq⟩ := getElem?_draft_subdomains hat
  rw [← h.subdomains] at hdecl
  obtain ⟨s', hs'⟩ :
      ∃ s', (d'.draft policy).model.subdomains[(ρ .subdomain s.id).index]? = some s' := by
    refine ⟨_, List.getElem?_eq_getElem ?_⟩
    rw [length_draft_subdomains]
    exact (List.getElem?_eq_some_iff.1 hdecl).1
  obtain ⟨decl', hdecl', heq'⟩ := getElem?_draft_subdomains hs'
  obtain rfl : decl = decl' := Option.some.inj (hdecl.symm.trans hdecl')
  have hid : s'.id = ρ .subdomain s.id :=
    d'.draft_closed.indexed.subdomains _ _ hs'
  rw [h.domain_eq hs (List.mem_of_getElem? hs') hid] at heq'
  refine ⟨s'.implementations, ?_⟩
  rw [hs', heq', heq]
  rfl

variable (hnames : d.DistinctNames)
include hnames

theorem draft_context {c : Context} (hc : c ∈ (d.draft policy).model.contexts) :
    ∃ map, (d'.draft policy).model.contexts[(ρ .context c.id).index]? =
      some { c.renumber ρ with map } := by
  rw [draft_contexts] at hc ⊢
  obtain ⟨i, hi, rfl⟩ := List.mem_mapIdx.1 hc
  refine ⟨(d'.links.filterMap (·.joined? (ρ .context ⟨i⟩))).getLast?, ?_⟩
  rw [List.getElem?_mapIdx]
  have hmoved := h.contexts ⟨i⟩
  rw [List.getElem?_eq_getElem hi] at hmoved
  simp only [ContextDecl.toContext]
  rw [hmoved, Option.map_some, h.implementedIn hnames, eraseDups_map (h.injective _)]
  rfl

theorem draft_contextMap {x : ContextMap} (hx : x ∈ (d.draft policy).model.maps) :
    (d'.draft policy).model.maps[(ρ .map x.id).index]? = some (x.renumber ρ) := by
  rw [draft_maps] at hx ⊢
  obtain ⟨i, hi, rfl⟩ := List.mem_mapIdx.1 hx
  rw [List.getElem?_mapIdx]
  have hmoved := h.maps ⟨i⟩
  rw [List.getElem?_eq_getElem hi] at hmoved
  simp only [MapDecl.toMap]
  rw [hmoved, Option.map_some, h.joinersIn hnames, eraseDups_map (h.injective _),
    h.relationshipsIn hnames]
  rfl

/-- Every context of the new model is one of the old model. -/
theorem exists_context {c' : Context} (hc' : c' ∈ (d'.draft policy).model.contexts) :
    ∃ c ∈ (d.draft policy).model.contexts, ∃ map, c' = { c.renumber ρ with map } := by
  have hat := d'.draft_closed.indexed.contexts.getElem?_of_mem hc'
  obtain ⟨c, hc, hid⟩ := exists_of_mem d.draft_closed.indexed.contexts (h.surjective .context)
    (fun id hlt => by
      rw [draft_contexts, List.length_mapIdx] at hlt ⊢
      exact lt_length_of_getElem?_eq (h.contexts id) hlt) hat
  obtain ⟨map, hmoved⟩ := h.draft_context hnames hc
  rw [hid, hat] at hmoved
  exact ⟨c, hc, map, Option.some.inj hmoved⟩

theorem exists_contextMap {x' : ContextMap} (hx' : x' ∈ (d'.draft policy).model.maps) :
    ∃ x ∈ (d.draft policy).model.maps, x' = x.renumber ρ := by
  have hat := d'.draft_closed.indexed.maps.getElem?_of_mem hx'
  obtain ⟨x, hx, hid⟩ := exists_of_mem d.draft_closed.indexed.maps (h.surjective .map)
    (fun id hlt => by
      rw [draft_maps, List.length_mapIdx] at hlt ⊢
      exact lt_length_of_getElem?_eq (h.maps id) hlt) hat
  have hmoved := h.draft_contextMap hnames hx
  rw [hid, hat] at hmoved
  exact ⟨x, hx, Option.some.inj hmoved⟩

/-! ## What several declarations have a part in -/

theorem draft_implementations {s s' : Subdomain} (hs : s ∈ (d.draft policy).model.subdomains)
    (hs' : s' ∈ (d'.draft policy).model.subdomains) (hid : s'.id = ρ .subdomain s.id) :
    s'.implementations.Perm (s.renumber ρ).implementations := by
  obtain ⟨hlist, hincreasing⟩ := d.draft_implementations hs
  obtain ⟨hlist', hincreasing'⟩ := d'.draft_implementations hs'
  have hnodup : (s.implementations.map (ρ .context)).Nodup :=
    List.pairwise_map.2 ((nodup_of_increasing hincreasing).imp fun hne heq =>
      hne (h.injective _ heq))
  refine (List.perm_ext_iff_of_nodup (nodup_of_increasing hincreasing') hnodup).2 fun id => ?_
  rw [hlist', hlist, hid]
  simp only [List.mem_map, List.mem_filter, decide_eq_true_eq]
  constructor
  · rintro ⟨c', ⟨hc', hmem⟩, rfl⟩
    obtain ⟨c, hc, map, rfl⟩ := h.exists_context hnames hc'
    obtain ⟨id, hid, heq⟩ := List.mem_map.1 hmem
    obtain rfl := h.injective _ heq
    exact ⟨c.id, ⟨c, ⟨hc, hid⟩, rfl⟩, rfl⟩
  · rintro ⟨_, ⟨c, ⟨hc, hmem⟩, rfl⟩, rfl⟩
    obtain ⟨map, hc'⟩ := h.draft_context hnames hc
    exact ⟨_, ⟨List.mem_of_getElem? hc', List.mem_map_of_mem hmem⟩, rfl⟩

/-- A context that is a member of one map at most points at the same map. -/
theorem draft_context_map {c c' : Context} (hc : c ∈ (d.draft policy).model.contexts)
    (hc' : c' ∈ (d'.draft policy).model.contexts) (hid : c'.id = ρ .context c.id)
    (hone : ∀ x ∈ (d.draft policy).model.maps, ∀ y ∈ (d.draft policy).model.maps,
      c.id ∈ x.contexts → c.id ∈ y.contexts → x = y) :
    c'.map = (c.renumber ρ).map := by
  cases hmap' : c'.map with
  | none =>
      cases hmap : c.map with
      | none => rw [Context.renumber, hmap]; rfl
      | some id =>
          obtain ⟨x, hx, hmem, rfl⟩ := mem_of_map_eq_some hc hmap
          have hx' := List.mem_of_getElem? (h.draft_contextMap hnames hx)
          refine absurd hmap' (map_ne_none hc' hx' ?_)
          rw [hid]
          exact List.mem_map_of_mem hmem
  | some id' =>
      obtain ⟨x', hx', hmem', rfl⟩ := mem_of_map_eq_some hc' hmap'
      obtain ⟨x, hx, rfl⟩ := h.exists_contextMap hnames hx'
      rw [hid] at hmem'
      obtain ⟨id, hmem, heq⟩ := List.mem_map.1 hmem'
      obtain rfl := h.injective _ heq
      obtain ⟨id, hmap⟩ := Option.ne_none_iff_exists'.1 (map_ne_none hc hx hmem)
      obtain ⟨y, hy, hmemy, rfl⟩ := mem_of_map_eq_some hc hmap
      obtain rfl := hone x hx y hy hmem hmemy
      rw [Context.renumber, hmap]
      rfl

/-! ## Whole builds -/

omit hnames in
theorem size_eq (kind : Kind) :
    (d'.draft policy).model.size kind = (d.draft policy).model.size kind := by
  cases kind with
  | domain =>
      simp only [Model.size, draft_domains, domains_register, DomainDecl.length_number]
      exact (h.perm.filterMap _).length_eq
  | subdomain =>
      simp only [Model.size, length_draft_subdomains]
      exact ((h.perm.filterMap _).flatMap_right _).length_eq
  | context =>
      simp only [Model.size, draft_contexts, List.length_mapIdx]
      exact (h.perm.filterMap _).length_eq
  | map =>
      simp only [Model.size, draft_maps, List.length_mapIdx]
      exact (h.perm.filterMap _).length_eq
  | useCase =>
      simp only [Model.size, draft_useCases, List.length_mapIdx]
      exact (h.perm.filterMap _).length_eq

theorem draft_model : (d.draft policy).model.Renumbered ρ (d'.draft policy).model where
  injective := h.injective
  size_eq := h.size_eq
  domains x hx := atIndex_eq_ok_of_getElem? (h.draft_domain hx)
  subdomains s hs := by
    obtain ⟨implementations, hs'⟩ := h.draft_subdomain hs
    exact ⟨implementations, atIndex_eq_ok_of_getElem? hs',
      h.draft_implementations hnames hs (List.mem_of_getElem? hs') rfl⟩
  contexts c hc := by
    obtain ⟨map, hc'⟩ := h.draft_context hnames hc
    exact ⟨map, atIndex_eq_ok_of_getElem? hc', fun hone =>
      h.draft_context_map hnames hc (List.mem_of_getElem? hc') rfl hone⟩
  maps x hx := atIndex_eq_ok_of_getElem? (h.draft_contextMap hnames hx)
  useCases u hu := atIndex_eq_ok_of_getElem? (h.draft_useCase hu)

/-- Every finding is about one element, and none about its neighbours. -/
theorem draft_findings : (d'.draft policy).findings.Perm (d.draft policy).findings := by
  have hnames' := hnames.of_perm h.perm
  rw [d'.draft_findings, d.draft_findings,
    DistinctNames.registrationFindings ⟨[]⟩ hnames',
    DistinctNames.registrationFindings ⟨[]⟩ hnames, funext (h.unresolvedIn hnames)]
  exact (h.perm.flatMap_right _).append (h.perm.flatMap_right _)

end Reordered

/-- The order of declarations does not matter, as long as no two of a kind have
one name. -/
theorem build_reordered {d : Document} (hnames : d.DistinctNames)
    {elements : List (Element × Nat)} (horder : elements.Perm d.elements.zipIdx)
    (policy : Policy) (source : Option String) :
    let built := d.build policy source
    let built' := (inOrder elements).build policy source
    built.model.Renumbered (renumber d.elements.zipIdx elements) built'.model ∧
      built'.diagnostics.Perm built.diagnostics := by
  have reordered := reordered_renumber horder
  refine ⟨reordered.draft_model hnames, ?_⟩
  rw [diagnostics_build, diagnostics_build]
  exact (reordered.draft_findings hnames).map _

/-- Everything refers to something that is declared later, or not at all. -/
def scattered : Document :=
  let subdomain (name : String) : Entry := .declaration (.subdomain name []) [] .none
  ⟨[.map ⟨some "All", [.contains [⟨"Sales", .none⟩, ⟨"Nothing", .none⟩]], [], .none⟩,
    .context ⟨"Sales", [⟨"Stock", .none⟩, ⟨"Orders", .none⟩], [], none, [], .none⟩,
    .context ⟨"Storage", [⟨"Stock", .none⟩], [], none, [], .none⟩,
    .domain ⟨"Shop", [subdomain "Orders"], .none⟩,
    .domain ⟨"Warehouse", [subdomain "Stock", subdomain "Goods"], .none⟩]⟩

theorem scattered_build_reordered :
    let backwards := scattered.elements.zipIdx.reverse
    let built := scattered.build .lenient none
    let built' := (inOrder backwards).build .lenient none
    scattered.DistinctNames ∧ backwards.Perm scattered.elements.zipIdx ∧
      built.model.subdomains.map Subdomain.implementations = [[⟨0⟩], [⟨0⟩, ⟨1⟩], []] ∧
      built'.model.subdomains.map Subdomain.implementations = [[⟨0⟩, ⟨1⟩], [], [⟨1⟩]] ∧
      built.model.Renumbered (renumber scattered.elements.zipIdx backwards) built'.model ∧
      built'.diagnostics.Perm built.diagnostics :=
  have names : scattered.DistinctNames :=
    ⟨by decide, by decide, by decide, by decide, by decide⟩
  ⟨names, List.reverse_perm _, by decide, by decide,
    build_reordered names (List.reverse_perm _) .lenient none⟩

end Document

end Landscape
