import Landscape.Build
import Landscape.Proofs.Build.Linking
import Landscape.Proofs.Model.View

/-!
# A built model is closed

The three parts of `Model.Closed` come from different places. That things are
at their own index holds of every draft. Who owns which subdomain is settled by
the first pass, one domain at a time: a domain is handed the next indices that
are free, so nothing that was owned before is owned twice, and links leave all
of it alone. What links refer to is in range as soon as the lookup that gave it
was, and the links of a document were all looked up in the registered model.

Closed models are those in which views never fail, so with this a built model
can be walked through without end.
-/

namespace Landscape

open OrderedSet

/-! ## Ownership -/

theorem DomainDecl.mem_subdomains_toOwner {decl : DomainDecl} {id : Id .domain}
    {first : Nat} {s : Id .subdomain} :
    s ∈ (decl.toOwner id first).subdomains ↔
      first ≤ s.index ∧ s.index < first + decl.subdomains.length := by
  rw [subdomains_toOwner, List.mem_map]
  constructor
  · rintro ⟨i, hi, rfl⟩
    exact List.mem_range'_1.1 hi
  · intro h
    exact ⟨s.index, List.mem_range'_1.2 h, rfl⟩

theorem DomainDecl.pairwise_subdomains_toOwner (decl : DomainDecl) (id : Id .domain)
    (first : Nat) :
    (decl.toOwner id first).subdomains.Pairwise fun a b => a.index < b.index := by
  rw [subdomains_toOwner, List.pairwise_map]
  exact List.pairwise_lt_range'

/-- What a subdomain carries that was registered for a domain. -/
theorem SubdomainDecl.of_mem_mapIdx {first : Nat} {owner : Id .domain}
    {decls : List SubdomainDecl} {s : Subdomain}
    (h : s ∈ decls.mapIdx fun i decl => decl.toSubdomain ⟨first + i⟩ owner) :
    s.domain = owner ∧ first ≤ s.id.index ∧ s.id.index < first + decls.length := by
  obtain ⟨i, hi, rfl⟩ := List.mem_mapIdx.1 h
  exact ⟨rfl, Nat.le_add_right first i, Nat.add_lt_add_left hi first⟩

/-- A domain joins, and with it the subdomains that it owns. They take ids that were
free, so no domain comes to own a subdomain of another. -/
theorem Model.Owned.join {m : Model} (hi : m.Indexed) (h : m.Owned) {x : Domain}
    {subdomains : List Subdomain} (hid : x.id = ⟨m.domains.length⟩)
    (hsubdomains : ∀ s ∈ subdomains, s.domain = x.id ∧ s.id ∈ x.subdomains)
    (hrange : ∀ id ∈ x.subdomains, m.subdomains.length ≤ id.index ∧
      id.index < m.subdomains.length + subdomains.length)
    (hincreasing : x.subdomains.Pairwise fun a b => a.index < b.index) :
    Model.Owned { m with
      domains := m.domains ++ [x]
      subdomains := m.subdomains ++ subdomains } := by
  have kept : ∀ s ∈ m.subdomains, s.id ∉ x.subdomains := fun s hs hmem =>
    absurd (hi.subdomains.index_lt hs) (Nat.not_lt.2 (hrange _ hmem).1)
  have apart : ∀ s ∈ subdomains, ∀ d ∈ m.domains, s.id ∉ d.subdomains := fun s hs d hd hmem =>
    absurd (h.subdomains_lt d hd _ hmem) (Nat.not_lt.2 (hrange _ (hsubdomains s hs).2).1)
  have distinct : x.subdomains.Nodup :=
    hincreasing.imp fun hab heq => absurd hab (by rw [heq]; exact Nat.lt_irrefl _)
  constructor
  case domain_lt =>
    intro s hs
    rw [List.length_append, List.length_singleton]
    rcases List.mem_append.1 hs with hs | hs
    · exact Nat.lt_succ_of_lt (h.domain_lt s hs)
    · rw [(hsubdomains s hs).1, hid]
      exact Nat.lt_succ_self _
  case subdomains_lt =>
    intro d hd id hmem
    rw [List.length_append]
    rcases List.mem_append.1 hd with hd | hd
    · exact Nat.lt_add_right _ (h.subdomains_lt d hd id hmem)
    · obtain rfl := List.mem_singleton.1 hd
      exact (hrange id hmem).2
  case count_eq_one =>
    intro s hs
    rw [List.flatMap_append, List.flatMap_singleton, List.count_append]
    rcases List.mem_append.1 hs with hs | hs
    · rw [h.count_eq_one s hs, List.count_eq_zero.2 (kept s hs)]
    · have none : s.id ∉ m.domains.flatMap Domain.subdomains := fun hmem =>
        have ⟨d, hd, hmem⟩ := List.mem_flatMap.1 hmem
        apart s hs d hd hmem
      rw [List.count_eq_zero.2 none, distinct.count, if_pos (hsubdomains s hs).2]
  case mem_iff =>
    intro s hs d hd
    rcases List.mem_append.1 hs with hold | hnew <;>
      rcases List.mem_append.1 hd with hd | hd
    · exact h.mem_iff s hold d hd
    · obtain rfl := List.mem_singleton.1 hd
      refine iff_of_false (kept s hold) fun heq => ?_
      have howner := h.domain_lt s hold
      rw [← heq, hid] at howner
      exact Nat.lt_irrefl _ howner
    · refine iff_of_false (apart s hnew d hd) fun heq => ?_
      have hlt := hi.domains.index_lt hd
      rw [heq, (hsubdomains s hnew).1, hid] at hlt
      exact Nat.lt_irrefl _ hlt
    · obtain rfl := List.mem_singleton.1 hd
      exact iff_of_true (hsubdomains s hnew).2 (hsubdomains s hnew).1.symm
  case increasing =>
    intro d hd
    rcases List.mem_append.1 hd with hd | hd
    · exact h.increasing d hd
    · obtain rfl := List.mem_singleton.1 hd
      exact hincreasing

namespace Draft

theorem registerDomain_owned {draft : Draft} (hi : draft.model.Indexed)
    (h : draft.model.Owned) (decl : DomainDecl) :
    (draft.registerDomain decl).model.Owned := by
  rw [registerDomain_model]
  refine h.join hi rfl (fun s hs => ?_) (fun id hid => ?_)
    (decl.pairwise_subdomains_toOwner _ _)
  · obtain ⟨hdomain, hrange⟩ := SubdomainDecl.of_mem_mapIdx hs
    exact ⟨hdomain, DomainDecl.mem_subdomains_toOwner.2 hrange⟩
  · rw [List.length_mapIdx]
    exact DomainDecl.mem_subdomains_toOwner.1 hid

theorem register_owned {draft : Draft} (hi : draft.model.Indexed) (h : draft.model.Owned)
    (element : Element) : (draft.register element).model.Owned := by
  cases element with
  | domain decl => exact registerDomain_owned hi h decl
  | context decl => exact { h with }
  | map decl =>
      rw [register, note_model, registerMap_model]
      exact { h with }
  | useCase decl => exact { h with }
  | unknown decl => exact h

end Draft

theorem Model.owned_empty : Model.empty.Owned where
  domain_lt := nofun
  subdomains_lt := nofun
  count_eq_one := nofun
  mem_iff := nofun
  increasing := nofun

theorem Document.register_owned (d : Document) {policy : Policy} :
    (d.register policy).model.Owned := by
  suffices (d.register policy).model.Indexed ∧ (d.register policy).model.Owned from this.2
  exact List.foldlRecOn
    (motive := fun draft : Draft => draft.model.Indexed ∧ draft.model.Owned) _ _
    ⟨Model.indexed_empty, Model.owned_empty⟩
    fun _ h element _ => ⟨Draft.register_indexed h.1 element, Draft.register_owned h.1 h.2 element⟩

/-! ## Links -/

/-- Right after the first pass nothing is linked. -/
theorem Document.register_linked (d : Document) {policy : Policy} :
    (d.register policy).model.Linked := by
  have subdomain : ∀ s ∈ (d.register policy).model.subdomains, s.implementations = [] := by
    rw [d.subdomains_register]
    intro s hs
    obtain ⟨i, hi, rfl⟩ := List.mem_mapIdx.1 hs
    rfl
  have context : ∀ c ∈ (d.register policy).model.contexts, c.implements = [] ∧ c.map = none := by
    rw [d.contexts_register]
    intro c hc
    obtain ⟨i, hi, rfl⟩ := List.mem_mapIdx.1 hc
    exact ⟨rfl, rfl⟩
  have map : ∀ x ∈ (d.register policy).model.maps, x.contexts = [] ∧ x.relationships = [] := by
    rw [d.maps_register]
    intro x hx
    obtain ⟨i, hi, rfl⟩ := List.mem_mapIdx.1 hx
    exact ⟨rfl, rfl⟩
  constructor
  · intro s hs id hid
    simp [subdomain s hs] at hid
  · intro c hc id hid
    simp [(context c hc).1] at hid
  · intro c hc id hid
    simp [(context c hc).2] at hid
  · intro x hx id hid
    simp [(map x hx).1] at hid
  · intro x hx r hr
    simp [(map x hx).2] at hr
  · intro x hx r hr
    simp [(map x hx).2] at hr
  · intro x hx
    simp [(map x hx).1]

/-- Whether a link joins things that a model has. -/
def Link.InRange (m : Model) : Link → Prop
  | implementation context subdomain =>
    context.index < m.contexts.length ∧ subdomain.index < m.subdomains.length
  | member map context => map.index < m.maps.length ∧ context.index < m.contexts.length
  | relationship map r =>
    map.index < m.maps.length ∧ r.left.index < m.contexts.length ∧
      r.right.index < m.contexts.length

namespace Link

variable {m : Model} {l : Link}

theorem InRange.implementers_lt (h : l.InRange m) {s : Id .subdomain} {c : Id .context}
    (hc : c ∈ l.implementers s) : c.index < m.contexts.length := by
  cases l with
  | implementation context subdomain =>
      simp only [implementers, List.mem_ite_nil_right, List.mem_singleton] at hc
      obtain ⟨-, rfl⟩ := hc
      exact h.1
  | member map context => cases hc
  | relationship map r => cases hc

theorem InRange.implemented_lt (h : l.InRange m) {c : Id .context} {s : Id .subdomain}
    (hs : s ∈ l.implemented c) : s.index < m.subdomains.length := by
  cases l with
  | implementation context subdomain =>
      simp only [implemented, List.mem_ite_nil_right, List.mem_singleton] at hs
      obtain ⟨-, rfl⟩ := hs
      exact h.2
  | member map context => cases hs
  | relationship map r => cases hs

theorem InRange.joined_lt (h : l.InRange m) {c : Id .context} {x : Id .map}
    (hx : l.joined? c = some x) : x.index < m.maps.length := by
  cases l with
  | implementation context subdomain => cases hx
  | member map context =>
      simp only [joined?, Option.ite_none_right_eq_some, Option.some.injEq] at hx
      obtain ⟨-, rfl⟩ := hx
      exact h.1
  | relationship map r =>
      simp only [joined?, Option.ite_none_right_eq_some, Option.some.injEq] at hx
      obtain ⟨-, rfl⟩ := hx
      exact h.1

theorem InRange.joiners_lt (h : l.InRange m) {x : Id .map} {c : Id .context}
    (hc : c ∈ l.joiners x) : c.index < m.contexts.length := by
  cases l with
  | implementation context subdomain => cases hc
  | member map context =>
      simp only [joiners, List.mem_ite_nil_right, List.mem_singleton] at hc
      obtain ⟨-, rfl⟩ := hc
      exact h.2
  | relationship map r =>
      simp only [joiners, List.mem_ite_nil_right, List.mem_cons, List.not_mem_nil,
        or_false] at hc
      obtain ⟨-, rfl | rfl⟩ := hc
      · exact h.2.1
      · exact h.2.2

/-- The sides of a relationship join the map that is given it. -/
theorem sides_mem_joiners {x : Id .map} {r : Relationship} (hr : r ∈ l.relationships x) :
    r.left ∈ l.joiners x ∧ r.right ∈ l.joiners x := by
  cases l with
  | implementation context subdomain => cases hr
  | member map context => cases hr
  | relationship map r' =>
      simp only [relationships, List.mem_ite_nil_right, List.mem_singleton] at hr
      obtain ⟨rfl, rfl⟩ := hr
      simp [joiners]

end Link

namespace Model

theorem link_linked {m : Model} (hi : m.Indexed) (h : m.Linked) {l : Link}
    (hl : l.InRange m) : (m.link l).Linked := by
  rw [link_eq hi]
  constructor <;> simp only [List.length_map, List.forall_mem_map]
  · intro s hs id hid
    rcases mem_insertAll.1 hid with hid | hid
    · exact h.implementations_lt s hs id hid
    · exact hl.implementers_lt hid
  · intro c hc id hid
    rcases mem_insertAll.1 hid with hid | hid
    · exact h.implements_lt c hc id hid
    · exact hl.implemented_lt hid
  · intro c hc id hid
    rcases Option.or_eq_some_iff.1 hid with hid | ⟨-, hid⟩
    · exact hl.joined_lt hid
    · exact h.map_lt c hc id hid
  · intro x hx id hid
    rcases mem_insertAll.1 hid with hid | hid
    · exact h.members_lt x hx id hid
    · exact hl.joiners_lt hid
  · intro x hx r hr
    rcases List.mem_append.1 hr with hr | hr
    · exact h.sides_lt x hx r hr
    · have sides := Link.sides_mem_joiners hr
      exact ⟨hl.joiners_lt sides.1, hl.joiners_lt sides.2⟩
  · intro x hx r hr
    rcases List.mem_append.1 hr with hr | hr
    · have sides := h.sides_mem x hx r hr
      exact ⟨mem_insertAll.2 (.inl sides.1), mem_insertAll.2 (.inl sides.2)⟩
    · have sides := Link.sides_mem_joiners hr
      exact ⟨mem_insertAll.2 (.inr sides.1), mem_insertAll.2 (.inr sides.2)⟩
  · intro x hx
    exact nodup_insertAll _ (h.members_nodup x hx)

theorem link_owned {m : Model} (hi : m.Indexed) (h : m.Owned) (l : Link) :
    (m.link l).Owned := by
  rw [link_eq hi]
  constructor <;> simp only [List.length_map, List.forall_mem_map]
  · exact h.domain_lt
  · exact h.subdomains_lt
  · exact h.count_eq_one
  · exact h.mem_iff
  · exact h.increasing

theorem link_inRange {m : Model} (hi : m.Indexed) (l : Link) {l' : Link}
    (h : l'.InRange m) : l'.InRange (m.link l) := by
  rw [link_eq hi]
  cases l' <;> simpa only [Link.InRange, List.length_map] using h

theorem foldl_link_closed {m : Model} (h : m.Closed) {links : List Link}
    (hl : ∀ l ∈ links, l.InRange m) : (links.foldl link m).Closed := by
  induction links generalizing m with
  | nil => exact h
  | cons l rest ih =>
      obtain ⟨hi, ho, hk⟩ := h
      have linked := link_linked hi hk (hl l (by simp))
      refine ih ⟨link_indexed hi l, link_owned hi ho l, linked⟩ ?_
      exact fun l' hl' => link_inRange hi l (hl l' (List.mem_cons_of_mem l hl'))

end Model

/-! ## The links of a document are in range -/

namespace Document

variable {d : Document} {policy : Policy}

theorem contextId?_lt {name : String} {id : Id .context}
    (h : d.contextId? name = some id) :
    id.index < (d.register policy).model.contexts.length := by
  obtain ⟨i, hi, rfl⟩ := Option.map_eq_some_iff.1 h
  obtain ⟨⟨decl, hdecl, -⟩, -⟩ := lastPosition?_eq_some hi
  rw [d.contexts_register, List.length_mapIdx]
  exact (List.getElem?_eq_some_iff.1 hdecl).1

theorem subdomainId?_lt {name : String} {id : Id .subdomain}
    (h : d.subdomainId? name = some id) :
    id.index < (d.register policy).model.subdomains.length := by
  obtain ⟨i, hi, rfl⟩ := Option.map_eq_some_iff.1 h
  obtain ⟨⟨decl, hdecl, -⟩, -⟩ := lastPosition?_eq_some hi
  rw [d.subdomains_register, List.length_mapIdx, ← List.length_map (f := Prod.fst),
    map_fst_ownedSubdomains]
  exact (List.getElem?_eq_some_iff.1 hdecl).1

theorem sides_lt_of_resolveIn {decl : RelationDecl} {r : Relationship}
    (h : decl.resolveIn d = some r) :
    r.left.index < (d.register policy).model.contexts.length ∧
      r.right.index < (d.register policy).model.contexts.length := by
  rw [RelationDecl.resolveIn] at h
  split at h
  · next left right hleft hright =>
      obtain rfl := Option.some.inj h
      exact ⟨contextId?_lt hleft, contextId?_lt hright⟩
  · cases h

theorem linksFrom_inRange {contexts maps : Nat} {elements : List Element}
    (hc : (d.register policy).model.contexts.length =
      contexts + (elements.filterMap Element.context?).length)
    (hx : (d.register policy).model.maps.length =
      maps + (elements.filterMap Element.map?).length) :
    ∀ l ∈ d.linksFrom contexts maps elements, l.InRange (d.register policy).model := by
  induction elements generalizing contexts maps with
  | nil => exact fun l hl => nomatch hl
  | cons element rest ih =>
      cases element with
      | context decl =>
          have hc : (d.register policy).model.contexts.length =
              contexts + ((rest.filterMap Element.context?).length + 1) := hc
          have here : contexts < (d.register policy).model.contexts.length := by omega
          intro l hl
          rcases List.mem_append.1 hl with hl | hl
          · obtain ⟨s, hs, rfl⟩ := List.mem_map.1 hl
            obtain ⟨reference, -, hs⟩ := List.mem_filterMap.1 hs
            exact ⟨here, subdomainId?_lt hs⟩
          · exact ih (by omega) hx l hl
      | map decl =>
          have hx : (d.register policy).model.maps.length =
              maps + ((rest.filterMap Element.map?).length + 1) := hx
          have here : maps < (d.register policy).model.maps.length := by omega
          intro l hl
          rcases List.mem_append.1 hl with hl | hl
          · rcases List.mem_append.1 hl with hl | hl
            · obtain ⟨c, hc, rfl⟩ := List.mem_map.1 hl
              obtain ⟨reference, -, hc⟩ := List.mem_filterMap.1 hc
              exact ⟨here, contextId?_lt hc⟩
            · obtain ⟨r, hr, rfl⟩ := List.mem_map.1 hl
              obtain ⟨decl, -, hr⟩ := List.mem_filterMap.1 hr
              exact ⟨here, sides_lt_of_resolveIn hr⟩
          · exact ih hc (by omega) l hl
      | domain decl => exact ih hc hx
      | useCase decl => exact ih hc hx
      | unknown decl => exact ih hc hx

theorem links_inRange (d : Document) :
    ∀ l ∈ d.links, l.InRange (d.register policy).model := by
  apply linksFrom_inRange
  · rw [d.contexts_register, List.length_mapIdx, Nat.zero_add, Document.contexts]
  · rw [d.maps_register, List.length_mapIdx, Nat.zero_add, Document.maps]

theorem draft_closed (d : Document) : (d.draft policy).model.Closed := by
  rw [d.draft_model]
  exact Model.foldl_link_closed ⟨d.register_indexed, d.register_owned, d.register_linked⟩
    d.links_inRange

/-- The model of a document is closed, whatever the document looks like, and no
calls on views of it lead out of range. -/
theorem build_closed (d : Document) (policy : Policy) (source : Option String) :
    let m := (d.build policy source).model
    m.Closed ∧ ∀ calls, m.walk m.views calls = .ok (m.answers m.views calls) := by
  intro m
  have closed : m.Closed := d.draft_closed
  exact ⟨closed, fun calls => Model.walk_eq closed calls fun _ => Model.of_mem_views⟩

end Document

end Landscape
