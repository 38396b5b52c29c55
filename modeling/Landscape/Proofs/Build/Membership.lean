import Landscape.Proofs.Build.Shares

/-!
# Who belongs to which map

A context joins a map by a `contains` setting or as a side of a relationship.
Both put it into the members of the map and point it back at the map, so a
context is pointed at a map exactly if it is a member there
(`Link.joined_iff`). It may be a member of several maps. They are linked in
order, which makes the one it is left with the last of them.

Of a relationship the map keeps what its declaration says. A technology may be
stated there more than once, and the first one counts.
-/

namespace Landscape

open OrderedSet

/-- A context is pointed at a map by the links that make it a member. -/
theorem Link.joined_iff {l : Link} {c : Id .context} {x : Id .map} :
    l.joined? c = some x ↔ c ∈ l.joiners x := by
  cases l with
  | implementation context subdomain => simp [joined?, joiners]
  | member map context =>
      simp only [joined?, joiners, Option.ite_none_right_eq_some, Option.some.injEq,
        List.mem_ite_nil_right, List.mem_singleton]
      constructor
      · rintro ⟨rfl, rfl⟩
        exact ⟨rfl, rfl⟩
      · rintro ⟨rfl, rfl⟩
        exact ⟨rfl, rfl⟩
  | relationship map r =>
      simp only [joined?, joiners, Option.ite_none_right_eq_some, Option.some.injEq,
        List.mem_ite_nil_right, List.mem_cons, List.not_mem_nil, or_false]
      rw [and_comm, eq_comm (a := c), eq_comm (a := c)]

/-- A relationship is made exactly if both of its sides are found. -/
theorem RelationDecl.resolveIn_eq (r : RelationDecl) (d : Document) :
    r.resolveIn d = (d.contextId? r.left.name).bind fun left =>
      (d.contextId? r.right.name).map fun right => r.toRelationship left right := by
  rw [resolveIn]
  cases d.contextId? r.left.name <;> cases d.contextId? r.right.name <;> rfl

/-! ## The technology of a relationship -/

def RelationAttribute.statedTechnology? : RelationAttribute → Option String
  | technology value => some value
  | _ => none

/-- All technologies that the body of a relationship states, in their order. -/
def RelationDecl.technologies (decl : RelationDecl) : List String :=
  decl.attributes.filterMap RelationAttribute.statedTechnology?

/-- The builder takes the first of them. -/
theorem RelationDecl.technology?_eq_head? (decl : RelationDecl) :
    decl.technology? = decl.technologies.head? := by
  rw [technology?, technologies, List.head?_filterMap]
  refine congrArg (List.findSome? · decl.attributes) (funext fun a => ?_)
  cases a <;> rfl

/-! ## Members -/

/-- Of ids in order the last one is the greatest. -/
theorem Ascending.getLast?_eq_max? {kind : Kind} {first : Nat} {ids : List (Id kind)}
    (h : Ascending first ids) {indices : List Nat}
    (hmem : ∀ i, i ∈ indices ↔ ⟨i⟩ ∈ ids) : ids.getLast?.map Id.index = indices.max? := by
  cases hlast : ids.getLast? with
  | none =>
      obtain rfl := List.getLast?_eq_none_iff.1 hlast
      have empty : indices = [] := List.eq_nil_iff_forall_not_mem.2 fun i hi => by
        simpa using (hmem i).1 hi
      rw [empty]
      rfl
  | some id =>
      obtain ⟨before, rfl⟩ := List.getLast?_eq_some_iff.1 hlast
      symm
      refine List.max?_eq_some_iff.2 ⟨(hmem id.index).2 (by simp), fun i hi => ?_⟩
      have among := (hmem i).1 hi
      rw [List.mem_append, List.mem_singleton] at among
      rcases among with among | rfl
      · exact (List.pairwise_append.1 h.2).2.2 _ among id (by simp)
      · exact Nat.le_refl i

namespace Document

variable (d : Document) {policy : Policy}

/-- The maps that a context joins are those it is a member of. -/
theorem mem_joined_links_iff (policy : Policy) (c : Id .context) (id : Id .map) :
    id ∈ d.links.filterMap (·.joined? c) ↔
      ∃ x ∈ (d.draft policy).model.maps, c ∈ x.contexts ∧ x.id = id := by
  have symmetric : id ∈ d.links.filterMap (·.joined? c) ↔
      c ∈ d.links.flatMap (·.joiners id) := by
    simp only [List.mem_filterMap, List.mem_flatMap, Link.joined_iff]
  rw [symmetric, d.flatMap_joiners_links id.index, d.draft_maps]
  constructor
  · intro hc
    cases hdecl : d.maps[id.index]? with
    | none => simp [hdecl] at hc
    | some decl =>
        rw [hdecl] at hc
        obtain ⟨hi, rfl⟩ := List.getElem?_eq_some_iff.1 hdecl
        exact ⟨_, List.mem_mapIdx.2 ⟨id.index, hi, rfl⟩, List.mem_eraseDups.2 hc, rfl⟩
  · rintro ⟨x, hx, hc, rfl⟩
    obtain ⟨i, hi, rfl⟩ := List.mem_mapIdx.1 hx
    rw [MapDecl.toMap, List.getElem?_eq_getElem hi]
    exact List.mem_eraseDups.1 hc

theorem draft_map {c : Context} (hc : c ∈ (d.draft policy).model.contexts) :
    c.map.map Id.index =
      (((d.draft policy).model.maps.filter (c.id ∈ ·.contexts)).map fun x => x.id.index).max? := by
  rw [d.draft_contexts] at hc
  obtain ⟨i, hi, rfl⟩ := List.mem_mapIdx.1 hc
  refine (d.ascending_joined_links ⟨i⟩).getLast?_eq_max? fun j => ?_
  rw [d.mem_joined_links_iff policy, List.mem_map]
  simp only [List.mem_filter, decide_eq_true_eq]
  constructor
  · rintro ⟨x, ⟨hx, hmem⟩, rfl⟩
    exact ⟨x, hx, hmem, rfl⟩
  · rintro ⟨x, hx, hmem, hid⟩
    exact ⟨x, ⟨hx, hmem⟩, congrArg Id.index hid⟩

/-- In a built model the maps hold what their own declarations say, and every
context belongs to the last of the maps that it is a member of. -/
theorem build_maps (policy : Policy) (source : Option String) :
    let m := (d.build policy source).model
    m.contexts.map Context.name = d.contexts.map ContextDecl.name ∧
      m.maps.map (fun x => (x.name, x.relationships)) =
        d.maps.map (fun decl => (decl.name, decl.relations.filterMap fun r =>
          (d.contextId? r.left.name).bind fun left =>
            (d.contextId? r.right.name).map fun right =>
              { left, right, label := r.label, roles := r.roles, name := r.name,
                technology := r.technologies.head? })) ∧
      m.maps.map ContextMap.contexts =
        d.maps.map (fun decl =>
          ((decl.mentions.filterMap fun reference => d.contextId? reference.name) ++
            (decl.relationshipsIn d).flatMap fun r => [r.left, r.right]).eraseDups) ∧
      ∀ c ∈ m.contexts, c.map.map Id.index =
        ((m.maps.filter (c.id ∈ ·.contexts)).map fun x => x.id.index).max? := by
  refine ⟨?_, ?_, ?_, fun c hc => d.draft_map hc⟩
  · rw [build, d.draft_contexts]
    refine map_mapIdx ?_ _
    exact fun _ _ => rfl
  · rw [build, d.draft_maps]
    refine map_mapIdx ?_ _
    intro i decl
    have resolved := funext fun r => RelationDecl.resolveIn_eq r d
    simp only [← RelationDecl.technology?_eq_head?]
    exact Prod.ext rfl (congrArg (decl.relations.filterMap ·) resolved)
  · rw [build, d.draft_maps]
    refine map_mapIdx ?_ _
    exact fun _ _ => rfl

/-- Maps of one name. The first mentions what there is not, and relates a context
to itself by one technology and then another. -/
def crossedMaps : Document :=
  let context (name : String) : Element := .context ⟨name, [], [], none, [], .none⟩
  let since : RelationAttribute := .other ⟨"since", [.number "2"], .none⟩
  let relation (left right : String) (attributes : List RelationAttribute) : RelationDecl :=
    ⟨⟨left, [], [], .none⟩, ⟨some "Partnership", none⟩, ⟨right, [], [], .none⟩,
      none, attributes, .none⟩
  ⟨[.map ⟨some "All", [.contains [⟨"B", .none⟩, ⟨"Nothing", .none⟩]],
      [relation "C" "Nothing" [.technology "SOAP"],
        relation "A" "A" [since, .type "Own", .technology "REST", .technology "RMI"],
        relation "B" "A" [since]], .none⟩,
    context "A", context "B", context "C",
    .map ⟨some "All", [], [relation "B" "D" []], .none⟩,
    .map ⟨some "All", [.contains [⟨"A", .none⟩]], [], .none⟩]⟩

theorem crossedMaps_members :
    let m := (crossedMaps.build ⟨.warn, .shadow⟩ none).model
    m.maps.map ContextMap.contexts = [[⟨1⟩, ⟨0⟩], [], [⟨0⟩]] ∧
      m.maps.map (fun x => x.relationships.map fun r => (r.left, r.right, r.technology)) =
        [[(⟨0⟩, ⟨0⟩, some "REST"), (⟨1⟩, ⟨0⟩, none)], [], []] ∧
      m.contexts.map Context.map = [some ⟨2⟩, some ⟨0⟩, none] ∧
      ∀ c ∈ m.contexts, c.map.map Id.index =
        ((m.maps.filter (c.id ∈ ·.contexts)).map fun x => x.id.index).max? :=
  ⟨by decide, by decide, by decide, fun c hc => (crossedMaps.build_maps _ _).2.2.2 c hc⟩

end Document

end Landscape
