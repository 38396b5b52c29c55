import Landscape.Proofs.Build.Implementations
import Landscape.Proofs.Build.Membership

/-!
# Finding by name, before and after

The second pass asks the index what a name stands for, and whoever has the
finished model asks its lists. Both get the same answer (`Document.build_names`).
For the registered model that is known (`Document.register_tracks`); links change
neither the index nor the names and ids in the lists, so it stays known to the
end. The answer is the thing with the greatest id, since the lists are searched
from the back and ids increase along them. So what a declaration is linked with
can be said in terms of the finished model, by the queries one can ask of it.
-/

namespace Landscape

/-! ## The greatest id -/

theorem findLast?_eq_getLast? {α : Type} (p : α → Bool) (xs : List α) :
    findLast? p xs = (xs.filter p).getLast? := by
  rw [findLast?, ← List.head?_filter, List.filter_reverse, List.head?_reverse]

namespace Model

/-- All things of a kind that have a name. -/
def idsNamed (m : Model) (kind : Kind) (name : String) : List (Id kind) :=
  ((m.entries kind).filter (·.1 = some name)).map Prod.snd

theorem idNamed?_eq_getLast? (m : Model) (kind : Kind) (name : String) :
    m.idNamed? kind name = (m.idsNamed kind name).getLast? := by
  rw [idNamed?_eq, findLast?_eq_getLast?, idsNamed, List.getLast?_map]

theorem Indexed.entries {m : Model} (h : m.Indexed) (kind : Kind) :
    Numbered Prod.snd (m.entries kind) := by
  have listed {α : Type} {id : α → Id kind} {xs : List α} (hxs : Numbered id xs)
      (name : α → Option String) : Numbered Prod.snd (xs.map fun x => (name x, id x)) := by
    intro i entry hentry
    rw [List.getElem?_map, Option.map_eq_some_iff] at hentry
    obtain ⟨x, hx, rfl⟩ := hentry
    exact hxs i x hx
  cases kind with
  | domain => exact listed h.domains _
  | subdomain => exact listed h.subdomains _
  | context => exact listed h.contexts _
  | map => exact listed h.maps _
  | useCase => exact listed h.useCases _

/-- A query finds the latest of the things that have the name. -/
theorem Indexed.idNamed?_eq_max? {m : Model} (h : m.Indexed) (kind : Kind) (name : String) :
    (m.idNamed? kind name).map Id.index = ((m.idsNamed kind name).map Id.index).max? := by
  have increasing : (m.idsNamed kind name).Pairwise fun a b => a.index ≤ b.index := by
    rw [idsNamed, List.pairwise_map]
    exact ((h.entries kind).pairwise_lt.filter _).imp Nat.le_of_lt
  have ascending : Ascending 0 (m.idsNamed kind name) :=
    ⟨fun id _ => Nat.zero_le id.index, increasing⟩
  rw [idNamed?_eq_getLast?]
  refine ascending.getLast?_eq_max? fun i => ?_
  rw [List.mem_map]
  constructor
  · rintro ⟨id, hid, rfl⟩
    exact hid
  · exact fun hid => ⟨_, hid, rfl⟩

/-- A map without a name is found by none. -/
theorem mapNamed?_ne {m : Model} (h : m.Indexed) {x : ContextMap} (hx : x ∈ m.maps)
    (hname : x.name = none) (name : String) : m.idNamed? .map name ≠ some x.id := by
  intro hfound
  obtain ⟨y, hy, hid⟩ := Option.map_eq_some_iff.1 hfound
  have hmem : y ∈ m.maps := List.mem_reverse.1 (List.mem_of_find?_eq_some hy)
  have hsame : y = x := by
    have hyx := h.maps.getElem?_of_mem hmem
    rw [hid, h.maps.getElem?_of_mem hx] at hyx
    exact (Option.some.inj hyx).symm
  have hnamed := List.find?_some hy
  rw [hsame, hname] at hnamed
  simp at hnamed

/-! ## Links -/

theorem entries_link {m : Model} (h : m.Indexed) (l : Link) (kind : Kind) :
    (m.link l).entries kind = m.entries kind := by
  rw [link_eq h]
  cases kind with
  | domain | useCase => rfl
  | subdomain | context | map => exact List.map_map

theorem entries_foldl_link {m : Model} (h : m.Indexed) (links : List Link) (kind : Kind) :
    (links.foldl link m).entries kind = m.entries kind := by
  induction links generalizing m with
  | nil => rfl
  | cons l rest ih => rw [List.foldl_cons, ih (link_indexed h l), entries_link h]

end Model

/-- Links leave the names alone, in the index and in the lists. -/
theorem Draft.Gains.tracks {draft draft' : Draft} {links : List Link}
    (h : draft.Gains links draft') (hindexed : draft.model.Indexed) (htracks : draft.Tracks) :
    draft'.Tracks := by
  intro kind name
  rw [h.names_eq, h.model_eq, Model.idNamed?_eq, Model.entries_foldl_link hindexed,
    ← Model.idNamed?_eq]
  exact htracks kind name

namespace Document

variable (d : Document) {policy : Policy}

theorem draft_tracks : (d.draft policy).Tracks :=
  d.draft_gains.tracks d.register_indexed d.register_tracks

theorem subdomainId?_eq (name : String) :
    d.subdomainId? name = (d.draft policy).model.idNamed? .subdomain name := by
  rw [← d.draft_tracks, d.draft_gains.names_eq, d.resolves_register.subdomain]

theorem contextId?_eq (name : String) :
    d.contextId? name = (d.draft policy).model.idNamed? .context name := by
  rw [← d.draft_tracks, d.draft_gains.names_eq, d.resolves_register.context]

/-- What a name stands for while links are made, however many are made already,
is what a query by that name finds in the built model. -/
theorem build_names (policy : Policy) (source : Option String) :
    let m := (d.build policy source).model
    let first := d.register policy
    (∀ n kind name, (((d.elements.take n).zip first.registered).foldl Draft.linkElement
        first).names.find? kind name = m.idNamed? kind name) ∧
      (∀ kind name, (m.idNamed? kind name).map Id.index =
        ((m.idsNamed kind name).map Id.index).max?) ∧
      m.contexts.map Context.implements =
        d.contexts.map (fun decl =>
          (decl.implements.filterMap fun r => m.idNamed? .subdomain r.name).eraseDups) ∧
      m.maps.map (fun x => (x.contexts, x.relationships)) =
        d.maps.map (fun decl =>
          let related := decl.relations.filterMap fun r =>
            (m.idNamed? .context r.left.name).bind fun left =>
              (m.idNamed? .context r.right.name).map fun right => r.toRelationship left right
          (((decl.mentions.filterMap fun r => m.idNamed? .context r.name) ++
            related.flatMap fun r => [r.left, r.right]).eraseDups, related)) ∧
      ∀ x ∈ m.maps, x.name = none → ∀ name, m.idNamed? .map name ≠ some x.id := by
  have indexed : (d.draft policy).model.Indexed := d.draft_closed.indexed
  rw [build]
  refine ⟨fun n kind name => ?_, indexed.idNamed?_eq_max?, ?_, ?_, fun x hx hname name =>
    Model.mapNamed?_ne indexed hx hname name⟩
  · have linked := Draft.linkElements_gains (d.linkable_register policy) 0 0 (d.elements.take n)
    rw [← d.draft_tracks, d.foldl_linkElement_take, linked.names_eq, d.draft_gains.names_eq]
  · simp only [← d.subdomainId?_eq]
    rw [d.draft_contexts]
    refine map_mapIdx ?_ _
    exact fun _ _ => rfl
  · simp only [← d.contextId?_eq, ← RelationDecl.resolveIn_eq]
    rw [d.draft_maps]
    refine map_mapIdx ?_ _
    exact fun _ _ => rfl

/-- Two domains that share a name, with subdomains that share one, the first of
them below another one. A context implements what is declared after it, and a
map without a name mentions it. -/
def sharedNames : Document :=
  let subdomain (name : String) (body : List Entry) : Entry :=
    .declaration (.subdomain name []) body .none
  ⟨[.domain ⟨"Shop", [subdomain "Stock" [subdomain "Orders" []]], .none⟩,
    .context ⟨"Sales", [⟨"Orders", .none⟩, ⟨"Sales", .none⟩], [], none, [], .none⟩,
    .map ⟨none, [.contains [⟨"Sales", .none⟩, ⟨"Orders", .none⟩]], [], .none⟩,
    .domain ⟨"Shop", [subdomain "Orders" []], .none⟩]⟩

theorem sharedNames_lookups :
    let m := (sharedNames.build ⟨.warn, .shadow⟩ none).model
    let first := sharedNames.register ⟨.warn, .shadow⟩
    m.idNamed? .domain "Shop" = some ⟨1⟩ ∧
      (((sharedNames.elements.take 2).zip first.registered).foldl Draft.linkElement
        first).names.find? .subdomain "Orders" = some ⟨2⟩ ∧
      m.contexts.map Context.implements = [[⟨2⟩]] ∧
      m.maps.map ContextMap.contexts = [[⟨0⟩]] ∧
      ∀ x ∈ m.maps, m.idNamed? .map "Sales" ≠ some x.id := by
  obtain ⟨found, -, -, -, anonymous⟩ := sharedNames.build_names ⟨.warn, .shadow⟩ none
  refine ⟨by decide, ?_, by decide, by decide, fun x hx => anonymous x hx ?_ "Sales"⟩
  · rw [found]
    decide
  · revert x
    decide

end Document

end Landscape
