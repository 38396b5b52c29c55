import Landscape.Proofs.Build.Linking

/-!
# One declaration's share of the links

Links carry the id of the context or the map that makes them, and that id is the
position of the declaration. So what the links say about the `i`-th context is
what the `i`-th declaration says, and the declarations of the same name have no
part in it. With this the lists in the final model are written down from the
document (`Document.draft_contexts`, `Document.draft_maps`).

Going the other way, from a subdomain to its contexts or from a context to its
maps, the ids come up in the order of the declarations (`Ascending`).
-/

namespace Landscape

open OrderedSet

/-! ## Positions -/

/-- Ids in order, all of them from `first` on. -/
def Ascending {kind : Kind} (first : Nat) (ids : List (Id kind)) : Prop :=
  (∀ id ∈ ids, first ≤ id.index) ∧ ids.Pairwise fun a b => a.index ≤ b.index

theorem Ascending.append {kind : Kind} {first : Nat} {own later : List (Id kind)}
    (hown : ∀ id ∈ own, id = ⟨first⟩) (hlater : Ascending (first + 1) later) :
    Ascending first (own ++ later) := by
  constructor
  · intro id hid
    rcases List.mem_append.1 hid with hid | hid
    · exact Nat.le_of_eq (congrArg Id.index (hown id hid)).symm
    · exact Nat.le_of_succ_le (hlater.1 id hid)
  · rw [List.pairwise_append]
    refine ⟨?_, hlater.2, ?_⟩
    · rw [List.eq_replicate_of_mem hown]
      exact List.pairwise_replicate.2 (.inr (Nat.le_refl first))
    · intro id hid id' hid'
      rw [hown id hid]
      exact Nat.le_of_succ_le (hlater.1 id' hid')

/-- What numbered elements say is in order if each of them speaks of its own number. -/
theorem ascending_flatMap_zipIdx {kind : Kind} {α : Type} {f : α × Nat → List (Id kind)}
    (hf : ∀ x i, ∀ id ∈ f (x, i), id = ⟨i⟩) (xs : List α) (first : Nat) :
    Ascending first ((xs.zipIdx first).flatMap f) := by
  induction xs generalizing first with
  | nil => exact ⟨nofun, .nil⟩
  | cons x xs ih =>
      rw [List.zipIdx_cons, List.flatMap_cons]
      exact .append (hf x first) (ih (first + 1))

theorem flatMap_zipIdx_of_lt {kind : Kind} {α β : Type} (f : α → List β) (xs : List α)
    {first : Nat} {id : Id kind} (h : id.index < first) :
    ((xs.zipIdx first).flatMap fun x => if ⟨x.2⟩ = id then f x.1 else []) = [] := by
  rw [List.flatMap_eq_nil_iff]
  intro x hx
  have hle := List.le_snd_of_mem_zipIdx hx
  rw [if_neg]
  rintro rfl
  exact absurd h (Nat.not_lt.2 hle)

/-- Of numbered elements only the one with the number has a say. -/
theorem flatMap_zipIdx (kind : Kind) {α β : Type} (f : α → List β) (xs : List α)
    (first i : Nat) :
    ((xs.zipIdx first).flatMap fun x =>
      if (⟨x.2⟩ : Id kind) = ⟨first + i⟩ then f x.1 else []) =
      (xs[i]?.map f).getD [] := by
  induction xs generalizing first i with
  | nil => rfl
  | cons x xs ih =>
      rw [List.zipIdx_cons, List.flatMap_cons]
      cases i with
      | zero =>
          have later := Nat.lt_succ_self first
          rw [Nat.add_zero, if_pos rfl, flatMap_zipIdx_of_lt f xs later, List.append_nil]
          rfl
      | succ i =>
          rw [if_neg (by simp), List.nil_append, ← Nat.succ_add_eq_add_succ, ih,
            List.getElem?_cons_succ]

theorem map_mapIdx {α β γ : Type} {f : Nat → α → β} {g : β → γ} {h : α → γ}
    (hg : ∀ i x, g (f i x) = h x) (xs : List α) : (xs.mapIdx f).map g = xs.map h := by
  apply List.ext_getElem?
  intro i
  simp only [List.getElem?_map, List.getElem?_mapIdx, Option.map_map]
  exact congrArg (Option.map · xs[i]?) (funext (hg i))

/-! ## The links of one declaration -/

namespace ContextDecl

variable (decl : ContextDecl) (d : Document)

theorem flatMap_implemented_linksIn (own context : Id .context) :
    (decl.linksIn d own).flatMap (·.implemented context) =
      if own = context then decl.implementedIn d else [] := by
  rw [linksIn, List.flatMap_map]
  by_cases h : own = context <;> simp [Link.implemented, h]

theorem eq_of_mem_implementers_linksIn (own : Id .context) (subdomain : Id .subdomain) :
    ∀ id ∈ (decl.linksIn d own).flatMap (·.implementers subdomain), id = own := by
  intro id hid
  simp only [linksIn, List.flatMap_map, List.mem_flatMap, Link.implementers,
    List.mem_ite_nil_right, List.mem_singleton] at hid
  obtain ⟨s, -, -, rfl⟩ := hid
  rfl

/-- The links of a context say nothing about maps. -/
theorem flatMap_linksIn_eq_nil {β : Type} {f : Link → List β}
    (hf : ∀ c s, f (.implementation c s) = []) (own : Id .context) :
    (decl.linksIn d own).flatMap f = [] := by
  rw [linksIn, List.flatMap_map, List.flatMap_eq_nil_iff]
  exact fun s _ => hf own s

end ContextDecl

namespace MapDecl

variable (decl : MapDecl) (d : Document)

/-- The contexts that join a map, as often as they are mentioned. -/
def joinersIn : List (Id .context) :=
  decl.containedIn d ++ (decl.relationshipsIn d).flatMap fun r => [r.left, r.right]

theorem flatMap_joiners_linksIn (own map : Id .map) :
    (decl.linksIn d own).flatMap (·.joiners map) =
      if own = map then decl.joinersIn d else [] := by
  rw [linksIn, List.flatMap_append, List.flatMap_map, List.flatMap_map, joinersIn]
  by_cases h : own = map <;> simp [Link.joiners, h]

theorem flatMap_relationships_linksIn (own map : Id .map) :
    (decl.linksIn d own).flatMap (·.relationships map) =
      if own = map then decl.relationshipsIn d else [] := by
  rw [linksIn, List.flatMap_append, List.flatMap_map, List.flatMap_map]
  by_cases h : own = map <;> simp [Link.relationships, h]

theorem eq_of_mem_joined_linksIn (own : Id .map) (context : Id .context) :
    ∀ id ∈ (decl.linksIn d own).flatMap fun l => (l.joined? context).toList,
      id = own := by
  intro id hid
  obtain ⟨l, hl, hid⟩ := List.mem_flatMap.1 hid
  rw [linksIn, List.mem_append, List.mem_map, List.mem_map] at hl
  obtain ⟨c, -, rfl⟩ | ⟨r, -, rfl⟩ := hl <;>
    · simp only [Link.joined?, Option.mem_toList, Option.ite_none_right_eq_some,
        Option.some.injEq] at hid
      exact hid.2.symm

/-- The links of a map say nothing about subdomains. -/
theorem flatMap_linksIn_eq_nil {β : Type} {f : Link → List β}
    (hmember : ∀ m c, f (.member m c) = [])
    (hrelationship : ∀ m r, f (.relationship m r) = []) (own : Id .map) :
    (decl.linksIn d own).flatMap f = [] := by
  rw [linksIn, List.flatMap_append, List.flatMap_map, List.flatMap_map,
    List.append_eq_nil_iff, List.flatMap_eq_nil_iff, List.flatMap_eq_nil_iff]
  exact ⟨fun c _ => hmember own c, fun r _ => hrelationship own r⟩

end MapDecl

/-! ## All links -/

namespace Document

variable (d : Document) {policy : Policy}

theorem flatMap_linksFrom_contexts {β : Type} {f : Link → List β}
    (hmap : ∀ (decl : MapDecl) own, (decl.linksIn d own).flatMap f = [])
    (contexts maps : Nat) (elements : List Element) :
    (d.linksFrom contexts maps elements).flatMap f =
      ((elements.filterMap Element.context?).zipIdx contexts).flatMap fun x =>
        (x.1.linksIn d ⟨x.2⟩).flatMap f := by
  induction elements generalizing contexts maps with
  | nil => rfl
  | cons element rest ih =>
      cases element with
      | context decl => rw [linksFrom, List.flatMap_append, ih]; rfl
      | map decl => rw [linksFrom, List.flatMap_append, ih, hmap]; rfl
      | domain decl => exact ih contexts maps
      | useCase decl => exact ih contexts maps
      | unknown decl => exact ih contexts maps

theorem flatMap_linksFrom_maps {β : Type} {f : Link → List β}
    (hcontext : ∀ (decl : ContextDecl) own, (decl.linksIn d own).flatMap f = [])
    (contexts maps : Nat) (elements : List Element) :
    (d.linksFrom contexts maps elements).flatMap f =
      ((elements.filterMap Element.map?).zipIdx maps).flatMap fun x =>
        (x.1.linksIn d ⟨x.2⟩).flatMap f := by
  induction elements generalizing contexts maps with
  | nil => rfl
  | cons element rest ih =>
      cases element with
      | context decl => rw [linksFrom, List.flatMap_append, ih, hcontext]; rfl
      | map decl => rw [linksFrom, List.flatMap_append, ih]; rfl
      | domain decl => exact ih contexts maps
      | useCase decl => exact ih contexts maps
      | unknown decl => exact ih contexts maps

/-- What the links say of a context by its id is what its declaration says. -/
theorem flatMap_links_context {β : Type} {f : Id .context → Link → List β}
    {share : ContextDecl → List β}
    (hmap : ∀ (decl : MapDecl) own id, (decl.linksIn d own).flatMap (f id) = [])
    (hcontext : ∀ (decl : ContextDecl) own id,
      (decl.linksIn d own).flatMap (f id) = if own = id then share decl else []) (i : Nat) :
    d.links.flatMap (f ⟨i⟩) = (d.contexts[i]?.map share).getD [] := by
  have own := flatMap_zipIdx .context share d.contexts 0 i
  rw [Nat.zero_add] at own
  rw [links, d.flatMap_linksFrom_contexts fun decl own => hmap decl own ⟨i⟩, ← own]
  simp only [hcontext]
  rfl

/-- What the links say of a map by its id is what its declaration says. -/
theorem flatMap_links_map {β : Type} {f : Id .map → Link → List β}
    {share : MapDecl → List β}
    (hcontext : ∀ (decl : ContextDecl) own id, (decl.linksIn d own).flatMap (f id) = [])
    (hmap : ∀ (decl : MapDecl) own id,
      (decl.linksIn d own).flatMap (f id) = if own = id then share decl else []) (i : Nat) :
    d.links.flatMap (f ⟨i⟩) = (d.maps[i]?.map share).getD [] := by
  have own := flatMap_zipIdx .map share d.maps 0 i
  rw [Nat.zero_add] at own
  rw [links, d.flatMap_linksFrom_maps fun decl own => hcontext decl own ⟨i⟩, ← own]
  simp only [hmap]
  rfl

theorem flatMap_implemented_links (i : Nat) :
    d.links.flatMap (·.implemented ⟨i⟩) =
      (d.contexts[i]?.map (·.implementedIn d)).getD [] :=
  d.flatMap_links_context
    (fun decl own _ => decl.flatMap_linksIn_eq_nil d (fun _ _ => rfl) (fun _ _ => rfl) own)
    (fun decl => decl.flatMap_implemented_linksIn d) i

theorem flatMap_joiners_links (i : Nat) :
    d.links.flatMap (·.joiners ⟨i⟩) = (d.maps[i]?.map (·.joinersIn d)).getD [] :=
  d.flatMap_links_map
    (fun decl own _ => decl.flatMap_linksIn_eq_nil d (fun _ _ => rfl) own)
    (fun decl => decl.flatMap_joiners_linksIn d) i

theorem flatMap_relationships_links (i : Nat) :
    d.links.flatMap (·.relationships ⟨i⟩) =
      (d.maps[i]?.map (·.relationshipsIn d)).getD [] :=
  d.flatMap_links_map
    (fun decl own _ => decl.flatMap_linksIn_eq_nil d (fun _ _ => rfl) own)
    (fun decl => decl.flatMap_relationships_linksIn d) i

theorem ascending_implementers_links (subdomain : Id .subdomain) :
    Ascending 0 (d.links.flatMap (·.implementers subdomain)) := by
  rw [links, d.flatMap_linksFrom_contexts fun decl own =>
    decl.flatMap_linksIn_eq_nil d (fun _ _ => rfl) (fun _ _ => rfl) own]
  exact ascending_flatMap_zipIdx
    (fun decl i => decl.eq_of_mem_implementers_linksIn d ⟨i⟩ subdomain) _ 0

theorem ascending_joined_links (context : Id .context) :
    Ascending 0 (d.links.filterMap (·.joined? context)) := by
  rw [← List.map_id (d.links.filterMap _), ← flatMap_toList_map]
  simp only [List.map_id]
  rw [links, d.flatMap_linksFrom_maps fun decl own =>
    decl.flatMap_linksIn_eq_nil d (fun _ _ => rfl) own]
  exact ascending_flatMap_zipIdx
    (fun decl i => decl.eq_of_mem_joined_linksIn d ⟨i⟩ context) _ 0

/-! ## The final lists -/

theorem draft_domains : (d.draft policy).model.domains = (d.register policy).model.domains := by
  rw [d.draft_model, Model.foldl_link d.register_indexed]

theorem draft_useCases :
    (d.draft policy).model.useCases = d.useCases.mapIdx fun i decl => decl.toUseCase ⟨i⟩ := by
  rw [d.draft_model, Model.foldl_link d.register_indexed, d.useCases_register]

theorem draft_subdomains :
    (d.draft policy).model.subdomains =
      (d.register policy).model.subdomains.map fun s =>
        { s with
          implementations := insertAll (d.links.flatMap (·.implementers s.id)) [] } := by
  rw [d.draft_model, Model.foldl_link d.register_indexed]
  refine List.map_congr_left fun s hs => ?_
  rw [d.subdomains_register] at hs
  obtain ⟨i, hi, rfl⟩ := List.mem_mapIdx.1 hs
  exact Subdomain.foldl_link d.links _

/-- What a declaration alone says of a subdomain, whatever its owner and its links. -/
theorem map_draft_subdomains {β : Type} {field : Subdomain → β} {value : SubdomainDecl → β}
    (h : ∀ decl id domain implementations,
      field { SubdomainDecl.toSubdomain decl id domain with implementations } = value decl) :
    (d.draft policy).model.subdomains.map field = d.subdomains.map value := by
  rw [d.draft_subdomains, List.map_map, d.subdomains_register, subdomains,
    ← map_fst_ownedSubdomains 0, List.map_map]
  exact map_mapIdx (fun i s => h s.1 ⟨i⟩ s.2 _) _

theorem draft_contexts :
    (d.draft policy).model.contexts =
      d.contexts.mapIdx fun i decl =>
        { decl.toContext ⟨i⟩ with
          implements := (decl.implementedIn d).eraseDups
          map := (d.links.filterMap (·.joined? ⟨i⟩)).getLast? } := by
  rw [d.draft_model, Model.foldl_link d.register_indexed]
  apply List.ext_getElem?
  intro i
  rw [d.contexts_register, List.getElem?_map, List.getElem?_mapIdx, List.getElem?_mapIdx]
  cases hdecl : d.contexts[i]? with
  | none => rfl
  | some decl =>
      have implemented : d.links.flatMap (·.implemented ⟨i⟩) = decl.implementedIn d := by
        rw [flatMap_implemented_links, hdecl]
        rfl
      rw [Option.map_some, Option.map_some, Option.map_some, Context.foldl_link]
      simp only [ContextDecl.toContext, implemented, insertAll_nil_eq_eraseDups,
        Option.or_none]

theorem draft_maps :
    (d.draft policy).model.maps =
      d.maps.mapIdx fun i decl =>
        { decl.toMap ⟨i⟩ with
          contexts := (decl.joinersIn d).eraseDups
          relationships := decl.relationshipsIn d } := by
  rw [d.draft_model, Model.foldl_link d.register_indexed]
  apply List.ext_getElem?
  intro i
  rw [d.maps_register, List.getElem?_map, List.getElem?_mapIdx, List.getElem?_mapIdx]
  cases hdecl : d.maps[i]? with
  | none => rfl
  | some decl =>
      have joiners : d.links.flatMap (·.joiners ⟨i⟩) = decl.joinersIn d := by
        rw [flatMap_joiners_links, hdecl]
        rfl
      have relationships :
          d.links.flatMap (·.relationships ⟨i⟩) = decl.relationshipsIn d := by
        rw [flatMap_relationships_links, hdecl]
        rfl
      rw [Option.map_some, Option.map_some, Option.map_some, ContextMap.foldl_link]
      simp only [MapDecl.toMap, joiners, relationships, insertAll_nil_eq_eraseDups,
        List.nil_append]

end Document

end Landscape
