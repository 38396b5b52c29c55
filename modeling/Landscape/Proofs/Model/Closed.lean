import Landscape.Model.Lookup

/-!
# Closed models

What it means that nothing leads out of a model: ids are indices, every
subdomain is listed once and by its own domain, and whatever a link mentions is
there. Whether things are where they should be is said of positions, since two
things may well have one name.
-/

namespace Landscape

/-! ## Numbered lists

Every id is handed out as the length of the list that the new thing is put at
the end of, so a thing is found at the id that it carries. Changing the thing at
an id is then the same as changing, all over the list, whatever carries the id;
the second form is the one that inductions over many changes are done with. -/

/-- Each element of a list carries its own index. -/
def Numbered {kind : Kind} {α : Type} (id : α → Id kind) (xs : List α) : Prop :=
  ∀ i x, xs[i]? = some x → id x = ⟨i⟩

namespace Numbered

variable {kind : Kind} {α : Type} {id : α → Id kind} {xs : List α}

theorem nil : Numbered id [] := by
  intro i x h
  cases h

theorem append (h : Numbered id xs) {ys : List α}
    (hys : ∀ i y, ys[i]? = some y → id y = ⟨xs.length + i⟩) :
    Numbered id (xs ++ ys) := by
  intro i x hx
  rcases Nat.lt_or_ge i xs.length with hi | hi
  · rw [List.getElem?_append_left hi] at hx
    exact h i x hx
  · rw [List.getElem?_append_right hi] at hx
    rw [hys _ x hx]
    congr 1
    omega

theorem concat (h : Numbered id xs) {x : α} (hx : id x = ⟨xs.length⟩) :
    Numbered id (xs ++ [x]) := by
  refine h.append fun i y hy => ?_
  cases i with
  | zero =>
      obtain rfl := Option.some.inj hy
      exact hx
  | succ i => cases hy

theorem map (h : Numbered id xs) {f : α → α} (hf : ∀ x, id (f x) = id x) :
    Numbered id (xs.map f) := by
  intro i x hx
  rw [List.getElem?_map, Option.map_eq_some_iff] at hx
  obtain ⟨y, hy, rfl⟩ := hx
  rw [hf, h i y hy]

theorem index_lt (h : Numbered id xs) {x : α} (hx : x ∈ xs) :
    (id x).index < xs.length := by
  obtain ⟨i, hi, rfl⟩ := List.getElem_of_mem hx
  rw [h i _ (List.getElem?_eq_getElem hi)]
  exact hi

theorem getElem?_of_mem (h : Numbered id xs) {x : α} (hx : x ∈ xs) :
    xs[(id x).index]? = some x := by
  obtain ⟨i, hi⟩ := List.mem_iff_getElem?.1 hx
  rw [h i x hi, hi]

theorem modify_eq_map (h : Numbered id xs) (target : Id kind) (f : α → α) :
    xs.modify target.index f = xs.map fun x => if target = id x then f x else x := by
  apply List.ext_getElem?
  intro i
  rw [List.getElem?_modify, List.getElem?_map]
  cases hx : xs[i]? with
  | none => rfl
  | some x =>
      have hid := h i x hx
      by_cases ht : target.index = i
      · simp [hid, ← ht]
      · have hne : target ≠ ⟨i⟩ := fun heq => ht (by rw [heq])
        simp [hid, ht, hne]

end Numbered

/-! ## Nothing leads out -/

namespace Model

/-- Each thing of a model is at the index that it carries. -/
structure Indexed (m : Model) : Prop where
  domains : Numbered Domain.id m.domains
  subdomains : Numbered Subdomain.id m.subdomains
  contexts : Numbered Context.id m.contexts
  maps : Numbered ContextMap.id m.maps
  useCases : Numbered UseCase.id m.useCases

/-- Every subdomain belongs to the one domain that lists it. -/
structure Owned (m : Model) : Prop where
  domain_lt : ∀ s ∈ m.subdomains, s.domain.index < m.domains.length
  subdomains_lt : ∀ d ∈ m.domains, ∀ id ∈ d.subdomains, id.index < m.subdomains.length
  count_eq_one : ∀ s ∈ m.subdomains, (m.domains.flatMap Domain.subdomains).count s.id = 1
  mem_iff : ∀ s ∈ m.subdomains, ∀ d ∈ m.domains, s.id ∈ d.subdomains ↔ d.id = s.domain
  increasing : ∀ d ∈ m.domains, d.subdomains.Pairwise fun a b => a.index < b.index

/-- Every link leads to a thing of the model, and the sides of a relationship
are members of its map. -/
structure Linked (m : Model) : Prop where
  implementations_lt : ∀ s ∈ m.subdomains, ∀ id ∈ s.implementations,
    id.index < m.contexts.length
  implements_lt : ∀ c ∈ m.contexts, ∀ id ∈ c.implements, id.index < m.subdomains.length
  map_lt : ∀ c ∈ m.contexts, ∀ id, c.map = some id → id.index < m.maps.length
  members_lt : ∀ x ∈ m.maps, ∀ id ∈ x.contexts, id.index < m.contexts.length
  sides_lt : ∀ x ∈ m.maps, ∀ r ∈ x.relationships,
    r.left.index < m.contexts.length ∧ r.right.index < m.contexts.length
  sides_mem : ∀ x ∈ m.maps, ∀ r ∈ x.relationships,
    r.left ∈ x.contexts ∧ r.right ∈ x.contexts
  members_nodup : ∀ x ∈ m.maps, x.contexts.Nodup

/-- A model in which nothing leads out of the model. -/
structure Closed (m : Model) : Prop where
  indexed : m.Indexed
  owned : m.Owned
  linked : m.Linked

end Model

end Landscape
