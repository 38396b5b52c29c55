import Landscape.Proofs.Build.Lookup
import Mathlib.Data.List.Basic

/-!
# Finding by name within a scope

A name can be looked up in the whole model or in a part of it, the subdomains of
one domain or the contexts that implement one subdomain. The model answers with
the last declaration of the name, since its lists are searched from the back. A
part of it is searched along the ids that a thing holds. These are in order, so
what they lead to are the things of the model that belong to the part, in the
order in which they were declared (`Model.subdomainsOf_eq`,
`Model.implementationsOf_eq`), and the answer is the first of the name
(`FindsFirst`).

The two answers are to different questions wherever a name was declared twice in
one part. The first declaration is the last one as well just if there is no other
(`eq_singleton_iff`), so that is when the two lookups agree.
-/

namespace Landscape

/-! ## Increasing lists -/

section

variable {kind : Kind} {α : Type} {id : α → Id kind} {xs : List α}

/-- Ids in order lead to things in the order of the list that these are in. -/
theorem Numbered.filterMap_getElem?_eq_filter (h : Numbered id xs) {ids : List (Id kind)}
    (hids : ids.Pairwise fun a b => a.index < b.index) :
    (ids.filterMap fun i => xs[i.index]?) = xs.filter (id · ∈ ids) := by
  refine eq_of_increasing ?_ (h.pairwise_lt.filter _) fun x => ?_
  · refine hids.filterMap _ fun i j hij x hx y hy => ?_
    rw [h _ _ hx, h _ _ hy]
    exact hij
  · rw [List.mem_filterMap, List.mem_filter, decide_eq_true_eq]
    constructor
    · rintro ⟨i, hi, hx⟩
      exact ⟨List.mem_of_getElem? hx, h _ _ hx ▸ hi⟩
    · rintro ⟨hx, hi⟩
      exact ⟨id x, hi, h.getElem?_of_mem hx⟩

variable (hxs : xs.Pairwise fun x y => (id x).index < (id y).index)
include hxs

/-- What is first and last in an increasing list is alone in it. -/
theorem eq_singleton_iff {x : α} : xs = [x] ↔ xs.head? = some x ∧ xs.getLast? = some x := by
  refine ⟨by rintro rfl; exact ⟨rfl, rfl⟩, fun ⟨hhead, hlast⟩ => ?_⟩
  obtain ⟨others, rfl⟩ := List.head?_eq_some_iff.1 hhead
  rcases List.eq_nil_or_concat others with rfl | ⟨middle, y, rfl⟩
  · rfl
  · rw [List.concat_eq_append, ← List.cons_append, List.getLast?_concat] at hlast
    obtain rfl := Option.some.inj hlast
    exact absurd (List.rel_of_pairwise_cons hxs (by simp)) (Nat.lt_irrefl _)

/-- The first thing of an increasing list has the greatest id only if it is
alone. -/
theorem greatest_iff_eq_singleton {x : α} (hhead : xs.head? = some x) :
    (∀ y ∈ xs, (id y).index ≤ (id x).index) ↔ xs = [x] := by
  refine ⟨fun hle => (eq_singleton_iff hxs).2 ⟨hhead, ?_⟩, by rintro rfl; simp⟩
  obtain ⟨others, rfl⟩ := List.head?_eq_some_iff.1 hhead
  cases others with
  | nil => rfl
  | cons y others =>
      have hlt := List.rel_of_pairwise_cons hxs (List.mem_cons_self (a := y))
      exact absurd (hle y (by simp)) (Nat.not_le_of_lt hlt)

end

/-! ## Lookups -/

/-- A lookup finds the first of its candidates, and these are in the order of
their ids. It is the last one too just if there is no other. -/
structure FindsFirst {kind : Kind} {α : Type} (id : α → Id kind) (candidates : List α)
    (found : Option α) : Prop where
  increasing : candidates.Pairwise fun x y => (id x).index < (id y).index
  found_eq : found = candidates.head?
  greatest_iff : ∀ x ∈ found,
    (∀ y ∈ candidates, (id y).index ≤ (id x).index) ↔ candidates = [x]

section

variable {kind : Kind} {α : Type} {id : α → Id kind} {xs : List α} {p q : α → Bool}

/-- A search through the part of a list that satisfies `q`. -/
theorem Numbered.findsFirst (h : Numbered id xs) :
    FindsFirst id (xs.filter fun x => q x && p x) ((xs.filter q).find? p) := by
  have increasing := h.pairwise_lt.filter fun x => q x && p x
  have found : (xs.filter q).find? p = (xs.filter fun x => q x && p x).head? := by
    rw [← List.head?_filter, List.filter_filter]
    simp only [Bool.and_comm]
  exact ⟨increasing, found, fun x hx => greatest_iff_eq_singleton increasing (found ▸ hx)⟩

/-- If the last of all is among the candidates, it is the last of them. -/
theorem getLast?_filter_of_findLast? {x : α} (h : findLast? p xs = some x) (hx : q x) :
    (xs.filter fun x => q x && p x).getLast? = some x := by
  rw [findLast?_eq_getLast?] at h
  obtain ⟨before, hbefore⟩ := List.getLast?_eq_some_iff.1 h
  have split : (xs.filter fun x => q x && p x) = before.filter q ++ [x] := by
    rw [← List.filter_filter, hbefore, List.filter_append, List.filter_cons_of_pos hx]
    rfl
  rw [split, List.getLast?_concat]

/-- The first of the candidates is the last of all just if it is the only
candidate. -/
theorem FindsFirst.eq_findLast?_iff {found : Option α}
    (h : FindsFirst id (xs.filter fun x => q x && p x) found) {x : α}
    (hlast : findLast? p xs = some x) (hx : q x) :
    found = some x ↔ (xs.filter fun x => q x && p x) = [x] := by
  rw [eq_singleton_iff h.increasing, ← h.found_eq]
  exact (and_iff_left (getLast?_filter_of_findLast? hlast hx)).symm

end

namespace Model

variable {m : Model}

/-- The subdomains of a domain that have a name. -/
def subdomainsNamedIn (m : Model) (x : Domain) (name : String) : List Subdomain :=
  m.subdomains.filter fun s => s.domain = x.id && s.name = name

/-- The contexts of a name that implement a subdomain. -/
def implementationsNamed (m : Model) (s : Subdomain) (name : String) : List Context :=
  m.contexts.filter fun c => s.id ∈ c.implements && c.name = name

/-- The subdomains of a domain are those that belong to it, in order. -/
theorem subdomainsOf_eq (hindexed : m.Indexed) (howned : m.Owned) {x : Domain}
    (hx : x ∈ m.domains) : m.subdomainsOf x = m.subdomains.filter (·.domain = x.id) := by
  rw [subdomainsOf,
    hindexed.subdomains.filterMap_getElem?_eq_filter (howned.increasing x hx)]
  refine List.filter_congr fun s hs => ?_
  simp only [howned.mem_iff s hs x hx, eq_comm]

theorem implementationsOf_eq (hindexed : m.Indexed) {s : Subdomain}
    (hs : s.implementations = (m.contexts.filter (s.id ∈ ·.implements)).map Context.id) :
    m.implementationsOf s = m.contexts.filter (s.id ∈ ·.implements) := by
  rw [implementationsOf, hs, List.filterMap_map]
  refine (List.filterMap_congr fun c hc => ?_).trans List.filterMap_some
  exact hindexed.contexts.getElem?_of_mem (List.mem_of_mem_filter hc)

end Model

namespace Document

variable (d : Document)

/-- In a built model a lookup by name within a domain or a subdomain finds the
first declaration of the name there. It finds what the lookup in the whole model
finds, where that is in the domain or implements the subdomain, just if no other
declaration there has the name. -/
theorem build_scopedNames (policy : Policy) (source : Option String) :
    let m := (d.build policy source).model
    (∀ x ∈ m.domains, ∀ name,
      FindsFirst Subdomain.id (m.subdomainsNamedIn x name) (m.subdomainOf? x name) ∧
        ∀ s ∈ m.subdomainNamed? name, s.domain = x.id →
          (m.subdomainOf? x name = some s ↔ m.subdomainsNamedIn x name = [s])) ∧
      ∀ s ∈ m.subdomains, ∀ name,
        FindsFirst Context.id (m.implementationsNamed s name) (m.implementationOf? s name) ∧
          ∀ c ∈ m.contextNamed? name, s.id ∈ c.implements →
            (m.implementationOf? s name = some c ↔ m.implementationsNamed s name = [c]) := by
  intro m
  obtain ⟨hindexed, howned, -⟩ : m.Closed := d.draft_closed
  constructor
  · intro x hx name
    have first : FindsFirst Subdomain.id (m.subdomainsNamedIn x name) (m.subdomainOf? x name) := by
      rw [Model.subdomainOf?, Model.subdomainsOf_eq hindexed howned hx]
      exact hindexed.subdomains.findsFirst
    exact ⟨first, fun s hs hdomain => first.eq_findLast?_iff hs (decide_eq_true hdomain)⟩
  · intro s hs name
    have first : FindsFirst Context.id (m.implementationsNamed s name)
        (m.implementationOf? s name) := by
      rw [Model.implementationOf?,
        Model.implementationsOf_eq hindexed (d.draft_implementations hs).1]
      exact hindexed.contexts.findsFirst
    exact ⟨first, fun c hc himplements => first.eq_findLast?_iff hc (decide_eq_true himplements)⟩

/-- Two subdomains of one domain have the name `Orders`, and two contexts of the
name `Sales` implement the second of them. -/
theorem namesakes_scopedNames :
    let m := (namesakes.build ⟨.warn, .shadow⟩ none).model
    ∃ x ∈ m.domains, ∃ s ∈ m.subdomains,
      (m.subdomainNamed? "Orders").map Subdomain.id = some ⟨2⟩ ∧
        (m.subdomainOf? x "Orders").map Subdomain.id = some ⟨0⟩ ∧
        m.subdomainOf? x "Stock" = m.subdomainNamed? "Stock" ∧
        (m.contextNamed? "Sales").map Context.id = some ⟨1⟩ ∧
        (m.implementationOf? s "Sales").map Context.id = some ⟨0⟩ := by
  intro m
  obtain ⟨within, implementing⟩ := namesakes.build_scopedNames ⟨.warn, .shadow⟩ none
  have hdomain : m.domains[0] ∈ m.domains := List.getElem_mem _
  have hsubdomain : m.subdomains[2] ∈ m.subdomains := List.getElem_mem _
  refine ⟨_, hdomain, _, hsubdomain, by decide, ?_, ?_, by decide, ?_⟩
  · rw [(within _ hdomain "Orders").1.found_eq]
    decide
  · have hstock : m.subdomainNamed? "Stock" = some m.subdomains[1] := by decide
    rw [hstock, (within _ hdomain "Stock").2 _ hstock (by decide)]
    decide
  · rw [(implementing _ hsubdomain "Sales").1.found_eq]
    decide

/-- Within a domain or a subdomain it is not the last declaration of a name that
is found. -/
theorem not_latest_in_scope :
    (¬∀ (d : Document) (policy : Policy) (source : Option String),
      let m := (d.build policy source).model
      ∀ x ∈ m.domains, ∀ name, ∀ s ∈ m.subdomainOf? x name,
        ∀ s' ∈ m.subdomainsNamedIn x name, s'.id.index ≤ s.id.index) ∧
      ¬∀ (d : Document) (policy : Policy) (source : Option String),
        let m := (d.build policy source).model
        ∀ s ∈ m.subdomains, ∀ name, ∀ c ∈ m.implementationOf? s name,
          ∀ c' ∈ m.implementationsNamed s name, c'.id.index ≤ c.id.index := by
  constructor
  · intro h
    have last := h namesakes ⟨.warn, .shadow⟩ none _ (List.getElem_mem (by decide : 0 < 1))
      "Orders" _ rfl _ (List.getElem_mem (by decide : 1 < 2))
    revert last
    decide
  · intro h
    have last := h namesakes ⟨.warn, .shadow⟩ none _ (List.getElem_mem (by decide : 2 < 3))
      "Sales" _ rfl _ (List.getElem_mem (by decide : 1 < 2))
    revert last
    decide

end Document

end Landscape
