import Landscape.Proofs.Build.Closed
import Landscape.Proofs.Build.Shares

/-!
# Who implements what

A link between a context and a subdomain is written into both lists at once, so
the two lists say the same (`Link.mem_implementers_iff`). The list of a context
is its own declaration's, with every reference kept at its first occurrence. The
list of a subdomain is put together from all declarations, and since these come
one after the other it ends up in order.
-/

namespace Landscape

open OrderedSet

/-! ## Increasing ids -/

/-- Inserted in order, ids end up strictly increasing. -/
theorem pairwise_insertAll {kind : Kind} {ids set : List (Id kind)}
    (hset : set.Pairwise fun a b => a.index < b.index)
    (hids : (set ++ ids).Pairwise fun a b => a.index ≤ b.index) :
    (insertAll ids set).Pairwise fun a b => a.index < b.index := by
  induction ids generalizing set with
  | nil => exact hset
  | cons id ids ih =>
      rw [insertAll, List.foldl_cons, ← insertAll]
      by_cases hid : id ∈ set
      · rw [OrderedSet.insert, if_pos hid]
        refine ih hset (hids.sublist ?_)
        exact List.Sublist.append_left (List.sublist_cons_self id ids) set
      · rw [OrderedSet.insert, if_neg hid]
        refine ih ?_ (by rwa [List.append_assoc])
        rw [List.pairwise_append] at hids ⊢
        refine ⟨hset, List.pairwise_singleton _ _, fun a ha b hb => ?_⟩
        obtain rfl := List.mem_singleton.1 hb
        refine Nat.lt_of_le_of_ne (hids.2.2 a ha b (by simp)) fun heq => hid ?_
        have : a = b := by cases a; cases b; exact congrArg Id.mk heq
        rwa [← this]

theorem nodup_of_increasing {α : Type} {index : α → Nat} {xs : List α}
    (h : xs.Pairwise fun a b => index a < index b) : xs.Nodup :=
  h.imp fun hab heq => absurd hab (by rw [heq]; exact Nat.lt_irrefl _)

/-- Increasing lists are equal if they hold the same things. -/
theorem eq_of_increasing {α : Type} {index : α → Nat} {xs ys : List α}
    (hx : xs.Pairwise fun a b => index a < index b)
    (hy : ys.Pairwise fun a b => index a < index b) (h : ∀ x, x ∈ xs ↔ x ∈ ys) :
    xs = ys := by
  have perm : xs.Perm ys :=
    (List.perm_ext_iff_of_nodup (nodup_of_increasing hx) (nodup_of_increasing hy)).2 h
  refine perm.eq_of_pairwise (fun a b _ _ hab hba => ?_) hx hy
  exact absurd (Nat.lt_trans hab hba) (Nat.lt_irrefl _)

theorem Numbered.pairwise_lt {kind : Kind} {α : Type} {id : α → Id kind} {xs : List α}
    (h : Numbered id xs) : xs.Pairwise fun x y => (id x).index < (id y).index := by
  rw [List.pairwise_iff_getElem]
  intro i j hi hj hij
  rw [h i _ (List.getElem?_eq_getElem hi), h j _ (List.getElem?_eq_getElem hj)]
  exact hij

/-! ## Both sides of a link -/

/-- A context is linked with a subdomain if the subdomain is linked with it. -/
theorem Link.mem_implementers_iff {l : Link} {c : Id .context} {s : Id .subdomain} :
    c ∈ l.implementers s ↔ s ∈ l.implemented c := by
  cases l with
  | implementation context subdomain =>
      simp only [implementers, implemented, List.mem_ite_nil_right, List.mem_singleton]
      constructor
      · rintro ⟨rfl, rfl⟩
        exact ⟨rfl, rfl⟩
      · rintro ⟨rfl, rfl⟩
        exact ⟨rfl, rfl⟩
  | member map context => simp [implementers, implemented]
  | relationship map r => simp [implementers, implemented]

namespace Document

variable (d : Document) {policy : Policy}

/-- The contexts linked with a subdomain are those that list it. -/
theorem mem_implementers_links_iff (policy : Policy) (id : Id .context) (s : Id .subdomain) :
    id ∈ d.links.flatMap (·.implementers s) ↔
      ∃ c ∈ (d.draft policy).model.contexts, s ∈ c.implements ∧ c.id = id := by
  have symmetric : id ∈ d.links.flatMap (·.implementers s) ↔
      s ∈ d.links.flatMap (·.implemented id) := by
    simp only [List.mem_flatMap, Link.mem_implementers_iff]
  rw [symmetric, d.flatMap_implemented_links id.index, d.draft_contexts]
  constructor
  · intro hs
    cases hdecl : d.contexts[id.index]? with
    | none => simp [hdecl] at hs
    | some decl =>
        rw [hdecl] at hs
        obtain ⟨hi, rfl⟩ := List.getElem?_eq_some_iff.1 hdecl
        exact ⟨_, List.mem_mapIdx.2 ⟨id.index, hi, rfl⟩, List.mem_eraseDups.2 hs, rfl⟩
  · rintro ⟨c, hc, hs, rfl⟩
    obtain ⟨i, hi, rfl⟩ := List.mem_mapIdx.1 hc
    rw [ContextDecl.toContext, List.getElem?_eq_getElem hi]
    exact List.mem_eraseDups.1 hs

theorem draft_implementations {s : Subdomain} (hs : s ∈ (d.draft policy).model.subdomains) :
    s.implementations =
        ((d.draft policy).model.contexts.filter (s.id ∈ ·.implements)).map Context.id ∧
      s.implementations.Pairwise fun a b => a.index < b.index := by
  have increasing : s.implementations.Pairwise fun a b => a.index < b.index := by
    rw [d.draft_subdomains] at hs
    obtain ⟨s, -, rfl⟩ := List.mem_map.1 hs
    exact pairwise_insertAll .nil (d.ascending_implementers_links s.id).2
  refine ⟨eq_of_increasing increasing ?_ ?_, increasing⟩
  · rw [List.pairwise_map]
    exact d.draft_closed.indexed.contexts.pairwise_lt.filter _
  · intro id
    rw [d.draft_subdomains] at hs
    obtain ⟨s, -, rfl⟩ := List.mem_map.1 hs
    rw [mem_insertAll, d.mem_implementers_links_iff policy]
    simp [and_assoc]

/-- In a built model the contexts list what their own declarations say, and
the subdomains list exactly the contexts that list them. -/
theorem build_implements (policy : Policy) (source : Option String) :
    let m := (d.build policy source).model
    m.subdomains.map Subdomain.name = d.subdomains.map SubdomainDecl.name ∧
      m.contexts.map (fun c => (c.name, c.implements)) =
        d.contexts.map (fun decl => (decl.name,
          (decl.implements.filterMap fun reference =>
            d.subdomainId? reference.name).eraseDups)) ∧
      ∀ s ∈ m.subdomains,
        s.implementations = (m.contexts.filter (s.id ∈ ·.implements)).map Context.id ∧
          s.implementations.Pairwise fun a b => a.index < b.index := by
  refine ⟨?_, ?_, fun s hs => d.draft_implementations hs⟩
  · exact d.map_draft_subdomains fun _ _ _ _ => rfl
  · rw [build, d.draft_contexts]
    refine map_mapIdx ?_ _
    exact fun _ _ => rfl

/-- Two contexts of one name, each with subdomains declared after it. Of these
two have one name as well. -/
def namesakes : Document :=
  let context (references : List String) : Element :=
    .context ⟨"Sales", references.map (⟨·, .none⟩), [], none, [], .none⟩
  let subdomain (name : String) : Entry := .declaration (.subdomain name []) [] .none
  ⟨[context ["Orders", "Nothing", "Orders"], context ["Stock", "Orders"],
    .domain ⟨"Shop", [subdomain "Orders", subdomain "Stock", subdomain "Orders"], .none⟩]⟩

theorem namesakes_implementations :
    let m := (namesakes.build ⟨.warn, .shadow⟩ none).model
    m.contexts.map Context.implements = [[⟨2⟩], [⟨1⟩, ⟨2⟩]] ∧
      m.subdomains.map Subdomain.implementations = [[], [⟨1⟩], [⟨0⟩, ⟨1⟩]] ∧
      ∀ s ∈ m.subdomains,
        s.implementations = (m.contexts.filter (s.id ∈ ·.implements)).map Context.id :=
  ⟨by decide, by decide, fun s hs => ((namesakes.build_implements _ _).2.2 s hs).1⟩

end Document

end Landscape
