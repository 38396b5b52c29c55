import Landscape.Document.Node
import Mathlib.Data.List.Basic

/-!
# The nodes below a node, in the order of reading

A place below a node says which child to go to, level by level. Places are
ordered like words, so a node stands before what is nested in it and siblings
stand in order.

The list of descendants is put together from the lists of the parts, and the
places get lost on the way. `Node.collects_descendants` gives them back: some
increasing list of places has them all, and the descendants are the nodes at
these places. So none is left out, and none is listed twice because it lies
below several others.

A search that goes from child to child and leaves a mark at every node it has
been at finds the same nodes (`Node.search_eq`). A mark is the kind of a node
and its address, and a node and the first thing in it may share the address.
What matters is that marks are never mistaken: all that was marked lies before
the place where the search is.
-/

namespace Landscape

namespace Node

/-! ## Places -/

/-- The node at a place below a node. -/
def at? (n : Node) : List Nat → Option Node
  | [] => some n
  | i :: rest => n.children[i]?.bind (·.at? rest)

theorem at?_append (n : Node) (place rest : List Nat) :
    n.at? (place ++ rest) = (n.at? place).bind (·.at? rest) := by
  induction place generalizing n with
  | nil => rfl
  | cons i place ih =>
      rw [List.cons_append, at?, at?, Option.bind_assoc]
      exact congrArg _ (funext fun c => ih c)

/-- Whether a list holds what is picked from the nodes below a node, in the
order of their places and from each place once. -/
def Collects {α : Type} (n : Node) (pick : List Nat → Node → Option α) (found : List α) :
    Prop :=
  ∃ places : List (List Nat),
    places.Pairwise (· < ·) ∧
      (∀ p, p ∈ places ↔ p ≠ [] ∧ ∃ x a, n.at? p = some x ∧ pick p x = some a) ∧
      found = places.filterMap fun p => (n.at? p).bind (pick p)

/-! ## Induction -/

/-- That something holds of a node if it holds of its children. -/
def Hereditary (motive : Node → Prop) : Prop :=
  ∀ n, (∀ c ∈ n.children, motive c) → motive n

theorem Hereditary.of_entity {motive : Node → Prop} (h : Hereditary motive)
    (entity : BareEntity) : motive (.entry (.entity entity)) :=
  h _ nofun

mutual

theorem Hereditary.of_entry {motive : Node → Prop} (h : Hereditary motive) (e : Entry) :
    motive (.entry e) := by
  cases e with
  | setting scope a => exact h _ nofun
  | entity entity => exact h.of_entity entity
  | unknownLine keyword words span => exact h _ nofun
  | declaration heading body span =>
      refine h _ fun c hc => ?_
      obtain ⟨e, he, rfl⟩ := List.mem_map.1 hc
      rcases List.mem_append.1 he with he | he
      · exact Hereditary.of_body h body e (List.mem_of_mem_filter he)
      · cases heading with
        | subdomain name entities =>
            obtain ⟨entity, -, rfl⟩ := List.mem_map.1 he
            exact h.of_entity entity
        | object kind name | group kind name | unknown keyword words => cases he

theorem Hereditary.of_body {motive : Node → Prop} (h : Hereditary motive)
    (body : List Entry) : ∀ e ∈ body, motive (.entry e) := by
  cases body with
  | nil => exact nofun
  | cons entry rest =>
      exact List.forall_mem_cons.2 ⟨Hereditary.of_entry h entry, Hereditary.of_body h rest⟩

end

theorem Hereditary.of_element {motive : Node → Prop} (h : Hereditary motive) (e : Element) :
    motive (.element e) := by
  refine h _ fun c hc => ?_
  obtain ⟨entry, -, rfl⟩ := List.mem_map.1 hc
  exact h.of_entry entry

/-- Then it holds of all nodes. -/
theorem Hereditary.holds {motive : Node → Prop} (h : Hereditary motive) (n : Node) :
    motive n := by
  cases n with
  | entry e => exact h.of_entry e
  | element e => exact h.of_element e
  | document d =>
      refine h _ fun c hc => ?_
      obtain ⟨e, -, rfl⟩ := List.mem_map.1 hc
      exact h.of_element e

/-! ## Descendants -/

theorem map_declarations {e : Entry} (he : e.isSetting = false) :
    e.declarations.map entry = .entry e :: (Node.entry e).descendants := by
  cases e with
  | setting scope a => cases he
  | entity entity | unknownLine keyword words span | declaration heading body span =>
      rw [descendants, Entry.declarations]
      rfl

theorem map_declarationsOf (body : List Entry) :
    (declarationsOf body).map entry =
      ((body.filter (!·.isSetting)).map entry).flatMap fun c => c :: c.descendants := by
  induction body with
  | nil => rw [declarationsOf]; rfl
  | cons e rest ih =>
      rw [declarationsOf, List.map_append, ih]
      cases he : e.isSetting with
      | false => simp [he, map_declarations he]
      | true =>
          cases e with
          | setting scope a => simp [Entry.declarations, Entry.isSetting]
          | _ => cases he

/-- The nodes below a node are its children, each with the nodes below it. -/
theorem descendants_eq (n : Node) :
    n.descendants = n.children.flatMap fun c => c :: c.descendants := by
  cases n with
  | document d => rw [descendants, children, List.flatMap_map]; rfl
  | element e => exact map_declarationsOf e.body
  | entry e =>
      cases e with
      | setting scope a | entity entity | unknownLine keyword words span =>
          simp [descendants, children, Entry.declarations]
      | declaration heading body span =>
          have leaves : heading.ownEntities.map entry =
              (heading.ownEntities.map entry).flatMap fun c => c :: c.descendants := by
            cases heading with
            | subdomain name entities =>
                simp only [Heading.ownEntities, List.flatMap_map, List.map_map]
                exact List.map_eq_flatMap
            | object kind name | group kind name | unknown keyword words => rfl
          rw [descendants, Entry.declarations, children, List.drop_one, List.tail_cons,
            List.map_append, List.map_append, List.flatMap_append, map_declarationsOf, ← leaves]

/-! ## Descendants and their places -/

/-- Whether nodes are listed with their places, in order, such that these are the
places that some condition holds of. -/
structure Lists (placed : List (List Nat × Node)) (isAt : List Nat → Node → Prop) : Prop where
  increasing : placed.Pairwise fun a b => a.1 < b.1
  mem_iff : ∀ p x, (p, x) ∈ placed ↔ isAt p x

/-- Listed from a node on, if the nodes below it are listed. -/
theorem Lists.cons {n : Node} {placed : List (List Nat × Node)}
    (h : Lists placed fun p x => p ≠ [] ∧ n.at? p = some x) :
    Lists (([], n) :: placed) fun p x => n.at? p = some x where
  increasing := by
    refine List.pairwise_cons.2 ⟨fun ⟨p, x⟩ hmem => ?_, h.increasing⟩
    obtain ⟨i, rest, rfl⟩ := List.exists_cons_of_ne_nil ((h.mem_iff p x).1 hmem).1
    exact List.nil_lt_cons i rest
  mem_iff p x := by
    rw [List.mem_cons, h.mem_iff]
    cases p with
    | nil => simp [at?, eq_comm]
    | cons i rest => simp

/-- The children from one on, if each is listed with what is below it. The first
number of a place is that of the child. -/
theorem exists_lists_children {cs : List Node}
    (h : ∀ c ∈ cs, ∃ placed, Lists placed (fun p x => p ≠ [] ∧ c.at? p = some x) ∧
      placed.map Prod.snd = c.descendants) (first : Nat) :
    ∃ placed, Lists placed (fun p x => ∃ i c rest,
        p = (first + i) :: rest ∧ cs[i]? = some c ∧ c.at? rest = some x) ∧
      placed.map (fun a => (a.1.head?, a.2)) =
        (cs.zipIdx first).flatMap fun c => (c.1 :: c.1.descendants).map (some c.2, ·) := by
  induction cs generalizing first with
  | nil => exact ⟨[], ⟨.nil, by simp⟩, rfl⟩
  | cons c cs ih =>
      rw [List.forall_mem_cons] at h
      obtain ⟨⟨below, hbelow, hnodes⟩, hlater⟩ := h
      obtain ⟨later, hplaced, hnodes'⟩ := ih hlater (first + 1)
      have own := hbelow.cons
      refine ⟨(([], c) :: below).map (fun a => (first :: a.1, a.2)) ++ later, ⟨?_, ?_⟩, ?_⟩
      · refine List.pairwise_append.2 ⟨?_, hplaced.increasing, ?_⟩
        · rw [List.pairwise_map]
          exact own.increasing.imp fun hlt => List.cons_lt_cons_iff.2 (.inr ⟨rfl, hlt⟩)
        · intro a ha b hb
          obtain ⟨a, -, rfl⟩ := List.mem_map.1 ha
          obtain ⟨i, -, rest, hp, -⟩ := (hplaced.mem_iff b.1 b.2).1 hb
          rw [hp]
          exact List.cons_lt_cons_iff.2 (.inl (by omega))
      · intro p x
        rw [List.mem_append, hplaced.mem_iff, List.mem_map]
        constructor
        · rintro (⟨⟨rest, x⟩, ha, heq⟩ | ⟨i, c', rest, rfl, hc', hx⟩)
          · obtain ⟨rfl, rfl⟩ := Prod.mk.inj heq
            exact ⟨0, c, rest, rfl, rfl, (own.mem_iff rest x).1 ha⟩
          · exact ⟨i + 1, c', rest, by rw [Nat.add_right_comm, Nat.add_assoc], hc', hx⟩
        · rintro ⟨i, c', rest, rfl, hc', hx⟩
          cases i with
          | zero =>
              obtain rfl := Option.some.inj hc'
              exact .inl ⟨(rest, x), (own.mem_iff rest x).2 hx, rfl⟩
          | succ i =>
              exact .inr ⟨i, c', rest, by rw [Nat.add_right_comm, Nat.add_assoc], hc', hx⟩
      · rw [List.map_append, hnodes', List.zipIdx_cons, List.flatMap_cons, ← hnodes]
        simp

theorem exists_lists_of_children {n : Node}
    (h : ∀ c ∈ n.children, ∃ placed, Lists placed (fun p x => p ≠ [] ∧ c.at? p = some x) ∧
      placed.map Prod.snd = c.descendants) :
    ∃ placed, Lists placed (fun p x => p ≠ [] ∧ n.at? p = some x) ∧
      placed.map (fun a => (a.1.head?, a.2)) =
        n.children.zipIdx.flatMap fun c => (c.1 :: c.1.descendants).map (some c.2, ·) := by
  obtain ⟨placed, hplaced, hnodes⟩ := exists_lists_children h 0
  refine ⟨placed, ⟨hplaced.increasing, fun p x => ?_⟩, hnodes⟩
  rw [hplaced.mem_iff]
  constructor
  · rintro ⟨i, c, rest, rfl, hc, hx⟩
    rw [Nat.zero_add, at?, hc]
    exact ⟨List.cons_ne_nil i rest, hx⟩
  · rintro ⟨hp, hx⟩
    obtain ⟨i, rest, rfl⟩ := List.exists_cons_of_ne_nil hp
    rw [at?, Option.bind_eq_some_iff] at hx
    obtain ⟨c, hc, hx⟩ := hx
    exact ⟨i, c, rest, by rw [Nat.zero_add], hc, hx⟩

/-- The nodes below a node are listed in order, and all of them are. -/
theorem hereditary_lists :
    Hereditary fun n => ∃ placed, Lists placed (fun p x => p ≠ [] ∧ n.at? p = some x) ∧
      placed.map Prod.snd = n.descendants := by
  intro n h
  obtain ⟨placed, hplaced, hnodes⟩ := exists_lists_of_children h
  refine ⟨placed, hplaced, ?_⟩
  calc placed.map Prod.snd
      = (placed.map fun a => (a.1.head?, a.2)).map Prod.snd := by rw [List.map_map]; rfl
    _ = n.children.zipIdx.flatMap fun c => c.1 :: c.1.descendants := by
        rw [hnodes, List.map_flatMap]
        simp [Function.comp_def]
    _ = n.descendants := by
        conv_rhs => rw [descendants_eq, ← List.zipIdx_map_fst 0 n.children, List.flatMap_map]

/-! ## What is picked from descendants -/

theorem Lists.collects {α : Type} {n : Node} {placed : List (List Nat × Node)}
    (h : Lists placed fun p x => p ≠ [] ∧ n.at? p = some x)
    (pick : List Nat → Node → Option α) :
    n.Collects pick (placed.filterMap fun a => pick a.1 a.2) := by
  have found : ∀ a ∈ placed, (n.at? a.1).bind (pick a.1) = pick a.1 a.2 := by
    intro a ha
    rw [((h.mem_iff a.1 a.2).1 ha).2]
    rfl
  refine ⟨(placed.filter fun a => (pick a.1 a.2).isSome).map Prod.fst, ?_, fun p => ?_, ?_⟩
  · rw [List.pairwise_map]
    exact h.increasing.filter _
  · simp only [List.mem_map, List.mem_filter, Option.isSome_iff_exists]
    constructor
    · rintro ⟨⟨p, x⟩, ⟨hmem, a, ha⟩, rfl⟩
      obtain ⟨hp, hx⟩ := (h.mem_iff p x).1 hmem
      exact ⟨hp, x, a, hx, ha⟩
    · rintro ⟨hp, x, a, hx, ha⟩
      exact ⟨(p, x), ⟨(h.mem_iff p x).2 ⟨hp, hx⟩, a, ha⟩, rfl⟩
  · rw [List.filterMap_map, List.filterMap_filter]
    refine List.filterMap_congr fun a ha => ?_
    rw [Function.comp_apply, found a ha]
    cases pick a.1 a.2 <;> rfl

/-- What is picked from the nodes below a node, if it matters in which child they
are. -/
theorem collects_children {α : Type} (n : Node) (pick : Nat → Node → Option α) :
    n.Collects (fun p x => p.head?.bind (pick · x))
      (n.children.zipIdx.flatMap fun c => (c.1 :: c.1.descendants).filterMap (pick c.2)) := by
  obtain ⟨placed, hplaced, hnodes⟩ :=
    exists_lists_of_children fun c (_ : c ∈ n.children) => hereditary_lists.holds c
  have collected := hplaced.collects fun p x => p.head?.bind (pick · x)
  have reindexed := congrArg (List.filterMap fun a => a.1.bind (pick · a.2)) hnodes
  rw [List.filterMap_map, List.filterMap_flatMap] at reindexed
  simp only [List.filterMap_map] at reindexed
  rwa [show (placed.filterMap fun a => a.1.head?.bind (pick · a.2)) = _ from reindexed]
    at collected

/-- What is picked from the nodes below a node. -/
theorem collects_descendants {α : Type} (n : Node) (pick : Node → Option α) :
    n.Collects (fun _ => pick) (n.descendants.filterMap pick) := by
  obtain ⟨placed, hplaced, hnodes⟩ := hereditary_lists.holds n
  rw [← hnodes, List.filterMap_map]
  exact hplaced.collects fun _ => pick

/-! ## Searching with marks -/

/-- What a search has come by: the marks that it left, each a kind and an
address, and the nodes that it found. -/
structure Search where
  marks : List (NodeKind × Nat)
  found : List Node

section

variable (address : List Nat → Nat) (wanted : NodeKind → Bool)

/-- The search after it has entered a node. -/
def Search.enter (s : Search) (n : Node) (place : List Nat) : Search where
  marks := (n.kind, address place) :: s.marks
  found := if wanted n.kind then s.found ++ [n] else s.found

mutual

/-- Searches below a node. -/
def walk (n : Node) (place : List Nat) (s : Search) : Search :=
  walkAll n.children place 0 s
termination_by (n.descendants.length, 1)
decreasing_by
  rw [descendants_eq]
  exact Prod.Lex.right _ Nat.zero_lt_one

/-- Searches the children of a node from one on. -/
def walkAll (cs : List Node) (place : List Nat) (i : Nat) (s : Search) : Search :=
  match cs with
  | [] => s
  | c :: rest =>
    let here := place ++ [i]
    let s := if (c.kind, address here) ∈ s.marks then s
      else walk c here (s.enter address wanted c here)
    walkAll rest place (i + 1) s
termination_by ((cs.flatMap fun c => c :: c.descendants).length, 0)

end

/-- The nodes of some kinds that a search finds below the node at a place. -/
def search (n : Node) (place : List Nat) : List Node :=
  (walk address wanted n place ⟨[(n.kind, address place)], []⟩).found

/-- Whether nodes can be told apart by their kind and address. -/
def ToldApart (root : Node) : Prop :=
  ∀ p q x y, root.at? p = some x → root.at? q = some y → x.kind = y.kind →
    address p = address q → p = q

/-- Whether all marks are those of nodes before a place. -/
def Search.Behind (s : Search) (root : Node) (place : List Nat) : Prop :=
  ∀ mark ∈ s.marks, ∃ p x, root.at? p = some x ∧ p < place ∧ mark = (x.kind, address p)

variable {address wanted} {root : Node}

theorem Search.Behind.le {s : Search} {place place' : List Nat}
    (h : s.Behind address root place) (hlt : place < place') : s.Behind address root place' := by
  intro mark hmark
  obtain ⟨p, x, hx, hp, rfl⟩ := h mark hmark
  exact ⟨p, x, hx, List.lt_trans hp hlt, rfl⟩

/-- A node that the search comes to has no mark. -/
theorem Search.Behind.not_mem (hroot : root.ToldApart address) {s : Search} {place : List Nat}
    (h : s.Behind address root place) {n : Node} (hn : root.at? place = some n) :
    (n.kind, address place) ∉ s.marks := by
  intro hmark
  obtain ⟨p, x, hx, hp, heq⟩ := h _ hmark
  obtain ⟨hkind, haddress⟩ := Prod.mk.inj heq
  obtain rfl := hroot _ _ _ _ hn hx hkind haddress
  exact List.lt_irrefl _ hp

theorem lt_append_cons (place : List Nat) (i : Nat) (rest : List Nat) :
    place < place ++ i :: rest := by
  have h : place ++ [] < place ++ i :: rest := List.append_left_lt (List.nil_lt_cons i rest)
  rwa [List.append_nil] at h

theorem append_lt_append_succ (place : List Nat) (i : Nat) (rest : List Nat) :
    place ++ i :: rest < place ++ [i + 1] :=
  List.append_left_lt (List.cons_lt_cons_iff.2 (.inl (Nat.lt_succ_self i)))

theorem Search.Behind.enter {s : Search} {place : List Nat}
    (h : s.Behind address root place) {n : Node} (hn : root.at? place = some n) :
    (s.enter address wanted n place).Behind address root (place ++ [0]) := by
  intro mark hmark
  rcases List.mem_cons.1 hmark with rfl | hmark
  · exact ⟨place, n, hn, lt_append_cons place 0 [], rfl⟩
  · exact h.le (lt_append_cons place 0 []) mark hmark

/-- What a search comes by below a node, if all of its marks lie before. -/
def Passes (address : List Nat → Nat) (wanted : NodeKind → Bool) (root n : Node) : Prop :=
  ∀ place s, root.at? place = some n → s.Behind address root (place ++ [0]) →
    (walk address wanted n place s).found = s.found ++ n.descendants.filter (wanted ·.kind) ∧
      (walk address wanted n place s).Behind address root (place ++ [n.children.length])

theorem walkAll_passes (hroot : root.ToldApart address) {n : Node} {place : List Nat}
    (hn : root.at? place = some n) {cs : List Node} (hcs : ∀ c ∈ cs, Passes address wanted root c)
    {i : Nat} (hi : n.children.drop i = cs) {s : Search}
    (h : s.Behind address root (place ++ [i])) :
    (walkAll address wanted cs place i s).found =
        s.found ++ (cs.flatMap fun c => c :: c.descendants).filter (wanted ·.kind) ∧
      (walkAll address wanted cs place i s).Behind address root (place ++ [i + cs.length]) := by
  induction cs generalizing i s with
  | nil =>
      rw [walkAll]
      exact ⟨(List.append_nil _).symm, h⟩
  | cons c rest ih =>
      rw [List.forall_mem_cons] at hcs
      have hc : root.at? (place ++ [i]) = some c := by
        have hat : n.children[i]? = some c := by
          rw [← List.head?_drop, hi]
          rfl
        rw [at?_append, hn, Option.bind_some, at?, hat]
        rfl
      have hrest : n.children.drop (i + 1) = rest := by
        rw [← List.drop_drop, hi]
        rfl
      have entered : (s.enter address wanted c (place ++ [i])).Behind address root
          (place ++ [i] ++ [0]) := h.enter hc
      obtain ⟨found, behind⟩ := hcs.1 _ _ hc entered
      rw [List.append_assoc] at behind
      obtain ⟨found', behind'⟩ := ih hcs.2 hrest (behind.le (append_lt_append_succ ..))
      rw [walkAll, if_neg (h.not_mem hroot hc)]
      refine ⟨?_, ?_⟩
      · rw [found', found, Search.enter, List.flatMap_cons, List.filter_append, List.filter_cons]
        split <;> simp
      · rwa [List.length_cons, Nat.add_comm rest.length, ← Nat.add_assoc]

theorem hereditary_passes (hroot : root.ToldApart address) :
    Hereditary (Passes address wanted root) := by
  intro n hchildren place s hn h
  rw [walk, descendants_eq, ← Nat.zero_add n.children.length]
  exact walkAll_passes hroot hn hchildren rfl h

/-- A search finds what is below a node, in order and nothing twice. -/
theorem search_eq (hroot : root.ToldApart address) {n : Node} {place : List Nat}
    (hn : root.at? place = some n) :
    search address wanted n place = n.descendants.filter (wanted ·.kind) := by
  have behind : Search.Behind address ⟨[(n.kind, address place)], []⟩ root (place ++ [0]) := by
    intro mark hmark
    obtain rfl := List.mem_singleton.1 hmark
    exact ⟨place, n, hn, lt_append_cons place 0 [], rfl⟩
  exact ((hereditary_passes hroot).holds n place _ hn behind).1

end

end Node

end Landscape
