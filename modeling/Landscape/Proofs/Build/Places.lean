import Landscape.Proofs.Build.Resolution
import Landscape.Proofs.Model.Renumbering

/-!
# Where a thing is declared

An id is a position among all things of its kind, and that is what a change of
order changes. What stays is the place: the element that declares the thing, and
which one of its things it is. To speak of places the elements of a document are
numbered, and they keep their numbers in any other order.

The ids of a document are the positions in its list of places, one list for each
kind. A new order comes with a renumbering, which takes an id to its place and
the place to its new position (`renumber`). Then the lists of declarations agree
at old and new ids (`getElem?_renumber`), and so do the numbers that a domain is
given for its subdomains.
-/

namespace Landscape

/-! ## Places -/

/-- How many things of a kind an element declares. -/
def Element.count : Element → Kind → Nat
  | .domain _, .domain => 1
  | .domain decl, .subdomain => decl.subdomains.length
  | .context _, .context => 1
  | .map _, .map => 1
  | .useCase _, .useCase => 1
  | _, _ => 0

/-- The places of all things of a kind: the number of the element that declares
it, and its position among those that the element declares. -/
def places (kind : Kind) (elements : List (Element × Nat)) : List (Nat × Nat) :=
  elements.flatMap fun x => (List.range (x.1.count kind)).map (x.2, ·)

/-- The new id of a thing when numbered elements are put into another order. -/
def renumber (old new : List (Element × Nat)) : Renumbering := fun kind id =>
  match (places kind old)[id.index]? with
  | some place => ⟨(places kind new).idxOf place⟩
  | none => id

/-- The document with these elements. -/
def Document.inOrder (elements : List (Element × Nat)) : Document :=
  ⟨elements.map Prod.fst⟩

theorem Document.inOrder_zipIdx (d : Document) : inOrder d.elements.zipIdx = d := by
  rw [inOrder, List.zipIdx_map_fst]

theorem nodup_places {elements : List (Element × Nat)} (h : (elements.map Prod.snd).Nodup)
    (kind : Kind) : (places kind elements).Nodup := by
  rw [List.Nodup, List.pairwise_map] at h
  refine List.pairwise_flatMap.2 ⟨fun x _ => ?_, h.imp fun hne p hp q hq heq => ?_⟩
  · exact List.pairwise_map.2 (List.nodup_range.imp fun hne heq => hne (congrArg Prod.snd heq))
  · obtain ⟨_, _, rfl⟩ := List.mem_map.1 hp
    obtain ⟨_, _, rfl⟩ := List.mem_map.1 hq
    exact hne (congrArg Prod.fst heq)

section

variable {old new : List (Element × Nat)} {kind : Kind}

theorem places_perm (h : new.Perm old) (kind : Kind) :
    (places kind new).Perm (places kind old) :=
  h.flatMap_right _

/-- A thing is renumbered to where its place is. -/
theorem renumber_eq (hnew : (places kind new).Nodup) {p q : Nat} {place : Nat × Nat}
    (hp : (places kind old)[p]? = some place) (hq : (places kind new)[q]? = some place) :
    renumber old new kind ⟨p⟩ = ⟨q⟩ := by
  obtain ⟨hlt, rfl⟩ := List.getElem?_eq_some_iff.1 hq
  simp only [renumber, hp, hnew.idxOf_getElem q hlt]

theorem getElem?_places_renumber (h : new.Perm old) (hold : (old.map Prod.snd).Nodup)
    (id : Id kind) :
    (places kind new)[(renumber old new kind id).index]? = (places kind old)[id.index]? := by
  have hnew := nodup_places ((h.map Prod.snd).nodup_iff.2 hold) kind
  cases hplace : (places kind old)[id.index]? with
  | none =>
      rw [renumber, hplace, List.getElem?_eq_none_iff, (places_perm h kind).length_eq]
      exact List.getElem?_eq_none_iff.1 hplace
  | some place =>
      have hmem := (places_perm h kind).mem_iff.2 (List.mem_of_getElem? hplace)
      obtain ⟨q, hq⟩ := List.mem_iff_getElem?.1 hmem
      rw [renumber_eq hnew hplace hq, hq]

/-- To put the elements back into the old order gives the old ids. -/
theorem renumber_renumber (h : new.Perm old) (hold : (old.map Prod.snd).Nodup) (id : Id kind) :
    renumber new old kind (renumber old new kind id) = id := by
  have hplaces := getElem?_places_renumber h hold id
  cases hplace : (places kind old)[id.index]? with
  | none =>
      rw [hplace] at hplaces
      rw [renumber, hplaces, renumber, hplace]
  | some place =>
      rw [hplace] at hplaces
      exact renumber_eq (nodup_places hold kind) hplaces hplace

end

/-! ## What is declared at a place -/

section

variable {α : Type} (pick : Element → List α)

/-- What the elements declare, with the places. -/
def placed (elements : List (Element × Nat)) : List ((Nat × Nat) × α) :=
  elements.flatMap fun x => (pick x.1).mapIdx fun i y => ((x.2, i), y)

theorem map_snd_placed (elements : List (Element × Nat)) :
    (placed pick elements).map Prod.snd = elements.flatMap fun x => pick x.1 := by
  rw [placed, List.map_flatMap]
  congr 1
  funext x
  apply List.ext_getElem?
  intro i
  simp [Function.comp_def]

variable {pick} {kind : Kind} (hcount : ∀ e, (pick e).length = e.count kind)
include hcount

theorem map_fst_placed (elements : List (Element × Nat)) :
    (placed pick elements).map Prod.fst = places kind elements := by
  rw [placed, List.map_flatMap, places]
  congr 1
  funext x
  apply List.ext_getElem
  · simp [hcount]
  · intro i _ _
    simp

/-- At the old and at the new id of a thing stands the same declaration. -/
theorem getElem?_renumber {old new : List (Element × Nat)} (h : new.Perm old)
    (hold : (old.map Prod.snd).Nodup) (id : Id kind) :
    (new.flatMap fun x => pick x.1)[(renumber old new kind id).index]? =
      (old.flatMap fun x => pick x.1)[id.index]? := by
  have hplaces := getElem?_places_renumber h hold id
  have hnodup := nodup_places hold kind
  rw [← map_snd_placed, ← map_snd_placed, List.getElem?_map, List.getElem?_map]
  rw [← map_fst_placed hcount, ← map_fst_placed hcount, List.getElem?_map,
    List.getElem?_map] at hplaces
  rw [← map_fst_placed hcount] at hnodup
  congr 1
  cases hnew : (placed pick new)[(renumber old new kind id).index]? with
  | none =>
      rw [hnew, Option.map_none, eq_comm, Option.map_eq_none_iff] at hplaces
      exact hplaces.symm
  | some y =>
      -- What stands there now stood somewhere before, at the same place.
      have hmem : y ∈ placed pick old :=
        (h.flatMap_right _).mem_iff.1 (List.mem_of_getElem? hnew)
      obtain ⟨p, hp⟩ := List.mem_iff_getElem?.1 hmem
      rw [hnew, ← hp, ← List.getElem?_map, ← List.getElem?_map] at hplaces
      have hlt : p < ((placed pick old).map Prod.fst).length := by
        rw [List.length_map]
        exact (List.getElem?_eq_some_iff.1 hp).1
      rw [(List.getElem?_inj hlt hnodup).1 hplaces] at hp
      exact hp.symm

end

/-! ## The subdomains of a domain -/

theorem DomainDecl.renumber_toOwner {ρ : Renumbering} {decl : DomainDecl} {first first' : Nat}
    (h : ∀ i < decl.subdomains.length, ρ .subdomain ⟨first + i⟩ = ⟨first' + i⟩)
    (id : Id .domain) :
    (decl.toOwner id first).renumber ρ = decl.toOwner (ρ .domain id) first' := by
  rw [Domain.renumber, subdomains_toOwner]
  simp only [toOwner, Domain.owning, toDomain, List.nil_append, List.range'_eq_map_range,
    List.map_map]
  congr 1
  exact List.map_congr_left fun i hi => h i (List.mem_range.1 hi)

theorem DomainDecl.length_number (domains subdomains : Nat) (decls : List DomainDecl) :
    (number domains subdomains decls).length = decls.length := by
  induction decls generalizing domains subdomains with
  | nil => rfl
  | cons decl rest ih => rw [number, List.length_cons, ih, List.length_cons]

/-- The subdomains of a domain have the numbers of its places. -/
theorem getElem?_number {elements : List (Element × Nat)} {k : Nat} {decl : DomainDecl}
    (hdecl : (Document.inOrder elements).domains[k]? = some decl) (domains subdomains : Nat) :
    ∃ element first, (places .domain elements)[k]? = some (element, 0) ∧
      (DomainDecl.number domains subdomains (Document.inOrder elements).domains)[k]? =
        some (decl.toOwner ⟨domains + k⟩ (subdomains + first)) ∧
      ∀ i < decl.subdomains.length,
        (places .subdomain elements)[first + i]? = some (element, i) := by
  induction elements generalizing domains subdomains k with
  | nil => cases hdecl
  | cons x rest ih =>
      obtain ⟨e, number⟩ := x
      cases e with
      | domain decl' =>
          have hown : places .subdomain ((.domain decl', number) :: rest) =
              (List.range decl'.subdomains.length).map (number, ·) ++ places .subdomain rest := rfl
          rw [hown]
          cases k with
          | zero =>
              obtain rfl := Option.some.inj hdecl
              refine ⟨number, 0, rfl, rfl, fun i hi => ?_⟩
              rw [Nat.zero_add, List.getElem?_append_left (by simpa using hi), List.getElem?_map,
                List.getElem?_range hi, Option.map_some]
          | succ k =>
              obtain ⟨element, first, hplace, hnumber, hsubdomains⟩ :=
                ih hdecl (domains + 1) (subdomains + decl'.subdomains.length)
              refine ⟨element, decl'.subdomains.length + first, hplace, ?_, fun i hi => ?_⟩
              · rw [Nat.add_right_comm, Nat.add_assoc, Nat.add_assoc subdomains] at hnumber
                exact hnumber
              · rw [Nat.add_assoc, List.getElem?_append_right (by simp), List.length_map,
                  List.length_range, Nat.add_sub_cancel_left, hsubdomains i hi]
      | context decl' => exact ih hdecl domains subdomains
      | map decl' => exact ih hdecl domains subdomains
      | useCase decl' => exact ih hdecl domains subdomains
      | unknown decl' => exact ih hdecl domains subdomains

/-! ## A document in another order -/

namespace Document

/-- The second document declares what the first one declares, under other
numbers: each declaration is found at the new id of its thing, and each domain
has the subdomains that it had. -/
structure Reordered (ρ : Renumbering) (d d' : Document) : Prop where
  perm : d'.elements.Perm d.elements
  injective : ∀ kind, Function.Injective (ρ kind)
  surjective : ∀ kind (id : Id kind), ∃ id', ρ kind id' = id
  subdomains : ∀ id, d'.subdomains[(ρ .subdomain id).index]? = d.subdomains[id.index]?
  contexts : ∀ id, d'.contexts[(ρ .context id).index]? = d.contexts[id.index]?
  maps : ∀ id, d'.maps[(ρ .map id).index]? = d.maps[id.index]?
  useCases : ∀ id, d'.useCases[(ρ .useCase id).index]? = d.useCases[id.index]?
  domains : ∀ x ∈ DomainDecl.number 0 0 d.domains,
    (DomainDecl.number 0 0 d'.domains)[(ρ .domain x.id).index]? = some (x.renumber ρ)

theorem filterMap_inOrder {α : Type} (f : Element → Option α)
    (elements : List (Element × Nat)) :
    (inOrder elements).elements.filterMap f = elements.flatMap fun x => (f x.1).toList := by
  induction elements with
  | nil => rfl
  | cons x rest ih =>
      rw [List.flatMap_cons, ← ih, inOrder, List.map_cons, List.filterMap_cons]
      cases f x.1 <;> rfl

theorem subdomains_inOrder (elements : List (Element × Nat)) :
    (inOrder elements).subdomains = elements.flatMap fun x => x.1.subdomains := by
  rw [subdomains, domains, filterMap_inOrder, List.flatMap_assoc]
  rfl

section

variable {d : Document} {elements : List (Element × Nat)}

theorem nodup_numbers (d : Document) : (d.elements.zipIdx.map Prod.snd).Nodup := by
  rw [List.zipIdx_map_snd]
  exact List.nodup_range' 1

/-- Each declaration is found at its new id, whatever kind it is of. -/
theorem filterMap_renumber {kind : Kind} {α : Type} {f : Element → Option α}
    (hcount : ∀ e, (f e).toList.length = e.count kind)
    (h : elements.Perm d.elements.zipIdx) (id : Id kind) :
    ((inOrder elements).elements.filterMap f)[
        (renumber d.elements.zipIdx elements kind id).index]? =
      (d.elements.filterMap f)[id.index]? := by
  have hold := filterMap_inOrder f d.elements.zipIdx
  rw [inOrder_zipIdx] at hold
  rw [filterMap_inOrder, hold]
  exact getElem?_renumber hcount h d.nodup_numbers id

theorem domains_renumber (h : elements.Perm d.elements.zipIdx) :
    ∀ x ∈ DomainDecl.number 0 0 d.domains,
      (DomainDecl.number 0 0 (inOrder elements).domains)[
        (renumber d.elements.zipIdx elements .domain x.id).index]? =
        some (x.renumber (renumber d.elements.zipIdx elements)) := by
  intro x hx
  obtain ⟨k, hk⟩ := List.mem_iff_getElem?.1 hx
  have hlt := (List.getElem?_eq_some_iff.1 hk).1
  rw [DomainDecl.length_number] at hlt
  obtain ⟨decl, hdecl⟩ : ∃ decl, d.domains[k]? = some decl := ⟨_, List.getElem?_eq_getElem hlt⟩
  have hdecl' : (inOrder elements).domains[
      (renumber d.elements.zipIdx elements .domain ⟨k⟩).index]? = some decl := by
    rw [domains, filterMap_renumber (fun e => by cases e <;> rfl) h]
    exact hdecl
  obtain ⟨element', first', hplace', hnumber', hsubdomains'⟩ := getElem?_number hdecl' 0 0
  rw [← d.inOrder_zipIdx] at hdecl hk
  obtain ⟨element, first, hplace, hnumber, hsubdomains⟩ := getElem?_number hdecl 0 0
  -- The domain is in one place, and so are its subdomains.
  rw [getElem?_places_renumber h d.nodup_numbers, hplace] at hplace'
  cases hplace'
  rw [hnumber] at hk
  cases hk
  simp only [Nat.zero_add] at hnumber' ⊢
  have hnew := nodup_places ((h.map Prod.snd).nodup_iff.2 d.nodup_numbers) .subdomain
  rw [DomainDecl.renumber_toOwner fun i hi =>
    renumber_eq hnew (hsubdomains i hi) (hsubdomains' i hi)]
  exact hnumber'

end

/-- Numbered elements in another order. -/
theorem reordered_renumber {d : Document} {elements : List (Element × Nat)}
    (h : elements.Perm d.elements.zipIdx) :
    Reordered (renumber d.elements.zipIdx elements) d (inOrder elements) := by
  have hnew := (h.map Prod.snd).nodup_iff.2 d.nodup_numbers
  refine ⟨?_, ?_, ?_, ?_, filterMap_renumber ?_ h, filterMap_renumber ?_ h, filterMap_renumber ?_ h,
    domains_renumber h⟩
  · have hperm := h.map Prod.fst
    rw [List.zipIdx_map_fst] at hperm
    exact hperm
  · exact fun kind => Function.LeftInverse.injective (renumber_renumber h d.nodup_numbers)
  · exact fun kind id => ⟨_, renumber_renumber h.symm hnew id⟩
  · intro id
    have hold := subdomains_inOrder d.elements.zipIdx
    rw [inOrder_zipIdx] at hold
    rw [subdomains_inOrder, hold]
    refine getElem?_renumber (fun e => ?_) h d.nodup_numbers id
    cases e with
    | domain decl => exact congrArg List.length (List.append_nil _)
    | _ => rfl
  · exact fun e => by cases e <;> rfl
  · exact fun e => by cases e <;> rfl
  · exact fun e => by cases e <;> rfl

end Document

end Landscape
