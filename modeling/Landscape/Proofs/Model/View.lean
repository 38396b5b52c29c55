import Landscape.Model.Navigation
import Landscape.Proofs.Model.Closed
import Mathlib.Data.List.Find

/-!
# Views never lead out of a closed model

Navigation passes over an id that leads nowhere. Here the same calls are made
with checked lookups, where such an id is an error, and from every thing of the
model at once. In a closed model no error ever comes up, however long the calls
go on, and the checked calls answer what the unchecked ones do.

Where navigation looks for a first match the checked call looks all candidates
up, also those behind the match. It fails more easily for that, so that it does
not fail says more.
-/

namespace Landscape

/-- Something to look at in a model. -/
inductive View
  | domain (domain : Domain)
  | subdomain (subdomain : Subdomain)
  | context (context : Context)
  | map (map : ContextMap)
  | relationship (relationship : Relationship)

/-- A way to go on from a view. A call that the view does not have leads
nowhere. -/
inductive Call
  | subdomains
  | subdomainsOfType (type : SubdomainType)
  | subdomain (name : String)
  | domain
  | implementations
  | implementation (name : String)
  | implemented
  | implementedNamed (name : String)
  | map
  | members
  | member (name : String)
  | relationships
  | relationshipsWith (name : String)
  | relationshipsLabelled (label : String)
  | relationshipBetween (a b : String)
  | left
  | right

namespace Model

variable (m : Model)

/-- What a call leads to. -/
def answer : View → Call → List View
  | .domain d, .subdomains => (m.subdomainsOf d).map .subdomain
  | .domain d, .subdomainsOfType type => (m.subdomainsOfType d type).map .subdomain
  | .domain d, .subdomain name => (m.subdomainOf? d name).toList.map .subdomain
  | .subdomain s, .domain => (m.domainOf? s).toList.map .domain
  | .subdomain s, .implementations => (m.implementationsOf s).map .context
  | .subdomain s, .implementation name => (m.implementationOf? s name).toList.map .context
  | .context c, .implemented => (m.implementedBy c).map .subdomain
  | .context c, .implementedNamed name => (m.implementedBy? c name).toList.map .subdomain
  | .context c, .map => (m.mapOf? c).toList.map .map
  | .map x, .members => (m.membersOf x).map .context
  | .map x, .member name => (m.memberOf? x name).toList.map .context
  | .map x, .relationships => x.relationships.map .relationship
  | .map x, .relationshipsWith name => (m.relationshipsOf x name).map .relationship
  | .map x, .relationshipsLabelled label =>
    (x.relationshipsLabelled label).map .relationship
  | .map x, .relationshipBetween a b =>
    (m.relationshipBetween? x a b).toList.map .relationship
  | .relationship r, .left => (m.leftOf? r).toList.map .context
  | .relationship r, .right => (m.rightOf? r).toList.map .context
  | _, _ => []

/-! ## Checked calls -/

def subdomainsAt (ids : List (Id .subdomain)) : Except OutOfRange (List Subdomain) :=
  ids.mapM m.subdomain

def contextsAt (ids : List (Id .context)) : Except OutOfRange (List Context) :=
  ids.mapM m.context

/-- A relationship with what its sides are called. -/
def withSides (r : Relationship) :
    Except OutOfRange (Relationship × String × String) := do
  let left ← m.context r.left
  let right ← m.context r.right
  return (r, left.name, right.name)

/-- What a call leads to, where every id is looked up for certain. -/
def visit : View → Call → Except OutOfRange (List View)
  | .domain d, .subdomains => do
    let found ← m.subdomainsAt d.subdomains
    return found.map .subdomain
  | .domain d, .subdomainsOfType type => do
    let found ← m.subdomainsAt d.subdomains
    return (found.filter (·.type = type)).map .subdomain
  | .domain d, .subdomain name => do
    let found ← m.subdomainsAt d.subdomains
    return (found.find? (·.name = name)).toList.map .subdomain
  | .subdomain s, .domain => do
    let found ← m.domain s.domain
    return [.domain found]
  | .subdomain s, .implementations => do
    let found ← m.contextsAt s.implementations
    return found.map .context
  | .subdomain s, .implementation name => do
    let found ← m.contextsAt s.implementations
    return (found.find? (·.name = name)).toList.map .context
  | .context c, .implemented => do
    let found ← m.subdomainsAt c.implements
    return found.map .subdomain
  | .context c, .implementedNamed name => do
    let found ← m.subdomainsAt c.implements
    return (found.find? (·.name = name)).toList.map .subdomain
  | .context c, .map =>
    match c.map with
    | none => return []
    | some id => do
      let found ← m.map id
      return [.map found]
  | .map x, .members => do
    let found ← m.contextsAt x.contexts
    return found.map .context
  | .map x, .member name => do
    let found ← m.contextsAt x.contexts
    return (found.find? (·.name = name)).toList.map .context
  | .map x, .relationships => return x.relationships.map .relationship
  | .map x, .relationshipsWith name => do
    let sided ← x.relationships.mapM m.withSides
    return (sided.filter fun (_, left, right) => left = name || right = name).map
      (.relationship ·.1)
  | .map x, .relationshipsLabelled label =>
    return (x.relationshipsLabelled label).map .relationship
  | .map x, .relationshipBetween a b => do
    let sided ← x.relationships.mapM m.withSides
    return (sided.find? fun (_, left, right) =>
      (left = a && right = b) || (left = b && right = a)).toList.map (.relationship ·.1)
  | .relationship r, .left => do
    let found ← m.context r.left
    return [.context found]
  | .relationship r, .right => do
    let found ← m.context r.right
    return [.context found]
  | _, _ => return []

/-- Everything in a model that can be looked at. -/
def views : List View :=
  m.domains.map .domain ++ m.subdomains.map .subdomain ++ m.contexts.map .context ++
    m.maps.map .map

/-- Where calls lead, one after the other, from any of some views. -/
def answers (views : List View) : List Call → List View
  | [] => views
  | call :: rest => answers (views.flatMap (m.answer · call)) rest

/-- Where checked calls lead, one after the other, from any of some views. -/
def walk (views : List View) : List Call → Except OutOfRange (List View)
  | [] => return views
  | call :: rest => do
    let found ← views.mapM (m.visit · call)
    walk found.flatten rest

end Model

/-! ## Closed models -/

/-- Whether a view shows something of a model. -/
def View.Of (m : Model) : View → Prop
  | domain d => d ∈ m.domains
  | subdomain s => s ∈ m.subdomains
  | context c => c ∈ m.contexts
  | map x => x ∈ m.maps
  | relationship r => ∃ x ∈ m.maps, r ∈ x.relationships

theorem atIndex_eq_ok {α : Type} {xs : List α} {i : Nat} (h : i < xs.length) :
    atIndex xs i = .ok xs[i] := by
  rw [atIndex, List.getElem?_eq_getElem h]

theorem mapM_eq_ok {α β ε : Type} {f : α → Except ε β} {g : α → β} {xs : List α}
    (h : ∀ x ∈ xs, f x = .ok (g x)) : xs.mapM f = .ok (xs.map g) := by
  induction xs with
  | nil => rfl
  | cons x xs ih =>
      rw [List.mapM_cons, h x (by simp), ih fun y hy => h y (by simp [hy])]
      rfl

/-- Ids that are in range can be looked up all together. -/
theorem mapM_atIndex {kind : Kind} {α : Type} {xs : List α} {ids : List (Id kind)}
    (h : ∀ id ∈ ids, id.index < xs.length) :
    (ids.mapM fun id => atIndex xs id.index) =
      .ok (ids.filterMap fun id => xs[id.index]?) := by
  induction ids with
  | nil => rfl
  | cons id ids ih =>
      have hid := h id (by simp)
      rw [List.mapM_cons, atIndex_eq_ok hid, ih fun y hy => h y (by simp [hy])]
      simp only [List.filterMap_cons, List.getElem?_eq_getElem hid]
      rfl

namespace Model

variable {m : Model}

/-- What the sides of a relationship are called, if they exist. -/
def sideNames (m : Model) (r : Relationship) : String × String :=
  (((m.leftOf? r).map Context.name).getD "", ((m.rightOf? r).map Context.name).getD "")

theorem withSides_eq {r : Relationship} (hl : r.left.index < m.contexts.length)
    (hr : r.right.index < m.contexts.length) :
    m.withSides r = .ok (r, m.sideNames r) := by
  rw [withSides, context, context, atIndex_eq_ok hl, atIndex_eq_ok hr, sideNames, leftOf?,
    rightOf?, List.getElem?_eq_getElem hl, List.getElem?_eq_getElem hr]
  rfl

theorem isLeftNamed_eq {r : Relationship} (hl : r.left.index < m.contexts.length)
    (name : String) : m.isLeftNamed r name = ((m.sideNames r).1 = name : Bool) := by
  rw [isLeftNamed, sideNames, leftOf?, List.getElem?_eq_getElem hl]
  rfl

theorem isRightNamed_eq {r : Relationship} (hr : r.right.index < m.contexts.length)
    (name : String) : m.isRightNamed r name = ((m.sideNames r).2 = name : Bool) := by
  rw [isRightNamed, sideNames, rightOf?, List.getElem?_eq_getElem hr]
  rfl

section Sides

variable {x : ContextMap} (h : ∀ r ∈ x.relationships,
  r.left.index < m.contexts.length ∧ r.right.index < m.contexts.length)
include h

theorem mapM_withSides :
    x.relationships.mapM m.withSides =
      .ok (x.relationships.map fun r => (r, m.sideNames r)) :=
  mapM_eq_ok fun r hr => withSides_eq (h r hr).1 (h r hr).2

theorem relationshipsOf_sideNames (name : String) :
    m.relationshipsOf x name =
      x.relationships.filter fun r => (m.sideNames r).1 = name || (m.sideNames r).2 = name := by
  refine List.filter_congr fun r hr => ?_
  rw [isLeftNamed_eq (h r hr).1, isRightNamed_eq (h r hr).2]

theorem relationshipBetween?_sideNames (a b : String) :
    m.relationshipBetween? x a b =
      x.relationships.find? fun r =>
        ((m.sideNames r).1 = a && (m.sideNames r).2 = b) ||
          ((m.sideNames r).1 = b && (m.sideNames r).2 = a) := by
  refine List.find?_congr fun r hr => ?_
  simp only [isLeftNamed_eq (h r hr).1, isRightNamed_eq (h r hr).2]

end Sides

theorem subdomainsAt_eq {ids : List (Id .subdomain)}
    (h : ∀ id ∈ ids, id.index < m.subdomains.length) :
    m.subdomainsAt ids = .ok (ids.filterMap fun id => m.subdomains[id.index]?) :=
  mapM_atIndex h

theorem contextsAt_eq {ids : List (Id .context)}
    (h : ∀ id ∈ ids, id.index < m.contexts.length) :
    m.contextsAt ids = .ok (ids.filterMap fun id => m.contexts[id.index]?) :=
  mapM_atIndex h

/-- In a closed model a checked call never fails, and answers what the
unchecked one does. -/
theorem visit_eq (h : m.Closed) {v : View} (hv : v.Of m) (call : Call) :
    m.visit v call = .ok (m.answer v call) := by
  obtain ⟨-, owned, linked⟩ := h
  cases v with
  | domain d =>
      have found := subdomainsAt_eq (owned.subdomains_lt d hv)
      cases call <;> simp only [visit, answer, found] <;> rfl
  | subdomain s =>
      have found := contextsAt_eq (linked.implementations_lt s hv)
      have owner := owned.domain_lt s hv
      cases call with
      | domain =>
          simp only [visit, answer, Model.domain, atIndex_eq_ok owner, domainOf?,
            List.getElem?_eq_getElem owner]
          rfl
      | _ =>
          simp only [visit, answer, found]
          rfl
  | context c =>
      have found := subdomainsAt_eq (linked.implements_lt c hv)
      cases call with
      | map =>
          cases hmap : c.map with
          | none => simp only [visit, answer, mapOf?, hmap]; rfl
          | some id =>
              have joined := linked.map_lt c hv id hmap
              simp only [visit, answer, mapOf?, hmap, Model.map, atIndex_eq_ok joined,
                Option.bind_some, List.getElem?_eq_getElem joined]
              rfl
      | _ =>
          simp only [visit, answer, found]
          rfl
  | map x =>
      have found := contextsAt_eq (linked.members_lt x hv)
      have sides := linked.sides_lt x hv
      cases call with
      | relationshipsWith name =>
          simp only [visit, answer, mapM_withSides sides, relationshipsOf_sideNames sides]
          exact congrArg Except.ok (by rw [List.filter_map, List.map_map]; rfl)
      | relationshipBetween a b =>
          simp only [visit, answer, mapM_withSides sides, relationshipBetween?_sideNames sides]
          refine congrArg Except.ok ?_
          rw [List.find?_map, Option.toList_map, List.map_map]
          rfl
      | _ =>
          simp only [visit, answer, found]
          rfl
  | relationship r =>
      obtain ⟨x, hx, hr⟩ := hv
      obtain ⟨hleft, hright⟩ := linked.sides_lt x hx r hr
      cases call with
      | left =>
          simp only [visit, answer, Model.context, atIndex_eq_ok hleft, leftOf?,
            List.getElem?_eq_getElem hleft]
          rfl
      | right =>
          simp only [visit, answer, Model.context, atIndex_eq_ok hright, rightOf?,
            List.getElem?_eq_getElem hright]
          rfl
      | _ => rfl

/-- What is found at some ids, or picked from it, is in the list. -/
theorem of_mem_found {kind : Kind} {α : Type} {xs : List α} {ids : List (Id kind)}
    {P : View → Prop} {toView : α → View} (hP : ∀ x ∈ xs, P (toView x)) {found : List α}
    (hfound : ∀ x ∈ found, x ∈ ids.filterMap fun id => xs[id.index]?) {w : View}
    (hw : w ∈ found.map toView) : P w := by
  obtain ⟨x, hx, rfl⟩ := List.mem_map.1 hw
  obtain ⟨id, -, hid⟩ := List.mem_filterMap.1 (hfound x hx)
  exact hP x (List.mem_of_getElem? hid)

theorem of_mem_find {α : Type} {p : α → Bool} {xs : List α} :
    ∀ x ∈ (xs.find? p).toList, x ∈ xs :=
  fun _ hx => List.mem_of_find?_eq_some (Option.mem_toList.1 hx)

/-- Calls on a model do not leave it. -/
theorem of_mem_answer {v : View} (hv : v.Of m) {call : Call} {w : View}
    (hw : w ∈ m.answer v call) : w.Of m := by
  have domain : ∀ d ∈ m.domains, (View.domain d).Of m := fun d h => h
  have subdomain : ∀ s ∈ m.subdomains, (View.subdomain s).Of m := fun s h => h
  have context : ∀ c ∈ m.contexts, (View.context c).Of m := fun c h => h
  cases v with
  | domain d =>
      cases call with
      | subdomains => exact of_mem_found subdomain (fun _ h => h) hw
      | subdomainsOfType type =>
          exact of_mem_found subdomain (fun _ h => (List.mem_filter.1 h).1) hw
      | subdomain name => exact of_mem_found subdomain of_mem_find hw
      | _ => cases hw
  | subdomain s =>
      cases call with
      | domain =>
          obtain ⟨d, hd, rfl⟩ := List.mem_map.1 hw
          exact List.mem_of_getElem? (Option.mem_toList.1 hd)
      | implementations => exact of_mem_found context (fun _ h => h) hw
      | implementation name => exact of_mem_found context of_mem_find hw
      | _ => cases hw
  | context c =>
      cases call with
      | implemented => exact of_mem_found subdomain (fun _ h => h) hw
      | implementedNamed name => exact of_mem_found subdomain of_mem_find hw
      | map =>
          obtain ⟨x, hx, rfl⟩ := List.mem_map.1 hw
          obtain ⟨id, -, hid⟩ := Option.bind_eq_some_iff.1 (Option.mem_toList.1 hx)
          exact List.mem_of_getElem? hid
      | _ => cases hw
  | map x =>
      cases call with
      | members => exact of_mem_found context (fun _ h => h) hw
      | member name => exact of_mem_found context of_mem_find hw
      | relationships =>
          obtain ⟨r, hr, rfl⟩ := List.mem_map.1 hw
          exact ⟨x, hv, hr⟩
      | relationshipsWith name =>
          obtain ⟨r, hr, rfl⟩ := List.mem_map.1 hw
          exact ⟨x, hv, (List.mem_filter.1 hr).1⟩
      | relationshipsLabelled label =>
          obtain ⟨r, hr, rfl⟩ := List.mem_map.1 hw
          exact ⟨x, hv, (List.mem_filter.1 hr).1⟩
      | relationshipBetween a b =>
          obtain ⟨r, hr, rfl⟩ := List.mem_map.1 hw
          exact ⟨x, hv, of_mem_find r hr⟩
      | _ => cases hw
  | relationship r =>
      cases call with
      | left =>
          obtain ⟨c, hc, rfl⟩ := List.mem_map.1 hw
          exact List.mem_of_getElem? (Option.mem_toList.1 hc)
      | right =>
          obtain ⟨c, hc, rfl⟩ := List.mem_map.1 hw
          exact List.mem_of_getElem? (Option.mem_toList.1 hc)
      | _ => cases hw

theorem of_mem_views {v : View} (hv : v ∈ m.views) : v.Of m := by
  simp only [views, List.mem_append, List.mem_map] at hv
  obtain ((⟨d, hd, rfl⟩ | ⟨s, hs, rfl⟩) | ⟨c, hc, rfl⟩) | ⟨x, hx, rfl⟩ := hv
  · exact hd
  · exact hs
  · exact hc
  · exact hx

/-- In a closed model checked calls never fail, however many are made. -/
theorem walk_eq (h : m.Closed) (calls : List Call) {views : List View}
    (hviews : ∀ v ∈ views, v.Of m) :
    m.walk views calls = .ok (m.answers views calls) := by
  induction calls generalizing views with
  | nil => rfl
  | cons call rest ih =>
      have step : views.mapM (m.visit · call) = .ok (views.map (m.answer · call)) :=
        mapM_eq_ok fun v hv => visit_eq h (hviews v hv) call
      rw [walk, step, answers, ← ih]
      · rfl
      · intro w hw
        obtain ⟨v, hv, hw⟩ := List.mem_flatMap.1 hw
        exact of_mem_answer (hviews v hv) hw

end Model

end Landscape
