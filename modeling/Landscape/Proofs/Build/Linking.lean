import Landscape.Proofs.Build.Resolution

/-!
# The second pass as a list of links

The second pass looks names up as it goes, and changes the model meanwhile. But
what it looks them up in is the index, which it leaves alone, so every lookup
gives what the document alone says. The links can therefore be listed before any
of them is made, and the second pass is the fold of `Model.link` over that list
(`Draft.Gains`).

The fold comes apart further: a link changes each thing by what it says about
that thing's id, whatever happens to the others. So the final model is the
registered one with a fold over each thing (`Document.draft_model`), and every
question about a list of ids in it is a question about the list of links.
-/

namespace Landscape

open OrderedSet

/-- One change that the second pass makes. -/
inductive Link
  | implementation (context : Id .context) (subdomain : Id .subdomain)
  | member (map : Id .map) (context : Id .context)
  | relationship (map : Id .map) (relationship : Relationship)

/-! ## What a link says about one thing -/

namespace Link

/-- The subdomains that a context is said to implement. -/
def implemented (context : Id .context) : Link → List (Id .subdomain)
  | implementation c s => if c = context then [s] else []
  | _ => []

/-- The contexts that are said to implement a subdomain. -/
def implementers (subdomain : Id .subdomain) : Link → List (Id .context)
  | implementation c s => if s = subdomain then [c] else []
  | _ => []

/-- The contexts that join a map. -/
def joiners (map : Id .map) : Link → List (Id .context)
  | member m c => if m = map then [c] else []
  | relationship m r => if m = map then [r.left, r.right] else []
  | implementation .. => []

/-- The relationships that a map is given. -/
def relationships (map : Id .map) : Link → List Relationship
  | relationship m r => if m = map then [r] else []
  | _ => []

/-- The map that a context joins. -/
def joined? (context : Id .context) : Link → Option (Id .map)
  | member m c => if c = context then some m else none
  | relationship m r => if r.left = context ∨ r.right = context then some m else none
  | implementation .. => none

end Link

def Subdomain.link (s : Subdomain) (l : Link) : Subdomain :=
  { s with implementations := insertAll (l.implementers s.id) s.implementations }

def Context.link (c : Context) (l : Link) : Context :=
  { c with
    implements := insertAll (l.implemented c.id) c.implements
    map := (l.joined? c.id).or c.map }

def ContextMap.link (x : ContextMap) (l : Link) : ContextMap :=
  { x with
    contexts := insertAll (l.joiners x.id) x.contexts
    relationships := x.relationships ++ l.relationships x.id }

namespace Model

/-- The model after one change. -/
def link (m : Model) : Link → Model
  | .implementation context subdomain => m.addImplementation context subdomain
  | .member map context => m.addMember map context
  | .relationship map r => m.addRelationship map r

theorem addMember_eq {m : Model} (h : m.Indexed) (map : Id .map) (context : Id .context) :
    m.addMember map context =
      { m with
        contexts := m.contexts.map (·.link (.member map context))
        maps := m.maps.map (·.link (.member map context)) } := by
  rw [addMember, h.contexts.modify_eq_map, h.maps.modify_eq_map]
  congr 1
  · refine List.map_congr_left fun c _ => ?_
    by_cases hc : context = c.id <;>
      simp [Context.link, Link.implemented, Link.joined?, insertAll, hc]
  · refine List.map_congr_left fun x _ => ?_
    by_cases hx : map = x.id <;>
      simp [ContextMap.link, Link.joiners, Link.relationships, insertAll, hx]

theorem addMember_indexed {m : Model} (h : m.Indexed) (map : Id .map)
    (context : Id .context) : (m.addMember map context).Indexed := by
  rw [addMember_eq h]
  exact { h with
    contexts := h.contexts.map fun _ => rfl
    maps := h.maps.map fun _ => rfl }

theorem link_eq {m : Model} (h : m.Indexed) (l : Link) :
    m.link l =
      { m with
        subdomains := m.subdomains.map (·.link l)
        contexts := m.contexts.map (·.link l)
        maps := m.maps.map (·.link l) } := by
  cases l with
  | implementation context subdomain =>
      rw [link, addImplementation, h.contexts.modify_eq_map, h.subdomains.modify_eq_map]
      congr 1
      · refine List.map_congr_left fun s _ => ?_
        by_cases hs : subdomain = s.id <;>
          simp [Subdomain.link, Link.implementers, insertAll, hs]
      · refine List.map_congr_left fun c _ => ?_
        by_cases hc : context = c.id <;>
          simp [Context.link, Link.implemented, Link.joined?, insertAll, hc]
      · simp [ContextMap.link, Link.joiners, Link.relationships, insertAll]
  | member map context =>
      rw [link, addMember_eq h]
      congr 1
      simp [Subdomain.link, Link.implementers, insertAll]
  | relationship map r =>
      have hl := addMember_indexed h map r.left
      have hr := addMember_indexed hl map r.right
      rw [link, addRelationship, hr.maps.modify_eq_map, addMember_eq hl, addMember_eq h]
      simp only [List.map_map]
      congr 1
      · simp [Subdomain.link, Link.implementers, insertAll]
      · refine List.map_congr_left fun c _ => ?_
        by_cases hl : r.left = c.id <;> by_cases hr : r.right = c.id <;>
          simp [Context.link, Link.implemented, Link.joined?, insertAll, hl, hr]
      · refine List.map_congr_left fun x _ => ?_
        by_cases hx : map = x.id <;>
          simp [ContextMap.link, Link.joiners, Link.relationships, insertAll, hx]

theorem link_indexed {m : Model} (h : m.Indexed) (l : Link) : (m.link l).Indexed := by
  rw [link_eq h]
  exact { h with
    subdomains := h.subdomains.map fun _ => rfl
    contexts := h.contexts.map fun _ => rfl
    maps := h.maps.map fun _ => rfl }

/-- Links act on each thing on its own. -/
theorem foldl_link {m : Model} (h : m.Indexed) (links : List Link) :
    links.foldl link m =
      { m with
        subdomains := m.subdomains.map fun s => links.foldl Subdomain.link s
        contexts := m.contexts.map fun c => links.foldl Context.link c
        maps := m.maps.map fun x => links.foldl ContextMap.link x } := by
  induction links generalizing m with
  | nil => simp
  | cons l rest ih =>
      rw [List.foldl_cons, ih (link_indexed h l), link_eq h]
      simp only [List.map_map, List.foldl_cons, Function.comp_def]

end Model

/-! ## What links add up to -/

namespace Subdomain

theorem foldl_link (links : List Link) (s : Subdomain) :
    links.foldl link s =
      { s with
        implementations :=
          insertAll (links.flatMap (·.implementers s.id)) s.implementations } := by
  induction links generalizing s with
  | nil => rfl
  | cons l rest ih =>
      rw [List.foldl_cons, ih, List.flatMap_cons, insertAll_append]
      rfl

end Subdomain

namespace Context

theorem foldl_link (links : List Link) (c : Context) :
    links.foldl link c =
      { c with
        implements := insertAll (links.flatMap (·.implemented c.id)) c.implements
        map := (links.filterMap (·.joined? c.id)).getLast?.or c.map } := by
  induction links generalizing c with
  | nil => rfl
  | cons l rest ih =>
      rw [List.foldl_cons, ih, List.flatMap_cons, insertAll_append, List.filterMap_cons]
      cases hl : l.joined? c.id <;> simp [link, hl, List.getLast?_cons]

end Context

namespace ContextMap

theorem foldl_link (links : List Link) (x : ContextMap) :
    links.foldl link x =
      { x with
        contexts := insertAll (links.flatMap (·.joiners x.id)) x.contexts
        relationships := x.relationships ++ links.flatMap (·.relationships x.id) } := by
  induction links generalizing x with
  | nil => simp [insertAll]
  | cons l rest ih =>
      rw [List.foldl_cons, ih, List.flatMap_cons, insertAll_append, List.flatMap_cons,
        ← List.append_assoc]
      rfl

end ContextMap

/-! ## The links that a document makes -/

namespace ContextDecl

/-- The subdomains that a context implements, as its clauses list them. -/
def implementedIn (decl : ContextDecl) (d : Document) : List (Id .subdomain) :=
  decl.implements.filterMap fun reference => d.subdomainId? reference.name

def linksIn (decl : ContextDecl) (d : Document) (context : Id .context) : List Link :=
  (decl.implementedIn d).map (.implementation context)

end ContextDecl

namespace RelationDecl

/-- The relationship that a declaration describes, if it has two sides. -/
def resolveIn (decl : RelationDecl) (d : Document) : Option Relationship :=
  match d.contextId? decl.left.name, d.contextId? decl.right.name with
  | some left, some right => some (decl.toRelationship left right)
  | _, _ => none

end RelationDecl

namespace MapDecl

/-- What the `contains` settings of a map mention. -/
def mentions (decl : MapDecl) : List Reference :=
  decl.settings.flatMap fun
    | .contains references => references
    | _ => []

def containedIn (decl : MapDecl) (d : Document) : List (Id .context) :=
  decl.mentions.filterMap fun reference => d.contextId? reference.name

def relationshipsIn (decl : MapDecl) (d : Document) : List Relationship :=
  decl.relations.filterMap (·.resolveIn d)

def linksIn (decl : MapDecl) (d : Document) (map : Id .map) : List Link :=
  (decl.containedIn d).map (.member map) ++
    (decl.relationshipsIn d).map (.relationship map)

end MapDecl

namespace Document

/-- The links that elements make, given how many contexts and maps came before. -/
def linksFrom (d : Document) (contexts maps : Nat) : List Element → List Link
  | [] => []
  | .context decl :: rest =>
    decl.linksIn d ⟨contexts⟩ ++ d.linksFrom (contexts + 1) maps rest
  | .map decl :: rest =>
    decl.linksIn d ⟨maps⟩ ++ d.linksFrom contexts (maps + 1) rest
  | .domain _ :: rest => d.linksFrom contexts maps rest
  | .useCase _ :: rest => d.linksFrom contexts maps rest
  | .unknown _ :: rest => d.linksFrom contexts maps rest

def links (d : Document) : List Link :=
  d.linksFrom 0 0 d.elements

end Document

theorem flatMap_toList_map {α β γ : Type} (f : α → Option β) (g : β → γ) (xs : List α) :
    (xs.flatMap fun x => (f x).toList.map g) = (xs.filterMap f).map g := by
  induction xs with
  | nil => rfl
  | cons x xs ih =>
      rw [List.flatMap_cons, ih, List.filterMap_cons]
      cases f x <;> rfl

/-! ## The second pass

Each function of the second pass makes the links of what it is given, on any
draft where ids are indices and names mean what the document says. Both stay so
from link to link, which is all that the folds need. -/

/-- A draft that the second pass may be at work on. -/
structure Draft.Linkable (draft : Draft) (d : Document) : Prop where
  indexed : draft.model.Indexed
  resolves : draft.names.Resolves d

/-- What becomes of a draft when some links are made. The findings may become
more. -/
structure Draft.Gains (draft : Draft) (links : List Link) (draft' : Draft) : Prop where
  model_eq : draft'.model = links.foldl Model.link draft.model
  names_eq : draft'.names = draft.names

theorem Model.foldl_link_indexed {m : Model} (h : m.Indexed) (links : List Link) :
    (links.foldl link m).Indexed :=
  List.foldlRecOn _ _ h fun _ h l _ => link_indexed h l

namespace Draft

variable {d : Document}

theorem Linkable.gains {draft draft' : Draft} {links : List Link} (h : draft.Linkable d)
    (hgains : draft.Gains links draft') : draft'.Linkable d := by
  refine ⟨?_, ?_⟩
  · rw [hgains.model_eq]
    exact Model.foldl_link_indexed h.indexed links
  · rw [hgains.names_eq]
    exact h.resolves

theorem Gains.trans {draft draft' draft'' : Draft} {links later : List Link}
    (h : draft.Gains links draft') (hlater : draft'.Gains later draft'') :
    draft.Gains (links ++ later) draft'' := by
  refine ⟨?_, hlater.names_eq.trans h.names_eq⟩
  rw [hlater.model_eq, h.model_eq, List.foldl_append]

theorem foldl_gains {α : Type} {f : Draft → α → Draft} {linksOf : α → List Link}
    (hf : ∀ (draft : Draft) x, draft.Linkable d → draft.Gains (linksOf x) (f draft x))
    (xs : List α) {draft : Draft} (h : draft.Linkable d) :
    draft.Gains (xs.flatMap linksOf) (xs.foldl f draft) := by
  induction xs generalizing draft with
  | nil => exact ⟨rfl, rfl⟩
  | cons x xs ih => exact (hf draft x h).trans (ih (h.gains (hf draft x h)))

theorem linkImplementation_gains {draft : Draft} (h : draft.Linkable d)
    (context : Id .context) (owner : Owner) (reference : Reference) :
    draft.Gains ((d.subdomainId? reference.name).toList.map (.implementation context))
      (draft.linkImplementation context owner reference) := by
  rw [← h.resolves.subdomain, linkImplementation, subdomainId?]
  cases draft.names.find? .subdomain reference.name <;> exact ⟨rfl, rfl⟩

theorem linkContext_gains {draft : Draft} (h : draft.Linkable d) (context : Id .context)
    (decl : ContextDecl) :
    draft.Gains (decl.linksIn d context) (draft.linkContext context decl) := by
  rw [linkContext, ContextDecl.linksIn, ContextDecl.implementedIn, ← flatMap_toList_map]
  exact foldl_gains (fun draft reference h => linkImplementation_gains h _ _ reference) _ h

theorem linkMember_gains {draft : Draft} (h : draft.Linkable d) (map : Id .map)
    (owner : Owner) (reference : Reference) :
    draft.Gains ((d.contextId? reference.name).toList.map (.member map))
      (draft.linkMember map owner reference) := by
  rw [← h.resolves.context, linkMember, contextId?]
  cases draft.names.find? .context reference.name <;> exact ⟨rfl, rfl⟩

theorem foldl_linkMember_gains {draft : Draft} (h : draft.Linkable d) (map : Id .map)
    (owner : Owner) (references : List Reference) :
    draft.Gains
      ((references.filterMap fun reference => d.contextId? reference.name).map (.member map))
      (references.foldl (linkMember map owner) draft) := by
  rw [← flatMap_toList_map]
  exact foldl_gains (fun draft reference h => linkMember_gains h map owner reference) _ h

theorem linkRelation_gains {draft : Draft} (h : draft.Linkable d) (map : Id .map)
    (owner : Owner) (decl : RelationDecl) :
    draft.Gains ((decl.resolveIn d).toList.map (.relationship map))
      (draft.linkRelation map owner decl) := by
  rw [linkRelation, RelationDecl.resolveIn, ← h.resolves.context, ← h.resolves.context,
    contextId?, contextId?]
  cases draft.names.find? .context decl.left.name <;>
    cases draft.names.find? .context decl.right.name <;> exact ⟨rfl, rfl⟩

theorem foldl_linkRelation_gains {draft : Draft} (h : draft.Linkable d) (map : Id .map)
    (owner : Owner) (relations : List RelationDecl) :
    draft.Gains ((relations.filterMap (·.resolveIn d)).map (.relationship map))
      (relations.foldl (linkRelation map owner) draft) := by
  rw [← flatMap_toList_map]
  exact foldl_gains (fun draft decl h => linkRelation_gains h map owner decl) _ h

theorem linkMap_gains {draft : Draft} (h : draft.Linkable d) (map : Id .map)
    (decl : MapDecl) : draft.Gains (decl.linksIn d map) (draft.linkMap map decl) := by
  have members := foldl_linkMember_gains h map (.map decl.name) decl.mentions
  exact members.trans
    (foldl_linkRelation_gains (h.gains members) map (.map decl.name) decl.relations)

/-- Links elements in order, given how many contexts and maps came before them. -/
def linkElements (draft : Draft) (contexts maps : Nat) : List Element → Draft
  | [] => draft
  | .context decl :: rest =>
    (draft.linkContext ⟨contexts⟩ decl).linkElements (contexts + 1) maps rest
  | .map decl :: rest => (draft.linkMap ⟨maps⟩ decl).linkElements contexts (maps + 1) rest
  | _ :: rest => draft.linkElements contexts maps rest

/-- To link elements as what they were registered as is to count the contexts and
the maps once more. Registration may have gone on to further elements. -/
theorem foldl_linkElement (draft : Draft) (domains contexts maps useCases : Nat)
    (elements later : List Element) :
    (elements.zip (Registration.number domains contexts maps useCases
      (elements ++ later))).foldl linkElement draft =
        draft.linkElements contexts maps elements := by
  induction elements generalizing draft domains contexts maps useCases with
  | nil => rfl
  | cons element rest ih => cases element <;> exact ih ..

theorem linkElements_gains {draft : Draft} (h : draft.Linkable d) (contexts maps : Nat)
    (elements : List Element) :
    draft.Gains (d.linksFrom contexts maps elements)
      (draft.linkElements contexts maps elements) := by
  induction elements generalizing draft contexts maps with
  | nil => exact ⟨rfl, rfl⟩
  | cons element rest ih =>
      cases element with
      | context decl =>
          have hdecl := linkContext_gains h ⟨contexts⟩ decl
          exact hdecl.trans (ih (h.gains hdecl) (contexts + 1) maps)
      | map decl =>
          have hdecl := linkMap_gains h ⟨maps⟩ decl
          exact hdecl.trans (ih (h.gains hdecl) contexts (maps + 1))
      | domain decl => exact ih h contexts maps
      | useCase decl => exact ih h contexts maps
      | unknown decl => exact ih h contexts maps

end Draft

namespace Document

variable (d : Document) {policy : Policy}

theorem linkable_register (policy : Policy) : (d.register policy).Linkable d :=
  ⟨d.register_indexed, d.resolves_register⟩

/-- The draft after the first pass and some of the second. -/
theorem foldl_linkElement_take (policy : Policy) (n : Nat) :
    ((d.elements.take n).zip (d.register policy).registered).foldl Draft.linkElement
        (d.register policy) =
      (d.register policy).linkElements 0 0 (d.elements.take n) := by
  have numbered : (d.register policy).registered =
      Registration.number 0 0 0 0 (d.elements.take n ++ d.elements.drop n) := by
    rw [List.take_append_drop, d.registered_register]
  rw [numbered, Draft.foldl_linkElement]

theorem draft_eq_linkElements :
    d.draft policy = (d.register policy).linkElements 0 0 d.elements := by
  have linked := d.foldl_linkElement_take policy d.elements.length
  rw [List.take_length] at linked
  exact linked

theorem draft_gains : (d.register policy).Gains d.links (d.draft policy) := by
  rw [draft_eq_linkElements]
  exact Draft.linkElements_gains (d.linkable_register policy) 0 0 d.elements

/-- The final model: the registered one, with all links made. -/
theorem draft_model :
    (d.draft policy).model = d.links.foldl Model.link (d.register policy).model :=
  d.draft_gains.model_eq

end Document

end Landscape
