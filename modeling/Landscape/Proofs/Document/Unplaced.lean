import Landscape.Document.Basic

/-!
# Documents without places

Two documents say the same if they differ in nothing but spans. That is put as
an equation here: both are equal once every span in them is taken away. The
constructions of the grammar commute with that, each by looking at nothing but
keys and values (`MapSetting.unplaced_ofAttribute` and the like).
-/

namespace Landscape

/-! ## Lists

What is picked from a list without places is what is picked from the list,
without its places. So is what is made of it step by step. -/

section

variable {α β : Type}

theorem filterMap_map_comm {pick : α → Option β} {f : α → α} {g : β → β}
    (h : ∀ x, pick (f x) = (pick x).map g) (xs : List α) :
    (xs.map f).filterMap pick = (xs.filterMap pick).map g := by
  rw [List.filterMap_map, List.map_filterMap]
  exact congrArg (xs.filterMap ·) (funext h)

theorem flatMap_map_comm {pick : α → List β} {f : α → α} {g : β → β}
    (h : ∀ x, pick (f x) = (pick x).map g) (xs : List α) :
    (xs.map f).flatMap pick = (xs.flatMap pick).map g := by
  rw [List.flatMap_map, List.map_flatMap]
  exact congrArg (xs.flatMap ·) (funext h)

theorem filterMap_map_of_forall_eq {pick : α → Option β} {f : α → α}
    (h : ∀ x, pick (f x) = pick x) (xs : List α) :
    (xs.map f).filterMap pick = xs.filterMap pick := by
  rw [List.filterMap_map]
  exact congrArg (xs.filterMap ·) (funext h)

theorem foldl_map_comm {step : β → α → β} {f : α → α} {g : β → β}
    (h : ∀ y x, step (g y) (f x) = g (step y x)) (y : β) (xs : List α) :
    (xs.map f).foldl step (g y) = g (xs.foldl step y) := by
  rw [List.foldl_map]
  exact List.foldl_hom g h

end

/-! ## Documents and their parts -/

def Reference.unplaced (r : Reference) : Reference :=
  { r with span := .none }

def BareEntity.unplaced (e : BareEntity) : BareEntity :=
  { e with span := .none }

def Attribute.unplaced (a : Attribute) : Attribute :=
  { a with span := .none }

def Heading.unplaced : Heading → Heading
  | .subdomain name entities => .subdomain name (entities.map BareEntity.unplaced)
  | .object kind name => .object kind name
  | .group kind name => .group kind name
  | .unknown keyword words => .unknown keyword words

mutual

/-- An entry without the spans of it and of all that is below it. -/
def Entry.unplaced : Entry → Entry
  | .setting scope setting => .setting scope setting.unplaced
  | .entity entity => .entity entity.unplaced
  | .declaration heading body _ => .declaration heading.unplaced (unplacedBody body) .none
  | .unknownLine keyword words _ => .unknownLine keyword words .none

/-- A body without spans. -/
def unplacedBody : List Entry → List Entry
  | [] => []
  | entry :: rest => entry.unplaced :: unplacedBody rest

end

theorem unplacedBody_eq_map (body : List Entry) :
    unplacedBody body = body.map Entry.unplaced := by
  induction body with
  | nil => rw [unplacedBody, List.map_nil]
  | cons entry rest ih => rw [unplacedBody, ih, List.map_cons]

def DomainDecl.unplaced (decl : DomainDecl) : DomainDecl :=
  { decl with body := unplacedBody decl.body, span := .none }

def ContextDecl.unplaced (decl : ContextDecl) : ContextDecl :=
  { decl with
    implements := decl.implements.map Reference.unplaced
    realizes := decl.realizes.map Reference.unplaced
    refines := decl.refines.map Reference.unplaced
    body := unplacedBody decl.body
    span := .none }

namespace MapSetting

def unplaced : MapSetting → MapSetting
  | type value => .type value
  | state value => .state value
  | contains references => .contains (references.map Reference.unplaced)
  | other setting => .other setting.unplaced

theorem unplaced_ofAttribute (setting : Attribute) :
    (ofAttribute setting).unplaced = ofAttribute setting.unplaced := by
  simp only [ofAttribute, Attribute.unplaced, Attribute.firstValue?]
  split <;> rfl

end MapSetting

def Endpoint.unplaced (e : Endpoint) : Endpoint :=
  { e with span := .none }

namespace RelationAttribute

def unplaced : RelationAttribute → RelationAttribute
  | type value => .type value
  | technology value => .technology value
  | other setting => .other setting.unplaced

theorem unplaced_ofAttribute (setting : Attribute) :
    (ofAttribute setting).unplaced = ofAttribute setting.unplaced := by
  simp only [ofAttribute, Attribute.unplaced, Attribute.firstValue?]
  split <;> rfl

end RelationAttribute

def RelationDecl.unplaced (decl : RelationDecl) : RelationDecl :=
  { decl with
    left := decl.left.unplaced
    right := decl.right.unplaced
    attributes := decl.attributes.map RelationAttribute.unplaced
    span := .none }

def MapDecl.unplaced (decl : MapDecl) : MapDecl :=
  { decl with
    settings := decl.settings.map MapSetting.unplaced
    relations := decl.relations.map RelationDecl.unplaced
    span := .none }

namespace UseCasePart

def unplaced : UseCasePart → UseCasePart
  | actor value => .actor value
  | secondaryActors values => .secondaryActors values
  | benefit value => .benefit value
  | scope value => .scope value
  | level value => .level value
  | other entry => .other entry.unplaced

theorem unplaced_ofEntry (entry : Entry) :
    (ofEntry entry).unplaced = ofEntry entry.unplaced := by
  cases entry with
  | setting scope setting =>
      cases scope with
      | plain =>
          simp only [ofEntry, Entry.unplaced, Attribute.unplaced, Attribute.firstValue?]
          split <;> rfl
      | subdomain => rfl
      | context => rfl
  | entity entity => rfl
  | declaration heading body span => rfl
  | unknownLine keyword words span => rfl

end UseCasePart

def UseCaseDecl.unplaced (decl : UseCaseDecl) : UseCaseDecl :=
  { decl with parts := decl.parts.map UseCasePart.unplaced, span := .none }

def UnknownDecl.unplaced (decl : UnknownDecl) : UnknownDecl :=
  { decl with body := decl.body.map unplacedBody, span := .none }

def Element.unplaced : Element → Element
  | domain decl => .domain decl.unplaced
  | context decl => .context decl.unplaced
  | map decl => .map decl.unplaced
  | useCase decl => .useCase decl.unplaced
  | unknown decl => .unknown decl.unplaced

def Document.unplaced (d : Document) : Document :=
  ⟨d.elements.map Element.unplaced⟩

end Landscape
