import Landscape.Proofs.Document.Writing
import Mathlib.Logic.Relation

/-!
# Documents without what is not read

Some of what a document holds is kept for the reader of the document and read by
nothing else: unknown declarations, what a context realizes and refines, settings
in no known form, and in bodies the settings that are plain or that have an
unknown key. An edit changes a document in one such place (`Document.Edit`). There
may be any number of edits, and they may be taken back, so that inserting is
covered by removing.

Documents are pruned of all that at once (`Document.pruned`). An edit does not
show in what is left (`Document.pruned_eq_of_edits`), and so a function that can
be told from what is left does not see any of the edits.
-/

namespace Landscape

/-! ## What is not read -/

/-- The keys that are looked for in the bodies of domains, subdomains and
contexts. -/
def Attribute.readKeys : List String :=
  ["domainVisionStatement", "type", "responsibilities", "implementationTechnology",
    "knowledgeLevel"]

/-- Whether an entry is a setting that nothing looks at. -/
def Entry.isIdle : Entry → Bool
  | setting .plain _ => true
  | setting _ a => !Attribute.readKeys.contains a.key
  | _ => false

def MapSetting.isOther : MapSetting → Bool
  | other _ => true
  | _ => false

def RelationAttribute.isOther : RelationAttribute → Bool
  | other _ => true
  | _ => false

def UseCasePart.isOther : UseCasePart → Bool
  | other _ => true
  | _ => false

/-! ## Edits -/

section

variable {α : Type}

/-- One of the idle items is removed from a list. -/
inductive Removal (idle : α → Bool) : List α → List α → Prop
  | intro (before : List α) {x : α} (h : idle x) (after : List α) :
    Removal idle (before ++ x :: after) (before ++ after)

/-- One item of a list is edited. -/
inductive Replacement (edit : α → α → Prop) : List α → List α → Prop
  | intro (before : List α) {x y : α} (h : edit x y) (after : List α) :
    Replacement edit (before ++ x :: after) (before ++ y :: after)

end

/-- An idle setting is removed from a body, or from the body of an entry in it. -/
inductive BodyEdit : List Entry → List Entry → Prop
  | setting {body body' : List Entry} (h : Removal Entry.isIdle body body') : BodyEdit body body'
  | inside (before : List Entry) (heading : Heading) {body body' : List Entry}
      (h : BodyEdit body body') (span : Span) (after : List Entry) :
    BodyEdit (before ++ .declaration heading body span :: after)
      (before ++ .declaration heading body' span :: after)

inductive RelationDecl.Edit (decl : RelationDecl) : RelationDecl → Prop
  | property {attributes : List RelationAttribute}
      (h : Removal RelationAttribute.isOther decl.attributes attributes) :
    Edit decl { decl with attributes }

/-- What is read by nothing is changed somewhere in an element. An unknown
declaration may become any other, and so may an entry of a use case. -/
inductive Element.Edit : Element → Element → Prop
  | domain (decl : DomainDecl) {body : List Entry} (h : BodyEdit decl.body body) :
    Edit (.domain decl) (.domain { decl with body })
  | context (decl : ContextDecl) {body : List Entry} (h : BodyEdit decl.body body) :
    Edit (.context decl) (.context { decl with body })
  | references (decl : ContextDecl) (realizes : List Reference) (refines : Option Reference) :
    Edit (.context decl) (.context { decl with realizes, refines })
  | setting (decl : MapDecl) {settings : List MapSetting}
      (h : Removal MapSetting.isOther decl.settings settings) :
    Edit (.map decl) (.map { decl with settings })
  | relation (decl : MapDecl) {relations : List RelationDecl}
      (h : Replacement RelationDecl.Edit decl.relations relations) :
    Edit (.map decl) (.map { decl with relations })
  | part (decl : UseCaseDecl) {parts : List UseCasePart}
      (h : Removal UseCasePart.isOther decl.parts parts) :
    Edit (.useCase decl) (.useCase { decl with parts })
  | entry (decl : UseCaseDecl) {parts : List UseCasePart}
      (h : Replacement (fun x y => x.isOther ∧ y.isOther) decl.parts parts) :
    Edit (.useCase decl) (.useCase { decl with parts })
  | unknown (decl decl' : UnknownDecl) : Edit (.unknown decl) (.unknown decl')

inductive Document.Edit : Document → Document → Prop
  | unknown {elements elements' : List Element}
      (h : Removal (fun e => !e.isKnown) elements elements') : Edit ⟨elements⟩ ⟨elements'⟩
  | element {elements elements' : List Element} (h : Replacement Element.Edit elements elements') :
    Edit ⟨elements⟩ ⟨elements'⟩

/-! ## Pruning -/

mutual

/-- An entry without the idle settings below it. -/
def Entry.pruned : Entry → Entry
  | .setting scope setting => .setting scope setting
  | .entity entity => .entity entity
  | .declaration heading body span => .declaration heading (prunedBody body) span
  | .unknownLine keyword words span => .unknownLine keyword words span

/-- A body without idle settings, at any depth. -/
def prunedBody : List Entry → List Entry
  | [] => []
  | entry :: rest =>
    if entry.isIdle then prunedBody rest else entry.pruned :: prunedBody rest

end

theorem prunedBody_eq_map (body : List Entry) :
    prunedBody body = (body.filter (!·.isIdle)).map Entry.pruned := by
  induction body with
  | nil => rw [prunedBody, List.filter_nil, List.map_nil]
  | cons entry rest ih =>
      rw [prunedBody, ih]
      cases h : entry.isIdle <;> simp [h]

def DomainDecl.pruned (decl : DomainDecl) : DomainDecl :=
  { decl with body := prunedBody decl.body }

def ContextDecl.pruned (decl : ContextDecl) : ContextDecl :=
  { decl with realizes := [], refines := none, body := prunedBody decl.body }

def RelationDecl.pruned (decl : RelationDecl) : RelationDecl :=
  { decl with attributes := decl.attributes.filter (!·.isOther) }

def MapDecl.pruned (decl : MapDecl) : MapDecl :=
  { decl with
    settings := decl.settings.filter (!·.isOther)
    relations := decl.relations.map RelationDecl.pruned }

def UseCaseDecl.pruned (decl : UseCaseDecl) : UseCaseDecl :=
  { decl with parts := decl.parts.filter (!·.isOther) }

def Element.pruned? : Element → Option Element
  | domain decl => some (.domain decl.pruned)
  | context decl => some (.context decl.pruned)
  | map decl => some (.map decl.pruned)
  | useCase decl => some (.useCase decl.pruned)
  | unknown _ => none

/-- A document without all that is read by nothing. -/
def Document.pruned (d : Document) : Document :=
  ⟨d.elements.filterMap Element.pruned?⟩

/-! ## Edits do not show -/

section

variable {α β : Type} {idle : α → Bool} {edit : α → α → Prop} {xs ys : List α}

theorem Removal.filterMap_eq {f : α → Option β} (h : Removal idle xs ys)
    (hf : ∀ x, idle x → f x = none) : xs.filterMap f = ys.filterMap f := by
  obtain ⟨before, hx, after⟩ := h
  simp [hf _ hx]

theorem Removal.filter_eq (h : Removal idle xs ys) : xs.filter (!idle ·) = ys.filter (!idle ·) := by
  obtain ⟨before, hx, after⟩ := h
  simp [hx]

theorem Replacement.filterMap_eq {f : α → Option β} (h : Replacement edit xs ys)
    (hf : ∀ x y, edit x y → f x = f y) : xs.filterMap f = ys.filterMap f := by
  obtain ⟨before, hxy, after⟩ := h
  simp [List.filterMap_cons, hf _ _ hxy]

theorem Replacement.map_eq {f : α → β} (h : Replacement edit xs ys)
    (hf : ∀ x y, edit x y → f x = f y) : xs.map f = ys.map f := by
  obtain ⟨before, hxy, after⟩ := h
  simp [hf _ _ hxy]

theorem Replacement.filter_eq (h : Replacement edit xs ys)
    (hedit : ∀ x y, edit x y → idle x ∧ idle y) :
    xs.filter (!idle ·) = ys.filter (!idle ·) := by
  obtain ⟨before, hxy, after⟩ := h
  simp [hedit _ _ hxy]

end

theorem BodyEdit.pruned_eq {body body' : List Entry} (h : BodyEdit body body') :
    prunedBody body = prunedBody body' := by
  induction h with
  | setting h => rw [prunedBody_eq_map, prunedBody_eq_map, h.filter_eq]
  | inside before heading _ span after ih =>
      simp only [prunedBody_eq_map (_ ++ _), List.filter_append, List.map_append,
        List.filter_cons_of_pos, Entry.isIdle, Bool.not_false, List.map_cons, Entry.pruned, ih]

theorem RelationDecl.Edit.pruned_eq {decl decl' : RelationDecl} (h : decl.Edit decl') :
    decl.pruned = decl'.pruned := by
  cases h with
  | property h => rw [pruned, pruned, h.filter_eq]

theorem Element.Edit.pruned?_eq {e e' : Element} (h : e.Edit e') : e.pruned? = e'.pruned? := by
  cases h with
  | domain decl h => rw [pruned?, pruned?, DomainDecl.pruned, DomainDecl.pruned, h.pruned_eq]
  | context decl h => rw [pruned?, pruned?, ContextDecl.pruned, ContextDecl.pruned, h.pruned_eq]
  | references decl realizes refines => rfl
  | setting decl h => rw [pruned?, pruned?, MapDecl.pruned, MapDecl.pruned, h.filter_eq]
  | relation decl h =>
      rw [pruned?, pruned?, MapDecl.pruned, MapDecl.pruned,
        h.map_eq fun _ _ => RelationDecl.Edit.pruned_eq]
  | part decl h => rw [pruned?, pruned?, UseCaseDecl.pruned, UseCaseDecl.pruned, h.filter_eq]
  | entry decl h =>
      rw [pruned?, pruned?, UseCaseDecl.pruned, UseCaseDecl.pruned, h.filter_eq fun _ _ => id]
  | unknown decl decl' => rfl

namespace Document

/-- What one edit leaves as it is. -/
theorem Edit.pruned_eq {d d' : Document} (h : d.Edit d') : d.pruned = d'.pruned := by
  cases h with
  | unknown h =>
      have hunknown (e : Element) (he : !e.isKnown) : e.pruned? = none := by
        cases e with
        | unknown decl => rfl
        | _ => cases he
      rw [pruned, pruned, h.filterMap_eq hunknown]
  | element h => rw [pruned, pruned, h.filterMap_eq fun _ _ => Element.Edit.pruned?_eq]

theorem pruned_eq_of_edits {d d' : Document} (h : Relation.EqvGen Document.Edit d d') :
    d.pruned = d'.pruned := by
  induction h with
  | rel _ _ h => exact h.pruned_eq
  | refl _ => rfl
  | symm _ _ _ ih => exact ih.symm
  | trans _ _ _ _ _ ih ih' => exact ih.trans ih'

end Document

end Landscape
