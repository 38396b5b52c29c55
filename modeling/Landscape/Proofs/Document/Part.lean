import Landscape.Proofs.Grammar.Derivation
import Mathlib.Data.List.Basic

/-!
# Where the parts of a document are written

A document is a tree, and many of its parts carry a span: elements, entries of
bodies, settings, references, relationships and their sides. They are put under
one type here (`Part`), with the lists of smaller parts that a part holds. Some
of these are written before the braces of a part, some between them, and that is
all that a part has to say about its layout.

`LaidOut read part` says that a part is written as the lexemes `read`. Its span
is that of the lexemes, they start with what the part starts with, and of each
list of smaller parts one is written after the other in some stretches of them
(`Scattered`). It says the same of the smaller parts, all the way down. What is
skipped lies between the stretches and is no one's.
-/

namespace Landscape

/-! ## Parts -/

/-- A part of a document with a span. -/
inductive Part
  | element (element : Element)
  | entry (entry : Entry)
  | setting (setting : Attribute)
  | reference (reference : Reference)
  | relation (decl : RelationDecl)
  | endpoint (endpoint : Endpoint)

def Element.span : Element → Span
  | domain decl => decl.span
  | context decl => decl.span
  | map decl => decl.span
  | useCase decl => decl.span
  | unknown decl => decl.span

def Entry.span : Entry → Span
  | setting _ a => a.span
  | entity e => e.span
  | declaration _ _ span => span
  | unknownLine _ _ span => span

/-- The parts of a map that a setting holds. A type and a state have no span. -/
def MapSetting.parts : MapSetting → List Part
  | contains references => references.map .reference
  | other setting => [.setting setting]
  | _ => []

def RelationAttribute.parts : RelationAttribute → List Part
  | other setting => [.setting setting]
  | _ => []

namespace Part

def span : Part → Span
  | element e => e.span
  | entry e => e.span
  | setting a => a.span
  | reference r => r.span
  | relation r => r.span
  | endpoint e => e.span

/-- The parts that are written in front of the braces of a part. -/
def outer : Part → List (List Part)
  | element (.context decl) =>
    [decl.implements.map reference, decl.realizes.map reference,
      decl.refines.toList.map reference]
  | entry (.declaration heading _ _) => [heading.ownEntities.map entry]
  | relation r => [[endpoint r.left, endpoint r.right]]
  | _ => []

/-- The parts that are written between the braces of a part. -/
def inner : Part → List (List Part)
  | element (.map decl) =>
    [decl.settings.flatMap MapSetting.parts, decl.relations.map relation]
  | element e => [e.body.map entry]
  | entry (.declaration _ body _) => [body.map entry]
  | relation r => [r.attributes.flatMap RelationAttribute.parts]
  | _ => []

/-- The lists of smaller parts. -/
def lists (part : Part) : List (List Part) :=
  part.outer ++ part.inner

end Part

/-- A part of a document, at any depth. -/
inductive Document.HasPart (d : Document) : Part → Prop
  | element {e : Element} (mem : e ∈ d.elements) : HasPart d (.element e)
  | part {part smaller : Part} {list : List Part} (has : HasPart d part)
      (mem_lists : list ∈ part.lists) (mem : smaller ∈ list) : HasPart d smaller

/-! ## What parts start with -/

/-- The tokens start with the key of a setting, an equals sign and its first
value. -/
def Attribute.Opens (a : Attribute) (ts : List Token) : Prop :=
  ∃ t value, Value.ofToken? t = some value ∧ a.values.head? = some value ∧
    [.name a.key, .equals, t] <+: ts

namespace Heading

/-- A word is the keyword of a heading, or one of its keywords. -/
def StartsWith (keyword : String) : Heading → Prop
  | subdomain .. => keyword = "Subdomain"
  | object kind _ => ObjectKind.ofKeyword? keyword = some kind
  | group kind _ => keyword = kind.keyword
  | unknown keyword' _ => keyword = keyword'

def name? : Heading → Option String
  | subdomain name _ | object _ name | group _ name => some name
  | unknown .. => none

theorem of_named? {keyword text : String} {heading : Heading}
    (h : named? keyword text = some heading) :
    heading.StartsWith keyword ∧ heading.name? = some text ∧ heading.ownEntities = [] := by
  unfold named? at h
  split at h
  · next hkeyword => cases h; exact ⟨hkeyword, rfl, rfl⟩
  split at h
  · next hkeyword => cases h; exact ⟨hkeyword, rfl, rfl⟩
  split at h
  · next hkeyword => cases h; exact ⟨hkeyword, rfl, rfl⟩
  split at h
  · next hkeyword => cases h; exact ⟨hkeyword, rfl, rfl⟩
  · obtain ⟨kind, hkind, rfl⟩ := Option.map_eq_some_iff.1 h
    exact ⟨hkind, rfl, rfl⟩

/-- The tokens start with a keyword of a heading and its name. -/
def Opens (heading : Heading) (ts : List Token) : Prop :=
  ∃ keyword, heading.StartsWith keyword ∧
    .name keyword :: heading.name?.toList.map .name <+: ts

end Heading

/-- The words that an element starts with. -/
def Element.opening : Element → List String
  | domain decl => ["Domain", decl.name]
  | context decl => ["BoundedContext", decl.name]
  | map decl => "ContextMap" :: decl.name.toList
  | useCase decl => ["UseCase", decl.name]
  | unknown decl => [decl.keyword]

/-- The tokens start with what a part starts with, and if it is a mention they
are no more than that. Entities and lines are read from nothing. -/
def Part.Opens (part : Part) (ts : List Token) : Prop :=
  match part with
  | element e => e.opening.map .name <+: ts
  | entry (.setting _ a) | setting a => a.Opens ts
  | entry (.declaration heading _ _) => heading.Opens ts
  | entry (.entity _) | entry (.unknownLine ..) => False
  | reference r => ts = [.name r.name]
  | relation r => r.left.tokens <+: ts
  | endpoint e => ts = e.tokens

/-! ## One after the other -/

section

variable {α β : Type}

/-- Of the items one is written after the other, with lexemes between them that
belong to none. -/
inductive Scattered (P : List Lexeme → α → Prop) : List Lexeme → List α → Prop
  | nil {xs : List Lexeme} : Scattered P xs []
  | cons {gap first rest : List Lexeme} {item : α} {items : List α} (written : P first item)
      (more : Scattered P rest items) : Scattered P (gap ++ (first ++ rest)) (item :: items)

namespace Scattered

variable {P : List Lexeme → α → Prop} {xs ys : List Lexeme} {items later : List α} {item : α}

theorem prepend (h : Scattered P xs items) (ys : List Lexeme) : Scattered P (ys ++ xs) items := by
  cases h with
  | nil => exact .nil
  | cons hitem more =>
      rw [← List.append_assoc]
      exact .cons hitem more

/-- The second list comes after the first one, in lexemes of its own. -/
theorem append (h : Scattered P xs items) (hlater : Scattered P ys later) :
    Scattered P (xs ++ ys) (items ++ later) := by
  induction h with
  | nil => exact hlater.prepend _
  | cons hitem _ ih =>
      rw [List.append_assoc, List.append_assoc]
      exact .cons hitem ih

theorem extend (h : Scattered P xs items) (ys : List Lexeme) : Scattered P (xs ++ ys) items := by
  have hextended := h.append (.nil : Scattered P ys [])
  rwa [List.append_nil] at hextended

theorem singleton (h : P xs item) : Scattered P xs [item] := by
  rw [← List.nil_append xs, ← List.append_nil xs]
  exact .cons h .nil

theorem of_forall₂ {stretches : List (List Lexeme)} (h : List.Forall₂ P stretches items) :
    Scattered P stretches.flatten items := by
  induction h with
  | nil => exact .nil
  | cons hitem _ ih =>
      have hcons := (singleton hitem).append ih
      exact hcons

theorem sublist (h : Scattered P xs items) (hsub : later.Sublist items) :
    Scattered P xs later := by
  induction h generalizing later with
  | nil =>
      rw [List.sublist_nil.1 hsub]
      exact .nil
  | cons hitem _ ih =>
      rcases List.sublist_cons_iff.1 hsub with hrest | ⟨kept, rfl, hrest⟩
      · exact ((ih hrest).prepend _).prepend _
      · exact .cons hitem (ih hrest)

/-- An item is nothing but the lists of things that are written where it is. -/
theorem flatMap {Q : List Lexeme → β → Prop} {f : α → List β} (h : Scattered P xs items)
    (hf : ∀ read item, P read item → Scattered Q read (f item)) :
    Scattered Q xs (items.flatMap f) := by
  induction h with
  | nil => exact .nil
  | cons hitem _ ih =>
      rw [List.flatMap_cons]
      exact ((hf _ _ hitem).append ih).prepend _

theorem map {Q : List Lexeme → β → Prop} {f : α → β} (h : Scattered P xs items)
    (hf : ∀ read item, P read item → Q read (f item)) : Scattered Q xs (items.map f) := by
  rw [List.map_eq_flatMap]
  exact h.flatMap fun read item hitem => singleton (hf read item hitem)

theorem exists_of_mem (h : Scattered P xs items) (hmem : item ∈ items) :
    ∃ read, read <:+: xs ∧ P read item := by
  induction h with
  | nil => cases hmem
  | @cons gap first rest _ _ hitem _ ih =>
      rcases List.mem_cons.1 hmem with rfl | hmem
      · exact ⟨first, ⟨gap, rest, List.append_assoc ..⟩, hitem⟩
      · obtain ⟨read, hread, hP⟩ := ih hmem
        have hrest : rest <:+ gap ++ (first ++ rest) :=
          (List.suffix_append first rest).trans (List.suffix_append gap _)
        exact ⟨read, hread.trans hrest.isInfix, hP⟩

end Scattered

end

/-! ## Layout -/

/-- A part is written as some lexemes, and so are the smaller parts. -/
inductive LaidOut : List Lexeme → Part → Prop
  | bare {read : List Lexeme} {part : Part} (ne_nil : read ≠ []) (span_eq : part.span = spanOf read)
      (opens : part.Opens (read.map Lexeme.token))
      (outer : ∀ list ∈ part.outer, Scattered LaidOut read list)
      (inner : ∀ list ∈ part.inner, list = []) : LaidOut read part
  | braced {head inside : List Lexeme} {opening closing : Lexeme} {part : Part}
      (span_eq : part.span = spanOf (head ++ opening :: (inside ++ [closing])))
      (opens : part.Opens ((head ++ opening :: (inside ++ [closing])).map Lexeme.token))
      (opening_eq : opening.token = .openBrace) (closing_eq : closing.token = .closeBrace)
      (outer : ∀ list ∈ part.outer, Scattered LaidOut head list)
      (inner : ∀ list ∈ part.inner, Scattered LaidOut inside list) :
      LaidOut (head ++ opening :: (inside ++ [closing])) part

namespace LaidOut

variable {read : List Lexeme} {part : Part} {list : List Part}

theorem ne_nil (h : LaidOut read part) : read ≠ [] := by
  cases h with
  | bare hne => exact hne
  | braced => simp

theorem span_eq (h : LaidOut read part) : part.span = spanOf read := by
  cases h with
  | bare _ hspan => exact hspan
  | braced hspan => exact hspan

theorem opens (h : LaidOut read part) : part.Opens (read.map Lexeme.token) := by
  cases h with
  | bare _ _ hopens => exact hopens
  | braced _ hopens => exact hopens

theorem scattered (h : LaidOut read part) (hlist : list ∈ part.lists) :
    Scattered LaidOut read list := by
  rcases List.mem_append.1 hlist with houter | hinner
  · cases h with
    | bare _ _ _ hall => exact hall list houter
    | braced _ _ _ _ hall => exact (hall list houter).extend _
  · cases h with
    | bare _ _ _ _ hall =>
        rw [hall list hinner]
        exact .nil
    | @braced _ _ opening _ _ _ _ _ _ _ hall =>
        exact (((hall list hinner).extend _).prepend [opening]).prepend _

end LaidOut

/-- If the elements of a document are written one after the other, then every
part is written among their lexemes. -/
theorem Document.HasPart.exists_laidOut {d : Document} {lexemes : List Lexeme} {part : Part}
    (h : d.HasPart part) (hd : Scattered LaidOut lexemes (d.elements.map .element)) :
    ∃ read, read <:+: lexemes ∧ LaidOut read part := by
  induction h with
  | element hmem => exact hd.exists_of_mem (List.mem_map_of_mem hmem)
  | part _ hlist hmem ih =>
      obtain ⟨read, hread, hpart⟩ := ih
      obtain ⟨read', hread', hsmaller⟩ := (hpart.scattered hlist).exists_of_mem hmem
      exact ⟨read', hread'.trans hread, hsmaller⟩

end Landscape
