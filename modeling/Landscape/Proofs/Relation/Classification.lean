import Landscape.Relation.Classification
import Mathlib.Data.List.Forall2

/-!
# What a relationship is called

A relationship can say what it is in four ways, and it is called by the first of
them that it uses (`RelationDecl.labelSources`). Roles take part in two places. One
next to an arrow keeps the arrow from counting, and those of an upstream and a
downstream side come last. So all that a label asks of the four lists of roles is
whether there is one next to the arrow, and which there are between the four
(`RelationDecl.label_congr`). It does not ask for their order, nor for their case,
nor for how often a role is given in a list. But a role that was given elsewhere is
not one next to the arrow until it is given there, so that to give it again can
change the label.

Read from its other end, a relationship has the same roles. The two lists next to
its arrow change places, so the arrow counts as before, and it is turned around.
-/

namespace Landscape

open Text OrderedSet

namespace Arrow

def mirrored : Arrow → Arrow
  | right => left
  | left => right
  | both => both

end Arrow

def Endpoint.mirrored (e : Endpoint) : Endpoint :=
  { e with rolesBefore := e.rolesAfter, rolesAfter := e.rolesBefore }

def RelationAttribute.statedType? : RelationAttribute → Option String
  | type value => some value
  | _ => none

namespace RelationDecl

/-- A relationship as it is read from its other end. -/
def mirrored (decl : RelationDecl) : RelationDecl :=
  { decl with
    left := decl.right.mirrored
    right := decl.left.mirrored
    connection := { decl.connection with arrow := decl.connection.arrow.map Arrow.mirrored } }

variable {decl other : RelationDecl}

/-! ## Roles -/

/-- The roles before and after the name of either side. -/
def roleLists (decl : RelationDecl) : List (List String) :=
  [decl.left.rolesBefore, decl.left.rolesAfter, decl.right.rolesBefore, decl.right.rolesAfter]

/-- The roles of both sides as they were written. -/
def roleTexts (decl : RelationDecl) : List String :=
  decl.left.rolesBefore ++ decl.left.rolesAfter ++ decl.right.rolesBefore ++
    decl.right.rolesAfter

theorem roleTexts_eq_flatten (decl : RelationDecl) : decl.roleTexts = decl.roleLists.flatten := by
  simp [roleTexts, roleLists]

theorem roles_eq_eraseDups (decl : RelationDecl) :
    decl.roles = (decl.roleTexts.map upper).eraseDups :=
  insertAll_nil_eq_eraseDups _

theorem mem_roles {role : String} :
    role ∈ decl.roles ↔ ∃ text ∈ decl.roleTexts, upper text = role := by
  rw [roles_eq_eraseDups, List.mem_eraseDups, List.mem_map]

/-- Two lists that hold the same roles when case is set aside. -/
def SameRoles (xs ys : List String) : Prop :=
  xs.map upper ⊆ ys.map upper ∧ ys.map upper ⊆ xs.map upper

instance (xs ys : List String) : Decidable (SameRoles xs ys) :=
  inferInstanceAs (Decidable (_ ∧ _))

theorem sameRoles_iff {xs ys : List String} :
    SameRoles xs ys ↔ ∀ role, role ∈ xs.map upper ↔ role ∈ ys.map upper :=
  ⟨fun h _ => ⟨fun hrole => h.1 hrole, fun hrole => h.2 hrole⟩,
    fun h => ⟨fun _ => (h _).1, fun _ => (h _).2⟩⟩

theorem SameRoles.eq_nil_iff {xs ys : List String} (h : SameRoles xs ys) : xs = [] ↔ ys = [] := by
  rw [← List.map_eq_nil_iff (f := upper), ← List.map_eq_nil_iff (f := upper) (l := ys),
    List.eq_nil_iff_forall_not_mem, List.eq_nil_iff_forall_not_mem]
  exact forall_congr' fun role => not_congr (sameRoles_iff.1 h role)

theorem SameRoles.flatten {xss yss : List (List String)} (h : List.Forall₂ SameRoles xss yss) :
    SameRoles xss.flatten yss.flatten := by
  induction h with
  | nil => exact sameRoles_iff.2 fun _ => Iff.rfl
  | cons hfirst _ ih =>
      rw [sameRoles_iff] at hfirst ih ⊢
      intro role
      simp only [List.flatten_cons, List.map_append, List.mem_append, hfirst role, ih role]

section Repeated

variable {before after : List String} {role : String} (hdecl : decl.roleTexts = before ++ after)
  (hother : other.roleTexts = before ++ role :: after) (hrole : upper role ∈ before.map upper)

include hdecl hother hrole

/-- A role that was given before is not taken up again. -/
theorem roles_eq_of_repeated : other.roles = decl.roles := by
  rw [roles_eq_eraseDups, roles_eq_eraseDups, hdecl, hother, List.map_append, List.map_append,
    ← insertAll_nil_eq_eraseDups, ← insertAll_nil_eq_eraseDups, insertAll_append,
    insertAll_append]
  have hset : OrderedSet.insert (upper role) (insertAll (before.map upper) []) =
      insertAll (before.map upper) [] := if_pos (mem_insertAll.2 (.inr hrole))
  rw [List.map_cons, insertAll, List.foldl_cons, hset]
  rfl

theorem sameRoles_of_repeated : SameRoles other.roleTexts decl.roleTexts := by
  refine sameRoles_iff.2 fun text => ?_
  have held := roles_eq_of_repeated hdecl hother hrole
  rw [roles_eq_eraseDups, roles_eq_eraseDups] at held
  rw [← List.mem_eraseDups, held, List.mem_eraseDups]

end Repeated

/-! ## Labels -/

/-- The first type that is not empty. -/
def firstType? (decl : RelationDecl) : Option String :=
  (decl.attributes.filterMap RelationAttribute.statedType?).find? (· ≠ "")

/-- What a relationship says it is, each way in its turn: by a keyword, by a type,
by an arrow with no role next to it, and by its roles. -/
def labelSources (decl : RelationDecl) : List (Option String) :=
  [decl.connection.keyword,
    decl.firstType?,
    if decl.left.rolesAfter = [] ∧ decl.right.rolesBefore = [] then
      decl.connection.arrow.map Arrow.text
    else none,
    if "U" ∈ decl.roleTexts.map upper ∧ "D" ∈ decl.roleTexts.map upper then
      some "Upstream-Downstream"
    else none]

/-- The arrow, if the relationship is called by it. A type that reads like an arrow
is a type. -/
def labelArrow? (decl : RelationDecl) : Option Arrow :=
  if decl.connection.keyword = none ∧ decl.firstType? = none ∧
      decl.left.rolesAfter = [] ∧ decl.right.rolesBefore = [] then
    decl.connection.arrow
  else none

theorem statedType?_eq_firstType? (decl : RelationDecl) : decl.statedType? = decl.firstType? := by
  rw [statedType?, firstType?]
  induction decl.attributes with
  | nil => rfl
  | cons a attributes ih =>
      cases a with
      | type value =>
          by_cases hvalue : value = ""
          · subst hvalue
            exact ih
          · simp [RelationAttribute.statedType?, hvalue]
      | technology value => exact ih
      | other setting => exact ih

theorem isUpstreamDownstream_iff :
    decl.isUpstreamDownstream ↔
      "U" ∈ decl.roleTexts.map upper ∧ "D" ∈ decl.roleTexts.map upper := by
  simp only [isUpstreamDownstream, RelationPattern.label, Bool.and_eq_true,
    List.contains_iff_mem, roles_eq_eraseDups, List.mem_eraseDups]

/-- The label is what the first way that is used gives. -/
theorem label_eq (decl : RelationDecl) :
    decl.label = (decl.labelSources.findSome? id).getD "Unknown" := by
  have harrow : decl.plainArrow? =
      if decl.left.rolesAfter = [] ∧ decl.right.rolesBefore = [] then decl.connection.arrow
      else none := by
    simp [plainArrow?]
  have hroles : (if decl.isUpstreamDownstream then RelationPattern.upstreamDownstream.label
        else unknownLabel) =
      ([if "U" ∈ decl.roleTexts.map upper ∧ "D" ∈ decl.roleTexts.map upper then
        some "Upstream-Downstream" else none].findSome? id).getD "Unknown" := by
    simp only [isUpstreamDownstream_iff]
    split <;> rfl
  rw [label, labelSources, statedType?_eq_firstType?, harrow]
  cases decl.connection.keyword with
  | some keyword => rfl
  | none =>
      cases decl.firstType? with
      | some type => rfl
      | none =>
          by_cases hbare : decl.left.rolesAfter = [] ∧ decl.right.rolesBefore = []
          · rw [if_pos hbare, if_pos hbare]
            cases decl.connection.arrow with
            | some arrow => rfl
            | none => exact hroles
          · rw [if_neg hbare, if_neg hbare]
            exact hroles

/-- All that a label asks of the roles: which there are, and whether there is one
next to the arrow. -/
theorem label_congr (hconnection : other.connection = decl.connection)
    (hattributes : other.attributes = decl.attributes)
    (hafter : other.left.rolesAfter = [] ↔ decl.left.rolesAfter = [])
    (hbefore : other.right.rolesBefore = [] ↔ decl.right.rolesBefore = [])
    (hroles : SameRoles other.roleTexts decl.roleTexts) : other.label = decl.label := by
  rw [label_eq, label_eq, labelSources, labelSources, firstType?, firstType?, hconnection,
    hattributes]
  simp only [sameRoles_iff.1 hroles "U", sameRoles_iff.1 hroles "D", hafter, hbefore]

theorem label_eq_of_sameRoles (hconnection : other.connection = decl.connection)
    (hattributes : other.attributes = decl.attributes)
    (hlists : List.Forall₂ SameRoles other.roleLists decl.roleLists) :
    other.label = decl.label := by
  have hroles := SameRoles.flatten hlists
  rw [← roleTexts_eq_flatten, ← roleTexts_eq_flatten] at hroles
  simp only [roleLists, List.forall₂_cons] at hlists
  obtain ⟨-, hafter, hbefore, -⟩ := hlists
  exact label_congr hconnection hattributes hafter.eq_nil_iff hbefore.eq_nil_iff hroles

/-! ## The other end -/

theorem mem_roleTexts_mirrored {text : String} :
    text ∈ decl.mirrored.roleTexts ↔ text ∈ decl.roleTexts := by
  simp only [roleTexts, mirrored, Endpoint.mirrored, List.mem_append]
  tauto

theorem mem_roles_mirrored {role : String} : role ∈ decl.mirrored.roles ↔ role ∈ decl.roles := by
  simp only [mem_roles, mem_roleTexts_mirrored]

theorem label_eq_text {arrow : Arrow} (h : decl.labelArrow? = some arrow) :
    decl.label = arrow.text := by
  rw [labelArrow?] at h
  split at h
  · next hall =>
      obtain ⟨hkeyword, htype, hbare⟩ := hall
      rw [label_eq, labelSources, hkeyword, htype, if_pos hbare, h]
      rfl
  · cases h

/-- A relationship that is not called by its arrow is called as if it had none. -/
theorem label_eq_of_labelArrow?_eq_none (h : decl.labelArrow? = none) :
    decl.label = ((decl.labelSources.eraseIdx 2).findSome? id).getD "Unknown" := by
  rw [label_eq, labelSources]
  cases hkeyword : decl.connection.keyword with
  | some keyword => rfl
  | none =>
      cases htype : decl.firstType? with
      | some type => rfl
      | none =>
          split
          · next hbare =>
              rw [labelArrow?, if_pos ⟨hkeyword, htype, hbare⟩] at h
              rw [h]
              rfl
          · rfl

theorem labelArrow?_mirrored (decl : RelationDecl) :
    decl.mirrored.labelArrow? = decl.labelArrow?.map Arrow.mirrored := by
  have hbare : decl.mirrored.left.rolesAfter = [] ∧ decl.mirrored.right.rolesBefore = [] ↔
      decl.left.rolesAfter = [] ∧ decl.right.rolesBefore = [] := and_comm
  have htype : decl.mirrored.firstType? = decl.firstType? := rfl
  have hkeyword : decl.mirrored.connection.keyword = decl.connection.keyword := rfl
  rw [labelArrow?, labelArrow?, htype, hkeyword, apply_ite (Option.map Arrow.mirrored)]
  simp only [hbare]
  rfl

theorem label_mirrored_of_eq_none (h : decl.labelArrow? = none) :
    decl.mirrored.label = decl.label := by
  have hmirrored : decl.mirrored.labelArrow? = none := by rw [labelArrow?_mirrored, h]; rfl
  have held (role : String) :
      role ∈ decl.mirrored.roleTexts.map upper ↔ role ∈ decl.roleTexts.map upper := by
    simp only [List.mem_map, mem_roleTexts_mirrored]
  have sources : decl.mirrored.labelSources.eraseIdx 2 = decl.labelSources.eraseIdx 2 := by
    simp only [labelSources, List.eraseIdx_cons_succ, List.eraseIdx_cons_zero, held]
    rfl
  rw [label_eq_of_labelArrow?_eq_none h, label_eq_of_labelArrow?_eq_none hmirrored, sources]

/-- The roles of a relationship are all that are given, each once, and it is called
by the first way of saying what it is that it uses. So the label does not depend on
the order or the case of the roles in the lists, and to give a role again changes
nothing, unless it is the first next to the arrow. Read from its other end, the
relationship has the same roles, and the same label unless it is called by its
arrow, which is turned around. -/
theorem roles_label (decl : RelationDecl) :
    decl.roles = (decl.roleTexts.map upper).eraseDups ∧
      decl.label = (decl.labelSources.findSome? id).getD "Unknown" ∧
      (∀ other : RelationDecl, other.connection = decl.connection →
        other.attributes = decl.attributes →
          (List.Forall₂ SameRoles other.roleLists decl.roleLists → other.label = decl.label) ∧
          ((other.left.rolesAfter = [] ↔ decl.left.rolesAfter = []) →
            (other.right.rolesBefore = [] ↔ decl.right.rolesBefore = []) →
              ∀ before role after, decl.roleTexts = before ++ after →
                other.roleTexts = before ++ role :: after → upper role ∈ before.map upper →
                  other.roles = decl.roles ∧ other.label = decl.label)) ∧
      (∀ role, role ∈ decl.mirrored.roles ↔ role ∈ decl.roles) ∧
      (decl.labelArrow? = none → decl.mirrored.label = decl.label) ∧
      ∀ arrow, decl.labelArrow? = some arrow →
        decl.label = arrow.text ∧ decl.mirrored.label = arrow.mirrored.text := by
  refine ⟨decl.roles_eq_eraseDups, decl.label_eq, fun other hconnection hattributes => ⟨?_, ?_⟩,
    fun role => mem_roles_mirrored, label_mirrored_of_eq_none, fun arrow harrow => ?_⟩
  · exact label_eq_of_sameRoles hconnection hattributes
  · intro hafter hbefore before role after hdecl hother hrole
    exact ⟨roles_eq_of_repeated hdecl hother hrole, label_congr hconnection hattributes hafter
      hbefore (sameRoles_of_repeated hdecl hother hrole)⟩
  · refine ⟨label_eq_text harrow, label_eq_text ?_⟩
    rw [labelArrow?_mirrored, harrow, Option.map_some]

/-- A relationship with a role in front of a name, away from the arrow. -/
def roleBeforeName : RelationDecl :=
  ⟨⟨"A", ["U"], [], .none⟩, ⟨none, some .right⟩, ⟨"B", [], [], .none⟩, none, [], .none⟩

/-- Given once more behind the name, it is the first role next to the arrow. It is
no new role, but the arrow stops counting. -/
theorem roleBeforeName_repeated :
    let repeated : RelationDecl := { roleBeforeName with left := ⟨"A", ["U"], ["U"], .none⟩ }
    roleBeforeName.roleTexts = ["U"] ∧ repeated.roleTexts = ["U", "U"] ∧
      repeated.roles = roleBeforeName.roles ∧
      roleBeforeName.label = "->" ∧ repeated.label = "Unknown" :=
  ⟨rfl, rfl, by decide, by decide, by decide⟩

/-- A relationship with a role next to its arrow. The upper case of another one is
longer than the role. -/
def roleAtArrow : RelationDecl :=
  ⟨⟨"A", ["ß"], ["u"], .none⟩, ⟨none, some .right⟩, ⟨"B", [], ["d"], .none⟩, none,
    [.type "", .technology "REST"], .none⟩

/-- With its roles in other cases and orders it is called the same, and so it is
with one of them given again. Without the role at the arrow it is called by that. -/
theorem roleAtArrow_roles_label :
    let shouted : RelationDecl :=
      { roleAtArrow with left := ⟨"A", ["ss", "SS"], ["U", "u"], .none⟩ }
    let repeated : RelationDecl := { roleAtArrow with right := ⟨"B", [], ["d", "Ss"], .none⟩ }
    let bare : RelationDecl := { roleAtArrow with left := ⟨"A", ["u"], [], .none⟩ }
    roleAtArrow.label = "Upstream-Downstream" ∧ shouted.label = roleAtArrow.label ∧
      (repeated.roles = roleAtArrow.roles ∧ repeated.label = roleAtArrow.label) ∧
      roleAtArrow.mirrored.label = roleAtArrow.label ∧
      bare.label = "->" ∧ bare.mirrored.label = "<-" := by
  intro shouted repeated bare
  obtain ⟨-, label, alike, -, mirrored, -⟩ := roleAtArrow.roles_label
  have lists : List.Forall₂ SameRoles shouted.roleLists roleAtArrow.roleLists :=
    .cons (by decide) (.cons (by decide) (.cons (by decide) (.cons (by decide) .nil)))
  exact ⟨label.trans (by decide), (alike shouted rfl rfl).1 lists,
    (alike repeated rfl rfl).2 Iff.rfl Iff.rfl ["ß", "u", "d"] "Ss" [] rfl rfl (by decide),
    mirrored (by decide), bare.roles_label.2.2.2.2.2 .right (by decide)⟩

end RelationDecl

end Landscape
