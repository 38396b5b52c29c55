import Landscape.Proofs.Build.Lookup

/-!
# Map queries by name

The queries of a map compare names. They walk along the members and the
relationships of the map and take what carries the name they are given. A name
alone does not say which context is meant, since contexts that are hidden by a
later one of their name stay in the model. But no map leads to a hidden one:
whatever the second pass puts into a map it has found by its name, and so it is
what a query by that name finds in the whole model (`Model.Prevails`).

This is all that is needed for the queries to be questions about ids. To carry a
name is then to be the context that the model gives for it
(`Model.Prevails.any_name_eq`), and each query of a map follows from that.
-/

namespace Landscape

namespace Model

/-- The id is that of the context its name stands for. -/
def Prevails (m : Model) (id : Id .context) : Prop :=
  ∃ c, m.contextNamed? c.name = some c ∧ c.id = id

variable {m : Model}

theorem name_of_contextNamed? {name : String} {c : Context}
    (h : m.contextNamed? name = some c) : c.name = name := by
  have hnamed := List.find?_some h
  exact of_decide_eq_true hnamed

theorem mem_of_contextNamed? {name : String} {c : Context}
    (h : m.contextNamed? name = some c) : c ∈ m.contexts :=
  List.mem_reverse.1 (List.mem_of_find?_eq_some h)

theorem prevails_of_idNamed? {name : String} {id : Id .context}
    (h : m.idNamed? .context name = some id) : m.Prevails id := by
  obtain ⟨c, hc, hid⟩ := Option.map_eq_some_iff.1 h
  refine ⟨c, ?_, hid⟩
  rw [name_of_contextNamed? hc]
  exact hc

/-- What a name stands for is found again at its own id. -/
theorem Indexed.getElem?_of_contextNamed? (hm : m.Indexed) {name : String} {c : Context}
    (h : m.contextNamed? name = some c) : m.contexts[c.id.index]? = some c :=
  hm.contexts.getElem?_of_mem (mem_of_contextNamed? h)

/-- A context that its name stands for has a name exactly if that name stands
for it. -/
theorem Prevails.any_name_eq (hm : m.Indexed) {id : Id .context} (h : m.Prevails id)
    (name : String) :
    (m.contexts[id.index]?).any (·.name = name) = (m.contextNamed? name).any (·.id = id) := by
  obtain ⟨c, hc, rfl⟩ := h
  rw [hm.getElem?_of_contextNamed? hc, Option.any_some]
  by_cases hname : c.name = name
  · subst hname
    rw [hc]
    simp
  · cases hfound : m.contextNamed? name with
    | none => simp [hname]
    | some c' =>
        -- Were it the same id, it would be the same context and have that name.
        have hne : c'.id ≠ c.id := by
          intro hid
          have hsame := hm.getElem?_of_contextNamed? hfound
          rw [hid, hm.getElem?_of_contextNamed? hc] at hsame
          obtain rfl := Option.some.inj hsame
          exact hname (name_of_contextNamed? hfound)
        simp [hname, hne]

/-! ## The queries of one map

They are told apart from their model here: all that counts is that the ids they
meet prevail. -/

section

variable {x : ContextMap}

theorem memberOf?_eq (hm : m.Indexed) (hmembers : ∀ id ∈ x.contexts, m.Prevails id)
    (name : String) :
    m.memberOf? x name = (m.contextNamed? name).filter (·.id ∈ x.contexts) := by
  have carries : x.contexts.find? (fun id => (m.contexts[id.index]?).any (·.name = name)) =
      x.contexts.find? (fun id => (m.contextNamed? name).any (·.id = id)) :=
    List.find?_congr fun id hid => (hmembers id hid).any_name_eq hm name
  rw [memberOf?, membersOf, List.find?_filterMap, carries]
  cases hfound : m.contextNamed? name with
  | none =>
      have hfind : x.contexts.find? (fun _ => false) = none := List.find?_eq_none.2 (by simp)
      simp [hfind]
  | some c =>
      have hc := hm.getElem?_of_contextNamed? hfound
      by_cases hmem : c.id ∈ x.contexts
      · have hfind : x.contexts.find? (fun id => decide (c.id = id)) = some c.id := by
          obtain ⟨id, hid⟩ := Option.isSome_iff_exists.1
            (List.find?_isSome (p := fun id => decide (c.id = id)).2 ⟨c.id, hmem, by simp⟩)
          have hsame := List.find?_some hid
          rw [hid, ← of_decide_eq_true hsame]
        simp [hfind, hc, Option.filter_some, hmem]
      · have hfind : x.contexts.find? (fun id => decide (c.id = id)) = none := by
          refine List.find?_eq_none.2 fun id hid heq => hmem ?_
          rwa [of_decide_eq_true heq]
        simp [hfind, Option.filter_some, hmem]

variable (hm : m.Indexed)
  (hsides : ∀ r ∈ x.relationships, m.Prevails r.left ∧ m.Prevails r.right)
include hm hsides

theorem relationshipsOf_eq (name : String) :
    m.relationshipsOf x name =
      x.relationships.filter fun r => (m.contextNamed? name).any fun c => r.involves c.id := by
  rw [relationshipsOf]
  refine List.filter_congr fun r hr => ?_
  obtain ⟨hleft, hright⟩ := hsides r hr
  rw [isLeftNamed, isRightNamed, leftOf?, rightOf?, hleft.any_name_eq hm, hright.any_name_eq hm]
  cases m.contextNamed? name with
  | none => rfl
  | some c => simp [Relationship.involves, eq_comm]

theorem relationshipBetween?_eq (a b : String) :
    m.relationshipBetween? x a b =
      x.relationships.find? fun r => (m.contextNamed? a).any fun c =>
        (m.contextNamed? b).any fun c' => r.connects c.id c'.id := by
  refine List.find?_congr fun r hr => ?_
  obtain ⟨hleft, hright⟩ := hsides r hr
  simp only [isLeftNamed, isRightNamed, leftOf?, rightOf?, hleft.any_name_eq hm,
    hright.any_name_eq hm]
  cases m.contextNamed? a with
  | none => simp
  | some c =>
      cases m.contextNamed? b with
      | none => simp
      | some c' => simp [Relationship.connects, eq_comm]

end

/-- In which order two names are given makes no difference. -/
theorem relationshipBetween?_comm (m : Model) (x : ContextMap) (a b : String) :
    m.relationshipBetween? x b a = m.relationshipBetween? x a b := by
  simp only [relationshipBetween?]
  congr 1
  funext r
  exact Bool.or_comm ..

end Model

namespace Document

variable (d : Document) {policy : Policy}

theorem prevails_of_contextId? {name : String} {id : Id .context}
    (h : d.contextId? name = some id) : (d.draft policy).model.Prevails id :=
  Model.prevails_of_idNamed? (by rw [← d.contextId?_eq, h])

theorem prevails_of_resolveIn {decl : RelationDecl} {r : Relationship}
    (h : decl.resolveIn d = some r) :
    (d.draft policy).model.Prevails r.left ∧ (d.draft policy).model.Prevails r.right := by
  rw [decl.resolveIn_eq] at h
  obtain ⟨left, hleft, h⟩ := Option.bind_eq_some_iff.1 h
  obtain ⟨right, hright, rfl⟩ := Option.map_eq_some_iff.1 h
  exact ⟨d.prevails_of_contextId? hleft, d.prevails_of_contextId? hright⟩

/-- The members of a map and the sides of its relationships were all found by
their names. -/
theorem prevails_draft {x : ContextMap} (hx : x ∈ (d.draft policy).model.maps) :
    (∀ id ∈ x.contexts, (d.draft policy).model.Prevails id) ∧
      ∀ r ∈ x.relationships,
        (d.draft policy).model.Prevails r.left ∧ (d.draft policy).model.Prevails r.right := by
  rw [d.draft_maps] at hx
  obtain ⟨i, hi, rfl⟩ := List.mem_mapIdx.1 hx
  have related : ∀ r ∈ (d.maps[i]).relationshipsIn d,
      (d.draft policy).model.Prevails r.left ∧ (d.draft policy).model.Prevails r.right := by
    intro r hr
    obtain ⟨decl, -, hdecl⟩ := List.mem_filterMap.1 hr
    exact d.prevails_of_resolveIn hdecl
  refine ⟨fun id hid => ?_, related⟩
  rcases List.mem_append.1 (List.mem_eraseDups.1 hid) with hid | hid
  · obtain ⟨reference, -, hfound⟩ := List.mem_filterMap.1 hid
    exact d.prevails_of_contextId? hfound
  · obtain ⟨r, hr, hside⟩ := List.mem_flatMap.1 hid
    obtain ⟨hleft, hright⟩ := related r hr
    simp only [List.mem_cons, List.not_mem_nil, or_false] at hside
    rcases hside with rfl | rfl
    · exact hleft
    · exact hright

/-- In a built model the queries of a map by name ask for the contexts that the
names stand for. -/
theorem build_mapQueries (policy : Policy) (source : Option String) :
    let m := (d.build policy source).model
    ∀ x ∈ m.maps, ∀ a b,
      m.memberOf? x a = (m.contextNamed? a).filter (·.id ∈ x.contexts) ∧
        m.relationshipsOf x a =
          (x.relationships.filter fun r => (m.contextNamed? a).any fun c => r.involves c.id) ∧
        m.relationshipBetween? x a b =
          (x.relationships.find? fun r => (m.contextNamed? a).any fun c =>
            (m.contextNamed? b).any fun c' => r.connects c.id c'.id) ∧
        m.relationshipBetween? x b a = m.relationshipBetween? x a b := by
  intro m x hx a b
  have indexed : m.Indexed := d.draft_closed.indexed
  obtain ⟨hmembers, hsides⟩ := d.prevails_draft hx
  exact ⟨Model.memberOf?_eq indexed hmembers a, Model.relationshipsOf_eq indexed hsides a,
    Model.relationshipBetween?_eq indexed hsides a b, m.relationshipBetween?_comm x a b⟩

/-- A context that is declared again behind the map it is a member of, and
another one that is no member. -/
def redeclaredMember : Document :=
  let context (name : String) : Element := .context ⟨name, [], [], none, [], .none⟩
  let relation (left right : String) : RelationDecl :=
    ⟨⟨left, [], [], .none⟩, ⟨some "Partnership", none⟩, ⟨right, [], [], .none⟩, none, [], .none⟩
  ⟨[context "Sales", context "Orders", context "Stock",
    .map ⟨none, [], [relation "Sales" "Orders", relation "Sales" "Sales"], .none⟩,
    context "Sales"]⟩

theorem redeclaredMember_mapQueries :
    let m := (redeclaredMember.build ⟨.warn, .shadow⟩ none).model
    ∃ x ∈ m.maps,
      (m.contexts.map Context.name = ["Sales", "Orders", "Stock", "Sales"] ∧
        x.contexts = [⟨3⟩, ⟨1⟩]) ∧
      (m.memberOf? x "Sales").map Context.id = some ⟨3⟩ ∧ m.memberOf? x "Stock" = none ∧
      (m.relationshipsOf x "Sales").length = 2 ∧
      (m.relationshipBetween? x "Orders" "Sales").map Relationship.right = some ⟨1⟩ := by
  have queries := redeclaredMember.build_mapQueries ⟨.warn, .shadow⟩ none
  refine ⟨_, List.mem_singleton_self _, by decide, ?_, ?_, ?_, ?_⟩
  · rw [(queries _ (List.mem_singleton_self _) "Sales" "").1]
    decide
  · rw [(queries _ (List.mem_singleton_self _) "Stock" "").1]
    decide
  · rw [(queries _ (List.mem_singleton_self _) "Sales" "").2.1]
    decide
  · rw [(queries _ (List.mem_singleton_self _) "Orders" "Sales").2.2.1]
    decide

end Document

end Landscape
