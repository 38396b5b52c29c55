import Landscape.Model.Navigation
import Landscape.Proofs.Build.Membership
import Landscape.Proofs.Relation.Classification
import Landscape.Proofs.Text.Capitals

/-!
# Relationships by role

The roles of a relationship are kept in full upper case, and a query for one is
compared without regard to ASCII case. So a relationship answers to the upper
case of each of its roles, and otherwise it depends on the letters outside ASCII:
a text that has the upper case of a role is compared with its own upper case, and
what comes of that is known (`Text.eqIgnoringAsciiCase_upper_iff`).
-/

namespace Landscape

open Text OrderedSet

namespace RelationDecl

variable {decl : RelationDecl}

/-- Whether a query for a label or a role asks for the relationship. -/
def answersTo (decl : RelationDecl) (query : String) : Bool :=
  eqIgnoringAsciiCase decl.label query ||
    decl.roleTexts.any fun role => eqIgnoringAsciiCase (upper role) query

/-- What is kept of a relationship is enough to tell which queries ask for it. -/
theorem any_roles (query : String) :
    (eqIgnoringAsciiCase decl.label query || decl.roles.any (eqIgnoringAsciiCase · query)) =
      decl.answersTo query := by
  rw [answersTo]
  congr 1
  rw [Bool.eq_iff_iff, List.any_eq_true, List.any_eq_true]
  constructor
  · rintro ⟨_, hrole, heq⟩
    obtain ⟨text, htext, rfl⟩ := mem_roles.1 hrole
    exact ⟨text, htext, heq⟩
  · rintro ⟨text, htext, heq⟩
    exact ⟨upper text, mem_roles.2 ⟨text, htext, rfl⟩, heq⟩

/-- A text that has the upper case of a role asks for the relationship if it is in
upper case outside ASCII. -/
theorem answersTo_of_upper_eq {role query : String} (hrole : role ∈ decl.roleTexts)
    (hupper : upper query = upper role) (hquery : UpperBeyondAscii query) :
    decl.answersTo query := by
  have heq := eqIgnoringAsciiCase_upper_iff.2 hquery
  rw [hupper] at heq
  exact Bool.or_eq_true_iff.2 (.inr (List.any_eq_true.2 ⟨role, hrole, heq⟩))

end RelationDecl

namespace MapDecl

/-- A query finds the relationships that it asks for and that could be resolved. -/
theorem filter_relationshipsIn (decl : MapDecl) (d : Document) (query : String) :
    ((decl.relationshipsIn d).filter fun r =>
        eqIgnoringAsciiCase r.label query || r.roles.any (eqIgnoringAsciiCase · query)) =
      (decl.relations.filter (·.answersTo query)).filterMap (·.resolveIn d) := by
  rw [relationshipsIn, List.filter_filterMap, List.filterMap_filter]
  congr 1
  funext relation
  rw [RelationDecl.resolveIn_eq]
  cases d.contextId? relation.left.name with
  | none => simp
  | some left =>
      cases d.contextId? relation.right.name with
      | none => simp
      | some right =>
          rw [Option.bind_some, Option.map_some, Option.filter_some, ← relation.any_roles query]
          rfl

end MapDecl

namespace Document

variable (d : Document)

/-- In a built model a map answers a query for a label or a role with the
relationships that have it. A text with the upper case of a role is taken for that
role just if it is in upper case outside ASCII. -/
theorem build_roleQueries (policy : Policy) (source : Option String) :
    let m := (d.build policy source).model
    ∀ (i : Nat) (x : ContextMap) (decl : MapDecl), m.maps[i]? = some x → d.maps[i]? = some decl →
      ∀ query,
        x.relationshipsLabelled query =
            (decl.relations.filter (·.answersTo query)).filterMap (·.resolveIn d) ∧
          ∀ relation ∈ decl.relations, ∀ r ∈ relation.resolveIn d,
            ∀ role ∈ relation.roleTexts, upper query = upper role →
              (eqIgnoringAsciiCase (upper role) query ↔ UpperBeyondAscii query) ∧
                (UpperBeyondAscii query → r ∈ x.relationshipsLabelled query) := by
  intro m i x decl hx hdecl query
  have answers : x.relationshipsLabelled query =
      (decl.relations.filter (·.answersTo query)).filterMap (·.resolveIn d) := by
    have hmaps : m.maps = _ := d.draft_maps
    rw [hmaps, List.getElem?_mapIdx, hdecl, Option.map_some] at hx
    obtain rfl := Option.some.inj hx
    exact decl.filter_relationshipsIn d query
  refine ⟨answers, fun relation hrelation r hr role hrole hupper => ⟨?_, fun hquery => ?_⟩⟩
  · rw [← hupper]
    exact eqIgnoringAsciiCase_upper_iff
  · have asked := RelationDecl.answersTo_of_upper_eq hrole hupper hquery
    rw [answers]
    exact List.mem_filterMap.2 ⟨relation, List.mem_filter.2 ⟨hrelation, asked⟩, hr⟩

/-- A relationship with a role in lower case that is not in ASCII. -/
def accentedRole : Document :=
  let context (name : String) : Element := .context ⟨name, [], [], none, [], .none⟩
  ⟨[context "A", context "B",
    .map ⟨some "M", [],
      [⟨⟨"A", [], ["é", "u"], .none⟩, ⟨none, some .right⟩, ⟨"B", [], [], .none⟩, none, [], .none⟩],
      .none⟩]⟩

/-- The roles are found by their upper case, and the one in ASCII as it was
written. -/
theorem accentedRole_queries :
    let m := (accentedRole.build ⟨.warn, .shadow⟩ none).model
    ∃ x ∈ m.maps, ∃ r ∈ x.relationships,
      r ∈ x.relationshipsLabelled "É" ∧ r ∈ x.relationshipsLabelled "u" ∧
        x.relationshipsLabelled "é" = [] ∧ ¬eqIgnoringAsciiCase (upper "é") "é" := by
  intro m
  have queries := accentedRole.build_roleQueries ⟨.warn, .shadow⟩ none 0 m.maps[0]
    accentedRole.maps[0] rfl rfl
  have asked (query : String) := (queries query).2 _ (List.mem_singleton_self _) _ rfl
  refine ⟨m.maps[0], List.getElem_mem _, m.maps[0].relationships[0], List.getElem_mem _,
    ?_, ?_, ?_, ?_⟩
  · exact (asked "É" "é" (by decide) (by decide)).2 (by decide)
  · exact (asked "u" "u" (by decide) rfl).2 (by decide)
  · rw [(queries "é").1]
    decide
  · rw [(asked "é" "é" (by decide) rfl).1]
    decide

/-- A query for a role as it was written need not find it. -/
theorem role_not_found :
    ¬∀ (d : Document) (policy : Policy) (source : Option String),
      let m := (d.build policy source).model
      ∀ (i : Nat) (x : ContextMap) (decl : MapDecl), m.maps[i]? = some x → d.maps[i]? = some decl →
        ∀ relation ∈ decl.relations, ∀ r ∈ relation.resolveIn d, ∀ role ∈ relation.roleTexts,
          r ∈ x.relationshipsLabelled role := by
  intro h
  have found := h accentedRole ⟨.warn, .shadow⟩ none 0 _ _ rfl rfl _ (List.mem_singleton_self _) _
    rfl "é" (by decide)
  revert found
  decide

end Document

end Landscape
