import Landscape.Proofs.Grammar.Document
import Landscape.Proofs.Relation.Classification
import Mathlib.Data.List.Chain

/-!
# Where roles belong

Relationships follow each other without a mark between them. So a list of roles
between two of them could be the last of the one or the first of the other. It is
the last of the one if that has no roles there yet, nor a name or attributes
behind them (`RelationDecl.takesRoles`).

The argument is that it makes no difference to what is written whose the roles are
(`RelationDecl.flatMap_briefTokens_allBound`). Once they are where they are read,
no relationship has roles in front that the one before it would take
(`RelationDecl.isChain_allBound`), and such relationships are read one by one, as
they are. What is left out of a relationship can only be missed if the next one
starts with it, and a relationship starts with a name or a bracket.
-/

namespace Landscape

open Grammar

namespace RelationDecl

variable {decl : RelationDecl} {previous? next? : Option RelationDecl}

/-! ## Relationships as they are written -/

/-- The attributes in braces, if there are any. -/
def attributeTokens (decl : RelationDecl) : List Token :=
  match decl.attributes with
  | [] => []
  | attributes => inBraces (attributes.flatMap fun a => a.toAttribute.tokens)

/-- A relationship, written with no more than it needs. -/
def briefTokens (decl : RelationDecl) : List Token :=
  decl.left.tokens ++ (decl.connection.tokens ++
    (decl.right.tokens ++ (decl.nameTokens ++ decl.attributeTokens)))

theorem head?_briefTokens (decl : RelationDecl) :
    decl.briefTokens.head? = some .openBracket ∨
      decl.briefTokens.head? = some (.name decl.left.name) := by
  obtain ⟨⟨name, before, behind, span⟩, connection, right, label, attributes, span⟩ := decl
  cases before with
  | nil => exact .inr rfl
  | cons role roles => exact .inl rfl

theorem head?_briefTokens_of_nil (h : decl.left.rolesBefore = []) :
    decl.briefTokens.head? = some (.name decl.left.name) := by
  rw [briefTokens, Endpoint.tokens, h]
  rfl

theorem briefTokens_ne_nil (decl : RelationDecl) : decl.briefTokens ≠ [] := by
  intro h
  rcases decl.head?_briefTokens with hhead | hhead <;>
    · rw [h] at hhead
      cases hhead

/-! ## Roles as they are read -/

/-- Whether a list of roles behind a relationship is read as its own. -/
def takesRoles (decl : RelationDecl) : Bool :=
  decl.right.rolesAfter.isEmpty && decl.name.isNone && decl.attributes.isEmpty

/-- The roles that a relationship starts with, if there is one. -/
def firstRoles (decl? : Option RelationDecl) : List String :=
  (decl?.map (·.left.rolesBefore)).getD []

/-- A relationship as it is read between two others: the one before may take its
first roles, and it may take the first roles of the one behind. -/
def bound (previous? next? : Option RelationDecl) (decl : RelationDecl) : RelationDecl :=
  { decl with
    left := { decl.left with
      rolesBefore := if previous?.any takesRoles then [] else decl.left.rolesBefore }
    right := { decl.right with
      rolesAfter := if decl.takesRoles then firstRoles next? else decl.right.rolesAfter } }

/-- Relationships as they are read behind another one. -/
def allBound (previous? : Option RelationDecl) : List RelationDecl → List RelationDecl
  | [] => []
  | decl :: rest => decl.bound previous? rest.head? :: allBound (some decl) rest

theorem length_allBound (previous? : Option RelationDecl) (decls : List RelationDecl) :
    (allBound previous? decls).length = decls.length := by
  induction decls generalizing previous? with
  | nil => rfl
  | cons decl rest ih => rw [allBound, List.length_cons, ih, List.length_cons]

theorem takesRoles_iff :
    decl.takesRoles ↔ decl.right.rolesAfter = [] ∧ decl.name = none ∧ decl.attributes = [] := by
  simp [takesRoles, and_assoc]

/-! ## Nothing is lost -/

/-- Something that relationships say one after the other stays the same if a list
of roles that is taken from one of them is said by the one before. -/
theorem flatMap_allBound {β : Type} (say : RelationDecl → List β) (sayRoles : List String → List β)
    (hnil : sayRoles [] = [])
    (hsay : ∀ (previous? next? : Option RelationDecl) (decl : RelationDecl),
      (if previous?.any takesRoles then sayRoles decl.left.rolesBefore else []) ++
          say (decl.bound previous? next?) =
        say decl ++ if decl.takesRoles then sayRoles (firstRoles next?) else [])
    (previous? : Option RelationDecl) (decls : List RelationDecl) :
    (if previous?.any takesRoles then sayRoles (firstRoles decls.head?) else []) ++
        (allBound previous? decls).flatMap say =
      decls.flatMap say := by
  induction decls generalizing previous? with
  | nil => simp [allBound, firstRoles, hnil]
  | cons decl rest ih =>
      have own := hsay previous? rest.head? decl
      rw [allBound, List.flatMap_cons, List.flatMap_cons, ← ih (some decl), ← List.append_assoc,
        ← List.append_assoc]
      exact congrArg (· ++ _) own

theorem briefTokens_bound (previous? next? : Option RelationDecl) (decl : RelationDecl) :
    (if previous?.any takesRoles then roleTokens decl.left.rolesBefore else []) ++
        (decl.bound previous? next?).briefTokens =
      decl.briefTokens ++ if decl.takesRoles then roleTokens (firstRoles next?) else [] := by
  have hleft : (if previous?.any takesRoles then roleTokens decl.left.rolesBefore else []) ++
      (decl.bound previous? next?).left.tokens = decl.left.tokens := by
    rw [bound, Endpoint.tokens, Endpoint.tokens]
    split <;> rfl
  have hright : (decl.bound previous? next?).right.tokens ++
        (decl.nameTokens ++ decl.attributeTokens) =
      decl.right.tokens ++ (decl.nameTokens ++ (decl.attributeTokens ++
        if decl.takesRoles then roleTokens (firstRoles next?) else [])) := by
    by_cases h : decl.takesRoles
    · obtain ⟨hroles, hname, hattributes⟩ := takesRoles_iff.1 h
      simp [bound, h, Endpoint.tokens, hroles, nameTokens, hname, attributeTokens, hattributes,
        roleTokens]
    · simp [bound, h]
  have parts : (decl.bound previous? next?).briefTokens =
      (decl.bound previous? next?).left.tokens ++ (decl.connection.tokens ++
        ((decl.bound previous? next?).right.tokens ++
          (decl.nameTokens ++ decl.attributeTokens))) := rfl
  rw [parts, ← List.append_assoc, hleft, hright, briefTokens]
  simp only [List.append_assoc]

/-- What is written does not tell whose the roles are. -/
theorem flatMap_briefTokens_allBound (decls : List RelationDecl) :
    (allBound none decls).flatMap briefTokens = decls.flatMap briefTokens :=
  flatMap_allBound briefTokens roleTokens rfl briefTokens_bound none decls

theorem flatMap_roleTexts_allBound (decls : List RelationDecl) :
    (allBound none decls).flatMap roleTexts = decls.flatMap roleTexts := by
  refine flatMap_allBound roleTexts id rfl (fun previous? next? decl => ?_) none decls
  have hleft : (if previous?.any takesRoles then decl.left.rolesBefore else []) ++
      (decl.bound previous? next?).left.rolesBefore = decl.left.rolesBefore := by
    rw [bound]
    split
    · exact List.append_nil _
    · rfl
  have hright : (decl.bound previous? next?).right.rolesAfter =
      decl.right.rolesAfter ++ if decl.takesRoles then firstRoles next? else [] := by
    by_cases h : decl.takesRoles
    · rw [bound, if_pos h, if_pos h, (takesRoles_iff.1 h).1]
      rfl
    · rw [bound, if_neg h, if_neg h, List.append_nil]
  rw [roleTexts, roleTexts, hright]
  simp only [← List.append_assoc]
  exact congrArg (· ++ _ ++ _ ++ _ ++ _) hleft

theorem takesRoles_of_bound (h : (decl.bound previous? next?).takesRoles) : decl.takesRoles := by
  by_contra hnot
  refine hnot ?_
  rw [bound, takesRoles_iff] at h
  rw [if_neg hnot] at h
  exact takesRoles_iff.2 h

/-- Once roles are where they are read, none are in front of a relationship that
the one before it takes. -/
theorem isChain_allBound (previous? : Option RelationDecl) (decls : List RelationDecl) :
    (allBound previous? decls).IsChain fun a b => a.takesRoles → b.left.rolesBefore = [] := by
  induction decls generalizing previous? with
  | nil => exact .nil
  | cons decl rest ih =>
      cases rest with
      | nil => exact .singleton _
      | cons next rest =>
          refine .cons_cons (fun h => ?_) (ih (some decl))
          exact if_pos (takesRoles_of_bound h)

theorem isWritable_of_mem_allBound {decls : List RelationDecl}
    (h : ∀ decl ∈ decls, decl.isWritable) :
    ∀ decl ∈ allBound previous? decls, decl.isWritable := by
  induction decls generalizing previous? with
  | nil => exact nofun
  | cons decl rest ih =>
      rw [List.forall_mem_cons] at h
      rw [allBound, List.forall_mem_cons]
      exact ⟨h.1, ih h.2⟩

end RelationDecl

/-! ## Reading -/

namespace Grammar

open RelationDecl

variable {ts after : List Token}

theorem Reads.briefRelation {decl : RelationDecl} (h : decl.isWritable)
    (hcolon : after.head? ≠ some .colon) (hbrace : after.head? ≠ some .openBrace)
    (hbracket : decl.takesRoles → after.head? ≠ some .openBracket) :
    Reads Grammar.relation decl.briefTokens after fun v => v.unplaced = decl.unplaced := by
  rw [RelationDecl.isWritable, Bool.and_eq_true, List.all_eq_true] at h
  rw [briefTokens]
  cases hattributes : decl.attributes with
  | nil =>
      have hbraces : decl.attributeTokens = [] := by rw [attributeTokens, hattributes]
      rw [hbraces]
      have hrefuses : Refuses Grammar.relationAttributes after :=
        Refuses.map (Refuses.bind (Refuses.exactly hbrace))
      refine relation_of h.1 (optional_none hrefuses ?_) hcolon fun hroles hname => ?_
      · rw [hattributes]
        rfl
      · exact hbracket (takesRoles_iff.2 ⟨hroles, hname, hattributes⟩)
  | cons a rest =>
      have hbraces : decl.attributeTokens =
          inBraces (decl.attributes.flatMap fun a => a.toAttribute.tokens) := by
        rw [attributeTokens, hattributes]
      rw [hbraces]
      exact relation_of h.1 (optional_some (relationAttributes h.2)) (by simp [inBraces])
        (by simp [inBraces])

theorem Reads.many_briefRelation {decls : List RelationDecl}
    (h : ∀ decl ∈ decls, decl.isWritable)
    (hchain : decls.IsChain fun a b => a.takesRoles → b.left.rolesBefore = []) :
    Reads (Parser.many Grammar.mapEntry) (decls.flatMap briefTokens) (.closeBrace :: after)
      fun vs => vs.map MapEntry.unplaced = decls.map fun decl => .relation decl.unplaced := by
  refine many (fun decl _ => decl.briefTokens_ne_nil) ?_ Refuses.mapEntry
  intro decl later hsuffix
  have hdecl := h decl (hsuffix.subset List.mem_cons_self)
  have hne {t : Token} (ht : t ≠ .openBracket ∧ (∀ text, t ≠ .name text) ∧ t ≠ .closeBrace) :
      (later.flatMap briefTokens ++ .closeBrace :: after).head? ≠ some t := by
    refine head?_flatMap_append_ne (fun next _ => ⟨next.briefTokens_ne_nil, ?_⟩) ?_
    · rcases next.head?_briefTokens with hhead | hhead
      · simpa [hhead] using ht.1.symm
      · simpa [hhead] using (ht.2.1 _).symm
    · simpa using ht.2.2.symm
  refine mapEntry_relation (Bool.and_eq_true_iff.1 hdecl).1
    (briefRelation hdecl (hne (by simp)) (hne (by simp)) fun htakes => ?_)
  cases later with
  | nil => exact nofun
  | cons next later =>
      have hroles := (List.isChain_cons_cons.1 (hchain.suffix hsuffix)).1 htakes
      rw [List.flatMap_cons, List.append_assoc, List.head?_append, head?_briefTokens_of_nil hroles]
      exact nofun

end Grammar

/-- The tokens of a map in which there are only relationships. -/
def MapDecl.briefTokens (name : Option String) (relations : List RelationDecl) : List Token :=
  .name "ContextMap" :: (name.toList.map .name ++
    inBraces (relations.flatMap RelationDecl.briefTokens))

theorem Grammar.Reads.briefMap {name : Option String} {relations : List RelationDecl}
    {after : List Token} (h : ∀ decl ∈ relations, decl.isWritable) :
    Reads Grammar.contextMap (MapDecl.briefTokens name relations) after
      fun v => v.unplaced =
        (⟨name, [], RelationDecl.allBound none relations, .none⟩ : MapDecl).unplaced := by
  have entries : Reads (Parser.many Grammar.mapEntry)
      ((RelationDecl.allBound none relations).flatMap RelationDecl.briefTokens)
      (.closeBrace :: after) fun vs => vs.map MapEntry.unplaced =
        (MapDecl.entries ⟨name, [], RelationDecl.allBound none relations, .none⟩).map
          MapEntry.unplaced := by
    refine (many_briefRelation (RelationDecl.isWritable_of_mem_allBound h)
      (RelationDecl.isChain_allBound none relations)).imp fun vs hvs => hvs.trans ?_
    rw [MapDecl.entries, List.map_nil, List.nil_append, List.map_map]
    rfl
  rw [MapDecl.briefTokens, ← RelationDecl.flatMap_briefTokens_allBound]
  exact contextMap_of entries

/-- A document with one element. -/
theorem Grammar.Reads.document_singleton {e : Element} {ts : List Token} (hne : ts ≠ [])
    (h : Reads Grammar.element ts [] fun v => v.unplaced = e.unplaced) :
    Reads Grammar.document ts [] fun v => ∃ e', v = ⟨[e']⟩ ∧ e'.unplaced = e.unplaced := by
  have elements : Reads (Parser.many Grammar.element) ([e].flatMap fun _ => ts) ([] ++ [])
      fun vs => vs.map Element.unplaced = [e].map Element.unplaced := by
    refine many (fun _ _ => hne) (fun e' later hsuffix => ?_) (Refuses.element nofun)
    obtain ⟨rfl, rfl⟩ : e' = e ∧ later = [] := by simpa [List.suffix_cons_iff] using hsuffix
    exact h
  rw [List.flatMap_singleton] at elements
  rw [← List.append_nil ts]
  refine bind elements fun vs hvs => bind_pure (endOfInput.imp fun _ _ => ?_)
  obtain ⟨e', rfl, he'⟩ := List.map_eq_singleton_iff.1 hvs
  exact ⟨e', rfl, he'⟩

namespace Document

/-- Relationships in braces, one behind the other, are read as so many
relationships in one map. They are as they were written, but for roles between
two of them, which are the last of the one if it takes them. -/
theorem ofLexemes_relations (name : Option String) {relations : List RelationDecl}
    (h : ∀ decl ∈ relations, decl.isWritable) {lexemes : List Lexeme}
    (hlexemes : lexemes.map Lexeme.token = MapDecl.briefTokens name relations) :
    ∃ map : MapDecl, Document.ofLexemes lexemes = .ok ⟨[.map map]⟩ ∧
      map.name = name ∧ map.settings = [] ∧
      map.relations.length = relations.length ∧
      map.relations.flatMap RelationDecl.roleTexts =
        relations.flatMap RelationDecl.roleTexts ∧
      map.relations.map RelationDecl.unplaced =
        (RelationDecl.allBound none relations).map RelationDecl.unplaced := by
  obtain ⟨d, doubt, hd, e, rfl, he⟩ := Reads.document_singleton (List.cons_ne_nil _ _)
    (Reads.element_map (Reads.briefMap h)) lexemes [] hlexemes rfl
  rw [List.append_nil] at hd
  cases e with
  | map map =>
      have hmap := Element.map.inj he
      have hrelations : map.relations.map RelationDecl.unplaced =
          (RelationDecl.allBound none relations).map RelationDecl.unplaced :=
        congrArg MapDecl.relations hmap
      refine ⟨map, by rw [Document.ofLexemes, hd], congrArg MapDecl.name hmap,
        List.map_eq_nil_iff.1 (congrArg MapDecl.settings hmap), ?_, ?_, hrelations⟩
      · rw [← RelationDecl.length_allBound none relations, ← List.length_map, hrelations,
          List.length_map]
      · have texts := congrArg (List.flatMap RelationDecl.roleTexts) hrelations
        simp only [List.flatMap_map] at texts
        exact texts.trans (RelationDecl.flatMap_roleTexts_allBound relations)
  | domain decl | context decl | useCase decl | unknown decl => cases he

/-- Three relationships with roles in front of the second and the third. The first
takes what comes behind it, the second has a name there. -/
def rolesBetween : List RelationDecl :=
  [⟨⟨"contains", [], [], .none⟩, ⟨none, some .right⟩, ⟨"type", [], [], .none⟩, none, [], .none⟩,
    ⟨⟨"type", ["U"], [], .none⟩, ⟨some "Partnership", none⟩, ⟨"B", [], [], .none⟩,
      some "contains", [], .none⟩,
    ⟨⟨"B", ["D"], ["ACL"], .none⟩, ⟨none, some .both⟩, ⟨"contains", [], [], .none⟩, none,
      [.technology "REST"], .none⟩]

theorem rolesBetween_ofLexemes :
    let lexemes := (MapDecl.briefTokens none rolesBetween).mapIdx
      fun i t => ⟨t, 2 * i, 2 * i + 1⟩
    (RelationDecl.allBound none rolesBetween).map
        (fun decl => (decl.left.rolesBefore, decl.right.rolesAfter)) =
      [([], ["U"]), ([], []), (["D"], [])] ∧
      ∃ map : MapDecl, Document.ofLexemes lexemes = .ok ⟨[.map map]⟩ ∧
        map.name = none ∧ map.settings = [] ∧ map.relations.length = rolesBetween.length ∧
        map.relations.flatMap RelationDecl.roleTexts =
          rolesBetween.flatMap RelationDecl.roleTexts ∧
        map.relations.map RelationDecl.unplaced =
          (RelationDecl.allBound none rolesBetween).map RelationDecl.unplaced :=
  ⟨rfl, ofLexemes_relations none (by decide) (by decide)⟩

end Document

end Landscape
