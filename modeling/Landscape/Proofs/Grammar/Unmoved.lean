import Landscape.Proofs.Grammar.Alike
import Landscape.Proofs.Grammar.Document

/-!
# The grammar does not look at places

For each rule of the grammar: what it reads from the same tokens in other places
is the same without its spans. The rules are taken in the order in which they
are put together, and each is put together from rules about combinators; what is
left to show of a rule is that the value it makes, without spans, is made of its
parts without theirs.
-/

namespace Landscape.Grammar

open Landscape.Grammar.Parser

variable {α γ : Type}

/-! ## Names, values and the phrases made of them -/

namespace Unmoved

theorem name : Unmoved name id :=
  token

theorem value : Unmoved value id :=
  token

theorem reference : Unmoved reference Reference.unplaced := by
  refine Alike.located (Alike.bind_pure (name.imp fun name name' hname s t => ?_))
  obtain rfl : name = name' := hname
  rfl

theorem references : Unmoved references (List.map Reference.unplaced) :=
  separated reference

theorem attributeSetting : Unmoved attributeSetting Attribute.unplaced := by
  refine Alike.located (Alike.bind name fun key key' hkey => ?_)
  obtain rfl : key = key' := hkey
  refine Alike.bind (exactly (u := id)) fun _ _ _ => Alike.bind_pure ?_
  refine (separated value).imp fun values values' hvalues s t => ?_
  rw [List.map_id, List.map_id] at hvalues
  rw [Attribute.unplaced, Attribute.unplaced, hvalues]

theorem roles : Unmoved roles id := by
  refine (between (separated name)).imp fun roles roles' hroles => ?_
  rwa [List.map_id, List.map_id] at hroles

end Unmoved

/-! ## Bodies -/

theorem settingAhead_eq {xs ys : List Lexeme}
    (h : xs.map Lexeme.token = ys.map Lexeme.token) : settingAhead xs = settingAhead ys := by
  rcases xs with _ | ⟨⟨t, s⟩, _ | ⟨⟨t', s'⟩, xs⟩⟩ <;>
    rcases ys with _ | ⟨⟨u, s⟩, _ | ⟨⟨u', s'⟩, ys⟩⟩ <;> simp at h
  · rfl
  · obtain rfl := h
    cases t <;> rfl
  · obtain ⟨rfl, rfl, -⟩ := h
    cases t <;> cases t' <;> rfl

/-- A body that may be left out, seen without spans. -/
theorem map_getD_eq {u : α → γ} {vs ws : Option (List α)}
    (h : vs.map (List.map u) = ws.map (List.map u)) :
    (vs.getD []).map u = (ws.getD []).map u := by
  cases vs <;> cases ws <;> simp_all

theorem map_filterMap_eq {u : α → γ} {vs ws : List (Option α)}
    (h : vs.map (Option.map u) = ws.map (Option.map u)) :
    (vs.filterMap id).map u = (ws.filterMap id).map u := by
  rw [← filterMap_id_map, ← filterMap_id_map, h]

namespace Unmoved

variable {inner : Parser (List Entry)} {scope : Scope}

theorem headingToken : Unmoved headingToken id := by
  intro xs ys htokens
  rw [Grammar.headingToken, Grammar.headingToken, settingAhead_eq htokens]
  split
  · exact .fail (Prod.ext htokens rfl)
  · exact token xs ys htokens

theorem namedDeclaration {opening : Parser α} {heading : α → String → Heading}
    (hopening : Unmoved opening id) (hinner : Unmoved inner (List.map Entry.unplaced)) :
    Unmoved (namedDeclaration opening heading inner) Entry.unplaced := by
  refine Alike.located (Alike.bind hopening fun kind kind' hkind => ?_)
  obtain rfl : kind = kind' := hkind
  refine Alike.bind name fun name name' hname => ?_
  obtain rfl : name = name' := hname
  refine Alike.bind (many headingToken) fun _ _ _ => Alike.bind_pure ?_
  refine (optional (between hinner)).imp fun body body' hbody s t => ?_
  rw [Entry.unplaced, Entry.unplaced, unplacedBody_eq_map, unplacedBody_eq_map,
    map_getD_eq hbody]

theorem unknownBlock (hinner : Unmoved inner (List.map Entry.unplaced)) :
    Unmoved (unknownBlock inner) Entry.unplaced := by
  refine Alike.located (Alike.bind (token (u := id)) fun keyword keyword' hkeyword => ?_)
  obtain rfl : keyword = keyword' := hkeyword
  refine Alike.bind (many headingToken) fun words words' hwords => Alike.bind_pure ?_
  rw [List.map_id, List.map_id] at hwords
  refine (between hinner).imp fun body body' hbody s t => ?_
  rw [Entry.unplaced, Entry.unplaced, unplacedBody_eq_map, unplacedBody_eq_map, hwords, hbody]

theorem bodyEntry (hinner : Unmoved inner (List.map Entry.unplaced)) :
    Unmoved (bodyEntry scope inner) (Option.map Entry.unplaced) := by
  have some {p : Parser Entry} (h : Unmoved p Entry.unplaced) :
      Unmoved (Option.some <$> p) (Option.map Entry.unplaced) :=
    Alike.map (h.imp fun _ _ => congrArg Option.some)
  have group {keyword : String} {kind : GroupKind} :
      Unmoved (groupDeclaration keyword kind inner) Entry.unplaced :=
    namedDeclaration token hinner
  have setting : Unmoved ((fun a => Option.some (Entry.setting scope a)) <$>
      Grammar.attributeSetting) (Option.map Entry.unplaced) :=
    Alike.map (attributeSetting.imp fun _ _ h => by
      rw [Option.map_some, Option.map_some, Entry.unplaced, Entry.unplaced, h])
  have stray : Unmoved ((fun _ => none) <$> strayToken) (Option.map Entry.unplaced) :=
    Alike.map (Alike.bind_pure ((token (u := id)).imp fun _ _ _ => rfl))
  refine firstOf ?_
  simp only [List.forall_mem_cons]
  exact ⟨some (namedDeclaration token hinner), some (namedDeclaration token hinner),
    some group, some group, some group, setting, some (unknownBlock hinner), stray,
    List.forall_mem_nil _⟩

theorem body : Unmoved (body scope) (List.map Entry.unplaced) :=
  nested fun _ hinner => Alike.map ((many (bodyEntry hinner)).imp fun _ _ => map_filterMap_eq)

theorem optional_body : Unmoved (Parser.optional (braced (Grammar.body scope)))
    (Option.map (List.map Entry.unplaced)) :=
  optional (between body)

/-! ## Context maps -/

theorem connection : Unmoved connection id := by
  have mark (arrow : Arrow) : Unmoved (arrowMark arrow) id :=
    Alike.bind_pure ((exactly (u := id)).imp fun _ _ _ => rfl)
  have arrow : Unmoved anyArrow id := by
    refine firstOf ?_
    simp only [List.forall_mem_cons]
    exact ⟨mark _, mark _, mark _, nofun⟩
  refine firstOf ?_
  simp only [List.forall_mem_cons]
  refine ⟨?_, ?_, nofun⟩
  · refine Alike.bind (token (u := id)) fun keyword keyword' hkeyword => ?_
    obtain rfl : keyword = keyword' := hkeyword
    refine Alike.bind_pure ((optional arrow).imp fun arrow arrow' harrow => ?_)
    rw [Option.map_id, id, id] at harrow
    rw [harrow]
  · refine Alike.bind_pure (arrow.imp fun arrow arrow' harrow => ?_)
    obtain rfl : arrow = arrow' := harrow
    rfl

theorem endpoint : Unmoved endpoint Endpoint.unplaced := by
  refine Alike.located (Alike.bind (optional roles) fun before before' hbefore => ?_)
  refine Alike.bind name fun name name' hname => Alike.bind_pure ?_
  obtain rfl : name = name' := hname
  refine (optional roles).imp fun behind behind' hbehind s t => ?_
  rw [Option.map_id, id, id] at hbefore hbehind
  rw [Endpoint.unplaced, Endpoint.unplaced, hbefore, hbehind]

theorem relationAttributes :
    Unmoved relationAttributes (List.map RelationAttribute.unplaced) := by
  have property : Unmoved ((fun a => some (RelationAttribute.ofAttribute a)) <$>
      Grammar.attributeSetting) (Option.map RelationAttribute.unplaced) :=
    Alike.map (attributeSetting.imp fun _ _ h => by
      rw [Option.map_some, Option.map_some, RelationAttribute.unplaced_ofAttribute,
        RelationAttribute.unplaced_ofAttribute, h])
  have stray : Unmoved ((fun _ => none) <$> anyToken (fun t => !t.isBrace))
      (Option.map RelationAttribute.unplaced) :=
    Alike.map ((token (u := id)).imp fun _ _ _ => rfl)
  exact Alike.map ((between (many (orElse property stray))).imp fun _ _ => map_filterMap_eq)

theorem relation : Unmoved relation RelationDecl.unplaced := by
  refine Alike.located (Alike.bind endpoint fun left left' hleft => ?_)
  refine Alike.bind connection fun connection connection' hconnection => ?_
  obtain rfl : connection = connection' := hconnection
  refine Alike.bind endpoint fun right right' hright => ?_
  refine Alike.bind (optional (Alike.bind (exactly (u := id)) fun _ _ _ => name))
    fun label label' hlabel => Alike.bind_pure ?_
  rw [Option.map_id, id, id] at hlabel
  refine (optional relationAttributes).imp fun attributes attributes' hattributes s t => ?_
  simp only [RelationDecl.unplaced, hleft, hright, hlabel, map_getD_eq hattributes]

theorem mapEntry : Unmoved mapEntry MapEntry.unplaced := by
  refine firstOf ?_
  simp only [List.forall_mem_cons]
  refine ⟨?_, ?_, ?_, nofun⟩
  · refine Alike.bind (exactly (u := id)) fun _ _ _ => Alike.bind_pure ?_
    exact references.imp fun _ _ => congrArg (MapEntry.setting ∘ MapSetting.contains)
  · refine Alike.map (attributeSetting.imp fun _ _ h => ?_)
    rw [MapEntry.unplaced, MapEntry.unplaced, MapSetting.unplaced_ofAttribute,
      MapSetting.unplaced_ofAttribute, h]
  · exact Alike.map (relation.imp fun _ _ => congrArg MapEntry.relation)

theorem contextMap : Unmoved contextMap MapDecl.unplaced := by
  refine Alike.located (Alike.bind (exactly (u := id)) fun _ _ _ => ?_)
  refine Alike.bind (optional name) fun name name' hname => Alike.bind_pure ?_
  rw [Option.map_id, id, id] at hname
  refine (between (many mapEntry)).imp fun entries entries' hentries s t => ?_
  have settings := congrArg (List.filterMap MapEntry.setting?) hentries
  have relations := congrArg (List.filterMap MapEntry.relation?) hentries
  simp only [filterMap_map_comm MapEntry.unplaced_setting?] at settings
  simp only [filterMap_map_comm MapEntry.unplaced_relation?] at relations
  simp only [MapDecl.unplaced, hname, settings, relations]

/-! ## Documents -/

theorem domain : Unmoved domain DomainDecl.unplaced := by
  refine Alike.located (Alike.bind (exactly (u := id)) fun _ _ _ => ?_)
  refine Alike.bind name fun name name' hname => Alike.bind_pure ?_
  obtain rfl : name = name' := hname
  refine optional_body.imp fun body body' hbody s t => ?_
  simp only [DomainDecl.unplaced, unplacedBody_eq_map, map_getD_eq hbody]

theorem contextClause : Unmoved contextClause ContextClause.unplaced := by
  refine firstOf ?_
  simp only [List.forall_mem_cons]
  refine ⟨?_, ?_, ?_, nofun⟩ <;>
    refine Alike.bind (exactly (u := id)) fun _ _ _ => Alike.bind_pure ?_
  · exact references.imp fun _ _ => congrArg ContextClause.implements
  · exact references.imp fun _ _ => congrArg ContextClause.realizes
  · exact reference.imp fun _ _ => congrArg ContextClause.refines

theorem boundedContext : Unmoved boundedContext ContextDecl.unplaced := by
  refine Alike.located (Alike.bind (exactly (u := id)) fun _ _ _ => ?_)
  refine Alike.bind name fun name name' hname => ?_
  obtain rfl : name = name' := hname
  refine Alike.bind (many contextClause) fun clauses clauses' hclauses => Alike.bind_pure ?_
  refine optional_body.imp fun body body' hbody s t => ?_
  have implemented := congrArg (List.flatMap ContextClause.implemented) hclauses
  have realized := congrArg (List.flatMap ContextClause.realized) hclauses
  have refined := congrArg (fun cs => (cs.filterMap ContextClause.refined?).getLast?) hclauses
  simp only [flatMap_map_comm ContextClause.unplaced_implemented] at implemented
  simp only [flatMap_map_comm ContextClause.unplaced_realized] at realized
  simp only [filterMap_map_comm ContextClause.unplaced_refined?, List.getLast?_map] at refined
  simp only [ContextDecl.unplaced, unplacedBody_eq_map, implemented, realized, refined,
    map_getD_eq hbody]

theorem useCase : Unmoved useCase UseCaseDecl.unplaced := by
  refine Alike.located (Alike.bind (exactly (u := id)) fun _ _ _ => ?_)
  refine Alike.bind name fun name name' hname => Alike.bind_pure ?_
  obtain rfl : name = name' := hname
  refine optional_body.imp fun body body' hbody s t => ?_
  have parts := congrArg (List.map UseCasePart.ofEntry) (map_getD_eq hbody)
  simp only [List.map_map, Function.comp_def, ← UseCasePart.unplaced_ofEntry] at parts
  simp only [UseCaseDecl.unplaced, List.map_map, Function.comp_def, parts]

theorem importLine : Unmoved importLine UnknownDecl.unplaced := by
  refine Alike.located (Alike.bind (exactly (u := id)) fun _ _ _ => Alike.bind_pure ?_)
  refine (token (u := id)).imp fun path path' hpath s t => ?_
  obtain rfl : path = path' := hpath
  rfl

theorem unknownDeclaration : Unmoved unknownDeclaration UnknownDecl.unplaced := by
  refine Alike.located (Alike.bind (token (u := id)) fun keyword keyword' hkeyword => ?_)
  obtain rfl : keyword = keyword' := hkeyword
  refine Alike.bind (many (token (u := id))) fun words words' hwords => Alike.bind_pure ?_
  rw [List.map_id, List.map_id] at hwords
  refine optional_body.imp fun body body' hbody s t => ?_
  have hbody : body.map unplacedBody = body'.map unplacedBody := by
    rwa [funext unplacedBody_eq_map]
  simp only [UnknownDecl.unplaced, hwords, hbody]

theorem element : Unmoved element Element.unplaced := by
  refine firstOf ?_
  simp only [List.forall_mem_cons]
  refine ⟨?_, ?_, ?_, ?_, ?_, ?_, nofun⟩ <;> refine Alike.map ?_
  · exact domain.imp fun _ _ => congrArg Element.domain
  · exact boundedContext.imp fun _ _ => congrArg Element.context
  · exact contextMap.imp fun _ _ => congrArg Element.map
  · exact useCase.imp fun _ _ => congrArg Element.useCase
  · exact importLine.imp fun _ _ => congrArg Element.unknown
  · exact unknownDeclaration.imp fun _ _ => congrArg Element.unknown

theorem document : Unmoved document Document.unplaced := by
  refine Alike.bind (many element) fun elements elements' helements => Alike.bind_pure ?_
  exact (endOfInput (u := id)).imp fun _ _ _ => congrArg Document.mk helements

end Unmoved

end Landscape.Grammar
