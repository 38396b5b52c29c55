import Landscape.Grammar.Map
import Landscape.Proofs.Grammar.Terminal

/-!
# Context maps

Three things may stand in a map, and all of them may start with the same name.
What is behind the name tells them apart: another name makes it a `contains`
clause, an equals sign a setting, and a bracket, a keyword or an arrow makes it
the left side of a relationship (`Grammar.exists_tokens_sides`).
-/

namespace Landscape

namespace MapSetting

theorem ofAttribute_other {a : Attribute} (h : ownKeys.contains a.key = false) :
    ofAttribute a = .other a := by
  unfold ofAttribute
  split
  all_goals simp_all [ownKeys]

end MapSetting

namespace RelationAttribute

theorem isWritable_toAttribute {a : RelationAttribute} (h : a.isWritable) :
    a.toAttribute.isWritable := by
  cases a with
  | type value => rfl
  | technology value => rfl
  | other setting => exact (Bool.and_eq_true_iff.1 h).1

theorem ofAttribute_toAttribute {a : RelationAttribute} (h : a.isWritable) :
    ofAttribute a.toAttribute.unplaced = a.unplaced := by
  cases a with
  | type value => rfl
  | technology value => rfl
  | other setting =>
      have hkey := (Bool.and_eq_true_iff.1 h).2
      simp only [toAttribute, unplaced, Attribute.unplaced]
      unfold ofAttribute
      split
      all_goals simp_all [ownKeys]

end RelationAttribute

namespace Grammar

variable {ts after : List Token}

/-! ## The sides of a relationship -/

theorem Reads.anyArrow {arrow : Arrow} :
    Reads anyArrow [.arrow arrow] after fun v => v = arrow := by
  have mark : Reads (arrowMark arrow) [.arrow arrow] after fun v => v = arrow :=
    exactly_bind (pure rfl)
  cases arrow with
  | right => exact firstOf_head mark
  | left => exact firstOf_tail (Refuses.exactly_bind nofun) (firstOf_head mark)
  | both =>
      refine firstOf_tail (Refuses.exactly_bind nofun) ?_
      exact firstOf_tail (Refuses.exactly_bind nofun) (firstOf_head mark)

theorem Refuses.anyArrow (h : ∀ arrow, ts.head? ≠ some (.arrow arrow)) :
    Refuses anyArrow ts := by
  refine firstOf ?_
  simp only [List.forall_mem_cons]
  exact ⟨bind (exactly (h _)), bind (exactly (h _)), bind (exactly (h _)), nofun⟩

theorem Reads.connection {c : Connection} (hc : c.keyword.isSome || c.arrow.isSome)
    (hafter : ∀ arrow, after.head? ≠ some (.arrow arrow)) :
    Reads connection c.tokens after fun v => v = c := by
  obtain ⟨keyword, arrow⟩ := c
  cases keyword with
  | some keyword =>
      refine firstOf_head (token_bind rfl (bind_pure ?_))
      cases arrow with
      | some arrow => exact optional_some (anyArrow.imp fun v hv => by rw [hv])
      | none => exact optional_none (Refuses.anyArrow hafter) rfl
  | none =>
      cases arrow with
      | some arrow =>
          have noKeyword : Refuses relationKeyword ([.arrow arrow] ++ after) :=
            Refuses.token (by simp)
          refine firstOf_tail (Refuses.bind noKeyword) ?_
          exact firstOf_head (bind_pure (anyArrow.imp fun v hv => by rw [hv]))
      | none => cases hc

theorem Reads.endpoint {e : Endpoint}
    (hafter : e.rolesAfter = [] → after.head? ≠ some .openBracket) :
    Reads endpoint e.tokens after fun v => v.unplaced = e.unplaced := by
  refine located (bind (optional_roles (by simp)) fun before hbefore => ?_)
  refine token_bind rfl (bind_pure ((optional_roles hafter).imp
    fun roles hroles span => ?_))
  rw [Endpoint.unplaced, Endpoint.unplaced, hbefore, hroles]

/-! ## Relationships -/

/-- A relationship starts with a bracket, or with a name that is followed by
neither a name nor an equals sign. -/
theorem exists_tokens_sides {decl : RelationDecl}
    (h : decl.connection.keyword.isSome || decl.connection.arrow.isSome) (more : List Token) :
    ∃ t s ts, decl.left.tokens ++ (decl.connection.tokens ++ more) = t :: s :: ts ∧
      t ≠ .comma ∧ (t = .openBracket ∨ s ≠ .equals ∧ ∀ text, s ≠ .name text) := by
  obtain ⟨left, connection, right, label, attributes, span⟩ := decl
  obtain ⟨name, before, behind, span⟩ := left
  obtain ⟨keyword, arrow⟩ := connection
  cases before with
  | cons role roles => exact ⟨_, _, _, rfl, nofun, .inl rfl⟩
  | nil =>
      cases behind with
      | cons role roles => exact ⟨_, _, _, rfl, nofun, .inr ⟨nofun, nofun⟩⟩
      | nil =>
          cases keyword with
          | some keyword => exact ⟨_, _, _, rfl, nofun, .inr ⟨nofun, nofun⟩⟩
          | none =>
              cases arrow with
              | some arrow => exact ⟨_, _, _, rfl, nofun, .inr ⟨nofun, nofun⟩⟩
              | none => cases h

theorem Reads.relationAttributes {attributes : List RelationAttribute}
    (h : ∀ a ∈ attributes, a.isWritable) :
    Reads relationAttributes
      (inBraces (attributes.flatMap fun a => a.toAttribute.tokens)) after
      fun vs => vs.map RelationAttribute.unplaced =
        attributes.map RelationAttribute.unplaced := by
  refine map (between ((many (u := Option.map RelationAttribute.unplaced)
    (w := fun a => some a.unplaced) (by simp [Attribute.tokens]) ?_ ?_).imp
      fun vs hvs => map_filterMap_id hvs))
  · intro a later hsuffix
    have ha := h a (hsuffix.subset List.mem_cons_self)
    have hlater : (later.flatMap (fun a => a.toAttribute.tokens) ++
        .closeBrace :: after).head? ≠ some .comma :=
      head?_flatMap_append_ne (by simp [Attribute.tokens]) (by simp)
    refine orElse_left (map ((attributeSetting (a.isWritable_toAttribute ha) hlater).imp
      fun v hv => ?_))
    rw [Option.map_some, RelationAttribute.unplaced_ofAttribute, hv,
      RelationAttribute.ofAttribute_toAttribute ha]
  · refine Refuses.orElse (Refuses.map (Refuses.attributeSetting_of_head (by simp))) ?_
    exact Refuses.map (Refuses.token (by simp [Token.isBrace]))

/-- A relationship, with its attributes read as they are written in front of
what comes after it. -/
theorem Reads.relation_of {decl : RelationDecl} {braces : List Token}
    (hconnection : decl.connection.keyword.isSome || decl.connection.arrow.isSome)
    (hbraces : Reads (Parser.optional Grammar.relationAttributes) braces after
      fun v => (v.getD []).map RelationAttribute.unplaced =
        decl.attributes.map RelationAttribute.unplaced)
    (hcolon : (braces ++ after).head? ≠ some .colon)
    (hbracket : decl.right.rolesAfter = [] → decl.name = none →
      (braces ++ after).head? ≠ some .openBracket) :
    Reads relation
      (decl.left.tokens ++ (decl.connection.tokens ++
        (decl.right.tokens ++ (decl.nameTokens ++ braces)))) after
      fun v => v.unplaced = decl.unplaced := by
  obtain ⟨left, connection, right, name, attributes, span⟩ := decl
  have hname : Reads (Parser.optional (do Parser.exactly .colon; Grammar.name))
      (RelationDecl.nameTokens ⟨left, connection, right, name, attributes, span⟩)
      (braces ++ after) fun v => v = name := by
    cases name with
    | some name => exact optional_some (exactly_bind (Reads.name.imp fun v => congrArg some))
    | none => exact optional_none (Refuses.bind (Refuses.exactly hcolon)) rfl
  refine located (bind (endpoint fun _ => ?_) fun left' hleft => ?_)
  · obtain ⟨keyword, arrow⟩ := connection
    cases keyword <;> cases arrow <;> simp_all [Connection.tokens]
  refine bind (Reads.connection hconnection ?_) fun connection' hconnection' => ?_
  · obtain ⟨name, before, behind, span⟩ := right
    cases before <;> simp [Endpoint.tokens, roleTokens]
  refine bind (endpoint fun hright => ?_) fun right' hright => ?_
  · cases name with
    | some name => exact nofun
    | none => exact hbracket hright rfl
  refine bind hname fun name' hname' => bind_pure (hbraces.imp fun vs hvs span' => ?_)
  rw [RelationDecl.unplaced, RelationDecl.unplaced, hleft, hright, hconnection', hname', hvs]

theorem Reads.relation {decl : RelationDecl} (h : decl.isWritable) :
    Reads relation decl.tokens after fun v => v.unplaced = decl.unplaced := by
  rw [RelationDecl.isWritable, Bool.and_eq_true, List.all_eq_true] at h
  exact relation_of h.1 (optional_some (relationAttributes h.2)) nofun nofun

/-! ## Entries of a map -/

namespace MapEntry

def unplaced : MapEntry → MapEntry
  | setting s => .setting s.unplaced
  | relation r => .relation r.unplaced

theorem unplaced_setting? (e : MapEntry) :
    e.unplaced.setting? = e.setting?.map MapSetting.unplaced := by
  cases e <;> rfl

theorem unplaced_relation? (e : MapEntry) :
    e.unplaced.relation? = e.relation?.map RelationDecl.unplaced := by
  cases e <;> rfl

theorem tokens_ne {e : MapEntry} (h : e.isWritable) :
    e.tokens ≠ [] ∧ e.tokens.head? ≠ some .comma := by
  cases e with
  | setting s => cases s <;> simp [tokens, MapSetting.tokens, Attribute.tokens]
  | relation r =>
      have hstart : ∃ t s ts, r.tokens = t :: s :: ts ∧ t ≠ .comma ∧ _ :=
        exists_tokens_sides (Bool.and_eq_true_iff.1 h).1 _
      obtain ⟨t, s, ts, htokens, hcomma, -⟩ := hstart
      simp [tokens, htokens, hcomma]

end MapEntry

/-- A setting of a map, with nothing said about its key. -/
theorem Reads.mapEntry_attribute {a : Attribute} (ha : a.isWritable)
    (hafter : after.head? ≠ some .comma) :
    Reads mapEntry a.tokens after
      fun v => v.unplaced = .setting (MapSetting.ofAttribute a.unplaced) := by
  refine firstOf_tail ?_ (firstOf_head (map ?_))
  · exact Refuses.exactly_bind fun _ => Refuses.bind (Refuses.references (by simp))
  · refine (attributeSetting ha hafter).imp fun v hv => ?_
    rw [MapEntry.unplaced, MapSetting.unplaced_ofAttribute, hv]

/-- A relationship is neither a `contains` clause nor a setting, whatever its left
side is called. -/
theorem Reads.mapEntry_relation {decl : RelationDecl} {more : List Token}
    (hconnection : decl.connection.keyword.isSome || decl.connection.arrow.isSome)
    (h : Reads Grammar.relation (decl.left.tokens ++ (decl.connection.tokens ++ more)) after
      fun v => v.unplaced = decl.unplaced) :
    Reads mapEntry (decl.left.tokens ++ (decl.connection.tokens ++ more)) after
      fun v => v.unplaced = .relation decl.unplaced := by
  obtain ⟨t, s, ts, htokens, -, hstart⟩ := exists_tokens_sides hconnection more
  rw [htokens] at h ⊢
  refine firstOf_tail ?_ (firstOf_tail ?_ (firstOf_head (map (h.imp
    fun v => congrArg MapEntry.relation))))
  · refine Refuses.exactly_bind fun ht => Refuses.bind (Refuses.references ?_)
    rcases hstart with rfl | ⟨-, hs⟩
    · cases ht
    · exact fun text heq => hs text (Option.some.inj heq)
  · rcases hstart with rfl | ⟨hs, -⟩
    · exact Refuses.map (Refuses.attributeSetting_of_head (by simp))
    · exact Refuses.map (Refuses.attributeSetting fun heq => hs (Option.some.inj heq))

theorem Reads.mapEntry {e : MapEntry} (he : e.isWritable)
    (hafter : after.head? ≠ some .comma) :
    Reads mapEntry e.tokens after fun v => v.unplaced = e.unplaced := by
  cases e with
  | setting s =>
      cases s with
      | type value => exact mapEntry_attribute rfl hafter
      | state value => exact mapEntry_attribute rfl hafter
      | other a =>
          obtain ⟨ha, hkey⟩ := Bool.and_eq_true_iff.1 he
          refine (mapEntry_attribute ha hafter).imp fun v hv => ?_
          rw [hv, MapSetting.ofAttribute_other (by simpa [Attribute.unplaced] using hkey)]
          rfl
      | contains rs =>
          have hne : rs ≠ [] := by
            rintro rfl
            cases he
          refine firstOf_head (exactly_bind (bind_pure ((references hne hafter).imp
            fun vs hvs => ?_)))
          exact congrArg (MapEntry.setting ∘ MapSetting.contains) hvs
  | relation r =>
      exact mapEntry_relation (Bool.and_eq_true_iff.1 he).1 (relation he)

theorem Refuses.mapEntry : Refuses mapEntry (.closeBrace :: ts) := by
  have noRoles : Reads (Parser.optional Grammar.roles) (roleTokens []) (.closeBrace :: ts)
      fun v => v.getD [] = [] := Reads.optional_roles (by simp)
  have endpoint : Refuses Grammar.endpoint (.closeBrace :: ts) :=
    located (bind_of_reads noRoles fun _ _ => bind (name (by simp)))
  refine firstOf ?_
  simp only [List.forall_mem_cons]
  refine ⟨exactly_bind nofun, map (attributeSetting_of_head (by simp)), ?_, nofun⟩
  exact map (located (bind endpoint))

/-! ## Maps -/

theorem filterMap_setting?_entries (decl : MapDecl) :
    decl.entries.filterMap MapEntry.setting? = decl.settings := by
  simp [MapDecl.entries, List.filterMap_map, Function.comp_def, MapEntry.setting?]

theorem filterMap_relation?_entries (decl : MapDecl) :
    decl.entries.filterMap MapEntry.relation? = decl.relations := by
  simp [MapDecl.entries, List.filterMap_map, Function.comp_def, MapEntry.relation?]

theorem Reads.many_mapEntry {entries : List MapEntry} (h : ∀ e ∈ entries, e.isWritable) :
    Reads (Parser.many Grammar.mapEntry) (entries.flatMap MapEntry.tokens)
      (.closeBrace :: after)
      fun vs => vs.map MapEntry.unplaced = entries.map MapEntry.unplaced := by
  refine many (fun e he => (MapEntry.tokens_ne (h e he)).1) ?_ Refuses.mapEntry
  intro e later hsuffix
  have hlater := fun e' he' => h e' (hsuffix.subset (List.mem_cons_of_mem e he'))
  refine mapEntry (h e (hsuffix.subset List.mem_cons_self)) ?_
  exact head?_flatMap_append_ne (fun e' he' => MapEntry.tokens_ne (hlater e' he')) (by simp)

/-- A map whose entries are read as they are written. -/
theorem Reads.contextMap_of {decl : MapDecl}
    (h : Reads (Parser.many Grammar.mapEntry) ts (.closeBrace :: after)
      fun vs => vs.map MapEntry.unplaced = decl.entries.map MapEntry.unplaced) :
    Reads contextMap
      (.name "ContextMap" :: (decl.name.toList.map .name ++ inBraces ts)) after
      fun v => v.unplaced = decl.unplaced := by
  have hname : Reads (Parser.optional Grammar.name) (decl.name.toList.map .name)
      (inBraces ts ++ after) fun v => v = decl.name := by
    cases decl.name with
    | some name => exact optional_some (Reads.name.imp fun v => congrArg some)
    | none => exact optional_none (Refuses.name (by simp [inBraces])) rfl
  refine located (exactly_bind (bind hname fun name' hname' => bind_pure (between ?_)))
  refine h.imp fun vs hvs span => ?_
  have settings := congrArg (List.filterMap MapEntry.setting?) hvs
  have relations := congrArg (List.filterMap MapEntry.relation?) hvs
  simp only [filterMap_map_comm MapEntry.unplaced_setting?,
    filterMap_setting?_entries] at settings
  simp only [filterMap_map_comm MapEntry.unplaced_relation?,
    filterMap_relation?_entries] at relations
  simp only [MapDecl.unplaced, hname', settings, relations]

theorem Reads.contextMap {decl : MapDecl} (h : decl.entries.all MapEntry.isWritable) :
    Reads contextMap (Element.map decl).tokens after fun v => v.unplaced = decl.unplaced :=
  contextMap_of (many_mapEntry (List.all_eq_true.1 h))

end Grammar

end Landscape
