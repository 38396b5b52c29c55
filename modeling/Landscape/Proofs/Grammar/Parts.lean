import Landscape.Proofs.Document.Part

/-!
# Every part is laid out

What the grammar reads is laid out as parts are. For most rules there is nothing
to it: a rule reads its keyword, its parts in the order in which they are listed,
and the span is made of the same lexemes. Three things take care. Lists are
collected from several places, clauses or settings among other things, so each
piece comes with the parts it adds to a list. The entries of a body come from
its derivation, by an induction that goes into the braces and past them
(`BodyRead.scattered`). And a use case keeps only some of the entries that were
read; leaving out some does not disturb the others.

An element keeps more than its layout, since what its body was read from is
needed to say what becomes of the settings in it (`ElementRead`).
-/

namespace Landscape

namespace Grammar

variable {α β : Type} {scope : Scope} {read rest after : List Lexeme}

/-! ## Pieces -/

theorem consumes_many {p : Parser α} {item : List Lexeme → α → Prop} (hp : Consumes p item) :
    Consumes (Parser.many p) (Scattered item) := by
  refine Consumes.many hp .nil fun first value others values hfirst hothers => ?_
  exact (Scattered.singleton hfirst).append hothers

theorem SettingRead.ne_nil {a : Attribute} (h : SettingRead read a) : read ≠ [] := by
  rintro rfl
  obtain ⟨ts, hts, -⟩ := h.exists_tokens
  cases hts

theorem SettingRead.opens {a : Attribute} (h : SettingRead read a) :
    a.Opens (read.map Lexeme.token) := by
  obtain ⟨ts, hread, hne, hvalues⟩ := h.exists_tokens
  obtain ⟨t, more, rfl⟩ := List.exists_cons_of_ne_nil hne
  cases hall : a.values with
  | nil => simp [hall] at hvalues
  | cons value values =>
      rw [hall, List.map_cons, List.map_cons, List.cons.injEq] at hvalues
      refine ⟨t, value, hvalues.1, by rw [hall]; rfl, ?_⟩
      rw [hread]
      exact ⟨more.flatMap fun token => [.comma, token], rfl⟩

theorem SettingRead.laidOut {a : Attribute} (h : SettingRead read a) :
    LaidOut read (.setting a) :=
  .bare h.ne_nil h.span_eq h.opens nofun nofun

theorem consumes_reference : Consumes reference fun read r => LaidOut read (.reference r) := by
  refine Consumes.spanned (Consumes.bind_pure (consumes_name.imp ?_))
  rintro _ text ⟨x, rfl, hx⟩
  exact .bare nofun rfl (congrArg (fun t => [t]) hx) nofun nofun

theorem consumes_references :
    Consumes references fun read rs => Scattered LaidOut read (rs.map .reference) := by
  refine Consumes.separated consumes_reference (fun _ _ => .singleton) ?_
  intro first r comma others rs hfirst _ hothers
  exact (Scattered.singleton hfirst).append (hothers.prepend [comma])

/-! ## Bodies -/

theorem Words.not_brace {words : List Lexeme} (h : Words after words) :
    ∀ x ∈ words, x.token.isBrace = false := by
  induction h with
  | nil => exact nofun
  | cons hword _ _ ih => exact List.forall_mem_cons.2 ⟨hword.not_brace, ih⟩

theorem HeadRead.opens {heading : Heading} (h : HeadRead after read heading) (ts : List Token) :
    heading.Opens (read.map Lexeme.token ++ ts) := by
  cases h with
  | named hkeyword hname hnamed _ =>
      obtain ⟨hstarts, htext, -⟩ := Heading.of_named? hnamed
      refine ⟨_, hstarts, ?_⟩
      rw [htext, List.map_cons, List.map_cons, hkeyword, hname]
      exact List.prefix_append [_, _] _
  | unknown hkeyword _ =>
      refine ⟨_, rfl, ?_⟩
      rw [List.map_cons, hkeyword]
      exact List.prefix_append [_] _

theorem HeadRead.ne_nil {heading : Heading} (h : HeadRead after read heading) : read ≠ [] := by
  cases h <;> exact nofun

/-- Entities in a heading come from no text. -/
theorem HeadRead.ownEntities {heading : Heading} (h : HeadRead after read heading) :
    heading.ownEntities = [] := by
  cases h with
  | named _ _ hnamed _ => exact (Heading.of_named? hnamed).2.2
  | unknown => rfl

/-- The part of a heading in the layout of its declaration. -/
theorem HeadRead.outer {heading : Heading} (h : HeadRead after read heading) (xs : List Lexeme)
    (body : List Entry) (span : Span) :
    ∀ list ∈ (Part.entry (.declaration heading body span)).outer, Scattered LaidOut xs list := by
  rw [Part.outer, h.ownEntities]
  exact List.forall_mem_singleton.2 .nil

theorem BodyRead.scattered {entries : List Entry} (h : BodyRead scope read after entries) :
    Scattered LaidOut read (entries.map .entry) := by
  induction h with
  | done => exact .nil
  | stray _ _ _ _ ih => exact ih.prepend [_]
  | setting hsetting _ ih =>
      have hlaid : LaidOut _ (.entry (.setting scope _)) :=
        .bare hsetting.ne_nil hsetting.span_eq hsetting.opens nofun nofun
      exact (Scattered.singleton hlaid).append ih
  | @bodiless head _ _ heading _ hhead _ ih =>
      have hopens := hhead.opens []
      rw [List.append_nil] at hopens
      have hlaid : LaidOut head (.entry (.declaration heading [] (spanOf head))) :=
        .bare hhead.ne_nil rfl hopens (hhead.outer _ _ _) (List.forall_mem_singleton.2 rfl)
      exact (Scattered.singleton hlaid).append ih
  | @declaration head inside read _ opening closing heading body _ hhead hopening hclosing _ _
      ihbody ih =>
      have hopens := hhead.opens ((opening :: (inside ++ [closing])).map Lexeme.token)
      rw [← List.map_append] at hopens
      have hlaid : LaidOut (head ++ opening :: (inside ++ [closing])) (.entry
          (.declaration heading body (spanOf (head ++ opening :: (inside ++ [closing]))))) :=
        .braced rfl hopens hopening hclosing (hhead.outer _ _ _)
          (List.forall_mem_singleton.2 ihbody)
      have happend := (Scattered.singleton hlaid).append ih
      rwa [List.append_assoc, List.cons_append, List.append_assoc] at happend

/-! ## Elements with a body -/

end Grammar

namespace Element

/-- The scope of the settings in an element, at any depth. -/
def scope : Element → Scope
  | domain _ => .subdomain
  | context _ => .context
  | _ => .plain

/-- The entries of an element's own body. A use case holds what they are made. -/
def HasEntries (entries : List Entry) : Element → Prop
  | domain decl => decl.body = entries
  | context decl => decl.body = entries
  | map _ => False
  | useCase decl => decl.parts = entries.map UseCasePart.ofEntry
  | unknown decl => decl.body.getD [] = entries

/-- A use case keeps the entries that have no form of their own. -/
theorem sublist_ofEntry (entries : List Entry) :
    ((entries.map UseCasePart.ofEntry).filterMap UseCasePart.entry?).Sublist entries := by
  induction entries with
  | nil => exact .slnil
  | cons entry rest ih =>
      have hown : UseCasePart.entry? (UseCasePart.ofEntry entry) = none ∨
          UseCasePart.entry? (UseCasePart.ofEntry entry) = some entry := by
        unfold UseCasePart.ofEntry
        repeat' split
        all_goals first | exact .inl rfl | exact .inr rfl
      rw [List.map_cons, List.filterMap_cons]
      rcases hown with hown | hown
      · rw [hown]
        exact ih.cons entry
      · rw [hown]
        exact ih.cons_cons entry

theorem HasEntries.sublist {e : Element} {entries : List Entry} (h : e.HasEntries entries) :
    e.body.Sublist entries := by
  cases e with
  | domain decl =>
      obtain rfl : decl.body = entries := h
      exact .refl _
  | context decl =>
      obtain rfl : decl.body = entries := h
      exact .refl _
  | map decl => exact h.elim
  | useCase decl =>
      have hparts : decl.parts = entries.map UseCasePart.ofEntry := h
      rw [body, hparts]
      exact sublist_ofEntry entries
  | unknown decl =>
      obtain rfl : decl.body.getD [] = entries := h
      exact .refl _

theorem HasEntries.inner_eq {e : Element} {entries : List Entry} (h : e.HasEntries entries) :
    (Part.element e).inner = [e.body.map Part.entry] := by
  cases e with
  | map decl => exact h.elim
  | _ => rfl

end Element

namespace Grammar

/-- What an element is read from: with a body of entries it is words in front of
that body, or without it. -/
structure ElementRead (after read : List Lexeme) (e : Element) : Prop where
  laidOut : LaidOut read (.element e)
  exists_eq : (∃ decl, e = .map decl ∧ Balanced (read.map Lexeme.token)) ∨
    ∃ head part entries, read = head ++ part ∧ (∀ x ∈ head, x.token.isBrace = false) ∧
      OptionalRead e.scope after part entries ∧ e.HasEntries (entries.getD [])

theorem ElementRead.of_optional {e : Element} {after head part : List Lexeme}
    {entries : Option (List Entry)} (hne : head ≠ []) (hhead : ∀ x ∈ head, x.token.isBrace = false)
    (hopens : e.opening.map .name <+: head.map Lexeme.token)
    (houter : ∀ list ∈ (Part.element e).outer, Scattered LaidOut head list)
    (hpart : OptionalRead e.scope after part entries) (hspan : e.span = spanOf (head ++ part))
    (hentries : e.HasEntries (entries.getD [])) : ElementRead after (head ++ part) e := by
  refine ⟨?_, .inr ⟨head, part, entries, rfl, hhead, hpart, hentries⟩⟩
  have hopens : e.opening.map .name <+: (head ++ part).map Lexeme.token := by
    rw [List.map_append]
    exact hopens.trans (List.prefix_append ..)
  have hsub := hentries.sublist.map Part.entry
  cases hpart with
  | none =>
      rw [List.append_nil] at hopens hspan ⊢
      refine .bare hne hspan hopens houter ?_
      rw [hentries.inner_eq, List.forall_mem_singleton]
      exact List.sublist_nil.1 hsub
  | some hbody =>
      obtain ⟨hopening, hclosing, hinside⟩ := hbody
      refine .braced hspan hopens hopening hclosing houter ?_
      rw [hentries.inner_eq, List.forall_mem_singleton]
      exact hinside.scattered.sublist hsub

theorem splits_domain : Splits domain fun read rest decl =>
    ElementRead rest read (.domain decl) := by
  refine Splits.located (Splits.bind consumes_exactly ?_)
  rintro _ _ _ ⟨x, rfl, hx⟩
  refine Splits.bind consumes_name ?_
  rintro _ name _ ⟨y, rfl, hy⟩
  refine Splits.bind_pure ((splits_optional splits_body).imp ?_)
  rintro part rest entries hpart - -
  show ElementRead rest ([x, y] ++ part) (.domain ⟨name, entries.getD [], _⟩)
  exact .of_optional nofun (by simp [hx, hy, Token.isBrace]) (by simp [hx, hy, Element.opening])
    nofun hpart rfl rfl

theorem splits_useCase : Splits useCase fun read rest decl =>
    ElementRead rest read (.useCase decl) := by
  refine Splits.located (Splits.bind consumes_exactly ?_)
  rintro _ _ _ ⟨x, rfl, hx⟩
  refine Splits.bind consumes_name ?_
  rintro _ name _ ⟨y, rfl, hy⟩
  refine Splits.bind_pure ((splits_optional splits_body).imp ?_)
  rintro part rest entries hpart - -
  show ElementRead rest ([x, y] ++ part)
    (.useCase ⟨name, (entries.getD []).map UseCasePart.ofEntry, _⟩)
  exact .of_optional nofun (by simp [hx, hy, Token.isBrace]) (by simp [hx, hy, Element.opening])
    nofun hpart rfl rfl

/-- What a clause adds to the lists of a context. -/
structure ClauseRead (read : List Lexeme) (c : ContextClause) : Prop where
  implemented : Scattered LaidOut read (c.implemented.map .reference)
  realized : Scattered LaidOut read (c.realized.map .reference)
  refined : Scattered LaidOut read (c.refined?.toList.map .reference)

theorem consumes_contextClause : Consumes contextClause ClauseRead := by
  refine Consumes.firstOf ?_
  simp only [List.forall_mem_cons]
  refine ⟨Consumes.bind consumes_exactly ?_, Consumes.bind consumes_exactly ?_,
    Consumes.bind consumes_exactly ?_, nofun⟩
  · rintro _ _ ⟨x, rfl, -⟩
    exact Consumes.bind_pure (consumes_references.imp fun _ _ h => ⟨h.prepend [x], .nil, .nil⟩)
  · rintro _ _ ⟨x, rfl, -⟩
    exact Consumes.bind_pure (consumes_references.imp fun _ _ h => ⟨.nil, h.prepend [x], .nil⟩)
  · rintro _ _ ⟨x, rfl, -⟩
    exact Consumes.bind_pure (consumes_reference.imp fun _ _ h =>
      ⟨.nil, .nil, (Scattered.singleton h).prepend [x]⟩)

/-- The lists of a context are collected from its clauses. Of the contexts that
it refines the last one is kept. -/
theorem scattered_clauses {read : List Lexeme} {clauses : List ContextClause}
    (h : Scattered ClauseRead read clauses) :
    Scattered LaidOut read ((clauses.flatMap ContextClause.implemented).map .reference) ∧
      Scattered LaidOut read ((clauses.flatMap ContextClause.realized).map .reference) ∧
      Scattered LaidOut read
        (((clauses.filterMap ContextClause.refined?).getLast?).toList.map .reference) := by
  have collected {f : ContextClause → List Reference}
      (hf : ∀ read c, ClauseRead read c → Scattered LaidOut read ((f c).map .reference)) :
      Scattered LaidOut read ((clauses.flatMap f).map .reference) := by
    rw [List.map_flatMap]
    exact h.flatMap hf
  refine ⟨collected fun _ _ hc => hc.implemented, collected fun _ _ hc => hc.realized, ?_⟩
  have hrefined := collected fun _ _ hc => hc.refined
  rw [← List.filterMap_eq_flatMap_toList] at hrefined
  refine hrefined.sublist (List.Sublist.map _ ?_)
  cases hlast : (clauses.filterMap ContextClause.refined?).getLast? with
  | none => exact List.nil_sublist _
  | some r =>
      obtain ⟨others, hothers⟩ := List.getLast?_eq_some_iff.1 hlast
      rw [hothers]
      exact List.sublist_append_right others [r]

theorem splits_boundedContext : Splits boundedContext fun read rest decl =>
    ElementRead rest read (.context decl) := by
  refine Splits.located (Splits.bind consumes_exactly ?_)
  rintro _ _ _ ⟨x, rfl, hx⟩
  refine Splits.bind consumes_name ?_
  rintro _ name _ ⟨y, rfl, hy⟩
  have clauses := (consumes_many consumes_contextClause).and ReadsNoBrace.contextClause.many
  refine Splits.bind clauses fun heads clauses mid hclauses => ?_
  obtain ⟨hclauses, hheads⟩ := hclauses
  obtain ⟨himplements, hrealizes, hrefines⟩ := scattered_clauses hclauses
  refine Splits.bind_pure ((splits_optional splits_body).imp ?_)
  rintro part rest entries hpart - - -
  show ElementRead rest (x :: y :: heads ++ part) (.context ⟨name, _, _, _, entries.getD [], _⟩)
  refine .of_optional nofun ?_ (by simp [hx, hy, Element.opening]) ?_ hpart rfl rfl
  · simpa [hx, hy, Token.isBrace] using hheads
  · simp only [Part.outer, List.forall_mem_cons]
    exact ⟨himplements.prepend [x, y], hrealizes.prepend [x, y], hrefines.prepend [x, y],
      List.forall_mem_nil _⟩

theorem consumes_importLine : Consumes importLine fun read decl =>
    ElementRead after read (.unknown decl) := by
  refine Consumes.spanned (Consumes.bind consumes_exactly ?_)
  rintro _ _ ⟨x, rfl, hx⟩
  refine Consumes.bind_pure (Consumes.token fun found path h => ?_)
  have hfound : found.token = .string path := by
    cases ht : found.token <;> rw [ht] at h <;> cases h
    rfl
  show ElementRead after ([x, found] ++ []) (.unknown ⟨"import", [path], none, _⟩)
  exact .of_optional nofun (by simp [hx, hfound, Token.isBrace]) (by simp [hx, Element.opening])
    nofun .none rfl rfl

theorem splits_unknownDeclaration : Splits unknownDeclaration fun read rest decl =>
    ElementRead rest read (.unknown decl) := by
  have word : ReadsNoBrace (Parser.anyToken fun t => !(t.isBrace || isTopLevelKeyword t)) :=
    .anyToken fun t ht => by simp_all
  refine Splits.located (Splits.bind consumes_blockKeyword ?_)
  rintro _ text _ ⟨x, rfl, hx, -⟩
  refine Splits.bind word.many fun heads words mid hheads => ?_
  refine Splits.bind_pure ((splits_optional splits_body).imp ?_)
  rintro part rest entries hpart - -
  show ElementRead rest (x :: heads ++ part) (.unknown ⟨text, words.map Token.contents, entries, _⟩)
  refine .of_optional nofun ?_ (by simp [hx, Element.opening]) nofun hpart rfl rfl
  simpa [hx, Token.isBrace] using hheads

/-! ## Context maps -/

/-- Tokens that are accepted only as what they are made of a value. -/
theorem eq_map_of_map_eq {accept : Token → Option α} (token : α → Token)
    (haccept : ∀ t value, accept t = some value → t = token value) {ts : List Token}
    {values : List α} (h : ts.map accept = values.map some) : ts = values.map token := by
  induction ts generalizing values with
  | nil =>
      obtain rfl := List.map_eq_nil_iff.1 h.symm
      rfl
  | cons t ts ih =>
      cases values with
      | nil => cases h
      | cons value values =>
          rw [List.map_cons, List.map_cons, List.cons.injEq] at h
          rw [List.map_cons, haccept t value h.1, ih h.2]

theorem consumes_roles : Consumes (Parser.optional roles) fun read rs =>
    read.map Lexeme.token = roleTokens (rs.getD []) := by
  have listed : Consumes roles fun read rs => read.map Lexeme.token = roleTokens rs := by
    refine (Consumes.between consumes_separated).imp ?_
    rintro _ rs ⟨opening, inside, closing, rfl, hopening, hclosing, ts, hinside, hne, hts⟩
    obtain rfl := eq_map_of_map_eq Token.name (fun t text ht => by
      cases t <;> cases ht
      rfl) hts
    obtain ⟨first, others, rfl⟩ := List.exists_cons_of_ne_nil fun hnil : rs = [] => by
      simp [hnil] at hne
    rw [List.map_cons, List.map_append, List.map_singleton, hopening, hclosing, hinside]
    rfl
  exact Consumes.optional listed rfl

theorem consumes_endpoint : Consumes endpoint fun read e => LaidOut read (.endpoint e) := by
  refine Consumes.spanned (Consumes.bind consumes_roles fun before rs hbefore => ?_)
  refine Consumes.bind consumes_name ?_
  rintro _ text ⟨x, rfl, hx⟩
  refine Consumes.bind_pure (consumes_roles.imp fun later rs' hlater => ?_)
  refine .bare (by simp) rfl ?_ nofun nofun
  show _ = Endpoint.tokens _
  simp [Endpoint.tokens, hbefore, hx, hlater]

theorem consumes_relationAttributes : Consumes relationAttributes fun read attributes =>
    ∃ opening inside closing, read = opening :: (inside ++ [closing]) ∧
      opening.token = Token.openBrace ∧ closing.token = Token.closeBrace ∧
      Scattered LaidOut inside (attributes.flatMap RelationAttribute.parts) := by
  have entry : Consumes (Parser.orElse
      ((fun setting => some (RelationAttribute.ofAttribute setting)) <$> attributeSetting)
      ((fun _ => none) <$> Parser.anyToken fun t => !t.isBrace)) fun read property =>
      Scattered LaidOut read (property.toList.flatMap RelationAttribute.parts) := by
    refine Consumes.orElse (Consumes.map (consumes_attributeSetting.imp fun read a ha => ?_))
      (Consumes.map (Consumes.token fun _ _ _ => .nil))
    rw [Option.toList_some, List.flatMap_singleton]
    unfold RelationAttribute.ofAttribute
    split
    · exact .nil
    · exact .nil
    · exact .singleton ha.laidOut
  refine Consumes.map ((Consumes.between (consumes_many entry)).imp ?_)
  rintro _ attributes ⟨opening, inside, closing, rfl, hopening, hclosing, hinside⟩
  refine ⟨opening, inside, closing, rfl, hopening, hclosing, ?_⟩
  rw [List.filterMap_eq_flatMap_toList, List.flatMap_assoc]
  exact hinside.flatMap fun _ _ h => h

theorem consumes_relation : Consumes relation fun read r => LaidOut read (.relation r) := by
  refine Consumes.spanned (Consumes.bind consumes_endpoint fun left l hleft => ?_)
  refine Consumes.bind ReadsBalanced.connection fun middle c _ => ?_
  refine Consumes.bind consumes_endpoint fun right r hright => ?_
  refine Consumes.bind (ReadsBalanced.optional
    (ReadsBalanced.bind (.exactly rfl) fun _ => .name)) fun named name _ => ?_
  have houter : Scattered LaidOut (left ++ (middle ++ (right ++ named)))
      [.endpoint l, .endpoint r] :=
    (Scattered.singleton hleft).append (((Scattered.singleton hright).extend named).prepend middle)
  have hopens (xs : List Lexeme) :
      l.tokens <+: (left ++ (middle ++ (right ++ named)) ++ xs).map Lexeme.token := by
    have hl : left.map Lexeme.token = l.tokens := hleft.opens
    rw [List.append_assoc, List.map_append, hl]
    exact List.prefix_append ..
  have hassoc (xs : List Lexeme) : left ++ (middle ++ (right ++ (named ++ xs))) =
      left ++ (middle ++ (right ++ named)) ++ xs := by
    simp only [List.append_assoc]
  refine Consumes.bind_pure (Consumes.optional (consumes_relationAttributes.imp ?_) ?_)
  · rintro _ attributes ⟨opening, inside, closing, rfl, hopening, hclosing, hinside⟩
    rw [hassoc]
    exact .braced rfl (hopens _) hopening hclosing (List.forall_mem_singleton.2 houter)
      (List.forall_mem_singleton.2 hinside)
  · have hne : left ++ (middle ++ (right ++ named)) ++ [] ≠ [] := by simp [hleft.ne_nil]
    rw [hassoc]
    refine .bare hne rfl (hopens []) (List.forall_mem_singleton.2 ?_)
      (List.forall_mem_singleton.2 rfl)
    exact houter.extend []

/-- What an entry adds to the lists of a map. -/
structure MapEntryRead (read : List Lexeme) (entry : MapEntry) : Prop where
  setting : Scattered LaidOut read (entry.setting?.toList.flatMap MapSetting.parts)
  relation : Scattered LaidOut read (entry.relation?.toList.map .relation)

theorem consumes_mapEntry : Consumes mapEntry MapEntryRead := by
  refine Consumes.firstOf ?_
  simp only [List.forall_mem_cons]
  refine ⟨Consumes.bind consumes_exactly ?_,
    Consumes.map (consumes_attributeSetting.imp fun read a ha => ⟨?_, .nil⟩),
    Consumes.map (consumes_relation.imp fun read r hr => ⟨.nil, .singleton hr⟩), nofun⟩
  · rintro _ _ ⟨x, rfl, -⟩
    refine Consumes.bind_pure (consumes_references.imp fun read rs hrs => ⟨?_, .nil⟩)
    rw [MapEntry.setting?, Option.toList_some, List.flatMap_singleton]
    exact hrs.prepend [x]
  · rw [MapEntry.setting?, Option.toList_some, List.flatMap_singleton]
    unfold MapSetting.ofAttribute
    split
    · exact .nil
    · exact .nil
    · exact .singleton ha.laidOut

theorem consumes_contextMap : Consumes contextMap fun read decl =>
    LaidOut read (.element (.map decl)) := by
  have named : Consumes (Parser.optional name) fun read text =>
      read.map Lexeme.token = text.toList.map .name := by
    refine Consumes.optional (consumes_name.imp ?_) rfl
    rintro _ text ⟨x, rfl, hx⟩
    exact congrArg (fun t => [t]) hx
  refine Consumes.spanned (Consumes.bind consumes_exactly ?_)
  rintro _ _ ⟨x, rfl, hx⟩
  refine Consumes.bind named fun words text hwords => ?_
  refine Consumes.bind_pure ((Consumes.between (consumes_many consumes_mapEntry)).imp ?_)
  rintro _ entries ⟨opening, inside, closing, rfl, hopening, hclosing, hentries⟩
  show LaidOut (x :: words ++ opening :: (inside ++ [closing])) _
  refine .braced rfl ?_ hopening hclosing nofun ?_
  · show _ <+: _
    rw [Element.opening, List.map_append, List.map_cons, List.map_cons, hx, hwords]
    exact List.prefix_append ..
  · simp only [Part.inner, List.forall_mem_cons]
    rw [List.filterMap_eq_flatMap_toList, List.flatMap_assoc, List.filterMap_eq_flatMap_toList,
      List.map_flatMap]
    exact ⟨hentries.flatMap fun _ _ h => h.setting, hentries.flatMap fun _ _ h => h.relation, nofun⟩

/-! ## Documents -/

theorem splits_element : Splits element fun read rest e => ElementRead rest read e := by
  have map : Splits contextMap fun read rest decl => ElementRead rest read (.map decl) :=
    Splits.imp (consumes_contextMap.and ReadsBalanced.contextMap) fun _ _ decl ⟨hread, hbalanced⟩ =>
      ⟨hread, .inl ⟨decl, rfl, hbalanced⟩⟩
  have importLine : Splits importLine fun read rest decl =>
      ElementRead rest read (.unknown decl) := by
    intro input decl rest doubt h
    exact consumes_importLine input decl rest doubt h
  refine Splits.firstOf ?_
  simp only [List.forall_mem_cons]
  exact ⟨Splits.map splits_domain, Splits.map splits_boundedContext, Splits.map map,
    Splits.map splits_useCase, Splits.map importLine, Splits.map splits_unknownDeclaration, nofun⟩

/-- The elements of a document divide the lexemes among them. -/
theorem splits_elements : Splits (Parser.many element) fun read _ elements =>
    ∃ stretches : List (List Lexeme), stretches.flatten = read ∧
      List.Forall₂ (fun stretch e => ∃ after, ElementRead after stretch e) stretches elements := by
  refine Splits.many splits_element (fun _ => ⟨[], rfl, .nil⟩) ?_
  rintro first e _ rest elements hfirst ⟨stretches, rfl, hothers⟩
  exact ⟨first :: stretches, rfl, .cons ⟨_, hfirst⟩ hothers⟩

end Grammar

theorem Document.exists_stretches {lexemes : List Lexeme} {d : Document}
    (h : Document.ofLexemes lexemes = .ok d) :
    ∃ stretches : List (List Lexeme), stretches.flatten = lexemes ∧
      List.Forall₂ (fun stretch e => ∃ after, Grammar.ElementRead after stretch e)
        stretches d.elements := by
  obtain ⟨doubt, hmany⟩ := ofLexemes_eq_ok_iff.1 h
  obtain ⟨read, hread, stretches, rfl, hstretches⟩ := Grammar.splits_elements _ _ _ _ hmany
  rw [List.append_nil] at hread
  exact ⟨stretches, hread.symm, hstretches⟩

theorem Document.laidOut {lexemes : List Lexeme} {d : Document}
    (h : Document.ofLexemes lexemes = .ok d) :
    Scattered LaidOut lexemes (d.elements.map .element) := by
  obtain ⟨stretches, rfl, hstretches⟩ := exists_stretches h
  exact (Scattered.of_forall₂ hstretches).map fun _ _ ⟨_, hread⟩ => hread.laidOut

end Landscape
