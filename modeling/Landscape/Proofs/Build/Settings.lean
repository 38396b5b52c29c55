import Landscape.Proofs.Build.Order
import Mathlib.Logic.Relation

/-!
# What settings a thing ends up with

A later statement takes the place of an earlier one of its kind. So the settings
of a list of statements are those of its end laid over those of its beginning
(`Settings.ofStatements_append`), and what is left of a list in each part of the
settings is the last statement about it (`Settings.IsPart.getLast?`).

With that every field is described by itself, by a rule that says what an entry
states about it and what the last statement makes of it (`SettingRule`). There is
no fold left in the rules, so it is seen from them alone which edits of a
declaration are none to a field (`SettingRule.value_eq_of_edit`).
-/

namespace Landscape

/-! ## Statements one after the other -/

namespace Settings

/-- Settings laid over others: what they do not say is taken from below. -/
def laidOver (above below : Settings) : Settings where
  type := above.type.or below.type
  state := above.state.or below.state
  vision := above.vision.or below.vision
  responsibilities := above.responsibilities.or below.responsibilities
  technology := above.technology.or below.technology
  knowledgeLevel := above.knowledgeLevel.or below.knowledgeLevel

theorem laidOver_assoc (s t u : Settings) :
    (s.laidOver t).laidOver u = s.laidOver (t.laidOver u) := by
  simp only [laidOver, Option.or_assoc]

theorem apply_eq_laidOver (s : Settings) (statement : Statement) :
    s.apply statement = (ofStatements [statement]).laidOver s := by
  cases statement <;> rfl

theorem foldl_apply_eq_laidOver (s : Settings) (statements : List Statement) :
    statements.foldl apply s = (ofStatements statements).laidOver s := by
  induction statements generalizing s with
  | nil => rfl
  | cons statement rest ih =>
      calc rest.foldl apply (s.apply statement)
          = (ofStatements rest).laidOver (s.apply statement) := ih _
        _ = ((ofStatements rest).laidOver (ofStatements [statement])).laidOver s := by
            rw [apply_eq_laidOver, laidOver_assoc]
        _ = (ofStatements (statement :: rest)).laidOver s := by
            rw [← ih]
            rfl

theorem ofStatements_append (xs ys : List Statement) :
    ofStatements (xs ++ ys) = (ofStatements ys).laidOver (ofStatements xs) := by
  rw [ofStatements, List.foldl_append, foldl_apply_eq_laidOver]
  rfl

/-- A part of the settings that is laid over the same part of others. -/
structure IsPart {α : Type} (part : Settings → Option α) : Prop where
  none : part none = .none
  laidOver (above below : Settings) : part (above.laidOver below) = (part above).or (part below)

variable {α ρ : Type} {part : Settings → Option α}

/-- Of all statements about a part the last one stays. -/
theorem IsPart.getLast? (h : IsPart part) (statements : List Statement) :
    part (ofStatements statements) =
      (statements.filterMap fun statement => part (ofStatements [statement])).getLast? := by
  induction statements with
  | nil => exact h.none
  | cons statement rest ih =>
      rw [← List.singleton_append, ofStatements_append, h.laidOver, ih, List.filterMap_append,
        List.getLast?_append]
      congr 1
      cases hpart : part (ofStatements [statement]) <;> simp [hpart]

/-- The same for statements that are taken from entries, if it is known what is
taken from each of them. -/
theorem IsPart.settled (h : IsPart part) {statement? : ρ → Option Statement}
    {stated? : ρ → Option α}
    (hstated : ∀ x, part (ofStatements (statement? x).toList) = stated? x) (entries : List ρ) :
    part (ofStatements (entries.filterMap statement?)) =
      (entries.filterMap stated?).getLast? := by
  have hbind (x : ρ) :
      (statement? x).bind (fun s => part (ofStatements [s])) = stated? x := by
    rw [← hstated]
    cases statement? x with
    | none => exact h.none.symm
    | some statement => rfl
  rw [h.getLast?, List.filterMap_filterMap]
  exact congrArg (fun f => (entries.filterMap f).getLast?) (funext hbind)

theorem isPart_type : IsPart type := ⟨rfl, fun _ _ => rfl⟩

theorem isPart_literal : IsPart fun s => s.type.map Prod.fst :=
  ⟨rfl, fun _ _ => Option.map_or⟩

theorem isPart_state : IsPart state := ⟨rfl, fun _ _ => rfl⟩

theorem isPart_vision : IsPart vision := ⟨rfl, fun _ _ => rfl⟩

theorem isPart_responsibilities : IsPart responsibilities := ⟨rfl, fun _ _ => rfl⟩

theorem isPart_technology : IsPart technology := ⟨rfl, fun _ _ => rfl⟩

theorem isPart_knowledgeLevel : IsPart knowledgeLevel := ⟨rfl, fun _ _ => rfl⟩

end Settings

/-! ## What an entry states -/

/-- The first value of an attribute that has the key, unless it is empty. -/
def Attribute.stated? (key : String) (a : Attribute) : Option String :=
  if a.key = key then a.firstValue?.filter (· ≠ "") else none

/-- The values of an attribute that has the key, without the empty ones, if
there are others. -/
def Attribute.statedItems? (key : String) (a : Attribute) : Option (List String) :=
  let items := (a.values.map Value.text).filter (· ≠ "")
  if a.key = key ∧ items ≠ [] then some items else none

/-- What is read from an entry if it is an attribute in one of the scopes. -/
def Entry.statedIn? {α : Type} (scopes : List Scope) (read : Attribute → Option α) :
    Entry → Option α
  | setting scope a => if scope ∈ scopes then read a else none
  | _ => none

/-- An entry with entries of its own. -/
def Entry.Nests : Entry → Prop
  | declaration .. => True
  | _ => False

def MapSetting.statedType? : MapSetting → Option String
  | type value => if value = "" then none else some value
  | _ => none

def MapSetting.statedState? : MapSetting → Option String
  | state value => if value = "" then none else some value
  | _ => none

/-! ## Rules -/

/-- How a field of a thing comes from the entries of its declaration: what one of
them states, and what the last statement makes of the field, or that there is
none. -/
structure SettingRule (ρ ε : Type) where
  {Stated : Type}
  {Field : Type}
  stated? : ρ → Option Stated
  settled : Option Stated → Field
  field : ε → Field

section

variable {ρ ε : Type}

def SettingRule.value (r : SettingRule ρ ε) (entries : List ρ) : r.Field :=
  r.settled (entries.filterMap r.stated?).getLast?

/-- The things have, in order, the fields that the rules say. -/
def Settled (rules : List (SettingRule ρ ε)) (lists : List (List ρ)) (things : List ε) : Prop :=
  ∀ r ∈ rules, things.map r.field = lists.map r.value

/-- An edit that is none to a field: an entry that does not state it is inserted
or moved, or there is another nested declaration where there was one. -/
inductive SettingRule.Edit (r : SettingRule ρ ε) (nests : ρ → Prop) : List ρ → List ρ → Prop
  | insert (before : List ρ) {x : ρ} (h : r.stated? x = none) (after : List ρ) :
    Edit r nests (before ++ after) (before ++ x :: after)
  | move (before : List ρ) {x : ρ} (h : r.stated? x = none) (between after : List ρ) :
    Edit r nests (before ++ x :: (between ++ after)) (before ++ (between ++ x :: after))
  | inside (before : List ρ) {x y : ρ} (hx : nests x) (hy : nests y) (after : List ρ) :
    Edit r nests (before ++ x :: after) (before ++ y :: after)

/-- Any number of such edits, made or taken back, do not change the field of the
thing that is declared, whatever else the two documents have. -/
def Kept (rules : List (SettingRule ρ ε)) (nests : ρ → Prop) (lists lists' : List (List ρ))
    (things things' : List ε) : Prop :=
  ∀ r ∈ rules, ∀ (i j : Nat) (xs ys : List ρ), lists[i]? = some xs → lists'[j]? = some ys →
    Relation.EqvGen (r.Edit nests) xs ys → things[i]?.map r.field = things'[j]?.map r.field

end

/-- What is read for a domain. -/
def DomainDecl.settingRules : List (SettingRule Entry Domain) :=
  [⟨Entry.statedIn? [.subdomain, .context] (·.stated? "domainVisionStatement"), id,
    Domain.vision⟩]

/-- What is read for a subdomain. -/
def SubdomainDecl.settingRules : List (SettingRule Entry Subdomain) :=
  [⟨Entry.statedIn? [.subdomain] (·.stated? "type"),
      fun literal => (literal.bind SubdomainType.ofLiteral?).getD .generic, Subdomain.type⟩,
    ⟨Entry.statedIn? [.subdomain, .context] (·.stated? "domainVisionStatement"), id,
      Subdomain.vision⟩]

/-- What is read for a context. -/
def ContextDecl.settingRules : List (SettingRule Entry Context) :=
  [⟨Entry.statedIn? [.context] (·.stated? "type"), (·.getD "FEATURE"), Context.type⟩,
    ⟨Entry.statedIn? [.context] (·.stated? "domainVisionStatement"), id, Context.vision⟩,
    ⟨Entry.statedIn? [.context] (·.statedItems? "responsibilities"), (·.getD []),
      Context.responsibilities⟩,
    ⟨Entry.statedIn? [.context] (·.stated? "implementationTechnology"), id, Context.technology⟩,
    ⟨Entry.statedIn? [.context] (·.stated? "knowledgeLevel"), id, Context.knowledgeLevel⟩]

/-- What is read for a map. -/
def MapDecl.settingRules : List (SettingRule MapSetting ContextMap) :=
  [⟨MapSetting.statedType?, (·.getD "SYSTEM_LANDSCAPE"), ContextMap.type⟩,
    ⟨MapSetting.statedState?, (·.getD "AS_IS"), ContextMap.state⟩]

/-! ## Edits -/

namespace SettingRule

variable {ρ ε : Type} {r : SettingRule ρ ε} {nests : ρ → Prop} {xs ys : List ρ}

theorem value_eq_of_edit (hnests : ∀ x, nests x → r.stated? x = none)
    (h : r.Edit nests xs ys) : r.value xs = r.value ys := by
  suffices xs.filterMap r.stated? = ys.filterMap r.stated? by rw [value, value, this]
  cases h with
  | insert before h after => simp [h]
  | move before h between after => simp [h]
  | inside before hx hy after => simp [hnests _ hx, hnests _ hy]

theorem value_eq_of_edits (hnests : ∀ x, nests x → r.stated? x = none)
    (h : Relation.EqvGen (r.Edit nests) xs ys) : r.value xs = r.value ys := by
  induction h with
  | rel _ _ h => exact value_eq_of_edit hnests h
  | refl _ => rfl
  | symm _ _ _ ih => exact ih.symm
  | trans _ _ _ _ _ ih ih' => exact ih.trans ih'

end SettingRule

theorem Settled.kept {ρ ε : Type} {rules : List (SettingRule ρ ε)} {nests : ρ → Prop}
    {lists lists' : List (List ρ)} {things things' : List ε} (h : Settled rules lists things)
    (h' : Settled rules lists' things')
    (hnests : ∀ r ∈ rules, ∀ x, nests x → r.stated? x = none) :
    Kept rules nests lists lists' things things' := by
  intro r hr i j xs ys hxs hys hedits
  rw [← List.getElem?_map, ← List.getElem?_map, h r hr, h' r hr, List.getElem?_map,
    List.getElem?_map, hxs, hys, Option.map_some, Option.map_some,
    SettingRule.value_eq_of_edits (hnests r hr) hedits]

theorem Entry.statedIn?_of_nests {α : Type} (scopes : List Scope) (read : Attribute → Option α)
    {x : Entry} (h : x.Nests) : x.statedIn? scopes read = none := by
  cases x with
  | declaration heading body span => rfl
  | _ => exact h.elim

/-! ## Statements and what is stated -/

namespace Attribute

variable (a : Attribute)

theorem stated?_eq (key : String) :
    a.stated? key = if a.key = key then a.effectiveValue? else none := by
  rw [stated?, effectiveValue?]
  cases a.firstValue? with
  | none => rfl
  | some value => by_cases h : value = "" <;> simp [Option.filter, h]

theorem statedItems?_eq (key : String) :
    a.statedItems? key =
      if a.key = key then
        match (a.values.map Value.text).filter (!·.isEmpty) with
        | [] => none
        | items => some items
      else none := by
  have hitems : (a.values.map Value.text).filter (!·.isEmpty) =
      (a.values.map Value.text).filter (· ≠ "") :=
    List.filter_congr fun value _ => by by_cases h : value = "" <;> simp [h]
  rw [statedItems?, hitems]
  cases (a.values.map Value.text).filter (· ≠ "") with
  | nil => simp
  | cons item items => simp

theorem settings_vision? :
    Settings.ofStatements a.vision?.toList =
      { Settings.none with vision := a.stated? "domainVisionStatement" } := by
  rw [vision?, stated?_eq]
  split
  · cases a.effectiveValue? <;> rfl
  · rfl

/-- In the scope of a subdomain, the type and the vision are stated. -/
theorem settings_type? :
    Settings.ofStatements (if a.key = "type" then a.type? else a.vision?).toList =
      { Settings.none with
        type := (a.stated? "type").map (·, a.span)
        vision := a.stated? "domainVisionStatement" } := by
  split
  · next h =>
      rw [stated?_eq, stated?_eq, if_pos h, if_neg (by simp [h]), type?]
      cases a.effectiveValue? <;> rfl
  · next h =>
      rw [settings_vision?, a.stated?_eq "type", if_neg h]
      rfl

/-- In the scope of a context, every key states what it is the name of. -/
theorem settings_contextStatement? :
    Settings.ofStatements a.contextStatement?.toList =
      { type := (a.stated? "type").map (·, a.span)
        state := none
        vision := a.stated? "domainVisionStatement"
        responsibilities := a.statedItems? "responsibilities"
        technology := a.stated? "implementationTechnology"
        knowledgeLevel := a.stated? "knowledgeLevel" } := by
  rw [contextStatement?]
  simp only [stated?_eq, statedItems?_eq]
  -- One case for each key, in the order in which they are looked for, then one for the others.
  split
  · next h =>
      simp only [h, type?, String.reduceEq, if_true, if_false]
      cases a.effectiveValue? <;> rfl
  · next h =>
      simp only [h, vision?, String.reduceEq, if_true, if_false]
      cases a.effectiveValue? <;> rfl
  · next h =>
      simp only [h, String.reduceEq, if_true, if_false]
      cases (a.values.map Value.text).filter (!·.isEmpty) <;> rfl
  · next h =>
      simp only [h, String.reduceEq, if_true, if_false]
      cases a.effectiveValue? <;> rfl
  · next h =>
      simp only [h, String.reduceEq, if_true, if_false]
      cases a.effectiveValue? <;> rfl
  · next htype hvision hresponsibilities htechnology hknowledge =>
      simp only [if_neg htype, if_neg hvision, if_neg hresponsibilities, if_neg htechnology,
        if_neg hknowledge]
      rfl

end Attribute

theorem map_fst_map_mk {α β : Type} (value? : Option α) (b : β) :
    (value?.map (·, b)).map Prod.fst = value? := by
  cases value? <;> rfl

namespace Entry

variable (x : Entry)

theorem vision_domainStatement? :
    (Settings.ofStatements x.domainStatement?.toList).vision =
      x.statedIn? [.subdomain, .context] (·.stated? "domainVisionStatement") := by
  cases x with
  | setting scope a =>
      cases scope with
      | subdomain | context => exact congrArg Settings.vision a.settings_vision?
      | plain => rfl
  | _ => rfl

theorem literal_subdomainStatement? :
    (Settings.ofStatements x.subdomainStatement?.toList).type.map Prod.fst =
      x.statedIn? [.subdomain] (·.stated? "type") := by
  cases x with
  | setting scope a =>
      cases scope with
      | subdomain =>
          have h := congrArg (·.type.map Prod.fst) a.settings_type?
          exact h.trans (map_fst_map_mk _ a.span)
      | context => exact congrArg (·.type.map Prod.fst) a.settings_vision?
      | plain => rfl
  | _ => rfl

theorem vision_subdomainStatement? :
    (Settings.ofStatements x.subdomainStatement?.toList).vision =
      x.statedIn? [.subdomain, .context] (·.stated? "domainVisionStatement") := by
  cases x with
  | setting scope a =>
      cases scope with
      | subdomain => exact congrArg Settings.vision a.settings_type?
      | context => exact congrArg Settings.vision a.settings_vision?
      | plain => rfl
  | _ => rfl

/-- A part of what an entry states about a context. -/
theorem part_contextStatement? {α : Type} {part : Settings → Option α} (h : Settings.IsPart part)
    {read : Attribute → Option α}
    (hread : ∀ a, part (Settings.ofStatements a.contextStatement?.toList) = read a) :
    part (Settings.ofStatements x.contextStatement?.toList) = x.statedIn? [.context] read := by
  cases x with
  | setting scope a =>
      cases scope with
      | context => exact hread a
      | subdomain | plain => exact h.none
  | _ => exact h.none

end Entry

theorem MapSetting.settings_statement? (x : MapSetting) :
    Settings.ofStatements x.statement?.toList =
      { Settings.none with
        type := x.statedType?.map (·, Span.none)
        state := x.statedState? } := by
  cases x with
  | type value | state value =>
      by_cases h : value = ""
      · rw [h]
        rfl
      · simp only [statement?, statedType?, statedState?, h, String.isEmpty_iff, if_false]
        rfl
  | _ => rfl

/-! ## Fields -/

theorem DomainDecl.field_toOwner (decl : DomainDecl) (id : Id .domain) (first : Nat) :
    ∀ r ∈ settingRules, r.field (decl.toOwner id first) = r.value decl.body := by
  simp only [settingRules, List.forall_mem_singleton]
  exact Settings.isPart_vision.settled Entry.vision_domainStatement? decl.body

theorem SubdomainDecl.field_toSubdomain (decl : SubdomainDecl) (id : Id .subdomain)
    (domain : Id .domain) (implementations : List (Id .context)) :
    ∀ r ∈ settingRules,
      r.field { decl.toSubdomain id domain with implementations } = r.value decl.body := by
  have literal := Settings.isPart_literal.settled Entry.literal_subdomainStatement? decl.body
  have vision := Settings.isPart_vision.settled Entry.vision_subdomainStatement? decl.body
  simp only [settingRules, List.forall_mem_cons]
  refine ⟨?_, vision, nofun⟩
  rw [SettingRule.value, ← literal]
  change decl.type = ((decl.settings.type.map Prod.fst).bind SubdomainType.ofLiteral?).getD .generic
  rw [type]
  cases decl.settings.type <;> rfl

theorem ContextDecl.field_toContext (decl : ContextDecl) (id : Id .context)
    (implements : List (Id .subdomain)) (map : Option (Id .map)) :
    ∀ r ∈ settingRules,
      r.field { decl.toContext id with implements, map } = r.value decl.body := by
  have part {α : Type} {part : Settings → Option α} (h : Settings.IsPart part)
      {read : Attribute → Option α}
      (hread : ∀ a, part (Settings.ofStatements a.contextStatement?.toList) = read a) :=
    h.settled (Entry.part_contextStatement? · h hread) decl.body
  have stated (a : Attribute) := a.settings_contextStatement?
  have literal := part Settings.isPart_literal fun a =>
    (congrArg (·.type.map Prod.fst) (stated a)).trans (map_fst_map_mk _ a.span)
  have responsibilities := part Settings.isPart_responsibilities fun a =>
    congrArg Settings.responsibilities (stated a)
  simp only [settingRules, List.forall_mem_cons]
  exact ⟨congrArg (·.getD "FEATURE") literal,
    part Settings.isPart_vision fun a => congrArg Settings.vision (stated a),
    congrArg (·.getD []) responsibilities,
    part Settings.isPart_technology fun a => congrArg Settings.technology (stated a),
    part Settings.isPart_knowledgeLevel fun a => congrArg Settings.knowledgeLevel (stated a),
    nofun⟩

theorem MapDecl.field_toMap (decl : MapDecl) (id : Id .map) (contexts : List (Id .context))
    (relationships : List Relationship) :
    ∀ r ∈ settingRules,
      r.field { decl.toMap id with contexts, relationships } = r.value decl.settings := by
  have literal := Settings.isPart_literal.settled (fun x =>
    (congrArg (·.type.map Prod.fst) x.settings_statement?).trans (map_fst_map_mk _ Span.none))
    decl.settings
  have state := Settings.isPart_state.settled (fun x =>
    congrArg Settings.state x.settings_statement?) decl.settings
  simp only [settingRules, List.forall_mem_cons]
  exact ⟨congrArg (·.getD "SYSTEM_LANDSCAPE") literal, congrArg (·.getD "AS_IS") state, nofun⟩

namespace Document

variable (d : Document) {policy : Policy}

theorem settled_domains :
    Settled DomainDecl.settingRules (d.domains.map DomainDecl.body)
      (d.draft policy).model.domains := by
  intro r hr
  rw [d.draft_domains, d.domains_register, List.map_map]
  exact DomainDecl.map_number (fun decl id first => decl.field_toOwner id first r hr) 0 0 _

theorem settled_subdomains :
    Settled SubdomainDecl.settingRules (d.subdomains.map SubdomainDecl.body)
      (d.draft policy).model.subdomains := by
  intro r hr
  rw [List.map_map]
  exact d.map_draft_subdomains fun decl id domain _ => decl.field_toSubdomain id domain _ r hr

theorem settled_contexts :
    Settled ContextDecl.settingRules (d.contexts.map ContextDecl.body)
      (d.draft policy).model.contexts := by
  intro r hr
  rw [d.draft_contexts, List.map_map]
  exact map_mapIdx (fun i decl => decl.field_toContext ⟨i⟩ _ _ r hr) _

theorem settled_maps :
    Settled MapDecl.settingRules (d.maps.map MapDecl.settings) (d.draft policy).model.maps := by
  intro r hr
  rw [d.draft_maps, List.map_map]
  exact map_mapIdx (fun i decl => decl.field_toMap ⟨i⟩ _ _ r hr) _

/-- Every field that can be set is what the last of the own entries that set it
makes of it, in a thing of any kind. Statements one after the other are laid
over each other, and a field stays as it is under edits that are none to it. -/
theorem build_settings (policy : Policy) (source : Option String) :
    let m := (d.build policy source).model
    (Settled DomainDecl.settingRules (d.domains.map DomainDecl.body) m.domains ∧
      Settled SubdomainDecl.settingRules (d.subdomains.map SubdomainDecl.body) m.subdomains ∧
      Settled ContextDecl.settingRules (d.contexts.map ContextDecl.body) m.contexts ∧
      Settled MapDecl.settingRules (d.maps.map MapDecl.settings) m.maps) ∧
    (∀ xs ys, Settings.ofStatements (xs ++ ys) =
      (Settings.ofStatements ys).laidOver (Settings.ofStatements xs)) ∧
    ∀ (d' : Document) (policy' : Policy) (source' : Option String),
      let m' := (d'.build policy' source').model
      Kept DomainDecl.settingRules Entry.Nests (d.domains.map DomainDecl.body)
          (d'.domains.map DomainDecl.body) m.domains m'.domains ∧
        Kept SubdomainDecl.settingRules Entry.Nests (d.subdomains.map SubdomainDecl.body)
          (d'.subdomains.map SubdomainDecl.body) m.subdomains m'.subdomains ∧
        Kept ContextDecl.settingRules Entry.Nests (d.contexts.map ContextDecl.body)
          (d'.contexts.map ContextDecl.body) m.contexts m'.contexts ∧
        Kept MapDecl.settingRules (fun _ => False) (d.maps.map MapDecl.settings)
          (d'.maps.map MapDecl.settings) m.maps m'.maps := by
  refine ⟨⟨d.settled_domains, d.settled_subdomains, d.settled_contexts, d.settled_maps⟩,
    Settings.ofStatements_append, fun d' _ _ => ⟨?_, ?_, ?_, ?_⟩⟩
  · refine d.settled_domains.kept d'.settled_domains ?_
    simp only [DomainDecl.settingRules, List.forall_mem_singleton]
    exact fun _ => Entry.statedIn?_of_nests _ _
  · refine d.settled_subdomains.kept d'.settled_subdomains ?_
    simp only [SubdomainDecl.settingRules, List.forall_mem_cons]
    exact ⟨fun _ => Entry.statedIn?_of_nests _ _, fun _ => Entry.statedIn?_of_nests _ _, nofun⟩
  · refine d.settled_contexts.kept d'.settled_contexts ?_
    simp only [ContextDecl.settingRules, List.forall_mem_cons]
    refine ⟨?_, ?_, ?_, ?_, ?_, nofun⟩ <;> exact fun _ => Entry.statedIn?_of_nests _ _
  · exact d.settled_maps.kept d'.settled_maps fun _ _ _ => False.elim

/-- A domain, a subdomain, a context and a map that each say something twice: the
second time in another scope, or as nothing. The same entries follow in the
subdomain and in the context. -/
def retyped (more : List Entry) (settings : List MapSetting) : Document :=
  let setting (scope : Scope) (key value : String) : Entry :=
    .setting scope ⟨key, [.string value], .none⟩
  ⟨[.domain ⟨"Shop", [setting .subdomain "domainVisionStatement" "Sell",
        setting .context "domainVisionStatement" "Grow",
        .declaration (.subdomain "Stock" []) ([setting .subdomain "type" "CORE_DOMAIN",
          setting .context "type" "SUPPORTING_DOMAIN"] ++ more) .none], .none⟩,
    .context ⟨"Sales", [], [], none,
      [setting .context "type" "SYSTEM", setting .context "type" ""] ++ more, .none⟩,
    .map ⟨none, [.type "TEAMS", .type "", .state "AS_WAS", .state "TO_BE"] ++ settings, [],
      .none⟩]⟩

/-- The type in an aggregate is that of nothing around it, and a vision is no type.
Neither are the contexts that a map contains. -/
theorem retyped_settings :
    let type : Entry := .setting .context ⟨"type", [.name "TEAM"], .none⟩
    let vision : Entry := .setting .context ⟨"domainVisionStatement", [.string "Sell"], .none⟩
    let orders (body : List Entry) : Entry := .declaration (.group .aggregate "Orders") body .none
    let m := ((retyped [orders []] []).build ⟨.warn, .shadow⟩ none).model
    let m' := ((retyped [vision, orders [type]] [.contains []]).build ⟨.error, .reject⟩ none).model
    (m.domains.map Domain.vision = [some "Grow"] ∧
      m.subdomains.map Subdomain.type = [.core] ∧
      m.contexts.map Context.type = ["SYSTEM"] ∧
      m.maps.map ContextMap.type = ["TEAMS"] ∧ m.maps.map ContextMap.state = ["TO_BE"]) ∧
    (m.domains[0]?.map Domain.vision = m'.domains[0]?.map Domain.vision ∧
      m.subdomains[0]?.map Subdomain.type = m'.subdomains[0]?.map Subdomain.type ∧
      m.contexts[0]?.map Context.type = m'.contexts[0]?.map Context.type ∧
      m.maps[0]?.map ContextMap.type = m'.maps[0]?.map ContextMap.type) := by
  intro type vision orders m m'
  obtain ⟨⟨domains, subdomains, contexts, maps⟩, -, kept⟩ :=
    build_settings (retyped [orders []] []) ⟨.warn, .shadow⟩ none
  obtain ⟨keptDomains, keptSubdomains, keptContexts, keptMaps⟩ :=
    kept (retyped [vision, orders [type]] [.contains []]) ⟨.error, .reject⟩ none
  refine ⟨⟨domains _ List.mem_cons_self, subdomains _ List.mem_cons_self,
    contexts _ List.mem_cons_self, maps _ List.mem_cons_self,
    maps _ (List.mem_cons_of_mem _ List.mem_cons_self)⟩, ?_, ?_, ?_, ?_⟩
  · refine keptDomains _ List.mem_cons_self 0 0 _ _ rfl rfl ?_
    exact .rel _ _ (.inside [_, _] trivial trivial [])
  · refine keptSubdomains _ List.mem_cons_self 0 0 _ _ rfl rfl ?_
    exact .trans _ _ _ (.rel _ _ (.inside [_, _] trivial trivial []))
      (.rel _ _ (.insert [_, _] rfl [_]))
  · refine keptContexts _ List.mem_cons_self 0 0 _ _ rfl rfl ?_
    exact .trans _ _ _ (.rel _ _ (.inside [_, _] trivial trivial []))
      (.rel _ _ (.insert [_, _] rfl [_]))
  · refine keptMaps _ List.mem_cons_self 0 0 _ _ rfl rfl ?_
    exact .rel _ _ (.insert [_, _, _, _] rfl [])

end Document

end Landscape
