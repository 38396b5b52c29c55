import Landscape.Proofs.Build.Settings

/-!
# The report of a document

Which findings a document has depends on two lists only. One is what it
registers, in order: a name is reported if the same kind of thing was registered
under it before. The other is what it mentions, in order: a mention is reported
if nothing at all is registered under its name. So the report is a function of
these lists (`Document.build_diagnostics`), in which there is nothing left of
the index, nor of the models that the passes go through.

The findings were listed element by element before, each with the elements
before it in view. To get from there to registrations, a domain has to be taken
apart: its subdomains come one by one, and each has the ones before it in view.
-/

namespace Landscape

/-! ## What is listed -/

/-- The type that an entry states, with its place. An empty value states none. -/
def Entry.statedType? : Entry → Option (String × Span)
  | setting .subdomain a => if a.key = "type" then a.effectiveValue?.map (·, a.span) else none
  | _ => none

/-- Something that is registered under a name. Only subdomains state a type that
may be unknown. -/
structure Registered where
  kind : Kind
  name : String
  span : Span
  statedTypes : List (String × Span)

namespace Registered

/-- The finding for the last of the stated types, unless there is such a type. -/
def unknownType (r : Registered) : List Finding :=
  match r.statedTypes.getLast? with
  | none => []
  | some (literal, span) =>
    if literal ∈ ["CORE_DOMAIN", "SUPPORTING_DOMAIN", "GENERIC_SUBDOMAIN"] then []
    else [.unknownSubdomainType literal r.name span]

/-- Whether two things of one kind have the same name. -/
def Clashes (r earlier : Registered) : Prop :=
  earlier.kind = r.kind ∧ earlier.name = r.name

instance (r earlier : Registered) : Decidable (r.Clashes earlier) :=
  inferInstanceAs (Decidable (_ ∧ _))

/-- What is reported when something is registered after other things. -/
def findings (before : List Registered) (r : Registered) : List Finding :=
  r.unknownType ++ if ∃ earlier ∈ before, r.Clashes earlier
    then [.duplicateName r.kind r.name r.span] else []

end Registered

def SubdomainDecl.registered (decl : SubdomainDecl) : Registered :=
  ⟨.subdomain, decl.name, decl.span, decl.body.filterMap Entry.statedType?⟩

/-- What an element registers. For a domain this is itself, then the subdomains
declared in it. Maps without a name are not registered under any. -/
def Element.registered : Element → List Registered
  | .domain decl =>
    ⟨.domain, decl.name, decl.span, []⟩ :: decl.subdomains.map SubdomainDecl.registered
  | .context decl => [⟨.context, decl.name, decl.span, []⟩]
  | .map decl => decl.name.toList.map (⟨.map, ·, decl.span, []⟩)
  | .useCase decl => [⟨.useCase, decl.name, decl.span, []⟩]
  | .unknown _ => []

/-- The kind of thing that a mention is looked up among. -/
def Mention.kind : Mention → Kind
  | implementation => .subdomain
  | membership => .context
  | endpoint => .context

/-- A name that is mentioned, and where. -/
structure Mentioned where
  mention : Mention
  name : String
  owner : Owner
  span : Span

namespace Mentioned

def finding (m : Mentioned) : Finding :=
  .unresolved m.mention m.name m.owner m.span

/-- Whether nothing is registered under the name. -/
def Dangles (m : Mentioned) (registered : List Registered) : Prop :=
  ∀ r ∈ registered, r.kind = m.mention.kind → r.name ≠ m.name

instance (m : Mentioned) (registered : List Registered) : Decidable (m.Dangles registered) :=
  inferInstanceAs (Decidable (∀ r ∈ registered, _))

end Mentioned

/-- What an element mentions: the references of a context, or first the contents
of a map and then both sides of its relationships. -/
def Element.mentioned : Element → List Mentioned
  | .context decl =>
    decl.implements.map fun r => ⟨.implementation, r.name, .context decl.name, r.span⟩
  | .map decl =>
    decl.mentions.map (fun r => ⟨.membership, r.name, .map decl.name, r.span⟩) ++
      decl.relations.flatMap fun relation => [relation.left, relation.right].map fun side =>
        ⟨.endpoint, side.name, .map decl.name, side.span⟩
  | _ => []

namespace Document

def registered (d : Document) : List Registered :=
  d.elements.flatMap Element.registered

def mentioned (d : Document) : List Mentioned :=
  d.elements.flatMap Element.mentioned

end Document

/-! ## Types -/

/-- What an entry states about the type of a subdomain, with its place. -/
theorem Entry.type_subdomainStatement? (entry : Entry) :
    (Settings.ofStatements entry.subdomainStatement?.toList).type = entry.statedType? := by
  cases entry with
  | setting scope a =>
      cases scope with
      | subdomain =>
          refine (congrArg Settings.type a.settings_type?).trans ?_
          rw [a.stated?_eq, statedType?]
          split <;> rfl
      | context => exact congrArg Settings.type a.settings_vision?
      | plain => rfl
  | _ => rfl

theorem SubdomainType.isSome_ofLiteral? (literal : String) :
    (ofLiteral? literal).isSome =
      decide (literal ∈ ["CORE_DOMAIN", "SUPPORTING_DOMAIN", "GENERIC_SUBDOMAIN"]) := by
  by_cases hcore : literal = "CORE_DOMAIN"
  · rw [hcore]
    rfl
  by_cases hsupporting : literal = "SUPPORTING_DOMAIN"
  · rw [hsupporting]
    rfl
  by_cases hgeneric : literal = "GENERIC_SUBDOMAIN"
  · rw [hgeneric]
    rfl
  simp [ofLiteral?, hcore, hsupporting, hgeneric]

theorem SubdomainDecl.unknownType_registered (decl : SubdomainDecl) :
    decl.registered.unknownType = decl.typeFindings := by
  have settled : decl.settings.type = decl.registered.statedTypes.getLast? :=
    Settings.isPart_type.settled Entry.type_subdomainStatement? decl.body
  rw [Registered.unknownType, typeFindings, settled]
  cases decl.registered.statedTypes.getLast? with
  | none => rfl
  | some stated => simp [SubdomainType.isSome_ofLiteral?, registered]

/-! ## One after the other -/

/-- What a list comes to if each element is looked at with those before it in
view. -/
def flatMapAfter {α β : Type} (f : List α → α → List β) (before xs : List α) : List β :=
  xs.zipIdx.flatMap fun (x, i) => f (before ++ xs.take i) x

section

variable {α β : Type} (f : List α → α → List β) (before : List α)

theorem flatMapAfter_cons (x : α) (xs : List α) :
    flatMapAfter f before (x :: xs) = f before x ++ flatMapAfter f (before ++ [x]) xs := by
  rw [flatMapAfter, List.zipIdx_cons', List.flatMap_cons, List.flatMap_map]
  simp [flatMapAfter]

theorem flatMapAfter_append (xs ys : List α) :
    flatMapAfter f before (xs ++ ys) =
      flatMapAfter f before xs ++ flatMapAfter f (before ++ xs) ys := by
  induction xs generalizing before with
  | nil => simp [flatMapAfter]
  | cons x xs ih => simp [flatMapAfter_cons, ih]

end

/-! ## Names that are registered -/

namespace Document

variable (d : Document)

/-- The names that the declarations of a kind give. -/
def names (d : Document) : Kind → List String
  | .domain => d.domains.map DomainDecl.name
  | .subdomain => d.subdomains.map SubdomainDecl.name
  | .context => d.contexts.map ContextDecl.name
  | .map => d.maps.filterMap MapDecl.name
  | .useCase => d.useCases.map UseCaseDecl.name

theorem names_append (xs ys : List Element) (kind : Kind) :
    names ⟨xs ++ ys⟩ kind = names ⟨xs⟩ kind ++ names ⟨ys⟩ kind := by
  cases kind with
  | domain => rw [names, domains_append, List.map_append]; rfl
  | subdomain => rw [names, subdomains_append, List.map_append]; rfl
  | context => rw [names, contexts_append, List.map_append]; rfl
  | map => rw [names, maps_append, List.filterMap_append]; rfl
  | useCase => rw [names, useCases_append, List.map_append]; rfl

theorem names_singleton (element : Element) (kind : Kind) :
    names ⟨[element]⟩ kind = (element.registered.filter (·.kind = kind)).map Registered.name := by
  cases element with
  | domain decl =>
      have named : (decl.subdomains.map SubdomainDecl.registered).map Registered.name =
          decl.subdomains.map SubdomainDecl.name := List.map_map
      have own : names ⟨[.domain decl]⟩ .subdomain = decl.subdomains.map SubdomainDecl.name :=
        congrArg (List.map _) (List.append_nil _)
      have all : ∀ r ∈ decl.subdomains.map SubdomainDecl.registered, r.kind = .subdomain := by
        rw [List.forall_mem_map]
        exact fun _ _ => rfl
      by_cases hkind : kind = .subdomain
      · subst hkind
        rw [own, Element.registered, List.filter_cons_of_neg (by simp),
          List.filter_eq_self.2 (by simpa using all), named]
      · have none : (decl.subdomains.map SubdomainDecl.registered).filter (·.kind = kind) = [] :=
          List.filter_eq_nil_iff.2 fun r hr => by simpa [all r hr] using Ne.symm hkind
        rw [Element.registered, List.filter_cons, none]
        cases kind <;> first | rfl | exact absurd rfl hkind
  | map decl =>
      obtain ⟨name, settings, relations, span⟩ := decl
      cases name <;> cases kind <;> rfl
  | context decl | useCase decl | unknown decl => cases kind <;> rfl

theorem map_name_filter_registered (kind : Kind) :
    (d.registered.filter (·.kind = kind)).map Registered.name = d.names kind := by
  obtain ⟨elements⟩ := d
  induction elements with
  | nil => cases kind <;> rfl
  | cons element rest ih =>
      rw [registered, List.flatMap_cons, List.filter_append, List.map_append, ← registered, ih,
        ← names_singleton, ← names_append, List.singleton_append]

theorem mem_names_iff (kind : Kind) (name : String) :
    name ∈ d.names kind ↔ ∃ r ∈ d.registered, r.kind = kind ∧ r.name = name := by
  rw [← map_name_filter_registered, List.mem_map]
  simp only [List.mem_filter, decide_eq_true_eq, and_assoc]

end Document

/-! ## The first pass -/

theorem Registered.findings_eq {before : List Registered} {names : List String} (r : Registered)
    (h : ∀ name, name ∈ names ↔ ∃ earlier ∈ before, earlier.kind = r.kind ∧ earlier.name = name) :
    r.findings before =
      r.unknownType ++ duplicateFindings (decide (r.name ∈ names)) r.kind r.name r.span := by
  rw [findings, duplicateFindings]
  simp only [decide_eq_true_eq, h]
  rfl

theorem SubdomainDecl.findings_eq {before : List Registered} {names : List String}
    (decls : List SubdomainDecl)
    (h : ∀ name, name ∈ names ↔
      ∃ earlier ∈ before, earlier.kind = .subdomain ∧ earlier.name = name) :
    findings names decls =
      flatMapAfter Registered.findings before (decls.map registered) := by
  induction decls generalizing before names with
  | nil => rfl
  | cons decl rest ih =>
      rw [findings, List.map_cons, flatMapAfter_cons, Registered.findings_eq decl.registered h,
        unknownType_registered]
      refine congrArg _ (ih fun name => ?_)
      rw [List.mem_append, h, List.mem_singleton]
      simp [or_and_right, exists_or, registered, eq_comm]

namespace Document

theorem registrationFindings_element (before : Document) (element : Element) :
    element.registrationFindings before =
      flatMapAfter Registered.findings before.registered element.registered := by
  have untyped (kind : Kind) (name : String) (span : Span) :
      Registered.findings before.registered ⟨kind, name, span, []⟩ =
        duplicateFindings (decide (name ∈ before.names kind)) kind name span :=
    Registered.findings_eq ⟨kind, name, span, []⟩ (before.mem_names_iff kind)
  have alone (r : Registered) : flatMapAfter Registered.findings before.registered [r] =
      r.findings before.registered := by
    rw [flatMapAfter_cons]
    exact List.append_nil _
  cases element with
  | domain decl =>
      rw [Element.registered, flatMapAfter_cons, untyped]
      refine congrArg _ (SubdomainDecl.findings_eq _ fun name => ?_)
      refine (before.mem_names_iff .subdomain name).trans ?_
      simp
  | context decl =>
      rw [Element.registered, alone, untyped]
      rfl
  | map decl =>
      rw [Element.registered, Element.registrationFindings]
      cases decl.name with
      | none => rfl
      | some name => exact ((alone _).trans (untyped .map name decl.span)).symm
  | useCase decl =>
      rw [Element.registered, alone, untyped]
      rfl
  | unknown decl => rfl

theorem registrationFindings_eq (before : Document) (elements : List Element) :
    before.registrationFindings elements =
      flatMapAfter Registered.findings before.registered
        (elements.flatMap Element.registered) := by
  induction elements generalizing before with
  | nil => rfl
  | cons element rest ih =>
      have concat : (mk (before.elements ++ [element])).registered =
          before.registered ++ element.registered := by
        simp [registered]
      rw [registrationFindings, ih, concat, List.flatMap_cons, flatMapAfter_append,
        registrationFindings_element]

end Document

/-! ## The second pass -/

namespace Document

variable (d : Document)

theorem isSome_subdomainId? (name : String) :
    (d.subdomainId? name).isSome = decide (name ∈ d.names .subdomain) := by
  have index : (d.register .lenient).names.Resolves d := d.resolves_register
  rw [← index.subdomain, d.register_tracks, Model.idNamed?, Option.isSome_map,
    Model.subdomainNamed?, isSome_findLast?, d.map_name_subdomains_register]
  rfl

theorem isSome_contextId? (name : String) :
    (d.contextId? name).isSome = decide (name ∈ d.names .context) := by
  have index : (d.register .lenient).names.Resolves d := d.resolves_register
  rw [← index.context, d.isSome_context]
  rfl

/-- Mentions of which it is known whether they were found. -/
theorem flatMap_unresolvedFindings {α : Type} (m : α → Mentioned) {found : α → Bool}
    (h : ∀ x, found x = decide ((m x).name ∈ d.names (m x).mention.kind)) (xs : List α) :
    (xs.flatMap fun x =>
        unresolvedFindings (found x) (m x).mention (m x).name (m x).owner (m x).span) =
      ((xs.map m).filter (·.Dangles d.registered)).map Mentioned.finding := by
  have found_iff (x : α) : found x = true ↔ ¬ (m x).Dangles d.registered := by
    rw [h, decide_eq_true_iff, mem_names_iff, Mentioned.Dangles]
    simp
  induction xs with
  | nil => rfl
  | cons x rest ih =>
      rw [List.flatMap_cons, ih, List.map_cons, List.filter_cons, unresolvedFindings]
      by_cases hdangles : (m x).Dangles d.registered
      · rw [if_neg (by simpa [found_iff] using hdangles), if_pos (decide_eq_true hdangles)]
        rfl
      · rw [if_pos ((found_iff x).2 hdangles), if_neg (by simpa using hdangles)]
        rfl

theorem unresolvedIn_eq (element : Element) :
    element.unresolvedIn d =
      (element.mentioned.filter (·.Dangles d.registered)).map Mentioned.finding := by
  cases element with
  | context decl =>
      exact d.flatMap_unresolvedFindings
        (fun r => ⟨.implementation, r.name, .context decl.name, r.span⟩)
        (fun r => d.isSome_subdomainId? r.name) decl.implements
  | map decl =>
      have members := d.flatMap_unresolvedFindings
        (fun r => ⟨.membership, r.name, .map decl.name, r.span⟩)
        (fun r => d.isSome_contextId? r.name) decl.mentions
      have sides := d.flatMap_unresolvedFindings
        (fun side : Endpoint => ⟨.endpoint, side.name, .map decl.name, side.span⟩)
        (fun side => d.isSome_contextId? side.name)
      rw [Element.mentioned, List.filter_append, List.map_append, ← members,
        List.filter_flatMap, List.map_flatMap]
      simp only [← sides, List.flatMap_cons, List.flatMap_nil, List.append_nil]
      rfl
  | domain decl | useCase decl | unknown decl => rfl

/-- The report of a document: what it registers twice or with an unknown type,
then what it mentions and does not register. -/
theorem build_diagnostics (policy : Policy) (source : Option String) :
    (d.build policy source).diagnostics =
      ((d.registered.zipIdx.flatMap fun (r, i) => r.findings (d.registered.take i)) ++
        (d.mentioned.filter (·.Dangles d.registered)).map Mentioned.finding).map
          (Finding.diagnostic policy source) := by
  have second : d.elements.flatMap (Element.unresolvedIn d) =
      (d.mentioned.filter (·.Dangles d.registered)).map Mentioned.finding := by
    rw [mentioned, List.filter_flatMap, List.map_flatMap, funext d.unresolvedIn_eq]
  rw [diagnostics_build, d.draft_findings, second, registrationFindings_eq]
  rfl

/-- A subdomain that is declared in a context. It belongs to no domain, so it is
not registered, and the context that implements it mentions nothing. -/
def unowned : Document :=
  ⟨[.context ⟨"Sales", [⟨"Orders", .none⟩], [], none,
    [.declaration (.subdomain "Orders" []) [] .none], .none⟩]⟩

theorem unowned_diagnostics :
    (∃ node ∈ (Node.document unowned).descendants,
        node.kind = .subdomain ∧ node.name? = some "Orders") ∧
      (unowned.build ⟨.warn, .shadow⟩ none).diagnostics =
        [Finding.diagnostic ⟨.warn, .shadow⟩ none
          (.unresolved .implementation "Orders" (.context "Sales") .none)] := by
  refine ⟨⟨.entry (.declaration (.subdomain "Orders" []) [] .none), ?_, rfl, rfl⟩, rfl⟩
  exact List.mem_cons_of_mem _ List.mem_cons_self

end Document

end Landscape
