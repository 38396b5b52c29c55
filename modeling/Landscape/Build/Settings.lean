import Landscape.Document.Basic

/-!
Settings of a declaration.

The entries of a declaration that state one of its settings are read in order, and a later one takes
the place of an earlier one. Only the declaration's own entries count, and an empty value states
nothing. Which settings are read depends on what is declared, and on the scope of the attribute.
-/

namespace Landscape

/-- A setting that an entry states. -/
inductive Statement
  | type (literal : String) (span : Span)
  | state (value : String)
  | vision (value : String)
  | responsibilities (items : List String)
  | technology (value : String)
  | knowledgeLevel (value : String)
deriving Repr, DecidableEq

/-- The settings that a declaration states, each if there is one. -/
structure Settings where
  type : Option (String × Span)
  state : Option String
  vision : Option String
  responsibilities : Option (List String)
  technology : Option String
  knowledgeLevel : Option String
deriving Repr, DecidableEq

namespace Settings

def none : Settings :=
  ⟨.none, .none, .none, .none, .none, .none⟩

/-- The settings after one more statement. -/
def apply (s : Settings) : Statement → Settings
  | .type literal span => { s with type := some (literal, span) }
  | .state value => { s with state := some value }
  | .vision value => { s with vision := some value }
  | .responsibilities items => { s with responsibilities := some items }
  | .technology value => { s with technology := some value }
  | .knowledgeLevel value => { s with knowledgeLevel := some value }

/-- The settings that a list of statements comes to. -/
def ofStatements (statements : List Statement) : Settings :=
  statements.foldl apply none

end Settings

namespace Attribute

/-- The first value, unless it is empty. -/
def effectiveValue? (a : Attribute) : Option String :=
  match a.firstValue? with
  | some value => if value.isEmpty then none else some value
  | none => none

def vision? (a : Attribute) : Option Statement :=
  if a.key = "domainVisionStatement" then a.effectiveValue?.map .vision else none

def type? (a : Attribute) : Option Statement :=
  a.effectiveValue?.map (.type · a.span)

/-- What an attribute states about the context it stands in. -/
def contextStatement? (a : Attribute) : Option Statement :=
  match a.key with
  | "type" => a.type?
  | "domainVisionStatement" => a.vision?
  | "responsibilities" =>
    match (a.values.map Value.text).filter (!·.isEmpty) with
    | [] => none
    | items => some (.responsibilities items)
  | "implementationTechnology" => a.effectiveValue?.map .technology
  | "knowledgeLevel" => a.effectiveValue?.map .knowledgeLevel
  | _ => none

end Attribute

namespace Entry

/-- What an entry states about the domain it stands in. -/
def domainStatement? : Entry → Option Statement
  | setting .subdomain a | setting .context a => a.vision?
  | _ => none

/-- What an entry states about the subdomain it stands in. -/
def subdomainStatement? : Entry → Option Statement
  | setting .subdomain a => if a.key = "type" then a.type? else a.vision?
  | setting .context a => a.vision?
  | _ => none

/-- What an entry states about the context it stands in. -/
def contextStatement? : Entry → Option Statement
  | setting .context a => a.contextStatement?
  | _ => none

end Entry

/-- What a setting of a map states. It is not reported anywhere, so it needs no span. -/
def MapSetting.statement? : MapSetting → Option Statement
  | type value => if value.isEmpty then none else some (.type value Span.none)
  | state value => if value.isEmpty then none else some (.state value)
  | _ => none

end Landscape
