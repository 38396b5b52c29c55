import Landscape.Model.Basic

/-!
Finding things in a model by name or by index.

When a name was declared more than once, the last declaration is the one found. The earlier ones
are still there and can be reached by index.
-/

namespace Landscape

/-- The last element of a list that satisfies a condition. -/
def findLast? {α : Type} (p : α → Bool) (xs : List α) : Option α :=
  xs.reverse.find? p

/-- An index that is not taken. -/
structure OutOfRange where
  size : Nat
  index : Nat
deriving Repr, DecidableEq

namespace OutOfRange

def message (e : OutOfRange) : String :=
  "index out of bounds: the len is " ++ toString e.size ++ " but the index is " ++
    toString e.index

end OutOfRange

/-- The element at an index, or the reason why there is none. -/
def atIndex {α : Type} (xs : List α) (index : Nat) : Except OutOfRange α :=
  match xs[index]? with
  | some x => .ok x
  | none => .error ⟨xs.length, index⟩

namespace Model

variable (m : Model)

def domainNamed? (name : String) : Option Domain :=
  findLast? (·.name = name) m.domains

/-- The subdomain of a name, whatever domain it belongs to. -/
def subdomainNamed? (name : String) : Option Subdomain :=
  findLast? (·.name = name) m.subdomains

def contextNamed? (name : String) : Option Context :=
  findLast? (·.name = name) m.contexts

/-- The context map of a name. Maps without a name are found by none. -/
def mapNamed? (name : String) : Option ContextMap :=
  findLast? (·.name = some name) m.maps

def useCaseNamed? (name : String) : Option UseCase :=
  findLast? (·.name = name) m.useCases

def domain (id : Id .domain) : Except OutOfRange Domain :=
  atIndex m.domains id.index

def subdomain (id : Id .subdomain) : Except OutOfRange Subdomain :=
  atIndex m.subdomains id.index

def context (id : Id .context) : Except OutOfRange Context :=
  atIndex m.contexts id.index

def map (id : Id .map) : Except OutOfRange ContextMap :=
  atIndex m.maps id.index

def useCase (id : Id .useCase) : Except OutOfRange UseCase :=
  atIndex m.useCases id.index

end Model

end Landscape
