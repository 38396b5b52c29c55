import Landscape.Proofs.Build.Names

/-!
# What a name stands for

A name stands for the last declaration that gives it, anywhere in the document.
That is said here of the document alone. The lookups of the second pass go
through the index instead, as the first pass has left it. It gives what a search
of the registered lists from the back gives, and that is the last declaration.
-/

namespace Landscape

/-- The position of the last element that satisfies a condition. -/
def lastPosition? {α : Type} (p : α → Bool) : List α → Option Nat
  | [] => none
  | x :: xs =>
    match lastPosition? p xs with
    | some i => some (i + 1)
    | none => if p x then some 0 else none

@[simp] theorem lastPosition?_nil {α : Type} (p : α → Bool) : lastPosition? p [] = none := rfl

theorem lastPosition?_cons {α : Type} (p : α → Bool) (x : α) (xs : List α) :
    lastPosition? p (x :: xs) =
      match lastPosition? p xs with
      | some i => some (i + 1)
      | none => if p x then some 0 else none :=
  rfl

theorem lastPosition?_eq_none {α : Type} {p : α → Bool} {xs : List α} :
    lastPosition? p xs = none ↔ ∀ x ∈ xs, p x = false := by
  induction xs with
  | nil => simp
  | cons x xs ih =>
      rw [lastPosition?_cons, List.forall_mem_cons, ← ih]
      cases lastPosition? p xs with
      | none => simp
      | some i => simp

theorem lastPosition?_eq_some {α : Type} {p : α → Bool} {xs : List α} {i : Nat}
    (h : lastPosition? p xs = some i) :
    (∃ x, xs[i]? = some x ∧ p x) ∧ ∀ j x, i < j → xs[j]? = some x → p x = false := by
  induction xs generalizing i with
  | nil => cases h
  | cons x xs ih =>
      rw [lastPosition?_cons] at h
      cases hx : lastPosition? p xs with
      | some k =>
          rw [hx] at h
          obtain rfl := Option.some.inj h
          obtain ⟨found, last⟩ := ih hx
          refine ⟨found, fun j y hj hy => ?_⟩
          obtain ⟨j, rfl⟩ : ∃ l, j = l + 1 := ⟨j - 1, by omega⟩
          exact last j y (by omega) hy
      | none =>
          simp only [hx] at h
          split at h
          · next hp =>
              obtain rfl := Option.some.inj h
              refine ⟨⟨x, rfl, hp⟩, fun j y hj hy => ?_⟩
              obtain ⟨j, rfl⟩ : ∃ l, j = l + 1 := ⟨j - 1, by omega⟩
              exact lastPosition?_eq_none.1 hx y (List.mem_of_getElem? hy)
          · cases h

/-- Looking up from the back in a numbered list finds the last position. -/
theorem findLast?_mapIdx {α β γ : Type} {p : β → Bool} {q : α → Bool} {f : Nat → α → β}
    {g : β → γ} {c : Nat → γ} (hp : ∀ i a, p (f i a) = q a) (hg : ∀ i a, g (f i a) = c i)
    (xs : List α) :
    (findLast? p (xs.mapIdx f)).map g = (lastPosition? q xs).map c := by
  induction xs generalizing f c with
  | nil => rfl
  | cons x xs ih =>
      have later := ih (f := fun i => f (i + 1)) (c := fun i => c (i + 1))
        (fun i => hp (i + 1)) (fun i => hg (i + 1))
      rw [findLast?] at later
      rw [List.mapIdx_cons, findLast?, List.reverse_cons, List.find?_append,
        lastPosition?_cons]
      cases hx : lastPosition? q xs with
      | none =>
          rw [hx, Option.map_none, Option.map_eq_none_iff] at later
          rw [later, Option.none_or, List.find?_singleton, hp]
          cases q x <;> simp [hg]
      | some i =>
          rw [hx, Option.map_some] at later
          obtain ⟨y, hy, hc⟩ := Option.map_eq_some_iff.1 later
          rw [hy, Option.some_or, Option.map_some, hc, Option.map_some]

theorem lastPosition?_map {α β : Type} (p : β → Bool) (f : α → β) (xs : List α) :
    lastPosition? p (xs.map f) = lastPosition? (p ∘ f) xs := by
  induction xs with
  | nil => rfl
  | cons x xs ih => rw [List.map_cons, lastPosition?_cons, lastPosition?_cons, ih]; rfl

namespace Document

/-- The subdomain that a name stands for in a document. -/
def subdomainId? (d : Document) (name : String) : Option (Id .subdomain) :=
  (lastPosition? (·.name = name) d.subdomains).map Id.mk

/-- The context that a name stands for in a document. -/
def contextId? (d : Document) (name : String) : Option (Id .context) :=
  (lastPosition? (·.name = name) d.contexts).map Id.mk

end Document

/-- Whether names are looked up in an index as a document means them. -/
structure NameIndex.Resolves (names : NameIndex) (d : Document) : Prop where
  subdomain : ∀ name, names.find? .subdomain name = d.subdomainId? name
  context : ∀ name, names.find? .context name = d.contextId? name

theorem Document.resolves_register (d : Document) {policy : Policy} :
    (d.register policy).names.Resolves d where
  subdomain name := by
    rw [d.register_tracks, Model.idNamed?, Model.subdomainNamed?, d.subdomains_register,
      Document.subdomainId?, Document.subdomains, ← map_fst_ownedSubdomains 0,
      lastPosition?_map]
    refine findLast?_mapIdx ?_ ?_ _
    · exact fun _ _ => rfl
    · exact fun _ _ => rfl
  context name := by
    rw [d.register_tracks, Model.idNamed?, Model.contextNamed?, d.contexts_register]
    refine findLast?_mapIdx ?_ ?_ _
    · exact fun _ _ => rfl
    · exact fun _ _ => rfl

end Landscape
