import Landscape.Proofs.Build.Findings
import Landscape.Proofs.Document.Part

/-!
# What a finding is about

Every finding is about something that the document says, and has the span of
that (`Finding.About`). For the names it is a part of the document: the
declaration that comes too late, the reference or the side that leads nowhere.
A type is about two parts, the subdomain that it names and the setting that it
points at. They belong together because the setting stands in the body of just
that subdomain; with several settings of a type the last one is meant, and its
literal and its span were put down together.
-/

namespace Landscape

/-! ## Declarations are parts -/

/-- What a part declares under a name. -/
def Part.declared? : Part → Option (Kind × String)
  | element (.domain decl) => some (.domain, decl.name)
  | element (.context decl) => some (.context, decl.name)
  | element (.map decl) => decl.name.map (.map, ·)
  | element (.useCase decl) => some (.useCase, decl.name)
  | entry (.declaration (.subdomain name _) _ _) => some (.subdomain, name)
  | _ => none

section

variable {d : Document}

mutual

theorem Entry.hasPart_declarations {e entry : Entry} (he : d.HasPart (.entry e))
    (h : entry ∈ e.declarations) : d.HasPart (.entry entry) := by
  cases e with
  | setting scope a => simp [Entry.declarations] at h
  | entity x =>
      rw [Entry.declarations, List.mem_singleton] at h
      rwa [h]
  | unknownLine keyword words span =>
      rw [Entry.declarations, List.mem_singleton] at h
      rwa [h]
  | declaration heading body span =>
      rw [Entry.declarations, List.mem_cons, List.mem_append] at h
      rcases h with rfl | hbody | hown
      · exact he
      · refine hasPart_declarationsOf (fun inner hinner => ?_) hbody
        exact he.part (List.mem_append_right _ List.mem_cons_self) (List.mem_map_of_mem hinner)
      · exact he.part (List.mem_append_left _ List.mem_cons_self) (List.mem_map_of_mem hown)

theorem hasPart_declarationsOf {body : List Entry} {entry : Entry}
    (hbody : ∀ e ∈ body, d.HasPart (.entry e)) (h : entry ∈ declarationsOf body) :
    d.HasPart (.entry entry) := by
  cases body with
  | nil => simp [declarationsOf] at h
  | cons e rest =>
      obtain ⟨he, hrest⟩ := List.forall_mem_cons.1 hbody
      rw [declarationsOf, List.mem_append] at h
      rcases h with hfirst | hlater
      · exact Entry.hasPart_declarations he hfirst
      · exact hasPart_declarationsOf hrest hlater

end

theorem Document.HasPart.declaration {decl : DomainDecl} {entry : Entry}
    (hdecl : .domain decl ∈ d.elements) (h : entry ∈ declarationsOf decl.body) :
    d.HasPart (.entry entry) :=
  hasPart_declarationsOf (fun _ he =>
    (Document.HasPart.element hdecl).part List.mem_cons_self (List.mem_map_of_mem he)) h

end

/-! ## Stated types -/

variable {d : Document} {policy : Policy} {finding : Finding}

end Landscape
