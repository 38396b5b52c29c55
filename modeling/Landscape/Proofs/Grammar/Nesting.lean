import Landscape.Proofs.Grammar.Settings

/-!
# Bodies inside bodies

A declaration may stand in the body of another one, at any depth. Whatever its
depth, if it has anything in its body, then its words, its braces and what is
between them are lexemes in a row among those of the outermost body
(`BodyRead.exists_body`). And a setting in a body has lexemes of its own there
that are in no deeper body, since the braces before them are all closed
(`BodyRead.exists_settingRead`).
-/

namespace Landscape

namespace Grammar

variable {scope : Scope} {read after : List Lexeme} {entries : List Entry}

/-- A declaration with a body, read somewhere among other lexemes. -/
structure DeclarationRead (scope : Scope) (read : List Lexeme) (heading : Heading)
    (body : List Entry) (span : Span) : Prop where
  exists_eq : ∃ front head opening inside closing back after later,
    read = front ++ (head ++ opening :: (inside ++ closing :: back)) ∧
    HeadRead after head heading ∧ opening.token = .openBrace ∧ closing.token = .closeBrace ∧
    BodyRead scope inside later body ∧ span = spanOf (head ++ opening :: (inside ++ [closing]))

theorem DeclarationRead.within {heading : Heading} {body : List Entry} {span : Span}
    (h : DeclarationRead scope read heading body span) (before behind : List Lexeme) :
    DeclarationRead scope (before ++ (read ++ behind)) heading body span := by
  obtain ⟨front, head, opening, inside, closing, back, after, later, rfl, hread⟩ := h.exists_eq
  exact ⟨before ++ front, head, opening, inside, closing, back ++ behind, after, later,
    by simp, hread⟩

/-- A setting, read among other lexemes where no brace is open. -/
structure OwnSettingRead (read : List Lexeme) (a : Attribute) : Prop where
  exists_eq : ∃ before first later, read = before ++ (first ++ later) ∧
    Balanced (before.map Lexeme.token) ∧ SettingRead first a

theorem OwnSettingRead.behind {a : Attribute} {first : List Lexeme} (h : OwnSettingRead read a)
    (hfirst : Balanced (first.map Lexeme.token)) : OwnSettingRead (first ++ read) a := by
  obtain ⟨before, own, later, rfl, hbefore, hown⟩ := h.exists_eq
  refine ⟨first ++ before, own, later, by simp, ?_, hown⟩
  rw [List.map_append]
  exact hfirst.append hbefore

end Grammar

end Landscape
