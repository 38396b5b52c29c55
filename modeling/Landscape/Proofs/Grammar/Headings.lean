import Landscape.Proofs.Grammar.Closing

/-!
# Where a heading ends

A heading goes on over any words up to a brace, an equals sign, a keyword of a
declaration, or the start of a setting (`Heads`). The last of these takes two
lexemes to see, so a heading looks further ahead than it fails, and what comes
behind it may not be changed at will. It may be changed into anything that ends a
heading by itself, unless that is an equals sign, which would make a key of the
last word (`Heads.replace`).
-/

namespace Landscape.Grammar

open Landscape.Grammar.Parser

/-- A token that a heading may go on with. -/
def isHeadingWord (t : Token) : Bool :=
  !(t.isBrace || t = .equals || isDeclarationKeyword t)

theorem exists_cons_of_not_avoids {t : Token} {xs : List Lexeme} (h : ¬Avoids t xs) :
    ∃ y ys, xs = y :: ys ∧ y.token = t := by
  cases xs with
  | nil => exact absurd .nil h
  | cons y ys =>
      exact ⟨y, ys, rfl, Classical.byContradiction fun hy => h fun heq => hy (Option.some.inj heq)⟩

/-- A setting is a name with an equals sign behind it. -/
theorem settingAhead_cons {x : Lexeme} {xs : List Lexeme} :
    settingAhead (x :: xs) ↔ (∃ text, x.token = .name text) ∧ ¬Avoids .equals xs := by
  obtain ⟨t, span⟩ := x
  have hnil : Avoids .equals [] := .nil
  rcases xs with _ | ⟨⟨u, span'⟩, xs⟩
  · cases t <;> simp [settingAhead, hnil]
  · cases t <;> cases u <;> simp [settingAhead, Avoids]

theorem headingToken_eq (xs : List Lexeme) : headingToken xs =
    if settingAhead xs then .fail ⟨xs, []⟩ else anyToken isHeadingWord xs :=
  rfl

theorem headingToken_eq_ok {x : Lexeme} {xs : List Lexeme} (hx : isHeadingWord x.token)
    (h : settingAhead (x :: xs) = false) : headingToken (x :: xs) = .ok x.token xs none := by
  rw [headingToken_eq, h]
  simp [anyToken, Parser.token, hx]

theorem headingToken_declines {xs : List Lexeme}
    (h : settingAhead xs ∨ ∀ t ∈ (xs.map Lexeme.token).head?, isHeadingWord t = false) :
    headingToken.Declines xs := by
  rw [Declines, headingToken_eq]
  split
  · exact ⟨[], rfl⟩
  · next hahead =>
      have hword : (anyToken isHeadingWord).Declines xs :=
        .token fun t ht => by simp [h.resolve_left hahead t ht]
      exact hword

/-- In front of `rest`, the lexemes `words` are all that a heading goes on with. -/
inductive Heads : List Lexeme → List Lexeme → Prop
  | nil {rest : List Lexeme} (stops : headingToken.Declines rest) : Heads [] rest
  | cons {x : Lexeme} {words rest : List Lexeme} (word : isHeadingWord x.token)
      (ahead : settingAhead (x :: (words ++ rest)) = false) (heads : Heads words rest) :
      Heads (x :: words) rest

theorem exists_heads (xs : List Lexeme) : ∃ words rest, xs = words ++ rest ∧ Heads words rest := by
  induction xs with
  | nil => exact ⟨[], [], rfl, .nil (headingToken_declines (.inr nofun))⟩
  | cons x xs ih =>
      cases hahead : settingAhead (x :: xs) with
      | true => exact ⟨[], x :: xs, rfl, .nil (headingToken_declines (.inl hahead))⟩
      | false =>
          cases hword : isHeadingWord x.token with
          | true =>
              obtain ⟨words, rest, rfl, hheads⟩ := ih
              exact ⟨x :: words, rest, rfl, .cons hword hahead hheads⟩
          | false =>
              refine ⟨[], x :: xs, rfl, .nil (headingToken_declines (.inr ?_))⟩
              rintro _ ⟨⟩
              exact hword

namespace Heads

variable {words rest rest' : List Lexeme}

theorem stops (h : Heads words rest) : headingToken.Declines rest := by
  induction h with
  | nil hstops => exact hstops
  | cons _ _ _ ih => exact ih

theorem many (h : Heads words rest) : ∃ tokens f,
    Parser.many headingToken (words ++ rest) = .ok tokens rest (some f) ∧ f.rest = rest := by
  induction h with
  | nil hstops =>
      obtain ⟨expected, hfail⟩ := hstops
      exact ⟨[], _, many_of_fail hfail, rfl⟩
  | cons hword hahead _ ih =>
      obtain ⟨tokens, f, htokens, hrest⟩ := ih
      exact ⟨_, f, Advances.headingToken.many_of_ok (headingToken_eq_ok hword hahead) htokens,
        hrest⟩

theorem replace (h : Heads words rest) (hstops : headingToken.Declines rest')
    (hequals : Avoids .equals rest → Avoids .equals rest') : Heads words rest' := by
  induction h with
  | nil => exact .nil hstops
  | @cons x words rest hword hahead _ ih =>
      refine .cons hword (Bool.eq_false_iff.2 fun hsetting => ?_) (ih hequals)
      obtain ⟨hname, hbehind⟩ := settingAhead_cons.1 hsetting
      refine Bool.eq_false_iff.1 hahead (settingAhead_cons.2 ⟨hname, ?_⟩)
      cases words with
      | nil => exact fun hrest => hbehind (hequals hrest)
      | cons y words => exact hbehind

/-- A brace ends a heading, and no setting is seen in front of it. -/
theorem replace_of_isBrace (h : Heads words rest)
    (hbrace : ∀ t ∈ (rest'.map Lexeme.token).head?, t.isBrace) : Heads words rest' := by
  refine h.replace (headingToken_declines (.inr fun t ht => ?_)) fun _ heq => ?_
  · simp [isHeadingWord, hbrace t ht]
  · exact absurd (hbrace _ heq) Bool.false_ne_true
end Heads

end Landscape.Grammar
