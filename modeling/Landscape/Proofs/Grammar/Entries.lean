import Landscape.Proofs.Grammar.Headings
import Landscape.Proofs.Grammar.MendsMap

/-!
# What an entry of a body is

Which of the eight alternatives an entry is read by shows in its first two or
three lexemes, except that an unknown block is given up when it has no body. So
the replies of an entry can be listed: a nested declaration, a setting, an
unknown block, a token that is skipped, or a failure where a keyword has neither
a name nor a value to go with it.
-/

namespace Landscape.Grammar

open Landscape.Grammar.Parser

variable {α β : Type} {scope : Scope} {inner : Parser (List Entry)}

/-- A name that opens a nested declaration if another name comes next. -/
def declares (text : String) : Bool :=
  text == "Subdomain" || (ObjectKind.ofKeyword? text).isSome || text == "Aggregate" ||
    text == "Service" || text == "Module"

/-! ## Nested declarations -/

namespace Succeeds

theorem bind {p : Parser α} {next : α → Parser β} (hp : Succeeds p)
    (hnext : ∀ value, Succeeds (next value)) : Succeeds (p >>= next) := by
  intro xs
  obtain ⟨value, mid, early, hvalue⟩ := hp xs
  obtain ⟨result, rest, late, hresult⟩ := hnext value mid
  exact ⟨result, rest, _, bind_of_ok_of_ok hvalue hresult⟩

theorem optional {p : Parser α} : Succeeds (Parser.optional p) := by
  intro xs
  rw [Parser.optional]
  cases p xs with
  | ok value rest doubt => exact ⟨_, _, _, rfl⟩
  | fail failure => exact ⟨_, _, _, rfl⟩

end Succeeds

section

variable {accept : Token → Option α} {heading : α → String → Heading}

theorem namedDeclaration_of_ok {kind : α} {text : String} {x y : Lexeme} {words mid : List Lexeme}
    {entries : Option (List Entry)} {rest : List Lexeme} {late : Option Failure}
    (hx : accept x.token = some kind) (hy : y.token = .name text) (hheads : Heads words mid)
    (hbody : Parser.optional (braced inner) mid = .ok entries rest late) :
    ∃ value f, namedDeclaration (Parser.token accept []) heading inner (x :: y :: (words ++ mid)) =
      .ok value rest (Failure.merge (some f) late) ∧ f.rest = mid := by
  obtain ⟨tokens, f, hwords, hrest⟩ := hheads.many
  have hname : name (y :: (words ++ mid)) = .ok text (words ++ mid) none :=
    token_of_some (by rw [hy])
  refine ⟨_, f, located_of_ok (f := .declaration (heading kind text) (entries.getD [])) ?_, hrest⟩
  rw [bind_of_ok (token_of_some hx), bind_of_ok hname, bind_of_ok hwords, bind_pure_of_ok hbody]
  rfl

theorem FailsWithin.namedDeclaration :
    FailsWithin 1 (namedDeclaration (Parser.token accept []) heading inner) :=
  located (token_bind fun _ => token.bind_succeeds fun _ =>
    .bind (Parser.exists_many_eq _) fun _ => .bind .optional fun _ => .pure)

end

/-- A nested declaration is read by its keyword and its name. -/
theorem bodyEntry_of_declares {keyword text : String} {x y : Lexeme} {words mid : List Lexeme}
    {entries : Option (List Entry)} {rest : List Lexeme} {late : Option Failure}
    (hx : x.token = .name keyword) (hkeyword : declares keyword) (hy : y.token = .name text)
    (hheads : Heads words mid)
    (hbody : Parser.optional (braced inner) mid = .ok entries rest late) :
    ∃ value f, bodyEntry scope inner (x :: y :: (words ++ mid)) =
      .ok value rest (Failure.merge (some f) late) ∧ f.rest = mid := by
  have here {κ : Type} {accept : Token → Option κ} {heading : κ → String → Heading} (kind : κ)
      (q : Parser (Option Entry)) (h : accept x.token = some kind) :
      ∃ value f, orElse (some <$> namedDeclaration (Parser.token accept []) heading inner) q
        (x :: y :: (words ++ mid)) = .ok value rest (Failure.merge (some f) late) ∧
          f.rest = mid := by
    obtain ⟨value, f, hvalue, hrest⟩ :
        ∃ value f, namedDeclaration (Parser.token accept []) heading inner
          (x :: y :: (words ++ mid)) = .ok value rest (Failure.merge (some f) late) ∧
            f.rest = mid := namedDeclaration_of_ok h hy hheads hbody
    exact ⟨some value, f, orElse_of_ok (map_of_ok hvalue), hrest⟩
  have there {κ : Type} {accept : Token → Option κ} {heading : κ → String → Heading}
      {q : Parser (Option Entry)} (h : accept x.token = none)
      (hq : ∃ value f, q (x :: y :: (words ++ mid)) = .ok value rest (Failure.merge (some f) late) ∧
        f.rest = mid) :
      ∃ value f, orElse (some <$> namedDeclaration (Parser.token accept []) heading inner) q
        (x :: y :: (words ++ mid)) = .ok value rest (Failure.merge (some f) late) ∧
          f.rest = mid := by
    obtain ⟨value, f, hvalue, hrest⟩ := hq
    obtain ⟨failure, hfail⟩ :=
      Refuses.map (f := some) (Refuses.namedDeclaration (.inl h)) (x :: y :: (words ++ mid)) rfl
    exact ⟨value, f, orElse_of_fail hfail hvalue, hrest⟩
  have quiet {other : String} (h : keyword ≠ other) :
      (if x.token.isName other then some () else none) = none := by
    simp [hx, Token.isName, h]
  have found {other : String} (h : keyword = other) :
      (if x.token.isName other then some () else none) = some () := by
    simp [hx, Token.isName, h]
  by_cases hsubdomain : keyword = "Subdomain"
  · exact here () _ (found hsubdomain)
  refine there (quiet hsubdomain) ?_
  cases hobject : ObjectKind.ofKeyword? keyword with
  | some kind => exact here kind _ (by rw [hx]; exact hobject)
  | none =>
      refine there (by rw [hx]; exact hobject) ?_
      by_cases haggregate : keyword = "Aggregate"
      · exact here () _ (found haggregate)
      refine there (quiet haggregate) ?_
      by_cases hservice : keyword = "Service"
      · exact here () _ (found hservice)
      refine there (quiet hservice) (here () _ (found ?_))
      simpa [declares, hsubdomain, hobject, haggregate, hservice] using hkeyword

/-- Without a keyword and a name there is no nested declaration, and that shows
within the first two lexemes. -/
theorem nestedDeclarations_fail {x : Lexeme} {xs : List Lexeme}
    (h : (∀ keyword, x.token = .name keyword → declares keyword = false) ∨
      ∀ text, Avoids (.name text) xs) :
    ∀ p ∈ nestedDeclarations inner,
      ∃ failure, p (x :: xs) = .fail failure ∧ xs.length ≤ failure.rest.length := by
  have named {κ : Type} {accept : Token → Option κ} {heading : κ → String → Heading}
      (hnone : (∀ keyword, x.token = .name keyword → declares keyword = false) →
        accept x.token = none) :
      ∃ failure, (some <$> namedDeclaration (Parser.token accept []) heading inner) (x :: xs) =
        .fail failure ∧ xs.length ≤ failure.rest.length := by
    obtain ⟨failure, hfail⟩ :=
      Refuses.map (f := some) (Refuses.namedDeclaration (h.imp_left hnone)) (x :: xs) rfl
    have hle := FailsWithin.namedDeclaration.map _ _ hfail
    rw [List.length_cons] at hle
    exact ⟨failure, hfail, by omega⟩
  have quiet {other : String} (hother : declares other)
      (hkeyword : ∀ keyword, x.token = .name keyword → declares keyword = false) :
      (if x.token.isName other then some () else none) = none := by
    refine if_neg fun hname => ?_
    cases hx : x.token with
    | name keyword =>
        rw [hx, Token.isName, beq_iff_eq] at hname
        rw [hname] at hx
        rw [hkeyword other hx] at hother
        cases hother
    | _ => simp [hx, Token.isName] at hname
  simp only [nestedDeclarations, List.forall_mem_cons]
  refine ⟨named (quiet rfl), named fun hkeyword => ?_, named (quiet rfl), named (quiet rfl),
    named (quiet rfl), List.forall_mem_nil _⟩
  cases hx : x.token with
  | name keyword =>
      have hdeclares := hkeyword keyword hx
      simp only [declares, Bool.or_eq_false_iff] at hdeclares
      exact Option.isNone_iff_eq_none.1 (by simpa using hdeclares.1.1.1.2)
  | _ => rfl

/-! ## Settings -/

theorem exists_of_attributeSetting_eq_ok {input rest : List Lexeme} {setting : Attribute}
    {doubt : Option Failure} (h : attributeSetting input = .ok setting rest doubt) :
    ∃ x y ys key, input = x :: y :: ys ∧ x.token = .name key ∧ y.token = .equals := by
  rw [attributeSetting, Parser.located] at h
  split at h
  · next hvalue =>
      obtain ⟨key, mid, _, _, hkey, hnext, -⟩ := exists_of_bind_eq_ok hvalue
      obtain ⟨x, rfl, hx, -⟩ := exists_of_token_eq_ok hkey
      obtain ⟨_, _, _, _, hequals, -, -⟩ := exists_of_bind_eq_ok hnext
      obtain ⟨y, rfl, hy, -⟩ := exists_of_exactly_eq_ok hequals
      refine ⟨x, y, _, key, rfl, ?_, hy⟩
      cases ht : x.token <;> rw [ht] at hx <;> cases hx
      rfl
  · cases h

/-- A name without an equals sign is no setting, and nothing more is looked at. -/
theorem attributeSetting_of_avoids {x : Lexeme} {key : String} {xs : List Lexeme}
    (hx : x.token = .name key) (h : Avoids .equals xs) :
    ∃ failure, attributeSetting (x :: xs) = .fail failure ∧ failure.rest = xs := by
  have hname : name (x :: xs) = .ok key xs none := token_of_some (by rw [hx])
  obtain ⟨expected, hfail⟩ := Declines.exactly h
  refine ⟨⟨xs, expected⟩, located_of_fail ?_, rfl⟩
  rw [bind_of_ok hname, bind_of_fail hfail]
  rfl

/-- Behind an equals sign it is the value that is missing. -/
theorem rest_eq_of_attributeSetting_eq_fail {x y : Lexeme} {key : String} {ys : List Lexeme}
    {failure : Failure} (hx : x.token = .name key) (hy : y.token = .equals)
    (h : attributeSetting (x :: y :: ys) = .fail failure) : failure.rest = ys := by
  have hname : name (x :: y :: ys) = .ok key (y :: ys) none := token_of_some (by rw [hx])
  have hequals : Parser.exactly .equals (y :: ys) = .ok () ys none := if_pos hy
  have hle := FailsWithin.attributeSetting _ _ h
  rw [attributeSetting, Parser.located, bind_of_ok hname, bind_of_ok hequals] at h
  cases hvalues : (do
      let values ← separated value
      return fun span => (⟨key, values, span⟩ : Attribute) : Parser _) ys with
  | ok value rest doubt => simp [hvalues, Reply.after] at h
  | fail failure' =>
      simp only [hvalues, Reply.after, Option.map_none, Option.getD_none] at h
      cases h
      have hsuffix := (Remains.bind (Remains.separated Remains.token) fun _ => .pure).suffix_of_fail
        hvalues
      exact hsuffix.eq_of_length_le (by simpa using hle)

theorem attributeSetting_of_not_name {x : Lexeme} {xs : List Lexeme}
    (hname : ∀ text, x.token ≠ .name text) :
    ∃ failure, attributeSetting (x :: xs) = .fail failure := by
  refine ((Declines.token fun t ht => ?_).bind.located).exists_fail
  obtain rfl : x.token = t := Option.some.inj ht
  cases hx : x.token with
  | name text => exact absurd hx (hname text)
  | _ => rfl

theorem bodyEntry_of_setting {input rest : List Lexeme} {setting : Attribute}
    {doubt : Option Failure} (h : attributeSetting input = .ok setting rest doubt) :
    bodyEntry scope inner input = .ok (some (.setting scope setting)) rest doubt := by
  obtain ⟨x, y, ys, key, rfl, -, hy⟩ := exists_of_attributeSetting_eq_ok h
  rw [bodyEntry_eq]
  refine firstOf_append_of_fail (fun p hp => ?_) (orElse_of_ok (map_of_ok h))
  have hnext (text : String) : Avoids (.name text) (y :: ys) := fun heq => by simp [hy] at heq
  obtain ⟨failure, hfail, -⟩ := nestedDeclarations_fail (.inr hnext) p hp
  exact ⟨failure, hfail⟩

/-! ## Unknown blocks -/

theorem isDeclarationKeyword_of_heads {x : Lexeme} {words mid : List Lexeme}
    (h : Heads (x :: words) mid) : isDeclarationKeyword x.token = false := by
  cases h with
  | cons hword => simp_all [isHeadingWord]

/-- The first word of a heading is no key. -/
theorem Heads.attributeSetting_fails {x : Lexeme} {words mid : List Lexeme}
    (h : Heads (x :: words) mid) :
    ∃ failure, attributeSetting (x :: (words ++ mid)) = .fail failure := by
  by_cases hname : ∃ text, x.token = .name text
  · obtain ⟨text, hx⟩ := hname
    cases h with
    | cons _ hahead =>
        have havoids : Avoids .equals (words ++ mid) := Classical.byContradiction fun hequals =>
          Bool.eq_false_iff.1 hahead (settingAhead_cons.2 ⟨⟨text, hx⟩, hequals⟩)
        obtain ⟨failure, hfail, -⟩ := attributeSetting_of_avoids hx havoids
        exact ⟨failure, hfail⟩
  · exact attributeSetting_of_not_name fun text hx => hname ⟨text, hx⟩

theorem bodyEntry_of_block {x : Lexeme} {text : String} {words mid : List Lexeme}
    {entries : List Entry} {rest : List Lexeme} {late : Option Failure}
    (hx : x.token = .name text) (hheads : Heads (x :: words) mid)
    (hbody : braced inner mid = .ok entries rest late) :
    ∃ value f, bodyEntry scope inner (x :: (words ++ mid)) =
      .ok value rest (Failure.merge (some f) late) ∧ f.rest = mid := by
  have hreserved := isDeclarationKeyword_of_heads hheads
  obtain ⟨failure, hsetting⟩ := hheads.attributeSetting_fails
  obtain ⟨tokens, f, hwords, hrest⟩ : ∃ tokens f,
      many headingToken (words ++ mid) = .ok tokens mid (some f) ∧ f.rest = mid := by
    cases hheads with
    | cons _ _ hheads => exact hheads.many
  have hkeyword : blockKeyword isDeclarationKeyword (x :: (words ++ mid)) =
      .ok text (words ++ mid) none :=
    token_of_some (by rw [hx] at hreserved ⊢; simp [hreserved])
  obtain ⟨value, hblock⟩ : ∃ value, unknownBlock inner (x :: (words ++ mid)) =
      .ok value rest (Failure.merge (some f) late) := by
    refine ⟨_, located_of_ok
      (f := .declaration (.unknown text (tokens.map Token.contents)) entries) ?_⟩
    rw [bind_of_ok hkeyword, bind_of_ok hwords, bind_pure_of_ok hbody]
    rfl
  refine ⟨some value, f, ?_, hrest⟩
  rw [bodyEntry_eq]
  refine firstOf_append_of_fail (fun p hp => ?_)
    (orElse_of_fail (bind_of_fail hsetting) (orElse_of_ok (map_of_ok hblock)))
  exact Refuses.nestedDeclarations (.inl hreserved) p hp _ rfl

/-- A name opens no block if there is no body for it. -/
theorem unknownBlock_fails {x : Lexeme} {words mid : List Lexeme} {failure : Failure}
    (hheads : Heads words mid) (hbody : braced inner mid = .fail failure) :
    ∃ failure', unknownBlock inner (x :: (words ++ mid)) = .fail failure' := by
  obtain ⟨tokens, f, hwords, -⟩ := hheads.many
  cases hkeyword : blockKeyword isDeclarationKeyword (x :: (words ++ mid)) with
  | fail failure' => exact ⟨_, located_of_fail (bind_of_fail hkeyword)⟩
  | ok text rest doubt =>
      obtain ⟨y, hinput, -, rfl⟩ := exists_of_token_eq_ok hkeyword
      obtain ⟨rfl, rfl⟩ := List.cons.inj hinput
      refine ⟨failure.furthest f, located_of_fail ?_⟩
      rw [bind_of_ok hkeyword, bind_of_ok hwords, bind_of_fail hbody]
      rfl

/-! ## Tokens that are skipped -/

theorem bodyEntry_of_stray {x : Lexeme} {xs : List Lexeme} (hbrace : x.token.isBrace = false)
    (hreserved : isDeclarationKeyword x.token = false)
    (hsetting : ∃ failure, attributeSetting (x :: xs) = .fail failure)
    (hblock : ∃ failure, unknownBlock inner (x :: xs) = .fail failure) :
    bodyEntry scope inner (x :: xs) = .ok none xs none := by
  obtain ⟨_, hsetting⟩ := hsetting
  obtain ⟨_, hblock⟩ := hblock
  have hstray : strayToken (x :: xs) = .ok () xs none :=
    bind_pure_of_ok (token_of_some (if_pos (by simp [hbrace, hreserved])))
  rw [bodyEntry_eq]
  refine firstOf_append_of_fail (fun p hp => ?_) (orElse_of_fail (bind_of_fail hsetting)
    (orElse_of_fail (bind_of_fail hblock) (orElse_of_ok (map_of_ok hstray))))
  exact Refuses.nestedDeclarations (.inl hreserved) p hp _ rfl

/-- A key without a value is skipped, and then its equals sign is. -/
theorem bodyEntry_of_key {x y : Lexeme} {key : String} {ys : List Lexeme}
    (hx : x.token = .name key) (hreserved : isDeclarationKeyword x.token = false)
    (hy : y.token = .equals)
    (hsetting : ∃ failure, attributeSetting (x :: y :: ys) = .fail failure) :
    bodyEntry scope inner (x :: y :: ys) = .ok none (y :: ys) none := by
  have hheads : Heads [] (y :: ys) :=
    .nil (headingToken_declines (.inr (by simp [hy, isHeadingWord])))
  obtain ⟨failure, hbody⟩ : ∃ failure, braced inner (y :: ys) = .fail failure :=
    (Declines.bind (.exactly fun heq => by simp [hy] at heq)).exists_fail
  exact bodyEntry_of_stray (by rw [hx]; rfl) hreserved hsetting (unknownBlock_fails hheads hbody)

/-- What is no name is skipped, whatever comes next. -/
theorem bodyEntry_of_not_name {x : Lexeme} (hbrace : x.token.isBrace = false)
    (hname : ∀ text, x.token ≠ .name text) (xs : List Lexeme) :
    bodyEntry scope inner (x :: xs) = .ok none xs none := by
  have hreserved : isDeclarationKeyword x.token = false := by
    cases hx : x.token with
    | name text => exact absurd hx (hname text)
    | _ => rfl
  refine bodyEntry_of_stray hbrace hreserved ?_ ?_
  · exact attributeSetting_of_not_name hname
  · refine ((Declines.token fun t ht => ?_).bind.located).exists_fail
    obtain rfl : x.token = t := Option.some.inj ht
    cases hx : x.token with
    | name text => exact absurd hx (hname text)
    | _ => rfl

/-! ## Failures -/

theorem bodyEntry_declines {input : List Lexeme}
    (h : ∀ t ∈ (input.map Lexeme.token).head?, t.isBrace) :
    (bodyEntry scope inner).Declines input := by
  have brace (t : Token) (ht : t ∈ (input.map Lexeme.token).head?) :
      t = .openBrace ∨ t = .closeBrace := by
    have hbrace := h t ht
    cases t <;> first | exact .inl rfl | exact .inr rfl | cases hbrace
  have named {κ : Type} {accept : Token → Option κ} {heading : κ → String → Heading}
      (hopening : accept .openBrace = none) (hclosing : accept .closeBrace = none) :
      Declines (some <$> namedDeclaration (Parser.token accept []) heading inner) input :=
    .map (.located (.bind (.token fun t ht => by
      rcases brace t ht with rfl | rfl <;> assumption)))
  refine .firstOf ?_
  simp only [List.forall_mem_cons]
  refine ⟨named rfl rfl, named rfl rfl, named rfl rfl, named rfl rfl, named rfl rfl, ?_, ?_, ?_,
    List.forall_mem_nil _⟩
  · exact .map (.located (.bind (.token fun t ht => by rcases brace t ht with rfl | rfl <;> rfl)))
  · exact .map (.located (.bind (.token fun t ht => by rcases brace t ht with rfl | rfl <;> rfl)))
  · exact .map (.bind (.token fun t ht => by rcases brace t ht with rfl | rfl <;> rfl))

/-- A keyword with nothing to go with it fails where the setting does that it
could have been. -/
theorem bodyEntry_of_missing {x : Lexeme} {xs : List Lexeme} {failure : Failure}
    (hinner : Remains inner) (hreserved : isDeclarationKeyword x.token)
    (hnested : (∀ keyword, x.token = .name keyword → declares keyword = false) ∨
      ∀ text, Avoids (.name text) xs)
    (hsetting : attributeSetting (x :: xs) = .fail failure)
    (hle : failure.rest.length ≤ xs.length) :
    ∃ failure', bodyEntry scope inner (x :: xs) = .fail failure' ∧
      failure'.rest = failure.rest := by
  obtain ⟨_, hblock⟩ : (some <$> unknownBlock inner).Declines (x :: xs) := by
    refine .map (.located (.bind (.token fun t ht => ?_)))
    obtain rfl : x.token = t := Option.some.inj ht
    cases hx : x.token <;> simp_all
  obtain ⟨_, hstray⟩ : ((fun _ => (none : Option Entry)) <$> strayToken).Declines (x :: xs) := by
    refine .map (.bind (.token fun t ht => ?_))
    obtain rfl : x.token = t := Option.some.inj ht
    simp [hreserved]
  -- Every alternative fails, and none of them behind the setting.
  have hall : ∀ p ∈ nestedDeclarations inner ++
      [(fun setting => some (.setting scope setting)) <$> attributeSetting,
        some <$> unknownBlock inner, (fun _ => none) <$> strayToken],
      ∃ f, p (x :: xs) = .fail f ∧ failure.rest.length ≤ f.rest.length := by
    simp only [List.forall_mem_append, List.forall_mem_cons]
    refine ⟨fun p hp => ?_, ⟨failure, bind_of_fail hsetting, Nat.le_refl _⟩, ⟨_, hblock, ?_⟩,
      ⟨_, hstray, ?_⟩, List.forall_mem_nil _⟩
    · obtain ⟨f, hfail, hplace⟩ := nestedDeclarations_fail hnested p hp
      exact ⟨f, hfail, Nat.le_trans hle hplace⟩
    all_goals exact Nat.le_trans hle (Nat.le_succ _)
  obtain ⟨failure', hentry⟩ := exists_firstOf_eq_fail fun p hp => (hall p hp).imp fun _ h => h.1
  rw [← bodyEntry_eq] at hentry
  refine ⟨failure', hentry, ?_⟩
  obtain ⟨hfurthest, hplace⟩ := of_firstOf_eq_fail (bodyEntry_eq scope inner ▸ hentry)
  obtain ⟨f, hf, hbehind⟩ := hfurthest _ (List.mem_append_right _ List.mem_cons_self)
  obtain rfl : failure = f := Reply.fail.inj ((bind_of_fail hsetting).symm.trans hf)
  have hbefore : failure.rest.length ≤ failure'.rest.length := by
    rcases hplace with hplace | ⟨p, hp, g, hg, hplace⟩
    · rw [hplace]
      exact Nat.le_trans hle (Nat.le_succ _)
    · obtain ⟨f, hf, hfront⟩ := hall p hp
      obtain rfl := Reply.fail.inj (hg.symm.trans hf)
      rwa [← hplace]
  exact (List.suffix_of_suffix_length_le (Remains.suffix_of_fail (.bodyEntry hinner) hentry)
    (Remains.attributeSetting.suffix_of_fail hsetting) hbehind).eq_of_length
      (Nat.le_antisymm hbehind hbefore)

end Landscape.Grammar
