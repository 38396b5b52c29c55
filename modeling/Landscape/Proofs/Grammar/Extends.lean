import Landscape.Proofs.Grammar.Document
import Landscape.Proofs.Grammar.Enclosed

/-!
# Readings with more behind them

A reading is not undone when more lexemes are put behind the input (`Extends`),
nor is a failure (`KeepsFailing`), as long as the parser did not depend on where
the input ended. Most parsers never do. Those that may stop before the end of the
input could go on where there is more, and for them there is a condition on what
was left unread; it says which token must not come next.

The condition is known from the outside in. What a parser has left is what the
next one has read, so the rule for sequences asks that the condition holds
wherever the next parser has succeeded, and the rule for repetitions asks for it
wherever another round has.

The input as a whole takes part in one respect: it must not end with a word that
opens a clause, since such a word is a clause as soon as a name comes behind it.
-/

namespace Landscape.Grammar

variable {α β : Type}

/-- The words that open a clause of a context. -/
def clauseKeywords : List String :=
  ["implements", "realizes", "refines"]

/-- The last token is not a word that could open a clause. -/
def EndsOutsideClause (ts : List Token) : Prop :=
  ∀ t ∈ ts.getLast?, isOneOf clauseKeywords t = false

theorem EndsOutsideClause.of_append {ts us : List Token} (h : EndsOutsideClause (ts ++ us)) :
    EndsOutsideClause us := by
  intro t ht
  refine h t ?_
  rw [List.getLast?_append, Option.mem_def.1 ht]
  rfl

/-- The first lexeme, if there is one, is not the token `t`. -/
def Avoids (t : Token) (xs : List Lexeme) : Prop :=
  (xs.map Lexeme.token).head? ≠ some t

theorem Avoids.nil {t : Token} : Avoids t [] :=
  nofun

theorem Avoids.append {t : Token} {xs ys : List Lexeme} (hxs : Avoids t xs)
    (hys : Avoids t ys) : Avoids t (xs ++ ys) := by
  cases xs with
  | nil => exact hys
  | cons x xs => exact hxs

/-- What a parser has read does not start with a token that it refuses. -/
theorem Refuses.avoids {p : Parser α} {t : Token} (h : ∀ ts, Refuses p (t :: ts))
    {xs rest : List Lexeme} {value : α} {doubt : Option Failure}
    (hvalue : p xs = .ok value rest doubt) : Avoids t xs := by
  intro heq
  obtain ⟨ts, hts⟩ := List.head?_eq_some_iff.1 heq
  obtain ⟨failure, hfailure⟩ := h ts xs hts
  rw [hvalue] at hfailure
  cases hfailure

theorem EndsOpen.avoids {t : Token} {ys : List Lexeme} (hys : EndsOpen (ys.map Lexeme.token))
    (ht : isTopLevelKeyword t = false) : Avoids t ys := fun heq =>
  Bool.false_ne_true (ht.symm.trans (hys t heq))

/-! ## Readings that stay as they are -/

/-- With `ys` behind its input a parser still reads what it has read, as long as
`C` holds of what it left. -/
structure Extends (ys : List Lexeme) (p : Parser α) (C : List Lexeme → Prop) : Prop where
  balanced : ReadsBalanced p
  appended : ∀ xs value rest doubt, p xs = .ok value rest doubt →
    EndsOutsideClause (xs.map Lexeme.token) → C rest →
    ∃ doubt', p (xs ++ ys) = .ok value (rest ++ ys) doubt'

/-- Where a parser fails and `C` holds, it still fails with `ys` behind its
input. -/
def KeepsFailing (ys : List Lexeme) (p : Parser α) (C : List Lexeme → Prop) : Prop :=
  ∀ xs failure, p xs = .fail failure → EndsOutsideClause (xs.map Lexeme.token) → C xs →
    ∃ failure', p (xs ++ ys) = .fail failure'

theorem ReadsBalanced.endsOutsideClause {p : Parser α} (hp : ReadsBalanced p)
    {xs rest : List Lexeme} {value : α} {doubt : Option Failure}
    (h : p xs = .ok value rest doubt) (hxs : EndsOutsideClause (xs.map Lexeme.token)) :
    EndsOutsideClause (rest.map Lexeme.token) := by
  obtain ⟨read, rfl, -⟩ := hp _ _ _ _ h
  rw [List.map_append] at hxs
  exact hxs.of_append

namespace Extends

variable {ys : List Lexeme} {p q : Parser α} {C D : List Lexeme → Prop}

theorem imp (hp : Extends ys p C) (h : ∀ rest, D rest → C rest) : Extends ys p D :=
  ⟨hp.balanced, fun xs value rest doubt hvalue hxs hrest =>
    hp.appended xs value rest doubt hvalue hxs (h rest hrest)⟩

/-! ## Sequences -/

theorem pure {value : α} : Extends ys (Pure.pure value) C := by
  refine ⟨.pure, ?_⟩
  rintro xs _ _ _ ⟨⟩ - -
  exact ⟨none, rfl⟩

/-- The condition for the first part has to hold wherever the second one has
succeeded. -/
theorem bind {next : α → Parser β} (hp : Extends ys p C)
    (hnext : ∀ value, Extends ys (next value) D)
    (hback : ∀ value xs result rest doubt, next value xs = .ok result rest doubt → D rest → C xs) :
    Extends ys (p >>= next) D := by
  refine ⟨hp.balanced.bind fun value => (hnext value).balanced,
    fun xs result rest doubt h hxs hrest => ?_⟩
  change Parser.andThen p next xs = _ at h
  change ∃ doubt', Parser.andThen p next (xs ++ ys) = _
  rw [Parser.andThen] at h ⊢
  cases hvalue : p xs with
  | fail failure => simp [hvalue] at h
  | ok value mid early =>
      simp only [hvalue] at h
      cases hresult : next value mid with
      | fail failure => simp [hresult, Reply.after] at h
      | ok result' rest' late =>
          rw [hresult] at h
          cases h
          have hmid := hp.balanced.endsOutsideClause hvalue hxs
          obtain ⟨early', hfirst⟩ :=
            hp.appended _ _ _ _ hvalue hxs (hback _ _ _ _ _ hresult hrest)
          obtain ⟨late', hsecond⟩ := (hnext value).appended _ _ _ _ hresult hmid hrest
          exact ⟨Failure.merge early' late', by simp only [hfirst, hsecond, Reply.after]⟩

/-- A sequence whose first part stays as it is in any case. -/
theorem bind_always {next : α → Parser β} (hp : Extends ys p fun _ => True)
    (hnext : ∀ value, Extends ys (next value) D) : Extends ys (p >>= next) D :=
  hp.bind hnext fun _ _ _ _ _ _ _ => trivial

theorem bind_pure {f : α → β} (hp : Extends ys p C) :
    Extends ys (p >>= fun value => Pure.pure (f value)) C := by
  refine hp.bind (fun _ => pure) ?_
  rintro _ _ _ _ _ ⟨⟩ h
  exact h

theorem map {f : α → β} (hp : Extends ys p C) : Extends ys (f <$> p) C :=
  hp.bind_pure

theorem located {p : Parser (Span → α)} (hp : Extends ys p C) :
    Extends ys (Parser.located p) C := by
  refine ⟨hp.balanced.located, fun xs value rest doubt h hxs hrest => ?_⟩
  rw [Parser.located] at h ⊢
  cases hf : p xs with
  | fail failure => simp [hf] at h
  | ok f rest' doubt' =>
      simp only [hf] at h
      cases h
      obtain ⟨read, hread, -⟩ := hp.balanced _ _ _ _ hf
      obtain ⟨doubt', happended⟩ := hp.appended _ _ _ _ hf hxs hrest
      exact ⟨doubt', by simp only [happended, spanBetween_append hread]⟩

/-! ## Single tokens -/

theorem token {accept : Token → Option α} {expected : List Expectation}
    (h : ∀ t value, accept t = some value → t.isBrace = false) :
    Extends ys (Parser.token accept expected) C := by
  refine ⟨(ReadsNoBrace.token h).balanced, fun xs value rest doubt hvalue _ _ => ?_⟩
  cases xs with
  | nil => cases hvalue
  | cons x xs =>
      rw [List.cons_append]
      rw [Parser.token] at hvalue ⊢
      cases haccept : accept x.token with
      | none => simp [haccept] at hvalue
      | some found =>
          simp only [haccept] at hvalue
          cases hvalue
          exact ⟨none, rfl⟩

theorem exactly {t : Token} (h : t.isBrace = false) : Extends ys (Parser.exactly t) C := by
  refine ⟨.exactly h, fun xs value rest doubt hvalue _ _ => ?_⟩
  cases xs with
  | nil => cases hvalue
  | cons x xs =>
      have happended := Confined.exactly_followedBy t (List.cons_ne_nil x xs) ys
      rw [hvalue] at happended
      exact ⟨_, happended⟩

theorem anyToken {allowed : Token → Bool} (h : ∀ t, allowed t → t.isBrace = false) :
    Extends ys (Parser.anyToken allowed) C :=
  token fun t _ hvalue => h t (by simpa using (Option.ite_some_none_eq_some.1 hvalue).1)

theorem name : Extends ys name C :=
  token fun t _ h => by cases t <;> first | rfl | cases h

/-! ## Choice and repetition -/

theorem orElse (hp : Extends ys p C) (hq : Extends ys q C)
    (hfail : ∀ xs failure value rest doubt, p xs = .fail failure → q xs = .ok value rest doubt →
      EndsOutsideClause (xs.map Lexeme.token) → ∃ failure', p (xs ++ ys) = .fail failure') :
    Extends ys (Parser.orElse p q) C := by
  refine ⟨Consumes.orElse hp.balanced hq.balanced, fun xs value rest doubt h hxs hrest => ?_⟩
  rw [Parser.orElse] at h ⊢
  cases hvalue : p xs with
  | ok value' rest' doubt' =>
      simp only [hvalue] at h
      cases h
      obtain ⟨doubt', happended⟩ := hp.appended _ _ _ _ hvalue hxs hrest
      exact ⟨doubt', by simp only [happended]⟩
  | fail failure =>
      simp only [hvalue] at h
      cases hother : q xs with
      | fail failure' => simp [hother] at h
      | ok value' rest' doubt' =>
          simp only [hother] at h
          cases h
          obtain ⟨failure', hrefused⟩ := hfail _ _ _ _ _ hvalue hother hxs
          obtain ⟨doubt', happended⟩ := hq.appended _ _ _ _ hother hxs hrest
          exact ⟨doubt', by simp only [hrefused, happended]⟩

theorem orElse_of_keepsFailing (hp : Extends ys p C) (hq : Extends ys q C)
    (hfail : KeepsFailing ys p fun _ => True) : Extends ys (Parser.orElse p q) C :=
  hp.orElse hq fun xs failure _ _ _ hvalue _ hxs => hfail xs failure hvalue hxs trivial

/-- The last alternative is reached whatever comes after it. -/
theorem firstOf_singleton (hp : Extends ys p C) : Extends ys (Parser.firstOf [p]) C :=
  hp.orElse ⟨Consumes.firstOf nofun, nofun⟩ nofun

theorem optional (hp : Extends ys p C) (hfail : KeepsFailing ys p C) :
    Extends ys (Parser.optional p) C := by
  refine ⟨hp.balanced.optional, fun xs value rest doubt h hxs hrest => ?_⟩
  rw [Parser.optional] at h ⊢
  cases hvalue : p xs with
  | ok value' rest' doubt' =>
      simp only [hvalue] at h
      cases h
      obtain ⟨doubt', happended⟩ := hp.appended _ _ _ _ hvalue hxs hrest
      exact ⟨doubt', by simp only [happended]⟩
  | fail failure =>
      simp only [hvalue] at h
      cases h
      obtain ⟨failure', hrefused⟩ := hfail _ _ hvalue hxs hrest
      exact ⟨some failure', by simp only [hrefused]⟩

/-- Between two rounds the condition for a round has to hold because another one
comes. -/
theorem many (hp : Extends ys p C) (hadvances : Advances p) (hfail : KeepsFailing ys p D)
    (hnext : ∀ xs value rest doubt, p xs = .ok value rest doubt → C xs)
    (hlast : ∀ rest, D rest → C rest) : Extends ys (Parser.many p) D := by
  refine ⟨hp.balanced.many, fun xs values final doubt h hxs hfinal => ?_⟩
  induction hk : xs.length using Nat.strongRecOn generalizing xs values doubt with
  | ind k ih =>
      subst hk
      cases hvalue : p xs with
      | fail failure =>
          rw [Parser.many_of_fail hvalue] at h
          cases h
          obtain ⟨failure', hrefused⟩ := hfail _ _ hvalue hxs hfinal
          exact ⟨some failure', Parser.many_of_fail hrefused⟩
      | ok value rest early =>
          obtain ⟨others, final', late, hothers⟩ := Parser.exists_many_eq p rest
          rw [hadvances.many_of_ok hvalue hothers] at h
          cases h
          have hrest := hp.balanced.endsOutsideClause hvalue hxs
          have hC : C rest := by
            cases hanother : p rest with
            | ok value' rest' doubt' => exact hnext _ _ _ _ hanother
            | fail failure =>
                rw [Parser.many_of_fail hanother] at hothers
                cases hothers
                exact hlast _ hfinal
          obtain ⟨early', hfirst⟩ := hp.appended _ _ _ _ hvalue hxs hC
          obtain ⟨late', hlater⟩ :=
            ih rest.length (hadvances.length_lt hvalue) rest others late hothers hrest rfl
          exact ⟨_, hadvances.many_of_ok hfirst hlater⟩

end Extends

/-! ## Failures that stay as they are -/

/-- A parser never fails. -/
def Succeeds (p : Parser α) : Prop :=
  ∀ xs, ∃ value rest doubt, p xs = .ok value rest doubt

namespace Succeeds

theorem pure {value : α} : Succeeds (Pure.pure value) :=
  fun xs => ⟨value, xs, none, rfl⟩

theorem many_pure {p : Parser α} {f : List α → β} :
    Succeeds (Parser.many p >>= fun values => Pure.pure (f values)) := by
  intro xs
  obtain ⟨values, rest, doubt, hvalues⟩ := Parser.exists_many_eq p xs
  refine ⟨f values, rest, Failure.merge doubt none, ?_⟩
  change Parser.andThen (Parser.many p) _ xs = _
  rw [Parser.andThen, hvalues]
  rfl

end Succeeds

namespace KeepsFailing

variable {ys : List Lexeme} {p : Parser α} {C D : List Lexeme → Prop}

theorem imp (hp : KeepsFailing ys p C) (h : ∀ xs, D xs → C xs) : KeepsFailing ys p D :=
  fun xs failure hfailure hxs hD => hp xs failure hfailure hxs (h xs hD)

/-- A failure that the next token decides. -/
theorem of_refuses (h : ∀ xs, C xs → Refuses p ((xs ++ ys).map Lexeme.token)) :
    KeepsFailing ys p C :=
  fun xs _ _ _ hC => h xs hC _ rfl

theorem token {accept : Token → Option α} {expected : List Expectation}
    (h : C [] → ∀ t ∈ (ys.map Lexeme.token).head?, accept t = none) :
    KeepsFailing ys (Parser.token accept expected) C := by
  intro xs failure hfailure _ hC
  refine Refuses.token ?_ _ rfl
  cases xs with
  | nil => exact h hC
  | cons x xs =>
      rintro _ ⟨⟩
      rw [Parser.token] at hfailure
      cases haccept : accept x.token with
      | none => rfl
      | some value => simp [haccept] at hfailure

theorem exactly {t : Token} (h : C [] → Avoids t ys) :
    KeepsFailing ys (Parser.exactly t) C := by
  intro xs failure hfailure _ hC
  cases xs with
  | nil => exact Refuses.exactly (h hC) _ rfl
  | cons x xs =>
      have happended := Confined.exactly_followedBy t (List.cons_ne_nil x xs) ys
      rw [hfailure] at happended
      exact ⟨_, happended⟩

theorem bind {next : α → Parser β} (hp : KeepsFailing ys p C)
    (hextends : Extends ys p fun _ => True) (hnext : ∀ value, KeepsFailing ys (next value) D)
    (hmid : ∀ xs value mid doubt, p xs = .ok value mid doubt →
      EndsOutsideClause (xs.map Lexeme.token) → C xs → D mid) :
    KeepsFailing ys (p >>= next) C := by
  intro xs failure h hxs hC
  change Parser.andThen p next xs = _ at h
  change ∃ failure', Parser.andThen p next (xs ++ ys) = _
  rw [Parser.andThen] at h ⊢
  cases hvalue : p xs with
  | fail failure' =>
      obtain ⟨failure', hrefused⟩ := hp _ _ hvalue hxs hC
      exact ⟨failure', by simp only [hrefused]⟩
  | ok value mid doubt =>
      simp only [hvalue] at h
      have hrest := hextends.balanced.endsOutsideClause hvalue hxs
      obtain ⟨doubt', happended⟩ := hextends.appended _ _ _ _ hvalue hxs trivial
      cases hresult : next value mid with
      | ok result rest late => simp [hresult, Reply.after] at h
      | fail failure' =>
          obtain ⟨failure', hrefused⟩ := hnext value _ _ hresult hrest (hmid _ _ _ _ hvalue hxs hC)
          simp only [happended, hrefused]
          exact ⟨_, rfl⟩

theorem located {p : Parser (Span → α)} (hp : KeepsFailing ys p C) :
    KeepsFailing ys (Parser.located p) C := by
  intro xs failure h hxs hC
  rw [Parser.located] at h ⊢
  cases hvalue : p xs with
  | ok value rest doubt => simp [hvalue] at h
  | fail failure' =>
      obtain ⟨failure', hrefused⟩ := hp _ _ hvalue hxs hC
      exact ⟨failure', by simp only [hrefused]⟩

/-- A sequence whose second part never fails. -/
theorem bind_succeeds {next : α → Parser β} (hp : KeepsFailing ys p C)
    (hnext : ∀ value, Succeeds (next value)) : KeepsFailing ys (p >>= next) C := by
  intro xs failure h hxs hC
  change Parser.andThen p next xs = _ at h
  change ∃ failure', Parser.andThen p next (xs ++ ys) = _
  rw [Parser.andThen] at h ⊢
  cases hvalue : p xs with
  | fail failure' =>
      obtain ⟨failure', hrefused⟩ := hp _ _ hvalue hxs hC
      exact ⟨failure', by simp only [hrefused]⟩
  | ok value mid doubt =>
      obtain ⟨result, rest, late, hresult⟩ := hnext value mid
      simp [hvalue, hresult, Reply.after] at h

theorem map {f : α → β} (hp : KeepsFailing ys p C) : KeepsFailing ys (f <$> p) C :=
  bind_succeeds hp fun _ => .pure

theorem firstOf_nil : KeepsFailing ys (Parser.firstOf ([] : List (Parser α))) C :=
  fun xs _ _ _ _ => ⟨⟨xs ++ ys, []⟩, rfl⟩

theorem firstOf_cons {ps : List (Parser α)} (hp : KeepsFailing ys p C)
    (hps : KeepsFailing ys (Parser.firstOf ps) C) :
    KeepsFailing ys (Parser.firstOf (p :: ps)) C := by
  intro xs failure h hxs hC
  rw [Parser.firstOf, Parser.orElse] at h ⊢
  cases hvalue : p xs with
  | ok value rest doubt => simp [hvalue] at h
  | fail a =>
      simp only [hvalue] at h
      cases hother : Parser.firstOf ps xs with
      | ok value rest doubt => simp [hother] at h
      | fail b =>
          obtain ⟨a', ha⟩ := hp _ _ hvalue hxs hC
          obtain ⟨b', hb⟩ := hps _ _ hother hxs hC
          exact ⟨a'.furthest b', by simp only [ha, hb]⟩

end KeepsFailing

end Landscape.Grammar
