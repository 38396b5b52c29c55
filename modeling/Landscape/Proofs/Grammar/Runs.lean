import Landscape.Proofs.Grammar.Extends
import Landscape.Proofs.Grammar.Unfolding

/-!
# Where parsers stop

A reply says how far a parser got, with a failure or with the doubt of a
success, and the replies of the parts of a rule are merged into one. What is
needed of that later on is put together here: from the reply of a sequence those
of its parts are found again, and a merged failure is at the place of one of the
two, with none of them further on.

A parser that fails at once, on the first lexeme it is given, `Declines` it. That
is how most alternatives are given up, for a keyword settles which one it is.
-/

namespace Landscape.Grammar

variable {α β : Type}

/-! ## Places of failures -/

namespace Failure

variable {f g : Failure}

/-- A failure is at a lexeme in front of `tail`. -/
def Precedes (tail : List Lexeme) (f : Failure) : Prop :=
  tail.length < f.rest.length

theorem rest_furthest (f g : Failure) :
    (f.furthest g).rest = f.rest ∧ f.rest.length ≤ g.rest.length ∨
      (f.furthest g).rest = g.rest ∧ g.rest.length < f.rest.length := by
  rw [furthest]
  split
  · exact .inl ⟨rfl, by omega⟩
  split
  · exact .inr ⟨rfl, by omega⟩
  · exact .inl ⟨rfl, by omega⟩

theorem length_rest_furthest_le (f g : Failure) :
    (f.furthest g).rest.length ≤ f.rest.length ∧ (f.furthest g).rest.length ≤ g.rest.length := by
  rcases rest_furthest f g with ⟨hrest, hle⟩ | ⟨hrest, hlt⟩ <;> rw [hrest] <;> omega

/-- What one of two parts has in doubt is in doubt of both, or something further
on is. -/
theorem exists_mem_merge_left {a : Option Failure} (h : f ∈ a) (b : Option Failure) :
    ∃ g ∈ merge a b, g.rest.length ≤ f.rest.length := by
  obtain rfl := Option.mem_def.1 h
  cases b with
  | none => exact ⟨f, rfl, Nat.le_refl _⟩
  | some b => exact ⟨f.furthest b, rfl, (length_rest_furthest_le f b).1⟩

theorem exists_mem_merge_right {b : Option Failure} (h : f ∈ b) (a : Option Failure) :
    ∃ g ∈ merge a b, g.rest.length ≤ f.rest.length := by
  obtain rfl := Option.mem_def.1 h
  cases a with
  | none => exact ⟨f, rfl, Nat.le_refl _⟩
  | some a => exact ⟨a.furthest f, rfl, (length_rest_furthest_le a f).2⟩

/-- The doubt of two parts is at the place of one of them, and there is none
further on. -/
theorem of_mem_merge {a b : Option Failure} (h : f ∈ merge a b) :
    (∃ g ∈ a, g.rest = f.rest) ∨
      ∃ g ∈ b, g.rest = f.rest ∧ ∀ e ∈ a, f.rest.length < e.rest.length := by
  rcases a with _ | a <;> rcases b with _ | b
  · cases h
  · exact .inr ⟨f, h, rfl, nofun⟩
  · exact .inl ⟨f, h, rfl⟩
  · obtain rfl : a.furthest b = f := Option.some.inj h
    rcases rest_furthest a b with ⟨hrest, -⟩ | ⟨hrest, hlt⟩
    · exact .inl ⟨a, rfl, hrest.symm⟩
    · refine .inr ⟨b, rfl, hrest.symm, ?_⟩
      rintro _ ⟨⟩
      rwa [hrest]

end Failure

/-! ## Runs of combinators -/

namespace Parser

variable {p : Parser α} {next : α → Parser β} {xs rest : List Lexeme} {doubt : Option Failure}

theorem bind_of_ok {value : α} {mid : List Lexeme} {early : Option Failure}
    (h : p xs = .ok value mid early) : (p >>= next) xs = (next value mid).after early := by
  show andThen p next xs = _
  rw [andThen, h]

theorem bind_of_fail {failure : Failure} (h : p xs = .fail failure) :
    (p >>= next) xs = .fail failure := by
  show andThen p next xs = _
  rw [andThen, h]

theorem exists_of_bind_eq_ok {result : β} (h : (p >>= next) xs = .ok result rest doubt) :
    ∃ value mid early late, p xs = .ok value mid early ∧
      next value mid = .ok result rest late ∧ Failure.merge early late = doubt := by
  cases hvalue : p xs with
  | fail failure =>
      rw [bind_of_fail hvalue] at h
      cases h
  | ok value mid early =>
      rw [bind_of_ok hvalue] at h
      cases hresult : next value mid with
      | fail failure =>
          rw [hresult] at h
          cases h
      | ok result' rest' late =>
          rw [hresult] at h
          cases h
          exact ⟨value, mid, early, late, rfl, hresult, rfl⟩

/-- A sequence fails with its first part or with the rest of it, and then at a
place that is not behind that of any doubt before. -/
theorem of_bind_eq_fail {failure : Failure} (h : (p >>= next) xs = .fail failure) :
    p xs = .fail failure ∨
      ∃ value mid early late, p xs = .ok value mid early ∧ next value mid = .fail late ∧
        (early.map late.furthest).getD late = failure := by
  cases hvalue : p xs with
  | fail failure' =>
      rw [bind_of_fail hvalue] at h
      cases h
      exact .inl rfl
  | ok value mid early =>
      rw [bind_of_ok hvalue] at h
      cases hresult : next value mid with
      | ok result rest late =>
          rw [hresult] at h
          cases h
      | fail late =>
          rw [hresult] at h
          cases h
          exact .inr ⟨value, mid, early, late, rfl, hresult, rfl⟩

theorem exists_of_exactly_eq_ok {t : Token} {value : Unit}
    (h : Parser.exactly t xs = .ok value rest doubt) :
    ∃ x : Lexeme, xs = x :: rest ∧ x.token = t ∧ doubt = none := by
  cases xs with
  | nil => cases h
  | cons x xs =>
      rw [Parser.exactly] at h
      split at h
      · next hx =>
          cases h
          exact ⟨x, rfl, hx, rfl⟩
      · cases h

theorem exists_of_token_eq_ok {accept : Token → Option α} {expected : List Expectation} {value : α}
    (h : Parser.token accept expected xs = .ok value rest doubt) :
    ∃ x : Lexeme, xs = x :: rest ∧ accept x.token = some value ∧ doubt = none := by
  cases xs with
  | nil => cases h
  | cons x xs =>
      rw [Parser.token] at h
      cases haccept : accept x.token with
      | none => simp [haccept] at h
      | some found =>
          simp only [haccept] at h
          cases h
          exact ⟨x, rfl, haccept, rfl⟩

theorem bind_of_ok_of_ok {value : α} {result : β} {mid : List Lexeme}
    {early late : Option Failure} (hp : p xs = .ok value mid early)
    (hnext : next value mid = .ok result rest late) :
    (p >>= next) xs = .ok result rest (Failure.merge early late) := by
  rw [bind_of_ok hp, hnext]
  rfl

theorem token_of_some {accept : Token → Option α} {expected : List Expectation} {x : Lexeme}
    {value : α} (h : accept x.token = some value) :
    Parser.token accept expected (x :: xs) = .ok value xs none := by
  rw [Parser.token, h]

theorem bind_pure_of_ok {f : α → β} {value : α} (h : p xs = .ok value rest doubt) :
    (p >>= fun value => Pure.pure (f value)) xs = .ok (f value) rest doubt := by
  rw [bind_of_ok h]
  cases doubt <;> rfl

theorem map_of_ok {f : α → β} {value : α} (h : p xs = .ok value rest doubt) :
    (f <$> p) xs = .ok (f value) rest doubt :=
  bind_pure_of_ok h

theorem located_of_ok {p : Parser (Span → α)} {f : Span → α} (h : p xs = .ok f rest doubt) :
    Parser.located p xs = .ok (f (spanBetween xs rest)) rest doubt := by
  rw [Parser.located, h]

theorem located_of_fail {p : Parser (Span → α)} {failure : Failure}
    (h : p xs = .fail failure) : Parser.located p xs = .fail failure := by
  rw [Parser.located, h]

theorem orElse_of_ok {q : Parser α} {value : α} (h : p xs = .ok value rest doubt) :
    Parser.orElse p q xs = .ok value rest doubt := by
  rw [Parser.orElse, h]

theorem orElse_of_fail {q : Parser α} {value : α} {failure : Failure} (hp : p xs = .fail failure)
    (hq : q xs = .ok value rest doubt) : Parser.orElse p q xs = .ok value rest doubt := by
  simp only [Parser.orElse, hp, hq]

theorem firstOf_append_of_fail {ps qs : List (Parser α)} {value : α}
    (hps : ∀ p ∈ ps, ∃ failure, p xs = .fail failure)
    (hqs : firstOf qs xs = .ok value rest doubt) :
    firstOf (ps ++ qs) xs = .ok value rest doubt := by
  induction ps with
  | nil => exact hqs
  | cons p ps ih =>
      obtain ⟨⟨failure, hp⟩, hps⟩ := List.forall_mem_cons.1 hps
      exact orElse_of_fail hp (ih hps)

theorem exists_firstOf_eq_fail {ps : List (Parser α)}
    (h : ∀ p ∈ ps, ∃ failure, p xs = .fail failure) : ∃ failure, firstOf ps xs = .fail failure := by
  induction ps with
  | nil => exact ⟨_, rfl⟩
  | cons p ps ih =>
      obtain ⟨⟨a, hp⟩, hps⟩ := List.forall_mem_cons.1 h
      obtain ⟨b, hps⟩ := ih hps
      exact ⟨a.furthest b, by rw [firstOf, Parser.orElse, hp, hps]⟩

/-- Where all of several parsers fail, the furthest one tells the place, unless
none got anywhere. -/
theorem of_firstOf_eq_fail {ps : List (Parser α)} {failure : Failure}
    (h : firstOf ps xs = .fail failure) :
    (∀ p ∈ ps, ∃ f, p xs = .fail f ∧ failure.rest.length ≤ f.rest.length) ∧
      (failure.rest = xs ∨ ∃ p ∈ ps, ∃ f, p xs = .fail f ∧ f.rest = failure.rest) := by
  induction ps generalizing failure with
  | nil =>
      cases h
      exact ⟨nofun, .inl rfl⟩
  | cons p ps ih =>
      rw [firstOf, Parser.orElse] at h
      cases hp : p xs with
      | ok value rest doubt => simp [hp] at h
      | fail a =>
          simp only [hp] at h
          cases hps : firstOf ps xs with
          | ok value rest doubt => simp [hps] at h
          | fail b =>
              simp only [hps] at h
              obtain rfl := Reply.fail.inj h
              obtain ⟨hall, hplace⟩ := ih hps
              have hle := Failure.length_rest_furthest_le a b
              refine ⟨List.forall_mem_cons.2 ⟨⟨a, hp, hle.1⟩, fun q hq => ?_⟩, ?_⟩
              · obtain ⟨f, hf, hle'⟩ := hall q hq
                exact ⟨f, hf, Nat.le_trans hle.2 hle'⟩
              · rcases Failure.rest_furthest a b with ⟨hrest, -⟩ | ⟨hrest, -⟩ <;> rw [hrest]
                · exact .inr ⟨p, List.mem_cons_self, a, hp, rfl⟩
                · refine hplace.imp_right ?_
                  rintro ⟨q, hq, f, hf⟩
                  exact ⟨q, List.mem_cons_of_mem p hq, f, hf⟩

/-- A parser fails without reading anything. -/
def Declines (p : Parser α) (xs : List Lexeme) : Prop :=
  ∃ expected, p xs = .fail ⟨xs, expected⟩

namespace Declines

variable {q : Parser α}

theorem ne_ok {value : α} (h : p.Declines xs) : p xs ≠ .ok value rest doubt := by
  obtain ⟨expected, hp⟩ := h
  rw [hp]
  exact nofun

theorem exists_fail (h : p.Declines xs) : ∃ failure, p xs = .fail failure := by
  obtain ⟨expected, hp⟩ := h
  exact ⟨_, hp⟩

theorem bind (h : p.Declines xs) : Declines (p >>= next) xs := by
  obtain ⟨expected, hp⟩ := h
  exact ⟨expected, bind_of_fail hp⟩

theorem map {f : α → β} (h : p.Declines xs) : Declines (f <$> p) xs :=
  h.bind

theorem located {p : Parser (Span → α)} (h : p.Declines xs) :
    Declines (Parser.located p) xs := by
  obtain ⟨expected, hp⟩ := h
  exact ⟨expected, by rw [Parser.located, hp]⟩

theorem token {accept : Token → Option α} {expected : List Expectation}
    (h : ∀ t ∈ (xs.map Lexeme.token).head?, accept t = none) :
    Declines (Parser.token accept expected) xs := by
  cases xs with
  | nil => exact ⟨[], rfl⟩
  | cons x xs =>
      refine ⟨expected, ?_⟩
      rw [Parser.token, h x.token rfl]

theorem exactly {t : Token} (h : Avoids t xs) : Declines (Parser.exactly t) xs := by
  cases xs with
  | nil => exact ⟨_, rfl⟩
  | cons x xs => exact ⟨_, if_neg fun hx => h (congrArg some hx)⟩

theorem orElse (hp : p.Declines xs) (hq : q.Declines xs) : Declines (Parser.orElse p q) xs := by
  obtain ⟨a, ha⟩ := hp
  obtain ⟨b, hb⟩ := hq
  rw [Declines, Parser.orElse, ha]
  simp only [hb, Failure.furthest, Nat.lt_irrefl, if_false]
  exact ⟨_, rfl⟩

theorem firstOf {ps : List (Parser α)} (h : ∀ p ∈ ps, p.Declines xs) :
    Declines (Parser.firstOf ps) xs := by
  induction ps with
  | nil => exact ⟨[], rfl⟩
  | cons p ps ih =>
      obtain ⟨hp, hps⟩ := List.forall_mem_cons.1 h
      exact hp.orElse (ih hps)

/-- What is behind an optional part is tried at the same place. -/
theorem optional_bind {next : Option α → Parser β} (hp : p.Declines xs)
    (hnext : (next none).Declines xs) : Declines (Parser.optional p >>= next) xs := by
  obtain ⟨a, ha⟩ := hp
  obtain ⟨b, hb⟩ := hnext
  have hnone : Parser.optional p xs = .ok none xs (some ⟨xs, a⟩) := by rw [Parser.optional, ha]
  rw [Declines, bind_of_ok hnone, hb]
  simp only [Reply.after, Option.map_some, Option.getD_some, Failure.furthest, Nat.lt_irrefl,
    if_false]
  exact ⟨_, rfl⟩

end Declines

/-- There is no input at which both parsers get past the first lexeme. -/
def Excludes (p q : Parser α) : Prop :=
  ∀ xs, p.Declines xs ∨ q.Declines xs

end Parser

end Landscape.Grammar
