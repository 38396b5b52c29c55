import Landscape.Grammar.Document

/-!
# How parsers split their input

A parser that succeeds has split its input in two, into what it has read and
what is left. What can be said of the two and of the value is a property of the
split (`Splits`). It speaks of successes alone. A parser that fails has read
nothing, and an alternative that was given up leaves no trace in what the next
one reads, so backtracking does not show in the rules at all.

There is one rule for each combinator. The condition on a sequence is handed on
to its second part together with what the first part has read, so that what is
known of the whole need not be a conjunction of what is known of the parts.
What is left counts too, since there are parsers that look at more than they
read; and it is what makes spans exact, for a span is told from the input and
what is left of it, but comes out as that of the lexemes in between
(`spanBetween_eq_spanOf`).
-/

namespace Landscape

/-- The span from the first to the last of some lexemes. -/
def spanOf (read : List Lexeme) : Span :=
  match read.head?, read.getLast? with
  | some first, some last => ⟨first.span.start, last.span.stop⟩
  | _, _ => Span.none

namespace Grammar

variable {α β : Type}

theorem spanBetween_eq_spanOf (read rest : List Lexeme) :
    Parser.spanBetween (read ++ rest) rest = spanOf read := by
  rw [Parser.spanBetween, List.length_append, Nat.add_sub_cancel_right, List.take_left]
  rfl

/-- Whenever a parser succeeds it has read the front of its input, and `P` holds
of what it has read, of what is left, and of its value. -/
def Splits (p : Parser α) (P : List Lexeme → List Lexeme → α → Prop) : Prop :=
  ∀ input value rest doubt, p input = .ok value rest doubt →
    ∃ read, input = read ++ rest ∧ P read rest value

namespace Splits

variable {p q : Parser α} {P : List Lexeme → List Lexeme → α → Prop}

theorem imp {Q : List Lexeme → List Lexeme → α → Prop} (h : Splits p P)
    (himp : ∀ read rest value, P read rest value → Q read rest value) : Splits p Q := by
  intro input value rest doubt hp
  obtain ⟨read, hread, hP⟩ := h input value rest doubt hp
  exact ⟨read, hread, himp read rest value hP⟩

/-! ## Sequences -/

theorem pure {value : α} (h : ∀ rest, P [] rest value) : Splits (Pure.pure value) P := by
  rintro input _ _ _ ⟨⟩
  exact ⟨[], rfl, h input⟩

theorem bind {next : α → Parser β} {Q : List Lexeme → List Lexeme → β → Prop}
    (hp : Splits p P)
    (hnext : ∀ read value mid, P read mid value → Splits (next value) fun read' rest result =>
      mid = read' ++ rest → Q (read ++ read') rest result) :
    Splits (p >>= next) Q := by
  intro input result rest doubt h
  change Parser.andThen p next input = _ at h
  rw [Parser.andThen] at h
  split at h
  · next value mid _ hvalue =>
      obtain ⟨first, rfl, hP⟩ := hp _ _ _ _ hvalue
      unfold Reply.after at h
      split at h
      · next hresult =>
          cases h
          obtain ⟨second, rfl, hQ⟩ := hnext first value mid hP _ _ _ _ hresult
          exact ⟨first ++ second, (List.append_assoc ..).symm, hQ rfl⟩
      · cases h
  · cases h

/-- A sequence that ends with what is made of the last part. -/
theorem bind_pure {f : α → β} {Q : List Lexeme → List Lexeme → β → Prop}
    (h : Splits p fun read rest value => Q read rest (f value)) :
    Splits (p >>= fun value => Pure.pure (f value)) Q := by
  refine bind h fun read value mid hQ => pure fun rest hmid => ?_
  rwa [List.append_nil, ← List.nil_append rest, ← hmid]

theorem map {f : α → β} {Q : List Lexeme → List Lexeme → β → Prop}
    (h : Splits p fun read rest value => Q read rest (f value)) : Splits (f <$> p) Q :=
  bind_pure h

/-- The span of a value is that of the lexemes it was read from. -/
theorem located {p : Parser (Span → α)}
    (h : Splits p fun read rest f => P read rest (f (spanOf read))) :
    Splits (Parser.located p) P := by
  intro input value rest doubt hp
  rw [Parser.located] at hp
  split at hp
  · next hf =>
      cases hp
      obtain ⟨read, rfl, hP⟩ := h _ _ _ _ hf
      exact ⟨read, rfl, by rwa [spanBetween_eq_spanOf]⟩
  · cases hp

/-! ## Single tokens -/

theorem token {accept : Token → Option α} {expected : List Expectation}
    (h : ∀ found rest value, accept found.token = some value → P [found] rest value) :
    Splits (Parser.token accept expected) P := by
  intro input value rest doubt hp
  cases input with
  | nil => cases hp
  | cons found others =>
      rw [Parser.token] at hp
      split at hp
      · next hvalue =>
          cases hp
          exact ⟨[found], rfl, h found rest value hvalue⟩
      · cases hp

theorem exactly {t : Token} {P : List Lexeme → List Lexeme → Unit → Prop}
    (h : ∀ (found : Lexeme) (rest : List Lexeme), found.token = t → P [found] rest ()) :
    Splits (Parser.exactly t) P := by
  intro input value rest doubt hp
  cases input with
  | nil => cases hp
  | cons found others =>
      rw [Parser.exactly] at hp
      split at hp
      · next ht =>
          cases hp
          exact ⟨[found], rfl, h found rest ht⟩
      · cases hp

/-- What is read between two marks, which are read as well. -/
theorem between {opening closing : Token} (hp : Splits p P) :
    Splits (Parser.between opening closing p) fun read rest value =>
      ∃ first inside last, read = first :: (inside ++ [last]) ∧ first.token = opening ∧
        last.token = closing ∧ P inside (last :: rest) value := by
  have mark (t : Token) : Splits (Parser.exactly t) fun read _ _ =>
      ∃ found, read = [found] ∧ found.token = t :=
    exactly fun found _ h => ⟨found, rfl, h⟩
  refine bind (mark opening) ?_
  rintro _ _ _ ⟨first, rfl, hfirst⟩
  refine bind hp fun inside value mid hP => bind_pure ((mark closing).imp ?_)
  rintro _ rest _ ⟨last, rfl, hlast⟩ rfl -
  exact ⟨first, inside, last, rfl, hfirst, hlast, hP⟩

/-! ## Choice -/

theorem orElse (hp : Splits p P) (hq : Splits q P) : Splits (Parser.orElse p q) P := by
  intro input value rest doubt h
  rw [Parser.orElse] at h
  split at h
  · next hvalue =>
      cases h
      exact hp _ _ _ _ hvalue
  · split at h
    · next hvalue =>
        cases h
        exact hq _ _ _ _ hvalue
    · cases h

theorem firstOf {ps : List (Parser α)} (h : ∀ p ∈ ps, Splits p P) :
    Splits (Parser.firstOf ps) P := by
  induction ps with
  | nil => rintro input _ _ _ ⟨⟩
  | cons p ps ih =>
      exact orElse (h p List.mem_cons_self) (ih fun q hq => h q (List.mem_cons_of_mem p hq))

theorem optional {P : List Lexeme → List Lexeme → Option α → Prop}
    (h : Splits p fun read rest value => P read rest (some value))
    (hnone : ∀ rest, P [] rest none) : Splits (Parser.optional p) P := by
  intro input value rest doubt hp
  rw [Parser.optional] at hp
  split at hp
  · next hvalue =>
      cases hp
      exact h _ _ _ _ hvalue
  · cases hp
    exact ⟨[], rfl, hnone input⟩

/-! ## Repetition and recursion -/

/-- What holds of nothing, and goes on to hold with one more item in front,
holds of any number of items. -/
theorem many {P : List Lexeme → List Lexeme → List α → Prop}
    {item : List Lexeme → List Lexeme → α → Prop} (hp : Splits p item)
    (hnil : ∀ rest, P [] rest [])
    (hcons : ∀ first value others rest values, item first (others ++ rest) value →
      P others rest values → P (first ++ others) rest (value :: values)) :
    Splits (Parser.many p) P := by
  have upTo (limit : Nat) : Splits (Parser.upTo p limit) P := by
    induction limit with
    | zero =>
        rintro input _ _ _ ⟨⟩
        exact ⟨[], rfl, hnil input⟩
    | succ limit ih =>
        intro input values rest doubt h
        simp only [Parser.upTo] at h
        split at h
        · cases h
          exact ⟨[], rfl, hnil input⟩
        · next value mid _ hvalue =>
            obtain ⟨first, rfl, hitem⟩ := hp _ _ _ _ hvalue
            split at h
            · next hvalues =>
                cases h
                obtain ⟨others, rfl, hothers⟩ := ih _ _ _ _ hvalues
                exact ⟨first ++ others, (List.append_assoc ..).symm,
                  hcons first value others rest _ hitem hothers⟩
            · cases h
  exact fun input => upTo _ input

theorem unfold {step : Parser α → Parser α}
    (h : ∀ inner, Splits inner P → Splits (step inner) P) (depth : Nat) :
    Splits (Parser.unfold step depth) P := by
  induction depth with
  | zero => rintro input _ _ _ ⟨⟩
  | succ depth ih => exact h _ ih

theorem nested {step : Parser α → Parser α}
    (h : ∀ inner, Splits inner P → Splits (step inner) P) :
    Splits (Parser.nested step) P :=
  fun input => unfold h _ input

end Splits

end Grammar

end Landscape
