import Landscape.Proofs.Grammar.Enclosed
import Landscape.Proofs.Grammar.Remainder

/-!
# A body is a repetition of entries

A body uses itself for the bodies inside it, and each time it does so an opening
brace has just been read. So what an entry is depends on the bodies behind the
opening braces of the input and on no others (`AgreeOn.bodyEntry`).

It is unfolded to a depth that depends on how long the input is. The depth means
nothing: what is behind a brace is shorter than the input by at least the brace, so
two depths that both cover the input say the same (`Agree`). Then a body is what its
definition reads like, entries with bodies in them (`body_eq`).
-/

namespace Landscape.Grammar

variable {α β : Type}

/-- Two parsers say the same about the inputs in `S`. -/
def AgreeOn (S : List Lexeme → Prop) (p q : Parser α) : Prop :=
  ∀ xs, S xs → p xs = q xs

/-- Two parsers say the same about at most `n` lexemes. -/
def Agree (n : Nat) (p q : Parser α) : Prop :=
  ∀ xs : List Lexeme, xs.length ≤ n → p xs = q xs

/-- What is left of an input in `S` is in `S` as well. -/
def KeepsRest (S : List Lexeme → Prop) : Prop :=
  ∀ xs rest, S xs → rest <:+ xs → S rest

/-- What comes right behind an opening brace in an input in `S`. -/
def BehindBrace (S : List Lexeme → Prop) (xs : List Lexeme) : Prop :=
  ∃ opening : Lexeme, opening.token = .openBrace ∧ S (opening :: xs)

theorem KeepsRest.length_le (n : Nat) : KeepsRest fun xs => xs.length ≤ n :=
  fun _ _ hlength hrest => Nat.le_trans hrest.length_le hlength

theorem KeepsRest.suffix (input : List Lexeme) : KeepsRest (· <:+ input) :=
  fun _ _ hxs hrest => hrest.trans hxs

theorem Remains.suffix {p : Parser α} (hp : Remains p) {xs rest : List Lexeme} {value : α}
    {doubt : Option Failure} (h : p xs = .ok value rest doubt) : rest <:+ xs := by
  have hxs := hp xs
  rw [h] at hxs
  cases hxs with
  | ok hleft => exact hleft

theorem Remains.suffix_of_fail {p : Parser α} (hp : Remains p) {xs : List Lexeme}
    {failure : Failure} (h : p xs = .fail failure) : failure.rest <:+ xs := by
  have hxs := hp xs
  rw [h] at hxs
  cases hxs with
  | fail hleft => exact hleft

theorem Remains.unfold {step : Parser α → Parser α} (h : ∀ p, Remains p → Remains (step p))
    (depth : Nat) : Remains (Parser.unfold step depth) := by
  induction depth with
  | zero => exact fun input => .fail (List.suffix_refl input)
  | succ depth ih => exact h _ ih

namespace AgreeOn

variable {S : List Lexeme → Prop} {p q p' q' : Parser α}

theorem refl : AgreeOn S p p :=
  fun _ _ => rfl

/-- In a sequence the first parts are the same parser, and only what comes after
them uses a body. -/
theorem bind (hS : KeepsRest S) {next next' : α → Parser β} (hp : Remains p)
    (hnext : ∀ value, AgreeOn S (next value) (next' value)) :
    AgreeOn S (p >>= next) (p >>= next') := by
  intro xs hxs
  change Parser.andThen p next xs = Parser.andThen p next' xs
  rw [Parser.andThen, Parser.andThen]
  cases hvalue : p xs with
  | fail failure => rfl
  | ok value rest doubt => simp only [hnext value rest (hS xs rest hxs (hp.suffix hvalue))]

theorem bind_pure {f : α → β} (h : AgreeOn S p q) :
    AgreeOn S (p >>= fun value => Pure.pure (f value))
      (q >>= fun value => Pure.pure (f value)) := by
  intro xs hxs
  change Parser.andThen p _ xs = Parser.andThen q _ xs
  rw [Parser.andThen, Parser.andThen, h xs hxs]

theorem map {f : α → β} (h : AgreeOn S p q) : AgreeOn S (f <$> p) (f <$> q) :=
  h.bind_pure

theorem located {p q : Parser (Span → α)} (h : AgreeOn S p q) :
    AgreeOn S (Parser.located p) (Parser.located q) := by
  intro xs hxs
  rw [Parser.located, Parser.located, h xs hxs]

theorem orElse (hp : AgreeOn S p q) (hp' : AgreeOn S p' q') :
    AgreeOn S (Parser.orElse p p') (Parser.orElse q q') := by
  intro xs hxs
  rw [Parser.orElse, Parser.orElse, hp xs hxs, hp' xs hxs]

theorem optional (h : AgreeOn S p q) : AgreeOn S (Parser.optional p) (Parser.optional q) := by
  intro xs hxs
  rw [Parser.optional, Parser.optional, h xs hxs]

theorem upTo (hS : KeepsRest S) (hp : Remains p) (h : AgreeOn S p q) (limit : Nat) :
    AgreeOn S (Parser.upTo p limit) (Parser.upTo q limit) := by
  induction limit with
  | zero => exact refl
  | succ limit ih =>
      intro xs hxs
      simp only [Parser.upTo, ← h xs hxs]
      cases hvalue : p xs with
      | fail failure => rfl
      | ok value rest doubt => simp only [ih rest (hS xs rest hxs (hp.suffix hvalue))]

theorem many (hS : KeepsRest S) (hp : Remains p) (h : AgreeOn S p q) :
    AgreeOn S (Parser.many p) (Parser.many q) :=
  fun xs => h.upTo hS hp _ xs

/-- Braces look at what they enclose behind the opening one. -/
theorem braced (h : AgreeOn (BehindBrace S) p q) :
    AgreeOn S (Parser.braced p) (Parser.braced q) := by
  intro xs hxs
  cases xs with
  | nil => rfl
  | cons x xs =>
      rw [Confined.braced_cons, Confined.braced_cons]
      split
      · next hx => rw [h xs ⟨x, hx, hxs⟩]
      · rfl

/-- An entry uses a body only where an opening brace has just been read. -/
theorem bodyEntry (hS : KeepsRest S) {scope : Scope} {inner inner' : Parser (List Entry)}
    (h : AgreeOn (BehindBrace S) inner inner') :
    AgreeOn S (bodyEntry scope inner) (bodyEntry scope inner') := by
  have named {κ : Type} {opening : Parser κ} {heading : κ → String → Heading}
      (hopening : Remains opening) :
      AgreeOn S (namedDeclaration opening heading inner)
        (namedDeclaration opening heading inner') :=
    located (bind hS hopening fun _ => bind hS Remains.token fun _ =>
      bind hS (Remains.many Remains.headingToken) fun _ => bind_pure (optional (braced h)))
  have unknown : AgreeOn S (unknownBlock inner) (unknownBlock inner') :=
    located (bind hS Remains.token fun _ => bind hS (Remains.many Remains.headingToken) fun _ =>
      bind_pure (braced h))
  exact orElse (map (named .token)) <| orElse (map (named .token)) <|
    orElse (map (named .token)) <| orElse (map (named .token)) <| orElse (map (named .token)) <|
    orElse refl <| orElse (map unknown) <| orElse refl refl

end AgreeOn

/-! ## Recursion -/

/-- Two depths that cover the input are the same. -/
theorem Agree.unfold {step : Parser α → Parser α}
    (hstep : ∀ n p q, Remains p → (∀ k < n, Agree k p q) → Agree n (step p) (step q))
    (hremains : ∀ p, Remains p → Remains (step p)) {depth depth' : Nat} (hdepth : n < depth)
    (hdepth' : n < depth') : Agree n (Parser.unfold step depth) (Parser.unfold step depth') := by
  induction n using Nat.strongRecOn generalizing depth depth' with
  | ind n ih =>
      obtain ⟨depth, rfl⟩ : ∃ d, depth = d + 1 := ⟨depth - 1, by omega⟩
      obtain ⟨depth', rfl⟩ : ∃ d, depth' = d + 1 := ⟨depth' - 1, by omega⟩
      exact hstep n _ _ (.unfold hremains depth) fun k hk => ih k hk (by omega) (by omega)

/-- A parser that uses itself behind a brace is what it is made of. -/
theorem nested_eq {step : Parser α → Parser α}
    (hstep : ∀ n p q, Remains p → (∀ k < n, Agree k p q) → Agree n (step p) (step q))
    (hremains : ∀ p, Remains p → Remains (step p)) (xs : List Lexeme) :
    Parser.nested step xs = step (Parser.nested step) xs := by
  refine hstep xs.length _ _ (.unfold hremains xs.length) (fun k hk ys hys => ?_) xs (Nat.le_refl _)
  exact Agree.unfold hstep hremains (Nat.lt_of_le_of_lt hys hk) (Nat.lt_succ_self _) ys
    (Nat.le_refl _)

theorem Agree.bodyEntry {n : Nat} {scope : Scope} {inner inner' : Parser (List Entry)}
    (h : ∀ k < n, Agree k inner inner') :
    Agree n (bodyEntry scope inner) (bodyEntry scope inner') :=
  AgreeOn.bodyEntry (.length_le n) fun xs ⟨_, _, hlength⟩ => h xs.length hlength xs (Nat.le_refl _)

/-- A body is entries, whose bodies are such bodies again. -/
theorem body_eq (scope : Scope) (xs : List Lexeme) :
    body scope xs = ((fun entries => entries.filterMap id) <$>
      Parser.many (bodyEntry scope (body scope))) xs :=
  nested_eq
    (fun n _ _ hp h => AgreeOn.map (AgreeOn.many (.length_le n) (Remains.bodyEntry hp)
      (Agree.bodyEntry h)))
    (fun _ hp => Remains.map (Remains.many (Remains.bodyEntry hp))) xs

end Landscape.Grammar
