import Landscape.Grammar.Parser

/-!
# Two readings side by side

Moving the lexemes of a text, and not one token of it, moves the spans in what
is read from it and changes nothing else. That is a statement about two runs of
one parser, and it is proved of two runs in lockstep: on inputs with the same
tokens both succeed or both fail, with as much left to read and the same
expectations (`Alike`).

What the two values have in common is a relation of its own, since a parser may
go on with what it has read so far. At the end it is always that the values are
the same to a function that forgets places. Spans come in at `located` alone,
which therefore asks for a relation that holds whatever the spans are.

The length of the input decides how often a repetition may go round and how deep
a body may be nested. It is the same in both runs because the tokens are.
-/

namespace Landscape.Grammar

variable {α β γ δ : Type}

/-! ## Failures and replies -/

/-- A failure apart from places: the tokens that were still unread and what was
expected in place of the first of them. -/
def Failure.unplaced (f : Failure) : List Token × List Expectation :=
  (f.rest.map Lexeme.token, f.expected)

namespace Failure

variable {f f' g g' : Failure}

theorem length_rest_eq (h : f.unplaced = g.unplaced) : f.rest.length = g.rest.length := by
  simpa [unplaced] using congrArg (fun x => x.1.length) h

theorem expected_eq (h : f.unplaced = g.unplaced) : f.expected = g.expected :=
  congrArg Prod.snd h

theorem unplaced_furthest (hf : f.unplaced = f'.unplaced) (hg : g.unplaced = g'.unplaced) :
    (f.furthest g).unplaced = (f'.furthest g').unplaced := by
  have htokens : f.rest.map Lexeme.token = f'.rest.map Lexeme.token := congrArg Prod.fst hf
  rw [furthest, furthest, length_rest_eq hf, length_rest_eq hg]
  split
  · exact hf
  · split
    · exact hg
    · simp only [unplaced, htokens, expected_eq hf, expected_eq hg]

theorem unplaced_merge {a a' b b' : Option Failure}
    (ha : a.map unplaced = a'.map unplaced) (hb : b.map unplaced = b'.map unplaced) :
    (merge a b).map unplaced = (merge a' b').map unplaced := by
  cases a with
  | none =>
      obtain rfl : a' = none := by simpa using ha.symm
      exact hb
  | some f =>
      obtain ⟨f', rfl, hf⟩ := Option.map_eq_some_iff.1 ha.symm
      cases b with
      | none =>
          obtain rfl : b' = none := by simpa using hb.symm
          exact ha
      | some g =>
          obtain ⟨g', rfl, hg⟩ := Option.map_eq_some_iff.1 hb.symm
          exact congrArg some (unplaced_furthest hf.symm hg.symm)

theorem message_eq (h : f.unplaced = g.unplaced) : f.message = g.message := by
  have htokens : f.rest.map Lexeme.token = g.rest.map Lexeme.token := congrArg Prod.fst h
  rw [message, message]
  cases hf : f.rest <;> cases hg : g.rest <;> simp_all

end Failure

/-- Two replies that differ in places, and in what `R` lets the values differ. -/
inductive Reply.Alike (R : α → β → Prop) : Reply α → Reply β → Prop
  | ok {v w xs ys a b} (value : R v w) (rest : xs.map Lexeme.token = ys.map Lexeme.token)
      (doubt : Option.map Failure.unplaced a = Option.map Failure.unplaced b) :
      Alike R (.ok v xs a) (.ok w ys b)
  | fail {f g} (failure : Failure.unplaced f = Failure.unplaced g) : Alike R (.fail f) (.fail g)

theorem Reply.Alike.after {R : α → β → Prop} {r : Reply α} {s : Reply β}
    {doubt doubt' : Option Failure} (h : Reply.Alike R r s)
    (hdoubt : doubt.map Failure.unplaced = doubt'.map Failure.unplaced) :
    Reply.Alike R (r.after doubt) (s.after doubt') := by
  cases h with
  | ok value rest later => exact .ok value rest (Failure.unplaced_merge hdoubt later)
  | fail failure =>
      refine .fail ?_
      cases doubt with
      | none =>
          obtain rfl : doubt' = none := by simpa using hdoubt.symm
          exact failure
      | some f =>
          obtain ⟨f', rfl, hf⟩ := Option.map_eq_some_iff.1 hdoubt.symm
          exact Failure.unplaced_furthest failure hf.symm

/-! ## Parsers -/

/-- On inputs with the same tokens, two parsers say the same apart from places. -/
def Alike (p : Parser α) (q : Parser β) (R : α → β → Prop) : Prop :=
  ∀ xs ys : List Lexeme, xs.map Lexeme.token = ys.map Lexeme.token → (p xs).Alike R (q ys)

/-- What `u` sees of the value that a parser gives is the same wherever the
tokens stand. -/
def Unmoved (p : Parser α) (u : α → γ) : Prop :=
  Alike p p fun v w => u v = u w

theorem length_eq_of_tokens_eq {xs ys : List Lexeme}
    (h : xs.map Lexeme.token = ys.map Lexeme.token) : xs.length = ys.length := by
  simpa using congrArg List.length h

namespace Alike

variable {p : Parser α} {q : Parser β} {R : α → β → Prop}

theorem imp {S : α → β → Prop} (h : Alike p q R) (himp : ∀ v w, R v w → S v w) :
    Alike p q S := by
  intro xs ys htokens
  have hreply := h xs ys htokens
  generalize p xs = r, q ys = s at hreply ⊢
  cases hreply with
  | ok value rest doubt => exact .ok (himp _ _ value) rest doubt
  | fail failure => exact .fail failure

/-! ## Sequences -/

theorem pure {v : α} {w : β} (h : R v w) : Alike (Pure.pure v) (Pure.pure w) R :=
  fun _ _ htokens => .ok h htokens rfl

theorem bind {next : α → Parser γ} {next' : β → Parser δ} {S : γ → δ → Prop}
    (hp : Alike p q R) (hnext : ∀ v w, R v w → Alike (next v) (next' w) S) :
    Alike (p >>= next) (q >>= next') S := by
  intro xs ys htokens
  change (Parser.andThen p next xs).Alike S (Parser.andThen q next' ys)
  rw [Parser.andThen, Parser.andThen]
  have hreply := hp xs ys htokens
  generalize p xs = r, q ys = s at hreply ⊢
  cases hreply with
  | ok value rest doubt => exact (hnext _ _ value _ _ rest).after doubt
  | fail failure => exact .fail failure

/-- A sequence that ends with what is made of the last part. -/
theorem bind_pure {f : α → γ} {g : β → δ} {S : γ → δ → Prop}
    (h : Alike p q fun v w => S (f v) (g w)) :
    Alike (p >>= fun v => Pure.pure (f v)) (q >>= fun w => Pure.pure (g w)) S :=
  bind h fun _ _ => pure

theorem map {f : α → γ} {g : β → δ} {S : γ → δ → Prop}
    (h : Alike p q fun v w => S (f v) (g w)) : Alike (f <$> p) (g <$> q) S :=
  bind_pure h

theorem located {p : Parser (Span → α)} {q : Parser (Span → β)}
    (h : Alike p q fun f g => ∀ s t, R (f s) (g t)) :
    Alike (Parser.located p) (Parser.located q) R := by
  intro xs ys htokens
  rw [Parser.located, Parser.located]
  have hreply := h xs ys htokens
  generalize p xs = r, q ys = s at hreply ⊢
  cases hreply with
  | ok value rest doubt => exact .ok (value _ _) rest doubt
  | fail failure => exact .fail failure

end Alike

namespace Unmoved

variable {p q : Parser α} {u : α → γ}

/-! ## Single tokens -/

theorem token {accept : Token → Option α} {expected : List Expectation} :
    Unmoved (Parser.token accept expected) u := by
  intro xs ys htokens
  cases xs with
  | nil =>
      obtain rfl := List.map_eq_nil_iff.1 htokens.symm
      exact .fail rfl
  | cons x xs =>
      obtain ⟨y, ys, rfl, hy, hys⟩ := List.map_eq_cons_iff.1 htokens.symm
      rw [Parser.token, Parser.token, ← hy]
      split
      · exact .ok rfl hys.symm rfl
      · exact .fail (Prod.ext htokens rfl)

theorem exactly {t : Token} {u : Unit → γ} : Unmoved (Parser.exactly t) u := by
  intro xs ys htokens
  cases xs with
  | nil =>
      obtain rfl := List.map_eq_nil_iff.1 htokens.symm
      exact .fail rfl
  | cons x xs =>
      obtain ⟨y, ys, rfl, hy, hys⟩ := List.map_eq_cons_iff.1 htokens.symm
      rw [Parser.exactly, Parser.exactly, ← hy]
      split
      · exact .ok rfl hys.symm rfl
      · exact .fail (Prod.ext htokens rfl)

theorem endOfInput {u : Unit → γ} : Unmoved Parser.endOfInput u := by
  intro xs ys htokens
  cases xs with
  | nil =>
      obtain rfl := List.map_eq_nil_iff.1 htokens.symm
      exact .ok rfl rfl rfl
  | cons x xs =>
      obtain ⟨y, ys, rfl, -, -⟩ := List.map_eq_cons_iff.1 htokens.symm
      exact .fail (Prod.ext htokens rfl)

/-! ## Choice -/

theorem orElse (hp : Unmoved p u) (hq : Unmoved q u) : Unmoved (Parser.orElse p q) u := by
  intro xs ys htokens
  rw [Parser.orElse, Parser.orElse]
  have hreply := hp xs ys htokens
  generalize p xs = r, p ys = s at hreply ⊢
  cases hreply with
  | ok value rest doubt => exact .ok value rest doubt
  | fail failure =>
      have hreply := hq xs ys htokens
      generalize q xs = r, q ys = s at hreply ⊢
      cases hreply with
      | ok value rest doubt => exact .ok value rest doubt
      | fail failure' => exact .fail (Failure.unplaced_furthest failure failure')

theorem firstOf {ps : List (Parser α)} (h : ∀ p ∈ ps, Unmoved p u) :
    Unmoved (Parser.firstOf ps) u := by
  induction ps with
  | nil => exact fun xs ys htokens => .fail (Prod.ext htokens rfl)
  | cons p ps ih =>
      exact orElse (h p List.mem_cons_self) (ih fun q hq => h q (List.mem_cons_of_mem p hq))

theorem optional (hp : Unmoved p u) : Unmoved (Parser.optional p) (Option.map u) := by
  intro xs ys htokens
  rw [Parser.optional, Parser.optional]
  have hreply := hp xs ys htokens
  generalize p xs = r, p ys = s at hreply ⊢
  cases hreply with
  | ok value rest doubt => exact .ok (congrArg some value) rest doubt
  | fail failure => exact .ok rfl htokens (congrArg some failure)

/-! ## Repetition and recursion -/

theorem many (hp : Unmoved p u) : Unmoved (Parser.many p) (List.map u) := by
  have upTo (limit : Nat) : Unmoved (Parser.upTo p limit) (List.map u) := by
    induction limit with
    | zero => exact Alike.pure rfl
    | succ limit ih =>
        intro xs ys htokens
        simp only [Parser.upTo]
        have hreply := hp xs ys htokens
        generalize p xs = r, p ys = s at hreply ⊢
        cases hreply with
        | fail failure => exact .ok rfl htokens (congrArg some failure)
        | @ok _ _ xs' ys' _ _ value rest doubt =>
            have hreplies := ih _ _ rest
            dsimp only
            generalize Parser.upTo p limit xs' = r, Parser.upTo p limit ys' = s at hreplies ⊢
            cases hreplies with
            | fail failure => exact .fail failure
            | ok values final later =>
                refine .ok ?_ final (Failure.unplaced_merge doubt later)
                rw [List.map_cons, List.map_cons, value, values]
  intro xs ys htokens
  rw [Parser.many, Parser.many, length_eq_of_tokens_eq htokens]
  exact upTo _ xs ys htokens

theorem separated (hp : Unmoved p u) : Unmoved (Parser.separated p) (List.map u) := by
  refine Alike.bind hp fun first first' hfirst => ?_
  refine Alike.bind_pure ((many (Alike.bind (exactly (u := id)) fun _ _ _ => hp)).imp
    fun others others' hothers => ?_)
  rw [List.map_cons, List.map_cons, hfirst, hothers]

theorem between {opening closing : Token} (hp : Unmoved p u) :
    Unmoved (Parser.between opening closing p) u := by
  refine Alike.bind (exactly (u := id)) fun _ _ _ => Alike.bind hp fun v w h => ?_
  exact Alike.bind_pure ((exactly (u := id)).imp fun _ _ _ => h)

theorem nested {step : Parser α → Parser α}
    (h : ∀ inner, Unmoved inner u → Unmoved (step inner) u) :
    Unmoved (Parser.nested step) u := by
  have unfold (depth : Nat) : Unmoved (Parser.unfold step depth) u := by
    induction depth with
    | zero => exact fun xs ys htokens => .fail (Prod.ext htokens rfl)
    | succ depth ih => exact h _ ih
  intro xs ys htokens
  rw [Parser.nested, Parser.nested, length_eq_of_tokens_eq htokens]
  exact unfold _ xs ys htokens

end Unmoved

end Landscape.Grammar
