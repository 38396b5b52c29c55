import Landscape.Proofs.Grammar.Splits

/-!
# What parsers have read

`Reads` says of given tokens that they are read. This is the other direction:
something is known of every stretch of lexemes that a parser has read, whatever
it was and whatever is left after it (`Consumes`). The rules are those for the
split of the input, with nothing said of what is left.
-/

namespace Landscape.Grammar

variable {α β : Type}

/-- Whenever a parser succeeds it has read the front of its input, and `P` holds
of what it has read and of its value. -/
def Consumes (p : Parser α) (P : List Lexeme → α → Prop) : Prop :=
  ∀ input value rest doubt, p input = .ok value rest doubt →
    ∃ read, input = read ++ rest ∧ P read value

namespace Consumes

variable {p q : Parser α} {P : List Lexeme → α → Prop}

theorem imp {Q : List Lexeme → α → Prop} (h : Consumes p P)
    (himp : ∀ read value, P read value → Q read value) : Consumes p Q :=
  Splits.imp h fun read _ => himp read

/-- What a parser has read is the same, however much is known of it. -/
theorem and {Q : List Lexeme → α → Prop} (hP : Consumes p P) (hQ : Consumes p Q) :
    Consumes p fun read value => P read value ∧ Q read value := by
  intro input value rest doubt h
  obtain ⟨read, rfl, hread⟩ := hP _ _ _ _ h
  obtain ⟨read', heq, hread'⟩ := hQ _ _ _ _ h
  obtain rfl := List.append_cancel_right heq
  exact ⟨read, rfl, hread, hread'⟩

/-! ## Sequences -/

theorem pure {value : α} (h : P [] value) : Consumes (Pure.pure value) P :=
  Splits.pure fun _ => h

theorem bind {next : α → Parser β} {Q : List Lexeme → β → Prop} (hp : Consumes p P)
    (hnext : ∀ read value, P read value →
      Consumes (next value) fun read' => Q (read ++ read')) :
    Consumes (p >>= next) Q :=
  Splits.bind hp fun read value _ hP => Splits.imp (hnext read value hP) fun _ _ _ hQ _ => hQ

/-- A sequence that ends with what is made of the last part. -/
theorem bind_pure {f : α → β} {Q : List Lexeme → β → Prop}
    (h : Consumes p fun read value => Q read (f value)) :
    Consumes (p >>= fun value => Pure.pure (f value)) Q :=
  Splits.bind_pure h

theorem map {f : α → β} {Q : List Lexeme → β → Prop}
    (h : Consumes p fun read value => Q read (f value)) : Consumes (f <$> p) Q :=
  Splits.map h

theorem spanned {p : Parser (Span → α)}
    (h : Consumes p fun read f => P read (f (spanOf read))) : Consumes (Parser.located p) P :=
  Splits.located h

theorem located {p : Parser (Span → α)}
    (h : Consumes p fun read f => ∀ span, P read (f span)) :
    Consumes (Parser.located p) P :=
  spanned (h.imp fun _ _ hP => hP _)

/-! ## Single tokens -/

theorem token {accept : Token → Option α} {expected : List Expectation}
    (h : ∀ found value, accept found.token = some value → P [found] value) :
    Consumes (Parser.token accept expected) P :=
  Splits.token fun found _ => h found

theorem exactly {t : Token} {P : List Lexeme → Unit → Prop}
    (h : ∀ found : Lexeme, found.token = t → P [found] ()) :
    Consumes (Parser.exactly t) P :=
  Splits.exactly fun found _ => h found

theorem between {opening closing : Token} (hp : Consumes p P) :
    Consumes (Parser.between opening closing p) fun read value =>
      ∃ first inside last, read = first :: (inside ++ [last]) ∧ first.token = opening ∧
        last.token = closing ∧ P inside value :=
  Splits.between hp

/-! ## Choice -/

theorem orElse (hp : Consumes p P) (hq : Consumes q P) :
    Consumes (Parser.orElse p q) P :=
  Splits.orElse hp hq

theorem firstOf {ps : List (Parser α)} (h : ∀ p ∈ ps, Consumes p P) :
    Consumes (Parser.firstOf ps) P :=
  Splits.firstOf h

theorem optional {P : List Lexeme → Option α → Prop}
    (h : Consumes p fun read value => P read (some value)) (hnone : P [] none) :
    Consumes (Parser.optional p) P :=
  Splits.optional h fun _ => hnone

/-! ## Repetition and recursion -/

/-- What holds of nothing, and goes on to hold with one more item in front,
holds of any number of items. -/
theorem many {P : List Lexeme → List α → Prop} {item : List Lexeme → α → Prop}
    (hp : Consumes p item) (hnil : P [] [])
    (hcons : ∀ first value others values, item first value → P others values →
      P (first ++ others) (value :: values)) :
    Consumes (Parser.many p) P :=
  Splits.many hp (fun _ => hnil) fun first value others _ => hcons first value others

/-- Items with commas between them. -/
theorem separated {item : List Lexeme → α → Prop}
    {P : List Lexeme → List α → Prop} (hp : Consumes p item)
    (hone : ∀ first value, item first value → P first [value])
    (hmore : ∀ first value comma others values, item first value →
      comma.token = Token.comma → P others values →
      P (first ++ comma :: others) (value :: values)) :
    Consumes (Parser.separated p) P := by
  have comma : Consumes (Parser.exactly .comma) fun read _ =>
      ∃ found, read = [found] ∧ found.token = Token.comma :=
    exactly fun found h => ⟨found, rfl, h⟩
  have next : Consumes (do Parser.exactly .comma; p) fun read value =>
      ∃ found later, read = found :: later ∧ found.token = Token.comma ∧ item later value := by
    refine bind comma ?_
    rintro _ _ ⟨found, rfl, hfound⟩
    exact hp.imp fun later value hlater => ⟨found, later, rfl, hfound, hlater⟩
  -- The items after a first one are known together with it.
  have others : Consumes (Parser.many (do Parser.exactly .comma; p)) fun read values =>
      ∀ first value, item first value → P (first ++ read) (value :: values) := by
    refine many next ?_ ?_
    · intro first value hfirst
      rw [List.append_nil]
      exact hone first value hfirst
    · rintro _ value others values ⟨found, later, rfl, hfound, hlater⟩ hothers first value' hfirst
      exact hmore first value' found _ _ hfirst hfound (hothers later value hlater)
  refine bind hp fun first value hfirst => bind_pure ?_
  exact others.imp fun read values hread => hread first value hfirst

theorem unfold {step : Parser α → Parser α}
    (h : ∀ inner, Consumes inner P → Consumes (step inner) P) (depth : Nat) :
    Consumes (Parser.unfold step depth) P :=
  Splits.unfold h depth

theorem nested {step : Parser α → Parser α}
    (h : ∀ inner, Consumes inner P → Consumes (step inner) P) :
    Consumes (Parser.nested step) P :=
  Splits.nested h

end Consumes

/-! ## Whole documents -/

theorem document_eq (lexemes : List Lexeme) :
    document lexemes =
      match Parser.many element lexemes with
      | .ok elements [] doubt => .ok ⟨elements⟩ [] doubt
      | .ok _ (found :: rest) doubt => (Reply.fail ⟨found :: rest, [.endOfInput]⟩).after doubt
      | .fail failure => .fail failure := by
  change Parser.andThen (Parser.many element) _ lexemes = _
  rw [Parser.andThen]
  rcases Parser.many element lexemes with ⟨elements, _ | ⟨found, rest⟩, doubt⟩ | failure
  · cases doubt <;> rfl
  · rfl
  · rfl

end Landscape.Grammar

namespace Landscape

/-- A document is what the elements are that use up the lexemes. -/
theorem Document.ofLexemes_eq_ok_iff {lexemes : List Lexeme} {d : Document} :
    Document.ofLexemes lexemes = .ok d ↔
      ∃ doubt, Grammar.Parser.many Grammar.element lexemes = .ok d.elements [] doubt := by
  obtain ⟨elements⟩ := d
  rw [Document.ofLexemes, Grammar.document_eq]
  rcases Grammar.Parser.many Grammar.element lexemes with
    ⟨found, _ | ⟨next, rest⟩, doubt⟩ | failure
  · simp
  · cases doubt <;> simp [Grammar.Reply.after]
  · simp

end Landscape
