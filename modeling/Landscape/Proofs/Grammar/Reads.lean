import Landscape.Grammar.Parser

/-!
# What parsers read

Whether a parser takes some tokens depends on what comes after them, because an
optional part or a repetition stops where it cannot go on. So the statement that
is put together here has three parties: the tokens that are read, the tokens
after them, and a condition on the value (`Reads`). Its counterpart is that a
parser fails on some tokens (`Refuses`); that is what has to be known of an
alternative for a later one to be reached, and of an item for a repetition to
end. Spans take no part: both statements are about all lexemes with these
tokens, and a condition that mentions no span is all that can be shown.

There is one rule for each way in which a combinator can go, and parsers are put
together from combinators, so what a parser reads is put together from rules. A
repetition has the only rule with an argument in it, an induction on the items.
-/

namespace Landscape.Grammar

variable {α β : Type}

/-- In front of the tokens `after`, a parser reads the tokens `ts` and gives a
value of which `P` holds. -/
def Reads (p : Parser α) (ts after : List Token) (P : α → Prop) : Prop :=
  ∀ read rest, read.map Lexeme.token = ts → rest.map Lexeme.token = after →
    ∃ value doubt, p (read ++ rest) = .ok value rest doubt ∧ P value

/-- A parser fails on the tokens `ts`. -/
def Refuses (p : Parser α) (ts : List Token) : Prop :=
  ∀ input, input.map Lexeme.token = ts → ∃ failure, p input = .fail failure

variable {p q : Parser α} {ts us after : List Token} {P : α → Prop}

theorem Reads.imp {Q : α → Prop} (h : Reads p ts after P) (himp : ∀ v, P v → Q v) :
    Reads p ts after Q := by
  intro read rest hread hrest
  obtain ⟨value, doubt, hp, hP⟩ := h read rest hread hrest
  exact ⟨value, doubt, hp, himp value hP⟩

/-! ## Sequences -/

namespace Reads

theorem pure {value : α} (h : P value) : Reads (Pure.pure value) [] after P := by
  intro read rest hread hrest
  obtain rfl := List.map_eq_nil_iff.1 hread
  exact ⟨value, none, rfl, h⟩

theorem bind {next : α → Parser β} {Q : β → Prop} (hp : Reads p ts (us ++ after) P)
    (hnext : ∀ value, P value → Reads (next value) us after Q) :
    Reads (p >>= next) (ts ++ us) after Q := by
  intro read rest hread hrest
  obtain ⟨first, second, rfl, hfirst, hsecond⟩ := List.map_eq_append_iff.1 hread
  obtain ⟨value, doubt, hvalue, hP⟩ :=
    hp first (second ++ rest) hfirst (by rw [List.map_append, hsecond, hrest])
  obtain ⟨result, later, hresult, hQ⟩ := hnext value hP second rest hsecond hrest
  refine ⟨result, Failure.merge doubt later, ?_, hQ⟩
  show Parser.andThen p next (first ++ second ++ rest) = _
  rw [Parser.andThen, List.append_assoc, hvalue]
  simp only [hresult, Reply.after]

/-- A sequence that ends with what is made of the last part. -/
theorem bind_pure {f : α → β} {Q : β → Prop} (h : Reads p ts after fun v => Q (f v)) :
    Reads (p >>= fun v => Pure.pure (f v)) ts after Q := by
  rw [← List.append_nil ts]
  exact bind h fun _ hvalue => pure hvalue

theorem map {f : α → β} {Q : β → Prop} (h : Reads p ts after fun v => Q (f v)) :
    Reads (f <$> p) ts after Q :=
  bind_pure h

theorem located {p : Parser (Span → α)}
    (h : Reads p ts after fun f => ∀ span, P (f span)) :
    Reads (Parser.located p) ts after P := by
  intro read rest hread hrest
  obtain ⟨f, doubt, hp, hf⟩ := h read rest hread hrest
  refine ⟨f (Parser.spanBetween (read ++ rest) rest), doubt, ?_, hf _⟩
  rw [Parser.located, hp]

end Reads

namespace Refuses

theorem bind {next : α → Parser β} (hp : Refuses p ts) : Refuses (p >>= next) ts := by
  intro input hinput
  obtain ⟨failure, hfailure⟩ := hp input hinput
  refine ⟨failure, ?_⟩
  show Parser.andThen p next input = _
  rw [Parser.andThen, hfailure]

/-- A sequence fails where its second part does. -/
theorem bind_of_reads {next : α → Parser β} (hp : Reads p ts us P)
    (hnext : ∀ value, P value → Refuses (next value) us) :
    Refuses (p >>= next) (ts ++ us) := by
  intro input hinput
  obtain ⟨first, second, rfl, hfirst, hsecond⟩ := List.map_eq_append_iff.1 hinput
  obtain ⟨value, doubt, hvalue, hP⟩ := hp first second hfirst hsecond
  obtain ⟨failure, hfailure⟩ := hnext value hP second hsecond
  refine ⟨(doubt.map failure.furthest).getD failure, ?_⟩
  show Parser.andThen p next (first ++ second) = _
  rw [Parser.andThen, hvalue]
  simp only [hfailure, Reply.after]

theorem map {f : α → β} (h : Refuses p ts) : Refuses (f <$> p) ts :=
  bind h

theorem located {p : Parser (Span → α)} (h : Refuses p ts) :
    Refuses (Parser.located p) ts := by
  intro input hinput
  obtain ⟨failure, hfailure⟩ := h input hinput
  exact ⟨failure, by rw [Parser.located, hfailure]⟩

end Refuses

/-! ## Single tokens -/

section

variable {accept : Token → Option α} {expected : List Expectation} {t : Token}

theorem Reads.token {value : α} (ht : accept t = some value) (h : P value) :
    Reads (Parser.token accept expected) [t] after P := by
  intro read rest hread hrest
  obtain ⟨found, rfl, rfl⟩ := List.map_eq_singleton_iff.1 hread
  refine ⟨value, none, ?_, h⟩
  rw [List.singleton_append, Parser.token]
  simp only [ht]

theorem Refuses.token (h : ∀ t ∈ ts.head?, accept t = none) :
    Refuses (Parser.token accept expected) ts := by
  intro input hinput
  cases input with
  | nil => exact ⟨_, rfl⟩
  | cons found rest =>
      subst hinput
      refine ⟨⟨found :: rest, expected⟩, ?_⟩
      rw [Parser.token, h found.token rfl]

theorem Reads.exactly : Reads (Parser.exactly t) [t] after fun _ => True := by
  intro read rest hread hrest
  obtain ⟨found, rfl, rfl⟩ := List.map_eq_singleton_iff.1 hread
  exact ⟨(), none, if_pos rfl, trivial⟩

theorem Refuses.exactly (h : ts.head? ≠ some t) : Refuses (Parser.exactly t) ts := by
  intro input hinput
  cases input with
  | nil => exact ⟨_, rfl⟩
  | cons found rest =>
      subst hinput
      have hfound : found.token ≠ t := by
        rintro rfl
        exact h rfl
      exact ⟨_, if_neg hfound⟩

/-- A sequence that starts with one token. -/
theorem Reads.token_bind {v : α} {next : α → Parser β} {Q : β → Prop}
    (ht : accept t = some v) (h : Reads (next v) ts after Q) :
    Reads (Parser.token accept expected >>= next) (t :: ts) after Q :=
  bind (token ht rfl) fun _ heq => heq ▸ h

theorem Reads.exactly_bind {next : Unit → Parser β} {Q : β → Prop}
    (h : Reads (next ()) ts after Q) :
    Reads (Parser.exactly t >>= next) (t :: ts) after Q :=
  bind exactly fun _ _ => h

theorem Refuses.token_bind {next : α → Parser β}
    (h : ∀ value, accept t = some value → Refuses (next value) ts) :
    Refuses (Parser.token accept expected >>= next) (t :: ts) := by
  cases ht : accept t with
  | none =>
      refine bind (token fun t' ht' => ?_)
      obtain rfl := Option.some.inj ht'
      exact ht
  | some value => exact bind_of_reads (Reads.token ht rfl) fun _ heq => heq ▸ h value ht

theorem Refuses.exactly_bind {next : Unit → Parser β} {t' : Token}
    (h : t' = t → Refuses (next ()) ts) :
    Refuses (Parser.exactly t >>= next) (t' :: ts) := by
  by_cases ht : t' = t
  · subst ht
    exact bind_of_reads Reads.exactly fun _ _ => h rfl
  · exact bind (exactly fun heq => ht (Option.some.inj heq))

end

theorem Reads.endOfInput : Reads Parser.endOfInput [] [] fun _ => True := by
  intro read rest hread hrest
  obtain rfl := List.map_eq_nil_iff.1 hread
  obtain rfl := List.map_eq_nil_iff.1 hrest
  exact ⟨(), none, rfl, trivial⟩

/-! ## Choice -/

namespace Reads

variable {ps : List (Parser α)}

theorem orElse_left (h : Reads p ts after P) : Reads (Parser.orElse p q) ts after P := by
  intro read rest hread hrest
  obtain ⟨value, doubt, hp, hP⟩ := h read rest hread hrest
  exact ⟨value, doubt, by rw [Parser.orElse, hp], hP⟩

theorem orElse_right (hp : Refuses p (ts ++ after)) (hq : Reads q ts after P) :
    Reads (Parser.orElse p q) ts after P := by
  intro read rest hread hrest
  obtain ⟨failure, hfailure⟩ :=
    hp (read ++ rest) (by rw [List.map_append, hread, hrest])
  obtain ⟨value, doubt, hvalue, hP⟩ := hq read rest hread hrest
  refine ⟨value, doubt, ?_, hP⟩
  rw [Parser.orElse, hfailure]
  simp only [hvalue]

theorem firstOf_head (h : Reads p ts after P) :
    Reads (Parser.firstOf (p :: ps)) ts after P :=
  orElse_left h

theorem firstOf_tail (hp : Refuses p (ts ++ after))
    (h : Reads (Parser.firstOf ps) ts after P) :
    Reads (Parser.firstOf (p :: ps)) ts after P :=
  orElse_right hp h

theorem firstOf_append {qs : List (Parser α)} (hps : ∀ p ∈ ps, Refuses p (ts ++ after))
    (h : Reads (Parser.firstOf qs) ts after P) :
    Reads (Parser.firstOf (ps ++ qs)) ts after P := by
  induction ps with
  | nil => exact h
  | cons p ps ih =>
      refine firstOf_tail (hps p (by simp)) (ih fun p' hp' => ?_)
      exact hps p' (List.mem_cons_of_mem p hp')

theorem optional_some (h : Reads p ts after fun v => Q (some v)) :
    Reads (Parser.optional p) ts after Q := by
  intro read rest hread hrest
  obtain ⟨value, doubt, hp, hQ⟩ := h read rest hread hrest
  exact ⟨some value, doubt, by rw [Parser.optional, hp], hQ⟩

theorem optional_none {Q : Option α → Prop} (hp : Refuses p after) (h : Q none) :
    Reads (Parser.optional p) [] after Q := by
  intro read rest hread hrest
  obtain rfl := List.map_eq_nil_iff.1 hread
  obtain ⟨failure, hfailure⟩ := hp rest hrest
  exact ⟨none, some failure, by rw [List.nil_append, Parser.optional, hfailure], h⟩

end Reads

namespace Refuses

theorem orElse (hp : Refuses p ts) (hq : Refuses q ts) :
    Refuses (Parser.orElse p q) ts := by
  intro input hinput
  obtain ⟨a, ha⟩ := hp input hinput
  obtain ⟨b, hb⟩ := hq input hinput
  refine ⟨a.furthest b, ?_⟩
  rw [Parser.orElse, ha]
  simp only [hb]

theorem firstOf {ps : List (Parser α)} (h : ∀ p ∈ ps, Refuses p ts) :
    Refuses (Parser.firstOf ps) ts := by
  induction ps with
  | nil => exact fun input _ => ⟨⟨input, []⟩, rfl⟩
  | cons p ps ih =>
      exact orElse (h p (by simp)) (ih fun p' hp' => h p' (List.mem_cons_of_mem p hp'))

theorem firstOf_append {ps qs : List (Parser α)} (hps : ∀ p ∈ ps, Refuses p ts)
    (hqs : ∀ q ∈ qs, Refuses q ts) : Refuses (Parser.firstOf (ps ++ qs)) ts :=
  firstOf fun p hp => (List.mem_append.1 hp).elim (hps p) (hqs p)

end Refuses

/-! ## Repetition

Each item is read in front of the items after it, and the parser refuses what
comes after the last one. What is known of the values is what is known of each:
seen through `u` they are the items seen through `w`. -/

section

variable {ι γ : Type} {t : ι → List Token} {u : α → γ} {w : ι → γ}

theorem Reads.upTo {items : List ι} (hitem : ∀ i later, i :: later <:+ items →
      Reads p (t i) (later.flatMap t ++ after) fun v => u v = w i)
    (hend : Refuses p after) {limit : Nat} (hlimit : items.length < limit) :
    Reads (Parser.upTo p limit) (items.flatMap t) after
      fun vs => vs.map u = items.map w := by
  induction items generalizing limit with
  | nil =>
      obtain ⟨limit, rfl⟩ : ∃ n, limit = n + 1 := ⟨limit - 1, by simp at hlimit; omega⟩
      intro read rest hread hrest
      obtain rfl := List.map_eq_nil_iff.1 hread
      obtain ⟨failure, hfailure⟩ := hend rest hrest
      refine ⟨[], some failure, ?_, rfl⟩
      rw [List.nil_append, Parser.upTo]
      simp only [hfailure]
  | cons i later ih =>
      obtain ⟨limit, rfl⟩ : ∃ n, limit = n + 1 := ⟨limit - 1, by simp at hlimit; omega⟩
      intro read rest hread hrest
      rw [List.flatMap_cons, List.map_eq_append_iff] at hread
      obtain ⟨first, second, rfl, hfirst, hsecond⟩ := hread
      obtain ⟨value, doubt, hvalue, hu⟩ := hitem i later (List.suffix_refl _) first
        (second ++ rest) hfirst (by rw [List.map_append, hsecond, hrest])
      have hlater := ih
        (fun j rest hj => hitem j rest (hj.trans (List.suffix_cons i later)))
        (Nat.lt_of_succ_lt_succ hlimit)
      obtain ⟨values, doubts, hvalues, hus⟩ := hlater second rest hsecond hrest
      refine ⟨value :: values, Failure.merge doubt doubts, ?_, ?_⟩
      · rw [List.append_assoc, Parser.upTo]
        simp only [hvalue, hvalues]
      · show u value :: values.map u = w i :: later.map w
        rw [hu, hus]

theorem length_le_length_flatMap {items : List ι} (h : ∀ i ∈ items, t i ≠ []) :
    items.length ≤ (items.flatMap t).length := by
  induction items with
  | nil => exact Nat.le_refl 0
  | cons i items ih =>
      have hi := List.length_pos_iff.2 (h i (by simp))
      have hitems := ih fun j hj => h j (List.mem_cons_of_mem i hj)
      rw [List.flatMap_cons, List.length_append, List.length_cons]
      omega

theorem Reads.many {items : List ι} (hne : ∀ i ∈ items, t i ≠ [])
    (hitem : ∀ i later, i :: later <:+ items →
      Reads p (t i) (later.flatMap t ++ after) fun v => u v = w i)
    (hend : Refuses p after) :
    Reads (Parser.many p) (items.flatMap t) after fun vs => vs.map u = items.map w := by
  intro read rest hread hrest
  -- No item is empty, so there are no more items than tokens.
  have hlength := length_le_length_flatMap hne
  rw [← hread, List.length_map] at hlength
  refine upTo hitem hend ?_ read rest hread hrest
  rw [List.length_append]
  omega

theorem filterMap_id_map (u : α → γ) (vs : List (Option α)) :
    (vs.map (Option.map u)).filterMap id = (vs.filterMap id).map u := by
  rw [List.filterMap_map, List.map_filterMap]
  rfl

/-- What is known of values that may be passed over. -/
theorem map_filterMap_id {vs : List (Option α)} {items : List ι}
    (h : vs.map (Option.map u) = items.map fun i => some (w i)) :
    (vs.filterMap id).map u = items.map w := by
  rw [← filterMap_id_map, h, List.filterMap_map]
  exact congrFun List.filterMap_eq_map' items

/-- What does not start an item does not come right after one. -/
theorem head?_flatMap_append_ne {x : Token} {items : List ι}
    (h : ∀ i ∈ items, t i ≠ [] ∧ (t i).head? ≠ some x) (hafter : after.head? ≠ some x) :
    (items.flatMap t ++ after).head? ≠ some x := by
  cases items with
  | nil => exact hafter
  | cons i items =>
      obtain ⟨hne, hhead⟩ := h i (by simp)
      obtain ⟨first, rest, heq⟩ := List.exists_cons_of_ne_nil hne
      rw [heq] at hhead
      rw [List.flatMap_cons, heq]
      exact hhead

theorem Reads.between {opening closing : Token} (h : Reads p ts (closing :: after) P) :
    Reads (Parser.between opening closing p) (opening :: (ts ++ [closing])) after P :=
  exactly_bind (bind h fun _ hvalue => exactly_bind (pure hvalue))

end

/-! ## Recursion -/

/-- A parser that may use itself can be unfolded as often as there are tokens
to read. -/
theorem Reads.nested {step : Parser α → Parser α}
    (h : ∀ depth, ts.length < depth → Reads (Parser.unfold step depth) ts after P) :
    Reads (Parser.nested step) ts after P := by
  intro read rest hread hrest
  have hlength : ts.length = read.length := by rw [← hread, List.length_map]
  exact h _ (by rw [List.length_append]; omega) read rest hread hrest

end Landscape.Grammar
