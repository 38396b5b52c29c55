import Landscape.Grammar.Document

/-!
# What is left is the end of the input

A parser reads from the front. So what it leaves is the end of its input, and
that is as true of a failure, which keeps the lexemes it could not read, as of a
success (`Remains`). Nothing but this makes a failure point into the text: the
lexeme it complains about is one of the input, with the span that it had there.

A success that met a failure on the way keeps it as a doubt, and failures are
merged where alternatives meet. A merged failure keeps the rest of one of the
two, so the doubts have to be followed through every rule, though nothing new is
ever said about them.
-/

namespace Landscape.Grammar

variable {α β : Type}

/-! ## Failures and replies -/

/-- The unread lexemes of a failure are the end of the input. -/
def Failure.LeftOf (input : List Lexeme) (f : Failure) : Prop :=
  f.rest <:+ input

namespace Failure

variable {input : List Lexeme} {f g : Failure}

theorem LeftOf.furthest (hf : f.LeftOf input) (hg : g.LeftOf input) :
    (f.furthest g).LeftOf input := by
  rw [Failure.furthest]
  split
  · exact hf
  split
  · exact hg
  · exact hf

theorem leftOf_some (hf : f.LeftOf input) : ∀ g ∈ some f, g.LeftOf input := by
  rintro _ ⟨⟩
  exact hf

theorem leftOf_merge {a b : Option Failure} (ha : ∀ f ∈ a, f.LeftOf input)
    (hb : ∀ f ∈ b, f.LeftOf input) : ∀ f ∈ merge a b, f.LeftOf input := by
  cases a with
  | none => exact hb
  | some f =>
      cases b with
      | none => exact ha
      | some g => exact leftOf_some ((ha f rfl).furthest (hb g rfl))

end Failure

/-- Whatever a reply leaves unread is the end of the input. -/
inductive Reply.LeavesOf (input : List Lexeme) : Reply α → Prop
  | ok {value : α} {rest : List Lexeme} {doubt : Option Failure} (left : rest <:+ input)
      (doubted : ∀ f ∈ doubt, f.LeftOf input) : LeavesOf input (.ok value rest doubt)
  | fail {failure : Failure} (left : failure.LeftOf input) : LeavesOf input (.fail failure)

namespace Reply.LeavesOf

variable {input rest : List Lexeme} {reply : Reply α}

theorem of_suffix (h : reply.LeavesOf rest) (hrest : rest <:+ input) : reply.LeavesOf input := by
  cases h with
  | ok hleft hdoubted => exact .ok (hleft.trans hrest) fun f hf => (hdoubted f hf).trans hrest
  | fail hleft => exact .fail (hleft.trans hrest)

theorem after {doubt : Option Failure} (h : reply.LeavesOf input)
    (hdoubt : ∀ f ∈ doubt, f.LeftOf input) : (reply.after doubt).LeavesOf input := by
  cases h with
  | ok hleft hdoubted => exact .ok hleft (Failure.leftOf_merge hdoubt hdoubted)
  | fail hleft =>
      cases doubt with
      | none => exact .fail hleft
      | some f => exact .fail (hleft.furthest (hdoubt f rfl))

end Reply.LeavesOf

/-- A parser leaves the end of its input, whatever it says. -/
def Remains (p : Parser α) : Prop :=
  ∀ input, (p input).LeavesOf input

namespace Remains

variable {p q : Parser α}

/-! ## Combinators -/

theorem pure {value : α} : Remains (Pure.pure value) :=
  fun input => .ok (List.suffix_refl input) nofun

theorem bind {next : α → Parser β} (hp : Remains p) (hnext : ∀ value, Remains (next value)) :
    Remains (p >>= next) := by
  intro input
  show (Parser.andThen p next input).LeavesOf input
  have hinput := hp input
  rw [Parser.andThen]
  generalize p input = reply at hinput ⊢
  cases hinput with
  | ok hleft hdoubted => exact ((hnext _ _).of_suffix hleft).after hdoubted
  | fail hleft => exact .fail hleft

theorem map {f : α → β} (h : Remains p) : Remains (f <$> p) :=
  bind h fun _ => pure

theorem located {p : Parser (Span → α)} (h : Remains p) : Remains (Parser.located p) := by
  intro input
  have hinput := h input
  rw [Parser.located]
  generalize p input = reply at hinput ⊢
  cases hinput with
  | ok hleft hdoubted => exact .ok hleft hdoubted
  | fail hleft => exact .fail hleft

theorem token {accept : Token → Option α} {expected : List Expectation} :
    Remains (Parser.token accept expected)
  | [] => .fail (List.suffix_refl [])
  | found :: rest => by
      rw [Parser.token]
      split
      · exact .ok (List.suffix_cons found rest) nofun
      · exact .fail (List.suffix_refl _)

theorem exactly {t : Token} : Remains (Parser.exactly t)
  | [] => .fail (List.suffix_refl [])
  | found :: rest => by
      rw [Parser.exactly]
      split
      · exact .ok (List.suffix_cons found rest) nofun
      · exact .fail (List.suffix_refl _)

theorem endOfInput : Remains Parser.endOfInput
  | [] => .ok (List.suffix_refl []) nofun
  | _ :: _ => .fail (List.suffix_refl _)

theorem orElse (hp : Remains p) (hq : Remains q) : Remains (Parser.orElse p q) := by
  intro input
  have hfirst := hp input
  have hsecond := hq input
  rw [Parser.orElse]
  generalize p input = reply at hfirst ⊢
  generalize q input = reply' at hsecond ⊢
  cases hfirst with
  | ok hleft hdoubted => exact .ok hleft hdoubted
  | fail hleft =>
      cases hsecond with
      | ok hleft' hdoubted => exact .ok hleft' hdoubted
      | fail hleft' => exact .fail (hleft.furthest hleft')

theorem firstOf {ps : List (Parser α)} (h : ∀ p ∈ ps, Remains p) :
    Remains (Parser.firstOf ps) := by
  induction ps with
  | nil => exact fun input => .fail (List.suffix_refl input)
  | cons p ps ih =>
      obtain ⟨hp, hps⟩ := List.forall_mem_cons.1 h
      exact orElse hp (ih hps)

theorem optional (h : Remains p) : Remains (Parser.optional p) := by
  intro input
  have hinput := h input
  rw [Parser.optional]
  generalize p input = reply at hinput ⊢
  cases hinput with
  | ok hleft hdoubted => exact .ok hleft hdoubted
  | fail hleft => exact .ok (List.suffix_refl input) (Failure.leftOf_some hleft)

theorem upTo (h : Remains p) (limit : Nat) : Remains (Parser.upTo p limit) := by
  induction limit with
  | zero => exact pure
  | succ limit ih =>
      intro input
      have hinput := h input
      dsimp only [Parser.upTo]
      generalize p input = reply at hinput ⊢
      cases hinput with
      | fail hleft => exact .ok (List.suffix_refl input) (Failure.leftOf_some hleft)
      | @ok value rest doubt hleft hdoubted =>
          have hmore := (ih rest).of_suffix hleft
          dsimp only
          generalize p.upTo limit rest = reply at hmore ⊢
          cases hmore with
          | ok hleft' hdoubted' => exact .ok hleft' (Failure.leftOf_merge hdoubted hdoubted')
          | fail hleft' => exact .fail hleft'

theorem many (h : Remains p) : Remains (Parser.many p) :=
  fun input => h.upTo _ input

theorem separated (h : Remains p) : Remains (Parser.separated p) :=
  bind h fun _ => bind (many (bind exactly fun _ => h)) fun _ => pure

theorem between {opening closing : Token} (h : Remains p) :
    Remains (Parser.between opening closing p) :=
  bind exactly fun _ => bind h fun _ => bind exactly fun _ => pure

theorem nested {step : Parser α → Parser α} (h : ∀ p, Remains p → Remains (step p)) :
    Remains (Parser.nested step) := by
  have unfolded (depth : Nat) : Remains (Parser.unfold step depth) := by
    induction depth with
    | zero => exact fun input => .fail (List.suffix_refl input)
    | succ depth ih => exact h _ ih
  exact fun input => unfolded _ input

/-! ## Rules -/

theorem reference : Remains reference :=
  located (bind token fun _ => pure)

theorem references : Remains references :=
  separated reference

theorem attributeSetting : Remains attributeSetting :=
  located (bind token fun _ => bind exactly fun _ => bind (separated token) fun _ => pure)

theorem roles : Remains roles :=
  between (separated token)

theorem headingToken : Remains headingToken := by
  intro input
  rw [Grammar.headingToken]
  split
  · exact .fail (List.suffix_refl input)
  · exact token input

variable {inner : Parser (List Entry)}

theorem namedDeclaration {opening : Parser α} {heading : α → String → Heading}
    (hopening : Remains opening) (hinner : Remains inner) :
    Remains (namedDeclaration opening heading inner) :=
  located (bind hopening fun _ => bind token fun _ => bind (many headingToken) fun _ =>
    bind (optional (between hinner)) fun _ => pure)

theorem unknownBlock (hinner : Remains inner) : Remains (unknownBlock inner) :=
  located (bind token fun _ => bind (many headingToken) fun _ =>
    bind (between hinner) fun _ => pure)

theorem bodyEntry {scope : Scope} (hinner : Remains inner) : Remains (bodyEntry scope inner) := by
  refine firstOf ?_
  simp only [List.forall_mem_cons]
  exact ⟨map (namedDeclaration token hinner), map (namedDeclaration token hinner),
    map (namedDeclaration token hinner), map (namedDeclaration token hinner),
    map (namedDeclaration token hinner), map attributeSetting, map (unknownBlock hinner),
    map (bind token fun _ => pure), List.forall_mem_nil _⟩

theorem body {scope : Scope} : Remains (body scope) :=
  nested fun _ hinner => map (many (bodyEntry hinner))

theorem optional_body {scope : Scope} :
    Remains (Parser.optional (Parser.braced (Grammar.body scope))) :=
  optional (between body)

theorem anyArrow : Remains anyArrow := by
  have mark (arrow : Arrow) : Remains (arrowMark arrow) := bind exactly fun _ => pure
  refine firstOf ?_
  simp only [List.forall_mem_cons]
  exact ⟨mark _, mark _, mark _, List.forall_mem_nil _⟩

theorem connection : Remains connection := by
  refine firstOf ?_
  simp only [List.forall_mem_cons]
  exact ⟨bind token fun _ => bind (optional anyArrow) fun _ => pure,
    bind anyArrow fun _ => pure, List.forall_mem_nil _⟩

theorem endpoint : Remains endpoint :=
  located (bind (optional roles) fun _ => bind token fun _ => bind (optional roles) fun _ => pure)

theorem relationAttributes : Remains relationAttributes :=
  map (between (many (orElse (map attributeSetting) (map token))))

theorem relation : Remains relation :=
  located (bind endpoint fun _ => bind connection fun _ => bind endpoint fun _ =>
    bind (optional (bind exactly fun _ => token)) fun _ =>
      bind (optional relationAttributes) fun _ => pure)

theorem mapEntry : Remains mapEntry := by
  refine firstOf ?_
  simp only [List.forall_mem_cons]
  exact ⟨bind exactly fun _ => bind references fun _ => pure, map attributeSetting,
    map relation, List.forall_mem_nil _⟩

theorem contextMap : Remains contextMap :=
  located (bind exactly fun _ => bind (optional token) fun _ =>
    bind (between (many mapEntry)) fun _ => pure)

theorem domain : Remains domain :=
  located (bind exactly fun _ => bind token fun _ => bind optional_body fun _ => pure)

theorem contextClause : Remains contextClause := by
  refine firstOf ?_
  simp only [List.forall_mem_cons]
  exact ⟨bind exactly fun _ => bind references fun _ => pure,
    bind exactly fun _ => bind references fun _ => pure,
    bind exactly fun _ => bind reference fun _ => pure, List.forall_mem_nil _⟩

theorem boundedContext : Remains boundedContext :=
  located (bind exactly fun _ => bind token fun _ => bind (many contextClause) fun _ =>
    bind optional_body fun _ => pure)

theorem useCase : Remains useCase :=
  located (bind exactly fun _ => bind token fun _ => bind optional_body fun _ => pure)

theorem importLine : Remains importLine :=
  located (bind exactly fun _ => bind token fun _ => pure)

theorem unknownDeclaration : Remains unknownDeclaration :=
  located (bind token fun _ => bind (many token) fun _ => bind optional_body fun _ => pure)

theorem element : Remains element := by
  refine firstOf ?_
  simp only [List.forall_mem_cons]
  exact ⟨map domain, map boundedContext, map contextMap, map useCase, map importLine,
    map unknownDeclaration, List.forall_mem_nil _⟩

theorem document : Remains document :=
  bind (many element) fun _ => bind endOfInput fun _ => pure

end Remains

end Landscape.Grammar

namespace Landscape

/-- What is left where reading a document failed is the end of its lexemes. -/
theorem Document.leftOf_of_ofLexemes {lexemes : List Lexeme} {failure : Grammar.Failure}
    (h : ofLexemes lexemes = .error failure) : failure.rest <:+ lexemes := by
  have hdocument := Grammar.Remains.document lexemes
  rw [ofLexemes] at h
  generalize Grammar.document lexemes = reply at h hdocument
  cases hdocument with
  | ok => cases h
  | fail hleft =>
      cases h
      exact hleft

end Landscape
