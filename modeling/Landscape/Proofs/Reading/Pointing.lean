import Landscape.Proofs.Build.Subjects
import Landscape.Proofs.Grammar.Nesting
import Landscape.Proofs.Grammar.Remainder
import Landscape.Proofs.Reading.Verdict
import Landscape.Proofs.Token.Stretch

/-!
# Diagnostics point at what they talk about

A diagnostic carries a line and a column and no offset, so that it points at
something has to be said with an offset that has them (`Diagnostic.PlacedAt`),
and with what is found there (`Diagnostic.PointsAt`): a character that no rule
reads, a lexeme that the grammar could not take, the end, or what a finding is
about (`Finding.StandsAt`).

A finding knows no lexemes. What it is about is a part of the document, and the
layout of the document says where that part is written. For the type of a
subdomain the part is not enough, for it has to be shown that the setting stands
between the braces of that subdomain; there the derivation of the body is used.
-/

namespace Landscape

open Text

/-! ## Places in a source -/

/-- A diagnostic has the line and the column of an offset, counted from one. The
offset does not split a character of the source. -/
structure Diagnostic.PlacedAt (x : Diagnostic) (source : String) (o : Nat) : Prop where
  exists_front : ∃ front, front <+: source.toList ∧ byteLength front = o
  line_eq : x.line = some ((positionIn source o).line + 1)
  column_eq : x.column = some ((positionIn source o).column + 1)

/-- Lexemes that start at an offset, and with some tokens. -/
structure StartAt (xs : List Lexeme) (o : Nat) (ts : List Token) : Prop where
  start_eq : xs.head?.map (fun x => x.span.start) = some o
  tokens : ts <+: xs.map Lexeme.token

/-- Among some lexemes these tokens are written, from an offset on. -/
def WrittenAt (lexemes : List Lexeme) (o : Nat) (ts : List Token) : Prop :=
  ∃ rest, rest <:+ lexemes ∧ StartAt rest o ts

/-- The keyword that opens a declaration of a kind. -/
def Kind.keyword : Kind → String
  | domain => "Domain"
  | subdomain => "Subdomain"
  | context => "BoundedContext"
  | map => "ContextMap"
  | useCase => "UseCase"

/-- A place in the body of a subdomain that the document declares, and not in a
deeper body: the lexemes from there to the brace that closes the body. -/
structure InSubdomain (d : Document) (lexemes : List Lexeme) (name : String)
    (place : List Lexeme) : Prop where
  exists_stretch : ∃ head opening before closing entities body,
    head ++ opening :: (before ++ place ++ [closing]) <:+: lexemes ∧
    [.name Kind.subdomain.keyword, .name name] <+: head.map Lexeme.token ∧
    (∀ x ∈ head, x.token.isBrace = false) ∧
    opening.token = .openBrace ∧ closing.token = .closeBrace ∧
    Balanced (before.map Lexeme.token) ∧ Balanced (place.map Lexeme.token) ∧
    d.HasPart (.entry (.declaration (.subdomain name entities) body
      (spanOf (head ++ opening :: (before ++ place ++ [closing])))))

/-- What a finding talks about is written from an offset on. -/
def Finding.StandsAt (d : Document) (lexemes : List Lexeme) (o : Nat) : Finding → Prop
  | duplicateName kind name _ =>
    ∃ part, d.HasPart part ∧ part.declared? = some (kind, name) ∧ part.span.start = o ∧
      WrittenAt lexemes o [.name kind.keyword, .name name]
  | unknownSubdomainType literal name _ =>
    ∃ place t value, InSubdomain d lexemes name place ∧ Value.ofToken? t = some value ∧
      value.text = literal ∧ StartAt place o [.name "type", .equals, t]
  | unresolved .endpoint name _ _ =>
    ∃ e, d.HasPart (.endpoint e) ∧ e.name = name ∧ e.span.start = o ∧
      WrittenAt lexemes o e.tokens
  | unresolved _ name _ _ =>
    ∃ r, d.HasPart (.reference r) ∧ r.name = name ∧ r.span.start = o ∧
      WrittenAt lexemes o [.name name]

/-- What a diagnostic about a source talks about is found at an offset. -/
inductive Diagnostic.PointsAt (source : String) (o : Nat) (x : Diagnostic) : Prop
  | unreadable {fault : Unreadable} {before after : List Char} (fails : scan source = .error fault)
      (source_eq : source.toList = before ++ fault.char :: after)
      (unreached : ∀ r ∈ Rule.all, r.reach (fault.char :: after) = 0)
      (offset_eq : o = byteLength before)
      (code_eq : x.code = some Code.syntaxError.text) (message_eq : x.message = fault.message)
  | unexpected {lexemes rest : List Lexeme} {found : Lexeme} {expected : List Grammar.Expectation}
      (scans : scan source = .ok lexemes)
      (fails : Document.ofLexemes lexemes = .error ⟨found :: rest, expected⟩)
      (suffix : found :: rest <:+ lexemes) (offset_eq : o = found.span.start)
      (code_eq : x.code = some Code.syntaxError.text)
      (message_eq : x.message = "Unexpected " ++ found.token.describe)
  | endOfInput {lexemes : List Lexeme} {expected : List Grammar.Expectation}
      (scans : scan source = .ok lexemes)
      (fails : Document.ofLexemes lexemes = .error ⟨[], expected⟩)
      (offset_eq : o = source.utf8ByteSize)
      (code_eq : x.code = some Code.syntaxError.text)
      (message_eq : x.message = "Unexpected end of input")
  | finding {lexemes : List Lexeme} {d : Document} {finding : Finding}
      (scans : scan source = .ok lexemes) (reads : Document.ofLexemes lexemes = .ok d)
      (found : ∀ policy, finding ∈ (d.draft policy).findings)
      (stands : finding.StandsAt d lexemes o)
      (code_eq : x.code = some finding.code.text) (message_eq : x.message = finding.message)

/-! ## From spans to places -/

theorem Diagnostic.placedAt_placedIn {x : Diagnostic} {source : String} {span : Span}
    {front : List Char} (hfront : front <+: source.toList) (hspan : span.start = byteLength front) :
    (x.placedIn source span).PlacedAt source span.start := by
  have hle : span.start ≤ source.utf8ByteSize := by
    obtain ⟨later, hlater⟩ := hfront
    rw [hspan, ← byteLength_toList, ← hlater, byteLength_append]
    exact Nat.le_add_right _ _
  refine ⟨⟨front, hfront, hspan.symm⟩, ?_, ?_⟩
  · show some ((positionIn source (min span.start source.utf8ByteSize)).line + 1) = _
    rw [Nat.min_eq_left hle]
  · show some ((positionIn source (min span.start source.utf8ByteSize)).column + 1) = _
    rw [Nat.min_eq_left hle]

theorem Tokenized.exists_front {source : String} {lexemes : List Lexeme} {x : Lexeme}
    (h : Tokenized 0 source.toList lexemes) (hx : x ∈ lexemes) :
    ∃ front, front <+: source.toList ∧ x.span.start = byteLength front := by
  obtain ⟨before, text, after, hsource, hspan, -⟩ := h.exists_of_mem hx
  refine ⟨before, ⟨text ++ after, by rw [hsource, List.append_assoc]⟩, ?_⟩
  rw [hspan]
  exact Nat.zero_add _

theorem StartAt.exists_mem {xs : List Lexeme} {o : Nat} {ts : List Token} (h : StartAt xs o ts) :
    ∃ x ∈ xs, x.span.start = o := by
  obtain ⟨x, hx, hstart⟩ := Option.map_eq_some_iff.1 h.start_eq
  exact ⟨x, List.mem_of_mem_head? hx, hstart⟩

theorem WrittenAt.exists_mem {lexemes : List Lexeme} {o : Nat} {ts : List Token}
    (h : WrittenAt lexemes o ts) : ∃ x ∈ lexemes, x.span.start = o := by
  obtain ⟨rest, hrest, hstart⟩ := h
  obtain ⟨x, hx, hstart⟩ := hstart.exists_mem
  exact ⟨x, hrest.subset hx, hstart⟩

theorem Finding.StandsAt.exists_mem {d : Document} {lexemes : List Lexeme} {o : Nat}
    {finding : Finding} (h : finding.StandsAt d lexemes o) : ∃ x ∈ lexemes, x.span.start = o := by
  cases finding with
  | duplicateName kind name span =>
      obtain ⟨part, -, -, -, hwritten⟩ := h
      exact hwritten.exists_mem
  | unknownSubdomainType literal name span =>
      obtain ⟨place, t, value, hplace, -, -, hstart⟩ := h
      obtain ⟨x, hx, hstart⟩ := hstart.exists_mem
      obtain ⟨head, opening, before, closing, entities, body, hinfix, -⟩ := hplace.exists_stretch
      exact ⟨x, hinfix.subset (by simp [hx]), hstart⟩
  | unresolved mention name owner span =>
      cases mention <;> obtain ⟨_, -, -, -, hwritten⟩ := h <;> exact hwritten.exists_mem

section

variable {d : Document} {lexemes : List Lexeme}

end

/-! ## Diagnostics -/

namespace Source

variable (s : Source)

end Source

namespace Diagnostic.PointsAt

variable {x y : Diagnostic} {source : String} {o : Nat}

end Diagnostic.PointsAt

/-- What is said of a diagnostic before it gets the name of its source. -/
structure Diagnostic.Unnamed (source : String) (x : Diagnostic) : Prop where
  filename_eq : x.filename = none
  exists_offset : ∃ o, x.PlacedAt source o ∧ x.PointsAt source o

theorem documentOf_error_unnamed {source : String} {x : Diagnostic}
    (h : documentOf source = .error x) : x.Unnamed source := by
  obtain ⟨fault, hscan, rfl⟩ | ⟨lexemes, ⟨rest, expected⟩, hscan, hfails, rfl⟩ :=
    exists_of_documentOf_eq_error h
  · obtain ⟨before, after, hsource, hoffset, hreach⟩ := exists_of_scanFrom_eq_error hscan
    rw [Nat.zero_add] at hoffset
    refine ⟨rfl, fault.offset, Diagnostic.placedAt_placedIn ⟨_, hsource.symm⟩ hoffset, ?_⟩
    exact .unreadable hscan hsource hreach hoffset rfl rfl
  have hleft := Document.leftOf_of_ofLexemes hfails
  cases rest with
  | nil =>
      refine ⟨rfl, source.utf8ByteSize, ?_, .endOfInput hscan hfails rfl rfl rfl⟩
      exact Diagnostic.placedAt_placedIn (List.prefix_refl _) (byteLength_toList source).symm
  | cons found rest =>
      have hfound : found ∈ lexemes := hleft.subset List.mem_cons_self
      obtain ⟨front, hfront, hstart⟩ := (Tokenized.of_scanFrom hscan).exists_front hfound
      refine ⟨rfl, found.span.start, Diagnostic.placedAt_placedIn hfront hstart, ?_⟩
      exact .unexpected hscan hfails hleft rfl rfl rfl

end Landscape
