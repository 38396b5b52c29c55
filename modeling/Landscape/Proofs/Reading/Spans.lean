import Landscape.Proofs.Grammar.Parts
import Landscape.Proofs.Reading.Verdict
import Landscape.Proofs.Token.Stretch

/-!
# Spans are exact

The spans in a document come from the lexemes that its parts were read from, and
lexemes know where they stand in the source. So of every part it can be said
where its span starts and ends, that it lies inside that of the part around it
and behind those of the parts before it, and what the text is that it starts
with (`Document.Placed`). At the top nothing is left between two elements.

That a span is not empty is more than it seems: `spanOf []` is empty, and it is
the layout that says of every part that something was read for it.
-/

namespace Landscape

/-- The word that an endpoint starts with: its name, or the bracket of the roles
before it. -/
def Endpoint.firstWord (e : Endpoint) : String :=
  if e.rolesBefore.isEmpty then e.name else "["

/-- A part starts with a word. -/
def Part.StartsWith (word : String) : Part → Prop
  | element e => e.opening.head? = some word
  | entry (.setting _ a) | setting a => word = a.key
  | entry (.declaration heading _ _) => heading.StartsWith word
  | entry (.entity _) | entry (.unknownLine ..) => False
  | reference r => word = r.name
  | relation r => word = r.left.firstWord
  | endpoint e => word = e.firstWord

/-- The spans of a document are exact in the source that was read as these
lexemes. -/
structure Document.Placed (d : Document) (source : String) (lexemes : List Lexeme) : Prop where
  /-- The elements divide the lexemes among them, and each has the span of its
  own. -/
  divided : ∃ stretches : List (List Lexeme), stretches.flatten = lexemes ∧
    List.Forall₂ (fun stretch e => stretch ≠ [] ∧ e.span = spanOf stretch) stretches d.elements
  not_empty : ∀ part, d.HasPart part → part.span.start < part.span.stop
  starts : ∀ part, d.HasPart part → ∃ x ∈ lexemes, x.span.start = part.span.start
  stops : ∀ part, d.HasPart part → ∃ x ∈ lexemes, x.span.stop = part.span.stop
  inside : ∀ part, d.HasPart part → ∀ list ∈ part.lists, ∀ smaller ∈ list,
    part.span.start ≤ smaller.span.start ∧ smaller.span.stop ≤ part.span.stop
  ordered : ∀ part, d.HasPart part → ∀ list ∈ part.lists,
    list.Pairwise fun a b => a.span.stop ≤ b.span.start
  mention : ∀ r, d.HasPart (.reference r) → r.span.textIn? source = some r.name
  word : ∀ part, d.HasPart part → ∃ word text, part.StartsWith word ∧
    part.span.textIn? source = some text ∧ word.toList <+: text.toList

/-- Items that are written one after the other have their spans one behind the
other. -/
theorem Scattered.pairwise {xs : List Lexeme} {list : List Part}
    (h : Scattered LaidOut xs list) (hxs : InOrder xs) :
    list.Pairwise fun a b => a.span.stop ≤ b.span.start := by
  induction h with
  | nil => exact .nil
  | @cons gap first rest item items hitem hmore ih =>
      have hrest : rest <:+: gap ++ (first ++ rest) :=
        ((List.suffix_append first rest).trans (List.suffix_append gap _)).isInfix
      refine .cons (fun later hlater => ?_) (ih (hxs.of_infix hrest))
      obtain ⟨read, hread, hlaid⟩ := hmore.exists_of_mem hlater
      obtain ⟨before, after, rfl⟩ := hread
      rw [hitem.span_eq, hlaid.span_eq]
      have hpair : first ++ before ++ read <:+: gap ++ (first ++ (before ++ read ++ after)) :=
        ⟨gap, after, by simp⟩
      have hinOrder := hxs.of_infix hpair
      have hne : first ++ before ≠ [] := by simp [hitem.ne_nil]
      have hle := hinOrder.stop_spanOf_le hne hlaid.ne_nil
      have hfirst := (hinOrder.of_infix (List.prefix_append _ read).isInfix).spanOf_within
        hitem.ne_nil (List.prefix_append first before).isInfix
      omega

namespace Part

variable {part : Part} {t : Token} {ts us : List Token}

/-- The text of a token is a word that a part starts with. -/
def StartsWithToken (part : Part) (t : Token) : Prop :=
  ∃ word, part.StartsWith word ∧ ∀ text, t.Keeps text → text = word.toList

theorem StartsWithToken.of_name {word : String} (h : part.StartsWith word)
    (hus : .name word :: us <+: t :: ts) : part.StartsWithToken t := by
  refine ⟨word, h, fun text htext => ?_⟩
  rw [← (List.cons_prefix_cons.1 hus).1] at htext
  exact htext

theorem StartsWithToken.of_endpoint {e : Endpoint} (h : part.StartsWith e.firstWord)
    (he : e.tokens <+: t :: ts) : part.StartsWithToken t := by
  rw [Endpoint.tokens] at he
  rw [Endpoint.firstWord] at h
  cases hroles : e.rolesBefore with
  | nil =>
      rw [hroles] at he h
      exact .of_name h he
  | cons role roles =>
      rw [hroles] at he h
      refine ⟨"[", h, fun text htext => ?_⟩
      rw [← (List.cons_prefix_cons.1 he).1] at htext
      exact htext

theorem Opens.startsWithToken (h : part.Opens (t :: ts)) : part.StartsWithToken t := by
  cases part with
  | element e => cases e <;> exact .of_name rfl h
  | entry entry =>
      cases entry with
      | setting scope a =>
          obtain ⟨_, _, -, -, htokens⟩ := h
          exact .of_name rfl htokens
      | declaration heading body span =>
          obtain ⟨keyword, hkeyword, htokens⟩ := h
          exact .of_name hkeyword htokens
      | entity e => exact h.elim
      | unknownLine keyword words span => exact h.elim
  | setting a =>
      obtain ⟨_, _, -, -, htokens⟩ := h
      exact .of_name rfl htokens
  | reference r =>
      have heq : t :: ts = [.name r.name] := h
      exact .of_name rfl (by rw [heq])
  | relation r => exact .of_endpoint rfl h
  | endpoint e =>
      have heq : t :: ts = e.tokens := h
      exact .of_endpoint rfl (by rw [heq])

end Part

theorem Document.placed_of_ofLexemes {source : String} {lexemes : List Lexeme} {d : Document}
    (hscan : scan source = .ok lexemes) (hd : Document.ofLexemes lexemes = .ok d) :
    d.Placed source lexemes := by
  have htokenized : Tokenized 0 source.toList lexemes := .of_scanFrom hscan
  have hinOrder := htokenized.inOrder
  obtain ⟨stretches, hflatten, hstretches⟩ := exists_stretches hd
  have written {part : Part} (hpart : d.HasPart part) :
      ∃ read, read <:+: lexemes ∧ LaidOut read part :=
    hpart.exists_laidOut (laidOut hd)
  constructor
  case divided =>
    exact ⟨stretches, hflatten, hstretches.imp fun stretch e ⟨_, hread⟩ =>
      ⟨hread.laidOut.ne_nil, hread.laidOut.span_eq⟩⟩
  case not_empty =>
    intro part hpart
    obtain ⟨read, hread, hpart⟩ := written hpart
    rw [hpart.span_eq]
    exact (hinOrder.of_infix hread).start_lt_stop_spanOf hpart.ne_nil
  case starts =>
    intro part hpart
    obtain ⟨read, hread, hpart⟩ := written hpart
    rw [hpart.span_eq, spanOf_eq hpart.ne_nil]
    exact ⟨_, hread.subset (List.head_mem hpart.ne_nil), rfl⟩
  case stops =>
    intro part hpart
    obtain ⟨read, hread, hpart⟩ := written hpart
    rw [hpart.span_eq, spanOf_eq hpart.ne_nil]
    exact ⟨_, hread.subset (List.getLast_mem hpart.ne_nil), rfl⟩
  case inside =>
    intro part hpart list hlist smaller hsmaller
    obtain ⟨read, hread, hpart⟩ := written hpart
    obtain ⟨read', hread', hsmaller⟩ := (hpart.scattered hlist).exists_of_mem hsmaller
    rw [hpart.span_eq, hsmaller.span_eq]
    exact (hinOrder.of_infix hread).spanOf_within hsmaller.ne_nil hread'
  case ordered =>
    intro part hpart list hlist
    obtain ⟨read, hread, hpart⟩ := written hpart
    exact (hpart.scattered hlist).pairwise (hinOrder.of_infix hread)
  case mention =>
    intro r hr
    obtain ⟨read, hread, hr⟩ := written hr
    obtain ⟨x, rfl, hx⟩ := List.map_eq_singleton_iff.1 hr.opens
    obtain ⟨word, text, hkeeps, htext, -, hword⟩ := htokenized.textIn?_spanOf hread
    have hspan : r.span = spanOf [x] := hr.span_eq
    rw [hx] at hkeeps
    have hname : word = r.name.toList := hkeeps
    rw [hspan, htext, ← String.toList_inj.1 ((hword rfl).trans hname)]
  case word =>
    intro part hpart
    obtain ⟨read, hread, hpart⟩ := written hpart
    obtain ⟨x, rest, rfl⟩ := List.exists_cons_of_ne_nil hpart.ne_nil
    obtain ⟨word, hstarts, hword⟩ := hpart.opens.startsWithToken
    obtain ⟨first, text, hkeeps, htext, htokens, -⟩ := htokenized.textIn?_spanOf hread
    rw [hword first hkeeps] at htokens
    exact ⟨word, text, hstarts, by rw [hpart.span_eq, htext], htokens⟩

/-- The spans of a source that is read as a document are exact. -/
theorem documentOf_placed {source : String} {d : Document} (h : documentOf source = .ok d) :
    ∃ lexemes, scan source = .ok lexemes ∧ d.Placed source lexemes := by
  obtain ⟨lexemes, hscan, hd⟩ := documentOf_eq_ok_iff.1 h
  exact ⟨lexemes, hscan, Document.placed_of_ofLexemes hscan hd⟩

/-- A domain behind a comment, in which a token is skipped, and a map. -/
def accentedSource : String :=
  "/* ä */ Domain D { ! Subdomain S k v = 1 } ContextMap { contains A [U]B -> C }"

def accentedDocument : Document :=
  ⟨[.domain ⟨"D",
      [.declaration (.subdomain "S" []) [] ⟨22, 35⟩,
        .setting .subdomain ⟨"v", [.number "1"], ⟨36, 41⟩⟩], ⟨9, 43⟩⟩,
    .map ⟨none, [.contains [⟨"A", ⟨66, 67⟩⟩]],
      [⟨⟨"B", ["U"], [], ⟨68, 72⟩⟩, ⟨none, some .right⟩, ⟨"C", [], [], ⟨76, 77⟩⟩, none, [],
        ⟨68, 77⟩⟩], ⟨44, 79⟩⟩]⟩

theorem accentedDocument_placed :
    documentOf accentedSource = .ok accentedDocument ∧
      ∃ lexemes, scan accentedSource = .ok lexemes ∧
        accentedDocument.Placed accentedSource lexemes := by
  have hread : documentOf accentedSource = .ok accentedDocument :=
    documentOf_eq_ok_iff.2
      ⟨[⟨.name "Domain", ⟨9, 15⟩⟩, ⟨.name "D", ⟨16, 17⟩⟩, ⟨.openBrace, ⟨18, 19⟩⟩,
          ⟨.symbol '!', ⟨20, 21⟩⟩, ⟨.name "Subdomain", ⟨22, 31⟩⟩, ⟨.name "S", ⟨32, 33⟩⟩,
          ⟨.name "k", ⟨34, 35⟩⟩, ⟨.name "v", ⟨36, 37⟩⟩, ⟨.equals, ⟨38, 39⟩⟩,
          ⟨.number "1", ⟨40, 41⟩⟩, ⟨.closeBrace, ⟨42, 43⟩⟩, ⟨.name "ContextMap", ⟨44, 54⟩⟩,
          ⟨.openBrace, ⟨55, 56⟩⟩, ⟨.name "contains", ⟨57, 65⟩⟩, ⟨.name "A", ⟨66, 67⟩⟩,
          ⟨.openBracket, ⟨68, 69⟩⟩, ⟨.name "U", ⟨69, 70⟩⟩, ⟨.closeBracket, ⟨70, 71⟩⟩,
          ⟨.name "B", ⟨71, 72⟩⟩, ⟨.arrow .right, ⟨73, 75⟩⟩, ⟨.name "C", ⟨76, 77⟩⟩,
          ⟨.closeBrace, ⟨78, 79⟩⟩], by decide +kernel, rfl⟩
  exact ⟨hread, documentOf_placed hread⟩

end Landscape
