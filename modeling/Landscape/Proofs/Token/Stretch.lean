import Landscape.Proofs.Grammar.Splits
import Landscape.Proofs.Token.Munch

/-!
# Stretches of lexemes and their text

The lexemes of a source stand one behind the other, and none of them is empty
(`InOrder`). So the span of a stretch of them, from the first to the last, lies
around the spans of its lexemes and no others, and a stretch inside a stretch has
its span inside.

A span can be cut out of the text again (`Span.textIn?`). For the span of a
lexeme that gives its text, and for the span of a stretch a text that starts with
that of its first lexeme.
-/

namespace Landscape

open Text

/-! ## In order -/

/-- No lexeme is empty, and each stands behind the ones before it. -/
structure InOrder (xs : List Lexeme) : Prop where
  pairwise : xs.Pairwise fun a b => a.span.stop ≤ b.span.start
  start_lt_stop : ∀ x ∈ xs, x.span.start < x.span.stop

theorem Tokenized.inOrder {offset : Nat} {cs : List Char} {lexemes : List Lexeme}
    (h : Tokenized offset cs lexemes) : InOrder lexemes := by
  refine ⟨h.pairwise, fun x hx => ?_⟩
  obtain ⟨before, text, after, -, hspan, hmunch⟩ := h.exists_of_mem hx
  have hpos := byteLength_pos hmunch.ne_nil
  rw [hspan, byteLength_append]
  show offset + byteLength before < offset + (byteLength before + byteLength text)
  omega

theorem spanOf_eq {read : List Lexeme} (h : read ≠ []) :
    spanOf read = ⟨(read.head h).span.start, (read.getLast h).span.stop⟩ := by
  rw [spanOf, List.head?_eq_some_head h, List.getLast?_eq_some_getLast h]

namespace InOrder

variable {xs read first second : List Lexeme}

theorem of_infix (h : InOrder xs) (hread : read <:+: xs) : InOrder read :=
  ⟨h.pairwise.sublist hread.sublist, fun x hx => h.start_lt_stop x (hread.subset hx)⟩

/-- The span of a stretch lies around those of its lexemes. -/
theorem spanOf_le (h : InOrder read) {x : Lexeme} (hx : x ∈ read) :
    (spanOf read).start ≤ x.span.start ∧ x.span.stop ≤ (spanOf read).stop := by
  have hne : read ≠ [] := List.ne_nil_of_mem hx
  rw [spanOf_eq hne]
  constructor
  · obtain ⟨y, rest, rfl⟩ := List.exists_cons_of_ne_nil hne
    rcases List.mem_cons.1 hx with rfl | hx
    · exact Nat.le_refl _
    · have hbehind := (List.pairwise_cons.1 h.pairwise).1 x hx
      have hlt := h.start_lt_stop y List.mem_cons_self
      show y.span.start ≤ x.span.start
      omega
  · have hsplit := List.dropLast_append_getLast hne
    rw [← hsplit] at hx
    rcases List.mem_append.1 hx with hx | hx
    · have hpairwise := h.pairwise
      rw [← hsplit] at hpairwise
      have hbehind := (List.pairwise_append.1 hpairwise).2.2 x hx _ List.mem_cons_self
      have hlt := h.start_lt_stop _ (List.getLast_mem hne)
      show x.span.stop ≤ (read.getLast hne).span.stop
      omega
    · rw [List.mem_singleton.1 hx]

theorem start_lt_stop_spanOf (h : InOrder read) (hne : read ≠ []) :
    (spanOf read).start < (spanOf read).stop := by
  have hhead := List.head_mem hne
  have hlt := h.start_lt_stop _ hhead
  have hle := h.spanOf_le hhead
  omega

/-- A stretch inside a stretch has its span inside. -/
theorem spanOf_within (h : InOrder read) (hne : first ≠ []) (hfirst : first <:+: read) :
    (spanOf read).start ≤ (spanOf first).start ∧ (spanOf first).stop ≤ (spanOf read).stop := by
  rw [spanOf_eq hne]
  exact ⟨(h.spanOf_le (hfirst.subset (List.head_mem hne))).1,
    (h.spanOf_le (hfirst.subset (List.getLast_mem hne))).2⟩

/-- Of two stretches the later one has its span behind. -/
theorem stop_spanOf_le (h : InOrder (first ++ second)) (hfirst : first ≠ [])
    (hsecond : second ≠ []) : (spanOf first).stop ≤ (spanOf second).start := by
  rw [spanOf_eq hfirst, spanOf_eq hsecond]
  exact (List.pairwise_append.1 h.pairwise).2.2 _ (List.getLast_mem hfirst) _
    (List.head_mem hsecond)

end InOrder

/-! ## Texts of spans -/

/-- The text that a span covers, unless it splits a character or lies past the
end of the source. -/
def Span.textIn? (source : String) (span : Span) : Option String :=
  match takeBytes? span.start source.toList, takeBytes? span.stop source.toList with
  | some before, some upTo => some (String.ofList (upTo.drop before.length))
  | _, _ => Option.none

theorem Span.textIn?_eq {source : String} {before upTo : List Char} {span : Span}
    (hbefore : before <+: source.toList) (hupTo : upTo <+: source.toList)
    (hspan : span = ⟨byteLength before, byteLength upTo⟩) :
    span.textIn? source = some (String.ofList (upTo.drop before.length)) := by
  obtain ⟨later, hlater⟩ := hbefore
  obtain ⟨later', hlater'⟩ := hupTo
  have htake : takeBytes? (byteLength before) source.toList = some before := by
    rw [← hlater, takeBytes?_byteLength]
  have htake' : takeBytes? (byteLength upTo) source.toList = some upTo := by
    rw [← hlater', takeBytes?_byteLength]
  rw [hspan, textIn?, htake, htake']

/-- Of two fronts of a text the one with fewer bytes is the front of the other. -/
theorem prefix_of_byteLength_le {as bs cs : List Char} (has : as <+: cs) (hbs : bs <+: cs)
    (hle : byteLength as ≤ byteLength bs) : as <+: bs := by
  rcases List.prefix_or_prefix_of_prefix has hbs with h | ⟨more, rfl⟩
  · exact h
  · have hmore : more = [] := by
      refine Decidable.byContradiction fun hne => ?_
      have hpos := byteLength_pos hne
      rw [byteLength_append] at hle
      omega
    rw [hmore, List.append_nil]

/-- The text of a stretch starts with that of its first lexeme, and if there are
no others that is all of it. -/
theorem Tokenized.textIn?_spanOf {source : String} {lexemes rest : List Lexeme} {x : Lexeme}
    (h : Tokenized 0 source.toList lexemes) (hread : x :: rest <:+: lexemes) :
    ∃ word text, x.token.Keeps word ∧ (spanOf (x :: rest)).textIn? source = some text ∧
      word <+: text.toList ∧ (rest = [] → text.toList = word) := by
  have hfirst : x ∈ lexemes := hread.subset List.mem_cons_self
  have hlast : (x :: rest).getLast nofun ∈ lexemes := hread.subset (List.getLast_mem _)
  obtain ⟨before, word, after, hsource, hspan, hmunch⟩ := h.exists_of_mem hfirst
  obtain ⟨before', word', after', hsource', hspan', -⟩ := h.exists_of_mem hlast
  rw [Nat.zero_add, Nat.zero_add] at hspan hspan'
  have hstretch : spanOf (x :: rest) = ⟨byteLength before, byteLength (before' ++ word')⟩ := by
    have hne : x :: rest ≠ [] := nofun
    rw [spanOf_eq hne, hspan']
    show Span.mk x.span.start _ = _
    rw [hspan]
  -- The first lexeme ends where the stretch does or before.
  have hle : byteLength (before ++ word) ≤ byteLength (before' ++ word') := by
    have hstop := ((h.inOrder.of_infix hread).spanOf_le List.mem_cons_self).2
    rw [hstretch, hspan] at hstop
    exact hstop
  obtain ⟨more, hmore⟩ := prefix_of_byteLength_le ⟨after, hsource.symm⟩ ⟨after', hsource'.symm⟩ hle
  have hfront : before <+: source.toList := ⟨word ++ after, by rw [hsource, List.append_assoc]⟩
  refine ⟨word, _, hmunch.keeps, Span.textIn?_eq hfront ⟨after', hsource'.symm⟩ hstretch, ?_, ?_⟩
  · rw [← hmore, List.append_assoc, List.drop_left, String.toList_ofList]
    exact List.prefix_append _ _
  · rintro rfl
    have heq : byteLength (before ++ word) = byteLength (before' ++ word') :=
      congrArg Span.stop (hspan.symm.trans hspan')
    have hnil : more = [] := by
      refine Decidable.byContradiction fun hne => ?_
      have hpos := byteLength_pos hne
      rw [← hmore, byteLength_append (before ++ word)] at heq
      omega
    rw [← hmore, hnil, List.append_nil, List.drop_left, String.toList_ofList]

end Landscape
