import Landscape.Proofs.Token.Reach
import Landscape.Token.Scan

/-!
# Scanning takes the longest text each time

The tokens of a source text are described without the scanner (`Tokenized`): a
stretch that is skipped, a text that no rule can make longer, the token that
keeps what it has to of that text, and so on to the end. What may be skipped is
said character by character (`Skipped`), so nothing else can be lost.

The scanner does one step at a time, and a step is a text that the rule reaching
furthest has read (`IsLongest`). If it becomes a token it is a longest text of
the token's own rule; if not it lengthens the stretch skipped before the next
token. The run is an induction on what is left of the text.

Which of a keyword and a name a text is taken for is not a matter of length.
Keywords go first, but not everywhere: `not_keyword_before_name` has the place
where they do not.
-/

namespace Landscape

open Text

/-- A text that is skipped in front of `rest`: separators, comments up to the end
of their line, and comments up to the first `*/`. -/
inductive Skipped (rest : List Char) : List Char → Prop
  | nil : Skipped rest []
  | separator {c : Char} {gap : List Char} (separates : isSeparator c) (more : Skipped rest gap) :
      Skipped rest (c :: gap)
  | lineComment {body gap : List Char} (inside : '\n' ∉ body)
      (ends : ∀ c ∈ (gap ++ rest).head?, c = '\n') (more : Skipped rest gap) :
      Skipped rest ('/' :: '/' :: (body ++ gap))
  | blockComment {body gap : List Char} (inside : ¬"*/".toList <:+: body ++ ['*'])
      (more : Skipped rest gap) : Skipped rest ('/' :: '*' :: (body ++ ['*', '/'] ++ gap))

namespace Token

/-- The rule that makes a token. -/
def rule : Token → Rule
  | relation _ => .relation
  | name _ => .name
  | string _ => .string
  | number _ => .number
  | symbol _ => .symbol
  | token => .mark token

/-- What a token keeps of the text that it was read from. -/
def Keeps : Token → List Char → Prop
  | relation kept, text | name kept, text | number kept, text => text = kept.toList
  | symbol c, text => text = [c]
  | string kept, text =>
    ∃ inner, text = '"' :: inner ++ ['"'] ∧ kept.toList = Quoted.decode inner
  | token, text => text = token.render.toList

end Token

/-- A token is what the rules make of `text` in front of `rest`: a text of the
token's rule, as long as that of any rule. A keyword is kept as one unless it is
taken as a name. -/
structure Munch (token : Token) (text rest : List Char) : Prop where
  ne_nil : text ≠ []
  rule_mem_all : token.rule ∈ Rule.all
  mem_pattern : text ∈ token.rule.pattern
  longest : ∀ r ∈ Rule.all, ∀ w ∈ r.pattern, w <+: text ++ rest → w.length ≤ text.length
  keyword : text ∈ Rule.relation.pattern →
    token.rule = .relation ∧ ¬Rule.TakenAsName text rest ∨
      token.rule = .name ∧ Rule.TakenAsName text rest
  keeps : token.Keeps text

/-- The lexemes of a text that starts at a byte offset of its source. -/
inductive Tokenized : Nat → List Char → List Lexeme → Prop
  | done {offset : Nat} {gap : List Char} (skipped : Skipped [] gap) : Tokenized offset gap []
  | token {offset : Nat} {gap text rest : List Char} {token : Token} {lexemes : List Lexeme}
      (skipped : Skipped (text ++ rest) gap) (munch : Munch token text rest)
      (more : Tokenized (offset + byteLength (gap ++ text)) rest lexemes) :
      Tokenized offset (gap ++ text ++ rest)
        (⟨token, ⟨offset + byteLength gap, offset + byteLength (gap ++ text)⟩⟩ :: lexemes)

namespace Rule

variable {r : Rule} {text rest : List Char} {token : Token}

theorem rule_of_mem_marks : ∀ token ∈ marks, token.rule = mark token := by
  decide

theorem keeps_of_mem_marks (h : token ∈ marks) : token.Keeps token.render.toList := by
  cases token
  case relation | name | string | number | symbol => simp [marks] at h
  all_goals rfl

theorem of_token?_eq_some (hr : r ∈ all) (htext : text ∈ r.pattern)
    (h : r.token? text = some token) : token.rule = r ∧ token.Keeps text := by
  cases r with
  | separators | lineComment | blockComment => cases h
  | mark t =>
      obtain rfl := Option.some.inj h
      obtain rfl := Pattern.mem_word.1 htext
      have hmark := mark_mem_all.1 hr
      exact ⟨rule_of_mem_marks t hmark, keeps_of_mem_marks hmark⟩
  | relation | name | number =>
      obtain rfl := Option.some.inj h
      exact ⟨rfl, String.toList_ofList.symm⟩
  | string =>
      obtain ⟨body, -, rfl⟩ := mem_pattern_string.1 htext
      obtain rfl := Option.some.inj h
      refine ⟨rfl, body, rfl, ?_⟩
      rw [String.toList_ofList]
      simp
  | symbol =>
      obtain ⟨c, -, rfl⟩ := htext
      obtain rfl := Option.some.inj h
      exact ⟨rfl, rfl⟩

theorem of_token?_eq_none (htext : text ∈ r.pattern) (h : r.token? text = none) :
    r = separators ∨ r = lineComment ∨ r = blockComment := by
  cases r with
  | separators => exact .inl rfl
  | lineComment => exact .inr (.inl rfl)
  | blockComment => exact .inr (.inr rfl)
  | mark | relation | name | string | number => cases h
  | symbol =>
      obtain ⟨c, -, rfl⟩ := htext
      cases h

end Rule

/-! ## One step -/

/-- A text that the rule reaching furthest has read, and what is left. -/
structure IsLongest (text rest : List Char) : Prop where
  ne_nil : text ≠ []
  mem_pattern : text ∈ (Rule.longest (text ++ rest)).pattern
  reach_eq : (Rule.longest (text ++ rest)).reach (text ++ rest) = text.length

theorem scanFrom_append {text rest : List Char} (h : IsLongest text rest) (offset : Nat) :
    scanFrom offset (text ++ rest) =
      (scanFrom (offset + byteLength text) rest).map fun lexemes =>
        match (Rule.longest (text ++ rest)).token? text with
        | some token => ⟨token, ⟨offset, offset + byteLength text⟩⟩ :: lexemes
        | none => lexemes := by
  obtain ⟨hne, -, hreach⟩ := h
  obtain ⟨c, more, rfl⟩ := List.exists_cons_of_ne_nil hne
  rw [List.cons_append] at hreach ⊢
  rw [scanFrom]
  simp only [hreach, List.length_cons, List.take_left', List.drop_left']
  cases scanFrom (offset + byteLength (c :: more)) rest with
  | error fault => rfl
  | ok lexemes => cases (Rule.longest (c :: (more ++ rest))).token? (c :: more) <;> rfl

/-- Where no rule reaches anything, the text cannot be read. -/
theorem scanFrom_eq_error {c : Char} {rest : List Char}
    (h : (Rule.longest (c :: rest)).reach (c :: rest) = 0) (offset : Nat) :
    scanFrom offset (c :: rest) = .error ⟨offset, c⟩ := by
  rw [scanFrom]
  simp only [h]

theorem exists_isLongest_of_reach {cs : List Char} (hreach : (Rule.longest cs).reach cs ≠ 0) :
    ∃ text rest, cs = text ++ rest ∧ IsLongest text rest := by
  obtain ⟨text, hmem, ⟨rest, rfl⟩, hlength⟩ :=
    ((Rule.longest cs).reach_attained cs).resolve_left hreach
  refine ⟨text, rest, rfl, ⟨?_, hmem, hlength.symm⟩⟩
  rintro rfl
  exact hreach hlength.symm

theorem exists_isLongest {offset : Nat} {cs : List Char} {lexemes : List Lexeme} (hne : cs ≠ [])
    (h : scanFrom offset cs = .ok lexemes) :
    ∃ text rest, cs = text ++ rest ∧ IsLongest text rest := by
  refine exists_isLongest_of_reach fun hzero => ?_
  obtain ⟨c, rest, rfl⟩ := List.exists_cons_of_ne_nil hne
  rw [scanFrom_eq_error hzero] at h
  cases h

namespace IsLongest

variable {text rest : List Char}

theorem length_le (h : IsLongest text rest) :
    ∀ r ∈ Rule.all, ∀ w ∈ r.pattern, w <+: text ++ rest → w.length ≤ text.length := by
  intro r hr w hw hcs
  rw [← h.reach_eq]
  refine Rule.length_le_reach_longest hr hw hcs ?_
  rw [h.reach_eq]
  exact List.length_eq_zero_iff.not.2 h.ne_nil

theorem munch (h : IsLongest text rest) {token : Token}
    (htoken : (Rule.longest (text ++ rest)).token? text = some token) : Munch token text rest := by
  have hall := Rule.longest_mem_all (text ++ rest)
  obtain ⟨hrule, hkeeps⟩ := Rule.of_token?_eq_some hall h.mem_pattern htoken
  refine ⟨h.ne_nil, hrule ▸ hall, hrule ▸ h.mem_pattern, h.length_le, fun hkeyword => ?_, hkeeps⟩
  rw [hrule]
  by_cases htaken : Rule.TakenAsName text rest
  · exact .inr ⟨Rule.longest_eq_name hkeyword h.reach_eq h.mem_pattern htaken, htaken⟩
  · exact .inl ⟨Rule.longest_eq_relation hkeyword h.reach_eq h.mem_pattern htaken, htaken⟩

/-- A line comment that is the longest text ends with its line. -/
theorem lineComment_ends (h : IsLongest text rest)
    (hline : Rule.longest (text ++ rest) = .lineComment) : ∀ c ∈ rest.head?, c = '\n' := by
  intro c hc
  by_contra hne
  obtain ⟨body, hbody, hinside⟩ := Rule.mem_pattern_lineComment.1 (hline ▸ h.mem_pattern)
  have hlonger : text ++ [c] ∈ Rule.lineComment.pattern := by
    refine Rule.mem_pattern_lineComment.2 ⟨body ++ [c], by rw [hbody]; rfl, ?_⟩
    simpa [or_imp, forall_and] using ⟨hinside, hne⟩
  have hstart : text ++ [c] <+: text ++ rest := by
    rw [List.prefix_append_right_inj, List.eq_cons_of_mem_head? hc]
    exact ⟨_, rfl⟩
  have hle := h.length_le .lineComment (by decide) _ hlonger hstart
  rw [List.length_append] at hle
  exact absurd hle (by simp)

end IsLongest

/-! ## The whole text -/

theorem Skipped.separators {rest run gap : List Char} (h : ∀ c ∈ run, isSeparator c)
    (more : Skipped rest gap) : Skipped rest (run ++ gap) := by
  induction run with
  | nil => exact more
  | cons c run ih =>
      obtain ⟨hc, hrun⟩ := List.forall_mem_cons.1 h
      exact .separator hc (ih hrun)

/-- What is read without becoming a token can be skipped. -/
theorem Skipped.append {text gap rest : List Char} (h : IsLongest text (gap ++ rest))
    (htoken : (Rule.longest (text ++ (gap ++ rest))).token? text = none)
    (more : Skipped rest gap) : Skipped rest (text ++ gap) := by
  have hmem := h.mem_pattern
  rcases Rule.of_token?_eq_none hmem htoken with hrule | hrule | hrule
  · rw [hrule] at hmem
    exact .separators (Rule.mem_pattern_separators.1 hmem).2 more
  · have hends := h.lineComment_ends hrule
    rw [hrule] at hmem
    obtain ⟨body, rfl, hinside⟩ := Rule.mem_pattern_lineComment.1 hmem
    exact .lineComment (fun hline => hinside _ hline rfl) hends more
  · rw [hrule] at hmem
    obtain ⟨body, rfl, hinside⟩ := Rule.mem_pattern_blockComment.1 hmem
    exact .blockComment (Pattern.staysOpen_iff.1 hinside) more

namespace Tokenized

theorem skip {text rest : List Char} {offset : Nat} {lexemes : List Lexeme}
    (h : IsLongest text rest) (htoken : (Rule.longest (text ++ rest)).token? text = none)
    (more : Tokenized (offset + byteLength text) rest lexemes) :
    Tokenized offset (text ++ rest) lexemes := by
  cases more with
  | done skipped =>
      rw [← List.append_nil rest] at h htoken
      exact .done (skipped.append h htoken)
  | @token _ gap next rest token lexemes skipped munch more =>
      rw [List.append_assoc] at h htoken
      have more : Tokenized (offset + byteLength (text ++ gap ++ next)) rest lexemes := by
        simpa [Nat.add_assoc] using more
      simpa [Nat.add_assoc] using Tokenized.token (skipped.append h htoken) munch more

theorem of_scanFrom {offset : Nat} {cs : List Char} {lexemes : List Lexeme}
    (h : scanFrom offset cs = .ok lexemes) : Tokenized offset cs lexemes := by
  induction hlength : cs.length using Nat.strong_induction_on generalizing offset cs lexemes with
  | h n ih =>
      by_cases hne : cs = []
      · subst hne
        rw [scanFrom] at h
        cases h
        exact .done .nil
      -- What a step reads is not empty, so the induction is on the length of the rest.
      obtain ⟨text, rest, rfl, hlongest⟩ := exists_isLongest hne h
      have hshorter : rest.length < n := by
        rw [← hlength, List.length_append]
        exact Nat.lt_add_of_pos_left (List.length_pos_of_ne_nil hlongest.ne_nil)
      rw [scanFrom_append hlongest] at h
      cases hlater : scanFrom (offset + byteLength text) rest with
      | error fault =>
          rw [hlater] at h
          cases h
      | ok later =>
          have more := ih rest.length hshorter hlater rfl
          rw [hlater] at h
          obtain rfl := Except.ok.inj h
          split
          · next token htoken =>
              have hmunch := hlongest.munch htoken
              exact @Tokenized.token offset [] text rest token later .nil hmunch more
          · next htoken => exact skip hlongest htoken more

/-- A lexeme stands where its span says, counted in bytes. -/
theorem exists_of_mem {offset : Nat} {cs : List Char} {lexemes : List Lexeme}
    (h : Tokenized offset cs lexemes) {x : Lexeme} (hx : x ∈ lexemes) :
    ∃ before text after, cs = before ++ text ++ after ∧
      x.span = ⟨offset + byteLength before, offset + byteLength (before ++ text)⟩ ∧
      Munch x.token text after := by
  induction h with
  | done => cases hx
  | @token offset gap text rest _ _ _ munch _ ih =>
      rcases List.mem_cons.1 hx with rfl | hx
      · exact ⟨gap, text, rest, rfl, rfl, munch⟩
      · obtain ⟨before, later, after, rfl, hspan, hmunch⟩ := ih hx
        refine ⟨gap ++ text ++ before, later, after, by simp, ?_, hmunch⟩
        rw [hspan]
        simp [Nat.add_assoc]

theorem pairwise {offset : Nat} {cs : List Char} {lexemes : List Lexeme}
    (h : Tokenized offset cs lexemes) :
    lexemes.Pairwise fun a b => a.span.stop ≤ b.span.start := by
  induction h with
  | done => exact .nil
  | token _ _ more ih =>
      refine .cons (fun x hx => ?_) ih
      obtain ⟨before, text, after, -, hspan, -⟩ := more.exists_of_mem hx
      rw [hspan]
      exact Nat.le_add_right _ _

end Tokenized

/-- A text that cannot be read is good up to a character where no rule reaches
anything. -/
theorem exists_of_scanFrom_eq_error {offset : Nat} {cs : List Char} {fault : Unreadable}
    (h : scanFrom offset cs = .error fault) :
    ∃ before after, cs = before ++ fault.char :: after ∧
      fault.offset = offset + byteLength before ∧
      ∀ r ∈ Rule.all, r.reach (fault.char :: after) = 0 := by
  induction hlength : cs.length using Nat.strong_induction_on generalizing offset cs with
  | h n ih =>
      by_cases hzero : (Rule.longest cs).reach cs = 0
      · cases cs with
        | nil =>
            rw [scanFrom] at h
            cases h
        | cons c rest =>
            rw [scanFrom_eq_error hzero] at h
            cases h
            refine ⟨[], rest, rfl, rfl, fun r hr => ?_⟩
            exact Nat.le_zero.1 (hzero ▸ Rule.reach_le_reach_longest hr (c :: rest))
      · obtain ⟨text, rest, rfl, hlongest⟩ := exists_isLongest_of_reach hzero
        have hshorter : rest.length < n := by
          rw [← hlength, List.length_append]
          exact Nat.lt_add_of_pos_left (List.length_pos_of_ne_nil hlongest.ne_nil)
        rw [scanFrom_append hlongest] at h
        cases hlater : scanFrom (offset + byteLength text) rest with
        | ok lexemes =>
            rw [hlater] at h
            cases h
        | error fault' =>
            rw [hlater] at h
            obtain rfl := Except.error.inj h
            obtain ⟨before, after, rfl, hoffset, hreach⟩ := ih _ hshorter hlater rfl
            refine ⟨text ++ before, after, by simp, ?_, hreach⟩
            rw [hoffset, byteLength_append, Nat.add_assoc]

/-- Every good text is its tokens with what is skipped between them. -/
theorem scan_tokenized {source : String} {lexemes : List Lexeme} (h : scan source = .ok lexemes) :
    Tokenized 0 source.toList lexemes ∧
      lexemes.Pairwise (fun a b => a.span.stop ≤ b.span.start) ∧
      ∀ x ∈ lexemes, x.span.start < x.span.stop ∧ x.span.stop ≤ source.utf8ByteSize ∧
        ∃ before text after, source.toList = before ++ text ++ after ∧
          x.span = ⟨byteLength before, byteLength (before ++ text)⟩ ∧
          Munch x.token text after := by
  have htokenized : Tokenized 0 source.toList lexemes := .of_scanFrom h
  refine ⟨htokenized, htokenized.pairwise, fun x hx => ?_⟩
  obtain ⟨before, text, after, hsource, hspan, hmunch⟩ := htokenized.exists_of_mem hx
  rw [Nat.zero_add, Nat.zero_add] at hspan
  have hstart : x.span.start = byteLength before := congrArg Span.start hspan
  have hstop : x.span.stop = byteLength before + byteLength text := by
    rw [hspan, byteLength_append]
  have hend := byteLength_toList source
  rw [hsource, byteLength_append, byteLength_append] at hend
  have hpos := byteLength_pos hmunch.ne_nil
  exact ⟨by omega, by omega, before, text, after, hsource, hspan, hmunch⟩

/-- Comments are skipped, and the longest mark is taken. -/
theorem scan_tokenized_marks :
    Tokenized 0 "a<->b /* / */ < 1. // -".toList
      [⟨.name "a", ⟨0, 1⟩⟩, ⟨.arrow .both, ⟨1, 4⟩⟩, ⟨.name "b", ⟨4, 5⟩⟩, ⟨.symbol '<', ⟨14, 15⟩⟩,
        ⟨.number "1", ⟨16, 17⟩⟩, ⟨.symbol '.', ⟨17, 18⟩⟩] :=
  (scan_tokenized (by decide +kernel)).1

/-- A keyword does not always win over a name of the same length: before a
character whose encoding starts like that of some letter it is read as a name. -/
theorem not_keyword_before_name :
    ¬∀ source lexemes, scan source = .ok lexemes →
      ∀ x ∈ lexemes, ∀ before text after, source.toList = before ++ text ++ after →
        x.span = ⟨byteLength before, byteLength (before ++ text)⟩ →
          text ∈ Rule.relation.pattern → x.token.rule = .relation := by
  intro h
  have hname := h "Partnership😀" [⟨.name "Partnership", ⟨0, 11⟩⟩, ⟨.symbol '😀', ⟨11, 15⟩⟩]
    (by decide +kernel) _ List.mem_cons_self [] "Partnership".toList ['😀'] (by decide)
    (by decide) ⟨"Partnership", by decide, rfl⟩
  cases hname

end Landscape
