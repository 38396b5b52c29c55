import Landscape.Proofs.Reading.Pointing
import Landscape.Proofs.Token.Stuck

/-!
# Texts that are not made of tokens

A source cannot be read just if some front of it is made of tokens and skipped
text, each taken as far as it goes, and the rest is stuck (`StuckAt`). The tokens
of the front are those in front of that rest (`Front`), not those that the front
has by itself.

The two are nearly the same. A longest text stays one when what follows is cut
off, so the front has the same texts in it; only what the last of them is taken
for can depend on the character behind it. That character is gone when the front
is read alone, and a keyword at its very end is then a keyword again
(`Lexeme.alone`). All else is kept, and the two directions of a run, with the
rest and without it, come from one lemma (`Front.scanFrom_append`).
-/

namespace Landscape

open Text

/-- The lexemes of a text in front of `rest`, at a byte offset of its source. No
place where one of them starts is stuck. -/
inductive Front (rest : List Char) : Nat → List Char → List Lexeme → Prop
  | done {offset : Nat} {gap : List Char} (skipped : Skipped rest gap) : Front rest offset gap []
  | token {offset : Nat} {gap text more : List Char} {token : Token} {lexemes : List Lexeme}
      (skipped : Skipped (text ++ (more ++ rest)) gap) (munch : Munch token text (more ++ rest))
      (free : ¬Stuck (text ++ (more ++ rest)))
      (later : Front rest (offset + byteLength (gap ++ text)) more lexemes) :
      Front rest offset (gap ++ text ++ more)
        (⟨token, ⟨offset + byteLength gap, offset + byteLength (gap ++ text)⟩⟩ :: lexemes)

/-- Where a source cannot be read on: what was read, and the stuck rest. -/
structure StuckAt (source : String) (before : List Char) (lexemes : List Lexeme) (c : Char)
    (after : List Char) : Prop where
  source_eq : source.toList = before ++ c :: after
  front : Front (c :: after) 0 before lexemes
  stuck : Stuck (c :: after)

/-- A lexeme of a text that ends at an offset, as it is when nothing follows the
text: a keyword that was taken as a name because of what comes next is one no
more. -/
def Lexeme.alone (stop : Nat) (x : Lexeme) : Lexeme :=
  if x.token = .name "Partnership" ∧ x.span.stop = stop then
    { x with token := .relation "Partnership" }
  else x

/-! ## The token of a text -/

theorem Token.token?_rule {token : Token} {text : List Char} (hkeeps : token.Keeps text) :
    token.rule.token? text = some token := by
  cases token with
  | string kept =>
      obtain ⟨inner, rfl, hinner⟩ := hkeeps
      simp [rule, Rule.token?, ← hinner]
  | relation kept | name kept | number kept =>
      obtain rfl := hkeeps
      exact congrArg _ (congrArg _ String.ofList_toList)
  | symbol c =>
      obtain rfl := hkeeps
      rfl
  | _ => rfl

namespace Munch

variable {token : Token} {text more rest : List Char}

theorem isLongest (h : Munch token text rest) (free : ¬Stuck (text ++ rest)) :
    IsLongest text rest :=
  .of_maximal h.rule_mem_all h.mem_pattern free h.longest

theorem longest_eq_rule (h : Munch token text rest) (free : ¬Stuck (text ++ rest)) :
    Rule.longest (text ++ rest) = token.rule := by
  have hlongest := h.isLongest free
  by_cases hkeyword : text ∈ Rule.relation.pattern
  · rcases h.keyword hkeyword with ⟨hrule, htaken⟩ | ⟨hrule, htaken⟩
    · rw [hrule]
      exact Rule.longest_eq_relation hkeyword hlongest.reach_eq hlongest.mem_pattern htaken
    · rw [hrule]
      exact Rule.longest_eq_name hkeyword hlongest.reach_eq hlongest.mem_pattern htaken
  · have hnot {r : Rule} (hr : text ∈ r.pattern) : r ≠ .relation := fun heq => hkeyword (heq ▸ hr)
    have hkind := Rule.kindOf_eq (Rule.longest_mem_all _) hlongest.mem_pattern
    rw [Rule.kindOf_eq h.rule_mem_all h.mem_pattern, if_neg (hnot h.mem_pattern),
      if_neg (hnot hlongest.mem_pattern)] at hkind
    exact hkind.symm

theorem token?_eq (h : Munch token text rest) (free : ¬Stuck (text ++ rest)) :
    (Rule.longest (text ++ rest)).token? text = some token := by
  rw [h.longest_eq_rule free]
  exact Token.token?_rule h.keeps

/-- A token is the same when the text is cut off, but for a keyword before the
place of the cut. -/
theorem truncate (h : Munch token text (more ++ rest)) :
    Munch (if token = .name "Partnership" ∧ more = [] then .relation "Partnership" else token)
      text more := by
  have hlongest : ∀ r ∈ Rule.all, ∀ w ∈ r.pattern, w <+: text ++ more → w.length ≤ text.length :=
    fun r hr w hw hcs => h.longest r hr w hw (by
      rw [← List.append_assoc]
      exact hcs.trans (List.prefix_append _ _))
  split
  · next hcut =>
    obtain ⟨rfl, rfl⟩ := hcut
    have htext : text = "Partnership".toList := h.keeps
    refine ⟨h.ne_nil, by decide, ⟨"Partnership", by decide, htext⟩, hlongest, fun _ => .inl ⟨rfl, ?_⟩,
      htext⟩
    rintro ⟨-, hnext⟩
    cases hnext
  · next hkept =>
    refine ⟨h.ne_nil, h.rule_mem_all, h.mem_pattern, hlongest, fun hkeyword => ?_, h.keeps⟩
    cases more with
    | cons c more => exact h.keyword hkeyword
    | nil =>
        rcases h.keyword hkeyword with ⟨hrule, -⟩ | ⟨hrule, htext, -⟩
        · refine .inl ⟨hrule, fun ⟨_, hnext⟩ => ?_⟩
          cases hnext
        · refine absurd ⟨?_, rfl⟩ hkept
          have hkeeps := h.keeps
          cases token with
          | name kept => rw [String.toList_inj.1 (hkeeps.symm.trans htext)]
          | _ => cases hrule

end Munch

/-! ## Fronts -/

theorem Lexeme.alone_mk (token : Token) (span : Span) (stop : Nat) :
    Lexeme.alone stop ⟨token, span⟩ =
      ⟨if token = .name "Partnership" ∧ span.stop = stop then .relation "Partnership" else token,
        span⟩ := by
  rw [alone]
  split <;> rfl

theorem isLongest_of_reach_eq {text rest : List Char} (hne : text ≠ [])
    (h : (Rule.longest (text ++ rest)).reach (text ++ rest) = text.length) :
    IsLongest text rest := by
  refine ⟨hne, ?_, h⟩
  have hzero : (Rule.longest (text ++ rest)).reach (text ++ rest) ≠ 0 := by
    rw [h]
    exact List.length_eq_zero_iff.not.2 hne
  obtain ⟨w, hw, hcs, hlength⟩ := (Rule.reach_attained _ _).resolve_left hzero
  obtain rfl : w = text :=
    (List.prefix_of_prefix_length_le hcs (List.prefix_append text rest) (by omega)).eq_of_length
      (by omega)
  exact hw

namespace Front

variable {rest text more before : List Char} {offset : Nat} {lexemes : List Lexeme} {token : Token}

theorem read (h : IsLongest text (more ++ rest))
    (htoken : (Rule.longest (text ++ (more ++ rest))).token? text = some token)
    (later : Front rest (offset + byteLength text) more lexemes) :
    Front rest offset (text ++ more) (⟨token, ⟨offset, offset + byteLength text⟩⟩ :: lexemes) :=
  @Front.token rest offset [] text more token lexemes .nil (h.munch htoken) h.not_stuck later

theorem skip (h : IsLongest text (before ++ rest))
    (htoken : (Rule.longest (text ++ (before ++ rest))).token? text = none)
    (later : Front rest (offset + byteLength text) before lexemes) :
    Front rest offset (text ++ before) lexemes := by
  cases later with
  | done skipped => exact .done (skipped.append h htoken)
  | @token _ gap next more token lexemes skipped munch free later =>
      have hassoc : gap ++ next ++ more ++ rest = gap ++ (next ++ (more ++ rest)) := by simp
      rw [hassoc] at h htoken
      have later : Front rest (offset + byteLength (text ++ gap ++ next)) more lexemes := by
        simpa [Nat.add_assoc] using later
      simpa [Nat.add_assoc] using Front.token (skipped.append h htoken) munch free later

/-- A scan reads the tokens of a front and goes on with the rest. -/
theorem scanFrom_append (h : Front rest offset before lexemes) :
    scanFrom offset (before ++ rest) =
      (scanFrom (offset + byteLength before) rest).map (lexemes ++ ·) := by
  induction h with
  | done skipped =>
      rw [skipped.scanFrom_append]
      cases scanFrom _ rest <;> rfl
  | @token offset gap text more token lexemes skipped munch free _ ih =>
      have hassoc : gap ++ text ++ more ++ rest = gap ++ (text ++ (more ++ rest)) := by simp
      have hstop : offset + byteLength gap + byteLength text =
          offset + byteLength (gap ++ text) := by
        rw [byteLength_append, Nat.add_assoc]
      rw [hassoc, skipped.scanFrom_append, Landscape.scanFrom_append (munch.isLongest free),
        munch.token?_eq free, hstop, ih, byteLength_append (gap ++ text), Nat.add_assoc]
      cases scanFrom _ rest <;> rfl

/-- A front by itself has the same lexemes, but for a keyword at its end. -/
theorem truncate (h : Front rest offset before lexemes) :
    Front [] offset before (lexemes.map (Lexeme.alone (offset + byteLength before))) := by
  induction h with
  | done skipped => exact .done (@Skipped.truncate [] _ _ skipped)
  | @token offset gap text more token lexemes skipped munch free _ ih =>
      rw [← List.append_assoc] at skipped
      have hlonger := (munch.isLongest free).truncate
      have hlater : offset + byteLength (gap ++ text) + byteLength more =
          offset + byteLength (gap ++ text ++ more) := by
        rw [byteLength_append (gap ++ text), Nat.add_assoc]
      -- The lexeme ends where the text does just if nothing comes after it.
      have hend : offset + byteLength (gap ++ text) = offset + byteLength (gap ++ text ++ more) ↔
          more = [] := by
        rw [← hlater, Nat.left_eq_add, ← Nat.le_zero, ← not_lt]
        refine ⟨fun hzero => by_contra fun hne => hzero (byteLength_pos hne), ?_⟩
        rintro rfl
        exact Nat.lt_irrefl 0
      rw [hlater] at ih
      have hskipped : Skipped (text ++ (more ++ [])) gap := by simpa using skipped.truncate
      have hfront := Front.token hskipped (by simpa using munch.truncate)
        (by simpa using hlonger.not_stuck) ih
      simpa only [List.map_cons, Lexeme.alone_mk, hend] using hfront

theorem scanFrom_alone (h : Front rest offset before lexemes) :
    scanFrom offset before =
      .ok (lexemes.map (Lexeme.alone (offset + byteLength before))) := by
  have hscan := h.truncate.scanFrom_append
  rw [List.append_nil, scanFrom] at hscan
  rw [hscan]
  exact congrArg Except.ok (List.append_nil _)

end Front

/-- A scan that fails has read a front, and the rest is stuck. -/
theorem exists_front_of_scanFrom_eq_error {offset : Nat} {cs : List Char} {fault : Unreadable}
    (h : scanFrom offset cs = .error fault) :
    ∃ before lexemes after, cs = before ++ fault.char :: after ∧
      Front (fault.char :: after) offset before lexemes ∧ Stuck (fault.char :: after) := by
  induction hlength : cs.length using Nat.strong_induction_on generalizing offset cs with
  | h n ih =>
      by_cases hne : cs = []
      · subst hne
        rw [scanFrom] at h
        cases h
      by_cases hzero : (Rule.longest cs).reach cs = 0
      · have hstuck := stuck_iff.2 ⟨hne, hzero⟩
        obtain ⟨c, after, rfl⟩ := List.exists_cons_of_ne_nil hne
        rw [scanFrom_eq_error hzero] at h
        obtain rfl := Except.error.inj h
        exact ⟨[], [], after, rfl, .done .nil, hstuck⟩
      · obtain ⟨text, later, rfl, hlongest⟩ := exists_isLongest_of_reach hzero
        have hshorter : later.length < n := by
          rw [← hlength, List.length_append]
          exact Nat.lt_add_of_pos_left (List.length_pos_of_ne_nil hlongest.ne_nil)
        rw [Landscape.scanFrom_append hlongest] at h
        cases hlater : scanFrom (offset + byteLength text) later with
        | ok lexemes =>
            rw [hlater] at h
            cases h
        | error fault' =>
            rw [hlater] at h
            obtain rfl := Except.error.inj h
            obtain ⟨before, lexemes, after, rfl, hfront, hstuck⟩ := ih _ hshorter hlater rfl
            cases htoken : (Rule.longest (text ++ (before ++ fault'.char :: after))).token? text with
            | none =>
                exact ⟨text ++ before, lexemes, after, by simp, .skip hlongest htoken hfront, hstuck⟩
            | some token =>
                exact ⟨text ++ before, _, after, by simp, .read hlongest htoken hfront, hstuck⟩

/-! ## Sources -/

theorem StuckAt.scan_eq {source : String} {before after : List Char} {lexemes : List Lexeme}
    {c : Char} (h : StuckAt source before lexemes c after) :
    scan source = .error ⟨byteLength before, c⟩ := by
  rw [scan, h.source_eq, h.front.scanFrom_append, scanFrom_eq_error (stuck_iff.1 h.stuck).2,
    Nat.zero_add]
  rfl

/-- The front is read again when it stands alone. -/
theorem StuckAt.lexemesOf_front {source : String} {before after : List Char}
    {lexemes : List Lexeme} {c : Char} (h : StuckAt source before lexemes c after) :
    lexemesOf (String.ofList before) =
      .ok (lexemes.map (Lexeme.alone (byteLength before))) := by
  have halone := h.front.scanFrom_alone
  rw [Nat.zero_add] at halone
  rw [lexemesOf, scan, String.toList_ofList, halone]

/-- A source fails just if some front of it is read and the rest is stuck. The
diagnostic names the character found there and its place; what was read before it
is read again when the front stands alone, and only a keyword at the end of the
front may have been taken as a name because of that character. -/
theorem lexemesOf_error (source : String) :
    ((∃ x, lexemesOf source = .error x) ↔
      ∃ before lexemes c after, StuckAt source before lexemes c after) ∧
    ∀ before lexemes c after, StuckAt source before lexemes c after →
      (∃ x, lexemesOf source = .error x ∧ x.severity = .error ∧
        x.code = some Code.syntaxError.text ∧ x.PlacedAt source (byteLength before) ∧
        x.message =
          if c = '"' then "Unterminated string literal"
          else "Unexpected character '" ++ String.singleton c ++ "'") ∧
      lexemesOf (String.ofList before) =
        .ok (lexemes.map (Lexeme.alone (byteLength before))) := by
  refine ⟨⟨fun ⟨x, hx⟩ => ?_, fun ⟨before, lexemes, c, after, h⟩ => ?_⟩,
    fun before lexemes c after h => ⟨?_, h.lexemesOf_front⟩⟩
  · cases hscan : scan source with
    | ok lexemes =>
        rw [lexemesOf, hscan] at hx
        cases hx
    | error fault =>
        obtain ⟨before, lexemes, after, hsource, hfront, hstuck⟩ :=
          exists_front_of_scanFrom_eq_error hscan
        exact ⟨before, lexemes, fault.char, after, hsource, hfront, hstuck⟩
  · rw [lexemesOf, h.scan_eq]
    exact ⟨_, rfl⟩
  · have hplaced : (Unreadable.diagnostic source ⟨byteLength before, c⟩).PlacedAt source
        (byteLength before) :=
      Diagnostic.placedAt_placedIn ⟨c :: after, h.source_eq.symm⟩ rfl
    rw [lexemesOf, h.scan_eq]
    exact ⟨_, rfl, rfl, rfl, hplaced, rfl⟩

/-- A keyword before a character that starts like a letter, and another one
before a blank that does. -/
theorem partnerships_stuckAt :
    StuckAt "Partnership😀 Partnership\u00a0"
      ("Partnership".toList ++ (['😀'] ++ ([' '] ++ ("Partnership".toList ++ []))))
      [⟨.name "Partnership", ⟨0, 11⟩⟩, ⟨.symbol '😀', ⟨11, 15⟩⟩, ⟨.name "Partnership", ⟨16, 27⟩⟩]
      '\u00a0' [] := by
  have hlast : IsLongest "Partnership".toList ([] ++ ['\u00a0']) :=
    isLongest_of_reach_eq (by decide) (by decide +kernel)
  have hspace : IsLongest [' '] ("Partnership".toList ++ [] ++ ['\u00a0']) :=
    isLongest_of_reach_eq (by decide) (by decide +kernel)
  have hsymbol : IsLongest ['😀'] ([' '] ++ ("Partnership".toList ++ []) ++ ['\u00a0']) :=
    isLongest_of_reach_eq (by decide) (by decide +kernel)
  have hfirst : IsLongest "Partnership".toList
      (['😀'] ++ ([' '] ++ ("Partnership".toList ++ [])) ++ ['\u00a0']) :=
    isLongest_of_reach_eq (by decide) (by decide +kernel)
  have hlength : byteLength "Partnership".toList = 11 := by decide
  have hwords := @Front.read _ _ _ 16 [] (.name "Partnership") hlast (by decide +kernel)
    (.done .nil)
  have hgap := @Front.skip _ _ _ 15 _ hspace (by decide +kernel) hwords
  have hmark := @Front.read _ _ _ 11 _ (.symbol '😀') hsymbol (by decide +kernel) hgap
  rw [← Nat.zero_add 11, ← hlength] at hmark
  have hall := @Front.read _ _ _ 0 _ (.name "Partnership") hfirst (by decide +kernel) hmark
  rw [hlength] at hall
  exact ⟨by decide, hall, .blank (by decide) (by decide)⟩

/-- Read alone, what is in front of that blank has a keyword at its end. -/
theorem lexemesOf_partnerships :
    lexemesOf (String.ofList ("Partnership".toList ++ (['😀'] ++ ([' '] ++
      ("Partnership".toList ++ []))))) =
      .ok [⟨.name "Partnership", ⟨0, 11⟩⟩, ⟨.symbol '😀', ⟨11, 15⟩⟩,
        ⟨.relation "Partnership", ⟨16, 27⟩⟩] := by
  have halone := ((lexemesOf_error _).2 _ _ _ _ partnerships_stuckAt).2
  exact halone.trans (congrArg Except.ok (by decide))

/-- What is in front of the place where a source cannot be read does not always
have the tokens that were read there. -/
theorem not_lexemesOf_front :
    ¬∀ source before lexemes c after, StuckAt source before lexemes c after →
      lexemesOf (String.ofList before) = .ok lexemes := by
  intro h
  have hsame := h _ _ _ _ _ partnerships_stuckAt
  rw [partnerships_stuckAt.lexemesOf_front] at hsame
  exact absurd hsame (by decide)

end Landscape
