import Landscape.Proofs.Token.Munch

/-!
# Writing tokens

A token is written as it is shown, except that quotes and backslashes in a string
are escaped. With a space after each token, what was written is read again as the
same tokens, whatever they are: a lone slash does not open a comment with what
comes next, and a minus does not make an arrow.

What has to be shown is that no rule reads on past the end of a token. Only
blanks, comments and strings hold spaces, and the rule of such a text shows before
its first space (`Rule.kindOf_of_append_space`). So a token that is read too far
would have to be a string, and a string that is written ends with its own quote.
-/

namespace Landscape

open Computability Text

theorem Quoted.encode_mem (text : List Char) : encode text ∈ Pattern.stringItem∗ := by
  induction text with
  | nil => exact Language.nil_mem_kstar _
  | cons c rest ih =>
      rw [encode]
      split
      · next h =>
          have hc : c ≠ '\n' := by
            rintro rfl
            exact absurd h (by decide)
          exact Pattern.append_mem_kstar (Pattern.escaped_mem_stringItem hc) ih
      · next h =>
          obtain ⟨hquote, hslash⟩ := not_or.1 h
          exact Pattern.append_mem_kstar (Pattern.plain_mem_stringItem hquote hslash) ih

namespace Token

/-- A token that has a text. A name must not be the keyword that could be a name;
a string may hold anything. -/
def Writable : Token → Prop
  | relation keyword => keyword ∈ relationKeywords
  | name text => text.toList ∈ Rule.name.pattern ∧ text ≠ "Partnership"
  | number digits => digits.toList ∈ Rule.number.pattern
  | symbol c => isSymbol c
  | _ => True

/-- A token as it is written in a source text. -/
def written : Token → String
  | string text => "\"" ++ String.ofList (Quoted.encode text.toList) ++ "\""
  | token => token.render

/-- Tokens at the places they get when they are written with a space between any
two, the first one at an offset. -/
def spaced (offset : Nat) : List Token → List Lexeme
  | [] => []
  | t :: ts =>
    let stop := offset + t.written.utf8ByteSize
    ⟨t, ⟨offset, stop⟩⟩ :: spaced (stop + 1) ts

variable {t : Token}

theorem toList_written_string (text : String) :
    (string text).written.toList = '"' :: Quoted.encode text.toList ++ ['"'] := by
  simp [written]

theorem written_mem_pattern (h : t.Writable) : t.written.toList ∈ t.rule.pattern := by
  cases t with
  | relation keyword => exact ⟨keyword, h, rfl⟩
  | name text => exact h.1
  | number digits => exact h
  | string text =>
      rw [toList_written_string]
      exact Rule.mem_pattern_string.2 ⟨_, Quoted.encode_mem _, rfl⟩
  | symbol c => exact ⟨c, h, String.toList_singleton c⟩
  | _ => rfl

theorem token?_written (h : t.Writable) : t.rule.token? t.written.toList = some t := by
  cases t with
  | string text =>
      rw [toList_written_string]
      simp [rule, Rule.token?, Quoted.decode_encode]
  | symbol c =>
      change Rule.token? .symbol (String.singleton c).toList = _
      rw [String.toList_singleton]
      rfl
  | relation | name | number => exact congrArg _ (congrArg _ String.ofList_toList)
  | _ => rfl

theorem rule_mem_all (t : Token) : t.rule ∈ Rule.all := by
  cases t with
  | arrow a => cases a <;> decide
  | _ => simp [rule, Rule.all, marks]

end Token

namespace Rule

/-! ## What a space can be part of -/

/-- The rules whose texts may hold spaces. -/
def spacious : List Rule :=
  [separators, lineComment, blockComment, string]

variable {r : Rule} {w text v : List Char}

theorem mem_spacious_of_space_mem (hr : r ∈ all) (hw : w ∈ r.pattern) (hspace : ' ' ∈ w) :
    r ∈ spacious := by
  cases r with
  | separators | lineComment | blockComment | string => decide
  | mark token =>
      obtain rfl := Pattern.mem_word.1 hw
      have hmarks : ∀ token ∈ marks, ' ' ∉ token.render.toList := by decide
      exact absurd hspace (hmarks token (mark_mem_all.1 hr))
  | relation =>
      obtain ⟨keyword, hkeyword, rfl⟩ := hw
      have hkeywords : ∀ keyword ∈ relationKeywords, ' ' ∉ keyword.toList := by decide
      exact absurd hspace (hkeywords keyword hkeyword)
  | name =>
      obtain ⟨c, more, rfl, hc, hmore⟩ := mem_pattern_name.1 hw
      rcases List.mem_cons.1 hspace with rfl | hspace
      · exact absurd hc (by decide)
      · exact absurd (hmore _ hspace) (by decide)
  | number =>
      obtain ⟨whole, -, hwhole, hw⟩ := mem_pattern_number.1 hw
      rcases hw with rfl | ⟨fraction, -, hfraction, rfl⟩
      · exact absurd (hwhole _ hspace) (by decide)
      · rcases List.mem_append.1 hspace with hspace | hspace
        · exact absurd (hwhole _ hspace) (by decide)
        · exact absurd (hfraction _ (List.mem_of_ne_of_mem (by decide) hspace)) (by decide)
  | symbol =>
      obtain ⟨c, hc, rfl⟩ := hw
      obtain rfl := List.mem_singleton.1 hspace
      exact absurd hc (by decide)

/-- The rule of a text that goes on past a space shows before the space. -/
theorem kindOf_of_append_space (hspacious : r ∈ spacious) (hw : text ++ ' ' :: v ∈ r.pattern)
    (hne : text ≠ []) : kindOf text = r := by
  obtain ⟨c, more, rfl⟩ := List.exists_cons_of_ne_nil hne
  cases r with
  | separators => exact if_pos ((mem_pattern_separators.1 hw).2 c List.mem_cons_self)
  | lineComment =>
      obtain ⟨body, hbody, -⟩ := mem_pattern_lineComment.1 hw
      cases more with
      | nil => cases hbody
      | cons d more =>
          obtain ⟨rfl, htail⟩ := List.cons.inj hbody
          obtain rfl := (List.cons.inj htail).1
          rfl
  | blockComment =>
      obtain ⟨body, hbody, -⟩ := mem_pattern_blockComment.1 hw
      cases more with
      | nil => cases hbody
      | cons d more =>
          obtain ⟨rfl, htail⟩ := List.cons.inj hbody
          obtain rfl := (List.cons.inj htail).1
          rfl
  | string =>
      obtain ⟨body, -, hbody⟩ := mem_pattern_string.1 hw
      obtain rfl := (List.cons.inj hbody).1
      rfl
  | mark | relation | name | number | symbol => simp [spacious] at hspacious

end Rule

/-! ## One token before a space -/

theorem not_takenAsName_space {w rest : List Char} (hrest : ∀ c ∈ rest.head?, c = ' ') :
    ¬Rule.TakenAsName w rest := by
  rintro ⟨-, hnext⟩
  cases rest with
  | nil => cases hnext
  | cons c rest =>
      obtain rfl := hrest c rfl
      cases hnext

section BeforeSpace

variable {t : Token} (h : t.Writable) {rest : List Char} (hrest : ∀ c ∈ rest.head?, c = ' ')

namespace Token

include h

theorem kindOf_written :
    Rule.kindOf t.written.toList = if t.rule = .relation then .name else t.rule :=
  Rule.kindOf_eq t.rule_mem_all (t.written_mem_pattern h)

/-- The one keyword that a name could be is ruled out. -/
theorem not_mem_pattern_relation (hrule : t.rule ≠ .relation) :
    t.written.toList ∉ Rule.relation.pattern := by
  rintro ⟨keyword, hkeyword, hwritten⟩
  have hkind := kindOf_written h
  rw [if_neg hrule, hwritten, Rule.kindOf_relation keyword hkeyword] at hkind
  cases t with
  | name text =>
      change text.toList = keyword.toList at hwritten
      have hall := Rule.all_continuesName_of_mem_pattern h.1
      rw [hwritten, Rule.all_continuesName_iff keyword hkeyword, ← hwritten] at hall
      exact h.2 (String.toList_inj.1 hall)
  | _ => cases hkind

include hrest

theorem length_le_written {r : Rule} (hr : r ∈ Rule.all) {w : List Char} (hw : w ∈ r.pattern)
    (hcs : w <+: t.written.toList ++ rest) : w.length ≤ t.written.toList.length := by
  have hmem := t.written_mem_pattern h
  by_contra hlonger
  -- A longer text reaches past the end of the token, so it goes on with the space.
  obtain ⟨v, rfl⟩ : ∃ v, w = t.written.toList ++ ' ' :: v := by
    obtain ⟨u, rfl⟩ := List.prefix_of_prefix_length_le (List.prefix_append _ rest) hcs
      (Nat.le_of_not_le hlonger)
    cases u with
    | nil => simp at hlonger
    | cons c v =>
        obtain ⟨more, rfl⟩ := (List.prefix_append_right_inj _).1 hcs
        obtain rfl := hrest c rfl
        exact ⟨v, rfl⟩
  have hspacious := Rule.mem_spacious_of_space_mem hr hw (by simp)
  have hkind := Rule.kindOf_of_append_space hspacious hw
    (Rule.ne_nil_of_mem_pattern t.rule_mem_all hmem)
  rw [kindOf_written h] at hkind
  subst hkind
  cases t with
  | string text =>
      refine hlonger ((Rule.length_le_reach (r := .string) nofun nofun hw hcs).trans_eq ?_)
      exact Rule.reach_string hmem rest
  | _ => simp [rule, Rule.spacious] at hspacious

theorem length_le_reach_rule :
    t.written.toList.length ≤ t.rule.reach (t.written.toList ++ rest) := by
  have hmem := t.written_mem_pattern h
  cases t with
  | relation keyword => exact Rule.length_le_reach_relation hmem (not_takenAsName_space hrest)
  | symbol c =>
      have hwritten : (symbol c).written.toList = [c] := String.toList_singleton c
      have hopen : c = '/' → rest.head? ≠ some '*' := by
        intro _ hstar
        exact absurd (hrest '*' hstar) (by decide)
      rw [hwritten]
      exact (Rule.reach_symbol h hopen).ge
  | _ => exact Rule.length_le_reach nofun nofun hmem (List.prefix_append _ _)

end Token

include h hrest

theorem isLongest_written : IsLongest t.written.toList rest := by
  have hmem := t.written_mem_pattern h
  have hne := Rule.ne_nil_of_mem_pattern t.rule_mem_all hmem
  have hle := (t.length_le_reach_rule h hrest).trans
    (Rule.reach_le_reach_longest t.rule_mem_all _)
  have hreach := (List.length_pos_of_ne_nil hne).trans_le hle
  obtain ⟨w, hw, hcs, hlength⟩ := (Rule.reach_attained _ _).resolve_left hreach.ne'
  have hge := t.length_le_written h hrest (Rule.longest_mem_all _) hw hcs
  obtain rfl : w = t.written.toList := by
    refine (List.prefix_of_prefix_length_le hcs (List.prefix_append _ _) hge).eq_of_length ?_
    omega
  exact ⟨hne, hw, hlength.symm⟩

theorem longest_written : Rule.longest (t.written.toList ++ rest) = t.rule := by
  have hlongest := isLongest_written h hrest
  have hmem := t.written_mem_pattern h
  have hkind := Rule.kindOf_eq (Rule.longest_mem_all _) hlongest.mem_pattern
  rw [t.kindOf_written h] at hkind
  by_cases hrule : t.rule = .relation
  · rw [hrule] at hmem ⊢
    exact Rule.longest_eq_relation hmem hlongest.reach_eq hlongest.mem_pattern
      (not_takenAsName_space hrest)
  · have hnot : Rule.longest (t.written.toList ++ rest) ≠ .relation := fun hrelation =>
      t.not_mem_pattern_relation h hrule (hrelation ▸ hlongest.mem_pattern)
    rw [if_neg hrule, if_neg hnot] at hkind
    exact hkind.symm

end BeforeSpace

/-! ## All tokens -/

/-- A space between two tokens is read by itself. -/
theorem isLongest_space {cs : List Char} (hcs : ∀ c ∈ cs.head?, ¬isSeparator c) :
    IsLongest [' '] cs ∧ Rule.longest (' ' :: cs) = .separators := by
  have hreach : Rule.separators.reach (' ' :: cs) = 1 := by
    have hstop : cs.takeWhile isSeparator = [] := by
      cases cs with
      | nil => rfl
      | cons c cs => exact List.takeWhile_cons_of_neg (hcs c rfl)
    rw [Rule.reach, List.takeWhile_cons_of_pos (by decide), hstop, List.length_singleton]
  have hrule : Rule.longest (' ' :: cs) = .separators := by
    have hle := Rule.reach_le_reach_longest (r := .separators) (by decide) (' ' :: cs)
    have hpos := Nat.lt_of_lt_of_le Nat.zero_lt_one (hreach ▸ hle)
    obtain ⟨w, hw, hstart, hlength⟩ := (Rule.reach_attained _ _).resolve_left hpos.ne'
    have hkind := Rule.kindOf_eq (Rule.longest_mem_all _) hw
    cases w with
    | nil => exact absurd hlength.symm hpos.ne'
    | cons c w =>
        obtain ⟨rfl, -⟩ := List.cons_prefix_cons.1 hstart
        change Rule.separators = _ at hkind
        split at hkind
        · cases hkind
        · exact hkind.symm
  refine ⟨⟨List.cons_ne_nil _ _, ?_, ?_⟩, hrule⟩
  · rw [List.singleton_append, hrule]
    exact Rule.mem_pattern_separators.2
      ⟨List.cons_ne_nil _ _, List.forall_mem_singleton.2 rfl⟩
  · rw [List.singleton_append, hrule, hreach, List.length_singleton]

theorem scanFrom_space {cs : List Char} (hcs : ∀ c ∈ cs.head?, ¬isSeparator c) (offset : Nat) :
    scanFrom offset (' ' :: cs) = scanFrom (offset + 1) cs := by
  obtain ⟨hlongest, hrule⟩ := isLongest_space hcs
  have hscan := scanFrom_append hlongest offset
  rw [List.singleton_append, hrule] at hscan
  rw [hscan]
  change (scanFrom (offset + 1) cs).map id = scanFrom (offset + 1) cs
  cases scanFrom (offset + 1) cs <;> rfl

theorem Token.not_isSeparator_head {t : Token} (h : t.Writable) (rest : List Char) :
    ∀ c ∈ (t.written.toList ++ rest).head?, ¬isSeparator c := by
  intro c hc hseparator
  have hkind := t.kindOf_written h
  obtain ⟨d, more, hwritten⟩ := List.exists_cons_of_ne_nil
    (Rule.ne_nil_of_mem_pattern t.rule_mem_all (t.written_mem_pattern h))
  rw [hwritten] at hc hkind
  obtain rfl := Option.some.inj hc
  rw [Rule.kindOf, if_pos hseparator] at hkind
  cases t <;> cases hkind

theorem scanFrom_written_append {t : Token} (h : t.Writable) {rest : List Char}
    (hrest : ∀ c ∈ rest.head?, c = ' ') {offset : Nat} {lexemes : List Lexeme}
    (hscan : scanFrom (offset + t.written.utf8ByteSize) rest = .ok lexemes) :
    scanFrom offset (t.written.toList ++ rest) =
      .ok (⟨t, ⟨offset, offset + t.written.utf8ByteSize⟩⟩ :: lexemes) := by
  rw [scanFrom_append (isLongest_written h hrest), longest_written h hrest,
    t.token?_written h, byteLength_toList, hscan]
  rfl

/-- The text of some tokens, each after a space. -/
def Token.spacedText (ts : List Token) : List Char :=
  ts.flatMap fun t => ' ' :: t.written.toList

theorem Token.head?_spacedText (ts : List Token) : ∀ c ∈ (spacedText ts).head?, c = ' ' := by
  intro c hc
  cases ts with
  | nil => cases hc
  | cons t ts => exact (Option.some.inj hc).symm

theorem toList_intercalate_written (t : Token) (ts : List Token) :
    (" ".intercalate ((t :: ts).map Token.written)).toList =
      t.written.toList ++ Token.spacedText ts := by
  induction ts generalizing t with
  | nil => simp [Token.spacedText]
  | cons u ts ih =>
      rw [List.map_cons, List.map_cons, String.intercalate_cons_cons, String.toList_append,
        ← List.map_cons, ih]
      simp [Token.spacedText]

theorem scanFrom_written {t : Token} (h : t.Writable) {ts : List Token}
    (hts : ∀ t ∈ ts, t.Writable) (offset : Nat) :
    scanFrom offset (t.written.toList ++ Token.spacedText ts) =
      .ok (Token.spaced offset (t :: ts)) := by
  induction ts generalizing t offset with
  | nil =>
      refine scanFrom_written_append h (Token.head?_spacedText []) ?_
      rw [Token.spacedText, List.flatMap_nil, scanFrom]
      rfl
  | cons u ts ih =>
      obtain ⟨hu, hts⟩ := List.forall_mem_cons.1 hts
      refine scanFrom_written_append h (Token.head?_spacedText (u :: ts)) ?_
      change scanFrom _ (' ' :: (u.written.toList ++ Token.spacedText ts)) = _
      rw [scanFrom_space (u.not_isSeparator_head hu _)]
      exact ih hu hts _

/-- Tokens that are written with spaces between them are read again. -/
theorem scan_written {ts : List Token} (h : ∀ t ∈ ts, t.Writable) :
    scan (" ".intercalate (ts.map Token.written)) = .ok (Token.spaced 0 ts) := by
  cases ts with
  | nil =>
      rw [List.map_nil, String.intercalate_nil, scan, String.toList_empty, scanFrom]
      rfl
  | cons t ts =>
      obtain ⟨ht, hts⟩ := List.forall_mem_cons.1 h
      rw [scan, toList_intercalate_written]
      exact scanFrom_written ht hts 0

/-- Slashes, quotes and the parts of an arrow stay apart. -/
theorem scan_written_apart :
    let tokens : List Token := [.symbol '/', .symbol '/', .symbol '<', .symbol '-', .symbol '>',
      .string "\"\\\n", .name "é", .number "1.5", .relation "Partnership"]
    scan (" ".intercalate (tokens.map Token.written)) = .ok (Token.spaced 0 tokens) := by
  refine scan_written ?_
  simp only [List.forall_mem_cons]
  have hname : ['é'] ∈ Rule.name.pattern :=
    Rule.mem_pattern_name.2 ⟨'é', [], rfl, by decide, nofun⟩
  have hnumber : ['1', '.', '5'] ∈ Rule.number.pattern := Rule.mem_pattern_number.2
    ⟨['1'], List.cons_ne_nil _ _, List.forall_mem_singleton.2 rfl,
      .inr ⟨['5'], List.cons_ne_nil _ _, List.forall_mem_singleton.2 rfl, rfl⟩⟩
  have hkeyword : "Partnership" ∈ relationKeywords := by decide
  exact ⟨rfl, rfl, rfl, rfl, rfl, trivial, ⟨hname, by decide⟩, hnumber, hkeyword, nofun⟩

end Landscape
