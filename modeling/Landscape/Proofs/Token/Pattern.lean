import Landscape.Token.Rule
import Mathlib.Computability.Language
import Mathlib.Data.List.Chain

/-!
# The texts of a rule

`Rule.reach` finds the end of a token by a loop of its own for each kind. What
the texts of a kind are is said here without a loop, as a regular language over
classes of characters (`Rule.pattern`). These languages are what the loops are
held against.

Beside each language stands what it amounts to. For most that is a class of
first characters and a class of further ones. The language of block comments
counts stars in order not to run past the first `*/`, and it takes an argument
to see that it does just that: a comment goes on as long as no star is followed
by a slash (`Pattern.mem_commentBody`).

The languages do not overlap, with one exception: a keyword can also be a name.
The rule of a text can therefore be told from the text (`Rule.kindOf_eq`), mostly
from its first character.
-/

namespace Landscape

open Computability Text

namespace Pattern

variable {l : Language Char} {p : Char → Bool} {s : String} {v w : List Char}

/-! ## Building blocks -/

/-- One character of a class. -/
def oneOf (p : Char → Bool) : Language Char :=
  {w | ∃ c, p c ∧ w = [c]}

/-- One fixed text. -/
def word (s : String) : Language Char :=
  {s.toList}

def atLeastOnce (l : Language Char) : Language Char :=
  l * l∗

theorem mem_word : w ∈ word s ↔ w = s.toList :=
  Iff.rfl

theorem mem_oneOf_mul : w ∈ oneOf p * l ↔ ∃ c, p c ∧ ∃ v ∈ l, w = c :: v := by
  refine ⟨fun h => ?_, fun ⟨c, hc, v, hv, hw⟩ => ⟨[c], ⟨c, hc, rfl⟩, v, hv, hw.symm⟩⟩
  obtain ⟨_, ⟨c, hc, rfl⟩, v, hv, rfl⟩ := h
  exact ⟨c, hc, v, hv, rfl⟩

theorem mem_word_mul : w ∈ word s * l ↔ ∃ v ∈ l, w = s.toList ++ v := by
  refine ⟨fun h => ?_, fun ⟨v, hv, hw⟩ => ⟨s.toList, rfl, v, hv, hw.symm⟩⟩
  obtain ⟨_, rfl, v, hv, rfl⟩ := h
  exact ⟨v, hv, rfl⟩

theorem mem_mul_word : w ∈ l * word s ↔ ∃ v ∈ l, w = v ++ s.toList := by
  refine ⟨fun h => ?_, fun ⟨v, hv, hw⟩ => ⟨v, hv, s.toList, rfl, hw.symm⟩⟩
  obtain ⟨v, hv, _, rfl, rfl⟩ := h
  exact ⟨v, hv, rfl⟩

theorem append_mem_kstar (hv : v ∈ l) (hw : w ∈ l∗) : v ++ w ∈ l∗ :=
  Set.mem_of_mem_of_subset (Language.append_mem_mul hv hw) (mul_kstar_le_kstar (a := l))

theorem kstar_induction {motive : List Char → Prop} (nil : motive [])
    (append : ∀ v ∈ l, ∀ w ∈ l∗, motive w → motive (v ++ w)) (hw : w ∈ l∗) : motive w := by
  obtain ⟨parts, rfl, hparts⟩ := Language.mem_kstar.1 hw
  clear hw
  induction parts with
  | nil => exact nil
  | cons v parts ih =>
      obtain ⟨hv, hparts⟩ := List.forall_mem_cons.1 hparts
      exact append v hv _ (Language.join_mem_kstar hparts) (ih hparts)

theorem mem_kstar_oneOf : w ∈ (oneOf p)∗ ↔ ∀ c ∈ w, p c := by
  refine ⟨fun h => ?_, fun h => ?_⟩
  · refine kstar_induction (motive := fun w => ∀ c ∈ w, p c) nofun ?_ h
    rintro _ ⟨c, hc, rfl⟩ w - hw
    exact List.forall_mem_cons.2 ⟨hc, hw⟩
  · induction w with
    | nil => exact Language.nil_mem_kstar _
    | cons c w ih =>
        obtain ⟨hc, hw⟩ := List.forall_mem_cons.1 h
        exact append_mem_kstar (v := [c]) ⟨c, hc, rfl⟩ (ih hw)

theorem mem_oneOf_mul_kstar {q : Char → Bool} :
    w ∈ oneOf p * (oneOf q)∗ ↔ ∃ c v, w = c :: v ∧ p c ∧ ∀ d ∈ v, q d := by
  simp only [mem_oneOf_mul, mem_kstar_oneOf]
  exact ⟨fun ⟨c, hc, v, hv, hw⟩ => ⟨c, v, hw, hc, hv⟩,
    fun ⟨c, v, hw, hc, hv⟩ => ⟨c, hc, v, hv, hw⟩⟩

theorem mem_atLeastOnce_oneOf : w ∈ atLeastOnce (oneOf p) ↔ w ≠ [] ∧ ∀ c ∈ w, p c := by
  rw [atLeastOnce, mem_oneOf_mul_kstar]
  cases w <;> simp

/-! ## Comments -/

/-- A stretch without a star, and the stars after it. -/
def commentStretch : Language Char :=
  (oneOf (· != '*'))∗ * atLeastOnce (oneOf (· == '*'))

/-- What stands between `/*` and the closing slash: stretches of which only the
first may be without a character before its stars, and only the first may start
with a slash. -/
def commentBody : Language Char :=
  commentStretch * (oneOf (fun c => c != '/' && c != '*') * commentStretch)∗

/-- Nowhere in the text a star is followed by a slash. -/
def StaysOpen (w : List Char) : Prop :=
  w.IsChain fun a b => ¬(a = '*' ∧ b = '/')

theorem staysOpen_iff : StaysOpen w ↔ ¬"*/".toList <:+: w := by
  rw [StaysOpen, List.isChain_iff_forall_rel_of_append_cons_cons]
  refine ⟨fun h ⟨before, after, hw⟩ => ?_, fun h a b before after hw ⟨ha, hb⟩ => ?_⟩
  · have hw : w = before ++ '*' :: '/' :: after := by simpa using hw.symm
    exact h hw ⟨rfl, rfl⟩
  · exact h ⟨before, after, by simp [hw, ha, hb]⟩

/-- The text ends in a star, and nowhere in it a star is followed by a slash. -/
def EndsInStar (w : List Char) : Prop :=
  StaysOpen w ∧ ∃ v, w = v ++ ['*']

theorem StaysOpen.of_forall_ne (h : ∀ c ∈ w, c ≠ '*') : StaysOpen w := by
  rw [StaysOpen, List.isChain_iff_forall_rel_of_append_cons_cons]
  rintro a b before after rfl ⟨ha, -⟩
  exact h a (by simp) ha

theorem StaysOpen.of_forall_eq (h : ∀ c ∈ w, c = '*') : StaysOpen w := by
  rw [StaysOpen, List.isChain_iff_forall_rel_of_append_cons_cons]
  rintro a b before after rfl ⟨-, rfl⟩
  exact absurd (h '/' (by simp)) (by decide)

theorem EndsInStar.append (hv : EndsInStar v) (hw : EndsInStar w) (head : w.head? ≠ some '/') :
    EndsInStar (v ++ w) := by
  obtain ⟨u, hu⟩ := hw.2
  refine ⟨hv.1.append hw.1 fun a _ b hb ⟨_, hslash⟩ => head (hslash ▸ hb), v ++ u, ?_⟩
  rw [hu, List.append_assoc]

theorem mem_commentStretch :
    w ∈ commentStretch ↔
      ∃ a s, w = a ++ s ∧ (∀ c ∈ a, c ≠ '*') ∧ s ≠ [] ∧ ∀ c ∈ s, c = '*' := by
  simp only [commentStretch, Language.mem_mul, mem_kstar_oneOf, mem_atLeastOnce_oneOf,
    bne_iff_ne, beq_iff_eq]
  exact ⟨fun ⟨a, ha, s, hs, hw⟩ => ⟨a, s, hw.symm, ha, hs⟩,
    fun ⟨a, s, hw, ha, hs⟩ => ⟨a, ha, s, hs, hw.symm⟩⟩

theorem endsInStar_of_mem_commentStretch (h : w ∈ commentStretch) : EndsInStar w := by
  obtain ⟨a, s, rfl, ha, hne, hs⟩ := mem_commentStretch.1 h
  refine ⟨List.IsChain.append (StaysOpen.of_forall_ne ha) (StaysOpen.of_forall_eq hs)
    fun _ _ b hb ⟨_, hslash⟩ => ?_, ?_⟩
  · exact absurd (hslash ▸ hs b (List.mem_of_mem_head? hb)) (by decide)
  · obtain ⟨s, last, rfl⟩ := (List.eq_nil_or_concat s).resolve_left hne
    obtain rfl := hs last (by simp)
    exact ⟨a ++ s, by simp⟩

theorem star_mem_commentStretch : ['*'] ∈ commentStretch :=
  mem_commentStretch.2 ⟨[], ['*'], rfl, nofun, List.cons_ne_nil _ _, by simp⟩

/-- A star in front of a comment joins the stars that come first, or makes the
first stretch a later one. -/
theorem cons_mem_commentBody {c : Char} (hw : w ∈ commentBody)
    (h : c = '*' → w.head? ≠ some '/') : c :: w ∈ commentBody := by
  obtain ⟨first, hfirst, others, hothers, rfl⟩ := hw
  obtain ⟨a, s, rfl, ha, hne, hs⟩ := mem_commentStretch.1 hfirst
  by_cases hc : c = '*'
  · subst hc
    cases a with
    | nil =>
        have hstars : ∀ c ∈ '*' :: s, c = '*' := List.forall_mem_cons.2 ⟨rfl, hs⟩
        exact ⟨'*' :: s, mem_commentStretch.2 ⟨[], _, rfl, nofun, List.cons_ne_nil _ _, hstars⟩,
          others, hothers, rfl⟩
    | cons b a =>
        obtain ⟨hb, ha⟩ := List.forall_mem_cons.1 ha
        have hslash : b ≠ '/' := by simpa using h rfl
        have hstretch : a ++ s ∈ commentStretch := mem_commentStretch.2 ⟨a, s, rfl, ha, hne, hs⟩
        have hb : (b != '/' && b != '*') = true := by simp [hslash, hb]
        exact ⟨['*'], star_mem_commentStretch, b :: (a ++ s) ++ others,
          append_mem_kstar (mem_oneOf_mul.2 ⟨b, hb, _, hstretch, rfl⟩) hothers, rfl⟩
  · have hca : ∀ d ∈ c :: a, d ≠ '*' := List.forall_mem_cons.2 ⟨hc, ha⟩
    exact ⟨c :: (a ++ s), mem_commentStretch.2 ⟨c :: a, s, rfl, hca, hne, hs⟩, others, hothers, rfl⟩

/-- The stretches of a comment add up to a text that ends in its first star
before a slash. -/
theorem mem_commentBody : w ∈ commentBody ↔ EndsInStar w := by
  constructor
  · rintro ⟨first, hfirst, others, hothers, rfl⟩
    have later : ∀ v, EndsInStar v → EndsInStar (v ++ others) := by
      refine kstar_induction (motive := fun w => ∀ v, EndsInStar v → EndsInStar (v ++ w))
        (fun v hv => by rwa [List.append_nil]) ?_ hothers
      intro w hw rest _ ih v hv
      obtain ⟨c, hc, stretch, hstretch, rfl⟩ := mem_oneOf_mul.1 hw
      have hc : c ≠ '/' ∧ c ≠ '*' := by simpa using hc
      obtain ⟨hopen, u, rfl⟩ := endsInStar_of_mem_commentStretch hstretch
      rw [← List.append_assoc]
      refine ih _ (hv.append ⟨hopen.cons fun _ _ h => hc.2 h.1, c :: u, rfl⟩ ?_)
      simpa using hc.1
    exact later first (endsInStar_of_mem_commentStretch hfirst)
  · rintro ⟨hopen, v, rfl⟩
    induction v with
    | nil => exact ⟨['*'], star_mem_commentStretch, [], Language.nil_mem_kstar _, rfl⟩
    | cons c v ih =>
        exact cons_mem_commentBody (ih hopen.tail) fun hc hslash =>
          hopen.rel_head? hslash ⟨hc, rfl⟩

/-! ## Strings -/

/-- One character between the quotes, with the backslash before it if it has one. -/
def stringItem : Language Char :=
  oneOf (fun c => c != '"' && c != '\\') + word "\\" * oneOf (· != '\n')

theorem plain_mem_stringItem {c : Char} (hquote : c ≠ '"') (hslash : c ≠ '\\') :
    [c] ∈ stringItem :=
  .inl ⟨c, by simp [hquote, hslash], rfl⟩

theorem escaped_mem_stringItem {c : Char} (h : c ≠ '\n') : ['\\', c] ∈ stringItem :=
  .inr (mem_word_mul.2 ⟨[c], ⟨c, by simpa, rfl⟩, rfl⟩)

end Pattern

namespace Rule

open Pattern

/-- The texts of a rule. -/
def pattern : Rule → Language Char
  | separators => atLeastOnce (oneOf isSeparator)
  | lineComment => word "//" * (oneOf (· != '\n'))∗
  | blockComment => word "/*" * (commentBody * word "/")
  | mark token => word token.render
  | relation => {w | ∃ keyword ∈ relationKeywords, w = keyword.toList}
  | name => oneOf startsName * (oneOf continuesName)∗
  | string => word "\"" * (stringItem∗ * word "\"")
  | number =>
    atLeastOnce (oneOf Char.isDigit) * (1 + word "." * atLeastOnce (oneOf Char.isDigit))
  | symbol => oneOf isSymbol

variable {w : List Char}

theorem mem_pattern_separators : w ∈ pattern separators ↔ w ≠ [] ∧ ∀ c ∈ w, isSeparator c :=
  mem_atLeastOnce_oneOf

theorem mem_pattern_lineComment :
    w ∈ pattern lineComment ↔ ∃ body, w = '/' :: '/' :: body ∧ ∀ c ∈ body, c ≠ '\n' := by
  simp only [pattern, mem_word_mul, mem_kstar_oneOf, bne_iff_ne]
  exact ⟨fun ⟨body, hbody, hw⟩ => ⟨body, hw, hbody⟩, fun ⟨body, hw, hbody⟩ => ⟨body, hbody, hw⟩⟩

theorem mem_pattern_blockComment :
    w ∈ pattern blockComment ↔
      ∃ body, w = '/' :: '*' :: body ++ ['*', '/'] ∧ StaysOpen (body ++ ['*']) := by
  simp only [pattern, mem_word_mul, mem_mul_word, mem_commentBody]
  constructor
  · rintro ⟨_, ⟨_, ⟨hopen, body, rfl⟩, rfl⟩, rfl⟩
    exact ⟨body, by simp, hopen⟩
  · rintro ⟨body, rfl, hopen⟩
    exact ⟨_, ⟨_, ⟨hopen, body, rfl⟩, rfl⟩, by simp⟩

theorem mem_pattern_name :
    w ∈ pattern name ↔ ∃ c rest, w = c :: rest ∧ startsName c ∧ ∀ d ∈ rest, continuesName d :=
  mem_oneOf_mul_kstar

theorem mem_pattern_string :
    w ∈ pattern string ↔ ∃ body ∈ stringItem∗, w = '"' :: body ++ ['"'] := by
  simp only [pattern, mem_word_mul, mem_mul_word]
  constructor
  · rintro ⟨_, ⟨body, hbody, rfl⟩, rfl⟩
    exact ⟨body, hbody, rfl⟩
  · rintro ⟨body, hbody, rfl⟩
    exact ⟨_, ⟨body, hbody, rfl⟩, rfl⟩

/-- A whole number, or one with a point and a fraction. -/
theorem mem_pattern_number :
    w ∈ pattern number ↔
      ∃ whole, whole ≠ [] ∧ (∀ c ∈ whole, c.isDigit) ∧
        (w = whole ∨ ∃ fraction, fraction ≠ [] ∧ (∀ c ∈ fraction, c.isDigit) ∧
          w = whole ++ '.' :: fraction) := by
  simp only [pattern, Language.mem_mul, Language.mem_add, Language.mem_one,
    mem_atLeastOnce_oneOf]
  constructor
  · rintro ⟨whole, ⟨hne, hwhole⟩, _, rfl | ⟨_, rfl, fraction, ⟨hne', hfraction⟩, rfl⟩, rfl⟩
    · exact ⟨whole, hne, hwhole, .inl (List.append_nil _)⟩
    · exact ⟨whole, hne, hwhole, .inr ⟨fraction, hne', hfraction, rfl⟩⟩
  · rintro ⟨whole, hne, hwhole, rfl | ⟨fraction, hne', hfraction, rfl⟩⟩
    · exact ⟨w, ⟨hne, hwhole⟩, [], .inl rfl, List.append_nil _⟩
    · exact ⟨whole, ⟨hne, hwhole⟩, _, .inr ⟨_, rfl, fraction, ⟨hne', hfraction⟩, rfl⟩, rfl⟩

/-! ## One rule for each text -/

/-- The rule that a text belongs to, told from its first characters. Keywords
count as names here. -/
def kindOf : List Char → Rule
  | [] => symbol
  | c :: rest =>
    if isSeparator c then separators
    else if startsName c then name
    else if c.isDigit then number
    else if c = '"' then string
    else if c = '/' ∧ rest.head? = some '/' then lineComment
    else if c = '/' ∧ rest.head? = some '*' then blockComment
    else if isSymbol c ∧ rest = [] then symbol
    else mark ((marks.find? fun token => token.render.toList == c :: rest).getD .comma)

theorem not_startsName_of_isSeparator {c : Char} (h : isSeparator c) : ¬startsName c := by
  simp only [isSeparator, Bool.or_eq_true, beq_iff_eq] at h
  rcases h with (((rfl | rfl) | rfl) | rfl) | rfl <;> decide

theorem not_isDigit_of_isSeparator {c : Char} (h : isSeparator c) : ¬c.isDigit := by
  simp only [isSeparator, Bool.or_eq_true, beq_iff_eq] at h
  rcases h with (((rfl | rfl) | rfl) | rfl) | rfl <;> decide

theorem isBlank_of_isSeparator {c : Char} (h : isSeparator c) : isBlank c := by
  simp only [isSeparator, Bool.or_eq_true, beq_iff_eq] at h
  rcases h with (((rfl | rfl) | rfl) | rfl) | rfl <;> decide

theorem not_startsName_of_isDigit {c : Char} (h : c.isDigit) : ¬startsName c := by
  have hdigit : 48 ≤ c.val.toNat ∧ c.val.toNat ≤ 57 := by
    obtain ⟨hlow, hhigh⟩ := Bool.and_eq_true_iff.1 h
    exact ⟨of_decide_eq_true hlow, of_decide_eq_true hhigh⟩
  have hupper : ¬c.isUpper := fun h => by
    have hlow : 65 ≤ c.val.toNat := (of_decide_eq_true h).1
    omega
  have hlower : ¬c.isLower := fun h => by
    have hlow : 97 ≤ c.val.toNat := of_decide_eq_true (Bool.and_eq_true_iff.1 h).1
    omega
  have hunderscore : c ≠ '_' := by
    rintro rfl
    exact absurd h (by decide)
  have hletter : isLetter c = c.isAlpha := if_pos (by change c.val.toNat < 128; omega)
  rw [startsName, hletter, Bool.or_eq_true, beq_iff_eq]
  exact not_or.2 ⟨fun halpha => (Bool.or_eq_true_iff.1 halpha).elim hupper hlower, hunderscore⟩

/-- A symbol is of none of the other classes. -/
theorem classes_of_isSymbol {c : Char} (h : isSymbol c) :
    ¬isSeparator c ∧ ¬startsName c ∧ ¬c.isDigit ∧ c ∉ "\x7b\x7d[],=:\"".toList := by
  have h : (¬isBlank c ∧ ¬isLetter c ∧ ¬c.isDigit) ∧ c ∉ "_\x7b\x7d[],=:\"".toList := by
    simpa [isSymbol, and_assoc] using h
  obtain ⟨⟨hblank, hletter, hdigit⟩, hother⟩ := h
  have hunderscore : c ≠ '_' := fun hc => hother (hc ▸ by decide)
  exact ⟨fun hc => hblank (isBlank_of_isSeparator hc), by simp [startsName, hletter, hunderscore],
    hdigit, fun hc => hother (List.mem_cons_of_mem '_' hc)⟩

theorem mark_mem_all {token : Token} : mark token ∈ all ↔ token ∈ marks := by
  simp [all]

theorem kindOf_mark : ∀ token ∈ marks, kindOf token.render.toList = mark token := by
  decide

theorem kindOf_relation : ∀ keyword ∈ relationKeywords, kindOf keyword.toList = name := by
  decide

/-- Only keywords and names have texts in common. -/
theorem kindOf_eq {r : Rule} (hr : r ∈ all) (hw : w ∈ r.pattern) :
    kindOf w = if r = relation then name else r := by
  cases r with
  | separators =>
      obtain ⟨hne, h⟩ := mem_pattern_separators.1 hw
      obtain ⟨c, rest, rfl⟩ := List.exists_cons_of_ne_nil hne
      exact if_pos (h c List.mem_cons_self)
  | lineComment =>
      obtain ⟨body, rfl, -⟩ := mem_pattern_lineComment.1 hw
      rfl
  | blockComment =>
      obtain ⟨body, rfl, -⟩ := mem_pattern_blockComment.1 hw
      rfl
  | mark token =>
      obtain rfl := mem_word.1 hw
      exact kindOf_mark token (mark_mem_all.1 hr)
  | relation =>
      obtain ⟨keyword, hkeyword, rfl⟩ := hw
      exact kindOf_relation keyword hkeyword
  | name =>
      obtain ⟨c, rest, rfl, hc, -⟩ := mem_pattern_name.1 hw
      have hseparator : ¬isSeparator c := fun h => not_startsName_of_isSeparator h hc
      simp [kindOf, hseparator, hc]
  | string =>
      obtain ⟨body, -, rfl⟩ := mem_pattern_string.1 hw
      rfl
  | number =>
      obtain ⟨whole, hne, hwhole, hw⟩ := mem_pattern_number.1 hw
      obtain ⟨c, digits, rfl⟩ := List.exists_cons_of_ne_nil hne
      have hc := hwhole c List.mem_cons_self
      have hseparator : ¬isSeparator c := fun h => not_isDigit_of_isSeparator h hc
      rcases hw with rfl | ⟨fraction, -, -, rfl⟩ <;>
        simp [kindOf, hseparator, not_startsName_of_isDigit hc, hc]
  | symbol =>
      obtain ⟨c, hc, rfl⟩ := hw
      obtain ⟨hseparator, hname, hdigit, hother⟩ := classes_of_isSymbol hc
      have hquote : c ≠ '"' := fun h => hother (h ▸ by decide)
      simp [kindOf, hseparator, hname, hdigit, hquote, hc]

theorem ne_nil_of_mem_pattern {r : Rule} (hr : r ∈ all) (hw : w ∈ r.pattern) : w ≠ [] := by
  rintro rfl
  have hkind := kindOf_eq hr hw
  split at hkind
  · cases hkind
  · obtain rfl : symbol = r := hkind
    obtain ⟨c, -, h⟩ := hw
    cases h

end Rule

end Landscape
