import Landscape.Proofs.Token.Munch

/-!
# Where no rule applies

A place in a text at which scanning stops is told from what is found there
(`Stuck`): a comment or a string that is never closed, or a blank that separates
nothing. That there are no more such places is a matter of going through the
classes of characters, for any other character is a token by itself if nothing
longer starts with it (`stuck_iff`).

A longest text stays one when the text is cut off behind it
(`IsLongest.truncate`), since to be cut off makes no place stuck that was not:
a comment or a string is closed in what was read of it, or not at all. And what
is skipped is skipped whatever follows (`Skipped.scanFrom`), because a run of
separators may be read in pieces.
-/

namespace Landscape

open Computability Text

/-- A text at whose start no token, blank or comment can be read. -/
inductive Stuck : List Char → Prop
  | comment {body : List Char} (unclosed : ¬"*/".toList <:+: body) : Stuck ('/' :: '*' :: body)
  | string {cs : List Char} (unclosed : ∀ w ∈ Rule.string.pattern, ¬w <+: '"' :: cs) :
      Stuck ('"' :: cs)
  | blank {c : Char} {cs : List Char} (blank : isBlank c) (separates : ¬isSeparator c) :
      Stuck (c :: cs)

namespace Rule

/-! ## Blanks -/

/-- The blanks are of no other class but that of the separators. -/
theorem classes_of_isBlank {c : Char} (h : isBlank c) :
    ¬startsName c ∧ ¬c.isDigit ∧ c ≠ '"' ∧ c ≠ '/' ∧ ¬isSymbol c := by
  have hpoints : ∀ n ∈ Blank.ranges.flatMap fun range => List.range' range.1 (range.2 + 1 - range.1),
      ¬startsName (Char.ofNat n) ∧ ¬(Char.ofNat n).isDigit ∧ Char.ofNat n ≠ '"' ∧
        Char.ofNat n ≠ '/' ∧ ¬isSymbol (Char.ofNat n) := by
    decide +kernel
  have hmem : c.toNat ∈
      Blank.ranges.flatMap fun range => List.range' range.1 (range.2 + 1 - range.1) := by
    simp only [isBlank, Blank.ranges, covers_cons, covers_nil, Bool.or_false, Bool.and_eq_true,
      Bool.or_eq_true, decide_eq_true_eq] at h
    simp only [Blank.ranges, List.mem_flatMap, List.mem_cons, List.not_mem_nil, or_false,
      exists_eq_or_imp, exists_eq_left, List.mem_range'_1]
    omega
  have hc := hpoints _ hmem
  rwa [Char.ofNat_toNat] at hc

/-! ## Rules told from texts -/

/-- A text that is not of the kind of a name is of the rule that its first
characters show. -/
theorem eq_of_kindOf_eq {r k : Rule} {w : List Char} (hr : r ∈ all) (hw : w ∈ r.pattern)
    (hkind : kindOf w = k) (hk : k ≠ name) : r = k := by
  rw [kindOf_eq hr hw] at hkind
  split at hkind
  · exact absurd hkind.symm hk
  · exact hkind

theorem not_isBlank_of_mem_marks :
    ∀ token ∈ marks, token.render.toList.head?.any isBlank = false := by
  decide

/-- A blank that separates nothing is at the start of no text. -/
theorem not_mem_pattern_of_isBlank {r : Rule} {c : Char} {v : List Char} (hr : r ∈ all)
    (hblank : isBlank c) (hseparates : ¬isSeparator c) : c :: v ∉ r.pattern := by
  intro hw
  obtain ⟨hname, hdigit, hquote, hslash, hsymbol⟩ := classes_of_isBlank hblank
  obtain ⟨token, hkind⟩ : ∃ token, kindOf (c :: v) = mark token := by
    simp [kindOf, hseparates, hname, hdigit, hquote, hslash, hsymbol]
  obtain rfl := eq_of_kindOf_eq hr hw hkind (by simp)
  have hhead := not_isBlank_of_mem_marks token (mark_mem_all.1 hr)
  rw [← Pattern.mem_word.1 hw, List.head?_cons, Option.any_some, hblank] at hhead
  cases hhead

theorem exists_mem_marks {c : Char} (h : c ∈ "\x7b\x7d[],=:".toList) :
    ∃ token ∈ marks, token.render.toList = [c] := by
  have hall : "\x7b\x7d[],=:".toList.all fun c =>
      marks.any fun token => token.render.toList == [c] := by
    decide
  obtain ⟨token, hmem, hrender⟩ := List.any_eq_true.1 (List.all_eq_true.1 hall c h)
  exact ⟨token, hmem, beq_iff_eq.1 hrender⟩

/-! ## Comments -/

theorem staysOpen_of_commentEnd_eq_none {cs : List Char} {count : Nat}
    (h : commentEnd count cs = none) : Pattern.StaysOpen cs := by
  fun_induction commentEnd count cs with
  | case1 => exact .nil
  | case2 => cases h
  | case3 count c rest hc ih =>
      refine (ih h).cons fun d hd hclose => ?_
      obtain ⟨hstar, hslash⟩ := hclose
      rw [hslash] at hd
      exact hc _ hstar (List.eq_cons_of_mem_head? hd)

/-- A comment that is closed further on is read as one. -/
theorem reach_blockComment_ne_zero {body : List Char} (h : "*/".toList <:+: body) :
    blockComment.reach ('/' :: '*' :: body) ≠ 0 := by
  rw [reach]
  cases hend : commentEnd 2 body with
  | none => exact absurd h (Pattern.staysOpen_iff.1 (staysOpen_of_commentEnd_eq_none hend))
  | some n =>
      obtain ⟨inside, rest, -, -, rfl⟩ := exists_of_commentEnd_eq_some hend
      exact Nat.succ_ne_zero _

theorem infix_of_mem_pattern_blockComment {v : List Char}
    (h : '/' :: '*' :: v ∈ blockComment.pattern) : "*/".toList <:+: v := by
  obtain ⟨inside, hv, -⟩ := mem_pattern_blockComment.1 h
  obtain rfl : v = inside ++ ['*', '/'] := (List.cons.inj (List.cons.inj hv).2).2
  exact ⟨inside, [], by simp⟩

end Rule

/-! ## What is stuck -/

/-- The only text of a rule at a stuck place is the slash of an open comment. -/
theorem Stuck.eq_slash {cs w : List Char} {r : Rule} (h : Stuck cs) (hr : r ∈ Rule.all)
    (hw : w ∈ r.pattern) (hcs : w <+: cs) :
    r = .symbol ∧ w = ['/'] ∧ ∃ body, cs = '/' :: '*' :: body := by
  obtain ⟨d, v, rfl⟩ := List.exists_cons_of_ne_nil (Rule.ne_nil_of_mem_pattern hr hw)
  cases h with
  | @comment body unclosed =>
      obtain ⟨rfl, -⟩ := List.cons_prefix_cons.1 hcs
      cases v with
      | nil => exact ⟨Rule.eq_of_kindOf_eq hr hw (k := .symbol) rfl nofun, rfl, body, rfl⟩
      | cons e v =>
          obtain ⟨rfl, hv⟩ := List.cons_prefix_cons.1 (List.cons_prefix_cons.1 hcs).2
          obtain rfl := Rule.eq_of_kindOf_eq hr hw (k := .blockComment) rfl nofun
          exact absurd ((Rule.infix_of_mem_pattern_blockComment hw).trans hv.isInfix) unclosed
  | string unclosed =>
      obtain ⟨rfl, -⟩ := List.cons_prefix_cons.1 hcs
      obtain rfl := Rule.eq_of_kindOf_eq hr hw (k := .string) rfl nofun
      exact absurd hcs (unclosed _ hw)
  | blank blank separates =>
      obtain ⟨rfl, -⟩ := List.cons_prefix_cons.1 hcs
      exact absurd hw (Rule.not_mem_pattern_of_isBlank hr blank separates)

theorem Stuck.reach_eq_zero {cs : List Char} (h : Stuck cs) {r : Rule} (hr : r ∈ Rule.all) :
    r.reach cs = 0 := by
  refine (r.reach_attained cs).elim id fun ⟨w, hw, hcs, hlength⟩ => ?_
  obtain ⟨rfl, -, body, rfl⟩ := h.eq_slash hr hw hcs
  rfl

/-- Where a character is not the start of a text of any rule, it is stuck. -/
theorem stuck_of_reach_eq_zero {c : Char} {cs : List Char}
    (h : ∀ r ∈ Rule.all, r.reach (c :: cs) = 0) : Stuck (c :: cs) := by
  have hnone {r : Rule} (hr : r ∈ Rule.all) (hrelation : r ≠ .relation) (hsymbol : r ≠ .symbol)
      {w : List Char} (hw : w ∈ r.pattern) : ¬w <+: c :: cs := fun hcs => by
    have hle := Rule.length_le_reach hrelation hsymbol hw hcs
    rw [h r hr, Nat.le_zero, List.length_eq_zero_iff] at hle
    exact Rule.ne_nil_of_mem_pattern hr hw hle
  have hone : [c] <+: c :: cs := ⟨cs, rfl⟩
  by_cases hquote : c = '"'
  · subst hquote
    exact .string fun w hw => hnone (r := .string) (by decide) (by decide) (by decide) hw
  by_cases hblank : isBlank c
  · refine .blank hblank fun hseparator => ?_
    exact hnone (r := .separators) (by decide) (by decide) (by decide)
      (Rule.mem_pattern_separators.2 ⟨List.cons_ne_nil _ _, by simpa⟩) hone
  by_cases hopen : c = '/' ∧ cs.head? = some '*'
  · obtain ⟨rfl, hstar⟩ := hopen
    obtain ⟨body, rfl⟩ : ∃ body, cs = '*' :: body := ⟨cs.tail, List.eq_cons_of_mem_head? hstar⟩
    exact .comment fun hclosed =>
      Rule.reach_blockComment_ne_zero hclosed (h .blockComment (by decide))
  exfalso
  by_cases hname : startsName c
  · exact hnone (r := .name) (by decide) (by decide) (by decide)
      (Rule.mem_pattern_name.2 ⟨c, [], rfl, hname, List.forall_mem_nil _⟩) hone
  by_cases hdigit : c.isDigit
  · exact hnone (r := .number) (by decide) (by decide) (by decide)
      (Rule.mem_pattern_number.2 ⟨[c], List.cons_ne_nil _ _, by simpa, .inl rfl⟩) hone
  by_cases hsymbol : isSymbol c
  · have hreach := Rule.reach_symbol hsymbol fun hslash hstar => hopen ⟨hslash, hstar⟩
    rw [h .symbol (by decide)] at hreach
    cases hreach
  · have hletter : ¬isLetter c := fun hletter => hname (by simp [startsName, hletter])
    have hunderscore : c ≠ '_' := fun hc => hname (by simp [startsName, hc])
    have hother : c ∈ "\x7b\x7d[],=:".toList := by
      by_contra hother
      exact hsymbol (by simp_all [isSymbol])
    obtain ⟨token, htoken, hrender⟩ := Rule.exists_mem_marks hother
    exact hnone (Rule.mark_mem_all.2 htoken) (by simp) (by simp) (Pattern.mem_word.2 hrender.symm)
      hone

/-- Scanning stops just where a text is stuck. -/
theorem stuck_iff {cs : List Char} : Stuck cs ↔ cs ≠ [] ∧ (Rule.longest cs).reach cs = 0 := by
  refine ⟨fun h => ⟨?_, h.reach_eq_zero (Rule.longest_mem_all cs)⟩, fun ⟨hne, hreach⟩ => ?_⟩
  · rintro rfl
    cases h
  · obtain ⟨c, rest, rfl⟩ := List.exists_cons_of_ne_nil hne
    exact stuck_of_reach_eq_zero fun r hr =>
      Nat.le_zero.1 (hreach ▸ Rule.reach_le_reach_longest hr (c :: rest))

namespace IsLongest

variable {text more rest : List Char}

/-- A text of a rule that no rule can make longer is the one that is read. -/
theorem of_maximal {r : Rule} (hr : r ∈ Rule.all) (hmem : text ∈ r.pattern)
    (hfree : ¬Stuck (text ++ rest))
    (hmax : ∀ r ∈ Rule.all, ∀ w ∈ r.pattern, w <+: text ++ rest → w.length ≤ text.length) :
    IsLongest text rest := by
  have hne := Rule.ne_nil_of_mem_pattern hr hmem
  have hreach : (Rule.longest (text ++ rest)).reach (text ++ rest) ≠ 0 := fun hzero =>
    hfree (stuck_iff.2 ⟨List.append_ne_nil_of_left_ne_nil hne rest, hzero⟩)
  have hge := Rule.length_le_reach_longest hr hmem (List.prefix_append text rest) hreach
  obtain ⟨w, hw, hcs, hlength⟩ := (Rule.reach_attained _ _).resolve_left hreach
  have hle := hmax _ (Rule.longest_mem_all _) w hw hcs
  obtain rfl : w = text :=
    (List.prefix_of_prefix_length_le hcs (List.prefix_append text rest) hle).eq_of_length (by omega)
  exact ⟨hne, hw, hlength.symm⟩

theorem not_stuck (h : IsLongest text rest) : ¬Stuck (text ++ rest) := fun hstuck => by
  have hzero := (stuck_iff.1 hstuck).2
  rw [h.reach_eq, List.length_eq_zero_iff] at hzero
  exact h.ne_nil hzero

/-- What is read is also read when nothing follows from some place on. -/
theorem truncate (h : IsLongest text (more ++ rest)) : IsLongest text more := by
  have hall := Rule.longest_mem_all (text ++ (more ++ rest))
  refine of_maximal hall h.mem_pattern (fun hstuck => ?_) fun r hr w hw hcs => ?_
  · obtain ⟨hsymbol, rfl, body, hbody⟩ :=
      hstuck.eq_slash hall h.mem_pattern (List.prefix_append text more)
    -- A slash that opens a comment is no symbol, whatever follows the star.
    have hzero : Rule.symbol.reach (['/'] ++ (more ++ rest)) = 0 := by
      rw [← List.append_assoc, hbody]
      rfl
    have hreach := h.reach_eq
    rw [hsymbol, hzero] at hreach
    cases hreach
  · refine h.length_le r hr w hw (hcs.trans ?_)
    rw [← List.append_assoc]
    exact List.prefix_append _ _

/-- A text whose rule shows in its first characters is read if its rule reaches
just so far. -/
theorem of_kindOf {r : Rule} (hr : r ∈ Rule.all) (hname : r ≠ .name) (hmem : text ∈ r.pattern)
    (hkind : ∀ v, Rule.kindOf (text ++ v) = r) (hreach : r.reach (text ++ rest) = text.length) :
    IsLongest text rest ∧ Rule.longest (text ++ rest) = r := by
  have hne := Rule.ne_nil_of_mem_pattern hr hmem
  have hpos := List.length_pos_of_ne_nil hne
  have hge := hreach ▸ Rule.reach_le_reach_longest hr (text ++ rest)
  obtain ⟨w, hw, hcs, hlength⟩ := (Rule.reach_attained (Rule.longest (text ++ rest)) _).resolve_left
    (Nat.lt_of_lt_of_le hpos hge).ne'
  obtain ⟨v, rfl⟩ :=
    List.prefix_of_prefix_length_le (List.prefix_append text rest) hcs (hlength ▸ hge)
  have hrule := Rule.eq_of_kindOf_eq (Rule.longest_mem_all _) hw (hkind v) hname
  exact ⟨⟨hne, hrule ▸ hmem, hrule ▸ hreach⟩, hrule⟩

end IsLongest

/-! ## What is skipped -/

section Skip

variable {offset : Nat} {text rest : List Char}

theorem scanFrom_skip (h : IsLongest text rest)
    (htoken : (Rule.longest (text ++ rest)).token? text = none) :
    scanFrom offset (text ++ rest) = scanFrom (offset + byteLength text) rest := by
  rw [scanFrom_append h, htoken]
  cases scanFrom (offset + byteLength text) rest <;> rfl

/-- The separators up to the next character that is none are read at once. -/
theorem scanFrom_separators {run : List Char} (hrun : ∀ c ∈ run, isSeparator c)
    (hrest : ∀ c ∈ rest.head?, ¬isSeparator c) (offset : Nat) :
    scanFrom offset (run ++ rest) = scanFrom (offset + byteLength run) rest := by
  cases run with
  | nil => rfl
  | cons c run =>
      have hstop : rest.takeWhile isSeparator = [] := by
        cases rest with
        | nil => rfl
        | cons d rest => exact List.takeWhile_cons_of_neg (hrest d rfl)
      have hreach : Rule.separators.reach (c :: run ++ rest) = (c :: run).length := by
        rw [Rule.reach, List.takeWhile_append_of_pos hrun, hstop, List.append_nil]
      obtain ⟨hlongest, hrule⟩ := IsLongest.of_kindOf (r := .separators) (by decide) (by decide)
        (Rule.mem_pattern_separators.2 ⟨List.cons_ne_nil c run, hrun⟩)
        (fun v => if_pos (hrun c List.mem_cons_self)) hreach
      exact scanFrom_skip hlongest (by rw [hrule]; rfl)

theorem scanFrom_separator {c : Char} (hc : isSeparator c) (cs : List Char) :
    scanFrom offset (c :: cs) = scanFrom (offset + c.utf8Size) cs := by
  have hrun : ∀ d ∈ cs.takeWhile isSeparator, isSeparator d := fun d => List.mem_takeWhile_imp
  have hrest : ∀ d ∈ (cs.dropWhile isSeparator).head?, ¬isSeparator d := fun d hd => by
    have hstop := List.head?_dropWhile_not isSeparator cs
    rw [hd] at hstop
    simpa using hstop
  have hsplit : cs.takeWhile isSeparator ++ cs.dropWhile isSeparator = cs :=
    List.takeWhile_append_dropWhile
  -- Both sides go on behind the run of separators.
  have hleft := scanFrom_separators (List.forall_mem_cons.2 ⟨hc, hrun⟩) hrest offset
  have hright := scanFrom_separators hrun hrest (offset + c.utf8Size)
  rw [List.cons_append, hsplit] at hleft
  rw [hsplit] at hright
  rw [hleft, hright, byteLength_cons, Nat.add_assoc]

theorem scanFrom_lineComment {body : List Char} (hbody : '\n' ∉ body)
    (hrest : ∀ c ∈ rest.head?, c = '\n') (offset : Nat) :
    scanFrom offset ('/' :: '/' :: (body ++ rest)) =
      scanFrom (offset + byteLength ('/' :: '/' :: body)) rest := by
  have hinside : ∀ c ∈ body, c ≠ '\n' := fun c hc heq => hbody (heq ▸ hc)
  have hstop : rest.takeWhile (· != '\n') = [] := by
    cases rest with
    | nil => rfl
    | cons d rest => exact List.takeWhile_cons_of_neg (by simp [hrest d rfl])
  have hreach : Rule.lineComment.reach ('/' :: '/' :: body ++ rest) =
      ('/' :: '/' :: body).length := by
    simp only [List.cons_append, Rule.reach]
    rw [List.takeWhile_append_of_pos (by simpa using hinside), hstop, List.append_nil,
      List.length_cons, List.length_cons, Nat.add_comm]
  obtain ⟨hlongest, hrule⟩ := IsLongest.of_kindOf (r := .lineComment) (by decide) (by decide)
    (Rule.mem_pattern_lineComment.2 ⟨body, rfl, hinside⟩) (fun v => rfl) hreach
  exact scanFrom_skip hlongest (by rw [hrule]; rfl)

theorem scanFrom_blockComment {body : List Char} (hbody : ¬"*/".toList <:+: body ++ ['*'])
    (rest : List Char) (offset : Nat) :
    scanFrom offset ('/' :: '*' :: (body ++ ['*', '/'] ++ rest)) =
      scanFrom (offset + byteLength ('/' :: '*' :: (body ++ ['*', '/']))) rest := by
  have hopen := Pattern.staysOpen_iff.2 hbody
  have hmem : '/' :: '*' :: (body ++ ['*', '/']) ∈ Rule.blockComment.pattern :=
    Rule.mem_pattern_blockComment.2 ⟨body, rfl, hopen⟩
  have hreach : Rule.blockComment.reach ('/' :: '*' :: (body ++ ['*', '/']) ++ rest) =
      ('/' :: '*' :: (body ++ ['*', '/'])).length := by
    have hend := @Rule.commentEnd_append body rest hopen 2
    simp only [List.cons_append, List.append_assoc, List.nil_append, Rule.reach, hend]
    simp only [List.length_append, List.length_cons, List.length_nil, Option.getD_some]
    omega
  obtain ⟨hlongest, hrule⟩ := IsLongest.of_kindOf (r := .blockComment) (by decide) (by decide)
    hmem (fun v => rfl) hreach
  exact scanFrom_skip hlongest (by rw [hrule]; rfl)

end Skip

namespace Skipped

variable {more rest gap : List Char}

/-- What is skipped is skipped in a scan, whatever follows. -/
theorem scanFrom_append (h : Skipped rest gap) (offset : Nat) :
    scanFrom offset (gap ++ rest) = scanFrom (offset + byteLength gap) rest := by
  induction h generalizing offset with
  | nil => rfl
  | separator separates _ ih =>
      rw [List.cons_append, scanFrom_separator separates, ih, byteLength_cons, Nat.add_assoc]
  | @lineComment body gap inside ends _ ih =>
      have hscan := scanFrom_lineComment inside ends offset
      rw [List.cons_append, List.cons_append, List.append_assoc, hscan, ih]
      simp [Nat.add_assoc]
  | @blockComment body gap inside _ ih =>
      have hscan := scanFrom_blockComment inside (gap ++ rest) offset
      rw [List.cons_append, List.cons_append, List.append_assoc, hscan, ih]
      simp [Nat.add_assoc]

theorem truncate (h : Skipped (more ++ rest) gap) : Skipped more gap := by
  induction h with
  | nil => exact .nil
  | separator separates _ ih => exact .separator separates ih
  | @lineComment body gap inside ends _ ih =>
      refine .lineComment inside (fun c hc => ends c ?_) ih
      rw [← List.append_assoc]
      exact List.mem_head?_append_of_mem_head? hc
  | blockComment inside _ ih => exact .blockComment inside ih

end Skipped

end Landscape
