import Landscape.Proofs.Token.Pattern
import Mathlib.Data.List.MinMax
import Mathlib.Data.List.TakeWhile

/-!
# A rule reaches as far as its texts do

The loops of `Rule.reach` are right in two ways. What they measure is a text of
the rule (`Rule.reach_attained`), and the rule has no longer one at that place
(`Rule.length_le_reach`). Each loop is taken by itself first. Those that look for
an end, of a string or of a block comment, are given a text and find its end, or
find an end and give back a text; the others are runs of a class of characters.

Two rules hold back on purpose. A keyword that could be a name is left to the
names in some places (`Rule.TakenAsName`), and a slash that opens a comment is no
symbol. Neither matters for the length: the name is as long as the keyword, and
where any rule applies at a comment it is the comment itself. So the rule that
reaches furthest takes the longest text of any rule, without exception
(`Rule.length_le_reach_longest`); what a keyword is taken for does depend on the
place.
-/

namespace Landscape

open Computability Text

/-! ## Strings -/

namespace Quoted

open Pattern

theorem closing_cons {c : Char} (hquote : c ≠ '"') (hslash : c ≠ '\\') (count : Nat)
    (cs : List Char) : closing count (c :: cs) = closing (count + 1) cs := by
  rw [closing.eq_def]
  split <;> simp_all

theorem closing_append {body rest : List Char} (h : body ∈ stringItem∗) (count : Nat) :
    closing count (body ++ '"' :: rest) = some (count + body.length + 1) := by
  revert count
  refine kstar_induction (motive := fun body =>
    ∀ count, closing count (body ++ '"' :: rest) = some (count + body.length + 1))
    (fun _ => rfl) ?_ h
  rintro _ (⟨c, hc, rfl⟩ | ⟨_, rfl, _, ⟨c, hc, rfl⟩, rfl⟩) body _ ih count
  · have hc : c ≠ '"' ∧ c ≠ '\\' := by simpa using hc
    change closing count (c :: (body ++ '"' :: rest)) = _
    rw [closing_cons hc.1 hc.2, ih, List.length_append, List.length_singleton, ← Nat.add_assoc]
  · have hc : c ≠ '\n' := by simpa using hc
    change (if c = '\n' then none else closing (count + 2) (body ++ '"' :: rest)) = _
    rw [if_neg hc, ih, List.length_append]
    exact congrArg (fun n => some (n + 1)) (Nat.add_assoc count 2 _)

theorem exists_of_closing_eq_some {cs : List Char} {count n : Nat}
    (h : closing count cs = some n) :
    ∃ body ∈ stringItem∗, ∃ rest, cs = body ++ '"' :: rest ∧ n = count + body.length + 1 := by
  fun_induction closing count cs with
  | case1 | case3 | case4 => cases h
  | case2 count rest =>
      cases h
      exact ⟨[], Language.nil_mem_kstar _, rest, rfl, rfl⟩
  | case5 count c rest hc ih =>
      obtain ⟨body, hbody, rest, rfl, rfl⟩ := ih h
      refine ⟨['\\', c] ++ body, append_mem_kstar (escaped_mem_stringItem hc) hbody, rest, rfl, ?_⟩
      simp only [List.length_append, List.length_cons, List.length_nil]
      omega
  | case6 count c rest hquote hlone hslash ih =>
      have hne : c ≠ '\\' := by
        rintro rfl
        cases rest with
        | nil => exact hlone rfl rfl
        | cons d rest => exact hslash d rest rfl rfl
      obtain ⟨body, hbody, rest, rfl, rfl⟩ := ih h
      refine ⟨[c] ++ body, append_mem_kstar (plain_mem_stringItem hquote hne) hbody, rest, rfl, ?_⟩
      rw [List.length_append, List.length_singleton]
      omega

end Quoted

namespace Rule

open Pattern

variable {r : Rule} {w cs : List Char}

/-! ## Runs -/

theorem length_le_takeWhile {p : Char → Bool} (hw : ∀ c ∈ w, p c) (h : w <+: cs) :
    w.length ≤ (cs.takeWhile p).length := by
  obtain ⟨rest, rfl⟩ := h
  rw [List.takeWhile_append_of_pos hw, List.length_append]
  exact Nat.le_add_right _ _

/-! ## Comments -/

theorem commentEnd_cons {c : Char} (h : c = '*' → cs.head? ≠ some '/') (count : Nat) :
    commentEnd count (c :: cs) = commentEnd (count + 1) cs := by
  rw [commentEnd.eq_def]
  split <;> simp_all

theorem head?_append_star (body cs : List Char) :
    (body ++ '*' :: cs).head? = (body ++ ['*']).head? := by
  cases body <;> rfl

theorem commentEnd_append {body rest : List Char} (h : StaysOpen (body ++ ['*'])) (count : Nat) :
    commentEnd count (body ++ '*' :: '/' :: rest) = some (count + body.length + 2) := by
  induction body generalizing count with
  | nil => rfl
  | cons c body ih =>
      have hhead : c = '*' → (body ++ '*' :: '/' :: rest).head? ≠ some '/' := by
        rw [head?_append_star]
        exact fun hc hslash => h.rel_head? hslash ⟨hc, rfl⟩
      rw [List.cons_append, commentEnd_cons hhead, ih h.tail, List.length_cons]
      congr 1
      omega

theorem exists_of_commentEnd_eq_some {cs : List Char} {count n : Nat}
    (h : commentEnd count cs = some n) :
    ∃ body rest, cs = body ++ '*' :: '/' :: rest ∧ StaysOpen (body ++ ['*']) ∧
      n = count + body.length + 2 := by
  fun_induction commentEnd count cs with
  | case1 => cases h
  | case2 count rest =>
      cases h
      exact ⟨[], rest, rfl, .singleton _, rfl⟩
  | case3 count c rest hc ih =>
      obtain ⟨body, rest, rfl, hopen, rfl⟩ := ih h
      refine ⟨c :: body, rest, rfl, hopen.cons fun d hd ⟨hstar, hslash⟩ => ?_, ?_⟩
      · rw [← head?_append_star body ('/' :: rest), hslash] at hd
        exact hc _ hstar (List.eq_cons_of_mem_head? hd)
      · rw [List.length_cons]
        omega

/-! ## Fixed texts -/

theorem wordReach_append (word : String) (rest : List Char) :
    wordReach word (word.toList ++ rest) = word.length := by
  rw [wordReach, if_pos (List.isPrefixOf_iff_prefix.2 (List.prefix_append _ _))]

theorem wordReach_eq_zero_or (word : String) (cs : List Char) :
    wordReach word cs = 0 ∨ word.toList <+: cs ∧ wordReach word cs = word.length := by
  rw [wordReach]
  split
  · next h => exact .inr ⟨List.isPrefixOf_iff_prefix.1 h, rfl⟩
  · exact .inl rfl

/-! ## Keywords -/

theorem foldl_max_le_iff {α : Type} (f : α → Nat) (words : List α) (best n : Nat) :
    words.foldl (fun best word => max best (f word)) best ≤ n ↔
      best ≤ n ∧ ∀ word ∈ words, f word ≤ n := by
  induction words generalizing best with
  | nil => simp
  | cons word words ih => rw [List.foldl_cons, ih, max_le_iff, List.forall_mem_cons, and_assoc]

theorem foldl_max_attained {α : Type} (f : α → Nat) (words : List α) (best : Nat) :
    words.foldl (fun best word => max best (f word)) best = best ∨
      ∃ word ∈ words, words.foldl (fun best word => max best (f word)) best = f word := by
  induction words generalizing best with
  | nil => exact .inl rfl
  | cons word words ih =>
      rw [List.foldl_cons]
      rcases ih (max best (f word)) with h | ⟨longest, hmem, h⟩
      · rw [h]
        exact (max_choice best (f word)).imp id fun h => ⟨word, List.mem_cons_self, h⟩
      · exact .inr ⟨longest, List.mem_cons_of_mem word hmem, h⟩

theorem reach_relation (cs : List Char) :
    reach relation cs =
      relationKeywords.foldl (fun best word => max best (keywordReach word cs)) 0 := by
  rw [reach]

theorem keywordReach_le_reach {keyword : String} (h : keyword ∈ relationKeywords)
    (cs : List Char) : keywordReach keyword cs ≤ reach relation cs := by
  rw [reach_relation]
  exact ((foldl_max_le_iff (keywordReach · cs) relationKeywords 0 _).1 le_rfl).2 keyword h

/-- One keyword could also be a name. It is taken as one if it stands before a
character that starts like a letter, even if that does not continue the name. -/
def TakenAsName (keyword rest : List Char) : Prop :=
  keyword = "Partnership".toList ∧ rest.head?.any startsLikeLetter

theorem all_continuesName_iff :
    ∀ keyword ∈ relationKeywords,
      keyword.toList.all continuesName ↔ keyword.toList = "Partnership".toList := by
  decide

theorem all_continuesName_of_mem_pattern (hw : w ∈ pattern name) : w.all continuesName := by
  obtain ⟨c, rest, rfl, hc, hrest⟩ := mem_pattern_name.1 hw
  have hc : continuesName c := by
    rw [startsName, Bool.or_eq_true] at hc
    rw [continuesName, Bool.or_right_comm, Bool.or_eq_true, Bool.or_eq_true]
    exact .inl hc
  exact List.all_eq_true.2 (List.forall_mem_cons.2 ⟨hc, hrest⟩)

theorem getElem?_length_append (keyword : String) (rest : List Char) :
    (keyword.toList ++ rest)[keyword.length]? = rest.head? := by
  rw [← String.length_toList, List.getElem?_append_right (Nat.le_refl _), Nat.sub_self,
    List.head?_eq_getElem?]

theorem keywordReach_append {keyword : String} (h : keyword ∈ relationKeywords)
    {rest : List Char} (hrest : ¬TakenAsName keyword.toList rest) :
    keywordReach keyword (keyword.toList ++ rest) = keyword.length := by
  rw [TakenAsName, ← all_continuesName_iff keyword h] at hrest
  rw [keywordReach, getElem?_length_append, if_neg (by simpa using hrest), wordReach_append]

theorem exists_mem_pattern_relation (cs : List Char) :
    reach relation cs = 0 ∨
      ∃ w ∈ pattern relation, w <+: cs ∧ w.length = reach relation cs := by
  rw [reach_relation]
  rcases foldl_max_attained (keywordReach · cs) relationKeywords 0 with h | ⟨keyword, hmem, h⟩
  · exact .inl h
  · rw [h, keywordReach]
    split
    · exact .inl rfl
    · exact (wordReach_eq_zero_or keyword cs).imp id fun h =>
        ⟨_, ⟨keyword, hmem, rfl⟩, h.1, h.2.symm⟩

theorem length_le_reach_relation (hw : w ∈ pattern relation) {rest : List Char}
    (hrest : ¬TakenAsName w rest) : w.length ≤ reach relation (w ++ rest) := by
  obtain ⟨keyword, hmem, rfl⟩ := hw
  rw [String.length_toList, ← keywordReach_append hmem hrest]
  exact keywordReach_le_reach hmem _

/-- No keyword is the beginning of another one. -/
theorem eq_of_prefix_partnership :
    ∀ keyword ∈ relationKeywords, keyword.toList <+: "Partnership".toList ∨
      "Partnership".toList <+: keyword.toList → keyword = "Partnership" := by
  decide

theorem reach_relation_of_takenAsName {rest : List Char} (h : TakenAsName w rest) :
    reach relation (w ++ rest) = 0 := by
  obtain ⟨rfl, hrest⟩ := h
  rw [reach_relation, ← Nat.le_zero, foldl_max_le_iff]
  refine ⟨Nat.le_refl 0, fun keyword hmem => Nat.le_of_eq ?_⟩
  by_cases hkeyword : keyword = "Partnership"
  · subst hkeyword
    rw [keywordReach, getElem?_length_append, hrest, Bool.and_true, if_pos (by decide)]
  · rw [keywordReach]
    split
    · rfl
    · refine (wordReach_eq_zero_or _ _).resolve_right fun ⟨hstart, _⟩ => hkeyword ?_
      exact eq_of_prefix_partnership keyword hmem
        (List.prefix_or_prefix_of_prefix hstart (List.prefix_append _ _))

/-! ## Numbers -/

theorem numberReach_point {whole : List Char} (hwhole : ∀ c ∈ whole, c.isDigit)
    (rest : List Char) :
    numberReach (whole ++ '.' :: rest) =
      if whole = [] ∨ rest.takeWhile Char.isDigit = [] then whole.length
      else whole.length + 1 + (rest.takeWhile Char.isDigit).length := by
  have htake : (whole ++ '.' :: rest).takeWhile Char.isDigit = whole := by
    rw [List.takeWhile_append_of_pos hwhole, List.takeWhile_cons_of_neg (by decide),
      List.append_nil]
  rw [numberReach, htake, List.drop_left]
  simp only [Bool.or_eq_true, List.isEmpty_iff]

theorem numberReach_whole {whole rest : List Char} (hwhole : ∀ c ∈ whole, c.isDigit)
    (hrest : rest.takeWhile Char.isDigit = []) (hpoint : rest.head? ≠ some '.') :
    numberReach (whole ++ rest) = whole.length := by
  rw [numberReach, List.takeWhile_append_of_pos hwhole, hrest, List.append_nil, List.drop_left]
  split
  · exact absurd rfl hpoint
  · rfl

theorem exists_mem_pattern_number (cs : List Char) :
    numberReach cs = 0 ∨ ∃ w ∈ pattern number, w <+: cs ∧ w.length = numberReach cs := by
  obtain ⟨whole, rest, rfl, hwhole, hrest⟩ : ∃ whole rest, cs = whole ++ rest ∧
      (∀ c ∈ whole, c.isDigit) ∧ rest.takeWhile Char.isDigit = [] :=
    ⟨cs.takeWhile Char.isDigit, cs.dropWhile Char.isDigit, List.takeWhile_append_dropWhile.symm,
      fun c => List.mem_takeWhile_imp,
      List.takeWhile_eq_nil_iff.2 (List.dropWhile_get_zero_not Char.isDigit cs)⟩
  have exists_whole : whole.length = 0 ∨
      ∃ w ∈ pattern number, w <+: whole ++ rest ∧ w.length = whole.length := by
    by_cases hne : whole = []
    · exact .inl (congrArg List.length hne)
    · exact .inr ⟨whole, mem_pattern_number.2 ⟨whole, hne, hwhole, .inl rfl⟩,
        List.prefix_append whole rest, rfl⟩
  by_cases hpoint : rest.head? = some '.'
  · obtain ⟨after, rfl⟩ : ∃ after, rest = '.' :: after :=
      ⟨rest.tail, List.eq_cons_of_mem_head? hpoint⟩
    rw [numberReach_point hwhole]
    split
    · exact exists_whole
    · next h =>
        obtain ⟨hne, hfraction⟩ := not_or.1 h
        refine .inr ⟨whole ++ '.' :: after.takeWhile Char.isDigit, ?_, ?_, ?_⟩
        · exact mem_pattern_number.2 ⟨whole, hne, hwhole, .inr ⟨after.takeWhile Char.isDigit,
            hfraction, fun c => List.mem_takeWhile_imp, rfl⟩⟩
        · exact (List.prefix_append_right_inj whole).2
            ((List.prefix_cons_inj '.').2 (List.takeWhile_prefix _))
        · rw [List.length_append, List.length_cons, Nat.add_assoc, Nat.add_comm 1]
  · rw [numberReach_whole hwhole hrest hpoint]
    exact exists_whole

theorem length_takeWhile_le_numberReach (cs : List Char) :
    (cs.takeWhile Char.isDigit).length ≤ numberReach cs := by
  rw [numberReach]
  dsimp only
  split
  · split <;> omega
  · exact Nat.le_refl _

theorem length_le_numberReach (hw : w ∈ pattern number) (hcs : w <+: cs) :
    w.length ≤ numberReach cs := by
  obtain ⟨whole, hne, hwhole, rfl | ⟨fraction, hne', hfraction, rfl⟩⟩ := mem_pattern_number.1 hw
  · exact (length_le_takeWhile hwhole hcs).trans (length_takeWhile_le_numberReach cs)
  · obtain ⟨rest, rfl⟩ := hcs
    have htake : (fraction ++ rest).takeWhile Char.isDigit =
        fraction ++ rest.takeWhile Char.isDigit := List.takeWhile_append_of_pos hfraction
    rw [List.append_assoc, List.cons_append, numberReach_point hwhole, htake,
      if_neg (by simp [hne, hne'])]
    simp only [List.length_append, List.length_cons]
    omega

/-! ## All rules -/

theorem reach_string (hw : w ∈ pattern string) (rest : List Char) :
    reach string (w ++ rest) = w.length := by
  obtain ⟨body, hbody, rfl⟩ := mem_pattern_string.1 hw
  have hend := @Quoted.closing_append body rest hbody 1
  simp only [List.cons_append, List.append_assoc, List.nil_append, reach, hend]
  simp only [List.length_append, List.length_cons, List.length_nil, Option.getD_some]
  omega

theorem reach_attained (r : Rule) (cs : List Char) :
    r.reach cs = 0 ∨ ∃ w ∈ r.pattern, w <+: cs ∧ w.length = r.reach cs := by
  fun_cases reach r cs with
  | case1 =>
      by_cases hne : cs.takeWhile isSeparator = []
      · exact .inl (congrArg List.length hne)
      · exact .inr ⟨_, mem_pattern_separators.2 ⟨hne, fun c => List.mem_takeWhile_imp⟩,
          List.takeWhile_prefix _, rfl⟩
  | case2 rest =>
      have hbody : ∀ c ∈ rest.takeWhile (· != '\n'), c ≠ '\n' :=
        fun c hc => by simpa using List.mem_takeWhile_imp hc
      refine .inr ⟨_, mem_pattern_lineComment.2 ⟨_, rfl, hbody⟩, ?_, Nat.add_comm _ 2⟩
      exact (List.prefix_append_right_inj ['/', '/']).2 (List.takeWhile_prefix _)
  | case3 rest =>
      cases hend : commentEnd 2 rest with
      | none => exact .inl rfl
      | some n =>
          obtain ⟨body, rest, rfl, hopen, rfl⟩ := exists_of_commentEnd_eq_some hend
          refine .inr ⟨_, mem_pattern_blockComment.2 ⟨body, rfl, hopen⟩, ⟨rest, by simp⟩, ?_⟩
          simp only [List.length_append, List.length_cons, List.length_nil, Option.getD_some]
          omega
  | case4 token =>
      exact (wordReach_eq_zero_or token.render cs).imp id fun h => ⟨_, rfl, h.1, h.2.symm⟩
  | case5 => exact reach_relation cs ▸ exists_mem_pattern_relation cs
  | case6 c rest hc =>
      refine .inr ⟨_, mem_pattern_name.2 ⟨c, _, rfl, hc, fun d => List.mem_takeWhile_imp⟩, ?_,
        Nat.add_comm _ 1⟩
      exact (List.prefix_cons_inj c).2 (List.takeWhile_prefix _)
  | case8 rest =>
      cases hend : Quoted.closing 1 rest with
      | none => exact .inl rfl
      | some n =>
          obtain ⟨body, hbody, rest, rfl, rfl⟩ := Quoted.exists_of_closing_eq_some hend
          refine .inr ⟨_, mem_pattern_string.2 ⟨body, hbody, rfl⟩, ⟨rest, by simp⟩, ?_⟩
          simp only [List.length_append, List.length_cons, List.length_nil, Option.getD_some]
          omega
  | case9 => exact exists_mem_pattern_number cs
  | case11 c rest _ hc => exact .inr ⟨[c], ⟨c, hc, rfl⟩, ⟨rest, rfl⟩, rfl⟩
  | case7 | case10 | case12 | case13 => exact .inl rfl

theorem length_le_reach (hrelation : r ≠ relation) (hsymbol : r ≠ symbol)
    (hw : w ∈ r.pattern) (hcs : w <+: cs) : w.length ≤ r.reach cs := by
  cases r with
  | separators => exact length_le_takeWhile (mem_pattern_separators.1 hw).2 hcs
  | lineComment =>
      obtain ⟨body, rfl, hbody⟩ := mem_pattern_lineComment.1 hw
      obtain ⟨rest, rfl⟩ := hcs
      have hle := length_le_takeWhile (p := (· != '\n')) (fun c hc => bne_iff_ne.2 (hbody c hc))
        (List.prefix_append body rest)
      simp only [List.cons_append, reach, List.length_cons]
      omega
  | blockComment =>
      obtain ⟨body, rfl, hopen⟩ := mem_pattern_blockComment.1 hw
      obtain ⟨rest, rfl⟩ := hcs
      have hend := @commentEnd_append body rest hopen 2
      simp only [List.cons_append, List.append_assoc, List.nil_append, reach, hend]
      simp only [List.length_append, List.length_cons, List.length_nil, Option.getD_some]
      omega
  | mark token =>
      obtain rfl := mem_word.1 hw
      obtain ⟨rest, rfl⟩ := hcs
      rw [reach, wordReach_append, String.length_toList]
  | relation => exact absurd rfl hrelation
  | name =>
      obtain ⟨c, v, rfl, hc, hv⟩ := mem_pattern_name.1 hw
      obtain ⟨rest, rfl⟩ := hcs
      have hle := length_le_takeWhile hv (List.prefix_append v rest)
      simp only [List.cons_append, reach, if_pos hc, List.length_cons]
      omega
  | string =>
      obtain ⟨rest, rfl⟩ := hcs
      exact (reach_string hw rest).ge
  | number => exact length_le_numberReach hw hcs
  | symbol => exact absurd rfl hsymbol

theorem reach_symbol {c : Char} {rest : List Char} (hc : isSymbol c)
    (hopen : c = '/' → rest.head? ≠ some '*') : reach symbol (c :: rest) = 1 := by
  rw [reach]
  · exact if_pos hc
  · rintro tail hslash rfl
    exact hopen hslash rfl

/-! ## The rule that reaches furthest -/

theorem argmax_foldl_further (cs : List Char) (first : Rule) (rules : List Rule) :
    (first :: rules).argmax (reach · cs) = some (rules.foldl (further cs) first) := by
  induction rules using List.reverseRecOn with
  | nil => exact List.argmax_singleton
  | append_singleton rules r ih =>
      rw [← List.cons_append, List.argmax_concat, ih, List.foldl_append, List.foldl_cons,
        List.foldl_nil, further]
      dsimp only
      split <;> rfl

theorem longest_mem_argmax (cs : List Char) : longest cs ∈ all.argmax (reach · cs) := by
  obtain ⟨rules, hall⟩ : ∃ rules, all = separators :: rules := ⟨_, rfl⟩
  have hfirst : further cs separators separators = separators := if_neg (Nat.lt_irrefl _)
  rw [longest, hall, List.foldl_cons, hfirst]
  exact argmax_foldl_further cs separators rules

theorem longest_mem_all (cs : List Char) : longest cs ∈ all :=
  List.argmax_mem (longest_mem_argmax cs)

theorem reach_le_reach_longest (hr : r ∈ all) (cs : List Char) :
    r.reach cs ≤ (longest cs).reach cs :=
  List.le_of_mem_argmax hr (longest_mem_argmax cs)

theorem partnership_mem_pattern_name : "Partnership".toList ∈ pattern name :=
  mem_pattern_name.2 ⟨'P', "artnership".toList, rfl, by decide, List.all_eq_true.1 (by decide)⟩

/-- Where a rule applies at all, the one that reaches furthest takes the longest
text that there is. Two rules may reach less far than their texts: a keyword that
is taken as a name, for which the names make up, and a slash that opens a comment,
which is not longer than anything else. -/
theorem length_le_reach_longest (hr : r ∈ all) (hw : w ∈ r.pattern) (hcs : w <+: cs)
    (hreach : (longest cs).reach cs ≠ 0) : w.length ≤ (longest cs).reach cs := by
  by_cases hrelation : r = relation
  · subst hrelation
    obtain ⟨rest, rfl⟩ := hcs
    by_cases htaken : TakenAsName w rest
    -- The rule of keywords does not apply here, but that of names reaches as far.
    · have hname : w ∈ name.pattern := htaken.1 ▸ partnership_mem_pattern_name
      exact (length_le_reach (r := name) nofun nofun hname (List.prefix_append w rest)).trans
        (reach_le_reach_longest (by decide) _)
    · exact (length_le_reach_relation hw htaken).trans (reach_le_reach_longest hr _)
  · by_cases hsymbol : r = symbol
    · subst hsymbol
      obtain ⟨c, -, rfl⟩ := hw
      exact Nat.one_le_iff_ne_zero.2 hreach
    · exact (length_le_reach hrelation hsymbol hw hcs).trans (reach_le_reach_longest hr cs)

section Keyword

variable {rest : List Char} (hw : w ∈ relation.pattern)
  (hreach : (longest (w ++ rest)).reach (w ++ rest) = w.length)
  (hlongest : w ∈ (longest (w ++ rest)).pattern)

include hw hlongest

theorem longest_eq_relation_or_name :
    longest (w ++ rest) = relation ∨ longest (w ++ rest) = name := by
  have hkind := kindOf_eq (longest_mem_all _) hlongest
  rw [kindOf_eq (by decide) hw, if_pos rfl] at hkind
  by_cases h : longest (w ++ rest) = relation
  · exact .inl h
  · exact .inr (hkind.trans (if_neg h)).symm

include hreach

/-- A keyword is read as one, unless it is taken as a name. -/
theorem longest_eq_relation (hrest : ¬TakenAsName w rest) : longest (w ++ rest) = relation := by
  refine (longest_eq_relation_or_name hw hlongest).resolve_right fun hname => ?_
  have hfirst := List.index_of_argmax (longest_mem_argmax (w ++ rest)) (a := relation) (by decide)
    (hreach ▸ length_le_reach_relation hw hrest)
  rw [hname] at hfirst
  exact absurd hfirst (by decide)

theorem longest_eq_name (hrest : TakenAsName w rest) : longest (w ++ rest) = name := by
  refine (longest_eq_relation_or_name hw hlongest).resolve_left fun hrelation => ?_
  rw [hrelation, reach_relation_of_takenAsName hrest, hrest.1] at hreach
  exact absurd hreach (by decide)

end Keyword

end Rule

end Landscape
