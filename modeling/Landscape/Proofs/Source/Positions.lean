import Landscape.Proofs.Source.Lines
import Mathlib.Data.List.DropRight

/-!
# Offsets and their positions

The starts of the lines increase, and the first of them is zero. So every offset
has a last line that starts no later than it does, and any search for the offset
in the starts tells it: what is found is that line, and what is not found belongs
one place behind it (`LineTable.eq_lineAt_of_search`). That much holds of every
number.

Of an offset between two characters more is known, since it is the length of what
is in front of it (`isValid_iff`). That text is cut behind its last line feed. The
part before the cut has all the line feeds and is as long as the start of the line
says (`LineTable.lineStart?_count`); the part behind it is the column. Both ways of
telling a place say the same then, and in the same order (`positionIn_exact`).
-/

namespace Landscape

open Text

/-! ## Searching a list that increases -/

/-- What a search for a number in an increasing list may answer: where it is, or
else where it would have to be put. -/
inductive SearchAnswer (xs : List Nat) (x : Nat) : Except Nat Nat → Prop
  | found {i : Nat} (eq : xs[i]? = some x) : SearchAnswer xs x (.ok i)
  | missing {i : Nat} (le_length : i ≤ xs.length) (below : ∀ y ∈ xs.take i, y < x)
      (above : ∀ y ∈ xs.drop i, x < y) : SearchAnswer xs x (.error i)

/-- The numbers that are not greater than another one are in front of the others. -/
theorem le_iff_lt_countP {xs : List Nat} (h : xs.Pairwise (· < ·)) {i x y : Nat}
    (hy : xs[i]? = some y) : y ≤ x ↔ i < xs.countP (· ≤ x) := by
  induction xs generalizing i with
  | nil => cases hy
  | cons z zs ih =>
      obtain ⟨hz, hzs⟩ := List.pairwise_cons.1 h
      by_cases hle : z ≤ x
      · rw [List.countP_cons_of_pos (by simpa using hle)]
        cases i with
        | zero =>
            obtain rfl := Option.some.inj hy
            exact ⟨fun _ => Nat.succ_pos _, fun _ => hle⟩
        | succ i => exact (ih hzs hy).trans Nat.succ_lt_succ_iff.symm
      · have hnone : (z :: zs).countP (· ≤ x) = 0 := by
          refine List.countP_eq_zero.2 (List.forall_mem_cons.2 ⟨by simpa using hle, ?_⟩)
          intro w hw
          have hlt := hz w hw
          rw [decide_eq_true_eq]
          omega
        rw [hnone]
        refine ⟨fun hyx => ?_, fun hlt => absurd hlt (Nat.not_lt_zero _)⟩
        rcases List.mem_cons.1 (List.mem_of_getElem? hy) with rfl | hmem
        · exact absurd hyx hle
        · have hlt := hz y hmem
          omega

theorem SearchAnswer.eq_countP {xs : List Nat} (h : xs.Pairwise (· < ·)) {x : Nat}
    {answer : Except Nat Nat} (hanswer : SearchAnswer xs x answer) :
    (∃ i, answer = .ok i ∧ xs.countP (· ≤ x) = i + 1) ∨
      answer = .error (xs.countP (· ≤ x)) := by
  cases hanswer with
  | @found i hi =>
      refine .inl ⟨i, rfl, ?_⟩
      have hlt := (le_iff_lt_countP h hi).1 (Nat.le_refl x)
      -- Another number of the kind would stand right behind, but what stands there is greater.
      refine Nat.le_antisymm (Nat.le_of_not_lt fun hmore => ?_) hlt
      have hlength : i + 1 < xs.length := Nat.lt_of_lt_of_le hmore List.countP_le_length
      have hle := (le_iff_lt_countP h (List.getElem?_eq_getElem hlength)).2 hmore
      obtain ⟨hi', rfl⟩ := List.getElem?_eq_some_iff.1 hi
      have hgreater := List.pairwise_iff_getElem.1 h i (i + 1) hi' hlength (Nat.lt_succ_self i)
      omega
  | @missing i hi hbelow habove =>
      refine .inr (congrArg Except.error ?_)
      have htake : (xs.take i).countP (· ≤ x) = (xs.take i).length :=
        List.countP_eq_length.2 fun y hy => by simpa using Nat.le_of_lt (hbelow y hy)
      have hdrop : (xs.drop i).countP (· ≤ x) = 0 :=
        List.countP_eq_zero.2 fun y hy => by simpa using habove y hy
      rw [← List.take_append_drop i xs, List.countP_append, htake, hdrop, List.length_take]
      omega

/-! ## The starts of the lines -/

theorem lineStartsFrom_append (offset : Nat) (xs ys : List Char) :
    lineStartsFrom offset (xs ++ ys) =
      lineStartsFrom offset xs ++ lineStartsFrom (offset + byteLength xs) ys := by
  induction xs generalizing offset with
  | nil => rfl
  | cons c xs ih =>
      rw [List.cons_append, lineStartsFrom, lineStartsFrom, ih, byteLength_cons, Nat.add_assoc]
      split <;> rfl

theorem length_lineStartsFrom (offset : Nat) (cs : List Char) :
    (lineStartsFrom offset cs).length = cs.count '\n' := by
  induction cs generalizing offset with
  | nil => rfl
  | cons c cs ih =>
      rw [lineStartsFrom, List.count_cons]
      split <;> simp_all

theorem pairwise_lineStartsFrom (offset : Nat) (cs : List Char) :
    (lineStartsFrom offset cs).Pairwise (· < ·) := by
  induction cs generalizing offset with
  | nil => exact .nil
  | cons c cs ih =>
      rw [lineStartsFrom]
      split
      · exact List.pairwise_cons.2 ⟨fun _ h => lt_of_mem_lineStartsFrom h, ih _⟩
      · exact ih _

namespace LineTable

variable (source : String)

theorem pairwise_starts : (ofString source).starts.Pairwise (· < ·) :=
  List.pairwise_cons.2 ⟨fun _ h => lt_of_mem_lineStartsFrom h, pairwise_lineStartsFrom _ _⟩

/-- The first line starts before everything. -/
theorem countP_starts_eq (offset : Nat) :
    (ofString source).starts.countP (· ≤ offset) = (ofString source).lineAt offset + 1 := by
  have hpos : 0 < (ofString source).starts.countP (· ≤ offset) :=
    List.countP_pos_iff.2 ⟨0, List.mem_cons_self, by simp⟩
  rw [lineAt]
  omega

variable {source}

theorem le_iff_le_lineAt {line start offset : Nat}
    (h : (ofString source).lineStart? line = some start) :
    start ≤ offset ↔ line ≤ (ofString source).lineAt offset := by
  rw [le_iff_lt_countP (pairwise_starts source) h, countP_starts_eq, Nat.lt_succ_iff]

theorem exists_lineStart?_lineAt (source : String) (offset : Nat) :
    ∃ start, (ofString source).lineStart? ((ofString source).lineAt offset) = some start ∧
      start ≤ offset := by
  have hlt : (ofString source).starts.countP (· ≤ offset) ≤ (ofString source).starts.length :=
    List.countP_le_length
  rw [countP_starts_eq] at hlt
  have hstart := List.getElem?_eq_getElem hlt
  exact ⟨_, hstart, (le_iff_le_lineAt hstart).2 (Nat.le_refl _)⟩

/-- An offset that is found starts its line, and one that is not found would have
to be put right behind the start of its line. -/
theorem eq_lineAt_of_search {offset : Nat} {answer : Except Nat Nat}
    (h : SearchAnswer (ofString source).starts offset answer) :
    answer = .ok ((ofString source).lineAt offset) ∨
      answer = .error ((ofString source).lineAt offset + 1) := by
  obtain ⟨i, rfl, hi⟩ | rfl := h.eq_countP (pairwise_starts source)
  · rw [countP_starts_eq] at hi
    exact .inl (congrArg Except.ok (Nat.succ.inj hi).symm)
  · exact .inr (congrArg Except.error (countP_starts_eq source offset))

end LineTable

/-! ## Offsets between characters -/

theorem isValid_iff {source : String} {offset : Nat} :
    (⟨offset⟩ : String.Pos.Raw).IsValid source ↔
      ∃ front back, source.toList = front ++ back ∧ byteLength front = offset := by
  rw [String.Pos.Raw.isValid_iff_exists_append]
  constructor
  · rintro ⟨front, back, rfl, hoffset⟩
    refine ⟨front.toList, back.toList, String.toList_append, ?_⟩
    rw [byteLength_toList]
    exact (congrArg String.Pos.Raw.byteIdx hoffset).symm
  · rintro ⟨front, back, hsource, rfl⟩
    refine ⟨String.ofList front, String.ofList back, ?_, ?_⟩
    · rw [← String.ofList_append, ← hsource, String.ofList_toList]
    · rw [← String.toList_ofList (l := front), byteLength_toList, String.ofList_toList]
      rfl

theorem exists_of_takeBytes?_eq_some {n : Nat} {cs front : List Char}
    (h : takeBytes? n cs = some front) : ∃ back, cs = front ++ back ∧ byteLength front = n := by
  fun_induction takeBytes? n cs generalizing front with
  | case1 cs =>
      obtain rfl := Option.some.inj h
      exact ⟨cs, rfl, rfl⟩
  | case2 => cases h
  | case3 n c cs hfits ih =>
      obtain ⟨others, hothers, rfl⟩ := Option.map_eq_some_iff.1 h
      obtain ⟨back, rfl, hlength⟩ := ih hothers
      refine ⟨back, rfl, ?_⟩
      rw [byteLength_cons, hlength]
      omega
  | case4 => cases h

/-! ## The cut behind the last line feed -/

theorem not_mem_rtakeWhile (front : List Char) : '\n' ∉ front.rtakeWhile (· ≠ '\n') := by
  intro h
  simpa using List.mem_rtakeWhile_imp h

theorem rtakeWhile_append (front : List Char) {more : List Char} (h : '\n' ∉ more) :
    (front ++ more).rtakeWhile (· ≠ '\n') = front.rtakeWhile (· ≠ '\n') ++ more := by
  have hmore : ∀ c ∈ more.reverse, decide (c ≠ '\n') := fun c hc =>
    decide_eq_true fun heq => h (heq ▸ List.mem_reverse.1 hc)
  rw [List.rtakeWhile, List.rtakeWhile, List.reverse_append, List.takeWhile_append_of_pos hmore,
    List.reverse_append, List.reverse_reverse]

theorem count_rdropWhile (front : List Char) :
    (front.rdropWhile (· ≠ '\n')).count '\n' = front.count '\n' := by
  conv_rhs => rw [← List.rdropWhile_append_rtakeWhile (p := (· ≠ '\n')) (l := front)]
  rw [List.count_append, List.count_eq_zero.2 (not_mem_rtakeWhile front), Nat.add_zero]

theorem rdropWhile_eq_nil_or_concat (front : List Char) :
    front.rdropWhile (· ≠ '\n') = [] ∨ ∃ init, front.rdropWhile (· ≠ '\n') = init ++ ['\n'] := by
  rcases List.eq_nil_or_concat' (front.rdropWhile (· ≠ '\n')) with hnil | ⟨init, last, hlast⟩
  · exact .inl hnil
  · have hnot := List.rdropWhile_last_not (p := (· ≠ '\n')) (l := front) (by rw [hlast]; simp)
    simp only [hlast, List.getLast_append_singleton] at hnot
    obtain rfl : last = '\n' := by simpa using hnot
    exact .inr ⟨init, hlast⟩

/-- The line of an offset starts behind the last line feed in front of it. -/
theorem LineTable.lineStart?_count {source : String} {front back : List Char}
    (h : source.toList = front ++ back) :
    (ofString source).lineStart? (front.count '\n') =
      some (byteLength (front.rdropWhile (· ≠ '\n'))) := by
  obtain ⟨row, hrow⟩ := List.rdropWhile_prefix (p := (· ≠ '\n')) (l := front)
  rw [← hrow, List.append_assoc] at h
  rw [← count_rdropWhile]
  rcases rdropWhile_eq_nil_or_concat front with hnil | ⟨init, hinit⟩
  · rw [hnil]
    rfl
  · rw [hinit, List.append_assoc] at h
    rw [hinit, lineStart?, ofString, h, lineStartsFrom_append, List.count_append,
      List.count_singleton_self, List.getElem?_cons_succ,
      List.getElem?_append_right (Nat.le_of_eq (length_lineStartsFrom 0 init)),
      length_lineStartsFrom, Nat.sub_self, byteLength_append, Nat.zero_add]
    rfl

/-! ## Positions of offsets between characters -/

theorem LineTable.column_position {table : LineTable} {offset start : Nat}
    (h : table.lineStart? (table.lineAt offset) = some start) :
    (table.position offset).column =
      match takeBytes? start table.text, takeBytes? offset table.text with
      | some before, some upTo => upTo.length - before.length
      | _, _ => offset - start := by
  rw [position, h]
  rfl

theorem positionIn_byteLength {source : String} {front back : List Char}
    (h : source.toList = front ++ back) :
    positionIn source (byteLength front) =
      ⟨front.count '\n', (front.rtakeWhile (· ≠ '\n')).length⟩ := by
  have hline : (LineTable.ofString source).lineAt (byteLength front) = front.count '\n' :=
    line_positionIn h
  have hstart := LineTable.lineStart?_count h
  have hcut := List.rdropWhile_append_rtakeWhile (p := (· ≠ '\n')) (l := front)
  have hcolumn : (positionIn source (byteLength front)).column =
      front.length - (front.rdropWhile (· ≠ '\n')).length := by
    have hbefore := takeBytes?_byteLength (front.rdropWhile (· ≠ '\n'))
      (front.rtakeWhile (· ≠ '\n') ++ back)
    rw [← List.append_assoc, hcut] at hbefore
    rw [← hline] at hstart
    rw [positionIn, LineTable.column_position hstart]
    simp only [LineTable.ofString, h, hbefore, takeBytes?_byteLength]
  have hlength := congrArg List.length hcut
  rw [List.length_append] at hlength
  calc positionIn source (byteLength front)
      = ⟨(LineTable.ofString source).lineAt (byteLength front),
          (positionIn source (byteLength front)).column⟩ := rfl
    _ = ⟨front.count '\n', (front.rtakeWhile (· ≠ '\n')).length⟩ := by
        rw [hline, hcolumn, ← hlength, Nat.add_sub_cancel_left]

/-- A column that is no number of characters is a number of bytes. -/
theorem column_of_not_isValid {source : String} {offset start : Nat}
    (h : ¬(⟨offset⟩ : String.Pos.Raw).IsValid source)
    (hstart : (LineTable.ofString source).lineStart? (positionIn source offset).line = some start) :
    (positionIn source offset).column = offset - start := by
  have hnone : takeBytes? offset (LineTable.ofString source).text = none := by
    refine Option.eq_none_iff_forall_ne_some.2 fun front hfront => h (isValid_iff.2 ?_)
    obtain ⟨back, hsource, hlength⟩ := exists_of_takeBytes?_eq_some hfront
    exact ⟨front, back, hsource, hlength⟩
  rw [positionIn, LineTable.column_position hstart, hnone]
  cases takeBytes? start (LineTable.ofString source).text <;> rfl

namespace Position

/-- One place comes before another one, line by line and then column by column. -/
def Before (p q : Position) : Prop :=
  p.line < q.line ∨ p.line = q.line ∧ p.column < q.column

theorem Before.not_before {p q : Position} (h : p.Before q) : ¬q.Before p := by
  unfold Before at *
  omega

theorem not_before_self (p : Position) : ¬p.Before p :=
  fun h => h.not_before h

/-- A position stands for an offset between two characters. -/
structure StandsFor (source : String) (offset : Nat) (p : Position) : Prop where
  /-- The line feeds in front of the offset, and the characters behind the last of
  them. -/
  counts : ∃ front back, source.toList = front ++ back ∧ byteLength front = offset ∧
    p.line = front.count '\n' ∧ p.column = (front.rtakeWhile (· ≠ '\n')).length
  /-- The column is counted off again from the start of the line. -/
  countedOff : ∃ start before rest, (LineTable.ofString source).lineStart? p.line = some start ∧
    source.toList = before ++ rest ∧ byteLength before = start ∧ p.column ≤ rest.length ∧
    start + byteLength (rest.take p.column) = offset

/-- A position is on the last line that starts no later than an offset. -/
structure OnLineOf (source : String) (offset : Nat) (p : Position) : Prop where
  exists_start : ∃ start, (LineTable.ofString source).lineStart? p.line = some start ∧
    start ≤ offset ∧ (¬(⟨offset⟩ : String.Pos.Raw).IsValid source → p.column = offset - start)
  last : ∀ line start, (LineTable.ofString source).lineStart? line = some start →
    start ≤ offset → line ≤ p.line
  /-- A search that does not find the offset never answers with the first place. -/
  searched : ∀ answer, SearchAnswer (LineTable.ofString source).starts offset answer →
    answer = .ok p.line ∨ answer = .error (p.line + 1)

end Position

theorem standsFor_positionIn {source : String} {offset : Nat}
    (h : (⟨offset⟩ : String.Pos.Raw).IsValid source) :
    (positionIn source offset).StandsFor source offset := by
  obtain ⟨front, back, hsource, rfl⟩ := isValid_iff.1 h
  have hcut := List.rdropWhile_append_rtakeWhile (p := (· ≠ '\n')) (l := front)
  rw [positionIn_byteLength hsource]
  refine ⟨⟨front, back, hsource, rfl, rfl, rfl⟩, _, _, front.rtakeWhile (· ≠ '\n') ++ back,
    LineTable.lineStart?_count hsource, ?_, rfl, ?_, ?_⟩
  · rw [← List.append_assoc, hcut, hsource]
  · rw [List.length_append]
    exact Nat.le_add_right _ _
  · rw [List.take_left, ← byteLength_append, hcut]

theorem onLineOf_positionIn (source : String) (offset : Nat) :
    (positionIn source offset).OnLineOf source offset := by
  obtain ⟨start, hstart, hle⟩ := LineTable.exists_lineStart?_lineAt source offset
  exact ⟨⟨start, hstart, hle, fun h => column_of_not_isValid h hstart⟩,
    fun line start' hstart' => (LineTable.le_iff_le_lineAt hstart').1,
    fun answer => LineTable.eq_lineAt_of_search⟩

/-- More characters in front, and the position is a later one. -/
theorem positionIn_before {source : String} {offset offset' : Nat}
    (h : (⟨offset⟩ : String.Pos.Raw).IsValid source)
    (h' : (⟨offset'⟩ : String.Pos.Raw).IsValid source) (hlt : offset < offset') :
    (positionIn source offset).Before (positionIn source offset') := by
  obtain ⟨front, back, hsource, rfl⟩ := isValid_iff.1 h
  obtain ⟨front', back', hsource', rfl⟩ := isValid_iff.1 h'
  rw [positionIn_byteLength hsource, positionIn_byteLength hsource']
  have hprefix : front <+: front' := by
    rcases List.prefix_or_prefix_of_prefix ⟨back, hsource.symm⟩ ⟨back', hsource'.symm⟩ with
      hle | ⟨more, rfl⟩
    · exact hle
    · rw [byteLength_append] at hlt
      omega
  obtain ⟨more, rfl⟩ := hprefix
  rw [byteLength_append] at hlt
  by_cases hfeed : '\n' ∈ more
  · refine .inl ?_
    rw [List.count_append]
    exact Nat.lt_add_of_pos_right (List.count_pos_iff.2 hfeed)
  · refine .inr ⟨?_, ?_⟩
    · rw [List.count_append, List.count_eq_zero.2 hfeed, Nat.add_zero]
    · rw [rtakeWhile_append front hfeed, List.length_append]
      refine Nat.lt_add_of_pos_right (List.length_pos_iff.2 ?_)
      rintro rfl
      exact absurd hlt (Nat.lt_irrefl _)

/-- Between two characters an offset and its position say the same and come in the
same order, for the line and the column are counted and can be counted off again.
Any other offset still has a line, the last one that starts no later, and the
column is how far it is from there. -/
theorem positionIn_exact (source : String) :
    (∀ offset, (⟨offset⟩ : String.Pos.Raw).IsValid source →
      (positionIn source offset).StandsFor source offset) ∧
    (∀ offset offset', (⟨offset⟩ : String.Pos.Raw).IsValid source →
      (⟨offset'⟩ : String.Pos.Raw).IsValid source →
      (offset < offset' ↔ (positionIn source offset).Before (positionIn source offset')) ∧
        (positionIn source offset = positionIn source offset' → offset = offset')) ∧
    ∀ offset, (positionIn source offset).OnLineOf source offset := by
  refine ⟨fun offset => standsFor_positionIn, fun offset offset' h h' => ⟨⟨?_, ?_⟩, ?_⟩,
    onLineOf_positionIn source⟩
  · exact positionIn_before h h'
  · intro hbefore
    rcases Nat.lt_trichotomy offset offset' with hlt | rfl | hgt
    · exact hlt
    · exact absurd hbefore (Position.not_before_self _)
    · exact absurd hbefore (positionIn_before h' h hgt).not_before
  · intro heq
    rcases Nat.lt_trichotomy offset offset' with hlt | rfl | hgt
    · exact absurd (heq ▸ positionIn_before h h' hlt) (Position.not_before_self _)
    · rfl
    · exact absurd (heq ▸ positionIn_before h' h hgt) (Position.not_before_self _)

/-- The second offset splits a character, and the last one is past the end. -/
theorem accentedLine_positions :
    let source := "ä\nb"
    (positionIn source 3).Before (positionIn source 4) ∧
      (∃ start, (LineTable.ofString source).lineStart? (positionIn source 1).line = some start ∧
        (positionIn source 1).column = 1 - start) ∧
      (positionIn source 9).line = 1 := by
  intro source
  obtain ⟨-, hordered, honLine⟩ := positionIn_exact source
  have hsplit : ¬(⟨1⟩ : String.Pos.Raw).IsValid source := by decide
  have hanswer : SearchAnswer (LineTable.ofString source).starts 9 (.error 2) :=
    .missing (by decide) (by decide) (by decide)
  refine ⟨((hordered 3 4 (by decide) (by decide)).1).1 (by decide), ?_, ?_⟩
  · obtain ⟨start, hstart, -, hcolumn⟩ := (honLine 1).exists_start
    exact ⟨start, hstart, hcolumn hsplit⟩
  · rcases (honLine 9).searched _ hanswer with hfound | hmissing
    · cases hfound
    · exact (Nat.succ.inj (Except.error.inj hmissing)).symm

end Landscape
