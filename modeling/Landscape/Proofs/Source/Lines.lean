import Landscape.Source.Position
import Landscape.Text.Lines

/-!
# Counting lines and showing them

The line of a position is the number of line feeds in front of it. The lines that
are shown of a text come from another function, which leaves out the last one if
it is empty. Both are described here by the pieces between line feeds,
`cs.splitOn '\n'`: a position is in the piece that has its number
(`exists_splitOn_append`), and the pieces are shown without a carriage return at
the end, the last one as it is and only if there is something in it (`lines_eq`).
-/

namespace Landscape

namespace Text

/-! ## Pieces between line feeds -/

theorem splitOn_cons (a c : Char) (cs : List Char) :
    ∃ row rows, cs.splitOn a = row :: rows ∧
      (c :: cs).splitOn a = if c = a then [] :: row :: rows else (c :: row) :: rows := by
  obtain ⟨row, rows, hcs⟩ := List.exists_cons_of_ne_nil (List.splitOn_ne_nil a cs)
  refine ⟨row, rows, hcs, ?_⟩
  rw [List.splitOn_cons_eq_if_modifyHead, hcs]
  simp only [beq_iff_eq, List.modifyHead_cons]

theorem not_mem_of_mem_splitOn {a : Char} {cs row : List Char} (h : row ∈ cs.splitOn a) :
    a ∉ row := by
  induction cs generalizing row with
  | nil => simp_all
  | cons c cs ih =>
      obtain ⟨first, rows, hcs, hcons⟩ := splitOn_cons a c cs
      rw [hcs] at ih
      rw [hcons] at h
      split at h
      · rcases List.mem_cons.1 h with rfl | h
        · exact List.not_mem_nil
        · exact ih h
      · next hne =>
          rcases List.mem_cons.1 h with rfl | h
          · exact List.not_mem_cons_of_ne_of_not_mem (Ne.symm hne) (ih List.mem_cons_self)
          · exact ih (List.mem_cons_of_mem _ h)

/-- A single empty piece is that of the empty text. -/
theorem eq_nil_of_splitOn_eq {a : Char} {cs : List Char} (h : cs.splitOn a = [[]]) : cs = [] := by
  have hjoin := @List.intercalate_splitOn _ cs _ _ a
  rw [h] at hjoin
  exact hjoin.symm

/-- What follows `front` starts in the piece that has as many pieces above it as
there are line feeds in `front`. That piece is the last one and empty just if
there is nothing to follow, not even on the line on which `front` ends. -/
theorem exists_splitOn_append (front back : List Char) :
    ∃ above here below, (front ++ back).splitOn '\n' = above ++ here :: below ∧
      above.length = front.count '\n' ∧
      (here = [] ∧ below = [] ↔ back = [] ∧ ∀ c ∈ front.getLast?, c = '\n') := by
  induction front with
  | nil =>
      obtain ⟨here, below, hback⟩ := List.exists_cons_of_ne_nil (List.splitOn_ne_nil '\n' back)
      refine ⟨[], here, below, hback, rfl, ?_, ?_⟩
      · rintro ⟨rfl, rfl⟩
        exact ⟨eq_nil_of_splitOn_eq hback, nofun⟩
      · rintro ⟨rfl, -⟩
        obtain ⟨rfl, rfl⟩ := List.cons.inj hback
        exact ⟨rfl, rfl⟩
  | cons c front ih =>
      obtain ⟨above, here, below, hrows, hlength, hlast⟩ := ih
      obtain ⟨row, rows, hcs, hcons⟩ := splitOn_cons '\n' c (front ++ back)
      rw [hcs] at hrows
      by_cases hc : c = '\n'
      · subst hc
        refine ⟨[] :: above, here, below, ?_, ?_, ?_⟩
        · rw [List.cons_append, hcons, if_pos rfl, hrows, List.cons_append]
        · rw [List.length_cons, hlength, List.count_cons_self]
        · rw [hlast, List.getLast?_cons]
          cases front.getLast? <;> simp
      · rw [List.cons_append, hcons, if_neg hc]
        cases above with
        | nil =>
            obtain ⟨rfl, rfl⟩ := List.cons.inj hrows
            refine ⟨[], c :: row, rows, rfl, ?_, by simp, ?_⟩
            · rw [List.count_cons_of_ne hc, ← hlength]
            · rintro ⟨rfl, hend⟩
              have hnone : '\n' ∉ c :: front :=
                List.not_mem_cons_of_ne_of_not_mem (Ne.symm hc)
                  (List.count_eq_zero.1 hlength.symm)
              have hmem := List.getLast_mem (List.cons_ne_nil c front)
              rw [hend _ (List.getLast?_eq_some_getLast (List.cons_ne_nil c front))] at hmem
              exact absurd hmem hnone
        | cons first above =>
            obtain ⟨rfl, rfl⟩ := List.cons.inj hrows
            refine ⟨(c :: row) :: above, here, below, rfl, ?_, ?_⟩
            · rw [List.count_cons_of_ne hc, ← hlength]
              rfl
            · obtain ⟨d, others, rfl⟩ : ∃ d others, front = d :: others :=
                List.exists_cons_of_ne_nil fun hnil => by simp [hnil] at hlength
              rw [hlast, List.getLast?_cons_cons]

/-! ## Lines as they are shown -/

/-- A piece without the carriage return that belongs to the line feed after it. -/
def withoutReturn (row : List Char) : List Char :=
  if row.getLast? = some '\r' then row.dropLast else row

/-- What is shown of the pieces of a text. -/
def shownRows (rows : List (List Char)) : List (List Char) :=
  rows.dropLast.map withoutReturn ++ (rows.getLast?.filter (· ≠ [])).toList

theorem shownRows_append_cons (above : List (List Char)) (here : List Char)
    (below : List (List Char)) :
    shownRows (above ++ here :: below) = above.map withoutReturn ++ shownRows (here :: below) := by
  have hlast : (above ++ here :: below).getLast? = (here :: below).getLast? := by
    rw [List.getLast?_append, List.getLast?_cons, Option.some_or]
  rw [shownRows, shownRows, List.dropLast_append_cons, List.map_append, List.append_assoc, hlast]

theorem shownRows_eq_nil_iff {here : List Char} {below : List (List Char)} :
    shownRows (here :: below) = [] ↔ here = [] ∧ below = [] := by
  cases below <;> simp [shownRows, Option.filter_some]

theorem chomp_append_newline (row : List Char) : chomp (row ++ ['\n']) = withoutReturn row := by
  rw [chomp, if_pos List.getLast?_concat, List.dropLast_concat]
  rfl

theorem linePieces_eq (cs : List Char) :
    linePieces cs = (cs.splitOn '\n').dropLast.map (· ++ ['\n']) ++
      ((cs.splitOn '\n').getLast?.filter (· ≠ [])).toList := by
  induction cs with
  | nil => rfl
  | cons c cs ih =>
      obtain ⟨row, rows, hcs, hcons⟩ := splitOn_cons '\n' c cs
      have step : linePieces (c :: cs) = consPiece c (linePieces cs) := rfl
      rw [step, ih, hcs, hcons, consPiece.eq_def]
      by_cases hc : c = '\n'
      · rw [if_pos hc, if_pos hc]
        simp
      · rw [if_neg hc, if_neg hc]
        cases rows with
        | nil => by_cases hrow : row = [] <;> simp [hrow, Option.filter_some]
        | cons next rows => simp

theorem lines_eq (cs : List Char) : lines cs = shownRows (cs.splitOn '\n') := by
  rw [lines, linePieces_eq, shownRows, List.map_append, List.map_map]
  congr 1
  · exact List.map_congr_left fun row _ => chomp_append_newline row
  · cases hlast : (cs.splitOn '\n').getLast? with
    | none => rfl
    | some row =>
        have hrow := not_mem_of_mem_splitOn (List.mem_of_getLast? hlast)
        have hchomp : chomp row = row :=
          if_neg fun heq => hrow (List.mem_of_getLast? heq)
        by_cases hne : row = [] <;> simp [Option.filter_some, hne, hchomp]

end Text

/-! ## Lines of positions -/

open Text

theorem lt_of_mem_lineStartsFrom {offset start : Nat} {cs : List Char}
    (h : start ∈ lineStartsFrom offset cs) : offset < start := by
  induction cs generalizing offset with
  | nil => cases h
  | cons c cs ih =>
      have hpos := c.utf8Size_pos
      rw [lineStartsFrom] at h
      split at h
      · rcases List.mem_cons.1 h with rfl | h
        · exact Nat.lt_add_of_pos_right hpos
        · exact Nat.lt_trans (Nat.lt_add_of_pos_right hpos) (ih h)
      · exact Nat.lt_trans (Nat.lt_add_of_pos_right hpos) (ih h)

/-- As many lines start within `front` as it has line feeds. -/
theorem countP_lineStartsFrom (offset : Nat) (front back : List Char) :
    (lineStartsFrom offset (front ++ back)).countP (· ≤ offset + byteLength front) =
      front.count '\n' := by
  induction front generalizing offset with
  | nil =>
      refine List.countP_eq_zero.2 fun start hstart => ?_
      rw [byteLength_nil, Nat.add_zero, decide_eq_true_eq]
      exact Nat.not_le_of_lt (lt_of_mem_lineStartsFrom hstart)
  | cons c front ih =>
      have hlater := ih (offset + c.utf8Size)
      rw [List.cons_append, lineStartsFrom, byteLength_cons, ← Nat.add_assoc]
      by_cases hc : c = '\n'
      · rw [if_pos hc, List.countP_cons_of_pos (by simp), hlater, hc, List.count_cons_self]
      · rw [if_neg hc, hlater, List.count_cons_of_ne hc]

/-- The line of an offset is the number of line feeds in front of it. -/
theorem line_positionIn {source : String} {front back : List Char}
    (h : source.toList = front ++ back) :
    (positionIn source (byteLength front)).line = front.count '\n' := by
  show (LineTable.ofString source).lineAt (byteLength front) = _
  have hcount := countP_lineStartsFrom 0 front back
  rw [Nat.zero_add] at hcount
  rw [LineTable.lineAt, LineTable.ofString, h, List.countP_cons_of_pos (by simp), hcount,
    Nat.add_sub_cancel]

end Landscape
