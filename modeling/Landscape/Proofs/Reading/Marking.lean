import Landscape.Proofs.Reading.Pointing
import Landscape.Proofs.Source.Lines

/-!
# The line that is marked

The diagnostic of a text that is no document shows the lines around its place. The
place has a line by number, which is a piece between line feeds, and what is shown
are pieces too, from two above to two below (`excerpt_eq`). The line with that
number is the one that is marked.

It is not always there to be marked. What is left out of a text is an empty last
piece, and a text may end unexpectedly in just that piece, right behind a line
feed. Then the two lines above are shown and nothing else
(`documentOf_error_excerpt`).
-/

namespace Landscape

open Text

namespace Excerpt

/-! ## Excerpts by their parts -/

/-- A numbered line behind a marker. -/
def row (marker : String) (line : List Char × Nat) : String :=
  marker ++ " " ++ lineNumber (line.2 + 1) ++ " | " ++ String.ofList line.1 ++ "\n"

/-- The rows from the line `focus` on. The first one is marked, and up to two
follow. -/
def rowsFrom (focus : Nat) : List (List Char) → List String
  | [] => []
  | here :: below =>
    row ">>" (here, focus) :: ((below.zipIdx (focus + 1)).take margin).map (row "  ")

/-- Up to two rows before a line and the rows from it on. -/
def display (above shown : List (List Char)) : String :=
  String.join (((above.zipIdx.drop (above.length - margin)).map (row "  ")) ++
    rowsFrom above.length shown)

theorem renderLine_focus (focus : Nat) (here : List Char) :
    renderLine focus (here, focus) = row ">>" (here, focus) := by
  rw [renderLine, row, if_pos rfl]

theorem renderLine_of_ne {focus : Nat} {line : List Char × Nat} (h : line.2 ≠ focus) :
    renderLine focus line = row "  " line := by
  rw [renderLine, row, if_neg h]

theorem map_renderLine_zipIdx (focus : Nat) (shown : List (List Char)) :
    ((shown.zipIdx focus).take (margin + 1)).map (renderLine focus) = rowsFrom focus shown := by
  cases shown with
  | nil => rfl
  | cons here below =>
      rw [List.zipIdx_cons, List.take_succ_cons, List.map_cons, renderLine_focus, rowsFrom]
      congr 1
      refine List.map_congr_left fun line hline => renderLine_of_ne ?_
      have hle := List.le_snd_of_mem_zipIdx (List.mem_of_mem_take hline)
      omega

theorem row_ne_empty (marker : String) (line : List Char × Nat) : row marker line ≠ "" := by
  intro h
  rw [row, String.append_eq_empty_iff] at h
  exact absurd h.2 (by decide)

/-- Only of nothing nothing is displayed. -/
theorem eq_nil_of_display_eq_empty {above shown : List (List Char)}
    (h : display above shown = "") : above = [] ∧ shown = [] := by
  have hnone := congrArg String.toList h
  rw [display, String.toList_join, String.toList_empty, List.flatMap_append,
    List.append_eq_nil_iff] at hnone
  constructor
  · have hno : above.zipIdx.drop (above.length - margin) = [] := by
      refine List.eq_nil_iff_forall_not_mem.2 fun line hline => ?_
      have hempty := List.flatMap_eq_nil_iff.1 hnone.1 _ (List.mem_map_of_mem hline)
      exact row_ne_empty _ _ (String.toList_eq_nil_iff.1 hempty)
    have hle := List.drop_eq_nil_iff.1 hno
    rw [List.length_zipIdx, margin] at hle
    exact List.length_eq_zero_iff.1 (by omega)
  · cases shown with
    | nil => rfl
    | cons here below =>
        have hempty := List.flatMap_eq_nil_iff.1 hnone.2 _ List.mem_cons_self
        exact absurd (String.toList_eq_nil_iff.1 hempty) (row_ne_empty _ _)

end Excerpt

/-- An excerpt around a line, for a text of which this line and what follows are
known. -/
theorem excerpt_eq {source : String} {above shown : List (List Char)}
    (h : lines source.toList = above ++ shown) :
    excerpt source above.length = Excerpt.display above shown := by
  have hbefore : ((above.zipIdx.drop (above.length - Excerpt.margin)).map
      (Excerpt.renderLine above.length)) =
        (above.zipIdx.drop (above.length - Excerpt.margin)).map (Excerpt.row "  ") := by
    refine List.map_congr_left fun line hline => Excerpt.renderLine_of_ne ?_
    have hlt := List.snd_lt_of_mem_zipIdx (List.mem_of_mem_drop hline)
    omega
  have htake : above.zipIdx.take (above.length + Excerpt.margin + 1) = above.zipIdx :=
    List.take_of_length_le (by rw [List.length_zipIdx]; omega)
  have hrest : above.length + Excerpt.margin + 1 - above.zipIdx.length = Excerpt.margin + 1 := by
    rw [List.length_zipIdx]
    omega
  have hnone : above.length - Excerpt.margin - above.zipIdx.length = 0 := by
    rw [List.length_zipIdx]
    omega
  rw [excerpt, h, List.zipIdx_append, Nat.zero_add, List.take_append, htake, hrest,
    List.drop_append, hnone, List.drop_zero, List.map_append, hbefore,
    Excerpt.map_renderLine_zipIdx]
  rfl

/-! ## Texts that are no documents -/

/-- A diagnostic of such a text has a line, and the excerpt around that line
unless it is empty. -/
theorem exists_line_of_documentOf_eq_error {source : String} {x : Diagnostic}
    (h : documentOf source = .error x) :
    ∃ focus, x.line = some (focus + 1) ∧
      x.context = if (excerpt source focus).isEmpty then none else some (excerpt source focus) := by
  obtain ⟨fault, -, rfl⟩ | ⟨lexemes, failure, -, -, rfl⟩ := exists_of_documentOf_eq_error h
  · exact ⟨_, rfl, rfl⟩
  · exact ⟨_, rfl, rfl⟩

/-- The diagnostic of a text that is no document shows the line that it gives,
marked and with its number, between up to two lines above and up to two lines
below. Only at the end of a text behind a line feed no line is marked. -/
theorem documentOf_error_excerpt {source : String} {x : Diagnostic}
    (h : documentOf source = .error x) :
    ∃ o above here below, x.PlacedAt source o ∧
      source.toList.splitOn '\n' = above ++ here :: below ∧
      x.line = some (above.length + 1) ∧
      x.context =
        some (Excerpt.display (above.map withoutReturn) (shownRows (here :: below))) ∧
      (shownRows (here :: below) = [] ↔
        o = source.utf8ByteSize ∧ source.toList.getLast? = some '\n') := by
  obtain ⟨-, o, hplaced, -⟩ := documentOf_error_unnamed h
  obtain ⟨focus, hline, hcontext⟩ := exists_line_of_documentOf_eq_error h
  obtain ⟨front, ⟨back, hsource⟩, rfl⟩ := hplaced.exists_front
  obtain ⟨above, here, below, hrows, hlength, hlast⟩ := exists_splitOn_append front back
  rw [hsource] at hrows
  have hfocus : focus = above.length := by
    have hsame := hline.symm.trans hplaced.line_eq
    rw [line_positionIn hsource.symm, ← hlength] at hsame
    exact Nat.succ.inj (Option.some.inj hsame)
  subst hfocus
  have hlines : lines source.toList =
      above.map withoutReturn ++ shownRows (here :: below) := by
    rw [lines_eq, hrows, shownRows_append_cons]
  have hexcerpt := excerpt_eq hlines
  rw [List.length_map] at hexcerpt
  have hne : source.toList ≠ [] := fun hnil => by
    have hempty : documentOf "" = .ok ⟨[]⟩ := documentOf_eq_ok_iff.2 ⟨[], by decide +kernel, rfl⟩
    rw [String.toList_eq_nil_iff.1 hnil, hempty] at h
    cases h
  refine ⟨_, above, here, below, hplaced, hrows, hline, ?_, ?_⟩
  · rw [hcontext, hexcerpt, if_neg]
    intro hempty
    obtain ⟨habove, hshown⟩ :=
      Excerpt.eq_nil_of_display_eq_empty (String.isEmpty_iff.1 hempty)
    obtain ⟨rfl, rfl⟩ := shownRows_eq_nil_iff.1 hshown
    rw [List.map_eq_nil_iff.1 habove] at hrows
    exact hne (eq_nil_of_splitOn_eq hrows)
  · rw [shownRows_eq_nil_iff, hlast, ← byteLength_toList, ← hsource, byteLength_append]
    constructor
    · rintro ⟨rfl, hend⟩
      rw [List.append_nil] at hsource ⊢
      have hfront := List.getLast?_eq_some_getLast (hsource ▸ hne)
      exact ⟨rfl, hfront.trans (congrArg some (hend _ hfront))⟩
    · rintro ⟨hall, hend⟩
      have hback : back = [] := Classical.byContradiction fun hback => by
        have hpos := byteLength_pos hback
        omega
      subst hback
      rw [List.append_nil] at hend
      exact ⟨rfl, fun c hc => Option.some.inj ((Option.mem_def.1 hc).symm.trans hend)⟩

theorem documentOf_eq_error {source : String} {lexemes : List Lexeme} {failure : Grammar.Failure}
    (hscan : scan source = .ok lexemes) (hfails : Document.ofLexemes lexemes = .error failure) :
    documentOf source = .error (failure.diagnostic source) := by
  rw [documentOf, lexemesOf, hscan]
  show documentOfLexemes source lexemes = _
  rw [documentOfLexemes, hfails]

/-- A bracket that does not belong there, on the fourth line of a text. -/
def strayBracketSource : String := "\n\n\nDomain ]\r\nB\n\n\n"

def strayBracketDiagnostic : Diagnostic :=
  { message := "Unexpected ']'"
    severity := .error
    code := some "syntax"
    line := some 4
    column := some 8
    filename := none
    expected := some ["identifier"]
    context := some "     2 | \n     3 | \n>>   4 | Domain ]\n     5 | B\n     6 | \n" }

theorem strayBracket_excerpt :
    let source := strayBracketSource
    let x := strayBracketDiagnostic
    documentOf source = .error x ∧
      ∃ o above here below, x.PlacedAt source o ∧
        source.toList.splitOn '\n' = above ++ here :: below ∧
        x.line = some (above.length + 1) ∧
        x.context =
          some (Excerpt.display (above.map withoutReturn) (shownRows (here :: below))) ∧
        (shownRows (here :: below) = [] ↔
          o = source.utf8ByteSize ∧ source.toList.getLast? = some '\n') := by
  intro source x
  have hscan : scan source = .ok [⟨.name "Domain", ⟨3, 9⟩⟩, ⟨.closeBracket, ⟨10, 11⟩⟩,
      ⟨.name "B", ⟨13, 14⟩⟩] := by decide +kernel
  have hfails : documentOf source = .error x :=
    (documentOf_eq_error hscan rfl).trans (congrArg Except.error (by decide +kernel))
  exact ⟨hfails, documentOf_error_excerpt hfails⟩

/-- A brace that is never closed, in a text that ends with a line feed. -/
def unclosedBraceDiagnostic : Diagnostic :=
  { message := "Unexpected end of input"
    severity := .error
    code := some "syntax"
    line := some 2
    column := some 1
    filename := none
    expected := some ["'\x7d'"]
    context := some "     1 | Domain A \x7b\n" }

/-- Not every text that is no document has a line of it marked. -/
theorem not_always_marked :
    ¬∀ source x, documentOf source = .error x →
      ∃ context, x.context = some context ∧
        ∃ line ∈ lines context.toList, ">>".toList <+: line := by
  intro h
  have hscan : scan "Domain A \x7b\n" = .ok [⟨.name "Domain", ⟨0, 6⟩⟩, ⟨.name "A", ⟨7, 8⟩⟩,
      ⟨.openBrace, ⟨9, 10⟩⟩] := by decide +kernel
  have hfails : documentOf "Domain A \x7b\n" = .error unclosedBraceDiagnostic :=
    (documentOf_eq_error hscan rfl).trans (congrArg Except.error (by decide +kernel))
  obtain ⟨_, hcontext, hmarked⟩ := h _ _ hfails
  obtain rfl := Option.some.inj hcontext
  revert hmarked
  decide

end Landscape
