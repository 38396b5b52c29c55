import Landscape.Text.Ranges

/-!
Blanks: the characters with the property White_Space.

Five of them separate tokens; the others cannot occur outside a string.
-/

namespace Landscape.Text

namespace Blank

/-- The blanks, as inclusive ranges of code points in increasing order. -/
def ranges : List (Nat × Nat) := [
  (0x9, 0xD), (0x20, 0x20), (0x85, 0x85), (0xA0, 0xA0), (0x1680, 0x1680), (0x2000, 0x200A),
  (0x2028, 0x2029), (0x202F, 0x202F), (0x205F, 0x205F), (0x3000, 0x3000)]

end Blank

/-- Whether a character is blank. -/
def isBlank (c : Char) : Bool :=
  covers Blank.ranges c.toNat

theorem isBlank_of_isWhitespace {c : Char} (h : c.isWhitespace) : isBlank c := by
  simp only [Char.isWhitespace, Bool.or_eq_true, decide_eq_true_eq] at h
  obtain (((rfl | rfl) | rfl) | rfl) := h <;> decide

end Landscape.Text
