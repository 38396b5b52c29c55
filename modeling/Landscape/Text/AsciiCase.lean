/-!
Comparing texts without regard to the case of ASCII letters.

Letters outside ASCII are compared as they are.
-/

namespace Landscape.Text

/-- Whether two texts are the same up to the case of their ASCII letters. -/
def eqIgnoringAsciiCase (a b : String) : Bool :=
  a.toList.map Char.toLower == b.toList.map Char.toLower

@[simp] theorem eqIgnoringAsciiCase_self (a : String) : eqIgnoringAsciiCase a a := by
  simp [eqIgnoringAsciiCase]

theorem eqIgnoringAsciiCase_comm (a b : String) :
    eqIgnoringAsciiCase a b = eqIgnoringAsciiCase b a := by
  simp [eqIgnoringAsciiCase, Bool.beq_comm]

end Landscape.Text
