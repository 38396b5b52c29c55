/-!
Spans: where in a source text something is written.
-/

namespace Landscape

/-- A half-open range of byte offsets into a source text. -/
structure Span where
  start : Nat
  stop : Nat
deriving Repr, DecidableEq, Inhabited

namespace Span

/-- The span of whatever was not read from a text. -/
def none : Span := ⟨0, 0⟩

/-- The empty span at an offset. -/
def emptyAt (offset : Nat) : Span := ⟨offset, offset⟩

end Span

end Landscape
