/-!
Stretches of a document, in bytes.
-/

namespace DiagramSync

/-- The bytes from `start` up to, but not including, `stop`. -/
structure Span where
  start : Nat
  stop : Nat
  deriving Repr, DecidableEq, Inhabited

namespace Span

def length (span : Span) : Nat :=
  span.stop - span.start

def contains (span : Span) (offset : Nat) : Bool :=
  span.start ≤ offset && offset < span.stop

end Span
end DiagramSync
