/-!
# Source spans

A node of a lowered tree carries the offsets of the element that it stands for. Declarations read
from a symbol table have no source, so a distinguished start offset marks a span as undefined.

## Main definitions

* `Span` — a half-open range of offsets.
* `Span.undefined` — the span of a node without a source position.
* `Span.length` — the number of offsets in a span, zero for an undefined one.
-/

namespace ClassSymbols

/-- The offsets from `start` up to and without `stop`. -/
structure Span where
  start : UInt32
  stop : UInt32
  deriving DecidableEq, Repr

namespace Span

/-- The offset of a node without a source position. -/
def undefinedOffset : UInt32 := 0xFFFFFFFF

def undefined : Span := ⟨undefinedOffset, undefinedOffset⟩

instance : Inhabited Span := ⟨undefined⟩

def isUndefined (s : Span) : Bool := s.start == undefinedOffset

/-- The number of offsets in the span; a span that ends before it starts has none. -/
def length (s : Span) : Nat :=
  if s.isUndefined then 0 else s.stop.toNat - s.start.toNat

def isEmpty (s : Span) : Bool := s.length == 0

end Span

end ClassSymbols
