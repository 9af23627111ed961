/-!
# Containers

Metadata describes how a member repeats by three fields: a flag, a size and
whether the size is an upper bound.  Only four combinations are distinct: a
size of zero always means an unbounded sequence, and without the flag the
other two fields mean nothing.
-/

namespace Metastring

/-- How a member repeats, as metadata states it. -/
structure Shape where
  isArray : Bool := false
  arraySize : UInt64 := 0
  isUpperBound : Bool := false
deriving DecidableEq, Inhabited

/-- How a member repeats, as the compiler understands it. -/
inductive Container where
  | single
  | array (size : UInt64)
  | boundedSequence (maximum : UInt64)
  | unboundedSequence
deriving DecidableEq, Inhabited

namespace Shape

def container (shape : Shape) : Container :=
  if shape.isArray then
    if shape.arraySize = 0 then .unboundedSequence
    else if shape.isUpperBound then .boundedSequence shape.arraySize
    else .array shape.arraySize
  else .single

/-- A fixed array of the given size; zero gives an unbounded sequence. -/
def array (size : UInt64) : Shape :=
  ⟨true, size, false⟩

/-- A sequence with the given bound, or without one. -/
def sequence (bound : Option UInt64) : Shape :=
  ⟨true, bound.getD 0, bound.isSome⟩

end Shape

end Metastring
