import BlockCanvas.Bytes

/-!
Streams of bytes, as programs print them. A stream ends, falls silent without ending, or repeats a block
for ever.
-/
namespace BlockCanvas.Host

inductive Rest where
  | ended
  | silent
  | cycle (block : Bytes)
  deriving DecidableEq, Repr

structure Flow where
  data : Bytes := []
  rest : Rest := .ended
  deriving DecidableEq, Repr

namespace Flow

def ofBytes (data : Bytes) : Flow :=
  { data }

def rounds (block : Bytes) (n : Nat) : Bytes :=
  (List.replicate n block).flatten

/-- Writes out at least `n` bytes of what a stream repeats. -/
def unroll (f : Flow) (n : Nat) : Flow :=
  match f.rest with
  | .cycle block =>
    if block.isEmpty then ⟨f.data, .silent⟩
    else ⟨f.data ++ rounds block ((n - f.data.length) / block.length + 1), f.rest⟩
  | _ => f

end Flow
end BlockCanvas.Host
