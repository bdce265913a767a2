import BlockCanvas.Host.Flow
import BlockCanvas.Text.Utf8

/-!
What commands do with streams: they put them one after another, cut them, and change them.
-/
namespace BlockCanvas.Host
namespace Flow

def ofText (s : String) : Flow :=
  { data := Text.utf8 s }

def ends (f : Flow) : Bool :=
  f.rest == .ended

def isEmpty (f : Flow) : Bool :=
  f.data.isEmpty && f.ends

def append (f g : Flow) : Flow :=
  match f.rest with
  | .ended => ⟨f.data ++ g.data, g.rest⟩
  | _ => f

def join : List Flow → Flow
  | [] => {}
  | f :: flows => f.append (join flows)

/-- The first `n` bytes, and what is left. Bytes that a silent stream owes are waited for. -/
def cut (f : Flow) (n : Nat) : Flow × Flow :=
  let g := f.unroll n
  let first := g.data.take n
  if n ≤ first.length then (ofBytes first, ⟨g.data.drop n, g.rest⟩)
  else (g, ⟨[], g.rest⟩)

def lineBytes? (counted : Nat) : Nat → Bytes → Option Nat
  | 0, _ => some counted
  | _ + 1, [] => none
  | n + 1, b :: bytes => lineBytes? (counted + 1) (if b == 10 then n else n + 1) bytes

def cutLines (f : Flow) (n : Nat) : Flow × Flow :=
  let g := match f.rest with
    | .cycle block => f.unroll (f.data.length + n * block.length)
    | _ => f
  match lineBytes? 0 n g.data with
  | some size => g.cut size
  | none => if g.ends then (g, {}) else (⟨g.data, .silent⟩, ⟨[], .silent⟩)

def map (change : Bytes → Bytes) (f : Flow) : Flow :=
  match f.rest with
  | .cycle block =>
    let block := change block
    ⟨change f.data, if block.isEmpty then .silent else .cycle block⟩
  | rest => ⟨change f.data, rest⟩

def all? (f : Flow) : Option Bytes :=
  if f.ends then some f.data else none

def whole (change : Bytes → Bytes) (f : Flow) : Flow :=
  match f.all? with
  | some data => ofBytes (change data)
  | none => ⟨[], .silent⟩

end Flow
end BlockCanvas.Host
