import FfbInterceptor.Library.Layout

/-! The little-endian formats of Python's `struct` that the viewer uses. -/
namespace FfbInterceptor.Viewer
open FfbInterceptor.Library

/-- The format characters, `s` with its count. -/
inductive Code where
  | H
  | I
  | Q
  | i
  | s (count : Nat)
  deriving DecidableEq, Repr

def Code.size : Code → Nat
  | H => 2
  | I => 4
  | Q => 8
  | i => 4
  | s count => count

abbrev Code.Value : Code → Type
  | H => UInt16
  | I => UInt32
  | Q => UInt64
  | i => Int32
  | s _ => List UInt8

def Code.unpack (data : List UInt8) (offset : Nat) : (code : Code) → code.Value
  | H => word16At data offset
  | I => word32At data offset
  | Q => word64At data offset
  | i => (word32At data offset).toInt32
  | s count => sliceAt data offset count

def calcsize (format : List Code) : Nat := (format.map Code.size).sum

abbrev Values : List Code → Type
  | [] => Unit
  | code :: format => code.Value × Values format

def unpack (data : List UInt8) (offset : Nat) : (format : List Code) → Values format
  | [] => ()
  | code :: format => (code.unpack data offset, unpack data (offset + code.size) format)

/-- The numbers of a format such as `8i`. -/
def Values.ints : (count : Nat) → Values (List.replicate count .i) → List Int32
  | 0, _ => []
  | count + 1, (value, values) => value :: Values.ints count values

example (data : List UInt8) : unpack data 0 [.H, .I] = (word16At data 0, word32At data 2, ()) := rfl

end FfbInterceptor.Viewer
