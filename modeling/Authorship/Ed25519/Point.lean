/-
Module: Authorship.Ed25519.Point
Purpose: Points of the twisted Edwards curve -x² + y² = 1 + d x² y² in extended coordinates, with an
  addition that has no special cases, multiplication by doubling and adding, and the 32-byte form:
  y with the low bit of x on top.
Main exports: Ed25519.Point, Point.add, Point.multiply, Point.compress, Point.decompress?, basePoint
-/
import Authorship.Bytes
import Authorship.Ed25519.Field

namespace Authorship.Ed25519

/-- A point `(x / z, y / z)` with `t = x y / z`. -/
structure Point where
  x : Nat
  y : Nat
  z : Nat
  t : Nat
deriving DecidableEq, Repr

/-- The constant `d` of the curve. -/
def curveConstant : Nat := mul (neg 121665) (inverse 121666)

def twiceCurveConstant : Nat := add curveConstant curveConstant

namespace Point

/-- The neutral point. -/
def zero : Point := ⟨0, 1, 1, 0⟩

/-- The sum of two points, equal or not. -/
def add (one two : Point) : Point :=
  let a := mul (sub one.y one.x) (sub two.y two.x)
  let b := mul (Ed25519.add one.y one.x) (Ed25519.add two.y two.x)
  let c := mul (mul one.t twiceCurveConstant) two.t
  let d := mul (Ed25519.add one.z one.z) two.z
  let e := sub b a
  let f := sub d c
  let g := Ed25519.add d c
  let h := Ed25519.add b a
  ⟨mul e f, mul g h, mul f g, mul e h⟩

/-- The sum of a point with itself. -/
def double (point : Point) : Point :=
  let a := mul point.x point.x
  let b := mul point.y point.y
  let c := mul (Ed25519.add point.z point.z) point.z
  let h := Ed25519.add a b
  let sum := Ed25519.add point.x point.y
  let e := sub h (mul sum sum)
  let g := sub a b
  let f := Ed25519.add c g
  ⟨mul e f, mul g h, mul f g, mul e h⟩

def negate (point : Point) : Point :=
  { point with x := neg point.x, t := neg point.t }

/-- `scalar` times the point, for a scalar below 2^256. -/
def multiply (scalar : Nat) (point : Point) : Point :=
  (bits 256 scalar).foldl
    (fun sum bit => if bit then sum.double.add point else sum.double) zero

/-- The 32-byte form. -/
def compress (point : Point) : FixedBytes 32 :=
  let scale := inverse point.z
  let x := mul point.x scale
  let y := mul point.y scale
  ⟨littleEndian 32 (y + x % 2 * Nat.pow 2 255), length_littleEndian _ _⟩

/-- The point with a given 32-byte form. The low 255 bits are taken modulo the prime, and a set top
bit is admitted where x is zero. -/
def decompress? (bytes : FixedBytes 32) : Option Point := do
  let value := ofLittleEndian bytes.toList
  let y := value % Nat.pow 2 255 % prime
  let square := mul y y
  let root ← rootOfRatio? (sub square 1) (Ed25519.add (mul curveConstant square) 1)
  let even := if root % 2 = 0 then root else neg root
  let x := if value < Nat.pow 2 255 then even else neg even
  return ⟨x, y, 1, mul x y⟩

end Point

/-- The generator of the large subgroup: y is 4/5 and x is even. -/
def basePoint : Point :=
  let y := mul 4 (inverse 5)
  (Point.decompress? ⟨littleEndian 32 y, length_littleEndian _ _⟩).getD Point.zero

/-- The order of the large subgroup. -/
def groupOrder : Nat := Nat.pow 2 252 + 27742317777372353535851937790883648493

end Authorship.Ed25519
