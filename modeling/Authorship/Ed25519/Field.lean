/-
Module: Authorship.Ed25519.Field
Purpose: Arithmetic modulo 2^255 - 19 on natural numbers that are kept reduced, with powers by
  repeated squaring over a list of bits and the square root that point decompression needs.
Main exports: Ed25519.prime, Ed25519.bits, Ed25519.power, Ed25519.inverse, Ed25519.rootOfRatio?
-/

namespace Authorship.Ed25519

/-- The order of the field. -/
def prime : Nat := Nat.pow 2 255 - 19

def add (x y : Nat) : Nat := (x + y) % prime

def sub (x y : Nat) : Nat := (x + (prime - y)) % prime

def mul (x y : Nat) : Nat := (x * y) % prime

def neg (x : Nat) : Nat := (prime - x) % prime

/-- The `count` low bits of a number, highest first. -/
def bits (count value : Nat) : List Bool :=
  (List.range count).reverse.map value.testBit

/-- `base` to the exponent with the given bits, highest first. -/
def power (base : Nat) (exponent : List Bool) : Nat :=
  exponent.foldl
    (fun result bit =>
      let square := mul result result
      if bit then mul square base else square) 1

/-- The multiplicative inverse; zero for zero. -/
def inverse (x : Nat) : Nat := power x (bits 255 (prime - 2))

/-- A square root of -1. -/
def rootOfMinusOne : Nat := power 2 (bits 253 ((prime - 1) / 4))

/-- A root of `numerator / denominator`, if the ratio is a square. -/
def rootOfRatio? (numerator denominator : Nat) : Option Nat :=
  let cube := mul (mul denominator denominator) denominator
  let seventh := mul (mul cube cube) denominator
  let root := mul (mul numerator cube)
    (power (mul numerator seventh) (bits 252 ((prime - 5) / 8)))
  let check := mul denominator (mul root root)
  if check = numerator then some root
  else if check = neg numerator then some (mul root rootOfMinusOne)
  else none

end Authorship.Ed25519
