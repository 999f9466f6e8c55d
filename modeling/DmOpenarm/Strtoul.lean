import DmOpenarm.Types
import Mathlib.Algebra.Group.Nat.Defs

/-! `std::stoul` with base 0 on a 64-bit unsigned long: white space, a sign, an optional 0 or
0x marking the base, then digits. A minus sign negates modulo 2^64. -/

namespace DmOpenarm.Strtoul
open Types

def isSpace (c : Char) : Bool :=
  c.toNat == 32 || (9 ≤ c.toNat && c.toNat ≤ 13)

def digitValue (base : Nat) (c : Char) : Option Nat :=
  let value :=
    if '0' ≤ c && c ≤ '9' then c.toNat - 48
    else if 'a' ≤ c && c ≤ 'z' then c.toNat - 87
    else if 'A' ≤ c && c ≤ 'Z' then c.toNat - 55
    else base
  if value < base then some value else none

/-- The longest run of digits, read onto an accumulator, and what follows it. -/
def digits (base : Nat) : Nat → List Char → Nat × List Char
  | value, [] => (value, [])
  | value, c :: rest =>
      match digitValue base c with
      | some digit => digits base (value * base + digit) rest
      | none => (value, c :: rest)

/-- The unsigned literal a text begins with. A 0x that no hexadecimal digit follows is the
octal literal 0. -/
def magnitude : List Char → Option (Nat × List Char)
  | [] => none
  | '0' :: mark :: rest =>
      if (mark == 'x' || mark == 'X') && (rest.head?.bind (digitValue 16)).isSome then
        some (digits 16 0 rest)
      else some (digits 8 0 ('0' :: mark :: rest))
  | c :: rest =>
      if (digitValue 10 c).isSome then
        some (digits (if c = '0' then 8 else 10) 0 (c :: rest))
      else none

def sign : List Char → Bool × List Char
  | '-' :: rest => (true, rest)
  | '+' :: rest => (false, rest)
  | text => (false, text)

/-- The value, and the part of the text that was not parsed. -/
def stoul (text : List Char) : Except Fault (Nat × List Char) :=
  let signed := sign (text.dropWhile isSpace)
  match magnitude signed.2 with
  | none => .error (.invalidArgument "stoul")
  | some (value, rest) =>
      if 2 ^ 64 ≤ value then .error (.outOfRange "stoul")
      else .ok (if signed.1 then (2 ^ 64 - value) % 2 ^ 64 else value, rest)

end DmOpenarm.Strtoul
