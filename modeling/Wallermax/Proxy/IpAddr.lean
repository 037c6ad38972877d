import Mathlib.Data.List.Basic

/-!
# Addresses and networks

`IpAddr` as its bits, the standard library's parser for its textual forms, and
the networks of `trusted_proxies`. The parser reads a number of groups and
backs up to where it started when it fails, so each reader returns what it read
with the rest of the text, or nothing.
-/

namespace Wallermax.Proxy

inductive IpAddr : Type
  | V4 (bits : BitVec 32)
  | V6 (bits : BitVec 128)
deriving DecidableEq

/-! ## `IpAddr::from_str` -/

/-- `char::to_digit`. -/
def toDigit (radix : ℕ) (c : Char) : Option ℕ :=
  let n := c.toNat
  let digit :=
    if 0x30 ≤ n ∧ n ≤ 0x39 then n - 0x30
    else if 0x41 ≤ n ∧ n ≤ 0x5A then n - 0x37
    else if 0x61 ≤ n ∧ n ≤ 0x7A then n - 0x57
    else radix
  if digit < radix then some digit else none

/-- The digits the text starts with, and the rest. -/
def readDigits (radix : ℕ) : List Char → List ℕ × List Char
  | [] => ([], [])
  | c :: rest =>
      match toDigit radix c with
      | none => ([], c :: rest)
      | some d =>
          let (digits, rest) := readDigits radix rest
          (d :: digits, rest)

/-- `read_number`, for a number below `limit` of at most `max_digits` digits. -/
def readNumber (radix max_digits : ℕ) (allowZeroPrefix : Bool) (limit : ℕ)
    (text : List Char) : Option (ℕ × List Char) :=
  let (digits, rest) := readDigits radix text
  let value := digits.foldl (fun n d => n * radix + d) 0
  if digits = [] ∨ max_digits < digits.length then none
  else if allowZeroPrefix = false ∧ text.head? = some '0' ∧ 1 < digits.length then none
  else if value < limit then some (value, rest) else none

/-- `read_separator`: every group but the first has the separator before it. -/
def readSeparator {α : Type} (separator : Char) (index : ℕ)
    (inner : List Char → Option (α × List Char)) (text : List Char) :
    Option (α × List Char) :=
  if index = 0 then inner text
  else match text with
  | c :: rest => if c = separator then inner rest else none
  | [] => none

/-- `read_ipv4_addr`: its four octets. -/
def readIpv4Addr (text : List Char) : Option ((ℕ × ℕ × ℕ × ℕ) × List Char) := do
  let octet := readNumber 10 3 false 256
  let (a, text) ← readSeparator '.' 0 octet text
  let (b, text) ← readSeparator '.' 1 octet text
  let (c, text) ← readSeparator '.' 2 octet text
  let (d, text) ← readSeparator '.' 3 octet text
  return ((a, b, c, d), text)

/-- `read_groups`: the groups read, and whether the last two of them are an
embedded IPv4 address; one needs room for two groups. -/
def readGroups : ℕ → List ℕ → List Char → List ℕ × Bool × List Char
  | 0, groups, text => (groups, false, text)
  | left + 1, groups, text =>
      let ipv4 := if left = 0 then none
        else readSeparator ':' groups.length readIpv4Addr text
      match ipv4 with
      | some ((a, b, c, d), rest) => (groups ++ [a * 256 + b, c * 256 + d], true, rest)
      | none =>
          match readSeparator ':' groups.length (readNumber 16 4 true 65536) text with
          | some (group, rest) => readGroups left (groups ++ [group]) rest
          | none => (groups, false, text)

/-- `read_ipv6_addr`: its eight groups. -/
def readIpv6Addr (text : List Char) : Option (List ℕ × List Char) :=
  let (head, head_ipv4, text) := readGroups 8 [] text
  if head.length = 8 then some (head, text)
  else if head_ipv4 then none
  else match text with
  | ':' :: ':' :: text =>
      let (tail, _, text) := readGroups (8 - (head.length + 1)) [] text
      some (head ++ List.replicate (8 - head.length - tail.length) 0 ++ tail, text)
  | _ => none

/-- `IpAddr::from_str`: nothing may be left over. -/
def parseIpAddr (text : String) : Option IpAddr :=
  match readIpv4Addr text.toList with
  | some ((a, b, c, d), rest) =>
      if rest = [] then
        some (.V4 (BitVec.ofNat 32 (((a * 256 + b) * 256 + c) * 256 + d)))
      else none
  | none =>
      match readIpv6Addr text.toList with
      | some (groups, rest) =>
          if rest = [] then
            some (.V6 (BitVec.ofNat 128 (groups.foldl (fun n g => n * 65536 + g) 0)))
          else none
      | none => none

example : parseIpAddr "198.51.100.7" = some (.V4 0xC6336407) := by decide +kernel
example : parseIpAddr "::ffff:10.0.0.1" = some (.V6 0xFFFF0A000001) := by decide +kernel
example : parseIpAddr "10.0.0.01" = none := by decide +kernel

/-! ## Networks -/

structure Cidr : Type where
  network : IpAddr
  prefixLen : ℕ
deriving DecidableEq

/-- The `prefixLen` high bits. -/
def mask (width prefixLen : ℕ) : BitVec width :=
  if prefixLen = 0 then 0 else BitVec.allOnes width <<< (width - prefixLen)

/-- `Cidr::masked`. -/
def Cidr.masked (cidr : Cidr) (address : IpAddr) : IpAddr :=
  match cidr.network, address with
  | .V4 _, .V4 bits => .V4 (bits &&& mask 32 cidr.prefixLen)
  | .V6 _, .V6 bits => .V6 (bits &&& mask 128 cidr.prefixLen)
  | _, _ => address

/-- `Cidr::contains`. -/
def Cidr.contains (cidr : Cidr) (address : IpAddr) : Bool :=
  match cidr.network, address with
  | .V4 _, .V6 _ => false
  | .V6 _, .V4 _ => false
  | _, _ => cidr.masked address == cidr.network

end Wallermax.Proxy
