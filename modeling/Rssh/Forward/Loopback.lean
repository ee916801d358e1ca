import Mathlib.Data.List.Basic

/-!
# Loopback endpoints

The SSH fixture connects to and listens on loopback addresses only. A `LoopbackEndpoint` is made
from a host, which is `localhost` or the text of a loopback address, and a port.

* `IpAddr.parse` reads the text of an address as the standard library does.
* `LoopbackEndpoint` has only loopback addresses, by one of its fields.
-/

namespace Rssh

/-! ## Addresses -/

inductive IpAddr where
  | v4 (a b c d : UInt8)
  | v6 (bits : BitVec 128)
deriving DecidableEq, Repr

structure SocketAddr where
  ip : IpAddr
  port : UInt16
deriving DecidableEq, Repr

namespace IpAddr

def isLoopback : IpAddr → Bool
  | .v4 a _ _ _ => a = 127
  | .v6 bits => bits = 1

/-! ## Their texts -/

/-- `char::to_digit`. -/
def toDigit (radix : Nat) (c : Char) : Option Nat :=
  let value :=
    if c.isDigit then some (c.toNat - '0'.toNat)
    else if 'a' ≤ c ∧ c ≤ 'z' then some (c.toNat - 'a'.toNat + 10)
    else if 'A' ≤ c ∧ c ≤ 'Z' then some (c.toNat - 'A'.toNat + 10)
    else none
  value.filter (· < radix)

/-- A number with its digits bounded; other digits behind a zero may be refused. -/
def readNumber (radix maxDigits max : Nat) (allowZeroPrefix : Bool) (s : List Char) :
    Option (Nat × List Char) :=
  let digits := s.takeWhile fun c => (toDigit radix c).isSome
  let value := (digits.filterMap (toDigit radix)).foldl (fun value digit => value * radix + digit) 0
  if digits = [] ∨ maxDigits < digits.length ∨ max < value then none
  else if allowZeroPrefix = false ∧ digits.head? = some '0' ∧ 1 < digits.length then none
  else some (value, s.drop digits.length)

def readGivenChar (given : Char) : List Char → Option (List Char)
  | c :: rest => if c = given then some rest else none
  | [] => none

/-- `read_separator`: only the first of a list has no separator before it. -/
def readSeparator {α : Type} (separator : Char) (first : Bool)
    (inner : List Char → Option (α × List Char)) (s : List Char) : Option (α × List Char) :=
  if first then inner s else (readGivenChar separator s).bind inner

/-- Four numbers of a byte each. -/
def readIpv4Addr (s : List Char) : Option ((Nat × Nat × Nat × Nat) × List Char) := do
  let octet := readNumber 10 3 255 false
  let (a, s) ← readSeparator '.' true octet s
  let (b, s) ← readSeparator '.' false octet s
  let (c, s) ← readSeparator '.' false octet s
  let (d, s) ← readSeparator '.' false octet s
  pure ((a, b, c, d), s)

/-- `read_groups`: at most so many groups, and whether the last two are an IPv4 address. -/
def readGroups : Nat → Bool → List Char → List Nat × Bool × List Char
  | 0, _, s => ([], false, s)
  | left + 1, first, s =>
      match if 0 < left then readSeparator ':' first readIpv4Addr s else none with
      | some ((a, b, c, d), rest) => ([a * 256 + b, c * 256 + d], true, rest)
      | none =>
          match readSeparator ':' first (readNumber 16 4 65535 true) s with
          | some (group, rest) =>
              let (groups, ipv4, rest) := readGroups left false rest
              (group :: groups, ipv4, rest)
          | none => ([], false, s)

def ofGroups (groups : List Nat) : BitVec 128 :=
  BitVec.ofNat 128 (groups.foldl (fun bits group => bits * 65536 + group) 0)

def readIpv6Addr (s : List Char) : Option (BitVec 128 × List Char) :=
  let (head, headIpv4, rest) := readGroups 8 true s
  if head.length = 8 then some (ofGroups head, rest)
  -- an IPv4 address may not stand before `::`
  else if headIpv4 then none
  else
    match (readGivenChar ':' rest).bind (readGivenChar ':') with
    | none => none
    | some rest =>
        let (tail, _, rest) := readGroups (7 - head.length) true rest
        let zeros := List.replicate (8 - head.length - tail.length) 0
        some (ofGroups (head ++ zeros ++ tail), rest)

/-- `str::parse::<IpAddr>`: the whole text is the address. -/
def parse (s : List Char) : Option IpAddr :=
  match readIpv4Addr s with
  | some ((a, b, c, d), rest) =>
      if rest = [] then some (.v4 (.ofNat a) (.ofNat b) (.ofNat c) (.ofNat d)) else none
  | none =>
      match readIpv6Addr s with
      | some (bits, rest) => if rest = [] then some (.v6 bits) else none
      | none => none

example : parse "127.0.0.1".toList = some (.v4 127 0 0 1) := by decide
example : parse "127.0.0.01".toList = none := by decide
example : parse "::1".toList = some (.v6 1) := by decide
example : parse "0:0::0:0:0:1".toList = some (.v6 1) := by decide
example : parse "::ffff:127.0.0.1".toList = some (.v6 0xFFFF7F000001) := by decide

end IpAddr

/-! ## Endpoints -/

structure LoopbackPolicyError where
  host : List Char
deriving DecidableEq, Repr

structure LoopbackEndpoint where
  host : List Char
  port : UInt16
  addresses : List SocketAddr
  loopback : ∀ address ∈ addresses, address.ip.isLoopback = true

namespace LoopbackEndpoint

def new (host : List Char) (port : UInt16) : Except LoopbackPolicyError LoopbackEndpoint :=
  if host = "localhost".toList then
    .ok
      { host
        port
        addresses := [⟨.v4 127 0 0 1, port⟩, ⟨.v6 1, port⟩]
        loopback := by simp [IpAddr.isLoopback] }
  else
    match IpAddr.parse host with
    | none => .error ⟨host⟩
    | some address =>
        if h : address.isLoopback = true then
          .ok { host, port, addresses := [⟨address, port⟩], loopback := by simpa using h }
        else .error ⟨host⟩

end LoopbackEndpoint

end Rssh
