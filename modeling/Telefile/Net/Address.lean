import Telefile.Text.Scan

/-!
# Socket addresses

IPv4 and IPv6 addresses with ports, as they are written in settings and shown in messages.

* an IPv4 part is decimal, without leading zeros; an IPv6 group has at most four hexadecimal
  digits; `::` stands for at least one group of zeros, and the last two groups may be written as an
  IPv4 address;
* shown, the longest run of two or more zero groups is left out, the first of equals, and an
  IPv4-mapped address keeps its dotted end.
-/

namespace Telefile

/-- An IPv4 address. -/
structure Ipv4 where
  octets : List Nat
  deriving DecidableEq, Repr

/-- An IPv6 address, as eight groups of sixteen bits. -/
structure Ipv6 where
  groups : List Nat
  deriving DecidableEq, Repr

/-- An address of a host. -/
inductive IpAddress
  | v4 (a : Ipv4)
  | v6 (a : Ipv6)
  deriving DecidableEq, Repr

/-- An address and a port; an IPv6 address may be bound to an interface. -/
inductive SocketAddress
  | v4 (a : Ipv4) (port : Nat)
  | v6 (a : Ipv6) (port : Nat) (interface : Nat)
  deriving DecidableEq, Repr

/-! ## 1. Reading -/

namespace AddressText

/-- Limits on how a number is written. -/
structure NumberForm where
  radix : Nat
  /-- The most digits, if there is a limit. -/
  most : Option Nat
  /-- Whether zeros may lead. -/
  zeros : Bool
  /-- What the number stays below. -/
  bound : Nat

/-- A part of an IPv4 address. -/
def octetForm : NumberForm := ⟨10, some 3, false, 256⟩

/-- A group of an IPv6 address. -/
def groupForm : NumberForm := ⟨16, some 4, true, 65536⟩

/-- A port. -/
def portForm : NumberForm := ⟨10, none, true, 65536⟩

/-- The number of an interface. -/
def interfaceForm : NumberForm := ⟨10, none, true, 4294967296⟩

/-- Whether digits are a number of a form. -/
def NumberForm.admits (f : NumberForm) (ds : List Nat) : Bool :=
  !ds.isEmpty && !f.most.any (fun m => m < ds.length) &&
    (f.zeros || ds.length = 1 || ds.head? != some 0) && Scan.valueOf f.radix ds < f.bound

/-- A number. -/
def number (f : NumberForm) : Scan Nat :=
  (Scan.many (Scan.digit f.radix)).filterMap fun ds =>
    if f.admits ds then some (Scan.valueOf f.radix ds) else none

/-- A part behind a separator, which the first part does without. -/
def behind {α : Type} (sep : Char) (first : Bool) (part : Scan α) : Scan α :=
  if first then part else (Scan.char sep).andThen fun _ => part

/-- An IPv4 address. -/
def ipv4 : Scan Ipv4 := do
  let a ← number octetForm
  let rest ← Scan.exactly (behind '.' false (number octetForm)) 3
  pure ⟨a :: rest⟩

/-- At most `n` groups; whether they end in an IPv4 address, which takes two of them. -/
def groups : Nat → Bool → Scan (List Nat × Bool)
  | 0, _ => pure ([], false)
  | n + 1, first => do
    match ← if n = 0 then pure none else Scan.optional (behind ':' first ipv4) with
    | some ⟨[a, b, c, d]⟩ => pure ([a * 256 + b, c * 256 + d], true)
    | _ =>
      match ← Scan.optional (behind ':' first (number groupForm)) with
      | none => pure ([], false)
      | some g =>
        let (gs, dotted) ← groups n false
        pure (g :: gs, dotted)

/-- An IPv6 address. -/
def ipv6 : Scan Ipv6 := do
  let (head, dotted) ← groups 8 true
  if head.length = 8 then pure ⟨head⟩
  else if dotted then Scan.refuse
  else
    Scan.word [':', ':']
    let (tail, _) ← groups (7 - head.length) true
    pure ⟨head ++ List.replicate (8 - head.length - tail.length) 0 ++ tail⟩

/-- A colon and a port. -/
def port : Scan Nat := behind ':' false (number portForm)

/-- The interface an IPv6 address is bound to, 0 if none is given. -/
def interface : Scan Nat :=
  (fun i => i.getD 0) <$> Scan.optional (behind '%' false (number interfaceForm))

/-- An IPv4 address and a port. -/
def socketV4 : Scan SocketAddress := do
  let a ← ipv4
  let p ← port
  pure (.v4 a p)

/-- An IPv6 address in brackets and a port. -/
def socketV6 : Scan SocketAddress := do
  Scan.char '['
  let a ← ipv6
  let i ← interface
  Scan.char ']'
  let p ← port
  pure (.v6 a p i)

end AddressText

/-- Reads an address. -/
def IpAddress.ofString? (s : String) : Option IpAddress :=
  (Scan.whole AddressText.ipv4 s).map .v4 <|> (Scan.whole AddressText.ipv6 s).map .v6

/-- Reads a socket address. -/
def SocketAddress.ofString? (s : String) : Option SocketAddress :=
  Scan.whole AddressText.socketV4 s <|> Scan.whole AddressText.socketV6 s

/-! ## 2. Showing -/

namespace Ipv4

/-- The dotted form. -/
def render (a : Ipv4) : String := ".".intercalate (a.octets.map toString)

end Ipv4

namespace Ipv6

/-- A group in hexadecimal. -/
def renderGroup (n : Nat) : String := String.ofList (Nat.toDigits 16 n)

/-- Groups with colons between them. -/
def renderGroups (gs : List Nat) : String := ":".intercalate (gs.map renderGroup)

/-- The number of zero groups at the front. -/
def zerosAt (gs : List Nat) : Nat := (gs.takeWhile fun g => g == 0).length

/-- The longest run of zero groups, the first of equals: where it starts and how long it is. -/
def longestZeros (gs : List Nat) : Nat × Nat :=
  (List.range gs.length).foldl
    (fun best i =>
      let n := zerosAt (gs.drop i)
      if best.2 < n then (i, n) else best)
    (0, 0)

/-- The shown form. -/
def render (a : Ipv6) : String :=
  match a.groups with
  | [0, 0, 0, 0, 0, 0xFFFF, g, h] =>
    "::ffff:" ++ Ipv4.render ⟨[g / 256, g % 256, h / 256, h % 256]⟩
  | gs =>
    let (start, n) := longestZeros gs
    if 1 < n then renderGroups (gs.take start) ++ "::" ++ renderGroups (gs.drop (start + n))
    else renderGroups gs

end Ipv6

/-- The shown form of an address. -/
def IpAddress.render : IpAddress → String
  | .v4 a => a.render
  | .v6 a => a.render

namespace SocketAddress

/-- The shown form of a socket address. -/
def render : SocketAddress → String
  | v4 a p => s!"{a.render}:{p}"
  | v6 a p 0 => s!"[{a.render}]:{p}"
  | v6 a p i => s!"[{a.render}%{i}]:{p}"

/-- The address. -/
def ip : SocketAddress → IpAddress
  | v4 a _ => .v4 a
  | v6 a _ _ => .v6 a

/-- The port. -/
def port : SocketAddress → Nat
  | v4 _ p => p
  | v6 _ p _ => p

/-- An address and a port together, on no particular interface. -/
def ofIp : IpAddress → Nat → SocketAddress
  | .v4 a, p => v4 a p
  | .v6 a, p => v6 a p 0

/-- Port 15440 of the local host. -/
def default : SocketAddress := v4 ⟨[127, 0, 0, 1]⟩ 15440

end SocketAddress

end Telefile
