import Mathlib.Algebra.GroupWithZero.Nat
import Mathlib.Data.List.Basic

/-!
# Names and addresses of discovered interfaces

The checks on an address that an announce names, and the form in which a discovered name is
kept.

## Implementation notes

Strings are checked as the lists of their characters. Lengths are in bytes, as `str::len`
counts them. Addresses are parsed as the standard library does: an IPv4 address has four
decimal octets without leading zeros, an IPv6 address has eight groups, of which one run may be
left out, and the last two may be written as an IPv4 address.
-/

namespace Reticulum.Discovery

/-! ## Trimming -/

/-- The characters that `str::trim` takes off. -/
def isWhitespace (c : Char) : Bool :=
  let n := c.toNat
  (9 ≤ n && n ≤ 13) || n == 0x20 || n == 0x85 || n == 0xA0 || n == 0x1680 ||
    (0x2000 ≤ n && n ≤ 0x200A) || n == 0x2028 || n == 0x2029 || n == 0x202F || n == 0x205F ||
    n == 0x3000

def dropEndWhile (p : Char → Bool) (chars : List Char) : List Char :=
  (chars.reverse.dropWhile p).reverse

/-- No line breaks, and no white space at the ends. -/
def sanitize (text : String) : String :=
  let chars := text.toList.filter fun c => c != '\n' && c != '\r'
  String.ofList (dropEndWhile isWhitespace (chars.dropWhile isWhitespace))

/-! ## Addresses -/

/-- The length in bytes. -/
def byteLen (chars : List Char) : Nat := (chars.map Char.utf8Size).sum

/-- A decimal number up to 255 of at most three digits, without a leading zero. -/
def isOctet (digits : List Char) : Bool :=
  !digits.isEmpty && digits.length ≤ 3 && digits.all Char.isDigit &&
    (digits.length == 1 || digits.head? != some '0') &&
    digits.foldl (fun n c => 10 * n + (c.toNat - '0'.toNat)) 0 ≤ 255

/-- Four octets between dots. -/
def isIpv4 (chars : List Char) : Bool :=
  let octets := chars.splitOn '.'
  octets.length == 4 && octets.all isOctet

def isHexDigit (c : Char) : Bool :=
  c.isDigit || ('a' ≤ c && c ≤ 'f') || ('A' ≤ c && c ≤ 'F')

/-- One group of an IPv6 address. -/
def isGroup (digits : List Char) : Bool :=
  !digits.isEmpty && digits.length ≤ 4 && digits.all isHexDigit

/-- How many groups the parts stand for. Where it is allowed, an IPv4 address at the end stands
for two. -/
def groupCount (ipv4AtEnd : Bool) : List (List Char) → Option Nat
  | [] => some 0
  | [part] =>
      if isGroup part then some 1
      else if ipv4AtEnd && isIpv4 part then some 2
      else none
  | part :: parts => if isGroup part then (groupCount ipv4AtEnd parts).map (· + 1) else none

/-- The parts around the first double colon. -/
def splitDoubleColon : List Char → Option (List Char × List Char)
  | ':' :: ':' :: rest => some ([], rest)
  | [] => none
  | c :: rest => (splitDoubleColon rest).map fun parts => (c :: parts.1, parts.2)

/-- The parts between colons. There are none in an empty text. -/
def colonParts (chars : List Char) : List (List Char) :=
  if chars.isEmpty then [] else chars.splitOn ':'

/-- `Ipv6Addr::from_str` accepts the text. -/
def isIpv6 (chars : List Char) : Bool :=
  match splitDoubleColon chars with
  | none => groupCount true (colonParts chars) == some 8
  | some (front, back) =>
      match groupCount false (colonParts front), groupCount true (colonParts back) with
      | some n, some m => n + m ≤ 7
      | _, _ => false

/-- The text before the first sign, and after it. -/
def splitOnce (sign : Char) : List Char → Option (List Char × List Char)
  | [] => none
  | c :: rest =>
      if c == sign then some ([], rest)
      else (splitOnce sign rest).map fun parts => (c :: parts.1, parts.2)

/-- `parse_ip_address` succeeds: an IPv6 address may have a zone. -/
def isIpAddress (address : String) : Bool :=
  match splitOnce '%' address.toList with
  | some (front, zone) => !zone.isEmpty && !zone.contains '%' && isIpv6 front
  | none => isIpv4 address.toList || isIpv6 address.toList

/-- A label of a hostname. -/
def isLabel (label : List Char) : Bool :=
  !label.isEmpty && byteLen label ≤ 63 && label.head? != some '-' && label.getLast? != some '-' &&
    label.all fun c => c.isAlphanum || c == '-'

/-- One trailing dot comes off. -/
def stripDot (chars : List Char) : List Char :=
  if chars.getLast? == some '.' then chars.dropLast else chars

/-- `is_hostname`. -/
def isHostname (hostname : String) : Bool :=
  let chars := stripDot hostname.toList
  let labels := chars.splitOn '.'
  byteLen chars ≤ 253 && !(labels.getLast?.any fun last => last.all Char.isDigit) &&
    labels.all isLabel

example : ["10.0.0.1", "1.2.3", "fe80::1%en0", "::ffff:1.2.3.4", "1::2::3", "a.example"].map
    isIpAddress = [true, false, true, true, false, false] := by decide

example : ["a.example.", "a..b", "-a.b", "a.7"].map isHostname =
    [true, false, false, false] := by decide

/-! ## Discovered names -/

/-- Runs of `n` spaces become one, from the left, where `held` spaces were just read. -/
def shortenSpaces (n : Nat) : Nat → List Char → List Char
  | held, [] => List.replicate held ' '
  | held, c :: chars =>
      if c == ' ' then
        if held + 1 == n then ' ' :: shortenSpaces n 0 chars else shortenSpaces n (held + 1) chars
      else List.replicate held ' ' ++ c :: shortenSpaces n 0 chars

/-- A character that a name ends in. -/
def endsName (c : Char) : Bool := c.isAlphanum || c == ')'

/-- ASCII only, runs of spaces shortened, and nothing before the first letter or digit or after
the last letter, digit or closing parenthesis. -/
def sanitizeName (name : String) : Option String :=
  if name.isEmpty then none
  else
    let ascii := name.toList.filter fun c => c.toNat < 128
    let short := [5, 3, 2].foldl (fun chars n => shortenSpaces n 0 chars) ascii
    let started := short.dropWhile fun c => !c.isAlphanum
    some (String.ofList (dropEndWhile (fun c => !endsName c) started))

example : sanitizeName " -Node   one) é]" = some "Node one)" := by decide

/-- A sanitised name is empty or ends in a letter, a digit or a closing parenthesis. -/
theorem getLast?_sanitizeName {name kept : String} (h : sanitizeName name = some kept) :
    ∀ c ∈ kept.toList.getLast?, endsName c = true := by
  unfold sanitizeName at h
  split at h
  · cases h
  · obtain rfl := Option.some.inj h
    intro c hc
    rw [String.toList_ofList] at hc
    unfold dropEndWhile at hc
    rw [List.getLast?_reverse] at hc
    have hnot := List.head?_dropWhile_not (fun c => !endsName c)
      ((((([5, 3, 2].foldl (fun chars n => shortenSpaces n 0 chars)
        (name.toList.filter fun c => c.toNat < 128)).dropWhile fun c => !c.isAlphanum))).reverse)
    rw [Option.mem_def.mp hc] at hnot
    simpa using hnot

end Reticulum.Discovery
