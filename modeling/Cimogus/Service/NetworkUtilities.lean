import Cimogus.Daemon.Config

/-!
# `NetworkUtilities`

How the routers of the service read a destination, an IPv4 address with or without a prefix length. What Qt and the C
library make of texts is a parameter (`Texts`).
-/

namespace Cimogus.Service

open Daemon (QHostAddress)

/-- `QHostAddress(text)`, `toInt` and `inet_addr`; `inet_pton` reads what `inet_addr` reads. -/
structure Texts where
  hostAddress : String → QHostAddress
  toInt : String → Option Int
  inetAddr : String → BitVec 32

/-- The parts of `split("/")`. -/
def splitSlash (text : String) : List String := (text.toList.splitOn '/').map String.ofList

def dots (text : String) : Nat := text.toList.count '.'

def ipAddressFromIpWithSubnet (ip : String) : String := if dots ip ≠ 3 then "" else (splitSlash ip).headD ""

/-- `%1.%2.%3.%4`. -/
def maskText (mask : BitVec 32) : String :=
  toString (mask >>> 24).toNat ++ "." ++ toString (mask >>> 16 &&& 0xFF).toNat ++ "." ++
    toString (mask >>> 8 &&& 0xFF).toNat ++
    "." ++ toString (mask &&& 0xFF).toNat

/-- `25[0-5]|2[0-4][0-9]|1[0-9][0-9]|[1-9][0-9]|[0-9]`. -/
def octetRegExp : List Char → Bool
  | [c] => c.isDigit
  | [b, c] => b ≠ '0' && b.isDigit && c.isDigit
  | ['1', b, c] => b.isDigit && c.isDigit
  | ['2', '5', c] => '0' ≤ c && c ≤ '5'
  | ['2', b, c] => '0' ≤ b && b ≤ '4' && c.isDigit
  | _ => false

/-- Whether the whole text matches `ipAddressWithSubnetRegExp()`: four octets with dots between them, and then possibly
a slash and one or two digits. -/
def ipAddressWithSubnetRegExp (text : String) : Bool :=
  match text.toList.splitOn '.' with
  | [a, b, c, last] =>
    octetRegExp a && octetRegExp b && octetRegExp c &&
      match last.splitOn '/' with
      | [d] => octetRegExp d
      | [d, length] => octetRegExp d && 1 ≤ length.length && length.length ≤ 2 && length.all Char.isDigit
      | _ => false
  | _ => false

example :
    ["192.0.2.255", "10.0.0.0/8", "192.0.2.256", "192.0.02.1", "10.0.0.0/", "site.com"].map ipAddressWithSubnetRegExp =
    [true, true, false, false, false, false] := by decide

/-- The part before the first slash has none. -/
theorem slash_notMem_head (ip : String) : '/' ∉ ((splitSlash ip).headD "").toList := by
  unfold splitSlash
  by_cases hm : '/' ∈ ip.toList
  · obtain ⟨before, after, hsplit, hno⟩ := List.eq_append_cons_of_mem hm
    rw [hsplit, List.splitOn_append_cons_self_of_not_mem hno, List.map_cons, List.headD_cons, String.toList_ofList]
    exact hno
  · rw [List.splitOn_eq_singleton hm, List.map_singleton, List.headD_cons, String.toList_ofList]
    exact hm

variable {ip : String}

theorem ipAddressFromIpWithSubnet_of_bare (hdots : dots ip = 3) (hslash : '/' ∉ ip.toList) :
    ipAddressFromIpWithSubnet ip = ip := by
  rw [ipAddressFromIpWithSubnet, if_neg (Decidable.not_not.mpr hdots), splitSlash, List.splitOn_eq_singleton hslash]
  simp

namespace Texts

variable (net : Texts)

/-- C++ leaves a shift by 32 undefined; it is taken as on x86, by the count modulo 32. -/
def netMaskFromIpWithSubnet (ip : String) : String :=
  match splitSlash ip with
  | _ :: subnet :: _ =>
    match net.toInt subnet with
    | some n => maskText (0xFFFFFFFF#32 <<< ((32 - n) % 32).toNat)
    | none => "255.255.255.255"
  | _ => "255.255.255.255"

def checkIPv4Format (ip : String) : Bool :=
  if ip = "" then false
  else if dots ip ≠ 3 then false
  else
    match net.hostAddress ip with
    | .ipv4 _ => true
    | .ipv6 _ | .null => false

def checkIpSubnetFormat (ip : String) : Bool :=
  if '/' ∉ ip.toList then net.checkIPv4Format ip
  else
    match splitSlash ip with
    | [address, length] =>
      match net.toInt length with
      | some subnet => if 0 ≤ subnet ∧ subnet ≤ 32 then net.checkIPv4Format address else false
      | none => false
    | _ => false

theorem dots_of_checkIPv4Format (h : net.checkIPv4Format ip = true) : ip ≠ "" ∧ dots ip = 3 := by
  unfold checkIPv4Format at h
  split at h
  · cases h
  next hne =>
    split at h
    · cases h
    next hdots => exact ⟨hne, Decidable.not_not.mp hdots⟩

theorem exists_ipv4_of_checkIPv4Format (h : net.checkIPv4Format ip = true) : ∃ a, net.hostAddress ip = .ipv4 a := by
  unfold checkIPv4Format at h
  split at h
  · cases h
  · split at h
    · cases h
    · split at h
      · exact ⟨_, ‹_›⟩
      · cases h
      · cases h

theorem ipAddressFromIpWithSubnet_idem (h : net.checkIPv4Format (ipAddressFromIpWithSubnet ip) = true) :
    ipAddressFromIpWithSubnet (ipAddressFromIpWithSubnet ip) = ipAddressFromIpWithSubnet ip := by
  obtain ⟨hne, hdots⟩ := net.dots_of_checkIPv4Format h
  refine ipAddressFromIpWithSubnet_of_bare hdots ?_
  unfold ipAddressFromIpWithSubnet at hne ⊢
  split at hne
  · exact absurd rfl hne
  next ht =>
    rw [if_neg ht]
    exact slash_notMem_head ip

end Texts

/-! ## Examples -/

def decimal (digits : List Char) : Option Nat :=
  if digits = [] then none
  else digits.foldlM (fun value c => if c.isDigit then some (value * 10 + (c.toNat - '0'.toNat)) else none) 0

def quad (text : String) : Option (BitVec 32) :=
  match (text.toList.splitOn '.').mapM decimal with
  | some [a, b, c, d] => some (BitVec.ofNat 32 (((a * 256 + b) * 256 + c) * 256 + d))
  | _ => none

def Texts.plain : Texts where
  hostAddress text := (quad text).elim .null .ipv4
  toInt text := (decimal text.toList).map Int.ofNat
  inetAddr text := (quad text).getD 0xFFFFFFFF

end Cimogus.Service
