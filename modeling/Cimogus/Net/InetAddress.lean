import Cimogus.Net.IpAddress

/-!
# `InetAddress` and `InetNetwork`

`java.net.InetAddress` as its bytes, with `getByName`: a text may be dotted decimal, or the hexadecimal groups of RFC
4291 with at most one `::` and with a dotted decimal at the end. As the JDK does, an IPv4-mapped IPv6 address becomes an
IPv4 address. Other texts are looked up, and no text is the loopback address. `parseInetAddress` is for the texts of
addresses, which need no lookup (`getByName_of_parseInetAddress`).

Texts are lists of characters. `number_toDigits` is the round trip of one number, on which the address round trip of
`AddressText.lean` rests.
-/

namespace Cimogus.Net

@[ext] structure InetAddress where
  address : List UInt8
  size_eq : address.length = 4 ∨ address.length = 16

/-- `IpAddress(inetAddress)`. -/
def IpAddress.ofInetAddress (a : InetAddress) : IpAddress := ⟨a.address, a.size_eq⟩

def IpAddress.toInetAddress (ip : IpAddress) : InetAddress := ⟨ip.address, ip.size_eq⟩

@[simp] theorem IpAddress.ofInetAddress_toInetAddress (ip : IpAddress) : ofInetAddress ip.toInetAddress = ip := rfl

instance : DecidableEq InetAddress := fun a b => decidable_of_iff (a.address = b.address) InetAddress.ext_iff.symm

structure InetNetwork where
  address : InetAddress
  mask : Nat
  deriving DecidableEq

namespace InetNetwork

def isIpv4 (n : InetNetwork) : Bool := n.address.address.length == 4

end InetNetwork

/-! ## Numbers in text -/

def digit? (c : Char) : Option Nat :=
  if '0' ≤ c ∧ c ≤ '9' then some (c.toNat - '0'.toNat)
  else if 'a' ≤ c ∧ c ≤ 'f' then some (c.toNat - 'a'.toNat + 10)
  else if 'A' ≤ c ∧ c ≤ 'F' then some (c.toNat - 'A'.toNat + 10)
  else none

def pushDigit (base : Nat) (v : Nat) (c : Char) : Option Nat :=
  (digit? c).bind fun d => if d < base then some (v * base + d) else none

/-- The number written in `s`. -/
def number (base : Nat) (s : List Char) : Option Nat := s.foldlM (pushDigit base) 0

theorem digit?_digitChar : ∀ d < 16, digit? d.digitChar = some d := by decide

theorem number_append (base : Nat) (s t : List Char) :
    number base (s ++ t) = (number base s).bind fun v => t.foldlM (pushDigit base) v := by
  simp [number, List.foldlM_append, Option.bind_eq_bind]

/-- Printing a number and reading it again. -/
theorem number_toDigits {base : Nat} (hb : 1 < base) (hb' : base ≤ 16) (n : Nat) :
    number base (Nat.toDigits base n) = some n := by
  induction n using Nat.strong_induction_on with
  | _ n ih =>
    have hp : ∀ v, ∀ d < base, [d.digitChar].foldlM (pushDigit base) v = some (v * base + d) := by
      intro v d hd
      simp [List.foldlM, pushDigit, digit?_digitChar d (by omega), hd]
    by_cases hn : n < base
    · rw [Nat.toDigits_of_lt_base hn, number, hp 0 n hn]
      simp
    · have hdi : n / base < n := Nat.div_lt_self (by omega) hb
      have hm : n % base < base := Nat.mod_lt _ (by omega)
      rw [Nat.toDigits_of_base_le hb (by omega), number_append, ih _ hdi]
      simp only [Option.bind_some]
      rw [hp _ _ hm, Nat.div_add_mod']

theorem exists_of_mem_toDigits {base : Nat} (hb : 1 < base) (n : Nat) :
    ∀ c ∈ Nat.toDigits base n, ∃ d < base, c = d.digitChar := by
  induction n using Nat.strong_induction_on with
  | _ n ih =>
    intro c hc
    by_cases hn : n < base
    · rw [Nat.toDigits_of_lt_base hn, List.mem_singleton] at hc
      exact ⟨n, hn, hc⟩
    · rw [Nat.toDigits_of_base_le hb (by omega), List.mem_append, List.mem_singleton] at hc
      rcases hc with hc | hc
      · exact ih _ (Nat.div_lt_self (by omega) hb) c hc
      · exact ⟨n % base, Nat.mod_lt _ (by omega), hc⟩

/-! ## Parsing -/

def parseOctet (s : List Char) : Option UInt8 :=
  if s = [] ∨ 3 < s.length then none
  else (number 10 s).bind fun n => if n ≤ 255 then some n.toUInt8 else none

def parseIpv4 (s : List Char) : Option (List UInt8) :=
  let parts := s.splitOn '.'
  if parts.length = 4 then parts.mapM parseOctet else none

def parseGroup (s : List Char) : Option Nat := if s = [] ∨ 4 < s.length then none else number 16 s

def parseGroups (s : List Char) : Option (List Nat) := if s = [] then some [] else (s.splitOn ':').mapM parseGroup

/-- The text before and after the first `::`. -/
def breakDouble : List Char → Option (List Char × List Char)
  | [] => none
  | [_] => none
  | x :: y :: s =>
    if x = ':' ∧ y = ':' then some ([], s) else (breakDouble (y :: s)).map fun p => (x :: p.1, p.2)

def groupBytes (gs : List Nat) : List UInt8 := gs.flatMap fun g => [(g / 256).toUInt8, (g % 256).toUInt8]

def parseIpv6 (s : List Char) : Option (List UInt8) :=
  match breakDouble s with
  | none => (parseGroups s).bind fun gs => if gs.length = 8 then some (groupBytes gs) else none
  | some (l, r) =>
    (parseGroups l).bind fun gl => (parseGroups r).bind fun gr =>
      -- `::` stands for at least one group of zeros
      if gl.length + gr.length ≤ 7 then
        some (groupBytes (gl ++ List.replicate (8 - (gl.length + gr.length)) 0 ++ gr))
      else none

/-- `::ffff:0:0/96`. -/
def isIpv4Mapped (bs : List UInt8) : Bool := bs.take 12 == List.replicate 10 0 ++ [0xff, 0xff]

def InetAddress.ofBytes (bs : List UInt8) : Option InetAddress :=
  if h : bs.length = 4 ∨ bs.length = 16 then some ⟨bs, h⟩ else none

theorem InetAddress.ofBytes_toInetAddress (ip : IpAddress) : InetAddress.ofBytes ip.address = some ip.toInetAddress :=
  dif_pos ip.size_eq

/-- The text with a dotted decimal at its end as two groups. -/
def undotted (s : List Char) : List Char :=
  let tail := (s.splitOn ':').getLastD []
  match parseIpv4 tail with
  | some [a, b, c, d] =>
    s.take (s.length - tail.length) ++
      (Nat.toDigits 16 (a.toNat * 256 + b.toNat) ++ ':' :: Nat.toDigits 16 (c.toNat * 256 + d.toNat))
  | _ => s

def parseInetAddress (s : List Char) : Option InetAddress :=
  match parseIpv4 s with
  | some bs => InetAddress.ofBytes bs
  | none => (parseIpv6 (if '.' ∈ s then undotted s else s)).bind fun bs =>
    if isIpv4Mapped bs then InetAddress.ofBytes (bs.drop 12) else InetAddress.ofBytes bs

/-- What a lookup gives for a name, and the address that stands for none. -/
structure Names where
  loopback : InetAddress
  lookup : List Char → Option InetAddress

def InetAddress.getByName (names : Names) (s : List Char) : Option InetAddress :=
  if s = [] then some names.loopback else (parseInetAddress s).or (names.lookup s)

theorem getByName_of_parseInetAddress {s : List Char} {a : InetAddress} (h : parseInetAddress s = some a)
    (names : Names) :
    InetAddress.getByName names s = some a := by
  have hne : s ≠ [] := by
    rintro rfl
    exact absurd h (by simp [show parseInetAddress [] = none by decide])
  rw [InetAddress.getByName, if_neg hne, h, Option.some_or]

example : (parseInetAddress "64:ff9b::192.0.2.33".toList).map (·.address) =
    some [0, 0x64, 0xff, 0x9b, 0, 0, 0, 0, 0, 0, 0, 0, 192, 0, 2, 33] := by decide +kernel

end Cimogus.Net
