import Cimogus.Daemon.PrefixSets
import Cimogus.Net.InetAddress
import Cimogus.Service.RouterLinux
import Cimogus.Service.RouterWin

/-!
# The masks of the routers and of `IPAddress`

The routers compute the mask of a destination by a shift and read its address with the C library, `IPAddress` reads both
with `QHostAddress::parseSubnet`, which takes the numbers of the address as decimal and clears the host bits. On macOS a
network goes through the `route` program, which shifts an address up until its first byte is not zero.
-/

namespace Cimogus.Service

open Daemon Daemon.IPAddress List

/-- What Qt and the C library make of texts, with the decimal reading of an address in `parseSubnet`. A length has no
dot in it, and the C library reads the text of a mask. -/
structure Readers extends Texts where
  address : String → Option (BitVec 32)
  dot_notMem : ∀ text n, toInt text = some n → '.' ∉ text.toList
  inetAddr_maskText : ∀ mask, inetAddr (maskText mask) = mask

/-- The route that `route add -host` or `route add -net` adds on macOS. -/
inductive MacRoute
  | host (ip gw : String)
  | net (ip gw mask : String)

/-- The command of `RouterMac::routeAdd`. -/
def macRoute (net : Texts) (r : Route) : MacRoute :=
  let ip := ipAddressFromIpWithSubnet r.dst
  let mask := net.netMaskFromIpWithSubnet r.dst
  if mask = "255.255.255.255" then .host ip r.gw else .net ip r.gw mask

/-- The loop of `inet_makenetandmask`, which ends before the fourth shift. -/
def shiftUp : Nat → BitVec 32 → BitVec 32
  | 0, net => net
  | n + 1, net => if net &&& 0xff000000#32 = 0 then shiftUp n (net <<< 8) else net

def makeNet (net : BitVec 32) : BitVec 32 := if net = 0 then net else shiftUp 3 net

/-- The addresses that agree with the destination under the mask. -/
def Covers (dest mask a : BitVec 32) : Prop := a &&& mask = dest &&& mask

def MacRoute.Covers (net : Texts) : MacRoute → BitVec 32 → Prop
  | host ip _, a => a = net.inetAddr ip
  | .net ip _ mask, a => Service.Covers (makeNet (net.inetAddr ip)) (net.inetAddr mask) a

namespace Readers

variable (r : Readers)

/-- `QHostAddress::parseSubnet` of an IPv4 address with a length. -/
def parseSubnet (text : String) : QHostAddress × Int :=
  match splitSlash text with
  | [ip, length] =>
    match r.toInt length, r.address ip with
    | some n, some y => if 0 ≤ n ∧ n ≤ 32 then (.ipv4 (y &&& netmask4 n.toNat), n) else (.null, -1)
    | _, _ => (.null, -1)
  | _ => (.null, -1)

def qt : Qt := ⟨r.hostAddress, r.parseSubnet, fun _ => ""⟩

/-- `IPAddress(s)`. -/
def ip (s : String) : IPAddress := IPAddress.ofText r.qt s

/-- The routers and `IPAddress` mean the same. -/
structure Agree (s : String) : Prop where
  address : ipAddressFromIpWithSubnet s = (splitSlash s).headD ""
  mask : ∃ mask, (r.ip s).netmask = .ipv4 mask ∧ r.netMaskFromIpWithSubnet s = maskText mask
  linux : ∀ gw a, Covers (Route.entry r.toTexts ⟨s, gw⟩).dst (Route.entry r.toTexts ⟨s, gw⟩).genmask a ↔
    .ipv4 a ∈ (r.ip s).hosts
  mac : ∀ gw a, (macRoute r.toTexts ⟨s, gw⟩).Covers r.toTexts a ↔ .ipv4 a ∈ (r.ip s).hosts
  windows : ∀ a, Covers (RouterWin.destOf r.toTexts s) (RouterWin.maskOf r.toTexts s) a ↔ .ipv4 a ∈ (r.ip s).hosts

/-- The address is read alike, and the length is not 0. -/
def Alike (s : String) : Prop :=
  match splitSlash s with
  | [ip] => r.hostAddress ip = .ipv4 (r.inetAddr ip)
  | [ip, length] => ∃ n y, r.toInt length = some n ∧ n ≠ 0 ∧ r.address ip = some y ∧
      r.inetAddr ip &&& netmask4 n.toNat = y &&& netmask4 n.toNat ∧
      (n ≠ 32 → makeNet (r.inetAddr ip) &&& netmask4 n.toNat = y &&& netmask4 n.toNat)
  | _ => False

end Readers

/-! ## Masks -/

theorem shift_eq_netmask4 {n : Int} (h : 0 < n) (h' : n ≤ 32) :
    0xFFFFFFFF#32 <<< ((32 - n) % 32).toNat = netmask4 n.toNat := by
  have hc : ((32 - n) % 32).toNat = 32 - n.toNat := by
    omega
  refine BitVec.eq_of_getLsbD_eq fun j hj => ?_
  rw [getLsbD_netmask4 hj, show 0xFFFFFFFF#32 = BitVec.allOnes 32 from rfl, BitVec.getLsbD_shiftLeft,
    BitVec.getLsbD_allOnes, hc,
    decide_eq_true hj, decide_eq_true (show j - (32 - n.toNat) < 32 by omega), Bool.and_true, ← decide_not]
  exact decide_eq_decide.mpr not_lt

theorem and_netmask4_self (y : BitVec 32) (n : Nat) : y &&& netmask4 n &&& netmask4 n = y &&& netmask4 n := by
  rw [BitVec.and_assoc, BitVec.and_self]

theorem covers_iff {dest dest' mask : BitVec 32} :
    (∀ a, Covers dest mask a ↔ Covers dest' mask a) ↔ dest &&& mask = dest' &&& mask := by
  constructor
  · exact fun h => (h dest).mp rfl
  · intro h a
    rw [Covers, Covers, h]

variable {z : BitVec 32}

/-- The addresses of an IPv4 prefix. -/
theorem mem_hosts_iff_covers {n : Int} (h : 0 ≤ n) (h' : n ≤ 32) (a : BitVec 32) :
    .ipv4 a ∈ IPAddress.hosts ⟨.ipv4 z, n⟩ ↔ Covers z (netmask4 n.toNat) a := by
  rw [mem_hosts_iff_and ⟨by simp, h, h'⟩]
  exact ⟨fun heq => QHostAddress.ipv4.inj heq, fun heq => congrArg QHostAddress.ipv4 heq⟩

theorem netmask4_full : netmask4 32 = 0xFFFFFFFF#32 := rfl

theorem covers_full {dest a : BitVec 32} : Covers dest 0xFFFFFFFF#32 a ↔ a = dest := by
  rw [Covers, show 0xFFFFFFFF#32 = BitVec.allOnes 32 from rfl, BitVec.and_allOnes, BitVec.and_allOnes]

theorem maskText_full : maskText 0xFFFFFFFF#32 = "255.255.255.255" := by decide +kernel

namespace Readers

variable {r : Readers} {s ip length : String} {n : Int}

theorem maskText_injective (r : Readers) {m m' : BitVec 32} (h : maskText m = maskText m') : m = m' := by
  rw [← r.inetAddr_maskText m, h, r.inetAddr_maskText]

/-! ## Accepted texts -/

theorem toList_of_splitSlash (h : splitSlash s = [ip, length]) : s.toList = ip.toList ++ '/' :: length.toList := by
  obtain ⟨a, _, hsplit, rfl, hrest⟩ := map_eq_cons_iff.mp h
  obtain ⟨b, rest, rfl, rfl, hni⟩ := map_eq_cons_iff.mp hrest
  obtain rfl := map_eq_nil_iff.mp hni
  rw [← @List.intercalate_splitOn _ s.toList _ _ '/', hsplit]
  simp [List.intercalate]

theorem dots_of_splitSlash (h : splitSlash s = [ip, length]) (hn : r.toInt length = some n) : dots s = dots ip := by
  rw [dots, toList_of_splitSlash h, count_append, count_cons_of_ne (by decide),
    count_eq_zero.mpr (r.dot_notMem length n hn), Nat.add_zero, dots]

/-- What passes the check: an address, or an address and a length of IPv4. -/
inductive Accepted (r : Readers) (s : String) : Prop
  | bare (z : BitVec 32) (hsplit : splitSlash s = [s]) (hslash : '/' ∉ s.toList) (hdots : dots s = 3)
      (hz : r.hostAddress s = .ipv4 z)
  | subnet (ip length : String) (n : Int) (hsplit : splitSlash s = [ip, length]) (hslash : '/' ∈ s.toList)
      (hdots : dots s = 3)
      (hn : r.toInt length = some n) (hnonneg : 0 ≤ n) (hle : n ≤ 32)

theorem accepted_of_checkIpSubnetFormat (h : r.checkIpSubnetFormat s = true) : Accepted r s := by
  rw [Texts.checkIpSubnetFormat] at h
  split at h
  · rename_i hslash
    have hdots := (r.toTexts.dots_of_checkIPv4Format h).2
    have hsplit : splitSlash s = [s] := by
      rw [splitSlash, splitOn_eq_singleton hslash, map_singleton, String.ofList_toList]
    obtain ⟨z, hz⟩ := r.toTexts.exists_ipv4_of_checkIPv4Format h
    exact .bare z hsplit hslash hdots hz
  · rename_i hslash
    split at h
    · rename_i ip length hsplit
      split at h
      · rename_i n hn
        split at h
        · rename_i hr
          have hdots := (r.toTexts.dots_of_checkIPv4Format h).2
          exact .subnet ip length n hsplit (not_not.mp hslash) ((dots_of_splitSlash hsplit hn).trans hdots) hn hr.1 hr.2
        · cases h
      · cases h
    · cases h

/-! ## The routers -/

theorem linux_iff (s gw : String) (a : BitVec 32) :
    Covers (Route.entry r.toTexts ⟨s, gw⟩).dst (Route.entry r.toTexts ⟨s, gw⟩).genmask a ↔
      Covers (r.inetAddr (ipAddressFromIpWithSubnet s)) (r.inetAddr (r.netMaskFromIpWithSubnet s)) a := Iff.rfl

theorem mac_iff {mask : BitVec 32} (hm : r.netMaskFromIpWithSubnet s = maskText mask) (gw : String) (a : BitVec 32) :
    (macRoute r.toTexts ⟨s, gw⟩).Covers r.toTexts a ↔
      Covers (if mask = 0xFFFFFFFF#32 then r.inetAddr (ipAddressFromIpWithSubnet s)
        else makeNet (r.inetAddr (ipAddressFromIpWithSubnet s)))
        mask a := by
  have hfu : maskText mask = "255.255.255.255" ↔ mask = 0xFFFFFFFF#32 := by
    rw [← maskText_full]
    exact ⟨r.maskText_injective, fun h => by rw [h]⟩
  simp only [macRoute, hm, hfu]
  split
  · rename_i h
    rw [h, covers_full]
    rfl
  · rw [MacRoute.Covers, r.inetAddr_maskText]

theorem netmask4_eq_full_iff {n : Nat} (h : n ≤ 32) : netmask4 n = 0xFFFFFFFF#32 ↔ n = 32 := by
  constructor
  · intro heq
    have hb := congrArg (fun v : BitVec 32 => v.getLsbD (31 - n)) heq
    simp only [getLsbD_netmask4 (show 31 - n < 32 by omega), show 0xFFFFFFFF#32 = BitVec.allOnes 32 from rfl,
      BitVec.getLsbD_allOnes, decide_eq_decide] at hb
    omega
  · intro heq
    rw [heq, netmask4_full]

/-- With the same mask, the addresses decide. -/
theorem agree_iff_of_mask (hip : r.ip s = ⟨.ipv4 z, n⟩) (hnonneg : 0 ≤ n) (hle : n ≤ 32)
    (ha : ipAddressFromIpWithSubnet s = ip) (hhe : (splitSlash s).headD "" = ip)
    (hm : r.netMaskFromIpWithSubnet s = maskText (netmask4 n.toNat)) :
    r.Agree s ↔ r.inetAddr ip &&& netmask4 n.toNat = z &&& netmask4 n.toNat ∧
      (n ≠ 32 → makeNet (r.inetAddr ip) &&& netmask4 n.toNat = z &&& netmask4 n.toNat) := by
  have hh : ∀ a, .ipv4 a ∈ (r.ip s).hosts ↔ Covers z (netmask4 n.toNat) a := by
    rw [hip]
    exact mem_hosts_iff_covers hnonneg hle
  have hl : ∀ gw a, Covers (Route.entry r.toTexts ⟨s, gw⟩).dst (Route.entry r.toTexts ⟨s, gw⟩).genmask a ↔
      Covers (r.inetAddr ip) (netmask4 n.toNat) a := by
    intro gw a
    rw [linux_iff, ha, hm, r.inetAddr_maskText]
  have hma : ∀ gw a, (macRoute r.toTexts ⟨s, gw⟩).Covers r.toTexts a ↔
      Covers (if n = 32 then r.inetAddr ip else makeNet (r.inetAddr ip)) (netmask4 n.toNat) a := by
    intro gw a
    simp only [mac_iff hm gw, ha, netmask4_eq_full_iff (show n.toNat ≤ 32 by omega), show n.toNat = 32 ↔
      n = 32 by omega]
  constructor
  · intro h
    refine ⟨covers_iff.mp fun a => (hl "" a).symm.trans ((h.linux "" a).trans (hh a)), fun hne => ?_⟩
    refine covers_iff.mp fun a => Iff.trans ?_ ((h.mac "" a).trans (hh a))
    rw [hma, if_neg hne]
  · rintro ⟨hx, hs⟩
    have hc : ∀ a, Covers (r.inetAddr ip) (netmask4 n.toNat) a ↔ .ipv4 a ∈ (r.ip s).hosts :=
      fun a => (covers_iff.mpr hx a).trans (hh a).symm
    refine ⟨ha.trans hhe.symm, ⟨_, by rw [hip]; rfl, hm⟩, fun gw a => (hl gw a).trans (hc a), fun gw a => ?_,
      fun a => (hl "" a).trans (hc a)⟩
    rw [hma]
    split
    · exact hc a
    · rename_i hne
      exact (covers_iff.mpr (hs hne) a).trans (hh a).symm

theorem agree_iff_bare (hsplit : splitSlash s = [s]) (hslash : '/' ∉ s.toList) (hdots : dots s = 3)
    (hz : r.hostAddress s = .ipv4 z) : r.Agree s ↔ r.Alike s := by
  have hip : r.ip s = ⟨.ipv4 z, 32⟩ := by
    rw [Readers.ip, IPAddress.ofText, if_neg hslash]
    simp only [qt, hz]
    rfl
  have hm : r.netMaskFromIpWithSubnet s = maskText (netmask4 (32 : Int).toNat) := by
    rw [Texts.netMaskFromIpWithSubnet, hsplit]
    exact maskText_full.symm
  rw [agree_iff_of_mask hip (by decide) (by decide) (ipAddressFromIpWithSubnet_of_bare hdots hslash)
    (by rw [hsplit]; rfl) hm, Alike,
    hsplit]
  simp only [hz, QHostAddress.ipv4.injEq, ne_eq, not_true_eq_false, false_implies, and_true]
  exact covers_full.trans eq_comm

theorem ip_of_subnet (hsplit : splitSlash s = [ip, length]) (hslash : '/' ∈ s.toList) (hn : r.toInt length = some n)
    (hnonneg : 0 ≤ n)
    (hle : n ≤ 32) :
    r.ip s = (r.address ip).elim ⟨.null, -1⟩ fun y => ⟨.ipv4 (y &&& netmask4 n.toNat), n⟩ := by
  rw [Readers.ip, IPAddress.ofText, if_pos hslash]
  simp only [qt, parseSubnet, hsplit, hn]
  cases r.address ip with
  | none => rfl
  | some y =>
    simp only [if_pos (And.intro hnonneg hle), Option.elim_some, clamp]
    split
    · rw [show n = 32 by omega]
    · rfl

theorem agree_iff_subnet (hsplit : splitSlash s = [ip, length]) (hslash : '/' ∈ s.toList) (hdots : dots s = 3)
    (hn : r.toInt length = some n) (hnonneg : 0 ≤ n) (hle : n ≤ 32) : r.Agree s ↔ r.Alike s := by
  have hip := ip_of_subnet hsplit hslash hn hnonneg hle
  have hma : r.netMaskFromIpWithSubnet s = maskText (0xFFFFFFFF#32 <<< ((32 - n) % 32).toNat) := by
    rw [Texts.netMaskFromIpWithSubnet, hsplit]
    simp only [hn]
  simp only [Alike, hsplit]
  cases ha : r.address ip with
  | none =>
    refine iff_of_false (fun h => ?_) fun ⟨_, _, _, _, hso, _⟩ => nomatch hso
    -- no prefix, and no mask of one
    obtain ⟨mask, hnet, -⟩ := h.mask
    rw [hip, ha] at hnet
    cases hnet
  | some y =>
    rw [ha] at hip
    by_cases hze : n = 0
    · refine iff_of_false (fun h => ?_) fun ⟨m, _, hm, hne, _⟩ =>
        hne ((Option.some.inj (hn.symm.trans hm)).symm.trans hze)
      -- the shift leaves all bits set, and the mask has none
      obtain ⟨mask, hnet, ht⟩ := h.mask
      rw [hip] at hnet
      have hb := r.maskText_injective (hma.symm.trans ht)
      rw [← QHostAddress.ipv4.inj hnet, hze] at hb
      exact absurd hb (show ¬0xFFFFFFFF#32 <<< ((32 - 0 : Int) % 32).toNat = netmask4 (0 : Int).toNat by decide)
    · rw [shift_eq_netmask4 (by omega) hle] at hma
      have hfi : ipAddressFromIpWithSubnet s = ip := by
        rw [ipAddressFromIpWithSubnet, if_neg (not_not.mpr hdots), hsplit]
        rfl
      rw [agree_iff_of_mask hip hnonneg hle hfi (by rw [hsplit]; rfl) hma, and_netmask4_self]
      constructor
      · rintro ⟨hx, hs⟩
        exact ⟨n, y, hn, hze, rfl, hx, hs⟩
      · rintro ⟨m, y', hm, -, hy', hx, hs⟩
        obtain rfl := Option.some.inj (hn.symm.trans hm)
        obtain rfl := Option.some.inj hy'
        exact ⟨hx, hs⟩

/-- **When the masks agree.** For every text that passes the check, the routers of the three platforms and `IPAddress`
mean the same addresses if and only if the address is read alike and the length is not 0. -/
theorem masks_agree_iff (r : Readers) {s : String} (h : r.checkIpSubnetFormat s = true) : r.Agree s ↔ r.Alike s := by
  cases accepted_of_checkIpSubnetFormat h with
  | bare z hsplit hslash hdots hz => exact agree_iff_bare hsplit hslash hdots hz
  | subnet ip length n hsplit hslash hdots hn hnonneg hle => exact agree_iff_subnet hsplit hslash hdots hn hnonneg hle

/-! ## Decimal numbers -/

section Decimal

open Net

def readQuad (text : String) : Option (BitVec 32) :=
  match (text.toList.splitOn '.').mapM (number 10) with
  | some [a, b, c, d] => some (BitVec.ofNat 32 (((a * 256 + b) * 256 + c) * 256 + d))
  | _ => none

theorem digit_of_mem {text : List Char} {n : Nat} (h : number 10 text = some n) :
    ∀ c ∈ text, (digit? c).isSome := by
  have hfo : ∀ (text : List Char) (v n : Nat), text.foldlM (pushDigit 10) v = some n →
      ∀ c ∈ text, (digit? c).isSome := by
    intro text
    induction text with
    | nil => exact fun _ _ _ _ hc => nomatch hc
    | cons x text ih =>
      intro v n hfo c hc
      obtain ⟨v', hp, hrest⟩ := Option.bind_eq_some_iff.mp hfo
      obtain ⟨d, hd, -⟩ := Option.bind_eq_some_iff.mp hp
      rcases mem_cons.mp hc with rfl | hc
      · rw [hd]
        rfl
      · exact ih v' n hrest c hc
  exact hfo text 0 n h

variable (mask : BitVec 32)

theorem toList_maskText : (maskText mask).toList =
    Nat.toDigits 10 (mask >>> 24).toNat ++ '.' :: (Nat.toDigits 10 (mask >>> 16 &&& 0xFF).toNat ++ '.' ::
      (Nat.toDigits 10 (mask >>> 8 &&& 0xFF).toNat ++ '.' :: Nat.toDigits 10 (mask &&& 0xFF).toNat)) := by
  have hd : ".".toList = ['.'] := rfl
  simp only [maskText, String.toList_append, hd, Nat.toString_eq_ofList_toDigits, String.toList_ofList, append_assoc,
    cons_append, nil_append]

theorem dot_notMem_toDigits (n : Nat) : '.' ∉ Nat.toDigits 10 n := by
  intro hm
  exact absurd (Nat.isDigit_of_mem_toDigits (by decide) (by decide) hm) (by decide)

/-- The four bytes of a mask. -/
theorem ofNat_bytes :
    BitVec.ofNat 32
      ((((mask >>> 24).toNat * 256 + (mask >>> 16 &&& 0xFF).toNat) * 256 + (mask >>> 8 &&& 0xFF).toNat) * 256 +
      (mask &&& 0xFF).toNat) = mask := by
  have hl : ∀ v : Nat, v &&& 255 = v % 256 := fun v => Nat.and_two_pow_sub_one_eq_mod v 8
  refine BitVec.eq_of_toNat_eq ?_
  rw [BitVec.toNat_ofNat]
  simp only [BitVec.toNat_and, BitVec.toNat_ushiftRight, Nat.shiftRight_eq_div_pow,
    show BitVec.toNat (255 : BitVec 32) = 255 from rfl, hl]
  omega

theorem readQuad_maskText : readQuad (maskText mask) = some mask := by
  have hnu : ∀ n, number 10 (Nat.toDigits 10 n) = some n := number_toDigits (by decide) (by decide)
  rw [readQuad, toList_maskText, splitOn_append_cons_self_of_not_mem (dot_notMem_toDigits _),
    splitOn_append_cons_self_of_not_mem (dot_notMem_toDigits _),
    splitOn_append_cons_self_of_not_mem (dot_notMem_toDigits _), splitOn_eq_singleton (dot_notMem_toDigits _)]
  simp only [mapM_cons, mapM_nil, hnu, Option.bind_eq_bind, Option.bind_some, Option.pure_def, ofNat_bytes]

def decimal : Readers where
  hostAddress text := (readQuad text).elim .null .ipv4
  toInt text := (number 10 text.toList).map Int.ofNat
  inetAddr text := (readQuad text).getD 0xFFFFFFFF
  address := readQuad
  dot_notMem text n h := by
    obtain ⟨m, hm, -⟩ := Option.map_eq_some_iff.mp h
    exact fun hdot => absurd (digit_of_mem hm '.' hdot) (by decide)
  inetAddr_maskText mask := by rw [readQuad_maskText, Option.getD_some]

/-- A private network. -/
theorem masks_agree_private : decimal.checkIpSubnetFormat "10.1.0.0/16" = true ∧ decimal.Agree "10.1.0.0/16" := by
  have hc : decimal.checkIpSubnetFormat "10.1.0.0/16" = true := by decide +kernel
  refine ⟨hc, (masks_agree_iff decimal hc).mpr ?_⟩
  have hsplit : splitSlash "10.1.0.0/16" = ["10.1.0.0", "16"] := by decide +kernel
  rw [Alike, hsplit]
  exact ⟨16, 0x0A010000#32, by
    decide +kernel, by decide, by decide +kernel, by decide +kernel, fun _ => by decide +kernel⟩

/-- The default route becomes a route to one address. -/
theorem masks_disagree_default :
    decimal.checkIpSubnetFormat "0.0.0.0/0" = true ∧
      decimal.netMaskFromIpWithSubnet "0.0.0.0/0" = "255.255.255.255" ∧
      (decimal.ip "0.0.0.0/0").netmask = .ipv4 0#32 ∧ ¬decimal.Agree "0.0.0.0/0" := by
  have hsplit : splitSlash "0.0.0.0/0" = ["0.0.0.0", "0"] := by decide +kernel
  refine ⟨by decide +kernel, by decide +kernel, by decide +kernel, fun h => ?_⟩
  rw [agree_iff_subnet hsplit (by decide) (by decide) rfl (by decide) (by decide), Alike, hsplit] at h
  obtain ⟨n, _, hn, hne, -⟩ := h
  exact hne (Option.some.inj hn).symm

end Decimal

end Readers

end Cimogus.Service
