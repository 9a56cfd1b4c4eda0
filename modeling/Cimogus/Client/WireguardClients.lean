import Cimogus.Client.ServerController
import Cimogus.Lib.Lines
import Cimogus.Lib.Listing
import Cimogus.Lib.Runs
import Cimogus.Lib.Substitution

/-!
# The clients of a WireGuard server

A client is a section of the server's `wg0.conf`. `prepareWireguardConfig` takes the address after the one of the last
section, which it reads from what `grep AllowedIPs` prints; the chunks of that output come with a line break behind
each. `revokeWireGuard` takes a section out.
-/

namespace Cimogus.Client.Wireguard

open Lib Lib.Substitution List

/-! ## The texts -/

/-- `QChar::isSpace`. -/
def isSpace (c : Char) : Bool :=
  Text.isAsciiSpace c || (0x2000 ≤ c.toNat && c.toNat ≤ 0x200a) ||
    c.toNat ∈ [0x85, 0xa0, 0x1680, 0x2028, 0x2029, 0x202f, 0x205f, 0x3000]

/-! The texts of the file are named so that they are not looked into. -/

def peerLine : List Char := "[Peer]".toList

def publicKeyKey : List Char := "PublicKey = ".toList

def presharedKeyKey : List Char := "PresharedKey = ".toList

def allowedIPsWord : List Char := "AllowedIPs".toList

def allowedIPsKey : List Char := "AllowedIPs = ".toList

def mask : List Char := "/32".toList

/-- The number of digits, if it is an `int`. -/
def digitsToInt (negative : Bool) (s : List Char) : Int :=
  if s ≠ [] ∧ s.all Char.isDigit = true then
    let n : Nat := s.foldl (fun n c => 10 * n + (c.toNat - 48)) 0
    if negative then (if n ≤ 2147483648 then -(n : Int) else 0) else if n ≤ 2147483647 then n else 0
  else 0

open Text

/-- `QString::toInt`, 0 if the text is no number. -/
def toInt (s : List Char) : Int :=
  match strip isSpace s with
  | '-' :: s => digitsToInt true s
  | '+' :: s => digitsToInt false s
  | s => digitsToInt false s

/-- `QString::replace` by nothing. -/
def removeAll (part s : List Char) : List Char := substitute [(part, [])] s

def splitSkipEmpty (c : Char) (s : List Char) : List (List Char) := (s.splitOn c).filter (· ≠ [])

/-- `QString::number`. -/
def number (n : Nat) : List Char := Nat.toDigits 10 n

/-! ## Adding a client -/

def cbReadStdOut (data stdOut : String) : Option ErrorCode × String := (none, stdOut ++ (data ++ "\n"))

/-- What the callback makes of the texts that it gets. -/
def queryOutput (chunks : List (List Char)) : List Char := chunks.flatMap (· ++ ['\n'])

theorem readOutput_cbReadStdOut (utf8 : Ssh.Utf8) (chunks : List (List UInt8)) (stdOut : String) :
    Ssh.readOutput utf8 (some cbReadStdOut) chunks stdOut =
      (none, stdOut ++ String.ofList (queryOutput (chunks.map fun chunk => (Ssh.chunkText utf8 chunk).toList))) := by
  induction chunks generalizing stdOut with
  | nil => simp [Ssh.readOutput, queryOutput]
  | cons chunk chunks ih =>
    have hc : queryOutput ((chunk :: chunks).map fun chunk => (Ssh.chunkText utf8 chunk).toList) =
        (Ssh.chunkText utf8 chunk).toList ++ "\n".toList ++
          queryOutput (chunks.map fun chunk => (Ssh.chunkText utf8 chunk).toList) := rfl
    rw [Ssh.readOutput, hc, String.ofList_append, String.ofList_append, String.ofList_toList, String.ofList_toList]
    simp only [cbReadStdOut, ih, String.append_assoc]

/-- The address of a line without the other ones. `first` is not defined for a line of commas only; here it is empty. -/
def vpnIp (ip : List Char) : List Char := strip isSpace ((splitSkipEmpty ',' ip).headD [])

/-- The number of the next address; none is `AddressPoolError`. -/
def nextIpNumber (stdOut : List Char) : Option (List Char) :=
  let stdOut := removeAll allowedIPsKey stdOut
  let stdOut := removeAll mask stdOut
  let ips := (splitSkipEmpty '\n' stdOut).map vpnIp
  match ips.getLast? with
  | none => some ['2']
  | some ip =>
    let next := toInt ((ip.splitOn '.').getLastD []) + 1
    if next > 254 then none else some (toString next).toList

/-- The address in the subnet; none is `AddressPoolError`. -/
def clientIP (subnetIp nextIpNumber : List Char) : Option (List Char) :=
  let l := splitSkipEmpty '.' subnetIp
  if l = [] then none else some (['.'].intercalate (l.dropLast ++ [nextIpNumber]))

def configPart (clientPubKey pskKey clientIP : List Char) : List Char :=
  peerLine ++ '\n' :: (publicKeyKey ++ clientPubKey ++ '\n' :: (presharedKeyKey ++ pskKey ++ '\n' ::
    (allowedIPsKey ++ clientIP ++ mask ++ ['\n', '\n'])))

/-- What `cat wg0.conf | grep AllowedIPs` prints. -/
def query (conf : List Char) : List Char :=
  ((conf.splitOn '\n').filter (hasInfix allowedIPsWord)).flatMap (· ++ ['\n'])

/-- The chunks in which an output comes; the outputs here are in ASCII. -/
structure Delivery where
  chunks : List Char → List (List Char)
  flatten : ∀ output, (chunks output).flatten = output
  sizes : ∀ output, ∀ c ∈ chunks output, c ≠ [] ∧ c.length ≤ 2048

structure Add where
  clientPrivKey : List Char
  clientPubKey : List Char
  /-- The contents of the file with the preshared key. -/
  pskFile : List Char
  subnetIp : List Char
  delivery : Delivery

inductive Error
  | InternalError
  | AddressPoolError
  deriving DecidableEq

/-- The error, if there is one, and the configuration afterwards; all steps on the server succeed. -/
def prepareWireguardConfig (a : Add) (conf : List Char) : Option Error × List Char :=
  if a.clientPrivKey = [] ∨ a.clientPubKey = [] then (some .InternalError, conf)
  else
    match nextIpNumber (queryOutput (a.delivery.chunks (query conf))) with
    | none => (some .AddressPoolError, conf)
    | some nextIpNumber =>
      match clientIP a.subnetIp nextIpNumber with
      | none => (some .AddressPoolError, conf)
      | some clientIP => (none, conf ++ configPart a.clientPubKey (a.pskFile.filter (· ≠ '\n')) clientIP)

/-! ## Removing a client -/

def revokeWireGuard (clientId : List Char) (conf : List Char) : List Char :=
  let configSections := (splitSkipEmpty '[' conf).eraseP (hasInfix clientId)
  '[' :: ['['].intercalate configSections

inductive Event
  | prepareWireguardConfig (a : Add)
  | revokeWireGuard (clientId : List Char)

def step : Event → List Char → List Char
  | .prepareWireguardConfig a, conf => (prepareWireguardConfig a conf).2
  | .revokeWireGuard clientId, conf => revokeWireGuard clientId conf

def allowedIP? (line : List Char) : Option (List Char) :=
  if allowedIPsKey.isPrefixOf line then some (line.drop allowedIPsKey.length) else none

def allowedIPs (conf : List Char) : List (List Char) := (conf.splitOn '\n').filterMap allowedIP?

/-- The number of an address, behind its last dot. -/
def lastOctet (allowedIP : List Char) : Int := toInt (removeAll mask ((allowedIP.splitOn '.').getLastD []))

theorem allowedIPsWord_begins : allowedIPsWord <+: allowedIPsKey := ⟨" = ".toList, by decide⟩

theorem allowedIP?_eq_none {line : List Char} (h : ¬allowedIPsWord <:+: line) : allowedIP? line = none :=
  if_neg fun hkey => h (allowedIPsWord_begins.trans (List.isPrefixOf_iff_prefix.mp hkey)).isInfix

/-! ## Digits -/

variable {c : Char}

theorem toNat_of_isDigit (h : c.isDigit = true) : 48 ≤ c.toNat ∧ c.toNat ≤ 57 := by
  rw [Char.isDigit, Bool.and_eq_true, decide_eq_true_eq, decide_eq_true_eq] at h
  exact h

theorem ne_of_isDigit {d : Char} (h : c.isDigit = true) (hd : d.isDigit = false) : c ≠ d := by
  rintro rfl
  rw [h] at hd
  cases hd

theorem isSpace_of_isDigit (h : c.isDigit = true) : isSpace c = false := by
  obtain ⟨hl, hh⟩ := toNat_of_isDigit h
  have hb : Text.isAsciiSpace c = false := Text.isAsciiSpace_of_isAlphanum (by simp [Char.isAlphanum, h])
  simp [isSpace, hb]
  omega

theorem number_checked :
    ∀ k : Fin 255, number k ≠ [] ∧ (number k).all Char.isDigit = true ∧ toInt (number k) = k := by
  decide +kernel

theorem number_spec {k : Nat} (h : k ≤ 254) :
    number k ≠ [] ∧ (∀ c ∈ number k, c.isDigit = true) ∧ toInt (number k) = k := by
  obtain ⟨hne, hd, hi⟩ := number_checked ⟨k, by omega⟩
  exact ⟨hne, all_eq_true.mp hd, hi⟩

/-! ## Peers -/

/-- A section that `prepareWireguardConfig` writes. -/
structure Peer where
  pubKey : List Char
  psk : List Char
  /-- The parts of the address before the number. -/
  subnet : List (List Char)
  octet : Nat
  pubKey_plain : '\n' ∉ pubKey ∧ '[' ∉ pubKey
  psk_plain : '\n' ∉ psk ∧ '[' ∉ psk
  subnet_ne : subnet ≠ []
  subnet_digits : ∀ part ∈ subnet, ∀ c ∈ part, c.isDigit = true
  octet_range : 2 ≤ octet ∧ octet ≤ 254

namespace Peer

variable (p : Peer)

def network : List Char := p.subnet.flatMap (· ++ ['.'])

def address : List Char := p.network ++ number p.octet

def ipLine : List Char := allowedIPsKey ++ (p.address ++ mask)

def lines : List (List Char) := [peerLine, publicKeyKey ++ p.pubKey, presharedKeyKey ++ p.psk, p.ipLine, []]

def part : List Char := configPart p.pubKey p.psk p.address

theorem part_eq : p.part = p.lines.flatMap (· ++ ['\n']) := by
  simp only [part, configPart, lines, ipLine, flatMap_cons, flatMap_nil, append_assoc, cons_append,
    nil_append]

theorem mem_network (h : c ∈ p.network) : c.isDigit = true ∨ c = '.' := by
  obtain ⟨part, hp, hc⟩ := mem_flatMap.mp h
  rcases mem_append.mp hc with hc | hc
  · exact .inl (p.subnet_digits part hp c hc)
  · exact .inr (mem_singleton.mp hc)

theorem mem_address (h : c ∈ p.address) : c.isDigit = true ∨ c = '.' := by
  rcases mem_append.mp h with h | h
  · exact p.mem_network h
  · exact .inl ((number_spec p.octet_range.2).2.1 c h)

theorem notMem_address {d : Char} (hd : d.isDigit = false) (hdo : d ≠ '.') : d ∉ p.address := by
  intro h
  rcases p.mem_address h with h | h
  · rw [h] at hd
    cases hd
  · exact hdo h

theorem newline_notMem_lines : ∀ line ∈ p.lines, '\n' ∉ line := by
  have hi : '\n' ∉ p.ipLine := by
    simp only [ipLine, mem_append, not_or]
    exact ⟨by decide, p.notMem_address rfl (by decide), by decide⟩
  simp only [lines, forall_mem_cons, mem_append, not_or]
  exact ⟨by decide, ⟨by decide, p.pubKey_plain.1⟩, ⟨by decide, p.psk_plain.1⟩, hi, by decide, by simp⟩

theorem allowedIP?_ipLine : allowedIP? p.ipLine = some (p.address ++ mask) := by
  rw [allowedIP?, ipLine, if_pos (List.isPrefixOf_iff_prefix.mpr (prefix_append _ _)), drop_left]

theorem filterMap_lines : p.lines.filterMap allowedIP? = [p.address ++ mask] := by
  have hp : allowedIP? peerLine = none := rfl
  have hpu : allowedIP? (publicKeyKey ++ p.pubKey) = none := rfl
  have hps : allowedIP? (presharedKeyKey ++ p.psk) = none := rfl
  have hni : allowedIP? [] = none := rfl
  simp only [lines, filterMap_cons, filterMap_nil, hp, hpu, hps, allowedIP?_ipLine, hni]

theorem filter_lines : ∃ before, p.lines.filter (hasInfix allowedIPsWord) = before ++ [p.ipLine] := by
  have hi : hasInfix allowedIPsWord p.ipLine = true :=
    hasInfix_iff.mpr (allowedIPsWord_begins.trans (prefix_append _ _)).isInfix
  have hlast : [p.ipLine, []].filter (hasInfix allowedIPsWord) = [p.ipLine] := by
    rfl
  have hl : p.lines = [peerLine, publicKeyKey ++ p.pubKey, presharedKeyKey ++ p.psk] ++ [p.ipLine, []] := rfl
  rw [hl, filter_append]
  exact ⟨_, rfl⟩

end Peer

/-! ## The configuration -/

/-- The section of the interface, behind its bracket: there are no other sections and no addresses. -/
structure IsInterface (interface : List Char) : Prop where
  bracket : '[' ∉ interface
  ends : ∃ lines, interface = lines ++ ['\n']
  noAddress : ¬allowedIPsWord <:+: '[' :: interface

/-- The interface and the peers, whose numbers increase. -/
structure WgConf where
  interface : List Char
  peers : List Peer
  isInterface : IsInterface interface
  increasing : peers.Pairwise fun p q => p.octet < q.octet

namespace WgConf

variable (w : WgConf)

def render : List Char := '[' :: w.interface ++ w.peers.flatMap Peer.part

theorem splitOn_render :
    ∃ head, (∀ line ∈ head, ¬allowedIPsWord <:+: line) ∧
      w.render.splitOn '\n' = head ++ (w.peers.flatMap Peer.lines ++ [[]]) := by
  obtain ⟨lines, hli⟩ := w.isInterface.ends
  refine ⟨('[' :: lines).splitOn '\n', fun line hl hw => ?_, ?_⟩
  · refine w.isInterface.noAddress (hw.trans ((Lines.infix_of_mem_splitOn _ hl).trans ?_))
    rw [hli]
    exact (prefix_append ('[' :: lines) ['\n']).isInfix
  · have hpe : w.peers.flatMap Peer.part = (w.peers.flatMap Peer.lines).flatMap (· ++ ['\n']) := by
      rw [flatMap_assoc]
      exact flatMap_congr fun p _ => p.part_eq
    have hpl : ∀ line ∈ w.peers.flatMap Peer.lines, '\n' ∉ line := fun line hl => by
      obtain ⟨p, -, hp⟩ := mem_flatMap.mp hl
      exact p.newline_notMem_lines line hp
    have hr : w.render = ('[' :: lines) ++ '\n' :: w.peers.flatMap Peer.part := by
      rw [render, hli]
      simp
    rw [hr, splitOn_append_cons_self, hpe, Lines.splitOn_flatMap hpl]

theorem allowedIPs_render : allowedIPs w.render = w.peers.map fun p => p.address ++ mask := by
  obtain ⟨head, hh, hsplit⟩ := w.splitOn_render
  have hno : head.filterMap allowedIP? = [] := filterMap_eq_nil_iff.mpr fun line hl => allowedIP?_eq_none (hh line hl)
  have hp : (w.peers.flatMap Peer.lines).filterMap allowedIP? = w.peers.map fun p => p.address ++ mask := by
    rw [filterMap_flatMap, map_eq_flatMap]
    exact flatMap_congr fun p _ => p.filterMap_lines
  rw [allowedIPs, hsplit, filterMap_append, hno, filterMap_append, hp]
  exact append_nil _

/-! ## The query -/

theorem query_render_nil (h : w.peers = []) : query w.render = [] := by
  obtain ⟨head, hh, hsplit⟩ := w.splitOn_render
  have hno : head.filter (hasInfix allowedIPsWord) = [] :=
    filter_eq_nil_iff.mpr fun line hl hw => hh line hl (hasInfix_iff.mp hw)
  rw [query, hsplit, h, filter_append, hno]
  rfl

theorem query_render_concat {qs : List Peer} {p : Peer} (h : w.peers = qs ++ [p]) :
    ∃ lines : List (List Char), query w.render = lines.flatMap (· ++ ['\n']) ++ (p.ipLine ++ ['\n']) := by
  obtain ⟨head, hh, hsplit⟩ := w.splitOn_render
  obtain ⟨before, hb⟩ := p.filter_lines
  refine ⟨(head ++ qs.flatMap Peer.lines).filter (hasInfix allowedIPsWord) ++ before, ?_⟩
  have ha : w.render.splitOn '\n' = (head ++ qs.flatMap Peer.lines) ++ (p.lines ++ [[]]) := by
    rw [hsplit, h, flatMap_append, flatMap_cons, flatMap_nil, append_nil]
    simp only [append_assoc]
  have hni : [[]].filter (hasInfix allowedIPsWord) = [] := rfl
  rw [query, ha, filter_append, filter_append p.lines, hb, hni, append_nil, ← append_assoc,
    flatMap_append, flatMap_cons, flatMap_nil, append_nil]

end WgConf

/-! ## Reading the last line -/

def cleaned (line : List Char) : List Char := removeAll mask (removeAll allowedIPsKey line)

theorem splitSkipEmpty_cleaned (stdOut : List Char) :
    splitSkipEmpty '\n' (cleaned stdOut) = ((stdOut.splitOn '\n').map cleaned).filter (· ≠ []) := by
  have hkey : (stdOut.splitOn '\n').map (removeAll allowedIPsKey) = (removeAll allowedIPsKey stdOut).splitOn '\n' :=
    (splitOn_substitute (by decide) (by decide) (by decide) stdOut).symm
  have hm : ((removeAll allowedIPsKey stdOut).splitOn '\n').map (removeAll mask) = (cleaned stdOut).splitOn '\n' :=
    (splitOn_substitute (by decide) (by decide) (by decide) _).symm
  rw [splitSkipEmpty, ← hm, ← hkey, map_map]
  rfl

theorem removeAll_plain {part s : List Char} {x : Char} (hp : Begins x part) (hs : x ∉ s) : removeAll part s = s := by
  have ha : substitute [(part, [])] (s ++ []) = s ++ substitute [(part, [])] [] :=
    substitute_append (x := x) (by simpa using hp) hs []
  rwa [show substitute [(part, [])] ([] : List Char) = [] from rfl, append_nil] at ha

theorem begins_allowedIPsKey : Begins 'A' allowedIPsKey := ⟨"llowedIPs = ".toList, rfl, by decide⟩

theorem begins_mask : Begins '/' mask := ⟨['3', '2'], rfl, by decide⟩

theorem removeAll_mask {n : List Char} (hn : ∀ c ∈ n, c.isDigit = true) : removeAll mask (n ++ mask) = n := by
  have hm : substitute [(mask, [])] (n ++ mask) = n ++ substitute [(mask, [])] mask :=
    substitute_append (x := '/') (by simpa using begins_mask) (fun h => ne_of_isDigit (hn _ h) rfl rfl) mask
  rw [removeAll, hm, show substitute [(mask, [])] mask = [] from rfl, append_nil]

/-- A number with the mask behind it. -/
theorem cleaned_digits {n : List Char} (hn : ∀ c ∈ n, c.isDigit = true) : cleaned (n ++ mask) = n := by
  have hkey : removeAll allowedIPsKey (n ++ mask) = n ++ mask := by
    refine removeAll_plain begins_allowedIPsKey fun h => ?_
    rcases mem_append.mp h with h | h
    · exact ne_of_isDigit (hn _ h) rfl rfl
    · revert h
      decide
  rw [cleaned, hkey, removeAll_mask hn]

theorem cleaned_dot (s t : List Char) : cleaned (s ++ '.' :: t) = cleaned s ++ '.' :: cleaned t := by
  have hkey : removeAll allowedIPsKey (s ++ '.' :: t) = removeAll allowedIPsKey s ++ '.' :: removeAll allowedIPsKey t :=
    substitute_cut (by decide) (by decide) s t
  rw [cleaned, hkey]
  exact substitute_cut (by decide) (by decide) _ _

theorem mem_cleaned {s : List Char} (h : c ∈ cleaned s) : c ∈ s := by
  have hr {part t : List Char} (hp : part ≠ []) (hc : c ∈ removeAll part t) : c ∈ t :=
    (mem_substitute t (by simpa using hp) hc).resolve_right (by simp)
  exact hr (by decide) (hr (by decide) h)

theorem splitOn_vpnIp {s n : List Char} (hs : ',' ∉ s) (hn : ∀ c ∈ n, c.isDigit = true) (hne : n ≠ []) :
    ((vpnIp (s ++ '.' :: n)).splitOn '.').getLastD [] = n ∧ ((vpnIp n).splitOn '.').getLastD [] = n := by
  have hc : ',' ∉ n := fun h => ne_of_isDigit (hn _ h) rfl rfl
  have hdo : '.' ∉ n := fun h => ne_of_isDigit (hn _ h) rfl rfl
  obtain ⟨front, d, rfl⟩ : ∃ front d, n = front ++ [d] :=
    ⟨n.dropLast, n.getLast hne, (dropLast_concat_getLast hne).symm⟩
  have hd : isSpace d = false := isSpace_of_isDigit (hn d (by simp))
  have hfi {t : List Char} (ht : ',' ∉ t) (htn : t ≠ []) : vpnIp t = strip isSpace t := by
    rw [vpnIp, splitSkipEmpty, splitOn_eq_singleton ht]
    simp [htn]
  constructor
  · rw [hfi (by simp [hs, hc]) (by simp), strip_cut (by decide) hd, splitOn_append_cons_self,
      splitOn_eq_singleton hdo, getLastD_concat]
  · have hst : strip isSpace (front ++ [d]) = front ++ [d] := by
      refine strip_eq_self (fun x hx => isSpace_of_isDigit (hn x ?_)) fun x hx => ?_
      · exact mem_of_mem_head? hx
      · rw [getLast?_concat] at hx
        rwa [← Option.some.inj hx]
    rw [hfi hc hne, hst, splitOn_eq_singleton hdo]
    rfl

/-- **The next number.** Nothing but blank lines follows a line that ends in the number. -/
theorem nextIpNumber_eq {stdOut r : List Char} {before after : List (List Char)} {k : Nat} (hk : k ≤ 254)
    (hsplit : stdOut.splitOn '\n' = before ++ (r ++ (number k ++ mask)) :: after) (ha : ∀ line ∈ after, line = [])
    (hco : ',' ∉ r) (hr : r = [] ∨ ∃ s, r = s ++ ['.']) :
    nextIpNumber stdOut = if k = 254 then none else some (number (k + 1)) := by
  obtain ⟨hne, hd, hi⟩ := number_spec hk
  have hc : ∃ t, cleaned (r ++ (number k ++ mask)) = t ∧ t ≠ [] ∧
      ((vpnIp t).splitOn '.').getLastD [] = number k := by
    rcases hr with rfl | ⟨s, rfl⟩
    · exact ⟨_, cleaned_digits hd, hne, (splitOn_vpnIp (s := []) (by simp) hd hne).2⟩
    · refine ⟨_, by rw [append_assoc, singleton_append, cleaned_dot, cleaned_digits hd], by simp, ?_⟩
      exact (splitOn_vpnIp (fun h => hco (mem_append_left _ (mem_cleaned h))) hd hne).1
  obtain ⟨t, ht, htn, hlast⟩ := hc
  have hb : (after.map cleaned).filter (· ≠ []) = [] := by
    refine filter_eq_nil_iff.mpr fun line hli => ?_
    obtain ⟨l, hl, rfl⟩ := mem_map.mp hli
    rw [ha l hl]
    decide
  have hip : ((splitSkipEmpty '\n' (cleaned stdOut)).map vpnIp).getLast? = some (vpnIp t) := by
    rw [splitSkipEmpty_cleaned, hsplit, map_append, map_cons, ht, filter_append,
      filter_cons_of_pos (by simpa using htn), hb, getLast?_map, getLast?_concat, Option.map_some]
  have hnext : nextIpNumber stdOut =
      match ((splitSkipEmpty '\n' (cleaned stdOut)).map vpnIp).getLast? with
      | none => some ['2']
      | some ip =>
        if toInt ((ip.splitOn '.').getLastD []) + 1 > 254 then none
        else some (toString (toInt ((ip.splitOn '.').getLastD []) + 1)).toList := rfl
  rw [hnext, hip]
  simp only [hlast, hi]
  by_cases hfu : k = 254
  · rw [if_pos (by omega), if_pos hfu]
  · rw [if_neg (by omega), if_neg hfu]
    exact congrArg some String.toList_ofList

/-! ## The chunks -/

/-- The last number of the output and the mask behind it are in one chunk. -/
def LastNumberWhole (chunks : List (List Char)) : Prop :=
  ∃ before u n v after, chunks = before ++ (u ++ (n ++ (mask ++ v))) :: after ∧ '.' ∉ n ∧
    (∃ s, before.flatten ++ u = s ++ ['.']) ∧
    v ++ after.flatten = ['\n']

theorem last_cut_inj {a a' b b' : List Char} (hb : c ∉ b) (hb' : c ∉ b') (h : a ++ c :: b = a' ++ c :: b') :
    a = a' ∧ b = b' := by
  rcases append_eq_append_iff.mp h with ⟨m, rfl, hm⟩ | ⟨m, rfl, hm⟩
  · cases m with
    | nil => exact ⟨(append_nil a).symm, (List.cons.inj hm).2⟩
    | cons d m => exact absurd ((List.cons.inj hm).2 ▸ mem_append_right m mem_cons_self) hb
  · cases m with
    | nil => exact ⟨append_nil a', (List.cons.inj hm).2.symm⟩
    | cons d m => exact absurd ((List.cons.inj hm).2 ▸ mem_append_right m mem_cons_self) hb'

theorem splitOn_queryOutput (before : List (List Char)) (u : List Char) {after : List (List Char)} {e v : List Char}
    (he : '\n' ∉ e)
    (hv : v ++ after.flatten = ['\n']) :
    ∃ parts r rest, (queryOutput (before ++ (u ++ (e ++ v)) :: after)).splitOn '\n' = parts ++ (r ++ e) :: rest ∧
      (∀ line ∈ rest, line = []) ∧ r <:+ u ∧ '\n' ∉ r := by
  obtain ⟨parts, r, hp, hr, hno⟩ := Lines.splitOn_append_last u he
  have hc : ∃ extra, (u ++ (e ++ v)).splitOn '\n' = parts ++ (r ++ e) :: extra ∧ ∀ line ∈ extra, line = [] := by
    rcases append_eq_singleton_iff.mp hv with ⟨rfl, -⟩ | ⟨rfl, -⟩
    · exact ⟨[], by rw [append_nil, hp], by simp⟩
    · refine ⟨[[]], ?_, by simp⟩
      rw [← append_assoc, splitOn_append_cons_self, hp, append_assoc]
      rfl
  obtain ⟨extra, hsplit, hex⟩ := hc
  have ha : ∀ line ∈ after.flatMap (List.splitOn '\n'), line = [] := by
    intro line hl
    obtain ⟨chunk, hc, hl⟩ := mem_flatMap.mp hl
    refine Lines.eq_nil_of_mem_splitOn (fun x hx => ?_) hl
    have hm : x ∈ v ++ after.flatten := mem_append_right v (mem_flatten.mpr ⟨chunk, hc, hx⟩)
    rw [hv] at hm
    exact mem_singleton.mp hm
  refine ⟨before.flatMap (List.splitOn '\n') ++ parts, r, extra ++ (after.flatMap (List.splitOn '\n') ++ [[]]), ?_,
    ?_, hr, hno⟩
  · rw [queryOutput, ← append_nil (List.flatMap _ _), Lines.splitOn_flatMap_append, flatMap_append,
      flatMap_cons, hsplit,
      splitOn_nil]
    simp only [append_assoc, cons_append]
  · exact forall_mem_append.mpr ⟨hex, forall_mem_append.mpr ⟨ha, by simp⟩⟩

theorem suffix_of_suffix_lines (lines : List (List Char)) {l r : List Char}
    (hr : r <:+ lines.flatMap (· ++ ['\n']) ++ l)
    (hno : '\n' ∉ r) : r <:+ l := by
  rcases suffix_or_suffix_of_suffix hr (suffix_append _ l) with h | ⟨front, rfl⟩
  · exact h
  · obtain ⟨t, ht⟩ := hr
    rw [← append_assoc] at ht
    have hl := append_cancel_right ht
    rcases eq_nil_or_concat' lines with rfl | ⟨init, last, rfl⟩
    · rw [flatMap_nil, append_eq_nil_iff] at hl
      rw [hl.2]
      exact suffix_rfl
    · rcases eq_nil_or_concat' front with rfl | ⟨front, d, rfl⟩
      · exact suffix_rfl
      · -- the line before would end in the part
        have hd : d = '\n' := by
          have hlast := congrArg List.getLast? hl
          simpa using hlast
        exact absurd (by simp [hd]) hno

namespace Peer

variable (p : Peer)

theorem network_ends : ∃ s, p.network = s ++ ['.'] := by
  rcases eq_nil_or_concat' p.subnet with h | ⟨init, last, h⟩
  · exact absurd h p.subnet_ne
  · refine ⟨init.flatMap (· ++ ['.']) ++ last, ?_⟩
    rw [network, h, flatMap_append, flatMap_cons, flatMap_nil, append_nil, append_assoc]

theorem comma_notMem : ',' ∉ allowedIPsKey ++ p.network := by
  intro h
  rcases mem_append.mp h with h | h
  · revert h
    decide
  · rcases p.mem_network h with h | h
    · cases h
    · cases h

/-- **The number of the last line** is found if it is not cut by a chunk. -/
theorem nextIpNumber_last {lines chunks : List (List Char)}
    (hfl : chunks.flatten = lines.flatMap (· ++ ['\n']) ++ (p.ipLine ++ ['\n'])) (hw : LastNumberWhole chunks) :
    nextIpNumber (queryOutput chunks) = if p.octet = 254 then none else some (number (p.octet + 1)) := by
  obtain ⟨before, u, n, v, after, rfl, hn, ⟨s, hs⟩, hv⟩ := hw
  obtain ⟨t, ht⟩ := p.network_ends
  have hdi := (number_spec p.octet_range.2).2.1
  have hdo : '.' ∉ number p.octet := fun h => ne_of_isDigit (hdi _ h) rfl rfl
  -- the output read in two ways, up to the mask of its last line
  have hsa : s ++ '.' :: n = (lines.flatMap (· ++ ['\n']) ++ (allowedIPsKey ++ t)) ++ '.' :: number p.octet := by
    have hb : (s ++ '.' :: n) ++ (mask ++ ['\n']) =
        ((lines.flatMap (· ++ ['\n']) ++ (allowedIPsKey ++ t)) ++ '.' :: number p.octet) ++ (mask ++ ['\n']) := by
      calc (s ++ '.' :: n) ++ (mask ++ ['\n'])
        _ = (before ++ (u ++ (n ++ (mask ++ v))) :: after).flatten := by
          rw [flatten_append, flatten_cons, ← hv]
          simp only [← append_assoc, hs]
          simp only [append_assoc, singleton_append]
        _ = _ := by
          rw [hfl, ipLine, address, ht]
          simp only [append_assoc, cons_append, nil_append]
    exact append_cancel_right hb
  obtain ⟨hfr, rfl⟩ := last_cut_inj hn hdo hsa
  have he : '\n' ∉ number p.octet ++ mask := by
    intro h
    rcases mem_append.mp h with h | h
    · exact ne_of_isDigit (hdi _ h) rfl rfl
    · revert h
      decide
  obtain ⟨parts, r, rest, hsplit, hrest, hr, hno⟩ := splitOn_queryOutput before u he hv
  have hsu : r <:+ allowedIPsKey ++ p.network := by
    refine suffix_of_suffix_lines lines (hr.trans ?_) hno
    have hu : u <:+ before.flatten ++ u := suffix_append _ u
    rw [hs, hfr, append_assoc, append_assoc, ← ht] at hu
    exact hu
  refine nextIpNumber_eq p.octet_range.2 (by rw [← hsplit, append_assoc]) hrest
    (fun h => p.comma_notMem (hsu.subset h)) ?_
  rcases eq_nil_or_concat' r with rfl | ⟨init, d, rfl⟩
  · exact .inl rfl
  · -- the last character is the one of the network
    obtain ⟨front, hfr⟩ := hsu
    have hd : d = '.' := by
      have hlast := congrArg List.getLast? hfr
      rw [ht] at hlast
      simpa using hlast
    exact .inr ⟨init, by rw [hd]⟩

end Peer

/-! ## The operations -/

/-- The keys are there and have no line breaks and brackets, and the subnet is one of IPv4. -/
structure Add.Plain (a : Add) : Prop where
  privKey_ne : a.clientPrivKey ≠ []
  pubKey_ne : a.clientPubKey ≠ []
  pubKey : '\n' ∉ a.clientPubKey ∧ '[' ∉ a.clientPubKey
  psk : '[' ∉ a.pskFile
  parts : (splitSkipEmpty '.' a.subnetIp).dropLast ≠ []
  digits : ∀ c ∈ a.subnetIp, c.isDigit = true ∨ c = '.'

def Add.peer (a : Add) (ha : a.Plain) (k : Nat) (hk : 2 ≤ k ∧ k ≤ 254) : Peer where
  pubKey := a.clientPubKey
  psk := a.pskFile.filter (· ≠ '\n')
  subnet := (splitSkipEmpty '.' a.subnetIp).dropLast
  octet := k
  pubKey_plain := ha.pubKey
  psk_plain := ⟨by simp, fun h => ha.psk (mem_of_mem_filter h)⟩
  subnet_ne := ha.parts
  subnet_digits part hpart c hc := by
    have hmem : part ∈ a.subnetIp.splitOn '.' := mem_of_mem_filter ((dropLast_sublist _).subset hpart)
    refine (ha.digits c ((Lines.infix_of_mem_splitOn _ hmem).subset hc)).resolve_right ?_
    rintro rfl
    exact Lines.sep_notMem_of_mem_splitOn _ hmem hc
  octet_range := hk

theorem Add.clientIP_eq {a : Add} (ha : a.Plain) {k : Nat} (hk : 2 ≤ k ∧ k ≤ 254) :
    clientIP a.subnetIp (number k) = some (a.peer ha k hk).address := by
  have hne : splitSkipEmpty '.' a.subnetIp ≠ [] := fun h => ha.parts (by rw [h]; rfl)
  rw [clientIP, if_neg hne, Lines.intercalate_concat]
  rfl

namespace WgConf

variable (w : WgConf)

def concat (p : Peer) (h : ∀ q ∈ w.peers, q.octet < p.octet) : WgConf where
  interface := w.interface
  peers := w.peers ++ [p]
  isInterface := w.isInterface
  increasing := pairwise_append.mpr ⟨w.increasing, pairwise_singleton _ p, fun q hq r hr => by
    rw [mem_singleton.mp hr]
    exact h q hq⟩

theorem render_concat (p : Peer) (h : ∀ q ∈ w.peers, q.octet < p.octet) :
    (w.concat p h).render = w.render ++ p.part := by
  simp [render, concat, flatMap_append]

def next : Nat :=
  match w.peers.getLast? with
  | none => 2
  | some p => p.octet + 1

theorem next_of_nil (h : w.peers = []) : w.next = 2 := by
  rw [next, h]
  rfl

theorem next_of_concat {qs : List Peer} {p : Peer} (h : w.peers = qs ++ [p]) : w.next = p.octet + 1 := by
  rw [next, h, getLast?_concat]

theorem octet_lt_next : ∀ q ∈ w.peers, q.octet < w.next := by
  intro q hq
  rcases eq_nil_or_concat' w.peers with h | ⟨qs, p, h⟩
  · rw [h] at hq
    cases hq
  · rw [w.next_of_concat h]
    have hi := w.increasing
    rw [h] at hi hq
    rcases mem_append.mp hq with hq | hq
    · exact Nat.lt_succ_of_lt ((pairwise_append.mp hi).2.2 q hq p (mem_singleton_self p))
    · rw [mem_singleton.mp hq]
      exact Nat.lt_succ_self _

theorem next_range : 2 ≤ w.next ∧ w.next ≤ 255 := by
  rcases eq_nil_or_concat' w.peers with h | ⟨qs, p, h⟩
  · rw [w.next_of_nil h]
    decide
  · have hr := p.octet_range
    rw [w.next_of_concat h]
    omega

theorem nextIpNumber_render {d : Delivery} (hw : query w.render = [] ∨ LastNumberWhole (d.chunks (query w.render))) :
    nextIpNumber (queryOutput (d.chunks (query w.render))) = if w.next = 255 then none else some (number w.next) := by
  rcases eq_nil_or_concat' w.peers with h | ⟨qs, p, h⟩
  · have hc : d.chunks (query w.render) = [] := by
      rw [w.query_render_nil h]
      cases hd : d.chunks [] with
      | nil => rfl
      | cons chunk chunks =>
        have hfl := d.flatten []
        rw [hd, flatten_cons, append_eq_nil_iff] at hfl
        exact absurd hfl.1 (d.sizes [] chunk (by rw [hd]; exact mem_cons_self)).1
    rw [hc, w.next_of_nil h]
    rfl
  · obtain ⟨lines, hl⟩ := w.query_render_concat h
    have hne : query w.render ≠ [] := by
      rw [hl]
      simp
    have hnu := p.nextIpNumber_last ((d.flatten _).trans hl) (hw.resolve_left hne)
    rw [hnu, w.next_of_concat h]
    simp

/-- **Adding.** The client gets the next number, unless there is none. -/
theorem prepareWireguardConfig_eq {a : Add} (ha : a.Plain)
    (hw : query w.render = [] ∨ LastNumberWhole (a.delivery.chunks (query w.render))) :
    (w.next = 255 ∧ prepareWireguardConfig a w.render = (some .AddressPoolError, w.render)) ∨
      ∃ p h, p.octet = w.next ∧ prepareWireguardConfig a w.render = (none, (w.concat p h).render) := by
  have hk : ¬(a.clientPrivKey = [] ∨ a.clientPubKey = []) := not_or.mpr ⟨ha.privKey_ne, ha.pubKey_ne⟩
  have hnu := w.nextIpNumber_render hw
  by_cases hfu : w.next = 255
  · rw [if_pos hfu] at hnu
    exact .inl ⟨hfu, by rw [prepareWireguardConfig, if_neg hk, hnu]⟩
  · have hnext : 2 ≤ w.next ∧ w.next ≤ 254 := by
      have hr := w.next_range
      omega
    rw [if_neg hfu] at hnu
    have hlt : ∀ q ∈ w.peers, q.octet < (a.peer ha w.next hnext).octet := w.octet_lt_next
    refine .inr ⟨a.peer ha w.next hnext, hlt, rfl, ?_⟩
    rw [render_concat, prepareWireguardConfig, if_neg hk, hnu]
    simp only [Add.clientIP_eq ha hnext]
    rfl

/-! ## Removing -/

end WgConf

/-- A text of sections, each behind its bracket, with a comment before the first one. -/
def confText (comment : List Char) (sections : List (List Char)) : List Char := comment ++ sections.flatMap ('[' :: ·)

/-- The parts that `revokeWireGuard` looks at. -/
abbrev parts (s : List Char) : List (List Char) := splitSkipEmpty '[' s

theorem mem_parts {s q : List Char} (h : q ∈ parts s) : '[' ∉ q ∧ q ≠ [] := by
  obtain ⟨hm, hne⟩ := mem_filter.mp h
  exact ⟨Lines.sep_notMem_of_mem_splitOn _ hm, by simpa using hne⟩

theorem parts_confText (sections : List (List Char)) : parts (confText [] sections) = sections.flatMap parts := by
  simp only [parts, splitSkipEmpty, confText, Lines.splitOn_append_flatMap, filter_append, filter_flatMap]
  rfl

theorem confText_splitOn (sections : List (List Char)) :
    confText [] (sections.flatMap (List.splitOn '[')) = confText [] sections := by
  rw [confText, confText, flatMap_assoc]
  refine congrArg _ (flatMap_congr fun s _ => ?_)
  obtain ⟨q, l, hs⟩ := exists_cons_of_ne_nil (splitOn_ne_nil '[' s)
  have hi : ['['].intercalate (s.splitOn '[') = s := intercalate_splitOn '['
  rw [hs, Lines.intercalate_cons] at hi
  rw [hs, flatMap_cons, cons_append, hi]

theorem flatMap_parts {l : List (List Char)} (h : ∀ q ∈ l, '[' ∉ q ∧ q ≠ []) : l.flatMap parts = l := by
  have hs : l.flatMap parts = (l.flatMap (List.splitOn '[')).filter (· ≠ []) := (filter_flatMap ..).symm
  rw [hs, Lines.flatMap_splitOn fun q hq => (h q hq).1]
  exact filter_eq_self.mpr fun q hq => by simpa using (h q hq).2

/-- Sections without empty parts are made of their parts. -/
theorem confText_parts {sections : List (List Char)} (h : ∀ s ∈ sections, [] ∉ s.splitOn '[') :
    confText [] (sections.flatMap parts) = confText [] sections := by
  have hs : sections.flatMap parts = sections.flatMap (List.splitOn '[') :=
    flatMap_congr fun s hs => filter_eq_self.mpr fun q hq => by simpa using fun he : q = [] => h s hs (he ▸ hq)
  rw [hs, confText_splitOn]

/-- A section begins with its name, which is a part. -/
theorem parts_ne_nil {s : List Char} (h : s ≠ [] ∧ s.head? ≠ some '[') : parts s ≠ [] := by
  cases s with
  | nil => exact absurd rfl h.1
  | cons c s =>
    obtain ⟨after, hs⟩ := Lines.splitOn_first '[' s
    have hc : c ≠ '[' := fun heq => h.2 (congrArg some heq)
    have hcs : (c :: s).splitOn '[' = (c :: s.takeWhile (· ≠ '[')) :: after := hs [c] (by simpa using hc.symm)
    simp [parts, splitSkipEmpty, hcs]

/-- The parts of what is uploaded, and the text if there are any. -/
theorem revokeWireGuard_spec (clientId conf : List Char) :
    parts (revokeWireGuard clientId conf) = (parts conf).eraseP (hasInfix clientId) ∧
      ((parts conf).eraseP (hasInfix clientId) ≠ [] →
        revokeWireGuard clientId conf = confText [] ((parts conf).eraseP (hasInfix clientId))) := by
  have hr : revokeWireGuard clientId conf = '[' :: ['['].intercalate ((parts conf).eraseP (hasInfix clientId)) := rfl
  have hl : ∀ q ∈ (parts conf).eraseP (hasInfix clientId), '[' ∉ q ∧ q ≠ [] :=
    fun q hq => mem_parts (mem_of_mem_eraseP hq)
  rw [hr]
  cases he : (parts conf).eraseP (hasInfix clientId) with
  | nil => exact ⟨rfl, fun h => absurd rfl h⟩
  | cons q l =>
    rw [he] at hl
    have ht : '[' :: ['['].intercalate (q :: l) = confText [] (q :: l) := by
      rw [Lines.intercalate_cons]
      rfl
    rw [ht, parts_confText, flatMap_parts hl]
    exact ⟨rfl, fun _ => rfl⟩

section Revoke

variable (publicKey? : List Char → Option (List Char)) (clientId : List Char) (sections : List (List Char))

/-- The sections without the first one that has the key. -/
def without : List (List Char) := sections.eraseP fun s => publicKey? s = some clientId

/-- The section with the key is one part, and no part before it has the id in it, except for copies right before it; if
there is no such section, no part has. -/
def IdAlone : Prop :=
  (∀ s ∈ sections, publicKey? s ≠ some clientId) ∧ (∀ q ∈ sections.flatMap parts, ¬clientId <:+: q) ∨
    ∃ before s after q first n, sections = before ++ s :: after ∧
      (∀ t ∈ before, publicKey? t ≠ some clientId) ∧
      publicKey? s = some clientId ∧ parts s = [q] ∧ clientId <:+: q ∧
      before.flatMap parts = first ++ replicate n q ∧ ∀ t ∈ first, ¬clientId <:+: t

variable {publicKey? clientId sections}

theorem without_of_forall (h : ∀ s ∈ sections, publicKey? s ≠ some clientId) :
    without publicKey? clientId sections = sections := eraseP_of_forall_not (by simpa using h)

theorem eraseP_parts_iff (hparts : ∀ s ∈ sections, parts s ≠ []) :
    (sections.flatMap parts).eraseP (hasInfix clientId) = (without publicKey? clientId sections).flatMap parts ↔
      IdAlone publicKey? clientId sections := by
  simp only [IdAlone, ← hasInfix_iff]
  constructor
  · intro h
    by_cases hk : ∀ s ∈ sections, publicKey? s ≠ some clientId
    · rw [without_of_forall hk, eraseP_eq_self_iff] at h
      exact .inl ⟨hk, h⟩
    · simp only [ne_eq, not_forall, not_not] at hk
      obtain ⟨s, hs, hkey⟩ := hk
      obtain ⟨s, before, after, hbefore, hkey, rfl, he⟩ := exists_of_eraseP
        (p := fun s => decide (publicKey? s = some clientId)) hs (by simpa using hkey)
      rw [without, he] at h
      simp only [flatMap_append, flatMap_cons] at h
      -- one part is erased, so the section has no more
      have hle :=
        le_length_eraseP (p := hasInfix clientId) (l := before.flatMap parts ++ (parts s ++ after.flatMap parts))
      rw [h] at hle
      simp only [length_append] at hle
      obtain ⟨q, hq⟩ : ∃ q, parts s = [q] := length_eq_one_iff.mp (by
        have hpos := length_pos_iff.mpr (hparts s (by simp))
        omega)
      rw [hq, singleton_append, eraseP_append_cons_iff] at h
      obtain ⟨hid, first, n, hfirst⟩ := h
      exact .inr ⟨before, s, after, q, first, n, rfl, by simpa using hbefore, by simpa using hkey, hq, hid, hfirst⟩
  · rintro (⟨hk, h⟩ | ⟨before, s, after, q, first, n, rfl, hbefore, hkey, hq, hid, hfirst⟩)
    · rwa [without_of_forall hk, eraseP_eq_self_iff]
    · have hw : without publicKey? clientId (before ++ s :: after) = before ++ after := by
        rw [without, eraseP_append_right _ (by simpa using hbefore), eraseP_cons_of_pos (by simpa using hkey)]
      rw [hw, flatMap_append, flatMap_append, flatMap_cons, hq, singleton_append, eraseP_append_cons_iff]
      exact ⟨hid, first, n, hfirst⟩

/-- **Removing a client.** The section with the key is taken out and nothing else is changed iff no text is before the
first section, the sections that stay have no empty part (two brackets in a row, or one at the end), and the id is found
in that section first. -/
theorem revokeWireGuard_exact {comment : List Char} (hcomment : comment.head? ≠ some '[')
    (hsections : ∀ s ∈ sections, s ≠ [] ∧ s.head? ≠ some '[')
    (hinterface : ∃ s ∈ sections, publicKey? s = none) :
    revokeWireGuard clientId (confText comment sections) = confText comment (without publicKey? clientId sections) ↔
      comment = [] ∧ (∀ s ∈ without publicKey? clientId sections, [] ∉ s.splitOn '[') ∧
        IdAlone publicKey? clientId sections := by
  rw [← eraseP_parts_iff fun s hs => parts_ne_nil (hsections s hs)]
  have hstays : (without publicKey? clientId sections).flatMap parts ≠ [] := by
    obtain ⟨s, hs, hno⟩ := hinterface
    have hmem : s ∈ without publicKey? clientId sections := (mem_eraseP_of_neg (by simp [hno])).mpr hs
    exact fun he => parts_ne_nil (hsections s hs) (flatMap_eq_nil_iff.mp he s hmem)
  obtain ⟨hspec, htext⟩ := revokeWireGuard_spec clientId (confText [] sections)
  rw [parts_confText] at hspec htext
  constructor
  · intro h
    have hc : comment = [] := by
      cases comment with
      | nil => rfl
      | cons c comment => exact absurd (congrArg List.head? h).symm hcomment
    subst hc
    rw [h, parts_confText] at hspec
    refine ⟨rfl, fun s hs hempty => ?_, hspec.symm⟩
    have hboth := congrArg (List.splitOn '[') (h.symm.trans (htext (hspec ▸ hstays)))
    have hl : ∀ q ∈ (sections.flatMap parts).eraseP (hasInfix clientId), '[' ∉ q ∧ q ≠ [] := fun q hq => by
      obtain ⟨t, -, hq⟩ := mem_flatMap.mp (mem_of_mem_eraseP hq)
      exact mem_parts hq
    rw [confText, confText, Lines.splitOn_append_flatMap, Lines.splitOn_append_flatMap] at hboth
    have hall := append_cancel_left hboth
    rw [Lines.flatMap_splitOn fun q hq => (hl q hq).1] at hall
    exact (hl [] (hall ▸ mem_flatMap.mpr ⟨s, hs, hempty⟩)).2 rfl
  · rintro ⟨rfl, hclean, he⟩
    rw [htext (he ▸ hstays), he, confText_parts hclean]

end Revoke

/-! ## Adding and removing -/

theorem bracket_notMem_nextIpNumber {stdOut n : List Char} (h : nextIpNumber stdOut = some n) : '[' ∉ n := by
  have hnat (k : Nat) : '[' ∉ Nat.toDigits 10 k := fun hm =>
    absurd (Nat.isDigit_of_mem_toDigits (by decide) (by decide) hm) (by decide)
  unfold nextIpNumber at h
  dsimp only at h
  split at h
  · cases h
    decide
  · split at h
    · cases h
    · obtain rfl := Option.some.inj h
      generalize toInt _ + 1 = next
      cases next with
      | ofNat k => simpa [toString, Int.repr, Nat.repr] using hnat k
      | negSucc k => simpa [toString, Int.repr, Nat.repr] using hnat (k + 1)

theorem bracket_notMem_clientIP {subnetIp n ip : List Char} (hs : '[' ∉ subnetIp) (hn : '[' ∉ n)
    (h : clientIP subnetIp n = some ip) : '[' ∉ ip := by
  unfold clientIP at h
  dsimp only at h
  split at h
  · cases h
  · obtain rfl := Option.some.inj h
    rw [Lines.intercalate_concat, mem_append, not_or]
    refine ⟨fun hm => ?_, hn⟩
    obtain ⟨part, hpart, hm⟩ := mem_flatMap.mp hm
    have hin := Lines.infix_of_mem_splitOn _ (mem_of_mem_filter ((dropLast_sublist _).subset hpart))
    exact (mem_append.mp hm).elim (fun hm => hs (hin.subset hm)) (by decide)

theorem bracket_notMem_configPart {clientPubKey pskKey ip : List Char} (hpub : '[' ∉ clientPubKey)
    (hpsk : '[' ∉ pskKey)
    (hip : '[' ∉ ip) : '[' ∉ (configPart clientPubKey pskKey ip).tail := by
  have hbody : (configPart clientPubKey pskKey ip).tail = peerLine.tail ++ '\n' ::
      (publicKeyKey ++ clientPubKey ++ '\n' ::
      (presharedKeyKey ++ pskKey ++ '\n' :: (allowedIPsKey ++ ip ++ mask ++ ['\n', '\n']))) := rfl
  simp only [hbody, mem_append, mem_cons, not_or, hpub, hpsk, hip]
  decide

/-- Nothing is added, or a section without another bracket that has the key. -/
theorem prepareWireguardConfig_cases {a : Add} (hpub : '[' ∉ a.clientPubKey) (hpsk : '[' ∉ a.pskFile)
    (hsubnet : '[' ∉ a.subnetIp) (conf : List Char) : (prepareWireguardConfig a conf).2 = conf ∨
      ∃ body, ('[' ∉ body ∧ a.clientPubKey <:+: body) ∧
        (prepareWireguardConfig a conf).2 = conf ++ '[' :: body := by
  unfold prepareWireguardConfig
  split
  · exact .inl rfl
  split
  · exact .inl rfl
  next n hn =>
    split
    · exact .inl rfl
    next ip hip =>
      have hbip := bracket_notMem_clientIP hsubnet (bracket_notMem_nextIpNumber hn) hip
      refine .inr ⟨(configPart a.clientPubKey (a.pskFile.filter (· ≠ '\n')) ip).tail, ⟨?_, ?_⟩, rfl⟩
      · exact bracket_notMem_configPart hpub (fun hm => hpsk (mem_of_mem_filter hm)) hbip
      · exact ⟨peerLine.tail ++ '\n' :: publicKeyKey, _, by rw [append_assoc]; rfl⟩

/-- **Adding and removing.** A client that is added and removed again leaves the configuration as it was, if its key is
new; the text has nothing before its first section and no bracket with nothing behind it, and the keys and the subnet
have no brackets. -/
theorem revokeWireGuard_added (sections : List (List Char)) (hne : sections ≠ [])
    (hsections : ∀ s ∈ sections, [] ∉ s.splitOn '[') (a : Add) (hpub : '[' ∉ a.clientPubKey)
    (hpsk : '[' ∉ a.pskFile)
    (hsubnet : '[' ∉ a.subnetIp) (hnew : ¬a.clientPubKey <:+: confText [] sections) :
    revokeWireGuard a.clientPubKey (prepareWireguardConfig a (confText [] sections)).2 = confText [] sections := by
  have hno : ∀ q ∈ sections.flatMap parts, ¬hasInfix a.clientPubKey q = true := by
    intro q hq h
    obtain ⟨s, hs, hpart⟩ := mem_flatMap.mp hq
    obtain ⟨before, after, rfl⟩ := append_of_mem hs
    have hin := (hasInfix_iff.mp h).trans (Lines.infix_of_mem_splitOn s (mem_of_mem_filter hpart))
    refine hnew (hin.trans ⟨confText [] before ++ ['['], confText [] after, ?_⟩)
    simp [confText]
  suffices he : (parts (prepareWireguardConfig a (confText [] sections)).2).eraseP (hasInfix a.clientPubKey) =
      sections.flatMap parts by
    have hstays : sections.flatMap parts ≠ [] := by
      intro hnil
      have hback := confText_parts hsections
      obtain ⟨s, rest, rfl⟩ := exists_cons_of_ne_nil hne
      rw [hnil] at hback
      cases hback
    rw [(revokeWireGuard_spec ..).2 (he ▸ hstays), he, confText_parts hsections]
  obtain h | ⟨body, ⟨hbody, hkey⟩, h⟩ := prepareWireguardConfig_cases hpub hpsk hsubnet (confText [] sections)
  · rw [h, parts_confText, eraseP_of_forall_not hno]
  · have hne : body ≠ [] := by
      rintro rfl
      exact hnew (infix_nil.mp hkey ▸ nil_infix)
    have ht : confText [] sections ++ '[' :: body = confText [] (sections ++ [body]) := by simp [confText]
    rw [h, ht, parts_confText, flatMap_append, flatMap_parts (l := [body]) (by simp [hbody, hne]),
      eraseP_append_right _ hno, eraseP_cons_of_pos (hasInfix_iff.mpr hkey), append_nil]

/-- The key of a section as `prepareWireguardConfig` writes it. -/
def publicKey? (s : List Char) : Option (List Char) :=
  ((s.splitOn '\n').find? publicKeyKey.isPrefixOf).map (List.drop publicKeyKey.length)

/-- The interface and two clients. -/
def twoClients : List (List Char) :=
  ["Interface]\n".toList, "Peer]\nPublicKey = +\n".toList, "Peer]\nPublicKey = =/\n".toList]

theorem revokeWireGuard_exact_two :
    revokeWireGuard ['+'] (confText [] twoClients) = confText [] (without publicKey? ['+'] twoClients) :=
  (revokeWireGuard_exact (by decide) (by decide +kernel) ⟨_, mem_cons_self, by decide +kernel⟩).mpr ⟨rfl,
    by decide +kernel, .inr ⟨twoClients.take 1, _, _, twoClients[1], _, 0, rfl, by decide +kernel, by decide +kernel,
      by decide +kernel, by decide +kernel, rfl, by decide +kernel⟩⟩

/-- A comment at the beginning gets a bracket, and an empty id takes the interface out. -/
theorem revokeWireGuard_changes_more :
    revokeWireGuard ['+'] (confText ['#', '\n'] twoClients) =
        '[' :: confText ['#', '\n'] (without publicKey? ['+'] twoClients) ∧
      (without publicKey? [] twoClients = twoClients ∧
        revokeWireGuard [] (confText [] twoClients) = confText [] twoClients.tail) := by
  decide +kernel

def Peer.body (p : Peer) : List Char := p.part.tail

theorem Peer.body_plain (p : Peer) : '[' ∉ p.body ∧ p.body ≠ [] :=
  ⟨bracket_notMem_configPart p.pubKey_plain.2 p.psk_plain.2 (p.notMem_address rfl (by decide)), by
    rw [body, part, configPart]
    simp [peerLine]⟩

namespace WgConf

variable (w : WgConf)

def erase (clientId : List Char) : WgConf where
  interface := w.interface
  peers := w.peers.eraseP fun p => hasInfix clientId p.body
  isInterface := w.isInterface
  increasing := w.increasing.sublist eraseP_sublist

/-- **Removing.** The first section with the text is taken out. -/
theorem revokeWireGuard_eq {clientId : List Char} (hid : ¬clientId <:+: w.interface) :
    revokeWireGuard clientId w.render = (w.erase clientId).render := by
  have hr : w.render = confText [] (w.interface :: w.peers.map Peer.body) := by
    rw [confText, flatMap_cons, flatMap_map]
    rfl
  have hi : w.interface ≠ [] := by
    obtain ⟨lines, hl⟩ := w.isInterface.ends
    rw [hl]
    simp
  have hb : ∀ body ∈ w.interface :: w.peers.map Peer.body, '[' ∉ body ∧ body ≠ [] :=
    forall_mem_cons.mpr ⟨⟨w.isInterface.bracket, hi⟩, forall_mem_map.mpr fun p _ => p.body_plain⟩
  have hk : ¬hasInfix clientId w.interface = true := fun h => hid (hasInfix_iff.mp h)
  have hs := (revokeWireGuard_spec clientId w.render).2
  rw [hr, parts_confText, flatMap_parts hb, eraseP_cons_of_neg hk, eraseP_map] at hs
  rw [hr, hs (by simp), confText, flatMap_cons, flatMap_map]
  rfl

end WgConf

/-! ## Runs -/

/-- What an event has to meet: the last number of the output is whole, and the client is none of the interface. -/
def Fair (interface : List Char) : Event → List Char → Prop
  | .prepareWireguardConfig a, conf =>
    a.Plain ∧ (query conf = [] ∨ LastNumberWhole (a.delivery.chunks (query conf)))
  | .revokeWireGuard clientId, _ => ¬clientId <:+: interface

/-- All addresses are different, with a last number between 2 and 254. -/
def Distinct (conf : List Char) : Prop :=
  (allowedIPs conf).Nodup ∧ ∀ ip ∈ allowedIPs conf, 2 ≤ lastOctet ip ∧ lastOctet ip ≤ 254

theorem Peer.lastOctet_address (p : Peer) : lastOctet (p.address ++ mask) = p.octet := by
  obtain ⟨-, hd, hi⟩ := number_spec p.octet_range.2
  obtain ⟨s, hs⟩ := p.network_ends
  have hdo : '.' ∉ number p.octet ++ mask := by
    intro h
    rcases mem_append.mp h with h | h
    · exact ne_of_isDigit (hd _ h) rfl rfl
    · revert h
      decide
  have hlast : ((p.address ++ mask).splitOn '.').getLastD [] = number p.octet ++ mask := by
    rw [address, hs, append_assoc, append_assoc, singleton_append, splitOn_append_cons_self,
      splitOn_eq_singleton hdo, getLastD_concat]
  rw [lastOctet, hlast, removeAll_mask hd, hi]

theorem WgConf.distinct (w : WgConf) : Distinct w.render := by
  rw [Distinct, w.allowedIPs_render]
  constructor
  · refine pairwise_map.mpr (w.increasing.imp fun {p q} hlt heq => ?_)
    have ho := congrArg lastOctet heq
    rw [p.lastOctet_address, q.lastOctet_address] at ho
    omega
  · intro ip hip
    obtain ⟨p, -, rfl⟩ := mem_map.mp hip
    have hr := p.octet_range
    rw [p.lastOctet_address]
    omega

def Rendered (interface conf : List Char) : Prop := ∃ w : WgConf, w.interface = interface ∧ conf = w.render

theorem Rendered.step {interface conf : List Char} {e : Event} (hfa : Fair interface e conf)
    (h : Rendered interface conf) :
    Rendered interface (step e conf) := by
  obtain ⟨w, rfl, rfl⟩ := h
  cases e with
  | prepareWireguardConfig a =>
    rcases w.prepareWireguardConfig_eq hfa.1 hfa.2 with ⟨-, heq⟩ | ⟨p, hp, -, heq⟩
    · exact ⟨w, rfl, congrArg Prod.snd heq⟩
    · exact ⟨w.concat p hp, rfl, congrArg Prod.snd heq⟩
  | revokeWireGuard clientId => exact ⟨w.erase clientId, rfl, w.revokeWireGuard_eq hfa⟩

/-- **Addresses.** In every run from a configuration without peers, all addresses are different; a client that is added
gets one more such address, or there is none left and nothing is changed. -/
theorem run_addresses_distinct {interface : List Char} (hinterface : IsInterface interface) {events : List Event}
    (hfair : Runs.Guarded step (Fair interface) events ('[' :: interface)) :
    let conf := Runs.run step events ('[' :: interface)
    Distinct conf ∧ ∀ a, Fair interface (.prepareWireguardConfig a) conf →
      prepareWireguardConfig a conf = (some .AddressPoolError, conf) ∨
        ((prepareWireguardConfig a conf).1 = none ∧ Distinct (prepareWireguardConfig a conf).2 ∧
          ∃ ip, allowedIPs (prepareWireguardConfig a conf).2 = allowedIPs conf ++ [ip]) := by
  have hs : Rendered interface ('[' :: interface) :=
    ⟨⟨interface, [], hinterface, List.Pairwise.nil⟩, rfl, (append_nil _).symm⟩
  obtain ⟨w, rfl, hw⟩ := Runs.run_invariant_of_guarded (fun _ _ => Rendered.step) events hfair hs
  intro conf
  rw [show conf = w.render from hw]
  refine ⟨w.distinct, fun a ha => ?_⟩
  rcases w.prepareWireguardConfig_eq ha.1 ha.2 with ⟨-, heq⟩ | ⟨p, hp, -, heq⟩
  · exact .inl heq
  · refine .inr ?_
    rw [heq]
    refine ⟨rfl, (w.concat p hp).distinct, p.address ++ mask, ?_⟩
    rw [WgConf.allowedIPs_render, WgConf.allowedIPs_render, WgConf.concat, map_append]
    rfl

/-! ## Two and three clients -/

/-- The output is cut at a place; a long one comes byte by byte. -/
def Delivery.cutAt (n : Nat) : Delivery where
  chunks output :=
    if 0 < n ∧ n < output.length ∧ output.length ≤ 2048 then [output.take n, output.drop n]
      else output.map fun c => [c]
  flatten output := by
    split
    · simp
    · exact flatMap_singleton' output
  sizes output chunk hchunk := by
    split at hchunk
    · rename_i h
      rcases mem_pair.mp hchunk with rfl | rfl
      · exact ⟨ne_nil_of_length_pos (by rw [length_take]; omega), by rw [length_take]; omega⟩
      · exact ⟨ne_nil_of_length_pos (by rw [length_drop]; omega), by rw [length_drop]; omega⟩
    · obtain ⟨c, -, rfl⟩ := mem_map.mp hchunk
      simp

/-- A client of the subnet 10.8.1.0 with a key of one character. -/
def Add.ofKey (key : Char) (d : Delivery) : Add := ⟨[key], [key], ['p'], "10.8.1.0".toList, d⟩

def interfaceBody : List Char := "Interface]\nAddress = 10.8.1.0/24\n".toList

theorem interfaceBody_isInterface : IsInterface interfaceBody where
  bracket := by decide
  ends := ⟨"Interface]\nAddress = 10.8.1.0/24".toList, rfl⟩
  noAddress h := absurd (hasInfix_iff.mpr h) (by decide)

theorem Add.ofKey_plain (d : Delivery) : (Add.ofKey 'a' d).Plain ∧ (Add.ofKey 'b' d).Plain := by
  have ha : "10.8.1.0".toList.all (fun c => c.isDigit = true ∨ c = '.') = true := by decide
  have hd : ∀ c ∈ "10.8.1.0".toList, c.isDigit = true ∨ c = '.' := fun c hc =>
    of_decide_eq_true (all_eq_true.mp ha c hc)
  exact ⟨⟨by simp [ofKey], by simp [ofKey], by simp [ofKey], by simp [ofKey], by simp only [ofKey]; decide, hd⟩,
    ⟨by simp [ofKey], by simp [ofKey], by simp [ofKey], by simp [ofKey], by simp only [ofKey]; decide, hd⟩⟩

def oneClient : List (List Char) :=
  [interfaceBody, "Peer]\nPublicKey = +\nPresharedKey = p\nAllowedIPs = 10.8.1.2/32\n\n".toList]

/-- A client behind one that is there already. -/
theorem revokeWireGuard_added_second :
    prepareWireguardConfig (.ofKey 'z' (.cutAt 24)) (confText [] oneClient) = (none, confText [] oneClient ++
        "[Peer]\nPublicKey = z\nPresharedKey = p\nAllowedIPs = 10.8.1.3/32\n\n".toList) ∧
      revokeWireGuard ['z'] (prepareWireguardConfig (.ofKey 'z' (.cutAt 24)) (confText [] oneClient)).2 =
        confText [] oneClient :=
  ⟨by
    decide +kernel, revokeWireGuard_added oneClient (by simp [oneClient]) (by decide +kernel) (.ofKey 'z' (.cutAt 24))
    (by simp [Add.ofKey]) (by simp [Add.ofKey]) (by simp only [Add.ofKey]; decide)
    fun h => absurd (hasInfix_iff.mpr h) (by decide +kernel)⟩

/-- The output of the query is cut behind its mask when the second client is added; then the first one is removed. -/
theorem run_addresses_distinct_two :
    let events := [.prepareWireguardConfig (.ofKey 'a' (.cutAt 24)), .prepareWireguardConfig (.ofKey 'b' (.cutAt 24)),
      .revokeWireGuard ['=', ' ', 'a']]
    let conf := Runs.run step events ('[' :: interfaceBody)
    Distinct conf ∧ ∀ a, Fair interfaceBody (.prepareWireguardConfig a) conf →
      prepareWireguardConfig a conf = (some .AddressPoolError, conf) ∨
        ((prepareWireguardConfig a conf).1 = none ∧ Distinct (prepareWireguardConfig a conf).2 ∧
          ∃ ip, allowedIPs (prepareWireguardConfig a conf).2 = allowedIPs conf ++ [ip]) := by
  have hw : LastNumberWhole ((Delivery.cutAt 24).chunks
      (query (step (.prepareWireguardConfig (.ofKey 'a' (.cutAt 24))) ('[' :: interfaceBody)))) :=
    ⟨[], "AllowedIPs = 10.8.1.".toList, ['2'], [], [['\n']], by
      decide +kernel, by decide, ⟨"AllowedIPs = 10.8.1".toList, by decide⟩, rfl⟩
  have hid : ¬['=', ' ', 'a'] <:+: interfaceBody := fun h => absurd (hasInfix_iff.mpr h) (by decide)
  exact run_addresses_distinct interfaceBody_isInterface
    ⟨⟨(Add.ofKey_plain _).1, .inl (by decide +kernel)⟩, ⟨(Add.ofKey_plain _).2, .inr hw⟩, hid, trivial⟩

/-- The third client gets the address of the second one if the output of the query is cut inside of the last mask. -/
theorem address_given_twice :
    let events := [.prepareWireguardConfig (.ofKey 'a' (.cutAt 24)), .prepareWireguardConfig (.ofKey 'b' (.cutAt 24)),
      .prepareWireguardConfig (.ofKey 'c' (.cutAt 48))]
    allowedIPs (Runs.run step events ('[' :: interfaceBody)) =
      ["10.8.1.2/32".toList, "10.8.1.3/32".toList, "10.8.1.3/32".toList] := by
  decide +kernel

end Cimogus.Client.Wireguard
