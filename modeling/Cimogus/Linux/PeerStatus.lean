import Cimogus.Lib.Runs
import Cimogus.Linux.Uapi
import Cimogus.Net.InetAddress
import Mathlib.Data.List.Induction

/-!
# `getPeerStatus`

How the reply of the WireGuard interface is read. One record is filled line by line and appended when the next key
comes, or at the end. The byte counts go through `toDouble`, and the handshake is added up in 64 bits; what C++ leaves
undefined there is taken as on x86.
-/

namespace Cimogus.Linux.Uapi

open Lib.Runs Lib.Lines Cimogus.Net List

/-! ## Keys and numbers -/

/-- Two digits to a byte, from the end; other characters are passed over. -/
def fromHexDigits : List Nat → List UInt8
  | low :: high :: rest => fromHexDigits rest ++ [UInt8.ofNat (high * 16 + low)]
  | [low] => [UInt8.ofNat low]
  | [] => []

/-- `QByteArray::fromHex`. -/
def fromHex (text : List Char) : List UInt8 := fromHexDigits (text.reverse.filterMap digit?)

def base64Char (n : Nat) : Char := "ABCDEFGHIJKLMNOPQRSTUVWXYZabcdefghijklmnopqrstuvwxyz0123456789+/".toList.getD n '='

def toBase64 : List UInt8 → List Char
  | a :: b :: c :: rest =>
    base64Char (a.toNat / 4) :: base64Char (a.toNat % 4 * 16 + b.toNat / 16) ::
      base64Char (b.toNat % 16 * 4 + c.toNat / 64) ::
      base64Char (c.toNat % 64) :: toBase64 rest
  | [a, b] =>
    [base64Char (a.toNat / 4), base64Char (a.toNat % 4 * 16 + b.toNat / 16), base64Char (b.toNat % 16 * 4), '=']
  | [a] => [base64Char (a.toNat / 4), base64Char (a.toNat % 4 * 16), '=', '=']
  | [] => []

/-- What Qt makes of texts that are not just digits. -/
structure Numbers where
  toDouble : List Char → Int
  toLongLong : List Char → Int

/-- The double next to a number, and of two the even one. -/
def roundDouble (n : Nat) : Nat :=
  let unit := 2 ^ (n.log2 - 52)
  let q := n / unit
  let r := n % unit
  (if unit < 2 * r ∨ 2 * r = unit ∧ q % 2 = 1 then q + 1 else q) * unit

/-- The conversion of a double to `qint64`. -/
def ofDouble (n : Nat) : Int := if n < 2 ^ 63 then n else -2 ^ 63

/-- `toLongLong` of a number, 0 if it is out of range. -/
def longOf (n : Nat) : Int := if n < 2 ^ 63 then n else 0

/-- Arithmetic in `qint64`. -/
def wrap (n : Int) : Int := n.bmod (2 ^ 64)

namespace Numbers

variable (numbers : Numbers)

/-- `qint64` of `value.toDouble()`. -/
def double (text : List Char) : Int :=
  match number 10 text with
  | some n => ofDouble (roundDouble n)
  | none => numbers.toDouble text

/-- `value.toLongLong()`. -/
def longLong (text : List Char) : Int :=
  match number 10 text with
  | some n => longOf n
  | none => numbers.toLongLong text

end Numbers

/-! ## The loop -/

structure PeerStatus where
  pubkey : List Char := []
  handshake : Int := 0
  rxBytes : Int := 0
  txBytes : Int := 0
  deriving DecidableEq

structure StatusScan where
  status : PeerStatus
  peerList : List PeerStatus

section Loop

variable (numbers : Numbers)

/-- The last record goes into the list if it has a key. -/
def StatusScan.flush (s : StatusScan) : List PeerStatus :=
  if s.status.pubkey ≠ [] then s.peerList ++ [s.status] else s.peerList

def readField (name : String) (value : List Char) (s : StatusScan) : StatusScan :=
  let s := if name = "public_key" then ⟨{ pubkey := toBase64 (fromHex value) }, s.flush⟩ else s
  let s := if name = "tx_bytes" then { s with status.txBytes := numbers.double value } else s
  let s := if name = "rx_bytes" then { s with status.rxBytes := numbers.double value } else s
  let s :=
    if name = "last_handshake_time_sec" then
      { s with status.handshake := wrap (s.status.handshake + wrap (numbers.longLong value * 1000)) }
    else s
  if name = "last_handshake_time_nsec" then
    { s with status.handshake := wrap (s.status.handshake + (numbers.longLong value).tdiv 1000000) }
  else s

/-- One line; it is passed over if there is no sign in it, or nothing before the sign. -/
def readLine (line : List Char) (s : StatusScan) : StatusScan :=
  match takeLine '=' line with
  | none => s
  | some (name, value) => if name = [] then s else readField numbers (String.ofList name) value s

def getPeerStatus (reply : List Char) : List PeerStatus :=
  (run (readLine numbers) (reply.splitOn '\n') ⟨{}, []⟩).flush

end Loop

/-! ## Replies -/

/-- A line `name=value`. -/
structure Field where
  name : String
  value : List Char
  name_ne : name.toList ≠ []
  sign : '=' ∉ name.toList
  newline_name : '\n' ∉ name.toList
  newline_value : '\n' ∉ value

def Field.text (f : Field) : List Char := f.name.toList ++ '=' :: f.value

inductive Counter
  | tx
  | rx
  | sec
  | nsec
  deriving DecidableEq

def Counter.name : Counter → String
  | tx => "tx_bytes"
  | rx => "rx_bytes"
  | sec => "last_handshake_time_sec"
  | nsec => "last_handshake_time_nsec"

inductive PeerLine
  | counter (c : Counter) (n : Nat)
  | other (field : Field) (hkey : field.name ≠ "public_key") (hcounter : ∀ c : Counter, field.name ≠ c.name)

namespace PeerLine

def name : PeerLine → String
  | counter c _ => c.name
  | other field _ _ => field.name

def value : PeerLine → List Char
  | counter _ n => Nat.toDigits 10 n
  | other field _ _ => field.value

def text (l : PeerLine) : List Char := l.name.toList ++ '=' :: l.value

def number? (c : Counter) : PeerLine → Option Nat
  | counter c' n => if c' = c then some n else none
  | other _ _ _ => none

end PeerLine

open PeerLine

/-- A key and at most one line for each number, in any order. -/
structure PeerBlock where
  key : List UInt8
  key_ne : key ≠ []
  lines : List PeerLine
  once : ∀ c, (lines.filterMap (number? c)).length ≤ 1

namespace PeerBlock

variable (b : PeerBlock)

def keyText : List Char := "public_key".toList ++ '=' :: (toHex b.key).toList

def number (c : Counter) : Nat := (b.lines.filterMap (number? c)).headD 0

def expected : PeerStatus where
  pubkey := toBase64 b.key
  handshake := (b.number .sec * 1000 + b.number .nsec / 1000000 : Nat)
  rxBytes := b.number .rx
  txBytes := b.number .tx

end PeerBlock

structure Reply where
  interface : List {f : Field // f.name ≠ "public_key"}
  blocks : List PeerBlock

def Reply.lines (r : Reply) : List (List Char) :=
  (r.interface.map fun f => f.1.text) ++ r.blocks.flatMap fun b => b.keyText :: b.lines.map text

def Reply.text (r : Reply) : List Char := ['\n'].intercalate r.lines

/-! ## Keys and numbers are read back -/

theorem fromHex_toHex (bytes : List UInt8) : fromHex (toHex bytes).toList = bytes := by
  induction bytes using List.reverseRecOn with
  | nil => rfl
  | append_singleton bytes b ih =>
    have hb := b.toNat_lt
    rw [fromHex, toHex, String.toList_ofList] at ih ⊢
    rw [flatMap_append, flatMap_singleton, reverse_append]
    simp only [reverse_cons, reverse_nil, nil_append, cons_append, filterMap_cons,
      digit?_digitChar _ (show b.toNat / 16 < 16 by omega), digit?_digitChar _ (show b.toNat % 16 < 16 by omega),
      fromHexDigits]
    rw [ih, show b.toNat / 16 * 16 + b.toNat % 16 = b.toNat by omega, UInt8.ofNat_toNat]

theorem toBase64_ne_nil {bytes : List UInt8} (h : bytes ≠ []) : toBase64 bytes ≠ [] := by
  match bytes with
  | [] => exact absurd rfl h
  | [_] | [_, _] | _ :: _ :: _ :: _ => simp [toBase64]

variable (numbers : Numbers)

variable (n : Nat)

theorem double_toDigits : numbers.double (Nat.toDigits 10 n) = ofDouble (roundDouble n) := by
  rw [Numbers.double, number_toDigits (by decide) (by decide)]

theorem longLong_toDigits : numbers.longLong (Nat.toDigits 10 n) = longOf n := by
  rw [Numbers.longLong, number_toDigits (by decide) (by decide)]

/-! ## One line -/

theorem readLine_field {name : String} {value : List Char} (hna : name.toList ≠ []) (hs : '=' ∉ name.toList)
    (s : StatusScan) :
    readLine numbers (name.toList ++ '=' :: value) s = readField numbers name value s := by
  simp only [readLine, takeLine_cut hs, if_neg hna, String.ofList_toList]

def PeerLine.apply (l : PeerLine) (status : PeerStatus) : PeerStatus :=
  match l with
  | counter .tx n => { status with txBytes := ofDouble (roundDouble n) }
  | counter .rx n => { status with rxBytes := ofDouble (roundDouble n) }
  | counter .sec n => { status with handshake := wrap (status.handshake + wrap (longOf n * 1000)) }
  | counter .nsec n => { status with handshake := wrap (status.handshake + (longOf n).tdiv 1000000) }
  | other _ _ _ => status

structure Plain (name : String) : Prop where
  ne_nil : name.toList ≠ []
  sign : '=' ∉ name.toList
  newline : '\n' ∉ name.toList
  ne_key : name ≠ "public_key"

theorem Counter.plain (c : Counter) : Plain c.name := by
  cases c <;> exact ⟨by decide, by decide, by decide, by decide⟩

variable (b : PeerBlock) (l : PeerLine)

theorem PeerLine.plain : Plain l.name := by
  cases l with
  | counter c n => exact c.plain
  | other field hkey hcounter => exact ⟨field.name_ne, field.sign, field.newline_name, hkey⟩

variable (s : StatusScan)

theorem readLine_peerLine : readLine numbers l.text s = ⟨l.apply s.status, s.peerList⟩ := by
  rw [text, readLine_field numbers l.plain.ne_nil l.plain.sign]
  cases l with
  | counter c n =>
    cases c <;> simp [name, value, Counter.name, readField, apply, double_toDigits, longLong_toDigits]
  | other field hkey hcounter =>
    have htx := hcounter .tx
    have hrx := hcounter .rx
    have hs := hcounter .sec
    have hns := hcounter .nsec
    simp only [Counter.name] at htx hrx hs hns
    simp only [name, value, readField, hkey, htx, hrx, hs, hns, if_false, apply]

theorem readLine_keyText : readLine numbers b.keyText s = ⟨{ pubkey := toBase64 b.key }, s.flush⟩ := by
  have hfi := @readLine_field numbers "public_key" (toHex b.key).toList (by decide) (by decide) s
  refine hfi.trans ?_
  simp [readField, fromHex_toHex]

theorem readLine_interface {f : Field} (h : f.name ≠ "public_key") (s : StatusScan) :
    (readLine numbers f.text s).status.pubkey = s.status.pubkey ∧
    (readLine numbers f.text s).peerList = s.peerList := by
  rw [Field.text, readLine_field numbers f.name_ne f.sign]
  simp only [readField, h, if_false]
  constructor
  · split <;> split <;> split <;> split <;> rfl
  · split <;> split <;> split <;> split <;> rfl

/-! ## Whole replies -/

def PeerBlock.status (b : PeerBlock) : PeerStatus := run apply b.lines { pubkey := toBase64 b.key }

theorem pubkey_apply (status : PeerStatus) : (l.apply status).pubkey = status.pubkey := by
  cases l with
  | counter c n => cases c <;> rfl
  | other field hkey hcounter => rfl

theorem pubkey_status : b.status.pubkey = toBase64 b.key :=
  @run_invariant _ _ _ (fun status => status.pubkey = toBase64 b.key)
    (fun l status h => (pubkey_apply l status).trans h) b.lines _ rfl

variable (lines : List PeerLine)

theorem run_readLine_lines (s : StatusScan) :
    run (readLine numbers) (lines.map text) s = ⟨run apply lines s.status, s.peerList⟩ := by
  induction lines generalizing s with
  | nil => rfl
  | cons l lines ih => rw [map_cons, run_cons, readLine_peerLine, ih, run_cons]

open PeerBlock

theorem run_readLine_block : run (readLine numbers) (b.keyText :: b.lines.map text) s = ⟨b.status, s.flush⟩ := by
  rw [run_cons, readLine_keyText, run_readLine_lines, status]

theorem flush_status (peerList : List PeerStatus) :
    StatusScan.flush ⟨b.status, peerList⟩ = peerList ++ [b.status] := by
  rw [StatusScan.flush, if_pos]
  rw [pubkey_status]
  exact toBase64_ne_nil b.key_ne

/-- Each block adds its record, made of its own lines. -/
theorem flush_run_blocks (blocks : List PeerBlock) (s : StatusScan) :
    (run (readLine numbers) (blocks.flatMap fun b => b.keyText :: b.lines.map text) s).flush = s.flush ++
    blocks.map status := by
  induction blocks generalizing s with
  | nil => rw [flatMap_nil, run_nil, map_nil, append_nil]
  | cons b blocks ih =>
    rw [flatMap_cons, run_append, run_readLine_block, ih, flush_status, map_cons, append_assoc, singleton_append]

theorem flush_run_interface (fields : List {f : Field // f.name ≠ "public_key"}) :
    (run (readLine numbers) (fields.map fun f => f.1.text) ⟨{}, []⟩).flush = [] := by
  have hi : ∀ s : StatusScan, s.status.pubkey = [] ∧ s.peerList = [] →
      (run (readLine numbers) (fields.map fun f => f.1.text) s).status.pubkey = [] ∧
        (run (readLine numbers) (fields.map fun f => f.1.text) s).peerList = [] := by
    induction fields with
    | nil => exact fun s hs => hs
    | cons f fields ih =>
      intro s hs
      have hst := readLine_interface numbers f.2 s
      exact ih _ ⟨hst.1.trans hs.1, hst.2.trans hs.2⟩
  obtain ⟨hkey, hl⟩ := hi ⟨{}, []⟩ ⟨rfl, rfl⟩
  rw [StatusScan.flush, if_neg (not_not.mpr hkey), hl]

theorem newline_notMem_text {name : String} {value : List Char} (hna : '\n' ∉ name.toList) (hv : '\n' ∉ value) :
    '\n' ∉ name.toList ++ '=' :: value := by
  rw [mem_append, mem_cons]
  rintro (h | h | h)
  · exact hna h
  · cases h
  · exact hv h

theorem newline_notMem_value : '\n' ∉ l.value := by
  cases l with
  | counter c n =>
    intro hm
    exact absurd (Nat.isDigit_of_mem_toDigits (by decide) (by decide) hm) (by decide)
  | other field hkey hcounter => exact field.newline_value

theorem newline_notMem_lines (r : Reply) : ∀ line ∈ r.lines, '\n' ∉ line := by
  intro line hli
  rcases mem_append.mp hli with hi | hblocks
  · obtain ⟨f, -, rfl⟩ := mem_map.mp hi
    exact newline_notMem_text f.1.newline_name f.1.newline_value
  · obtain ⟨b, -, hb⟩ := mem_flatMap.mp hblocks
    rcases mem_cons.mp hb with rfl | hl
    · exact @newline_notMem_text "public_key" _ (by decide) (Config.newline_notMem_toHex b.key)
    · obtain ⟨l, -, rfl⟩ := mem_map.mp hl
      exact newline_notMem_text l.plain.newline (newline_notMem_value l)

/-- **One record for each peer, from the lines of that peer alone.** -/
theorem getPeerStatus_reply (r : Reply) : getPeerStatus numbers r.text = r.blocks.map status := by
  have hr : (run (readLine numbers) r.lines ⟨{}, []⟩).flush = r.blocks.map status := by
    rw [Reply.lines, run_append, flush_run_blocks, flush_run_interface, nil_append]
  rw [getPeerStatus, Reply.text]
  by_cases hl : r.lines = []
  · -- an empty reply is one empty line, which is passed over
    rw [hl] at hr ⊢
    exact hr
  · rw [splitOn_intercalate '\n' (newline_notMem_lines r) hl, hr]

/-! ## The numbers of a record -/

theorem number?_eq_some {c : Counter} {l : PeerLine} {n : Nat} (h : l.number? c = some n) : l = .counter c n := by
  cases l with
  | counter c' m =>
    rw [number?] at h
    split at h
    · rename_i hc
      rw [hc, Option.some.inj h]
    · cases h
  | other field hkey hcounter => cases h

variable {value : Nat → Int}

theorem get_run {c : Counter} {get : PeerStatus → Int} (hs : ∀ n status, get ((counter c n).apply status) = value n)
    (hk : ∀ (l : PeerLine) status, l.number? c = none → get (l.apply status) = get status) {lines : List PeerLine}
    (ho : (lines.filterMap (number? c)).length ≤ 1) (status : PeerStatus) :
    get (run apply lines status) = ((lines.filterMap (number? c)).head?.map value).getD (get status) := by
  induction lines generalizing status with
  | nil => rfl
  | cons l lines ih =>
    rw [run_cons]
    cases hn : l.number? c with
    | none =>
      rw [filterMap_cons_none hn] at ho ⊢
      rw [ih ho, hk l status hn]
    | some n =>
      obtain rfl := number?_eq_some hn
      rw [filterMap_cons_some hn] at ho ⊢
      have hni : lines.filterMap (number? c) = [] := eq_nil_of_length_eq_zero (by simpa using ho)
      rw [ih (by rw [hni]; exact Nat.zero_le _), hni, hs]
      rfl

theorem PeerBlock.getD_number (hze : value 0 = 0) (b : PeerBlock) (c : Counter) :
    ((b.lines.filterMap (number? c)).head?.map value).getD 0 = value (b.number c) := by
  rw [number]
  cases b.lines.filterMap (number? c) with
  | nil => exact hze.symm
  | cons n rest => rfl

theorem txBytes_status : b.status.txBytes = ofDouble (roundDouble (b.number .tx)) := by
  have hk : ∀ (l : PeerLine) status, l.number? .tx = none → (l.apply status).txBytes = status.txBytes := by
    intro l status h
    cases l with
    | counter c n => cases c <;> first | rfl | cases h
    | other field hkey hcounter => rfl
  exact (get_run (fun _ _ => rfl) hk (b.once .tx) _).trans
    (@PeerBlock.getD_number (ofDouble <| roundDouble ·) rfl b .tx)

theorem rxBytes_status : b.status.rxBytes = ofDouble (roundDouble (b.number .rx)) := by
  have hk : ∀ (l : PeerLine) status, l.number? .rx = none → (l.apply status).rxBytes = status.rxBytes := by
    intro l status h
    cases l with
    | counter c n => cases c <;> first | rfl | cases h
    | other field hkey hcounter => rfl
  exact (get_run (fun _ _ => rfl) hk (b.once .rx) _).trans
    (@PeerBlock.getD_number (ofDouble <| roundDouble ·) rfl b .rx)

def PeerLine.time : PeerLine → Int
  | counter .sec n => longOf n * 1000
  | counter .nsec n => (longOf n).tdiv 1000000
  | _ => 0

theorem handshake_apply {status : PeerStatus} (h : wrap status.handshake = status.handshake) :
    (l.apply status).handshake = wrap (status.handshake + l.time) := by
  have hze : wrap (status.handshake + 0) = status.handshake := by rw [add_zero, h]
  cases l with
  | counter c n =>
    cases c with
    | tx | rx => exact hze.symm
    | sec => exact Int.add_bmod_bmod
    | nsec => rfl
  | other field hkey hcounter => exact hze.symm

theorem handshake_run {status : PeerStatus} (h : wrap status.handshake = status.handshake) :
    (run apply lines status).handshake = wrap (status.handshake + (lines.map time).sum) := by
  induction lines generalizing status with
  | nil => rw [run_nil, map_nil, sum_nil, add_zero, h]
  | cons l lines ih =>
    have ha := handshake_apply l h
    rw [run_cons, ih (by rw [ha]; exact Int.bmod_bmod), ha, map_cons, sum_cons, ← add_assoc]
    exact Int.bmod_add_bmod

theorem sum_time : (lines.map time).sum = ((lines.filterMap (number? .sec)).map fun n => longOf n * 1000).sum +
        ((lines.filterMap (number? .nsec)).map fun n => (longOf n).tdiv 1000000).sum := by
  induction lines with
  | nil => rfl
  | cons l lines ih =>
    rw [map_cons, sum_cons, ih]
    cases l with
    | counter c n =>
      cases c <;> simp [time, number?] <;> ring
    | other field hkey hcounter => simp [time, number?, filterMap_cons]

theorem PeerBlock.sum_number (hze : value 0 = 0) (b : PeerBlock) (c : Counter) :
    ((b.lines.filterMap (number? c)).map value).sum = value (b.number c) := by
  have ho := b.once c
  rw [number]
  match hnu : b.lines.filterMap (number? c) with
  | [] => exact hze.symm
  | [n] => rw [map_singleton, sum_singleton, headD_cons]
  | _ :: _ :: _ =>
    rw [hnu] at ho
    simp at ho

theorem handshake_status :
    b.status.handshake = wrap (longOf (b.number .sec) * 1000 + (longOf (b.number .nsec)).tdiv 1000000) := by
  rw [status, handshake_run b.lines rfl, sum_time, @PeerBlock.sum_number (longOf · * 1000) rfl b .sec,
    @PeerBlock.sum_number (fun n => (longOf n).tdiv 1000000) rfl b .nsec, zero_add]

/-! ## Exact numbers -/

/-- A number that a double and `qint64` have: at most 53 bits before the zeros at the end. -/
def Representable (n : Nat) : Prop := n < 2 ^ 63 ∧ 2 ^ (n.log2 - 52) ∣ n

theorem roundDouble_eq_iff : roundDouble n = n ↔ 2 ^ (n.log2 - 52) ∣ n := by
  constructor
  · intro h
    have hd : 2 ^ (n.log2 - 52) ∣ roundDouble n := Nat.dvd_mul_left _ _
    rwa [h] at hd
  · intro h
    simp only [roundDouble, Nat.mod_eq_zero_of_dvd h]
    rw [if_neg (by omega), Nat.div_mul_cancel h]

theorem ofDouble_roundDouble_iff : ofDouble (roundDouble n) = n ↔ Representable n := by
  rw [Representable, ← roundDouble_eq_iff, ofDouble]
  split
  · omega
  · omega

theorem wrap_eq_self {v : Nat} (h : v < 2 ^ 63) : wrap v = v := by
  exact Int.bmod_eq_of_le (by omega) (by omega)

theorem handshake_iff (sec nsec : Nat) :
    wrap (longOf sec * 1000 + (longOf nsec).tdiv 1000000) = (sec * 1000 + nsec / 1000000 : Nat) ↔
      sec * 1000 + nsec / 1000000 < 2 ^ 63 ∧ nsec < 2 ^ 63 := by
  constructor
  · intro h
    have hlt : wrap (longOf sec * 1000 + (longOf nsec).tdiv 1000000) < (2 ^ 64 + 1) / 2 :=
      Int.bmod_lt (Nat.two_pow_pos 64)
    have hv : sec * 1000 + nsec / 1000000 < 2 ^ 63 := by omega
    have hse : sec * 1000 < 2 ^ 63 := lt_of_le_of_lt (Nat.le_add_right _ _) hv
    have hw : wrap ((sec : Int) * 1000) = sec * 1000 := by
      have hs := wrap_eq_self hse
      rwa [Nat.cast_mul] at hs
    refine ⟨hv, not_le.mp fun hns => ?_⟩
    -- nanoseconds out of range are read as 0
    have hp : 0 < nsec / 1000000 := Nat.div_pos (le_trans (by decide) hns) (by decide)
    rw [longOf, if_pos (lt_of_le_of_lt (Nat.le_mul_of_pos_right sec (by decide)) hse), longOf, if_neg (not_lt.mpr hns),
      Int.zero_tdiv, add_zero, Nat.cast_add] at h
    omega
  · rintro ⟨hv, hns⟩
    rw [longOf, if_pos (by omega), longOf, if_pos hns]
    have hd : (nsec : Int).tdiv 1000000 = (nsec / 1000000 : Nat) := rfl
    rw [← wrap_eq_self hv]
    rfl

structure PeerBlock.Fits (b : PeerBlock) : Prop where
  tx : Representable (b.number .tx)
  rx : Representable (b.number .rx)
  handshake : b.number .sec * 1000 + b.number .nsec / 1000000 < 2 ^ 63
  nsec : b.number .nsec < 2 ^ 63

theorem status_eq_expected_iff : b.status = b.expected ↔ b.Fits := by
  have hs : b.status = b.expected ↔ b.status.txBytes = b.number .tx ∧ b.status.rxBytes = b.number .rx ∧
      b.status.handshake = (b.number .sec * 1000 + b.number .nsec / 1000000 : Nat) := by
    have hkey := pubkey_status b
    constructor
    · intro h
      rw [h]
      exact ⟨rfl, rfl, rfl⟩
    · rintro ⟨htx, hrx, ht⟩
      generalize b.status = status at *
      cases status
      simp only at hkey htx hrx ht
      rw [hkey, htx, hrx, ht]
      rfl
  rw [hs, txBytes_status, rxBytes_status, handshake_status, ofDouble_roundDouble_iff, ofDouble_roundDouble_iff,
    handshake_iff]
  constructor
  · rintro ⟨htx, hrx, ht, hns⟩
    exact ⟨htx, hrx, ht, hns⟩
  · intro h
    exact ⟨h.tx, h.rx, h.handshake, h.nsec⟩

/-- **The status of the peers.** One record for each peer in order, from the lines of that peer alone, whatever its
numbers are; the records have the numbers of the reply just when the byte counts fit a double and the handshake fits 64
bits. -/
theorem getPeerStatus_exact_iff (numbers : Numbers) (r : Reply) : getPeerStatus numbers r.text = r.blocks.map status ∧
      (getPeerStatus numbers r.text = r.blocks.map expected ↔ ∀ b ∈ r.blocks, b.Fits) := by
  refine ⟨getPeerStatus_reply numbers r, ?_⟩
  rw [getPeerStatus_reply, map_inj_left]
  exact forall₂_congr fun b _ => status_eq_expected_iff b

/-- A peer that has sent 2⁵³ + 1 bytes, and that is all. -/
def oddPeer : PeerBlock where
  key := [1]
  key_ne := by decide
  lines := [.counter .tx 9007199254740993]
  once c := by cases c <;> decide

/-- Its count comes out even. -/
theorem getPeerStatus_odd : getPeerStatus ⟨fun _ => 0, fun _ => 0⟩ (Reply.text ⟨[], [oddPeer]⟩) =
        [{ pubkey := "AQ==".toList, txBytes := 9007199254740992 }] ∧
      getPeerStatus ⟨fun _ => 0, fun _ => 0⟩ (Reply.text ⟨[], [oddPeer]⟩) ≠ [oddPeer].map expected := by
  have hb : Nat.log2 9007199254740993 - 52 = 1 := by decide +kernel
  constructor
  · decide +kernel
  · rw [getPeerStatus_reply, ne_eq, map_inj_left]
    intro h
    obtain ⟨⟨-, hd⟩, -⟩ := (status_eq_expected_iff oddPeer).mp (h oddPeer (mem_singleton.mpr rfl))
    rw [show oddPeer.number .tx = 9007199254740993 from rfl, hb] at hd
    exact absurd hd (by decide)

end Cimogus.Linux.Uapi
