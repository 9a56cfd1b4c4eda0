import Cimogus.Lib.Buffers
import Cimogus.Lib.Octets
import Cimogus.Linux.RouteMonitor

/-!
# The messages of the route monitor of Linux

`rtmSendRoute` writes its request into a buffer of 64 bytes: the header of netlink, the `rtmsg` with the family of the
destination, and the attributes, each of which `nlmsg_append_attr` leaves out without a word if the buffer is too small
for it. The numbers are in the order of x86.
-/

namespace Cimogus.Linux

open Daemon (IPAddress QHostAddress)
open Lib.Buffers List

/-! ## Netlink -/

/-- `NLMSG_ALIGN` and `RTA_ALIGN`. -/
def align (n : Nat) : Nat := (n + 3) / 4 * 4

/-- `NLMSG_LENGTH`: the `nlmsghdr` has 16 bytes. -/
def nlmsgLength (n : Nat) : Nat := 16 + n

def nlmsgSpace (n : Nat) : Nat := align (nlmsgLength n)

/-- `RTA_LENGTH`: the `rtattr` has 4 bytes. -/
def rtaLength (n : Nat) : Nat := 4 + n

def rtaSpace (n : Nat) : Nat := align (rtaLength n)

/-- `sizeof(struct rtmsg)`. -/
def rtmsgSize : Nat := 12

def rtmMaxSize : Nat := rtmsgSize + 2 * rtaSpace 4 + rtaSpace 16

/-- `sizeof(buf)`. -/
def bufSize : Nat := nlmsgSpace rtmMaxSize

inductive RtaType
  | RTA_DST
  | RTA_OIF
  | RTA_GATEWAY
  | RTA_PRIORITY
  deriving DecidableEq

def RtaType.code : RtaType → Nat
  | .RTA_DST => 1
  | .RTA_OIF => 4
  | .RTA_GATEWAY => 5
  | .RTA_PRIORITY => 6

def RtmAction.code : RtmAction → Nat
  | .RTM_NEWROUTE => 24
  | .RTM_DELROUTE => 25

def RtnType.code : RtnType → Nat
  | .RTN_UNICAST => 1
  | .RTN_THROW => 9

/-- `AF_INET` and `AF_INET6`. -/
def family : QHostAddress → Nat
  | .ipv6 _ => 10
  | .ipv4 _ | .null => 2

def octets {w : Nat} (a : BitVec w) : Buffer := (List.range (w / 8)).map fun i => ⟨Lib.Octets.octet a i⟩

/-- `ip6` or `ip4`. -/
def addressBytes : QHostAddress → Buffer
  | .ipv6 a => octets a
  | .ipv4 a => octets a
  | .null => zeros 4

def nlmsgAppendAttr (attrtype : RtaType) (attrdata : Buffer) (buf : Buffer) : Option Buffer := do
  let nlmsgLen := readLe 0 4 buf
  let newlen := align nlmsgLen + rtaSpace attrdata.length
  if newlen ≤ bufSize then
    let attr := align nlmsgLen
    let buf ← write (attr + 2) (le 2 attrtype.code) buf
    let buf ← write attr (le 2 (rtaLength attrdata.length)) buf
    let buf ← write (attr + 4) attrdata buf
    write 0 (le 4 newlen) buf
  else some buf

/-! ## The messages -/

namespace RouteMonitor

inductive RouteCall
  | insertRoute
  | deleteRoute
  | addExclusionRoute
  | deleteExclusionRoute
  deriving DecidableEq

namespace RouteCall

def action : RouteCall → RtmAction
  | .insertRoute | .addExclusionRoute => .RTM_NEWROUTE
  | .deleteRoute | .deleteExclusionRoute => .RTM_DELROUTE

/-- `NLM_F_REQUEST` and `NLM_F_ACK`, and `NLM_F_CREATE` and `NLM_F_REPLACE` for a new route. -/
def flags : RouteCall → Nat
  | .insertRoute | .addExclusionRoute => 0x505
  | .deleteRoute | .deleteExclusionRoute => 0x005

def type : RouteCall → RtnType
  | .insertRoute | .deleteRoute => .RTN_UNICAST
  | .addExclusionRoute | .deleteExclusionRoute => .RTN_THROW

end RouteCall

def startMessage (call : RouteCall) (dst : AllowedIp) (pid seq : Nat) : Option Buffer := do
  let buf := zeros bufSize
  let buf ← write 0 (le 4 (nlmsgLength rtmsgSize)) buf
  let buf ← write 4 (le 2 call.action.code) buf
  let buf ← write 6 (le 2 call.flags) buf
  let buf ← write 12 (le 4 pid) buf
  let buf ← write 8 (le 4 seq) buf
  let buf ← write 17 (le 1 dst.cidr.toNat) buf
  let buf ← write 16 (le 1 (family dst.address)) buf
  let buf ← write 23 (le 1 call.type.code) buf
  -- `RT_TABLE_UNSPEC`, `RTPROT_BOOT` and `RT_SCOPE_UNIVERSE`
  let buf ← write 20 (le 1 0) buf
  let buf ← write 21 (le 1 3) buf
  write 22 (le 1 0) buf

/-- The buffer that `rtmSendRoute` sends the first `nlmsg_len` bytes of; `none` if it sends nothing. -/
def message (call : RouteCall) (ip : IPAddress) (r : Netlink) (pid seq : Nat) (s : RouteMonitor) : Option Buffer := do
  let dst ← buildAllowedIp ip
  let buf ← startMessage call dst pid seq
  let buf ← nlmsgAppendAttr .RTA_DST (addressBytes dst.address) buf
  match call.type with
  | .RTN_UNICAST =>
    if r.index = 0 then none
    else
      let buf ← nlmsgAppendAttr .RTA_OIF (le 4 r.index) buf
      nlmsgAppendAttr .RTA_PRIORITY (le 4 1) buf
  | .RTN_THROW =>
    let buf ← nlmsgAppendAttr .RTA_GATEWAY (octets (s.gatewayAttr r)) buf
    let buf ← nlmsgAppendAttr .RTA_PRIORITY (le 4 0) buf
    write 23 (le 1 RtnType.RTN_UNICAST.code) buf

end RouteMonitor

/-! ## What the kernel reads -/

structure Attr where
  offset : Nat
  type : Nat
  data : Buffer
  deriving DecidableEq

/-- The walk over the attributes with `RTA_OK` and `RTA_NEXT`; `n` bounds their number. -/
def attributesFrom (b : Buffer) : Nat → Nat → List Attr
  | 0, _ => []
  | n + 1, o =>
    let left := readLe 0 4 b - o
    let rtaLen := readLe o 2 b
    if 4 ≤ left ∧ 4 ≤ rtaLen ∧ rtaLen ≤ left then
      ⟨o, readLe (o + 2) 2 b, read (o + 4) (rtaLen - 4) b⟩ :: attributesFrom b n (o + align rtaLen)
    else []

def attributesOf (b : Buffer) : List Attr := attributesFrom b b.length (nlmsgLength rtmsgSize)

def rtmFamily (b : Buffer) : Nat := readLe 16 1 b

def Attr.isAddress (a : Attr) : Bool := a.type = RtaType.RTA_DST.code || a.type = RtaType.RTA_GATEWAY.code

def addressLength (family : Nat) : Nat := if family = 10 then 16 else 4

/-! ## Appending -/

def attrBytes (t : RtaType) (d : Buffer) : Buffer := le 2 (4 + d.length) ++ (le 2 t.code ++ d)

/-- A message with `body` behind its length, and zeros up to the end of the buffer. -/
def shape (body : Buffer) (n : Nat) : Buffer := le 4 (4 + body.length) ++ (body ++ zeros n)

variable {body d : Buffer} {n : Nat} {t : RtaType}

theorem length_attrBytes (t : RtaType) (d : Buffer) : (attrBytes t d).length = 4 + d.length := by
  simp only [attrBytes, length_append, length_le]
  omega

theorem align_of_mod {n : Nat} (h : n % 4 = 0) : align n = n := by
  unfold align
  omega

theorem bufSize_eq : bufSize = 64 := rfl

theorem length_shape (body : Buffer) (n : Nat) : (shape body n).length = 4 + body.length + n := by
  rw [shape, length_append, length_append, length_le, length_zeros, Nat.add_assoc]

theorem readLe_shape (h : 4 + body.length + n = bufSize) : readLe 0 4 (shape body n) = 4 + body.length := by
  have hr := read_first (le 4 (4 + body.length)) (body ++ zeros n)
  rw [length_le] at hr
  rw [bufSize_eq] at h
  rw [readLe, shape, hr, leValue_le_of_lt (by omega)]

theorem nlmsgAppendAttr_shape (hsi : 4 + body.length + (4 + d.length + n) = bufSize) (hbody : body.length % 4 = 0)
    (hd : d.length % 4 = 0) :
    nlmsgAppendAttr t d (shape body (4 + d.length + n)) = some (shape (body ++ attrBytes t d) n) := by
  have hlen : align (4 + body.length) = 4 + body.length := align_of_mod (by omega)
  have hsp : rtaSpace d.length = 4 + d.length := align_of_mod (show (4 + d.length) % 4 = 0 by omega)
  have hp : 4 + body.length = (le 4 (4 + body.length) ++ body).length := by
    rw [length_append, length_le]
  have hs : shape body (4 + d.length + n) = (le 4 (4 + body.length) ++ body) ++ (zeros (4 + d.length) ++ zeros n) := by
    rw [shape, zeros_add, append_assoc]
  have ht : write 2 (le 2 t.code) (zeros (4 + d.length)) = some (zeros 2 ++ (le 2 t.code ++ zeros d.length)) := by
    rw [show zeros (4 + d.length) = zeros 2 ++ (zeros 2 ++ zeros d.length) by
      rw [← zeros_add, ← zeros_add]; congr 1; omega]
    exact write_whole rfl (length_le 2 _)
  have hl : write 0 (le 2 (rtaLength d.length)) (zeros 2 ++ (le 2 t.code ++ zeros d.length)) =
      some (le 2 (4 + d.length) ++ (le 2 t.code ++ zeros d.length)) :=
        write_whole (a := []) (s := zeros 2) rfl (length_le 2 _)
  have hda : write 4 d (le 2 (4 + d.length) ++ (le 2 t.code ++ zeros d.length)) = some (attrBytes t d) := by
    have hw :=
      write_whole (a := le 2 (4 + d.length) ++ le 2 t.code) (c := []) (s := zeros d.length) (w := d) (o := 4) rfl
    simpa [attrBytes] using hw
  have hnew : write 0 (le 4 (4 + body.length + (4 + d.length)))
      ((le 4 (4 + body.length) ++ body) ++ (attrBytes t d ++ zeros n)) =
      some (shape (body ++ attrBytes t d) n) := by
    have hw := write_whole (a := []) (c := body ++ (attrBytes t d ++ zeros n)) (s := le 4 (4 + body.length))
      (w := le 4 (4 + body.length + (4 + d.length))) (o := 0) rfl (by rw [length_le, length_le])
    simpa [shape, length_attrBytes, Nat.add_assoc] using hw
  simp only [nlmsgAppendAttr, readLe_shape hsi, hlen, hsp, Option.bind_eq_bind]
  rw [if_pos (by omega), hs, write_segment (congrArg (· + 2) hp) ht, Option.bind_some,
    write_segment (k := 0) hp hl, Option.bind_some, write_segment (congrArg (· + 4) hp) hda, Option.bind_some, hnew]

def attrsBytes (attrs : List (RtaType × Buffer)) : Buffer := attrs.flatMap fun (t, d) => attrBytes t d

theorem length_attrsBytes_cons (attr : RtaType × Buffer) (attrs : List (RtaType × Buffer)) :
    (attrsBytes (attr :: attrs)).length = 4 + attr.2.length + (attrsBytes attrs).length := by
  rw [← length_attrBytes attr.1, ← length_append]
  rfl

variable {attrs : List (RtaType × Buffer)}

theorem nlmsgAppendAttrs_shape (hd : ∀ attr ∈ attrs, attr.2.length % 4 = 0)
    (hs : 4 + body.length + ((attrsBytes attrs).length + n) = bufSize) (hbody : body.length % 4 = 0) :
    attrs.foldlM (fun buf attr => nlmsgAppendAttr attr.1 attr.2 buf) (shape body ((attrsBytes attrs).length + n)) =
      some (shape (body ++ attrsBytes attrs) n) := by
  induction attrs generalizing body with
  | nil =>
    rw [attrsBytes, flatMap_nil, append_nil, length_nil, Nat.zero_add]
    rfl
  | cons attr attrs ih =>
    have hda : attr.2.length % 4 = 0 := hd attr mem_cons_self
    rw [length_attrsBytes_cons, Nat.add_assoc (4 + attr.2.length)] at hs ⊢
    have hl : (body ++ attrBytes attr.1 attr.2).length = body.length + (4 + attr.2.length) := by
      rw [length_append, length_attrBytes]
    rw [foldlM_cons, nlmsgAppendAttr_shape hs hbody hda, Option.bind_eq_bind, Option.bind_some,
      ih (fun attr h => hd attr (mem_cons_of_mem _ h)) (by omega) (by omega), append_assoc]
    rfl

/-! ## Walking -/

/-- **Walking.** The kernel finds an attribute where it was appended. -/
theorem attributesFrom_cons {a c : Buffer} {o : Nat} (ho : o = a.length) (hd : d.length % 4 = 0)
    (hl : o + (4 + d.length) ≤ readLe 0 4 (a ++ (attrBytes t d ++ c))) (hlt : 4 + d.length < 256 ^ 2) (n : Nat) :
    attributesFrom (a ++ (attrBytes t d ++ c)) (n + 1) o =
      ⟨o, t.code, d⟩ :: attributesFrom (a ++ (attrBytes t d ++ c)) n (o + (4 + d.length)) := by
  subst ho
  have hc : t.code < 256 ^ 2 := by cases t <;> decide
  have hrt : read a.length 2 (a ++ (attrBytes t d ++ c)) = le 2 (4 + d.length) := by
    simpa [attrBytes] using read_whole a (le 2 (4 + d.length)) (le 2 t.code ++ (d ++ c))
  have ht : read (a.length + 2) 2 (a ++ (attrBytes t d ++ c)) = le 2 t.code := by
    simpa [attrBytes] using read_whole (a ++ le 2 (4 + d.length)) (le 2 t.code) (d ++ c)
  have hda : read (a.length + 4) d.length (a ++ (attrBytes t d ++ c)) = d := by
    simpa [attrBytes] using read_whole (a ++ (le 2 (4 + d.length) ++ le 2 t.code)) d c
  have hre : readLe a.length 2 (a ++ (attrBytes t d ++ c)) = 4 + d.length := by
    rw [readLe, hrt, leValue_le_of_lt hlt]
  have hr : readLe (a.length + 2) 2 (a ++ (attrBytes t d ++ c)) = t.code := by
    rw [readLe, ht, leValue_le_of_lt hc]
  simp only [attributesFrom, hre, hr]
  rw [if_pos (by omega), Nat.add_sub_cancel_left, hda, align_of_mod (by omega)]

theorem attributesFrom_end {b : Buffer} {o : Nat} (h : readLe 0 4 b ≤ o) (n : Nat) : attributesFrom b n o = [] := by
  cases n with
  | zero => rfl
  | succ n =>
    simp only [attributesFrom]
    rw [if_neg (by omega)]

/-- The attributes at their places, one behind the other. -/
def placed (o : Nat) : List (RtaType × Buffer) → List Attr
  | [] => []
  | (t, d) :: attrs => ⟨o, t.code, d⟩ :: placed (o + (4 + d.length)) attrs

theorem attributesFrom_placed {b a c : Buffer} (hd : ∀ attr ∈ attrs, attr.2.length % 4 = 0)
    (hb : b = a ++ (attrsBytes attrs ++ c)) (hl : readLe 0 4 b = (a ++ attrsBytes attrs).length)
    (hlt : readLe 0 4 b < 256 ^ 2) {n : Nat} (hn : attrs.length ≤ n) :
    attributesFrom b n a.length = placed a.length attrs := by
  -- the attributes that were found go to the bytes before the place
  induction attrs generalizing a n with
  | nil =>
    refine attributesFrom_end ?_ n
    rw [hl, attrsBytes, flatMap_nil, append_nil]
  | cons attr attrs ih =>
    obtain ⟨t, d⟩ := attr
    have hc : attrsBytes ((t, d) :: attrs) = attrBytes t d ++ attrsBytes attrs := rfl
    rw [hc, append_assoc] at hb
    rw [hc, length_append, length_append, length_attrBytes] at hl
    have hda : d.length % 4 = 0 := hd (t, d) mem_cons_self
    obtain ⟨n, rfl⟩ : ∃ m, n = m + 1 := ⟨n - 1, by rw [length_cons] at hn; omega⟩
    have hnext := ih (a := a ++ attrBytes t d) (fun attr h => hd attr (mem_cons_of_mem _ h))
      (by rw [hb, append_assoc]) (by simp only [hl, length_append, length_attrBytes]; omega)
      (n := n) (by rw [length_cons] at hn; omega)
    rw [length_append, length_attrBytes] at hnext
    rw [placed, ← hnext, hb]
    exact attributesFrom_cons rfl hda (by rw [← hb]; omega) (by omega) n

/-- The attributes follow each other without a gap from one place to the other. -/
def Consecutive (finish : Nat) : Nat → List Attr → Prop
  | o, [] => o = finish
  | o, a :: attrs => a.offset = o ∧ Consecutive finish (o + rtaSpace a.data.length) attrs

theorem consecutive_placed (hd : ∀ attr ∈ attrs, attr.2.length % 4 = 0) (o : Nat) :
    Consecutive (o + (attrsBytes attrs).length) o (placed o attrs) := by
  induction attrs generalizing o with
  | nil => rfl
  | cons attr attrs ih =>
    obtain ⟨t, d⟩ := attr
    have hs : rtaSpace d.length = 4 + d.length :=
      align_of_mod (show (4 + d.length) % 4 = 0 by have := hd (t, d) mem_cons_self; dsimp only at this; omega)
    refine ⟨rfl, ?_⟩
    rw [hs, length_attrsBytes_cons, ← Nat.add_assoc]
    exact ih (fun attr h => hd attr (mem_cons_of_mem _ h)) _

theorem aligned_placed (hd : ∀ attr ∈ attrs, attr.2.length % 4 = 0) {o : Nat} (ho : o % 4 = 0) :
    ∀ a ∈ placed o attrs, a.offset % 4 = 0 := by
  induction attrs generalizing o with
  | nil => simp [placed]
  | cons attr attrs ih =>
    obtain ⟨t, d⟩ := attr
    have hl : d.length % 4 = 0 := hd (t, d) mem_cons_self
    rw [placed, forall_mem_cons]
    exact ⟨ho, ih (fun attr h => hd attr (mem_cons_of_mem _ h)) (by omega)⟩

theorem map_placed (attrs : List (RtaType × Buffer)) (o : Nat) :
    (placed o attrs).map (fun a => (a.type, a.data)) = attrs.map fun attr => (attr.1.code, attr.2) := by
  induction attrs generalizing o with
  | nil => rfl
  | cons attr attrs ih => rw [placed, map_cons, ih, map_cons]

/-! ## Every message -/

theorem length_octets {w : Nat} (a : BitVec w) : (octets a).length = w / 8 := by
  rw [octets, length_map, length_range]

theorem length_addressBytes (a : QHostAddress) : (addressBytes a).length = addressLength (family a) := by
  cases a with
  | ipv4 a => exact length_octets a
  | ipv6 a => exact length_octets a
  | null => rfl

/-- `RTA_OIF` or `RTA_GATEWAY`. -/
def Hop.attr : Hop → RtaType × Buffer
  | .interface index => (.RTA_OIF, le 4 index)
  | .gateway address => (.RTA_GATEWAY, octets address)

theorem Hop.length_attr (hop : Hop) : hop.attr.2.length = 4 := by
  cases hop with
  | interface index => exact length_le 4 index
  | gateway address => exact length_octets address

def routeAttrs (dst : AllowedIp) (hop : Hop) (priority : Nat) : List (RtaType × Buffer) :=
  [(.RTA_DST, addressBytes dst.address), hop.attr, (.RTA_PRIORITY, le 4 priority)]

namespace RouteMonitor

variable (call : RouteCall) (ip : IPAddress) (r : Netlink) (pid seq : Nat) (s : RouteMonitor)

/-- The message behind its length, up to the attributes. -/
def headBytes (dst : AllowedIp) (type : RtnType) : Buffer :=
  le 2 call.action.code ++
    (le 2 call.flags ++ (le 4 seq ++ (le 4 pid ++ (le 1 (family dst.address) ++ (le 1 dst.cidr.toNat ++
    (zeros 3 ++ (le 1 3 ++ (zeros 1 ++ (le 1 type.code ++ zeros 4)))))))))

theorem startMessage_eq (dst : AllowedIp) :
    startMessage call dst pid seq = some (shape (headBytes call pid seq dst call.type) 36) := by
  -- the fields of `nlmsghdr` and of `rtmsg`, and the room for the attributes
  have hfi : zeros bufSize =
    [zeros 4, zeros 2, zeros 2, zeros 4, zeros 4, zeros 1, zeros 1, zeros 2, zeros 1, zeros 1, zeros 1,
    zeros 1, zeros 4, zeros 36].flatten := rfl
  simp only [startMessage, hfi, Option.bind_eq_bind]
  refine Option.bind_eq_some_iff.mpr ⟨_, write_field (i := 0) rfl rfl rfl, ?_⟩
  refine Option.bind_eq_some_iff.mpr ⟨_, write_field (i := 1) rfl rfl rfl, ?_⟩
  refine Option.bind_eq_some_iff.mpr ⟨_, write_field (i := 2) rfl rfl rfl, ?_⟩
  refine Option.bind_eq_some_iff.mpr ⟨_, write_field (i := 4) rfl rfl rfl, ?_⟩
  refine Option.bind_eq_some_iff.mpr ⟨_, write_field (i := 3) rfl rfl rfl, ?_⟩
  refine Option.bind_eq_some_iff.mpr ⟨_, write_field (i := 6) rfl rfl rfl, ?_⟩
  refine Option.bind_eq_some_iff.mpr ⟨_, write_field (i := 5) rfl rfl rfl, ?_⟩
  refine Option.bind_eq_some_iff.mpr ⟨_, write_field (i := 11) rfl rfl rfl, ?_⟩
  refine Option.bind_eq_some_iff.mpr ⟨_, write_field (i := 8) rfl rfl rfl, ?_⟩
  refine Option.bind_eq_some_iff.mpr ⟨_, write_field (i := 9) rfl rfl rfl, ?_⟩
  exact write_field (i := 10) rfl rfl rfl

theorem length_headBytes (dst : AllowedIp) (type : RtnType) : (headBytes call pid seq dst type).length = 24 := by
  simp [headBytes]

def fields (dst : AllowedIp) (type : RtnType) (rest : Buffer) (n : Nat) : List Buffer :=
  [le 4 (4 + (24 + rest.length)), le 2 call.action.code, le 2 call.flags, le 4 seq, le 4 pid, le 1 (family dst.address),
    le 1 dst.cidr.toNat, zeros 3, le 1 3, zeros 1, le 1 type.code, zeros 4, rest, zeros n]

theorem shape_head (dst : AllowedIp) (type : RtnType) (rest : Buffer) (n : Nat) :
    shape (headBytes call pid seq dst type ++ rest) n = (fields call pid seq dst type rest n).flatten := by
  rw [shape, length_append]
  simp [headBytes, fields]

/-- A throw route is made a unicast one. -/
theorem write_type (dst : AllowedIp) (type new : RtnType) (rest : Buffer) (n : Nat) :
    write 23 (le 1 new.code) (shape (headBytes call pid seq dst type ++ rest) n) =
      some (shape (headBytes call pid seq dst new ++ rest) n) := by
  rw [shape_head, shape_head]
  exact write_field (i := 10) rfl (by simp [fields]) (by rw [length_le, length_le])

theorem rtmFamily_shape (dst : AllowedIp) (type : RtnType) (rest : Buffer) (n : Nat) :
    rtmFamily (shape (headBytes call pid seq dst type ++ rest) n) = family dst.address := by
  have hr : read 16 1 (fields call pid seq dst type rest n).flatten = le 1 (family dst.address) :=
    read_field (i := 5) rfl (by simp [fields]) (length_le 1 _).symm
  have hlt : family dst.address < 256 ^ 1 := by
    cases dst.address <;> simp [family]
  rw [rtmFamily, readLe, shape_head, hr, leValue_le_of_lt hlt]

/-! ## Every message -/

variable {call ip r s} {dst : AllowedIp} {hop : Hop} {priority : Nat}

theorem length_routeAttrs (dst : AllowedIp) (hop : Hop) (priority : Nat) :
    ∀ attr ∈ routeAttrs dst hop priority, attr.2.length % 4 = 0 := by
  have hd : (addressBytes dst.address).length % 4 = 0 := by
    rw [length_addressBytes]
    cases dst.address <;> simp [addressLength, family]
  simp [routeAttrs, hop.length_attr, hd]

theorem length_attrsBytes_routeAttrs (dst : AllowedIp) (hop : Hop) (priority : Nat) :
    (attrsBytes (routeAttrs dst hop priority)).length = 20 + addressLength (family dst.address) := by
  rw [routeAttrs, length_attrsBytes_cons, length_attrsBytes_cons, length_attrsBytes_cons, length_addressBytes,
    hop.length_attr]
  simp [attrsBytes]
  omega

/-- The message as a whole. -/
theorem message_eq (hd : buildAllowedIp ip = some dst) (hat : s.attributes call.type r = some (hop, priority)) :
    message call ip r pid seq s =
    some (shape (headBytes call pid seq dst .RTN_UNICAST ++ attrsBytes (routeAttrs dst hop priority))
      (16 - addressLength (family dst.address))) := by
  have hr : 36 = (attrsBytes (routeAttrs dst hop priority)).length + (16 - addressLength (family dst.address)) := by
    rw [length_attrsBytes_routeAttrs]
    cases dst.address <;> simp [addressLength, family]
  have ha : (routeAttrs dst hop priority).foldlM (fun buf attr => nlmsgAppendAttr attr.1 attr.2 buf)
      (shape (headBytes call pid seq dst call.type) 36) =
      some (shape (headBytes call pid seq dst call.type ++ attrsBytes (routeAttrs dst hop priority))
        (16 - addressLength (family dst.address))) := by
    rw [hr]
    refine nlmsgAppendAttrs_shape (length_routeAttrs dst hop priority) ?_ (by rw [length_headBytes])
    rw [← hr]
    rfl
  cases ht : call.type with
  | RTN_UNICAST =>
    obtain ⟨hi, hh⟩ := Option.ite_none_left_eq_some.mp (ht ▸ hat)
    obtain ⟨rfl, rfl⟩ := Prod.mk.inj (Option.some.inj hh)
    simpa [message, hd, startMessage_eq, ht, hi, routeAttrs, Hop.attr] using ha
  | RTN_THROW =>
    obtain ⟨rfl, rfl⟩ := Prod.mk.inj (Option.some.inj (ht ▸ hat))
    have hm : message call ip r pid seq s =
        ((routeAttrs dst (.gateway (s.gatewayAttr r)) 0).foldlM (fun buf attr => nlmsgAppendAttr attr.1 attr.2 buf)
          (shape (headBytes call pid seq dst call.type) 36)).bind (write 23 (le 1 RtnType.RTN_UNICAST.code)) := by
      simp [message, hd, startMessage_eq, ht, routeAttrs, Hop.attr, Option.bind_assoc]
    rw [hm, ha, Option.bind_some, write_type]

/-- A message is sent where one is built. -/
theorem rtmSendRoute_fst (call : RouteCall) (ip : IPAddress) (r : Netlink) (s : RouteMonitor) :
    (rtmSendRoute call.action call.type ip r s).1 = ((message call ip r pid seq s).isSome && r.sent) := by
  cases hd : buildAllowedIp ip with
  | none => simp [rtmSendRoute, message, hd]
  | some dst =>
    cases ha : s.attributes call.type r with
    | none =>
      cases ht : call.type with
      | RTN_THROW => simp [ht, attributes] at ha
      | RTN_UNICAST =>
        have hi : r.index = 0 := by simpa [ht, attributes] using ha
        rw [ht] at ha
        simp [rtmSendRoute, message, hd, ha, ht, hi]
    | some hop =>
      rw [message_eq pid seq hd ha]
      simp only [rtmSendRoute, hd, ha, Option.isSome_some, Bool.true_and]
      cases r.sent <;> rfl

/-- What a message should be, apart from the lengths of its addresses: it fits, has all attributes, and they are aligned
and follow each other up to its end. -/
structure Complete (attrs : List (RtaType × Buffer)) (b : Buffer) : Prop where
  size : b.length = bufSize
  fits : readLe 0 4 b ≤ bufSize
  attributes : (attributesOf b).map (fun a => (a.type, a.data)) = attrs.map fun attr => (attr.1.code, attr.2)
  aligned : ∀ a ∈ attributesOf b, a.offset % 4 = 0
  consecutive : Consecutive (readLe 0 4 b) (nlmsgLength rtmsgSize) (attributesOf b)

def AddressesMatch (b : Buffer) : Prop :=
  ∀ a ∈ attributesOf b, a.isAddress = true → a.data.length = addressLength (rtmFamily b)

theorem attributesOf_shape {head : Buffer} (hd : ∀ attr ∈ attrs, attr.2.length % 4 = 0) (hh : head.length = 24)
    (hs : 28 + (attrsBytes attrs).length + n = bufSize) (hc : attrs.length ≤ bufSize) :
    attributesOf (shape (head ++ attrsBytes attrs) n) = placed (nlmsgLength rtmsgSize) attrs := by
  have hl : (head ++ attrsBytes attrs).length = 24 + (attrsBytes attrs).length := by
    rw [length_append, hh]
  have hr : readLe 0 4 (shape (head ++ attrsBytes attrs) n) = 28 + (attrsBytes attrs).length := by
    rw [readLe_shape (by omega)]
    omega
  have hp : nlmsgLength rtmsgSize = (le 4 (4 + (head ++ attrsBytes attrs).length) ++ head).length := by
    rw [length_append, hh]
    rfl
  rw [bufSize_eq] at hs hc
  rw [attributesOf, hp]
  refine attributesFrom_placed (c := zeros n) hd ?_ ?_ ?_ ?_
  · simp only [shape, append_assoc]
  · rw [hr, length_append, ← hp]
    rfl
  · omega
  · rw [length_shape]
    omega

theorem complete_shape {head : Buffer} (hd : ∀ attr ∈ attrs, attr.2.length % 4 = 0) (hh : head.length = 24)
    (hs : 28 + (attrsBytes attrs).length + n = bufSize) (hc : attrs.length ≤ bufSize) :
    Complete attrs (shape (head ++ attrsBytes attrs) n) := by
  have hl : (head ++ attrsBytes attrs).length = 24 + (attrsBytes attrs).length := by
    rw [length_append, hh]
  have hr : readLe 0 4 (shape (head ++ attrsBytes attrs) n) = nlmsgLength rtmsgSize + (attrsBytes attrs).length := by
    rw [readLe_shape (by omega), hl, ← Nat.add_assoc]
    rfl
  have ha := attributesOf_shape hd hh hs hc
  refine ⟨?_, ?_, ?_, ?_, ?_⟩
  · rw [length_shape]
    omega
  · rw [hr, ← hs]
    exact Nat.le_add_right _ _
  · rw [ha, map_placed]
  · rw [ha]
    exact aligned_placed hd rfl
  · rw [ha, hr]
    exact consecutive_placed hd _

theorem attributesOf_message {b : Buffer} (hds : buildAllowedIp ip = some dst)
    (ha : s.attributes call.type r = some (hop, priority)) (hb : message call ip r pid seq s = some b) :
    attributesOf b = placed (nlmsgLength rtmsgSize) (routeAttrs dst hop priority) ∧
      Complete (routeAttrs dst hop priority) b ∧
      rtmFamily b = family dst.address := by
  obtain rfl := Option.some.inj ((message_eq pid seq hds ha).symm.trans hb)
  have hs : 28 + (attrsBytes (routeAttrs dst hop priority)).length + (16 - addressLength (family dst.address)) =
      bufSize := by
    rw [length_attrsBytes_routeAttrs]
    cases dst.address <;> rfl
  have hh := length_headBytes call pid seq dst .RTN_UNICAST
  have hd := length_routeAttrs dst hop priority
  have hc : (routeAttrs dst hop priority).length ≤ bufSize := Nat.le_of_ble_eq_true rfl
  exact ⟨attributesOf_shape hd hh hs hc, complete_shape hd hh hs hc, rtmFamily_shape call pid seq dst _ _ _⟩

theorem attr_eq_gateway_iff (ha : s.attributes call.type r = some (hop, priority)) :
    hop.attr.1 = .RTA_GATEWAY ↔ call = .addExclusionRoute ∨ call = .deleteExclusionRoute := by
  cases hop with
  | interface index => cases call <;> simp_all [Hop.attr, attributes, RouteCall.type]
  | gateway address => cases call <;> simp_all [Hop.attr, attributes, RouteCall.type]

theorem placed_match_iff (dst : AllowedIp) (hop : Hop) (priority o : Nat) :
    (∀ a ∈ placed o (routeAttrs dst hop priority), a.isAddress = true →
      a.data.length = addressLength (family dst.address)) ↔
      (hop.attr.1 = .RTA_GATEWAY → 4 = addressLength (family dst.address)) := by
  have hh : ∀ o, Attr.isAddress ⟨o, hop.attr.1.code, hop.attr.2⟩ = true ↔ hop.attr.1 = .RTA_GATEWAY := by
    cases hop <;> simp [Attr.isAddress, Hop.attr, RtaType.code]
  have hp : ∀ o d, Attr.isAddress ⟨o, RtaType.RTA_PRIORITY.code, d⟩ = false := fun _ _ => rfl
  simp [routeAttrs, placed, hh, hp, length_addressBytes, hop.length_attr]

theorem addressLength_eq_four_iff (address : QHostAddress) :
    4 = addressLength (family address) ↔ ¬∃ a, address = .ipv6 a := by
  cases address <;> simp [addressLength, family]

/-- **Messages.** Every message is complete, and its addresses have the length of its family unless it is one of an
exclusion route for IPv6. -/
theorem message_addresses_iff (hip : ip.address ≠ .null) (hattr : s.attributes call.type r = some (hop, priority)) :
    ∃ dst b, buildAllowedIp ip = some dst ∧ message call ip r pid seq s = some b ∧
      Complete (routeAttrs dst hop priority) b ∧
      (AddressesMatch b ↔
        ¬((∃ a, ip.address = .ipv6 a) ∧ (call = .addExclusionRoute ∨ call = .deleteExclusionRoute))) := by
  obtain ⟨dst, hd, hs⟩ : ∃ dst, buildAllowedIp ip = some dst ∧ dst.address = ip.address := by
    unfold buildAllowedIp
    cases ha : ip.address with
    | null => exact absurd ha hip
    | ipv4 a => exact ⟨_, rfl, rfl⟩
    | ipv6 a => exact ⟨_, rfl, rfl⟩
  have hm := message_eq pid seq hd hattr
  obtain ⟨hat, hc, hfa⟩ := attributesOf_message pid seq hd hattr hm
  refine ⟨dst, _, hd, hm, hc, ?_⟩
  rw [AddressesMatch, hat, hfa, placed_match_iff, attr_eq_gateway_iff hattr, hs, addressLength_eq_four_iff]
  exact imp_not_comm.trans not_and.symm

theorem message_addresses_iff_insert :
    let ip : IPAddress := ⟨.ipv6 (0x20010db8#128 <<< 96), 32⟩
    let s : RouteMonitor := ⟨some 0xc0a80101#32, fun _ => none⟩
    ∃ dst b, buildAllowedIp ip = some dst ∧ message .insertRoute ip ⟨7, 0, true⟩ 1 1 s = some b ∧
      Complete (routeAttrs dst (.interface 7) 1) b ∧ (AddressesMatch b ↔ ¬((∃ a, ip.address = .ipv6 a) ∧
        (RouteCall.insertRoute = .addExclusionRoute ∨ RouteCall.insertRoute = .deleteExclusionRoute))) :=
  message_addresses_iff 1 1 nofun rfl

/-- The route to the network of documentation of IPv6 through the IPv4 gateway 192.168.1.1. -/
theorem exclusion_gateway_of_four :
    let ip : IPAddress := ⟨.ipv6 (0x20010db8#128 <<< 96), 32⟩
    let s : RouteMonitor := ⟨some 0xc0a80101#32, fun _ => none⟩
    ∃ b, message .addExclusionRoute ip ⟨7, 0, true⟩ 1 1 s = some b ∧ rtmFamily b = 10 ∧
      addressLength 10 = 16 ∧
      ⟨48, RtaType.RTA_GATEWAY.code, [192, 168, 1, 1]⟩ ∈ attributesOf b := by
  intro ip s
  have hb : message .addExclusionRoute ip ⟨7, 0, true⟩ 1 1 s = some _ := message_eq 1 1 rfl rfl
  obtain ⟨ha, -, hfa⟩ := attributesOf_message 1 1 rfl rfl hb
  refine ⟨_, hb, hfa, rfl, ?_⟩
  have hg : octets (s.gatewayAttr ⟨7, 0, true⟩) = [192, 168, 1, 1] := by decide
  have hd : 4 + (addressBytes ip.address).length = 20 := rfl
  rw [ha, ← hg]
  simp only [routeAttrs, placed, hd, Hop.attr]
  exact mem_cons_of_mem _ mem_cons_self

end RouteMonitor

end Cimogus.Linux
