import Cimogus.Lib.Buffers
import Cimogus.Lib.Loops
import Cimogus.Macos.RouteMonitor

/-!
# The routing socket of macOS

`rtsockReady` receives up to 1024 bytes and walks over the messages in them. How far it goes with each step, and what is
handed to a handler, is said by the length field of the message alone; the fields are read through a pointer, so a
message at the end of the received bytes is read on in what is behind them. The numbers are in the order of x86 and
arm64.
-/

namespace Cimogus.Macos

open Lib.Buffers Lib.Loops List

/-! ## Received bytes -/

/-- `buf` after `recv`, with what is in memory behind the received bytes. -/
structure Reception where
  bytes : Buffer
  behind : Nat → UInt8
  length_pos : 0 < bytes.length
  length_le : bytes.length ≤ 1024

namespace Reception

variable (r : Reception)

/-- The byte at an offset from `buf`. -/
def byte (i : Nat) : UInt8 := (r.bytes[i]?).getD (r.behind i)

/-- A number of `n` bytes at an offset. -/
def number (o n : Nat) : Nat := leValue ((List.range n).map fun i => r.byte (o + i))

def rtmMsglen (o : Nat) : Nat := r.number o 2

def rtmTypeOf (code : Nat) : RtmType :=
  if code = 1 then .RTM_ADD
  else if code = 2 then .RTM_DELETE
  else if code = 3 then .RTM_CHANGE
  else if code = 4 then .RTM_GET
  else if code = 14 then .RTM_IFINFO
  else .other

def rtmType (o : Nat) : RtmType := rtmTypeOf (r.number (o + 3) 1)

/-- `RTMSG_NEXT`. -/
def next (o : Nat) : Nat := o + r.rtmMsglen o

/-- The loop handles a message at this offset: it begins in the received bytes, and its length does not leave them. -/
def Fits (o : Nat) : Prop := o < r.bytes.length ∧ r.next o ≤ r.bytes.length

instance (o : Nat) : Decidable (r.Fits o) := inferInstanceAs (Decidable (_ ∧ _))

inductive Visited : Nat → Prop
  | start : Visited 0
  | next {o : Nat} (h : Visited o) (hfits : r.Fits o) : Visited (r.next o)

end Reception

/-- The header that the handler for a type reads: `rt_msghdr`, or `if_msghdr` for an interface. -/
def RtmType.headerSize : RtmType → Option Nat
  | .RTM_ADD | .RTM_DELETE | .RTM_CHANGE | .RTM_GET => some 92
  | .RTM_IFINFO => some 112
  | .other => none

/-! ## Addresses -/

/-- A `sa_len` as it is padded; there are at least four bytes. -/
def paddedSize (saLen : Nat) : Nat := if saLen = 0 ∨ saLen % 4 ≠ 0 then saLen + (4 - saLen % 4) else saLen

/-- The loop of `parseAddrList`; every round takes some of the payload, so its length is enough fuel. -/
def parseAddrs : Nat → Buffer → List Buffer
  | 0, _ => []
  | fuel + 1, payload =>
    if payload.length < 2 then []
    else
      let size := paddedSize (leValue (payload.take 1))
      if payload.length < size then [] else payload.take size :: parseAddrs fuel (payload.drop size)

def parseAddrList (payload : Buffer) : List Buffer := parseAddrs payload.length payload

/-- A round of that loop as it is written, with the offset in the payload and the list. -/
def addrRound (payload : Buffer) (s : Nat × List Buffer) : Option (Nat × List Buffer) :=
  if payload.length < s.1 + 2 then none
  else
    let size := paddedSize (readLe s.1 1 payload)
    if payload.length < s.1 + size then none else some (s.1 + size, s.2 ++ [read s.1 size payload])

/-- The fields of a `sockaddr` that the handlers look at; what `sa_len` does not cover is zero. -/
def sockAddrOf (sa : Buffer) : SockAddr :=
  let copied := sa.take (leValue (sa.take 1))
  let family := readLe 1 1 sa
  if family = 2 then .inet (BitVec.ofNat 32 (readLe 4 4 copied))
  else if family = 30 then .inet6 (BitVec.ofNat 128 (readLe 8 16 copied))
  else if family = 18 then .link (readLe 2 2 sa)
  else if family = 0 then .unspec
  else .other

theorem le_paddedSize (saLen : Nat) :
    saLen ≤ paddedSize saLen ∧ 4 ≤ paddedSize saLen ∧ paddedSize saLen % 4 = 0 := by
  unfold paddedSize
  split <;> omega

variable {payload : Buffer}

/-- The fuel of `parseAddrs` plays no part. -/
theorem parseAddrs_eq {fuel : Nat} (h : payload.length ≤ fuel) : parseAddrs fuel payload = parseAddrList payload := by
  have he : ∀ fuel fuel' (payload : Buffer), payload.length ≤ fuel → payload.length ≤ fuel' →
      parseAddrs fuel payload = parseAddrs fuel' payload := by
    intro fuel
    induction fuel with
    | zero =>
      intro fuel' payload h h'
      cases fuel' with
      | zero => rfl
      | succ fuel' => simp [parseAddrs, show payload.length < 2 by omega]
    | succ fuel ih =>
      intro fuel' payload h h'
      cases fuel' with
      | zero => simp [parseAddrs, show payload.length < 2 by omega]
      | succ fuel' =>
        have hs := (le_paddedSize (leValue (payload.take 1))).2.1
        simp only [parseAddrs]
        split
        · rfl
        split
        · rfl
        · rw [ih fuel' (payload.drop _) (by rw [length_drop]; omega) (by rw [length_drop]; omega)]
  exact he fuel payload.length payload h (Nat.le_refl _)

/-- One round of `parseAddrList`. -/
theorem parseAddrList_eq (payload : Buffer) : parseAddrList payload =
      if payload.length < 2 ∨ payload.length < paddedSize (leValue (payload.take 1)) then []
      else payload.take (paddedSize (leValue (payload.take 1))) ::
        parseAddrList (payload.drop (paddedSize (leValue (payload.take 1)))) := by
  by_cases hs : payload.length < 2
  · rw [if_pos (.inl hs), ← parseAddrs_eq (Nat.le_succ _), parseAddrs, if_pos hs]
  by_cases hsm : payload.length < paddedSize (leValue (payload.take 1))
  · rw [if_pos (.inr hsm), ← parseAddrs_eq (Nat.le_succ _), parseAddrs, if_neg hs]
    exact if_pos hsm
  · rw [if_neg (by omega), ← parseAddrs_eq (Nat.le_succ payload.length), parseAddrs, if_neg hs]
    rw [if_neg hsm, parseAddrs_eq (by rw [length_drop]; omega)]

theorem paddedSize_eq (saLen : Nat) : paddedSize saLen = max 4 ((saLen + 3) / 4 * 4) := by
  unfold paddedSize
  split <;> omega

theorem addrRound_eq_none_iff {s : Nat × List Buffer} : addrRound payload s = none ↔
    payload.length < s.1 + 2 ∨ payload.length < s.1 + paddedSize (readLe s.1 1 payload) := by
  unfold addrRound
  split <;> simp [*]

/-- What the loop has passed over is in the list, and what is left would be parsed in the same way. -/
structure Parsed (payload : Buffer) (s : Nat × List Buffer) : Prop where
  inside : s.1 ≤ payload.length
  passed : s.2.flatten = payload.take s.1
  sizes : ∀ sa ∈ s.2, sa.length = paddedSize (readLe 0 1 sa)
  rest : parseAddrList payload = s.2 ++ parseAddrList (payload.drop s.1)

theorem Parsed.round {s t : Nat × List Buffer} (h : Parsed payload s) (hr : addrRound payload s = some t) :
    Parsed payload t ∧ payload.length - t.1 < payload.length - s.1 := by
  have hgo : ¬(payload.length < s.1 + 2 ∨ payload.length < s.1 + paddedSize (readLe s.1 1 payload)) := by
    rw [← addrRound_eq_none_iff, hr]
    nofun
  obtain rfl : t =
      (s.1 + paddedSize (readLe s.1 1 payload), s.2 ++ [read s.1 (paddedSize (readLe s.1 1 payload)) payload]) := by
    simp only [addrRound, if_neg (not_or.mp hgo).1, if_neg (not_or.mp hgo).2] at hr
    exact (Option.some.inj hr).symm
  have hfi : leValue ((payload.drop s.1).take 1) = readLe s.1 1 payload := rfl
  have hs := (le_paddedSize (readLe s.1 1 payload)).2.1
  generalize hn : paddedSize (readLe s.1 1 payload) = n at *
  refine ⟨⟨by dsimp only; omega, ?_, ?_, ?_⟩, by dsimp only; omega⟩
  · rw [flatten_append, h.passed, flatten_singleton, take_add]
    rfl
  · intro sa hsa
    rcases mem_append.mp hsa with hsa | hsa
    · exact h.sizes sa hsa
    · obtain rfl := mem_singleton.mp hsa
      have hl : readLe 0 1 (Lib.Buffers.read s.1 n payload) = readLe s.1 1 payload := by
        simp only [readLe, Lib.Buffers.read, drop_zero, take_take, Nat.min_eq_left (show 1 ≤ n by omega)]
      rw [hl, Lib.Buffers.read, length_take, length_drop]
      omega
  · rw [h.rest, parseAddrList_eq (payload.drop s.1), hfi, hn, if_neg (by rw [length_drop]; omega),
      append_assoc, drop_drop]
    rfl

theorem loop_addrRound (payload : Buffer) : ∃ offset,
    loop (addrRound payload) (payload.length + 1) (0, []) = some (offset, parseAddrList payload) ∧
      Parsed payload (offset, parseAddrList payload) ∧
      (payload.length < offset + 2 ∨ payload.length < offset + paddedSize (readLe offset 1 payload)) := by
  have hs : Parsed payload (0, []) := ⟨Nat.zero_le _, rfl, nofun, rfl⟩
  obtain ⟨⟨offset, list⟩, hlo, hp, he⟩ := loop_of_decreasing (Parsed payload) (fun s => payload.length - s.1)
    (fun s t h hr => h.round hr) hs (Nat.lt_succ_of_le (Nat.sub_le _ _))
  rw [addrRound_eq_none_iff] at he
  dsimp only at he
  have hl : parseAddrList payload = list := by
    have hfi : leValue ((payload.drop offset).take 1) = readLe offset 1 payload := rfl
    rw [hp.rest, parseAddrList_eq (payload.drop offset), hfi, if_pos (by rw [length_drop]; omega), append_nil]
  rw [hl]
  exact ⟨offset, hlo, hp, he⟩

/-- **The addresses of a payload lie in it, one behind the other.** Each has at least four bytes, so that its family can
be read. -/
theorem parseAddrList_flatten (payload : Buffer) :
    (parseAddrList payload).flatten <+: payload ∧ ∀ sa ∈ parseAddrList payload, 4 ≤ sa.length := by
  obtain ⟨offset, -, hp, -⟩ := loop_addrRound payload
  refine ⟨?_, fun sa hsa => ?_⟩
  · rw [hp.passed]
    exact take_prefix offset payload
  · rw [hp.sizes sa hsa]
    exact (le_paddedSize _).2.1

/-- **`parseAddrList` ends**, with slices of the payload one behind the other from its start, each as long as its
`sa_len` padded to a multiple of four bytes, and with no room for one more. -/
theorem parseAddrList_slices (payload : Buffer) : ∃ offset,
    loop (addrRound payload) (payload.length + 1) (0, []) = some (offset, parseAddrList payload) ∧
      offset ≤ payload.length ∧
      (parseAddrList payload).flatten = payload.take offset ∧
      (∀ sa ∈ parseAddrList payload, sa ≠ [] ∧ sa.length = max 4 ((readLe 0 1 sa + 3) / 4 * 4)) ∧
      (payload.length < offset + 2 ∨ payload.length < offset + max 4 ((readLe offset 1 payload + 3) / 4 * 4)) := by
  obtain ⟨offset, hl, hp, he⟩ := loop_addrRound payload
  refine ⟨offset, hl, hp.inside, hp.passed, fun sa hsa => ⟨?_, ?_⟩, ?_⟩
  · rintro rfl
    exact absurd ((parseAddrList_flatten payload).2 [] hsa) (by decide)
  · rw [hp.sizes sa hsa, paddedSize_eq]
  · rwa [← paddedSize_eq]

/-! ## The loop -/

/-- A message that is handed to a handler: where it begins, its length, and what is left of it without the header. -/
structure Message where
  offset : Nat
  length : Nat
  rtmType : RtmType
  payload : Buffer

namespace Reception

variable (r : Reception)

def message? (o : Nat) : Option Message :=
  if r.Fits o then
    (r.rtmType o).headerSize.map fun size =>
      ⟨o, r.rtmMsglen o, r.rtmType o, (read o (r.rtmMsglen o) r.bytes).drop size⟩
  else none

/-- The header and the addresses of a message, as its handler reads them; `pid` is `getpid()`. -/
def rtMsg (pid : Nat) (m : Message) : RtMsg where
  rtmType := m.rtmType
  rtmIndex := r.number (m.offset + 4) 2
  rtmAddrs := r.number (m.offset + 12) 4
  ifscope := (r.number (m.offset + 8) 4).testBit 24
  own := r.number (m.offset + 16) 4 = pid
  addrlist := (parseAddrList m.payload).map sockAddrOf

end Reception

/-- What the loop works on: the offset of `rtm`, and the monitor. -/
structure SocketLoop where
  rtm : Nat
  monitor : RouteMonitor

def round (pid : Nat) (unset : Option Family) (r : Reception) (l : SocketLoop) : Option SocketLoop :=
  if ¬r.Fits l.rtm then none
  else
    some
      { rtm := r.next l.rtm
        monitor :=
          match r.message? l.rtm with
          | some m => l.monitor.handle unset (r.rtMsg pid m)
          | none => l.monitor }

/-- `rtsockReady`, if the fuel is enough. -/
def rtsockReady (pid : Nat) (unset : Option Family) (r : Reception) (fuel : Nat) (s : RouteMonitor) :
    Option RouteMonitor :=
  (loop (round pid unset r) fuel ⟨0, s⟩).map SocketLoop.monitor

/-- The message is handed to a handler in the course of the loop. -/
def Handed (pid : Nat) (unset : Option Family) (r : Reception) (s : RouteMonitor) (m : Message) : Prop :=
  ∃ l, Reaches (round pid unset r) ⟨0, s⟩ l ∧ r.message? l.rtm = some m

/-- A part of the received bytes that contains the header for its handler. -/
def Message.Complete (r : Reception) (m : Message) : Prop :=
  m.offset + m.length ≤ r.bytes.length ∧ ∀ size, m.rtmType.headerSize = some size → size ≤ m.length

/-- The length field of a message takes the loop on, and covers the header for its handler. -/
def Reception.SoundAt (r : Reception) (o : Nat) : Prop :=
  0 < r.rtmMsglen o ∧ ∀ size, (r.rtmType o).headerSize = some size → size ≤ r.rtmMsglen o

variable {pid : Nat} {unset : Option Family} {r : Reception} {s : RouteMonitor} {l : SocketLoop}

theorem round_eq_some_iff {l' : SocketLoop} : round pid unset r l = some l' ↔ r.Fits l.rtm ∧
      l' = ⟨r.next l.rtm, match r.message? l.rtm with
        | some m => l.monitor.handle unset (r.rtMsg pid m)
        | none => l.monitor⟩ := by
  unfold round
  split
  next hfits => simp [hfits]
  next hfits =>
    rw [Option.some.injEq, eq_comm]
    exact (and_iff_right (Decidable.not_not.mp hfits)).symm

theorem message?_eq_some {o : Nat} {m : Message} (h : r.message? o = some m) :
    r.Fits o ∧ m.offset = o ∧ m.length = r.rtmMsglen o ∧ m.rtmType = r.rtmType o := by
  unfold Reception.message? at h
  split at h
  next hfits =>
    obtain ⟨size, -, rfl⟩ := Option.map_eq_some_iff.mp h
    exact ⟨hfits, rfl, rfl, rfl⟩
  · cases h

theorem visited_iff_reaches {o : Nat} :
    r.Visited o ↔ ∃ l, Reaches (round pid unset r) ⟨0, s⟩ l ∧ l.rtm = o := by
  constructor
  · intro h
    induction h with
    | start => exact ⟨⟨0, s⟩, .refl _, rfl⟩
    | @next o _ hfits ih =>
      obtain ⟨l, hl, rfl⟩ := ih
      have hr : round pid unset r l = some _ := round_eq_some_iff.mpr ⟨hfits, rfl⟩
      exact ⟨_, hl.trans ((Reaches.refl _).head hr), rfl⟩
  · rintro ⟨l, hl, rfl⟩
    refine hl.invariant (fun l => r.Visited l.rtm) (fun l l' hv hr => ?_) .start
    obtain ⟨hfits, rfl⟩ := round_eq_some_iff.mp hr
    exact hv.next hfits

theorem ends_iff : Ends (round pid unset r) ⟨0, s⟩ ↔ ∀ o, r.Visited o → r.Fits o → 0 < r.rtmMsglen o := by
  constructor
  · intro he o hv hfits
    by_contra hze
    have hs : r.next o = o := by
      rw [Reception.next]
      omega
    obtain ⟨l, hl, rfl⟩ := visited_iff_reaches.mp hv
    -- from here on the pointer stays where it is, whatever the handlers do
    refine not_ends_of_invariant (fun l' => l'.rtm = l.rtm) (fun l' hl' => ?_) hl rfl he
    exact ⟨_, round_eq_some_iff.mpr ⟨hl' ▸ hfits, rfl⟩, by rw [hl', hs]⟩
  · intro hlen
    refine ends_of_decreasing (fun l => r.Visited l.rtm) (fun l => r.bytes.length - l.rtm)
      (fun l l' hv hr => ?_) .start
    obtain ⟨hfits, rfl⟩ := round_eq_some_iff.mp hr
    refine ⟨hv.next hfits, ?_⟩
    have hp := hlen l.rtm hv hfits
    have hlt := hfits.1
    show r.bytes.length - (l.rtm + r.rtmMsglen l.rtm) < r.bytes.length - l.rtm
    omega

/-- Every message that is handed on is complete just if the lengths of the messages of the handlers are large enough. -/
theorem forall_handed_complete_iff : (∀ m, Handed pid unset r s m → m.Complete r) ↔
      ∀ o, r.Visited o → r.Fits o → ∀ size, (r.rtmType o).headerSize = some size →
        size ≤ r.rtmMsglen o := by
  constructor
  · intro hc o hv hfits size hs
    obtain ⟨l, hl, rfl⟩ := visited_iff_reaches.mp hv
    have hm : r.message? l.rtm =
        some ⟨l.rtm, r.rtmMsglen l.rtm, r.rtmType l.rtm, (read l.rtm (r.rtmMsglen l.rtm) r.bytes).drop size⟩ := by
      rw [Reception.message?, if_pos hfits, hs, Option.map_some]
    exact (hc _ ⟨l, hl, hm⟩).2 size hs
  · rintro hlen m ⟨l, hl, hm⟩
    obtain ⟨hfits, ho, hlength, ht⟩ := message?_eq_some hm
    have hv := visited_iff_reaches.mpr ⟨l, hl, rfl⟩
    rw [Message.Complete, ho, hlength, ht]
    exact ⟨hfits.2, hlen l.rtm hv hfits⟩

/-- **The loop over the routing messages.** For every received buffer, `rtsockReady` ends and every message that it
hands to a handler is a part of the received bytes with a complete header, just if every message that the loop comes to
and that fits has a length field that is not 0 and covers the header for its handler. -/
theorem rtsockReady_safe_iff (pid : Nat) (unset : Option Family) (r : Reception) (s : RouteMonitor) :
    ((∃ fuel, (rtsockReady pid unset r fuel s).isSome) ∧ ∀ m, Handed pid unset r s m → m.Complete r) ↔
      ∀ o, r.Visited o → r.Fits o → r.SoundAt o := by
  have he : (∃ fuel, (rtsockReady pid unset r fuel s).isSome) ↔ Ends (round pid unset r) ⟨0, s⟩ := by
    simp only [rtsockReady, Option.isSome_map, ends_iff_loop]
  rw [he, ends_iff, forall_handed_complete_iff]
  constructor
  · rintro ⟨hp, hh⟩ o hv hfits
    exact ⟨hp o hv hfits, hh o hv hfits⟩
  · intro hs
    exact ⟨fun o hv hfits => (hs o hv hfits).1, fun o hv hfits => (hs o hv hfits).2⟩

/-! ## Examples -/

def shortReception (length code : UInt8) : Reception := ⟨[length, 0, 5, code], fun _ => 0, by simp, by simp⟩

/-- A length of 0 keeps the loop at its message for ever, and an `RTM_ADD` of four bytes is handed to its handler
without a header. -/
theorem short_messages_unsafe : (∀ fuel, rtsockReady 100 none (shortReception 0 12) fuel (.init 5) = none) ∧
      ∃ m, Handed 100 none (shortReception 4 1) (.init 5) m ∧ ¬m.Complete (shortReception 4 1) := by
  constructor
  · intro fuel
    by_contra hs
    have he : Ends (round 100 none (shortReception 0 12)) ⟨0, .init 5⟩ := by
      rw [ends_iff_loop]
      refine ⟨fuel, ?_⟩
      have hfu := Option.isSome_iff_ne_none.mpr hs
      rwa [rtsockReady, Option.isSome_map] at hfu
    exact absurd (ends_iff.mp he 0 .start (by decide)) (by decide)
  · refine ⟨⟨0, 4, .RTM_ADD, []⟩, ⟨⟨0, .init 5⟩, .refl _, rfl⟩, fun hc => ?_⟩
    exact absurd (hc.2 92 rfl) (by decide)

end Cimogus.Macos
