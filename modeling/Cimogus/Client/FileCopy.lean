import Cimogus.Client.ServerController
import Cimogus.Lib.Loops

/-!
# Copying a file to the server

`Client::scpFileCopy` sends a local file in chunks of 16384 bytes, of which the last one may be shorter. The sizes are
of type `int`, and are compared with one of type `size_t`.
-/

namespace Cimogus.Client.Ssh

open Lib.Loops List

inductive SizeT
  | bits32
  | bits64

/-- An `int` as a `size_t`. -/
def SizeT.ofInt : SizeT → Int → Int
  | .bits32, n => n % 4294967296
  | .bits64, n => n % 18446744073709551616

def bufferSize : Int := 16384

/-- A copy: the file, which does not change, and how the calls of libssh and `QFile` end. -/
structure FileCopy where
  content : List UInt8
  sizeT : SizeT
  /-- `ssh_scp_push_file`; nothing is `SSH_OK`, here and for `write`. -/
  push : Option (LibsshError × String)
  opened : Bool
  /-- What `fromFileErrorCode` makes of `fin.error()`. -/
  fileError : Option ErrorCode
  /-- `ssh_scp_write`, after the chunks that were written before. -/
  write : List (List UInt8) → List UInt8 → Option (LibsshError × String)

structure Sending where
  transferred : Int
  currentChunkSize : Int
  /-- The chunks that `ssh_scp_write` was called with, which are all that was read from the file. -/
  chunks : List (List UInt8)
  /-- What is returned inside the loop. -/
  returned : Option (Option ErrorCode)

namespace FileCopy

variable (f : FileCopy)

def localFileSize : Int := Int.bmod f.content.length 4294967296

/-- The size for the next chunk. -/
def nextChunkSize (s : Sending) : Int :=
  -- the last chunk
  if f.sizeT.ofInt (f.localFileSize - s.transferred) < bufferSize then f.sizeT.ofInt f.localFileSize % bufferSize
  else s.currentChunkSize

/-- `fin.read`, behind what was read before. -/
def nextChunk (s : Sending) : List UInt8 := (f.content.drop s.chunks.flatten.length).take (f.nextChunkSize s).toNat

def round (s : Sending) : Option Sending :=
  if s.returned ≠ none ∨ ¬s.transferred < f.localFileSize then none
  else
    let n := f.nextChunkSize s
    let chunk := f.nextChunk s
    if (chunk.length : Int) ≠ n then some ⟨s.transferred, n, s.chunks, some f.fileError⟩
    else
      match f.write s.chunks chunk with
      | some (code, message) =>
        some ⟨s.transferred, n, s.chunks ++ [chunk], some (fromLibsshErrorCode code message)⟩
      | none => some ⟨s.transferred + n, n, s.chunks ++ [chunk], none⟩

/-- The error code, nothing for `NoError`, and the chunks, if the fuel is enough for the loop. -/
def scpFileCopy (fuel : Nat) : Option (Option ErrorCode × List (List UInt8)) :=
  match f.push with
  | some (code, message) => some (fromLibsshErrorCode code message, [])
  | none =>
    if !f.opened then some (f.fileError, [])
    else (loop f.round fuel ⟨0, bufferSize, [], none⟩).map fun s => (s.returned.getD none, s.chunks)

/-- What holds after every round: as long as the loop goes on, all chunks but the last one of the file are whole. -/
structure Sent (s : Sending) : Prop where
  start : s.chunks.flatten <+: f.content
  sizes : ∀ c ∈ s.chunks, c ≠ [] ∧ c.length ≤ 16384
  going : s.returned = none → s.transferred = s.chunks.flatten.length ∧
    (s.transferred = f.content.length ∨ s.currentChunkSize = 16384 ∧ s.transferred % 16384 = 0)
  failed : s.returned ≠ none → ∃ before chunk, s.chunks = before ++ [chunk] ∧ f.write before chunk ≠ none

theorem SizeT.ofInt_of_range (z : SizeT) {n : Int} (h0 : 0 ≤ n) (h : n < 2147483648) : z.ofInt n = n := by
  cases z <;> exact Int.emod_eq_of_lt h0 (by omega)

variable {f} (hsize : f.content.length < 2147483648)

include hsize

theorem localFileSize_eq : f.localFileSize = f.content.length := by
  exact Int.bmod_eq_of_le_mul_two (by omega) (by omega)

theorem nextChunkSize_spec {s : Sending} (h0 : 0 ≤ s.transferred) (hlt : s.transferred < f.content.length)
    (hc : s.currentChunkSize = 16384) (hm : s.transferred % 16384 = 0) :
    0 < f.nextChunkSize s ∧ f.nextChunkSize s ≤ 16384 ∧ s.transferred + f.nextChunkSize s ≤ f.content.length ∧
      (s.transferred + f.nextChunkSize s = f.content.length ∨ f.nextChunkSize s = 16384) := by
  unfold nextChunkSize bufferSize
  rw [localFileSize_eq hsize, SizeT.ofInt_of_range _ (by omega) (by omega),
    SizeT.ofInt_of_range _ (by omega) (by omega)]
  by_cases hlast : f.content.length - s.transferred < 16384
  · rw [if_pos hlast]; omega
  · rw [if_neg hlast]; omega

theorem Sent.round {s t : Sending} (h : f.Sent s) (hr : f.round s = some t) : f.Sent t ∧
    f.content.length - t.transferred.toNat + (if t.returned = none then 1 else 0) <
      f.content.length - s.transferred.toNat + if s.returned = none then 1 else 0 := by
  unfold FileCopy.round at hr
  rw [localFileSize_eq hsize] at hr
  split at hr
  · cases hr
  next hgo =>
    rw [not_or, not_not, not_not] at hgo
    obtain ⟨hre, hlt⟩ := hgo
    obtain ⟨htr, hca⟩ := h.going hre
    obtain ⟨hc, hm⟩ := hca.resolve_left (by omega)
    obtain ⟨hp, hle, hfits, hlast⟩ := nextChunkSize_spec hsize (by omega) hlt hc hm
    have hch : (f.nextChunk s).length = (f.nextChunkSize s).toNat := by
      rw [nextChunk, length_take, length_drop]; omega
    have hst : (s.chunks ++ [f.nextChunk s]).flatten <+: f.content := by
      rw [flatten_append, flatten_singleton, nextChunk]
      nth_rewrite 1 [prefix_iff_eq_take.mp h.start]
      rw [← take_add]
      exact take_prefix _ _
    have hs : ∀ c ∈ s.chunks ++ [f.nextChunk s], c ≠ [] ∧ c.length ≤ 16384 := by
      intro c hc
      rcases mem_append.mp hc with hc | hc
      · exact h.sizes c hc
      · rw [mem_singleton.mp hc, ← length_pos_iff]
        omega
    rw [if_neg (by rw [hch]; omega)] at hr
    split at hr
    next error hw =>
      obtain rfl := Option.some.inj hr
      exact ⟨⟨hst, hs, nofun, fun _ => ⟨_, _, rfl, by rw [hw]; nofun⟩⟩, by simp [hre]⟩
    · obtain rfl := Option.some.inj hr
      refine ⟨⟨hst, hs, fun _ => ⟨?_, ?_⟩, fun hne => absurd rfl hne⟩, by simp only [hre, if_true]; omega⟩
      · rw [flatten_append, flatten_singleton, length_append]; dsimp only; omega
      · dsimp only; omega

/-- **The file is sent once.** The loop ends, for every file whose size is an `int`, with chunks of 1 to 16384 bytes. If
all writes succeed, they are the file, and there is no error. -/
theorem scpFileCopy_sends (hpush : f.push = none) (hopened : f.opened = true) : ∃ errorCode chunks,
    f.scpFileCopy (f.content.length + 2) = some (errorCode, chunks) ∧ chunks.flatten <+: f.content ∧
      (∀ c ∈ chunks, c ≠ [] ∧ c.length ≤ 16384) ∧
        ((∀ before c after, chunks = before ++ c :: after → f.write before c = none) →
        chunks.flatten = f.content ∧ errorCode = none) := by
  have hb : f.Sent ⟨0, bufferSize, [], none⟩ :=
    ⟨List.nil_prefix, nofun, fun _ => ⟨rfl, .inr ⟨rfl, rfl⟩⟩, fun hne => absurd rfl hne⟩
  have hfu : f.content.length - (0 : Int).toNat + 1 < f.content.length + 2 := by simp
  obtain ⟨s, hl, hs, he⟩ := loop_of_decreasing f.Sent
    (fun s => f.content.length - s.transferred.toNat + if s.returned = none then 1 else 0)
    (fun s t h (hr : f.round s = some t) => h.round hsize hr) hb hfu
  refine ⟨s.returned.getD none, s.chunks, ?_, hs.start, hs.sizes, fun hw => ?_⟩
  · unfold scpFileCopy
    rw [hpush, hopened, hl]
    rfl
  · have hre : s.returned = none := by
      by_contra hne
      obtain ⟨before, c, hc, hfa⟩ := hs.failed hne
      exact hfa (hw before c [] hc)
    -- the loop has not stopped before the end of the file
    have hd : ¬s.transferred < f.content.length := by
      intro hlt
      unfold FileCopy.round at he
      rw [localFileSize_eq hsize, if_neg (by simp [hre, hlt])] at he
      dsimp only at he
      split at he
      · cases he
      · split at he <;> cases he
    obtain ⟨htr, -⟩ := hs.going hre
    refine ⟨hs.start.eq_of_length_le (by omega), by rw [hre]; rfl⟩

omit hsize

/-- A file of two whole chunks. -/
def exampleCopy : FileCopy := ⟨List.replicate 32768 0, .bits32, none, true, none, fun _ _ => none⟩

theorem scpFileCopy_sends_two :
    ∃ errorCode chunks, exampleCopy.scpFileCopy (exampleCopy.content.length + 2) = some (errorCode, chunks) ∧
    chunks.flatten = List.replicate 32768 0 ∧ errorCode = none := by
  obtain ⟨errorCode, chunks, hc, -, -, hd⟩ := scpFileCopy_sends (f := exampleCopy)
    (by rw [exampleCopy, length_replicate]; decide) rfl rfl
  exact ⟨errorCode, chunks, hc, hd fun _ _ _ _ => rfl⟩

end FileCopy

end Cimogus.Client.Ssh
