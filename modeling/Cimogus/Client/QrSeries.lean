import Cimogus.Lib.Runs
import Cimogus.Lib.Tables
import Mathlib.Data.List.Induction

/-!
# Series of QR codes

A configuration that does not fit into one QR code is shown as a series of them. Each carries the magic number, how many
chunks there are, its own number and its chunk; nothing says which series it is of. `parseQrCodeChunk` collects the
chunks under their numbers until it has as many as were announced, and then hands what it has to `extractConfigFromQr`.
-/

namespace Cimogus.Client.Qr

open Lib Lib.Runs List

abbrev Bytes := List UInt8

/-- What the stream over the decoded text gives: the numbers and the chunk that stand behind `qrMagicCode`, or all of
the bytes of any other code. A number that the stream has no bytes for is 0, and such a chunk is empty. -/
inductive Code where
  | chunk (chunksCount chunkId : UInt8) (data : Bytes)
  | plain (data : Bytes)
  deriving DecidableEq

/-- A call of `extractConfigFromQr`, from the branch for chunks or from the other one. -/
inductive Extraction where
  | chunks (data : Bytes)
  | plain (data : Bytes)
  deriving DecidableEq

/-- The members of `ImportController` that scanning uses, and the calls of `extractConfigFromQr` so far. -/
structure Scanner where
  qrCodeChunks : Table Nat Bytes
  totalQrCodeChunksCount : Nat
  receivedQrCodeChunksCount : Nat
  isQrCodeProcessed : Bool
  extractions : List Extraction

/-- The number of chunks in the map, whose keys are bytes. -/
def size (chunks : Table Nat Bytes) : Nat := (List.range 256).countP fun i => (chunks i).isSome

/-- The loop over `m_qrCodeChunks.value(i)`; a missing chunk has the empty value. -/
def collect (chunks : Table Nat Bytes) (count : Nat) : Bytes := (List.range count).flatMap fun i => (chunks i).getD []

namespace Scanner

variable (extract : Bytes → Bool)

def clear (s : Scanner) : Scanner :=
  { s with qrCodeChunks := Table.empty, totalQrCodeChunksCount := 0, receivedQrCodeChunksCount := 0 }

def reset : Scanner := ⟨Table.empty, 0, 0, true, []⟩

/-- The chunk is put under its number, among those of a series of the same length. -/
def store (chunksCount chunkId : UInt8) (data : Bytes) (s : Scanner) : Scanner :=
  let held := if s.totalQrCodeChunksCount ≠ chunksCount.toNat then Table.empty else s.qrCodeChunks
  let chunks := Function.update held chunkId.toNat (some data)
  { s with
    qrCodeChunks := chunks
    totalQrCodeChunksCount := chunksCount.toNat
    receivedQrCodeChunksCount := size chunks }

/-- The call of `extractConfigFromQr`; scanning ends with the first one that succeeds. -/
def extractConfig (call : Extraction) (data : Bytes) : Step Scanner := fun s =>
  if extract data then (true, { s with extractions := s.extractions ++ [call], isQrCodeProcessed := false })
  else (false, { s with extractions := s.extractions ++ [call] })

theorem extractions_extractConfig (call : Extraction) (data : Bytes) (s : Scanner) :
    (extractConfig extract call data s).2.extractions = s.extractions ++ [call] := by
  unfold extractConfig
  split <;> rfl

def parseQrCodeChunk (code : Code) : Step Scanner := fun s =>
  if !s.isQrCodeProcessed then (false, s)
  else
    match code with
    | .chunk chunksCount chunkId data =>
      let s := s.store chunksCount chunkId data
      if size s.qrCodeChunks = s.totalQrCodeChunksCount then
        let data := collect s.qrCodeChunks s.totalQrCodeChunksCount
        let (ok, s) := extractConfig extract (.chunks data) data s
        if ok then (true, s) else (false, s.clear)
      else (false, s)
    | .plain data => extractConfig extract (.plain data) data s

def decodeQrCode (code : Code) : Step Scanner := fun s =>
  parseQrCodeChunk extract code (if !s.isQrCodeProcessed then { s.clear with isQrCodeProcessed := true } else s)

end Scanner

inductive Platform where
  | android
  | ios
  deriving DecidableEq

namespace Platform

/-- The camera of Android calls `decodeQrCode`, that of iOS `parseQrCodeChunk`. -/
def scan (extract : Bytes → Bool) : Platform → Code → Step Scanner
  | android => Scanner.decodeQrCode extract
  | ios => Scanner.parseQrCodeChunk extract

def startDecodingQr : Platform → Scanner → Scanner
  | android => Scanner.clear
  | ios => fun s => { s.clear with isQrCodeProcessed := true }

end Platform

/-! ## Chunks of one series -/

/-- A payload that was cut into chunks, with as many of them as a byte can count. -/
structure Series where
  chunks : List Bytes
  pos : 0 < chunks.length
  le : chunks.length ≤ 255

namespace Series

def count (x : Series) : Nat := x.chunks.length

def payload (x : Series) : Bytes := x.chunks.flatten

theorem toNat_count (x : Series) : (UInt8.ofNat x.count).toNat = x.count :=
  UInt8.toNat_ofNat_of_lt' (Nat.lt_succ_of_le x.le)

theorem toNat_ofNat (x : Series) (i : Fin x.count) : (UInt8.ofNat i).toNat = i :=
  UInt8.toNat_ofNat_of_lt' (Nat.lt_succ_of_le (Nat.le_trans (Nat.le_of_lt i.isLt) x.le))

/-- Whatever is held is a chunk of the series, under its number. -/
def Holds (x : Series) (chunks : Table Nat Bytes) : Prop := ∀ i, (chunks i).isSome → chunks i = x.chunks[i]?

theorem holds_empty (x : Series) : x.Holds Table.empty := by
  intro i h
  cases h

variable {x : Series} {chunks : Table Nat Bytes}

variable (h : x.Holds chunks)

include h

theorem Holds.update {i : Nat} {data : Bytes} (hd : x.chunks[i]? = some data) :
    x.Holds (Function.update chunks i (some data)) := by
  intro j hs
  by_cases hji : j = i
  · subst hji
    rw [Function.update_self, hd]
  · rw [Function.update_of_ne hji] at hs ⊢
    exact h j hs

theorem Holds.lt_count {i : Nat} (hs : (chunks i).isSome) : i < x.count := by
  rw [h i hs] at hs
  exact (List.getElem?_eq_some_iff.mp (Option.eq_some_of_isSome hs)).1

theorem Holds.size_eq_iff : size chunks = x.count ↔ ∀ i < x.count, (chunks i).isSome := by
  obtain ⟨m, hm⟩ := Nat.exists_eq_add_of_le (Nat.le_succ_of_le x.le)
  -- the numbers from the count on hold nothing
  have hrest : ((List.range m).map (x.count + ·)).countP (fun i => (chunks i).isSome) = 0 := by
    refine countP_eq_zero.mpr fun i hi hso => ?_
    obtain ⟨k, -, rfl⟩ := mem_map.mp hi
    exact absurd (h.lt_count hso) (Nat.not_lt_of_le (Nat.le_add_right _ _))
  have hs : size chunks = (List.range x.count).countP fun i => (chunks i).isSome := by
    rw [size, show (256 : Nat) = x.count + m from hm, range_add, countP_append, hrest, Nat.add_zero]
  have hl := countP_eq_length (p := fun i => (chunks i).isSome) (l := List.range x.count)
  rw [length_range] at hl
  rw [hs, hl]
  exact forall_congr' fun i => by rw [mem_range]

theorem Holds.collect_eq (ha : ∀ i < x.count, (chunks i).isSome) :
    collect chunks x.count = x.payload := by
  have hm : (List.range x.count).map (fun i => (chunks i).getD []) = x.chunks := by
    refine ext_getElem (by simp [count]) fun i hi hi' => ?_
    rw [getElem_map, getElem_range, h i (ha i hi'), getElem?_eq_getElem hi', Option.getD_some]
  rw [collect, flatMap_def, hm, payload]

end Series

/-! ## One scan

`store` is the part of the scan that all the rest looks at. -/

/-- A scanned code of a series. A number below the count comes with the chunk of that number; there may be other ones.
-/
structure Scan where
  series : Series
  id : UInt8
  data : Bytes
  data_eq : id.toNat < series.count → series.chunks[id.toNat]? = some data

theorem Platform.scan_eq (p : Platform) (extract : Bytes → Bool) (code : Code) (s : Scanner) :
    p.scan extract code s = Scanner.parseQrCodeChunk extract code s ∨
      p.scan extract code s = Scanner.parseQrCodeChunk extract code { s.clear with isQrCodeProcessed := true } := by
  cases p with
  | ios => exact .inl rfl
  | android =>
    simp only [Platform.scan, Scanner.decodeQrCode]
    split
    · exact .inr rfl
    · exact .inl rfl

theorem Platform.scan_of_processed (p : Platform) (extract : Bytes → Bool) (code : Code) {s : Scanner}
    (hs : s.isQrCodeProcessed = true) : p.scan extract code s = Scanner.parseQrCodeChunk extract code s := by
  cases p with
  | ios => rfl
  | android => simp [Platform.scan, Scanner.decodeQrCode, hs]

namespace Scan

def code (x : Scan) : Code := .chunk (.ofNat x.series.count) x.id x.data

def storeIn (x : Scan) : Scanner → Scanner := .store (.ofNat x.series.count) x.id x.data

/-- The number is one of the series, and what the scan joins, held under the same count, is of the series too. -/
def Alone (x : Scan) (s : Scanner) : Prop :=
  x.id.toNat < x.series.count ∧
    (s.isQrCodeProcessed → s.totalQrCodeChunksCount = x.series.count → x.series.Holds s.qrCodeChunks)

variable {x : Scan} {s : Scanner}

theorem total_storeIn : (x.storeIn s).totalQrCodeChunksCount = x.series.count := x.series.toNat_count

theorem chunks_storeIn : (x.storeIn s).qrCodeChunks =
    Function.update (if s.totalQrCodeChunksCount ≠ x.series.count then Table.empty else s.qrCodeChunks) x.id.toNat
      (some x.data) := by
  simp only [storeIn, Scanner.store, x.series.toNat_count]

theorem Alone.holds (h : x.Alone s) (hs : s.isQrCodeProcessed = true) : x.series.Holds (x.storeIn s).qrCodeChunks := by
  rw [chunks_storeIn]
  refine Series.Holds.update ?_ (x.data_eq h.1)
  split
  · exact x.series.holds_empty
  · rename_i heq
    exact h.2 hs (not_not.mp heq)

theorem Alone.clear (h : x.Alone s) (enabled : Bool) : x.Alone { s.clear with isQrCodeProcessed := enabled } :=
  ⟨h.1, fun _ hze => absurd hze (Nat.ne_of_lt x.series.pos)⟩

variable (extract : Bytes → Bool)

theorem parse_code (hs : s.isQrCodeProcessed = true) :
    Scanner.parseQrCodeChunk extract x.code s =
      if size (x.storeIn s).qrCodeChunks = x.series.count then
        let data := collect (x.storeIn s).qrCodeChunks x.series.count
        let (ok, s) := Scanner.extractConfig extract (.chunks data) data (x.storeIn s)
        if ok then (true, s) else (false, s.clear)
      else (false, x.storeIn s) := by
  rw [← total_storeIn (x := x) (s := s)]
  simp only [Scanner.parseQrCodeChunk, hs, code, Bool.not_true, Bool.false_eq_true, if_false]
  rfl

theorem extractions_parse_of_size_eq (hs : s.isQrCodeProcessed = true)
    (hsi : size (x.storeIn s).qrCodeChunks = x.series.count) :
      (Scanner.parseQrCodeChunk extract x.code s).2.extractions =
      s.extractions ++ [.chunks (collect (x.storeIn s).qrCodeChunks x.series.count)] := by
  rw [parse_code extract hs, if_pos hsi]
  dsimp only
  split
  · exact Scanner.extractions_extractConfig extract _ _ _
  · exact Scanner.extractions_extractConfig extract _ _ _

theorem scan_of_size_ne (p : Platform) (hs : s.isQrCodeProcessed = true)
    (hsi : size (x.storeIn s).qrCodeChunks ≠ x.series.count) : p.scan extract x.code s = (false, x.storeIn s) := by
  rw [p.scan_of_processed extract _ hs, parse_code extract hs, if_neg hsi]

theorem Alone.extractions_parse (h : x.Alone s) :
    (Scanner.parseQrCodeChunk extract x.code s).2.extractions = s.extractions ∨
      (Scanner.parseQrCodeChunk extract x.code s).2.extractions = s.extractions ++ [.chunks x.series.payload] := by
  cases hs : s.isQrCodeProcessed with
  | false => exact .inl (by simp [Scanner.parseQrCodeChunk, hs])
  | true =>
    by_cases hsi : size (x.storeIn s).qrCodeChunks = x.series.count
    · have hh := h.holds hs
      rw [extractions_parse_of_size_eq extract hs hsi, hh.collect_eq (hh.size_eq_iff.mp hsi)]
      exact .inr rfl
    · rw [parse_code extract hs, if_neg hsi]
      exact .inl rfl

theorem Alone.extractions_scan (h : x.Alone s) (p : Platform) :
    (p.scan extract x.code s).2.extractions = s.extractions ∨
      (p.scan extract x.code s).2.extractions = s.extractions ++ [.chunks x.series.payload] := by
  obtain heq | heq := p.scan_eq extract x.code s
  · rw [heq]
    exact h.extractions_parse extract
  · rw [heq]
    exact (h.clear true).extractions_parse extract

end Scan

/-! ## A series scanned alone -/

section OneSeries

variable (p : Platform) (extract : Bytes → Bool) (x : Series)

def Series.scan (i : Fin x.count) : Scan where
  series := x
  id := .ofNat i
  data := x.chunks.get i
  data_eq _ := by
    rw [x.toNat_ofNat]
    exact getElem?_eq_getElem i.isLt

theorem Series.toNat_id_scan (i : Fin x.count) : (x.scan i).id.toNat = i := x.toNat_ofNat i

def Series.step (i : Fin x.count) (s : Scanner) : Scanner := (p.scan extract (x.scan i).code s).2

/-- Just the chunks with these numbers are held, and nothing was handed over. -/
structure Series.Scanned (ids : List (Fin x.count)) (s : Scanner) : Prop where
  processed : s.isQrCodeProcessed = true
  extractions : s.extractions = []
  total : ids ≠ [] → s.totalQrCodeChunksCount = x.count
  holds : x.Holds s.qrCodeChunks
  isSome_iff : ∀ i : Fin x.count, (s.qrCodeChunks i).isSome ↔ i ∈ ids

variable {x} {ids : List (Fin x.count)} {s : Scanner}

theorem Series.scanned_reset : x.Scanned [] .reset where
  processed := rfl
  extractions := rfl
  total h := absurd rfl h
  holds := x.holds_empty
  isSome_iff _ := by simp [Scanner.reset, Table.empty]

theorem Series.Scanned.storeIn (h : x.Scanned ids s) (i : Fin x.count) :
    x.Scanned (ids ++ [i]) ((x.scan i).storeIn s) where
  processed := h.processed
  extractions := h.extractions
  total _ := Scan.total_storeIn
  holds := Scan.Alone.holds ⟨(x.toNat_id_scan i).symm ▸ i.isLt, fun _ _ => h.holds⟩ h.processed
  isSome_iff j := by
    -- what is held is kept: the count only changes with the first scan
    have hh : (if s.totalQrCodeChunksCount ≠ x.count then Table.empty else s.qrCodeChunks) j = s.qrCodeChunks j := by
      split
      · rename_i hne
        have hi : ids = [] := by
          by_contra hi
          exact hne (h.total hi)
        have hno : s.qrCodeChunks j = none := by
          rw [← Option.not_isSome_iff_eq_none, h.isSome_iff j, hi]
          exact not_mem_nil
        rw [hno, Table.empty]
      · rfl
    rw [Scan.chunks_storeIn, x.toNat_id_scan]
    by_cases hji : j = i
    · subst hji
      simp
    · rw [Function.update_of_ne (Fin.val_ne_of_ne hji)]
      simp [hji, show (x.scan i).series = x from rfl, hh, h.isSome_iff j]

open Series

theorem Series.Scanned.step_of_missing (h : x.Scanned ids s) {i j : Fin x.count} (hj : j ∉ ids ++ [i]) :
    x.Scanned (ids ++ [i]) (x.step p extract i s) := by
  have hs := h.storeIn i
  have hsi : size ((x.scan i).storeIn s).qrCodeChunks ≠ x.count := fun hsi =>
    hj ((hs.isSome_iff j).mp (hs.holds.size_eq_iff.mp hsi j j.isLt))
  rw [step, Scan.scan_of_size_ne extract p h.processed hsi]
  exact hs

theorem Series.Scanned.extractions_of_complete (h : x.Scanned ids s) {i : Fin x.count} (ha : ∀ j, j ∈ ids ++ [i]) :
    (x.step p extract i s).extractions = [.chunks x.payload] := by
  have hs := h.storeIn i
  have hso : ∀ j < x.count, (((x.scan i).storeIn s).qrCodeChunks j).isSome := fun j hj =>
    (hs.isSome_iff ⟨j, hj⟩).mpr (ha _)
  rw [step, p.scan_of_processed extract _ h.processed,
    Scan.extractions_parse_of_size_eq extract h.processed (hs.holds.size_eq_iff.mpr hso), h.extractions]
  exact congrArg (fun data => [Extraction.chunks data]) (hs.holds.collect_eq hso)

/-- As long as a chunk is missing. -/
theorem Series.scanned_run {j : Fin x.count} (hj : j ∉ ids) : x.Scanned ids (run (x.step p extract) ids .reset) := by
  induction ids using List.reverseRecOn with
  | nil => exact scanned_reset
  | append_singleton ids i ih =>
    rw [run_append]
    exact (ih fun hm => hj (mem_append_left _ hm)).step_of_missing p extract hj

theorem first_extraction_of_series (x : Series) (scans : List (Fin x.count)) (hall : ∀ i, i ∈ scans) :
    ∃ before last after, scans = before ++ last :: after ∧ last ∉ before ∧ (∀ i ≠ last, i ∈ before) ∧
      (∀ n ≤ before.length, (run (x.step p extract) (scans.take n) .reset).extractions = []) ∧
      (run (x.step p extract) (before ++ [last]) .reset).extractions = [.chunks x.payload] := by
  have hni : ¬∀ i : Fin x.count, i ∈ ([] : List (Fin x.count)) := fun h => not_mem_nil (h ⟨0, x.pos⟩)
  obtain ⟨before, last, after, rfl, hb, hlast⟩ :=
    @exists_first_of_not_nil _ (fun ids => ∀ i, i ∈ ids) hni _ hall
  obtain ⟨missing, hm⟩ := not_forall.mp hb
  -- only the last one can be missing before it
  have ho : ∀ i ≠ last, i ∈ before := fun i hi => (mem_append.mp (hlast i)).resolve_right (by simpa using hi)
  have heq : missing = last := by
    by_contra hne
    exact hm (ho missing hne)
  subst heq
  refine ⟨before, missing, after, rfl, hm, ho, fun n hn => ?_, ?_⟩
  · rw [take_append_of_le_length hn]
    exact (scanned_run p extract fun hme => hm (mem_of_mem_take hme)).extractions
  · rw [run_append]
    exact (scanned_run p extract hm).extractions_of_complete p extract hlast

def Series.small : Series := ⟨[[1, 2], [3]], by decide, by decide⟩

theorem first_extraction_of_repeated : ∃ (before : List (Fin 2)) (last : Fin 2) (after : List (Fin 2)),
    [1, 1, 0, 1] = before ++ last :: after ∧ last ∉ before ∧ (∀ i ≠ last, i ∈ before) ∧
        (∀ n ≤ before.length,
        (run (small.step .ios fun _ => true) (([1, 1, 0, 1] : List (Fin 2)).take n) .reset).extractions = []) ∧
      (run (small.step .ios fun _ => true) (before ++ [last]) .reset).extractions = [.chunks [1, 2, 3]] :=
  first_extraction_of_series .ios (fun _ => true) small ([1, 1, 0, 1] : List (Fin 2))
    (by decide : ∀ i : Fin 2, i ∈ ([1, 1, 0, 1] : List (Fin 2)))

end OneSeries

/-! ## Any number of series -/

inductive Event where
  | scan (x : Scan)
  | plain (data : Bytes)
  | start

namespace Event

variable (p : Platform) (extract : Bytes → Bool)

def step : Event → Scanner → Scanner
  | scan x, s => (p.scan extract x.code s).2
  | plain data, s => (p.scan extract (.plain data) s).2
  | start, s => p.startDecodingQr s

def Alone : Event → Scanner → Prop
  | scan x, s => x.Alone s
  | _, _ => True

theorem extractions_plain (data : Bytes) (s : Scanner) : (step p extract (plain data) s).extractions = s.extractions ∨
      (step p extract (plain data) s).extractions = s.extractions ++ [.plain data] := by
  have hp (s : Scanner) : (Scanner.parseQrCodeChunk extract (.plain data) s).2.extractions = s.extractions ∨
      (Scanner.parseQrCodeChunk extract (.plain data) s).2.extractions = s.extractions ++ [.plain data] := by
    cases hs : s.isQrCodeProcessed with
    | false => exact .inl (by simp [Scanner.parseQrCodeChunk, hs])
    | true =>
      simp only [Scanner.parseQrCodeChunk, hs, Bool.not_true, Bool.false_eq_true, if_false]
      exact .inr (Scanner.extractions_extractConfig extract _ _ _)
  simp only [step]
  obtain heq | heq := p.scan_eq extract (.plain data) s
  · rw [heq]
    exact hp s
  · rw [heq]
    exact hp { s.clear with isQrCodeProcessed := true }

theorem extractions_start (s : Scanner) : (step p extract start s).extractions = s.extractions := by
  cases p <;> rfl

end Event

/-- All that was handed over by the branch for chunks are payloads of series that were scanned. -/
def Scanner.OnlySeriesOf (events : List Event) (s : Scanner) : Prop :=
  ∀ data, .chunks data ∈ s.extractions → ∃ x, .scan x ∈ events ∧ data = x.series.payload

open Event

theorem Scanner.OnlySeriesOf.step {events : List Event} {s : Scanner} (h : s.OnlySeriesOf events) (p : Platform)
    (extract : Bytes → Bool) {event : Event} (ha : event.Alone s) (hm : event ∈ events) :
    (event.step p extract s).OnlySeriesOf events := by
  intro data hd
  cases event with
  | scan x =>
    obtain heq | heq := Scan.Alone.extractions_scan extract ha p
    · exact h data (heq ▸ hd)
    · obtain hold | hnew := mem_append.mp (heq ▸ hd)
      · exact h data hold
      · exact ⟨x, hm, by simpa using hnew⟩
  | plain bytes =>
    obtain heq | heq := extractions_plain p extract bytes s
    · exact h data (heq ▸ hd)
    · exact h data (by simpa [heq] using hd)
  | start => exact h data (extractions_start p extract s ▸ hd)

theorem extractions_of_alone (p : Platform) (extract : Bytes → Bool) (events : List Event) {s : Scanner}
    (hs : s.extractions = []) (halone : Guarded (step p extract) Event.Alone events s) :
    (run (step p extract) events s).OnlySeriesOf events := by
  have hg : Guarded (step p extract) (fun event s => event.Alone s ∧ event ∈ events) events s :=
    halone.and_of_mem fun _ hm => hm
  have hst : s.OnlySeriesOf events := by simp [Scanner.OnlySeriesOf, hs]
  exact run_invariant_of_guarded (fun event s he h => h.step p extract he.1 he.2) events hg hst

def Series.other : Series := ⟨[[4], [5]], by decide, by decide⟩

def Series.longer : Series := ⟨[[6], [7], [8]], by decide, by decide⟩

/-- A series that is interrupted by one of another length starts again. -/
theorem extractions_of_interrupted :
    let events : List Event :=
      [.scan (Series.longer.scan ⟨1, by decide⟩), .scan (Series.small.scan ⟨1, by decide⟩),
      .scan (Series.small.scan ⟨0, by decide⟩)]
    (run (step .android fun _ => false) events .reset).OnlySeriesOf events := by
  let longer := Series.longer.scan ⟨1, by decide⟩
  let small := Series.small.scan ⟨1, by decide⟩
  have hl : (scan longer).step .android (fun _ => false) .reset = longer.storeIn .reset :=
    congrArg Prod.snd (longer.scan_of_size_ne _ .android rfl (by decide +kernel))
  have hs : (scan small).step .android (fun _ => false) (longer.storeIn .reset) =
      small.storeIn (longer.storeIn .reset) :=
    congrArg Prod.snd (small.scan_of_size_ne _ .android rfl (by decide +kernel))
  have ha : small.Alone (longer.storeIn .reset) := ⟨by decide, fun _ h => absurd h (by decide)⟩
  refine extractions_of_alone .android _ _ rfl
    ⟨⟨by decide, fun _ h => absurd h (by decide)⟩, hl ▸ ha, ⟨by decide, ?_⟩, trivial⟩
  intro _ _
  have hh := ha.holds rfl
  rw [← hs, ← hl] at hh
  exact hh

/-- The numbers 0 of one series and 1 of another make two chunks, and so do the numbers 0 and 7 of one. -/
theorem series_mixed :
    let mixed : List Event :=
      [.scan (Series.small.scan ⟨0, by decide⟩), .scan (Series.other.scan ⟨1, by decide⟩)]
    let beyond : List Event :=
      [.scan (Series.small.scan ⟨0, by decide⟩), .scan ⟨Series.small, 7, [9], by decide⟩]
    (run (step .android fun _ => false) mixed .reset).extractions = [.chunks [1, 2, 5]] ∧
      ¬(run (step .android fun _ => false) mixed .reset).OnlySeriesOf mixed ∧
      (run (step .ios fun _ => false) beyond .reset).extractions = [.chunks [1, 2]] ∧
      ¬(run (step .ios fun _ => false) beyond .reset).OnlySeriesOf beyond := by
  intro mixed beyond
  have hm : (run (step .android fun _ => false) mixed .reset).extractions = [.chunks [1, 2, 5]] := by
    decide +kernel
  have hb : (run (step .ios fun _ => false) beyond .reset).extractions = [.chunks [1, 2]] := by
    decide +kernel
  refine ⟨hm, fun h => ?_, hb, fun h => ?_⟩
  · obtain ⟨x, hx, hd⟩ := h [1, 2, 5] (hm ▸ mem_singleton_self _)
    simp only [mixed, mem_cons, scan.injEq, not_mem_nil, or_false] at hx
    rcases hx with rfl | rfl <;> revert hd <;> decide
  · obtain ⟨x, hx, hd⟩ := h [1, 2] (hb ▸ mem_singleton_self _)
    simp only [beyond, mem_cons, scan.injEq, not_mem_nil, or_false] at hx
    rcases hx with rfl | rfl <;> revert hd <;> decide

end Cimogus.Client.Qr
