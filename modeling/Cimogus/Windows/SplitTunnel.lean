import Cimogus.Lib.Buffers
import Std.Data.ExtTreeMap

/-!
# The buffers of `WindowsSplitTunnel`

The split tunnel driver gets the paths of the excluded applications, and the processes that run, in buffers: a header,
an entry for each path, and behind the entries the paths themselves, to which the entries refer by offset and length.
The size of a buffer is computed in one pass over the paths and the offsets in another.
-/

namespace Cimogus.Windows.SplitTunnel

open Lib.Buffers List

/-! ## Building the buffers -/

/-- `CONFIGURATION_HEADER` and `PROCESS_DISCOVERY_HEADER`: `NumEntries` and `TotalLength`. -/
def headerSize : Nat := 16

structure CopyState where
  buffer : Buffer
  /-- The offset of the entry that is next. -/
  entry : Nat
  stringDest : Nat
  stringOffset : Nat

/-- A round of the loop over the paths. The length is cut to a `USHORT`. -/
def copyPath (s : CopyState) (path : WString) : Option CopyState := do
  let stringLength := 2 * path.length
  let buffer ← write (s.entry + 8) (le 2 stringLength) s.buffer
  let buffer ← write s.entry (le 8 s.stringOffset) buffer
  let buffer ← write s.stringDest (wide path) buffer
  some ⟨buffer, s.entry + 16, s.stringDest + stringLength, s.stringOffset + stringLength⟩

/-- The sizes are those of 64-bit Windows; an entry is 16 bytes long. -/
def generateAppConfiguration (convertPath : String → WString) (appPaths : List String) : Option Buffer := do
  let dosPaths := appPaths.map convertPath
  let cummulatedStringSize := (dosPaths.map fun path => 2 * path.length).sum
  let bufferSize := headerSize + 16 * appPaths.length + cummulatedStringSize
  let copied ← dosPaths.foldlM copyPath ⟨zeros bufferSize, headerSize, headerSize + 16 * appPaths.length, 0⟩
  let buffer ← write 0 (le 8 appPaths.length) copied.buffer
  write 8 (le 8 bufferSize) buffer

structure ProcessInfo where
  ProcessId : UInt32
  ParentProcessId : UInt32
  DevicePath : WString
  deriving DecidableEq

/-- `QMap<DWORD, ProcessInfo>`: a later process with the same id replaces an earlier one. -/
def processesOf (snapshot : List ProcessInfo) : Std.ExtTreeMap UInt32 ProcessInfo :=
  snapshot.foldl (fun processes info => processes.insert info.ProcessId info) ∅

/-- `processes.values()`. -/
def processList (snapshot : List ProcessInfo) : List ProcessInfo := (processesOf snapshot).toList.map Prod.snd

structure BlobState where
  out : Buffer
  entry : Nat
  currentStringOffset : Nat

def copyProcess (stringBuffer : Nat) (s : BlobState) (process : ProcessInfo) : Option BlobState := do
  let out ← write s.entry (le 8 process.ProcessId.toNat) s.out
  let out ← write (s.entry + 8) (le 8 process.ParentProcessId.toNat) out
  if process.DevicePath = [] then
    let out ← write (s.entry + 16) (le 8 0) out
    let out ← write (s.entry + 24) (le 2 0) out
    some ⟨out, s.entry + 32, s.currentStringOffset⟩
  else
    let imageNameLength := 2 * process.DevicePath.length
    let out ← write (s.entry + 16) (le 8 s.currentStringOffset) out
    let out ← write (s.entry + 24) (le 2 imageNameLength) out
    let out ← write (stringBuffer + s.currentStringOffset) (wide process.DevicePath) out
    some ⟨out, s.entry + 32, s.currentStringOffset + imageNameLength⟩

/-- For the processes of a snapshot; without any there is no buffer. An entry is 32 bytes long. -/
def generateProcessBlob (snapshot : List ProcessInfo) : Option Buffer := do
  let processes := processesOf snapshot
  let list := processList snapshot
  if list = [] then some []
  else
    let totalStringSize := (list.map fun process => 2 * process.DevicePath.length).sum
    let bufferSize := headerSize + 32 * processes.size + totalStringSize
    let copied ← list.foldlM (copyProcess (headerSize + 32 * processes.size)) ⟨zeros bufferSize, headerSize, 0⟩
    let out ← write 0 (le 8 processes.size) copied.out
    write 8 (le 8 bufferSize) out

/-! ## Reading them -/

/-- The length of an entry, and where it has the offset and the length of the name. -/
structure Format where
  entrySize : Nat
  ImageNameOffset : Nat
  ImageNameLength : Nat

def configurationEntry : Format := ⟨16, 0, 8⟩

/-- `PROCESS_DISCOVERY_ENTRY`, behind the two handles. -/
def processDiscoveryEntry : Format := ⟨32, 16, 24⟩

namespace Format

variable (f : Format) (b : Buffer)

def numEntries : Nat := readLe 0 8 b

def totalLength : Nat := readLe 8 8 b

def field (i offset size : Nat) : Nat := readLe (headerSize + f.entrySize * i + offset) size b

def names : List (Nat × Nat) :=
  (List.range (numEntries b)).map fun i => (f.field b i f.ImageNameOffset 8, f.field b i f.ImageNameLength 2)

def stringArea : Buffer := b.drop (headerSize + f.entrySize * numEntries b)

def strings : List WString := (f.names b).map fun name => units (read name.1 name.2 (f.stringArea b))

structure Holds (paths : List WString) : Prop where
  totalLength_eq : totalLength b = b.length
  numEntries_eq : numEntries b = paths.length
  inside : ∀ name ∈ f.names b, name.1 + name.2 ≤ (f.stringArea b).length
  consecutive : ((f.names b).filter (·.2 ≠ 0)).IsChain fun x y => y.1 = x.1 + x.2
  disjoint : ((f.names b).filter (·.2 ≠ 0)).Pairwise fun x y => x.1 + x.2 ≤ y.1
  strings_eq : f.strings b = paths

end Format

/-! ## Tables -/

variable (o : Nat)

section Table

variable {α : Type} (p : α → WString) (e : Nat → α → Buffer)

def stringSize (items : List α) : Nat := (items.map fun x => 2 * (p x).length).sum

/-- The entries, if the first path is at offset `o`. -/
def entries : Nat → List α → List Buffer
  | _, [] => []
  | o, x :: items => e o x :: entries (o + 2 * (p x).length) items

def header (items : List α) (z : Nat) : Buffer := le 8 items.length ++ le 8 z

def table (f : Format) (items : List α) : Buffer :=
  header items (headerSize + f.entrySize * items.length + stringSize p items) ++
    ((entries p e 0 items).flatten ++ items.flatMap fun x => wide (p x))

variable {p e}

theorem stringSize_cons (x : α) (items : List α) :
    stringSize p (x :: items) = 2 * (p x).length + stringSize p items := by
  simp [stringSize]

variable (done : List α)

theorem stringSize_append (x : α) : stringSize p (done ++ [x]) = stringSize p done + 2 * (p x).length := by
  simp [stringSize]

theorem length_strings (items : List α) : (items.flatMap fun x => wide (p x)).length = stringSize p items := by
  induction items with
  | nil => rfl
  | cons x items ih => rw [flatMap_cons, length_append, ih, length_wide, stringSize_cons]

theorem entries_append (x : α) :
    entries p e o (done ++ [x]) = entries p e o done ++ [e (o + stringSize p done) x] := by
  induction done generalizing o with
  | nil => rfl
  | cons y done ih =>
    rw [cons_append, entries, ih, Nat.add_assoc]
    rfl

theorem length_entries (o : Nat) (items : List α) : (entries p e o items).length = items.length := by
  induction items generalizing o with
  | nil => rfl
  | cons x items ih => rw [entries, length_cons, ih, length_cons]

variable {z : Nat}

theorem length_of_mem_entries (hsize : ∀ o x, (e o x).length = z) {o : Nat} {items : List α} {r : Buffer}
    (h : r ∈ entries p e o items) : r.length = z := by
  induction items generalizing o with
  | nil => cases h
  | cons x items ih =>
    rcases mem_cons.mp h with rfl | h
    · exact hsize o x
    · exact ih h

theorem length_flatten_entries (hsize : ∀ o x, (e o x).length = z) (o : Nat) (items : List α) :
    (entries p e o items).flatten.length = z * items.length := by
  induction items generalizing o with
  | nil => rfl
  | cons x items ih =>
    rw [entries, flatten_cons, length_append, ih, hsize, length_cons]
    ring

variable (p e z)

/-- The buffer where some items are done and the others are not. -/
def copied (done rest : List α) : Buffer :=
  zeros headerSize ++ ((entries p e 0 done).flatten ++ (zeros (z * rest.length) ++
    ((done.flatMap fun x => wide (p x)) ++ zeros (stringSize p rest))))

variable {p e z}

theorem copied_nil (items : List α) :
    copied p e z [] items = zeros (headerSize + z * items.length + stringSize p items) := by
  rw [zeros_add, zeros_add]
  simp [copied, entries]

theorem copied_cons (x : α) (rest : List α) :
    ∃ c, copied p e z done (x :: rest) = (zeros headerSize ++ (entries p e 0 done).flatten) ++ (zeros z ++ c) ∧
      (zeros headerSize ++ (entries p e 0 done).flatten) ++ (e (stringSize p done) x ++ c) =
        (zeros headerSize ++ ((entries p e 0 (done ++ [x])).flatten ++ (zeros (z * rest.length) ++
          done.flatMap fun x => wide (p x)))) ++ (zeros (2 * (p x).length) ++ zeros (stringSize p rest)) := by
  refine ⟨zeros (z * rest.length) ++ ((done.flatMap fun x => wide (p x)) ++
    (zeros (2 * (p x).length) ++ zeros (stringSize p rest))), ?_, ?_⟩
  · rw [copied, length_cons, Nat.mul_succ, Nat.add_comm, zeros_add, stringSize_cons, zeros_add]
    simp only [append_assoc]
  · rw [entries_append, Nat.zero_add, flatten_append, flatten_singleton]
    simp only [append_assoc]

theorem copied_string (hsize : ∀ o x, (e o x).length = z) (done : List α) (x : α) (rest : List α) {o : Nat}
    (ho : o = headerSize + z * (done.length + (x :: rest).length) + stringSize p done) : write o (wide (p x))
      ((zeros headerSize ++ ((entries p e 0 (done ++ [x])).flatten ++ (zeros (z * rest.length) ++
          done.flatMap fun x => wide (p x)))) ++ (zeros (2 * (p x).length) ++ zeros (stringSize p rest))) =
      some (copied p e z (done ++ [x]) rest) := by
  have hp : o = (zeros headerSize ++ ((entries p e 0 (done ++ [x])).flatten ++ (zeros (z * rest.length) ++
      done.flatMap fun x => wide (p x)))).length := by
    simp only [ho, length_append, length_zeros, length_flatten_entries hsize, length_strings, length_cons, length_nil]
    ring
  rw [write_whole hp (by rw [length_wide, length_zeros]), copied, flatMap_append, flatMap_singleton]
  simp only [append_assoc]

end Table

/-! ## The loops -/

def configurationBytes (o : Nat) (path : WString) : Buffer := le 8 o ++ (le 2 (2 * path.length) ++ zeros 6)

theorem length_configurationBytes (path : WString) : (configurationBytes o path).length = 16 := by
  simp [configurationBytes]

def pathState (done rest : List WString) : CopyState where
  buffer := copied id configurationBytes 16 done rest
  entry := headerSize + 16 * done.length
  stringDest := headerSize + 16 * (done.length + rest.length) + stringSize id done
  stringOffset := stringSize id done

/-- **A round of the loop over the paths.** -/
theorem copyPath_step (done : List WString) (path : WString) (rest : List WString) :
    copyPath (pathState done (path :: rest)) path = some (pathState (done ++ [path]) rest) := by
  obtain ⟨c, hb, hentry⟩ := copied_cons (p := id) (e := configurationBytes) (z := 16) done path rest
  have hp : headerSize + 16 * done.length =
      (zeros headerSize ++ (entries id configurationBytes 0 done).flatten).length := by
    rw [length_append, length_flatten_entries length_configurationBytes, length_zeros]
  have hl : write 8 (le 2 (2 * path.length)) (zeros 16) = some (zeros 8 ++ (le 2 (2 * path.length) ++ zeros 6)) := by
    simp [write, zeros, le]
  have ho : write 0 (le 8 (stringSize id done)) (zeros 8 ++ (le 2 (2 * path.length) ++ zeros 6)) =
      some (configurationBytes (stringSize id done) path) := write_whole (a := []) (s := zeros 8) rfl (length_le 8 _)
  have hs := copied_string (p := id) length_configurationBytes done path rest rfl
  simp only [id_eq] at hentry hs
  simp only [copyPath, pathState, hb, Option.bind_eq_bind]
  rw [write_segment (congrArg (· + 8) hp) hl, Option.bind_some, write_segment (k := 0) hp ho,
    Option.bind_some, hentry, hs, Option.bind_some, stringSize_append, length_append, length_cons, length_singleton]
  simp only [id_eq, Option.some.injEq, CopyState.mk.injEq, true_and, and_true]
  exact ⟨by omega, by omega⟩

def processBytes (o : Nat) (process : ProcessInfo) : Buffer :=
  le 8 process.ProcessId.toNat ++ (le 8 process.ParentProcessId.toNat ++
    (le 8 (if process.DevicePath = [] then 0 else o) ++ (le 2 (2 * process.DevicePath.length) ++ zeros 6)))

theorem length_processBytes (process : ProcessInfo) : (processBytes o process).length = 32 := by
  simp [processBytes]

/-- The loop over the processes where some are done. -/
def processState (done rest : List ProcessInfo) : BlobState where
  out := copied ProcessInfo.DevicePath processBytes 32 done rest
  entry := headerSize + 32 * done.length
  currentStringOffset := stringSize ProcessInfo.DevicePath done

/-- **A round of the loop over the processes.** -/
theorem copyProcess_step (done : List ProcessInfo) (process : ProcessInfo) (rest : List ProcessInfo) :
    copyProcess (headerSize + 32 * (done.length + (process :: rest).length))
      (processState done (process :: rest)) process =
      some (processState (done ++ [process]) rest) := by
  obtain ⟨c, hbu, hentry⟩ :=
    copied_cons (p := ProcessInfo.DevicePath) (e := processBytes) (z := 32) done process rest
  have hp : headerSize + 32 * done.length =
      (zeros headerSize ++ (entries ProcessInfo.DevicePath processBytes 0 done).flatten).length := by
    rw [length_append, length_flatten_entries length_processBytes, length_zeros]
  have hid : write 0 (le 8 process.ProcessId.toNat) (zeros 32) = some (le 8 process.ProcessId.toNat ++ zeros 24) :=
    write_next (a := []) (n := 32) (k := 24) rfl rfl
  have hpa := write_next (o := 8) (a := le 8 process.ProcessId.toNat) (w := le 8 process.ParentProcessId.toNat)
    (n := 24) (k := 16) rfl rfl
  have ho (o : Nat) := write_next (o := 16) (a := le 8 process.ProcessId.toNat ++ le 8 process.ParentProcessId.toNat)
    (w := le 8 o) (n := 16) (k := 8) rfl rfl
  have hl (o n : Nat) := write_next (o := 24) (n := 8) (k := 6) (w := le 2 n)
    (a := le 8 process.ProcessId.toNat ++ le 8 process.ParentProcessId.toNat ++ le 8 o) rfl rfl
  have hs := copied_string (p := ProcessInfo.DevicePath) length_processBytes done process rest rfl
  simp only [copyProcess, processState, hbu, Option.bind_eq_bind]
  rw [write_segment (k := 0) hp hid, Option.bind_some, write_segment (congrArg (· + 8) hp) hpa, Option.bind_some]
  split
  next he =>
    -- nothing is copied, as if an empty path were
    rw [he] at hentry hs
    have hb : processBytes (stringSize ProcessInfo.DevicePath done) process = le 8 process.ProcessId.toNat ++
        le 8 process.ParentProcessId.toNat ++ le 8 0 ++ le 2 0 ++ zeros 6 := by
      simp [processBytes, he]
    rw [hb] at hentry
    rw [write_segment (congrArg (· + 16) hp) (ho 0), Option.bind_some,
      write_segment (congrArg (· + 24) hp) (hl 0 0), Option.bind_some, hentry, eq_of_write_nil hs, stringSize_append,
      he, length_append, length_singleton]
    simp only [length_nil, Nat.mul_zero, Nat.add_zero, Option.some.injEq, BlobState.mk.injEq, true_and, and_true]
    omega
  next hpat =>
    have hb : processBytes (stringSize ProcessInfo.DevicePath done) process = le 8 process.ProcessId.toNat ++
        le 8 process.ParentProcessId.toNat ++ le 8 (stringSize ProcessInfo.DevicePath done) ++
          le 2 (2 * process.DevicePath.length) ++ zeros 6 := by
      simp [processBytes, hpat]
    rw [hb] at hentry
    rw [write_segment (congrArg (· + 16) hp) (ho _), Option.bind_some,
      write_segment (congrArg (· + 24) hp) (hl _ _), Option.bind_some, hentry, hs, Option.bind_some,
      stringSize_append, length_append, length_singleton]
    simp only [Option.some.injEq, BlobState.mk.injEq, true_and, and_true]
    omega

theorem write_header (n m : Nat) (b : Buffer) :
    ((write 0 (le 8 n) (zeros headerSize ++ b)).bind fun b => write 8 (le 8 m) b) = some ((le 8 n ++ le 8 m) ++ b) := by
  have hze : zeros headerSize ++ b = zeros 8 ++ (zeros 8 ++ b) := by
    rw [show headerSize = 8 + 8 from rfl, zeros_add, append_assoc]
  have hfi : write 0 (le 8 n) (zeros 8 ++ (zeros 8 ++ b)) = some (le 8 n ++ (zeros 8 ++ b)) :=
    write_whole (a := []) (s := zeros 8) rfl (length_le 8 n)
  rw [hze, hfi, Option.bind_some, write_whole (length_le 8 n).symm (length_le 8 m), append_assoc]

/-- **The buffer for the applications.** -/
theorem generateAppConfiguration_eq (convertPath : String → WString) (appPaths : List String) :
    generateAppConfiguration convertPath appPaths =
      some (table id configurationBytes configurationEntry (appPaths.map convertPath)) := by
  have hl : (appPaths.map convertPath).foldlM copyPath (pathState [] (appPaths.map convertPath)) =
      some (pathState (appPaths.map convertPath) []) := foldlM_done fun done path rest _ => copyPath_step done path rest
  have hs : pathState [] (appPaths.map convertPath) =
      ⟨zeros (headerSize + 16 * appPaths.length + ((appPaths.map convertPath).map fun path => 2 * path.length).sum),
        headerSize,
        headerSize + 16 * appPaths.length, 0⟩ := by
    rw [pathState, copied_nil]
    simp [stringSize]
  rw [hs] at hl
  rw [generateAppConfiguration, hl]
  simp only [Option.bind_eq_bind, Option.bind_some, pathState, copied]
  rw [write_header]
  simp [table, header, configurationEntry, stringSize, zeros]

theorem length_processList (snapshot : List ProcessInfo) :
    (processesOf snapshot).size = (processList snapshot).length := by
  rw [processList, length_map, Std.ExtTreeMap.length_toList]

/-- **The buffer for the processes.** -/
theorem generateProcessBlob_eq {snapshot : List ProcessInfo} (h : processList snapshot ≠ []) :
    generateProcessBlob snapshot =
      some (table ProcessInfo.DevicePath processBytes processDiscoveryEntry (processList snapshot)) := by
  have hl : (processList snapshot).foldlM (copyProcess (headerSize + 32 * (processList snapshot).length))
      (processState [] (processList snapshot)) = some (processState (processList snapshot) []) :=
    foldlM_done fun done process rest hi => by
      rw [← hi, length_append]
      exact copyProcess_step done process rest
  have hs : processState [] (processList snapshot) = ⟨zeros (headerSize + 32 * (processList snapshot).length +
        ((processList snapshot).map fun process => 2 * process.DevicePath.length).sum), headerSize, 0⟩ := by
    rw [processState, copied_nil]
    simp [stringSize]
  rw [hs] at hl
  simp only [generateProcessBlob, if_neg h, length_processList, hl, Option.bind_eq_bind, Option.bind_some,
    processState, copied]
  rw [write_header]
  simp [table, header, processDiscoveryEntry, stringSize, zeros]

/-! ## What the driver reads -/

section Names

variable {α : Type} {f : Format} {p : α → WString} {e : Nat → α → Buffer}

/-- The offset and the length of the name in an entry. -/
def Format.nameOf (f : Format) (r : Buffer) : Nat × Nat := (readLe f.ImageNameOffset 8 r, readLe f.ImageNameLength 2 r)

/-- The entries name the paths: a path that is not empty by its offset, and an empty one by one that is not behind it.
-/
def Names (f : Format) (p : α → WString) (e : Nat → α → Buffer) (items : List α) : Prop :=
  ∀ o < 2 ^ 64, ∀ x ∈ items, (f.nameOf (e o x)).2 = 2 * (p x).length ∧ (f.nameOf (e o x)).1 ≤ o ∧
    (p x ≠ [] → (f.nameOf (e o x)).1 = o)

theorem Names.tail {x : α} {items : List α} (h : Names f p e (x :: items)) : Names f p e items :=
  fun o ho y hy => h o ho y (mem_cons_of_mem x hy)

/-- The names of the entries, if the first path is at offset `o`. -/
def namesFrom (f : Format) (p : α → WString) (e : Nat → α → Buffer) (o : Nat) (items : List α) :
    List (Nat × Nat) :=
  (entries p e o items).map f.nameOf

theorem namesFrom_cons (x : α) (items : List α) :
    namesFrom f p e o (x :: items) = f.nameOf (e o x) :: namesFrom f p e (o + 2 * (p x).length) items := rfl

theorem namesFrom_inside {items : List α} (h : Names f p e items) {o : Nat} (ho : o + stringSize p items < 2 ^ 64) :
    ∀ name ∈ namesFrom f p e o items, name.1 + name.2 ≤ o + stringSize p items := by
  induction items generalizing o with
  | nil => exact fun name hna => by cases hna
  | cons x items ih =>
    rw [stringSize_cons] at ho ⊢
    obtain ⟨hl, hof, -⟩ := h o (by omega) x mem_cons_self
    intro name hna
    rcases mem_cons.mp hna with rfl | hna
    · omega
    · have hrest := ih h.tail (o := o + 2 * (p x).length) (by omega) name hna
      omega

theorem namesFrom_consecutive {items : List α} (h : Names f p e items) {o : Nat}
    (ho : o + stringSize p items < 2 ^ 64) :
    ((namesFrom f p e o items).filter (·.2 ≠ 0)).IsChain (fun x y => y.1 = x.1 + x.2) ∧
      ∀ name ∈ ((namesFrom f p e o items).filter (·.2 ≠ 0)).head?, name.1 = o := by
  induction items generalizing o with
  | nil => exact ⟨isChain_nil, fun name hna => by cases hna⟩
  | cons x items ih =>
    rw [stringSize_cons] at ho
    obtain ⟨hl, -, hof⟩ := h o (by omega) x mem_cons_self
    obtain ⟨hc, hh⟩ := ih h.tail (o := o + 2 * (p x).length) (by omega)
    rw [namesFrom_cons]
    by_cases he : p x = []
    · rw [he, length_nil] at hl hc hh
      rw [he, filter_cons_of_neg (by simp [hl])]
      exact ⟨hc, hh⟩
    · have hne : (f.nameOf (e o x)).2 ≠ 0 := by
        have := length_pos_iff.mpr he
        omega
      rw [filter_cons_of_pos (by simpa using hne)]
      refine ⟨isChain_cons.mpr ⟨fun name hna => ?_, hc⟩, fun name hna => ?_⟩
      · rw [hh name hna, hof he, hl]
      · rw [← Option.some.inj hna, hof he]

theorem namesFrom_disjoint {items : List α} (h : Names f p e items) {o : Nat} (ho : o + stringSize p items < 2 ^ 64) :
    ((namesFrom f p e o items).filter (·.2 ≠ 0)).Pairwise (fun x y => x.1 + x.2 ≤ y.1) := by
  have ht : IsTrans (Nat × Nat) fun x y => x.1 + x.2 ≤ y.1 := ⟨fun x y z hxy hyz => by omega⟩
  refine isChain_iff_pairwise.mp ((namesFrom_consecutive h ho).1.imp ?_)
  exact fun x y hxy => Nat.le_of_eq hxy.symm

theorem strings_namesFrom {items : List α} (h : Names f p e items) {before : Buffer}
    (ho : before.length + stringSize p items < 2 ^ 64) :
    (namesFrom f p e before.length items).map
      (fun name => units (read name.1 name.2 (before ++ items.flatMap fun x => wide (p x)))) =
      items.map p := by
  induction items generalizing before with
  | nil => rfl
  | cons x items ih =>
    rw [stringSize_cons] at ho
    obtain ⟨hl, -, hof⟩ := h before.length (by omega) x mem_cons_self
    have hb : (before ++ wide (p x)).length = before.length + 2 * (p x).length := by rw [length_append, length_wide]
    have hrest := ih h.tail (show (before ++ wide (p x)).length + _ < _ by rw [hb]; omega)
    rw [hb, append_assoc] at hrest
    have hfi : units (read (f.nameOf (e before.length x)).1 (f.nameOf (e before.length x)).2
        (before ++ (wide (p x) ++ items.flatMap fun x => wide (p x)))) = p x := by
      by_cases he : p x = []
      · rw [hl, he, length_nil]
        rfl
      · rw [hl, hof he, ← length_wide, read_whole, units_wide]
    rw [namesFrom_cons, map_cons, flatMap_cons, hfi, hrest, map_cons]

theorem length_header (items : List α) (z : Nat) : (header items z).length = headerSize := by
  rfl

variable {items : List α} (hsize : ∀ o x, (e o x).length = f.entrySize)
include hsize

theorem length_table : (table p e f items).length = headerSize + f.entrySize * items.length + stringSize p items := by
  rw [table, length_append, length_append, length_header, length_flatten_entries hsize, length_strings, Nat.add_assoc]

open Format

theorem field_table {i : Nat} {r : Buffer} (hr : (entries p e 0 items)[i]? = some r) {o n : Nat}
    (h : o + n ≤ f.entrySize) :
    f.field (table p e f items) i o n = readLe o n r := by
  have hre := read_records (fun r hr => length_of_mem_entries hsize hr) hr h
    (a := header items (headerSize + f.entrySize * items.length + stringSize p items))
    (c := items.flatMap fun x => wide (p x))
  rw [length_header] at hre
  rw [field, readLe, readLe, table, hre]

variable (hfits : headerSize + f.entrySize * items.length + stringSize p items < 2 ^ 64)
include hfits

theorem totalLength_table : totalLength (table p e f items) = (table p e f items).length := by
  have ht : table p e f items = le 8 items.length ++
      (le 8 (headerSize + f.entrySize * items.length + stringSize p items) ++
      ((entries p e 0 items).flatten ++ items.flatMap fun x => wide (p x))) := by
    rw [table, header, append_assoc]
  have hr := read_whole (le 8 items.length) (le 8 (headerSize + f.entrySize * items.length + stringSize p items))
    ((entries p e 0 items).flatten ++ items.flatMap fun x => wide (p x))
  rw [length_le, length_le, ← ht] at hr
  rw [totalLength, readLe, hr, leValue_le_of_lt hfits, length_table hsize]

variable (hentry : f.ImageNameOffset + 8 ≤ f.entrySize ∧ f.ImageNameLength + 2 ≤ f.entrySize)
include hentry

omit hsize in
theorem numEntries_table : numEntries (table p e f items) = items.length := by
  have ht : table p e f items = [] ++ (le 8 items.length ++ (le 8 (headerSize + f.entrySize * items.length +
      stringSize p items) ++ ((entries p e 0 items).flatten ++ items.flatMap fun x => wide (p x)))) := by
    rw [table, header, append_assoc, nil_append]
  have hr := read_whole [] (le 8 items.length) (le 8 (headerSize + f.entrySize * items.length + stringSize p items) ++
    ((entries p e 0 items).flatten ++ items.flatMap fun x => wide (p x)))
  have hlt : items.length < 256 ^ 8 := by
    have := Nat.le_mul_of_pos_left items.length (show 0 < f.entrySize by omega)
    omega
  rw [length_le, length_nil, ← ht] at hr
  rw [numEntries, readLe, hr, leValue_le_of_lt hlt]

/-- Two fields that are read in every entry. -/
theorem fields_table {o n o' n' : Nat} (h : o + n ≤ f.entrySize) (h' : o' + n' ≤ f.entrySize) :
    (List.range (numEntries (table p e f items))).map
        (fun i => (f.field (table p e f items) i o n, f.field (table p e f items) i o' n')) =
      (entries p e 0 items).map fun r => (readLe o n r, readLe o' n' r) := by
  refine ext_getElem ?_ fun i hi hi' => ?_
  · rw [length_map, length_range, numEntries_table hfits hentry, length_map, length_entries]
  · rw [length_map] at hi'
    have hr : (entries p e 0 items)[i]? = some (entries p e 0 items)[i] := getElem?_eq_getElem hi'
    simp only [getElem_map, getElem_range]
    rw [field_table hsize hr h, field_table hsize hr h']

theorem names_table : f.names (table p e f items) = namesFrom f p e 0 items :=
  fields_table hsize hfits hentry hentry.1 hentry.2

theorem stringArea_table : f.stringArea (table p e f items) = items.flatMap fun x => wide (p x) := by
  have hl : (header items (headerSize + f.entrySize * items.length + stringSize p items) ++
      (entries p e 0 items).flatten).length = headerSize + f.entrySize * items.length := by
    rw [length_append, length_header, length_flatten_entries hsize]
  rw [stringArea, numEntries_table hfits hentry, table, ← append_assoc, drop_left' hl]

/-- **A table holds its paths.** -/
theorem Format.holds_table (hna : Names f p e items) : f.Holds (table p e f items) (items.map p) := by
  have hs : 0 + stringSize p items < 2 ^ 64 := by omega
  have hr := strings_namesFrom hna (show ([] : Buffer).length + _ < _ from hs)
  constructor
  · exact totalLength_table hsize hfits
  · rw [numEntries_table hfits hentry, length_map]
  · rw [names_table hsize hfits hentry, stringArea_table hsize hfits hentry, length_strings]
    intro name hnam
    have := namesFrom_inside hna hs name hnam
    omega
  · rw [names_table hsize hfits hentry]
    exact (namesFrom_consecutive hna hs).1
  · rw [names_table hsize hfits hentry]
    exact namesFrom_disjoint hna hs
  · rw [strings, names_table hsize hfits hentry, stringArea_table hsize hfits hentry]
    exact hr

end Names

theorem names_configurationBytes {paths : List WString} (h : ∀ path ∈ paths, path.length < 32768) :
    Names configurationEntry id configurationBytes paths := by
  intro o ho path hp
  have hlt := h path hp
  have hof : read 0 8 (configurationBytes o path) = le 8 o := by
    simpa [configurationBytes] using read_whole [] (le 8 o) (le 2 (2 * path.length) ++ zeros 6)
  have hl : read 8 2 (configurationBytes o path) = le 2 (2 * path.length) := by
    simpa [configurationBytes] using read_whole (le 8 o) (le 2 (2 * path.length)) (zeros 6)
  have hna : configurationEntry.nameOf (configurationBytes o path) = (o, 2 * path.length) := by
    simp only [Format.nameOf, configurationEntry, readLe, hof, hl]
    rw [leValue_le_of_lt ho, leValue_le_of_lt (show 2 * path.length < 256 ^ 2 by omega)]
  rw [hna]
  exact ⟨rfl, Nat.le_refl o, fun _ => rfl⟩

theorem names_processBytes {list : List ProcessInfo} (h : ∀ process ∈ list, process.DevicePath.length < 32768) :
    Names processDiscoveryEntry ProcessInfo.DevicePath processBytes list := by
  intro o ho process hp
  have hlt := h process hp
  have hof : read 16 8 (processBytes o process) = le 8 (if process.DevicePath = [] then 0 else o) := by
    simpa [processBytes] using read_whole (le 8 process.ProcessId.toNat ++ le 8 process.ParentProcessId.toNat)
      (le 8 (if process.DevicePath = [] then 0 else o)) (le 2 (2 * process.DevicePath.length) ++ zeros 6)
  have hl : read 24 2 (processBytes o process) = le 2 (2 * process.DevicePath.length) := by
    simpa [processBytes] using read_whole (le 8 process.ProcessId.toNat ++ (le 8 process.ParentProcessId.toNat ++
      le 8 (if process.DevicePath = [] then 0 else o))) (le 2 (2 * process.DevicePath.length)) (zeros 6)
  have hle : (if process.DevicePath = [] then 0 else o) ≤ o := by
    split <;> omega
  have hna : processDiscoveryEntry.nameOf (processBytes o process) =
      (if process.DevicePath = [] then 0 else o, 2 * process.DevicePath.length) := by
    simp only [Format.nameOf, processDiscoveryEntry, readLe, hof, hl]
    rw [leValue_le_of_lt (Nat.lt_of_le_of_lt hle ho),
      leValue_le_of_lt (show 2 * process.DevicePath.length < 256 ^ 2 by omega)]
  rw [hna]
  exact ⟨rfl, hle, fun hpa => if_neg hpa⟩

/-- The ids in an entry for a process. -/
theorem ids_processBytes (process : ProcessInfo) :
    (readLe 0 8 (processBytes o process), readLe 8 8 (processBytes o process)) =
      (process.ProcessId.toNat, process.ParentProcessId.toNat) := by
  have hid : read 0 8 (processBytes o process) = le 8 process.ProcessId.toNat := by
    simpa [processBytes] using read_whole [] (le 8 process.ProcessId.toNat) (le 8 process.ParentProcessId.toNat ++
      (le 8 (if process.DevicePath = [] then 0 else o) ++ (le 2 (2 * process.DevicePath.length) ++ zeros 6)))
  have hp : read 8 8 (processBytes o process) = le 8 process.ParentProcessId.toNat := by
    simpa [processBytes] using read_whole (le 8 process.ProcessId.toNat) (le 8 process.ParentProcessId.toNat)
      (le 8 (if process.DevicePath = [] then 0 else o) ++ (le 2 (2 * process.DevicePath.length) ++ zeros 6))
  have hlt := process.ProcessId.toNat_lt
  have hl' := process.ParentProcessId.toNat_lt
  rw [readLe, readLe, hid, hp, leValue_le_of_lt (by omega), leValue_le_of_lt (by omega)]

theorem ids_entries (list : List ProcessInfo) :
    (entries ProcessInfo.DevicePath processBytes o list).map (fun r => (readLe 0 8 r, readLe 8 8 r)) =
      list.map fun process => (process.ProcessId.toNat, process.ParentProcessId.toNat) := by
  induction list generalizing o with
  | nil => rfl
  | cons process list ih => rw [entries, map_cons, ids_processBytes, ih, map_cons]

/-- What a program can hold: the address space of 64-bit Windows has 2⁴⁷ bytes for it, and a string takes 24 bytes
besides its units. -/
def InMemory (paths : List WString) : Prop := (paths.map fun path => 24 + 2 * path.length).sum < 2 ^ 47

theorem size_lt_of_inMemory {α : Type} {p : α → WString} {items : List α} (h : InMemory (items.map p)) {z : Nat}
    (hz : z ≤ 32) :
    headerSize + z * items.length + stringSize p items < 2 ^ 64 := by
  have hs : ((items.map p).map fun path => 24 + 2 * path.length).sum = 24 * items.length + stringSize p items := by
    rw [map_map]
    clear h
    induction items with
    | nil => rfl
    | cons x items ih =>
      rw [map_cons, sum_cons, ih, stringSize_cons, length_cons, Function.comp_apply]
      ring
  have hle : z * items.length ≤ 32 * items.length := Nat.mul_le_mul_right _ hz
  rw [InMemory] at h
  rw [headerSize]
  omega

/-- The ids in the entries of a buffer for processes. -/
def processIds (b : Buffer) : List (Nat × Nat) :=
  (List.range (Format.numEntries b)).map fun i =>
    (processDiscoveryEntry.field b i 0 8, processDiscoveryEntry.field b i 8 8)

/-- **The buffers.** The driver reads the paths of the applications, and the paths and the ids of the processes, in
their order. -/
theorem buffers_hold (convertPath : String → WString) (appPaths : List String) (snapshot : List ProcessInfo)
    (happs : ∀ path ∈ appPaths.map convertPath, path.length < 32768)
    (happsMemory : InMemory (appPaths.map convertPath))
    (hprocesses : ∀ process ∈ processList snapshot, process.DevicePath.length < 32768)
    (hprocessesMemory : InMemory ((processList snapshot).map ProcessInfo.DevicePath)) :
    (∃ b, generateAppConfiguration convertPath appPaths = some b ∧
      configurationEntry.Holds b (appPaths.map convertPath)) ∧
      if processList snapshot = [] then generateProcessBlob snapshot = some []
        else ∃ b, generateProcessBlob snapshot = some b ∧
        processDiscoveryEntry.Holds b ((processList snapshot).map ProcessInfo.DevicePath) ∧
        processIds b = (processList snapshot).map fun process =>
          (process.ProcessId.toNat, process.ParentProcessId.toNat) := by
  constructor
  · refine ⟨_, generateAppConfiguration_eq convertPath appPaths, ?_⟩
    have hsize : headerSize + 16 * (appPaths.map convertPath).length +
        stringSize id (appPaths.map convertPath) < 2 ^ 64 :=
      size_lt_of_inMemory (by rwa [map_id]) (by omega)
    have hh := Format.holds_table (f := configurationEntry) length_configurationBytes hsize (by decide)
      (names_configurationBytes happs)
    rwa [map_id] at hh
  · split
    next hno => rw [generateProcessBlob, if_pos hno]
    next hs =>
      have hsize : headerSize + 32 * (processList snapshot).length +
        stringSize ProcessInfo.DevicePath (processList snapshot) <
          2 ^ 64 := size_lt_of_inMemory hprocessesMemory (by omega)
      have hh := Format.holds_table (f := processDiscoveryEntry) length_processBytes hsize (by decide)
        (names_processBytes hprocesses)
      have hi :=
        fields_table (f := processDiscoveryEntry) length_processBytes hsize (by decide) (show 0 + 8 ≤ 32 by decide)
        (show 8 + 8 ≤ 32 by decide)
      rw [ids_entries] at hi
      exact ⟨_, generateProcessBlob_eq hs, hh, hi⟩

/-- An application without a path between two others, and two processes, one of which has no path. -/
theorem buffers_hold_empty_between :
    let convertPath (path : String) : WString :=
      if path = "a.exe" then [97] else if path = "bc.exe" then [98, 99] else []
    let snapshot : List ProcessInfo := [⟨8, 4, [97]⟩, ⟨4, 0, []⟩]
    (∃ b, generateAppConfiguration convertPath ["a.exe", "gone", "bc.exe"] = some b ∧
      configurationEntry.Holds b [[97], [], [98, 99]]) ∧
      ∃ b, generateProcessBlob snapshot = some b ∧ processDiscoveryEntry.Holds b [[], [97]] ∧
        processIds b = [(4, 0), (8, 4)] := by
  intro convertPath snapshot
  have hl : processList snapshot = [⟨4, 0, []⟩, ⟨8, 4, [97]⟩] := by decide +kernel
  have hh := buffers_hold convertPath ["a.exe", "gone", "bc.exe"] snapshot (by decide) (by unfold InMemory; decide)
    (by rw [hl]; decide) (by rw [hl, InMemory]; decide)
  rwa [hl] at hh

end Cimogus.Windows.SplitTunnel
