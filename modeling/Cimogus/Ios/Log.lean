import Mathlib.Data.List.Basic

/-!
# The log of the iOS application

A line that is no record is kept as the message of an error, with the date of the last record. What is printed then
consists of records only, so it is read as it is.
-/

namespace Cimogus.Ios.Log

open List

/-- Printable ASCII. -/
def isAscii (c : Char) : Bool := 32 ≤ c.toNat && c.toNat ≤ 126

/-- Where Unicode ends a Swift `Character`: if a scalar belongs to the scalars before it. Printable ASCII stands alone.
-/
structure Clusters where
  joins : List Char → Char → Bool
  joins_ascii : ∀ a c : Char, isAscii a = true → isAscii c = true → joins [a] c = false

/-- The formatter of `yyyy-MM-dd HH:mm:ss`. -/
structure DateFormatter (Date : Type) where
  date : List Char → Option Date
  string : Date → List Char
  distantPast : Date
  Whole : Date → Prop
  whole_date : ∀ {s d}, date s = some d → Whole d
  whole_distantPast : Whole distantPast
  date_string : ∀ {d}, Whole d → date (string d) = some d
  length_string : ∀ d, (string d).length = 19
  ascii_string : ∀ d, ∀ c ∈ string d, isAscii c = true

inductive Level
  | debug | warning | error | critical | fatal | info | system
  deriving DecidableEq

def Level.rawValue : Level → List Char
  | .debug => "debug".toList
  | .warning => "warning".toList
  | .error => "error".toList
  | .critical => "critical".toList
  | .fatal => "fatal".toList
  | .info => "info".toList
  | .system => "system".toList

def levels : List Level := [.debug, .warning, .error, .critical, .fatal, .info, .system]

structure Record (Date : Type) where
  date : Date
  level : Level
  message : List Char
  deriving DecidableEq

/-- The characters of a text, of which some are begun. -/
def charactersFrom (u : Clusters) (begun : List Char) : List Char → List (List Char)
  | [] => [begun]
  | c :: s => if u.joins begun c then charactersFrom u (begun ++ [c]) s else begun :: charactersFrom u [c] s

def characters (u : Clusters) : List Char → List (List Char)
  | [] => []
  | c :: s => charactersFrom u [c] s

variable {Date : Type} (u : Clusters) (f : DateFormatter Date)

/-- `Record.init`. -/
def record (line : List Char) : Option (Record Date) := do
  let str := characters u line
  let date ← f.date (str.take 19).flatten
  let str := str.drop 20
  match str.dropWhile (· ≠ [' ']) with
  | [] => none
  | _ :: message =>
    let level ← levels.find? (·.rawValue = (str.takeWhile (· ≠ [' '])).flatten)
    some ⟨date, level, message.flatten⟩

def Record.description (r : Record Date) : List Char := f.string r.date ++ ' ' :: r.level.rawValue ++ ' ' :: r.message

def isNewline (c : Char) : Bool := c ∈ ['\n', '\r', '\x0b', '\x0c', '\x85', '\u2028', '\u2029']

/-- The parts that are not empty. A line break of two scalars leaves an empty part between them. -/
def lines (s : List Char) : List (List Char) := (s.splitOnP isNewline).filter (· ≠ [])

/-- `Log.init` over the lines, with the date of the last record. -/
def records (lastRecordDate : Date) : List (List Char) → List (Record Date)
  | [] => []
  | line :: lines =>
    match record u f line with
    | some r => r :: records r.date lines
    | none => ⟨lastRecordDate, .error, "LOG: ".toList ++ line⟩ :: records lastRecordDate lines

def log (s : List Char) : List (Record Date) := records u f f.distantPast (lines s)

def description (rs : List (Record Date)) : List Char := ['\n'].intercalate (rs.map (Record.description f))

/-! ## Characters -/

theorem flatten_charactersFrom (begun s : List Char) : (charactersFrom u begun s).flatten = begun ++ s := by
  induction s generalizing begun with
  | nil => simp [charactersFrom]
  | cons c s ih =>
    rw [charactersFrom]
    split <;> simp [ih]

theorem flatten_characters (s : List Char) : (characters u s).flatten = s := by
  cases s with
  | nil => rfl
  | cons c s => exact flatten_charactersFrom u [c] s

theorem joins_of_charactersFrom {a : Char} {s begun : List Char} {before after : List (List Char)}
    (h : charactersFrom u begun s = before ++ [a] :: after) : ∀ c ∈ after.flatten.head?, u.joins [a] c = false := by
  induction s generalizing begun before with
  | nil =>
    cases before with
    | nil => cases h; simp
    | cons x before => simp [charactersFrom] at h
  | cons d s ih =>
    rw [charactersFrom] at h
    split at h
    · exact ih h
    next hj =>
      cases before with
      | nil =>
        cases h
        rw [flatten_charactersFrom]
        simpa using hj
      | cons x before => exact ih (cons.inj h).2

theorem joins_of_characters {a : Char} {s : List Char} {before after : List (List Char)}
    (h : characters u s = before ++ [a] :: after) : ∀ c ∈ after.flatten.head?, u.joins [a] c = false := by
  cases s with
  | nil => simp [characters] at h
  | cons c s => exact joins_of_charactersFrom u h

theorem characters_cons {a : Char} {s : List Char} (h : ∀ c ∈ s.head?, u.joins [a] c = false) :
    characters u (a :: s) = [a] :: characters u s := by
  cases s with
  | nil => rfl
  | cons c s => rw [characters, charactersFrom, if_neg (by simpa using h), characters]

theorem characters_ascii {w : List Char} (s : List Char) (hw : ∀ c ∈ w, isAscii c = true) :
    characters u (w ++ ' ' :: s) = w.map ([·]) ++ characters u (' ' :: s) := by
  induction w with
  | nil => rfl
  | cons a w ih =>
    obtain ⟨ha, hw⟩ := forall_mem_cons.mp hw
    have hn : ∀ c ∈ (w ++ ' ' :: s).head?, isAscii c = true := by
      cases w with
      | nil => simp; decide
      | cons b w => simpa using hw b mem_cons_self
    rw [cons_append, characters_cons u fun c hc => u.joins_ascii a c ha (hn c hc), ih hw, map_cons, cons_append]

/-! ## Records -/

/-- What holds of every record of a log. -/
structure Printable (r : Record Date) : Prop where
  whole : f.Whole r.date
  joins : ∀ c ∈ r.message.head?, u.joins [' '] c = false
  message : ∀ c ∈ r.message, isNewline c = false

theorem isNewline_of_isAscii {c : Char} (h : isAscii c = true) : isNewline c = false := by
  simp only [isNewline, mem_cons, not_mem_nil, or_false, decide_eq_false_iff_not]
  rintro (rfl | rfl | rfl | rfl | rfl | rfl | rfl) <;> revert h <;> decide

theorem ascii_rawValue (l : Level) : ∀ c ∈ l.rawValue, isAscii c = true := all_eq_true.mp (by cases l <;> rfl)

theorem space_notMem_rawValue (l : Level) : ' ' ∉ l.rawValue := by cases l <;> decide

theorem find?_rawValue (l : Level) : levels.find? (·.rawValue = l.rawValue) = some l := by cases l <;> decide

variable {u f} {r : Record Date}

/-- **A record is read as it was printed.** -/
theorem record_description (h : Printable u f r) : record u f (r.description f) = some r := by
  obtain ⟨date, level, message⟩ := r
  have hc : characters u (Record.description f ⟨date, level, message⟩) =
      (f.string date).map ([·]) ++ [' '] :: (level.rawValue.map ([·]) ++ [' '] :: characters u message) := by
    have hl : characters u (' ' :: (level.rawValue ++ ' ' :: message)) =
        [' '] :: (level.rawValue.map ([·]) ++ [' '] :: characters u message) := by
      have hs := characters_ascii u (w := ' ' :: level.rawValue) message fun c hc =>
        (mem_cons.mp hc).elim (by rintro rfl; decide) (ascii_rawValue level c)
      rw [characters_cons u h.joins] at hs
      exact hs
    rw [Record.description, append_assoc, cons_append, characters_ascii u _ (f.ascii_string date), hl]
  have hlen : ((f.string date).map ([·])).length = 19 := by rw [length_map, f.length_string]
  have hne : ∀ c ∈ level.rawValue.map ([·]), decide (c ≠ [' ']) = true := by
    intro c hc
    obtain ⟨a, ha, rfl⟩ := mem_map.mp hc
    have hne : a ≠ ' ' := fun heq => space_notMem_rawValue level (heq ▸ ha)
    simpa using hne
  have hfl (w : List Char) : (w.map ([·])).flatten = w := by simp [← flatMap_def]
  have hd : (characters u (Record.description f ⟨date, level, message⟩)).drop 20 =
      level.rawValue.map ([·]) ++ [' '] :: characters u message := by
    rw [hc, append_cons, drop_left' (by rw [length_append, hlen]; rfl)]
  rw [record, hd, hc, take_left' hlen, hfl, f.date_string h.whole]
  simp only [dropWhile_append_of_pos hne, takeWhile_append_of_pos hne]
  simp [hfl, find?_rawValue, flatten_characters]

theorem printable_of_record {line : List Char} (h : record u f line = some r)
    (hn : ∀ c ∈ line, isNewline c = false) :
    Printable u f r := by
  simp only [record, Option.bind_eq_bind, Option.bind_eq_some_iff] at h
  obtain ⟨date, hd, h⟩ := h
  split at h
  · cases h
  next x rest hx =>
    obtain ⟨level, -, h⟩ := Option.bind_eq_some_iff.mp h
    cases h
    have hsp := head?_dropWhile_not (· ≠ [' ']) ((characters u line).drop 20)
    rw [hx] at hsp
    obtain rfl : x = [' '] := by simpa using hsp
    have hc : characters u line = (characters u line).take 20 ++
        ((characters u line).drop 20).takeWhile (· ≠ [' ']) ++
        [' '] :: rest := by
      rw [append_assoc, ← hx, takeWhile_append_dropWhile, take_append_drop]
    refine ⟨f.whole_date hd, joins_of_characters u hc, fun c hm => hn c ?_⟩
    rw [← flatten_characters u line, hc, flatten_append]
    simp [hm]

/-! ## The log -/

theorem newline_notMem_splitOnP {s line : List Char} (h : line ∈ s.splitOnP isNewline) :
    ∀ c ∈ line, isNewline c = false := by
  induction s generalizing line with
  | nil => simp_all
  | cons x s ih =>
    rw [splitOnP_cons_eq_if_modifyHead] at h
    split at h
    · rcases mem_cons.mp h with rfl | h
      · simp
      · exact ih h
    next hx =>
      obtain ⟨l, ls, hl⟩ := exists_cons_of_ne_nil (splitOnP_ne_nil isNewline s)
      rw [hl] at h
      rcases mem_cons.mp h with rfl | h
      · exact forall_mem_cons.mpr ⟨by simpa using hx, ih (hl ▸ mem_cons_self)⟩
      · exact ih (hl ▸ mem_cons_of_mem l h)

theorem lines_intercalate {texts : List (List Char)}
    (h : ∀ t ∈ texts, t ≠ [] ∧ ∀ c ∈ t, isNewline c = false) :
    lines (['\n'].intercalate texts) = texts := by
  induction texts with
  | nil => rfl
  | cons t texts ih =>
    obtain ⟨⟨hne, ht⟩, htx⟩ := forall_mem_cons.mp h
    cases texts with
    | nil => simp [lines, splitOnP_eq_singleton ht, hne]
    | cons t' texts =>
      have hs : lines (t ++ '\n' :: ['\n'].intercalate (t' :: texts)) = t ::
          lines (['\n'].intercalate (t' :: texts)) := by
        rw [lines, splitOnP_append_cons _ _ (by decide), splitOnP_eq_singleton ht, filter_append,
          filter_cons_of_pos (by simpa)]
        rfl
      exact hs.trans (congrArg (t :: ·) (ih htx))

theorem printable_records {last : Date} (hla : f.Whole last) {texts : List (List Char)}
    (h : ∀ t ∈ texts, ∀ c ∈ t, isNewline c = false) : ∀ r ∈ records u f last texts, Printable u f r := by
  induction texts generalizing last with
  | nil => simp [records]
  | cons t texts ih =>
    obtain ⟨ht, htx⟩ := forall_mem_cons.mp h
    rw [records]
    split
    next r hr =>
      have hp := printable_of_record hr ht
      exact forall_mem_cons.mpr ⟨hp, ih hp.whole htx⟩
    · refine forall_mem_cons.mpr ⟨⟨hla, ?_, ?_⟩, ih hla htx⟩
      · rintro c ⟨⟩
        exact u.joins_ascii _ _ (by decide) (by decide)
      · simp only [forall_mem_append]
        exact ⟨fun c hc =>
          isNewline_of_isAscii (all_eq_true.mp (show "LOG: ".toList.all isAscii = true from rfl) c hc),
          ht⟩

theorem records_description {rs : List (Record Date)} (h : ∀ r ∈ rs, Printable u f r) (last : Date) :
    records u f last (rs.map (Record.description f)) = rs := by
  induction rs generalizing last with
  | nil => rfl
  | cons r rs ih =>
    obtain ⟨hr, hrs⟩ := forall_mem_cons.mp h
    rw [map_cons, records, record_description hr]
    exact congrArg (r :: ·) (ih hrs r.date)

theorem newline_notMem_description (h : Printable u f r) : ∀ c ∈ r.description f, isNewline c = false := by
  simp only [Record.description, forall_mem_append, forall_mem_cons]
  exact ⟨⟨fun c hc => isNewline_of_isAscii (f.ascii_string _ c hc), rfl,
    fun c hc => isNewline_of_isAscii (ascii_rawValue _ c hc)⟩, rfl,
    h.message⟩

/-- **One parse is enough.** What a log prints has the records of the log. -/
theorem log_description (s : List Char) : log u f (description f (log u f s)) = log u f s := by
  have hp : ∀ r ∈ log u f s, Printable u f r :=
    printable_records f.whole_distantPast fun t ht => newline_notMem_splitOnP (mem_filter.mp ht).1
  rw [log, description, lines_intercalate]
  · exact records_description hp _
  intro t ht
  obtain ⟨r, hr, rfl⟩ := mem_map.mp ht
  exact ⟨by simp [Record.description], newline_notMem_description (hp r hr)⟩

/-- The formatter with the distant past only. -/
def distantPastOnly : DateFormatter Unit where
  date s := if s = "0001-01-01 00:00:00".toList then some () else none
  string _ := "0001-01-01 00:00:00".toList
  distantPast := ()
  Whole _ := True
  whole_date _ := trivial
  whole_distantPast := trivial
  date_string _ := if_pos rfl
  length_string _ := by decide
  ascii_string _ := all_eq_true.mp rfl

example : log ⟨fun _ _ => false, fun _ _ _ _ => rfl⟩ distantPastOnly "x\n\n0001-01-01 00:00:00 info ".toList =
    [⟨(), .error, "LOG: x".toList⟩, ⟨(), .info, []⟩] := by decide +kernel

end Cimogus.Ios.Log
