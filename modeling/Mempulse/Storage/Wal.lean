import Mempulse.EventLog
import Mempulse.Library.Decimal
import Mempulse.Library.Sorting
import Mempulse.Library.TextFiles
import Mempulse.Library.TreeMaps

/-!
# The segmented write-ahead log

The log is a family of segment files beside its base path, numbered in their names. An append goes
to the segment with the greatest number, or to a new one when that segment is full. Recovery finds
the segments in whatever order the directory lists them, reads them by number, line by line, and
sorts the events. A file is a list of bytes, the directory a map from names to files.
-/

set_option autoImplicit false

namespace Mempulse.Storage

open Std EventLog Library

/-- `serde_json` on event envelopes. -/
structure EventJson where
  toText : EventEnvelope → String
  fromText : String → Option EventEnvelope

/-- Line-delimited JSON WAL with simple size-based segment rotation. -/
structure StorageWal where
  baseName : String
  segmentMaxBytes : Nat

/-- The files of the parent directory. -/
abbrev Directory := ExtTreeMap String (List UInt8)

/-- The order in which a reading of the directory lists its entries. -/
structure ReadDir where
  names : Directory → List String
  perm : ∀ directory : Directory, (names directory).Perm directory.keys

/-- Why recovery fails. -/
inductive WalError where
  | readWalLine
  | decodeWalEventLine
  deriving DecidableEq

namespace StorageWal

/-- Creates a WAL with an explicit maximum segment size. -/
def withSegmentSize (baseName : String) (segmentMaxBytes : Nat) : StorageWal where
  baseName := baseName
  segmentMaxBytes := max segmentMaxBytes 1

/-- The start of every segment's name. -/
def segmentStem (wal : StorageWal) : String := wal.baseName ++ ".seg."

/-- The number of a segment, when the name is one of a segment. -/
def segmentId (wal : StorageWal) (name : String) : Option UInt64 :=
  if wal.segmentStem.toList.isPrefixOf name.toList then
    parseU64 (name.toList.drop wal.segmentStem.toList.length)
  else none

/-- `{base}.seg.{id:020}`. -/
def segmentPath (wal : StorageWal) (id : UInt64) : String :=
  wal.segmentStem ++ String.ofList (paddedDecimal 20 id.toNat)

/-- The segments of a directory in the order of their ids. -/
def segmentPaths (wal : StorageWal) (readDir : ReadDir) (directory : Directory) :
    List (UInt64 × String) :=
  stableSort (compareOn Prod.fst) <| (readDir.names directory).filterMap fun name =>
    (wal.segmentId name).map fun id => (id, name)

/-- The segment the next line goes to: the last one, or a new one when that is full. -/
def activeSegmentPathForAppend (wal : StorageWal) (readDir : ReadDir) (directory : Directory) :
    String :=
  match (wal.segmentPaths readDir directory).getLast? with
  | some (id, path) =>
    if ((directory[path]?).getD []).length < wal.segmentMaxBytes then path
    else wal.segmentPath (UInt64.ofNat (saturatingAdd u64Max id.toNat 1))
  | none => wal.segmentPath 0

/-- Opens a file for appending, which creates it, and writes some bytes. -/
def writeAt (directory : Directory) (path : String) (bytes : List UInt8) : Directory :=
  directory.insert path ((directory[path]?).getD [] ++ bytes)

/-- The line of an event. -/
def eventLine (json : EventJson) (event : EventEnvelope) : List UInt8 :=
  utf8Bytes (json.toText event) ++ [newline]

/-- Appends some of the bytes of an event's line; the rest is lost in a crash. -/
def appendTorn (wal : StorageWal) (readDir : ReadDir) (directory : Directory)
    (written : List UInt8) : Directory :=
  writeAt directory (wal.activeSegmentPathForAppend readDir directory) written

/-- Appends one event to the current active segment. -/
def appendEvent (wal : StorageWal) (json : EventJson) (directory : Directory)
    (append : ReadDir × EventEnvelope) : Directory :=
  wal.appendTorn append.1 directory (eventLine json append.2)

/-- The directory after the appends. -/
def appendEvents (wal : StorageWal) (json : EventJson) (directory : Directory)
    (appends : List (ReadDir × EventEnvelope)) : Directory :=
  appends.foldl (wal.appendEvent json) directory

/-- The events of the lines, blank ones apart, or the error of the first line that is not
readable. -/
def readLines (json : EventJson) : List (List UInt8) → Except WalError (List EventEnvelope)
  | [] => .ok []
  | line :: rest =>
    match textOf line with
    | none => .error .readWalLine
    | some text =>
      if isBlank text then readLines json rest
      else
        match json.fromText text with
        | none => .error .decodeWalEventLine
        | some event => (readLines json rest).map (event :: ·)

/-- The events of a file. -/
def readEventsFromPath (json : EventJson) (contents : List UInt8) :
    Except WalError (List EventEnvelope) :=
  readLines json (lines contents)

/-- Reads files one after the other. -/
def readFiles (json : EventJson) : List (List UInt8) → Except WalError (List EventEnvelope)
  | [] => .ok []
  | contents :: rest => do
    let events ← readEventsFromPath json contents
    let others ← readFiles json rest
    return events ++ others

/-- Recovers and sorts all events currently present in the WAL. -/
def recoverEvents (wal : StorageWal) (json : EventJson) (readDir : ReadDir)
    (directory : Directory) : Except WalError (List EventEnvelope) := do
  let segments := (wal.segmentPaths readDir directory).map fun segment =>
    (directory[segment.2]?).getD []
  let events ← readFiles json (segments ++ (directory[wal.baseName]?).toList)
  return stableSort (compareOn (·.seqId)) events

/-! ## Names -/

section Names

variable {wal : StorageWal}

theorem segmentId_segmentPath (wal : StorageWal) (id : UInt64) :
    wal.segmentId (wal.segmentPath id) = some id := by
  have shape : (wal.segmentPath id).toList =
      wal.segmentStem.toList ++ paddedDecimal 20 id.toNat := by
    rw [segmentPath, String.toList_append, String.toList_ofList]
  rw [segmentId, shape, if_pos (List.isPrefixOf_iff_prefix.mpr (List.prefix_append _ _)),
    List.drop_left, parseU64_paddedDecimal]

/-- The base path is no segment. -/
theorem segmentPath_ne_baseName (wal : StorageWal) (id : UInt64) :
    wal.segmentPath id ≠ wal.baseName := by
  intro same
  have lengths := congrArg String.length same
  rw [segmentPath, segmentStem, String.length_append, String.length_append] at lengths
  have marker : ".seg.".length = 5 := by decide
  omega

end Names

/-! ## The segments of a directory -/

section Segments

variable {wal : StorageWal} {directory : Directory} {files : List (UInt64 × List UInt8)}

/-- The directory has these segments, by number, and no file at the base path. -/
structure Holds (wal : StorageWal) (directory : Directory) (files : List (UInt64 × List UInt8)) :
    Prop where
  increasing : files.Pairwise fun earlier later => earlier.1.toNat < later.1.toNat
  segments : ∀ name id, wal.segmentId name = some id → ∀ contents,
    directory[name]? = some contents ↔ (id, contents) ∈ files ∧ name = wal.segmentPath id
  base : directory[wal.baseName]? = none

theorem Holds.getElem? (holds : Holds wal directory files) {id : UInt64} {contents : List UInt8}
    (member : (id, contents) ∈ files) : directory[wal.segmentPath id]? = some contents :=
  (holds.segments _ id (segmentId_segmentPath wal id) contents).mpr ⟨member, rfl⟩

/-- Whatever order the directory is listed in, the segments come by number. -/
theorem Holds.segmentPaths (holds : Holds wal directory files) (readDir : ReadDir) :
    wal.segmentPaths readDir directory = files.map fun file => (file.1, wal.segmentPath file.1) := by
  have listed : ∀ segment, segment ∈ ((readDir.names directory).filterMap fun name =>
      (wal.segmentId name).map fun id => (id, name)) ↔
        segment ∈ files.map fun file => (file.1, wal.segmentPath file.1) := by
    rintro ⟨id, name⟩
    simp only [List.mem_filterMap, Option.map_eq_some_iff, Prod.mk.injEq, List.mem_map]
    constructor
    · rintro ⟨_, inDirectory, _, parsed, rfl, rfl⟩
      have key := (readDir.perm directory).mem_iff.mp inDirectory
      obtain ⟨contents, stored⟩ := mem_keys_iff_exists.mp key
      obtain ⟨member, path⟩ := (holds.segments _ _ parsed contents).mp stored
      exact ⟨_, member, rfl, path.symm⟩
    · rintro ⟨⟨_, contents⟩, member, rfl, rfl⟩
      refine ⟨_, ?_, _, segmentId_segmentPath wal _, rfl, rfl⟩
      exact (readDir.perm directory).mem_iff.mpr (mem_keys_iff_exists.mpr
        ⟨contents, holds.getElem? member⟩)
  have names : (readDir.names directory).Nodup :=
    (readDir.perm directory).nodup_iff.mpr (keys_nodup directory)
  have distinct : ((readDir.names directory).filterMap fun name =>
      (wal.segmentId name).map fun id => (id, name)).Nodup := by
    refine names.filterMap ?_
    rintro name other ⟨id, path⟩ first second
    obtain ⟨_, -, same⟩ := Option.map_eq_some_iff.mp (Option.mem_def.mp first)
    obtain ⟨_, -, alsoSame⟩ := Option.map_eq_some_iff.mp (Option.mem_def.mp second)
    exact (congrArg Prod.snd same).trans (congrArg Prod.snd alsoSame).symm
  have sorted : (files.map fun file => (file.1, wal.segmentPath file.1)).Pairwise
      fun earlier later => earlier.1.toNat < later.1.toNat :=
    List.pairwise_map.mpr holds.increasing
  have numbered : (files.map fun file => (file.1, wal.segmentPath file.1)).Nodup := by
    rw [List.Nodup]
    refine sorted.imp fun below same => ?_
    rw [same] at below
    exact Nat.lt_irrefl _ below
  have same := (List.perm_ext_iff_of_nodup distinct numbered).mpr listed
  unfold StorageWal.segmentPaths
  have canonical : stableSort (compareOn Prod.fst)
      (files.map fun file => (file.1, wal.segmentPath file.1)) =
        files.map fun file => (file.1, wal.segmentPath file.1) := by
    refine stableSort_eq_self (sorted.imp fun below => ?_)
    exact Std.isLE_compare.mpr (UInt64.le_iff_toNat_le.mpr (Nat.le_of_lt below))
  refine Eq.trans (@stableSort_eq_of_perm _ (compareOn Prod.fst) _ _ inferInstance same ?_) canonical
  intro left inLeft right inRight equal
  have ids : left.1 = right.1 := Std.compare_eq_iff_eq.mp equal
  obtain ⟨file, -, rfl⟩ := List.mem_map.mp ((listed left).mp inLeft)
  obtain ⟨other, -, rfl⟩ := List.mem_map.mp ((listed right).mp inRight)
  dsimp only at ids
  rw [ids]

/-- What recovery reads. -/
theorem Holds.recoverEvents (holds : Holds wal directory files) (json : EventJson)
    (readDir : ReadDir) :
    wal.recoverEvents json readDir directory =
      (readFiles json (files.map Prod.snd)).map (stableSort (compareOn (·.seqId))) := by
  have contents : ((wal.segmentPaths readDir directory).map fun segment =>
      (directory[segment.2]?).getD []) = files.map Prod.snd := by
    rw [holds.segmentPaths, List.map_map]
    refine List.map_congr_left fun file member => ?_
    rw [Function.comp_apply, holds.getElem? member, Option.getD_some]
  unfold StorageWal.recoverEvents
  dsimp only
  rw [contents, holds.base, Option.toList_none, List.append_nil]
  cases readFiles json (files.map Prod.snd) <;> rfl

/-- The segments after some bytes have been appended. -/
def appendFile (segmentMaxBytes : Nat) (files : List (UInt64 × List UInt8)) (bytes : List UInt8) :
    List (UInt64 × List UInt8) :=
  match files.getLast? with
  | some (id, contents) =>
    -- The number of the last segment saturates, so that it is appended to once more.
    if contents.length < segmentMaxBytes ∨ id.toNat = u64Max then
      files.dropLast ++ [(id, contents ++ bytes)]
    else files ++ [(UInt64.ofNat (id.toNat + 1), bytes)]
  | none => [(0, bytes)]

/-- Writing to the last segment, or to a new one with a greater number. -/
theorem Holds.writeAt (holds : Holds wal directory files) {front : List (UInt64 × List UInt8)}
    {id : UInt64} {contents : List UInt8} (bytes : List UInt8)
    (last : files = front ++ [(id, contents)] ∨
      (files = front ∧ contents = []) ∧ ∀ file ∈ front, file.1.toNat < id.toNat) :
    Holds wal (writeAt directory (wal.segmentPath id) bytes)
      (front ++ [(id, contents ++ bytes)]) := by
  have greatest : ∀ file ∈ front, file.1.toNat < id.toNat := by
    rcases last with rfl | ⟨-, above⟩
    · exact fun file member =>
        (List.pairwise_append.mp holds.increasing).2.2 file member _ (List.mem_singleton_self _)
    · exact above
  have others : ∀ file, file.1 ≠ id → (file ∈ files ↔ file ∈ front) := by
    intro file other
    rcases last with rfl | ⟨⟨rfl, -⟩, -⟩
    · rw [List.mem_append, List.mem_singleton, or_iff_left]
      rintro rfl
      exact other rfl
    · rfl
  have stored : (directory[wal.segmentPath id]?).getD [] = contents := by
    rcases last with rfl | ⟨⟨rfl, rfl⟩, above⟩
    · rw [holds.getElem? (List.mem_append_right _ (List.mem_singleton_self _)), Option.getD_some]
    · cases held : directory[wal.segmentPath id]? with
      | none => rfl
      | some found =>
          have listed := ((holds.segments _ id (segmentId_segmentPath wal id) found).mp held).1
          exact absurd (above _ listed) (Nat.lt_irrefl _)
  have increasing : front.Pairwise fun earlier later => earlier.1.toNat < later.1.toNat := by
    rcases last with rfl | ⟨⟨rfl, -⟩, -⟩
    · exact (List.pairwise_append.mp holds.increasing).1
    · exact holds.increasing
  unfold StorageWal.writeAt
  rw [stored]
  refine ⟨?_, fun name other parsed found => ?_, ?_⟩
  · refine List.pairwise_append.mpr ⟨increasing, List.pairwise_singleton _ _, ?_⟩
    rintro file member _ ⟨⟩
    · exact greatest file member
    · contradiction
  · rw [getElem?_insert_eq]
    split
    case isTrue same =>
      subst same
      rw [segmentId_segmentPath] at parsed
      cases parsed
      rw [Option.some_inj, List.mem_append, List.mem_singleton, Prod.mk.injEq]
      constructor
      · rintro rfl
        exact ⟨.inr ⟨rfl, rfl⟩, rfl⟩
      · rintro ⟨earlier | ⟨-, here⟩, -⟩
        · exact absurd (greatest _ earlier) (Nat.lt_irrefl _)
        · exact here.symm
    case isFalse elsewhere =>
      rw [holds.segments name other parsed found, List.mem_append, List.mem_singleton]
      constructor
      · rintro ⟨member, path⟩
        have differs : other ≠ id := by
          rintro rfl
          exact elsewhere path.symm
        exact ⟨.inl ((others (other, found) differs).mp member), path⟩
      · rintro ⟨earlier | here, path⟩
        · have differs : other ≠ id := by
            rintro rfl
            exact elsewhere path.symm
          exact ⟨(others (other, found) differs).mpr earlier, path⟩
        · cases here
          exact absurd path.symm elsewhere
  · rw [getElem?_insert_eq, if_neg (segmentPath_ne_baseName wal id)]
    exact holds.base

/-- An append of some bytes, torn or not. -/
theorem Holds.appendTorn (holds : Holds wal directory files) (readDir : ReadDir)
    (bytes : List UInt8) :
    Holds wal (wal.appendTorn readDir directory bytes)
      (appendFile wal.segmentMaxBytes files bytes) := by
  unfold StorageWal.appendTorn activeSegmentPathForAppend appendFile
  rw [holds.segmentPaths, List.getLast?_map]
  rcases List.eq_nil_or_concat' files with rfl | ⟨front, ⟨id, contents⟩, rfl⟩
  · exact holds.writeAt bytes (.inr ⟨⟨rfl, rfl⟩, fun file member => by cases member⟩)
  · have stored := holds.getElem? (List.mem_append_right front (List.mem_singleton_self (id, contents)))
    simp only [List.getLast?_concat, Option.map_some, stored, Option.getD_some,
      List.dropLast_concat]
    by_cases room : contents.length < wal.segmentMaxBytes
    · rw [if_pos room, if_pos (.inl room)]
      exact holds.writeAt bytes (.inl rfl)
    · rw [if_neg room]
      by_cases greatest : id.toNat = u64Max
      · have same : UInt64.ofNat (saturatingAdd u64Max id.toNat 1) = id := by
          have top : saturatingAdd u64Max id.toNat 1 = id.toNat := by
            unfold saturatingAdd
            omega
          rw [top, UInt64.ofNat_toNat]
        rw [same, if_pos (.inr greatest)]
        exact holds.writeAt bytes (.inl rfl)
      · have bound := id.toNat_lt
        have exactId : saturatingAdd u64Max id.toNat 1 = id.toNat + 1 := by
          unfold saturatingAdd u64Max at *
          omega
        have value : (UInt64.ofNat (id.toNat + 1)).toNat = id.toNat + 1 := by
          apply UInt64.toNat_ofNat_of_lt'
          unfold u64Max at greatest
          change id.toNat + 1 < 2 ^ 64
          omega
        rw [exactId, if_neg (not_or.mpr ⟨room, greatest⟩)]
        refine holds.writeAt bytes (.inr ⟨⟨rfl, rfl⟩, fun file member => ?_⟩)
        rw [value]
        rcases List.mem_append.mp member with earlier | last
        · have below := (List.pairwise_append.mp holds.increasing).2.2 file earlier _
            (List.mem_singleton_self _)
          exact Nat.lt_succ_of_lt below
        · rw [List.mem_singleton.mp last]
          exact Nat.lt_succ_self _

/-- The bytes go to the end of the last file, which may be new. -/
theorem map_snd_appendFile (segmentMaxBytes : Nat) (files : List (UInt64 × List UInt8))
    (bytes : List UInt8) :
    ∃ front contents, (files.map Prod.snd = front ++ [contents] ∨
        files.map Prod.snd = front ∧ contents = []) ∧
      (appendFile segmentMaxBytes files bytes).map Prod.snd = front ++ [contents ++ bytes] := by
  unfold appendFile
  rcases List.eq_nil_or_concat' files with rfl | ⟨front, ⟨id, contents⟩, rfl⟩
  · exact ⟨[], [], .inr ⟨rfl, rfl⟩, rfl⟩
  · simp only [List.getLast?_concat, List.dropLast_concat]
    split
    · exact ⟨front.map Prod.snd, contents, .inl (by simp), by simp⟩
    · exact ⟨(front ++ [(id, contents)]).map Prod.snd, [], .inr ⟨rfl, rfl⟩, by simp⟩

end Segments

/-! ## Lines and events -/

section Reading

variable {json : EventJson}

/-- The encoder writes an event as one line, a JSON object, that decodes back to it. -/
structure EncodesLine (json : EventJson) (event : EventEnvelope) : Prop where
  newlineFree : newline ∉ utf8Bytes (json.toText event)
  opens : (utf8Bytes (json.toText event)).head? = some 123
  closes : (utf8Bytes (json.toText event)).getLast? = some 125
  roundTrip : json.fromText (json.toText event) = some event

/-- The bytes of some events' lines. -/
def linesOf (json : EventJson) (events : List EventEnvelope) : List UInt8 :=
  events.flatMap (eventLine json)

/-- Completely written lines are read as their events. -/
theorem readEventsFromPath_linesOf {events : List EventEnvelope}
    (encodes : ∀ event ∈ events, EncodesLine json event) (rest : List UInt8) :
    readEventsFromPath json (linesOf json events ++ rest) =
      (readEventsFromPath json rest).map (events ++ ·) := by
  induction events with
  | nil =>
      change readEventsFromPath json rest = _
      cases readEventsFromPath json rest <;> rfl
  | cons event others ih =>
      obtain ⟨here, later⟩ := List.forall_mem_cons.mp encodes
      have shape : linesOf json (event :: others) ++ rest =
          utf8Bytes (json.toText event) ++ newline :: (linesOf json others ++ rest) := by
        simp only [linesOf, List.flatMap_cons, eventLine, List.append_assoc, List.cons_append,
          List.nil_append]
      have ending : (utf8Bytes (json.toText event)).getLast? ≠ some 13 := by
        rw [here.closes]
        decide
      obtain ⟨tail, brace⟩ := List.head?_eq_some_iff.mp here.opens
      have visible := not_isBlank_of_brace brace
      rw [shape, readEventsFromPath, lines_cons here.newlineFree ending, readLines,
        textOf_utf8Bytes]
      simp only [visible, Bool.false_eq_true, if_false, here.roundTrip]
      change (readEventsFromPath json (linesOf json others ++ rest)).map (event :: ·) = _
      rw [ih later]
      cases readEventsFromPath json rest <;> rfl

/-- A torn line is no blank line: reading it fails or yields one event. -/
theorem readEventsFromPath_torn {torn : List UInt8} (free : newline ∉ torn)
    (opens : torn.head? = some 123) :
    (∃ failure, readEventsFromPath json torn = .error failure) ∨
      ∃ event, readEventsFromPath json torn = .ok [event] := by
  obtain ⟨tail, rfl⟩ := List.head?_eq_some_iff.mp opens
  rw [readEventsFromPath, lines_of_not_mem free]
  simp only [List.isEmpty_cons, Bool.false_eq_true, if_false, readLines]
  cases decoded : textOf (123 :: tail) with
  | none => exact .inl ⟨_, rfl⟩
  | some text =>
      have visible := not_isBlank_of_brace (utf8Bytes_of_textOf decoded)
      simp only [visible, Bool.false_eq_true, if_false]
      cases json.fromText text with
      | none => exact .inl ⟨_, rfl⟩
      | some event => exact .inr ⟨event, rfl⟩

/-- Files of completely written lines, the last one with a rest. -/
theorem readFiles_linesOf {groups : List (List EventEnvelope)} {last : List EventEnvelope}
    (encodes : ∀ event ∈ groups.flatten ++ last, EncodesLine json event) (rest : List UInt8) :
    readFiles json (groups.map (linesOf json) ++ [linesOf json last ++ rest]) =
      (readEventsFromPath json rest).map ((groups.flatten ++ last) ++ ·) := by
  induction groups with
  | nil =>
      have final : readEventsFromPath json (linesOf json last ++ rest) =
          (readEventsFromPath json rest).map (last ++ ·) :=
        readEventsFromPath_linesOf (fun event member => encodes event (by simpa using member)) rest
      simp only [List.map_nil, List.nil_append, List.flatten_nil, readFiles, final]
      cases readEventsFromPath json rest with
      | error failure => rfl
      | ok read => exact congrArg Except.ok (List.append_nil _)
  | cons group others ih =>
      have here : readEventsFromPath json (linesOf json group ++ []) = .ok (group ++ []) :=
        readEventsFromPath_linesOf (fun event member => encodes event (by simp [member])) []
      have later := ih fun event member => encodes event (by
        rw [List.flatten_cons, List.append_assoc]
        exact List.mem_append_right _ member)
      rw [List.append_nil, List.append_nil] at here
      rw [List.map_cons, List.cons_append, readFiles, here, later, List.flatten_cons,
        List.append_assoc]
      cases readEventsFromPath json rest with
      | error failure => rfl
      | ok read => exact congrArg Except.ok (List.append_assoc group _ read).symm

end Reading

/-! ## The events of a log -/

section Log

variable {wal : StorageWal} {json : EventJson} {directory : Directory}
  {files : List (UInt64 × List UInt8)} {events : List EventEnvelope}

/-- The files hold the lines of the events, in order. -/
def Written (json : EventJson) (files : List (UInt64 × List UInt8)) (events : List EventEnvelope) :
    Prop :=
  ∃ groups : List (List EventEnvelope), files.map Prod.snd = groups.map (linesOf json) ∧
    groups.flatten = events

/-- The directory holds a log of the events. -/
def Logs (wal : StorageWal) (json : EventJson) (directory : Directory)
    (events : List EventEnvelope) : Prop :=
  ∃ files, Holds wal directory files ∧ Written json files events

theorem Written.appendFile (written : Written json files events) (segmentMaxBytes : Nat)
    (bytes : List UInt8) :
    ∃ (groups : List (List EventEnvelope)) (last : List EventEnvelope),
      groups.flatten ++ last = events ∧
      (appendFile segmentMaxBytes files bytes).map Prod.snd =
        groups.map (linesOf json) ++ [linesOf json last ++ bytes] := by
  obtain ⟨groups, shape, rfl⟩ := written
  obtain ⟨front, contents, before, after⟩ := map_snd_appendFile segmentMaxBytes files bytes
  rcases before with more | ⟨fresh, rfl⟩
  · rw [shape] at more
    obtain ⟨earlier, last, rfl, rfl, tail⟩ := List.map_eq_append_iff.mp more
    obtain ⟨group, rfl, rfl⟩ := List.map_eq_singleton_iff.mp tail
    exact ⟨earlier, group, by simp, after⟩
  · refine ⟨groups, [], List.append_nil _, ?_⟩
    rw [after, ← fresh, shape]
    rfl

theorem Logs.appendEvent (logs : Logs wal json directory events)
    (append : ReadDir × EventEnvelope) :
    Logs wal json (wal.appendEvent json directory append) (events ++ [append.2]) := by
  obtain ⟨files, holds, written⟩ := logs
  obtain ⟨groups, last, rfl, contents⟩ :=
    written.appendFile wal.segmentMaxBytes (eventLine json append.2)
  refine ⟨_, holds.appendTorn append.1 _, groups ++ [last ++ [append.2]], ?_, ?_⟩
  · simp [contents, linesOf]
  · simp

theorem Logs.appendEvents (logs : Logs wal json directory events)
    (appends : List (ReadDir × EventEnvelope)) :
    Logs wal json (wal.appendEvents json directory appends) (events ++ appends.map Prod.snd) := by
  induction appends generalizing directory events with
  | nil => simpa [StorageWal.appendEvents] using logs
  | cons append rest ih =>
      have later := ih (logs.appendEvent append)
      rwa [List.append_assoc, List.singleton_append] at later

/-- A crash before the first byte leaves the log as it is, up to a new empty segment. -/
theorem Logs.appendNothing (logs : Logs wal json directory events) (readDir : ReadDir) :
    Logs wal json (wal.appendTorn readDir directory []) events := by
  obtain ⟨files, holds, written⟩ := logs
  obtain ⟨groups, last, rfl, contents⟩ := written.appendFile wal.segmentMaxBytes []
  refine ⟨_, holds.appendTorn readDir _, groups ++ [last], ?_, ?_⟩
  · simp [contents]
  · simp

theorem stableSort_of_increasing
    (increasing : events.Pairwise fun earlier later => earlier.seqId.toNat < later.seqId.toNat) :
    stableSort (compareOn (·.seqId)) events = events :=
  stableSort_eq_self (increasing.imp fun below =>
    Std.isLE_compare.mpr (UInt64.le_iff_toNat_le.mpr (Nat.le_of_lt below)))

/-- A log is recovered in sequence order. -/
theorem Logs.recoverEvents (logs : Logs wal json directory events)
    (encodes : ∀ event ∈ events, EncodesLine json event)
    (increasing : events.Pairwise fun earlier later => earlier.seqId.toNat < later.seqId.toNat)
    (readDir : ReadDir) : wal.recoverEvents json readDir directory = .ok events := by
  obtain ⟨files, holds, groups, contents, rfl⟩ := logs
  have read : readFiles json (groups.map (linesOf json)) = .ok groups.flatten := by
    rcases List.eq_nil_or_concat' groups with rfl | ⟨front, last, rfl⟩
    · rfl
    · have whole : readFiles json (front.map (linesOf json) ++ [linesOf json last ++ []]) =
          .ok ((front.flatten ++ last) ++ []) :=
        readFiles_linesOf (fun event member => encodes event (by simpa using member)) []
      simpa using whole
  rw [holds.recoverEvents, contents, read]
  exact congrArg Except.ok (stableSort_of_increasing increasing)

/-- A torn line makes the recovery fail, or yields one event too many. -/
theorem Logs.recoverEvents_torn (logs : Logs wal json directory events)
    (encodes : ∀ event ∈ events, EncodesLine json event) {torn : List UInt8}
    (free : newline ∉ torn) (opens : torn.head? = some 123) (readDir recovering : ReadDir) :
    wal.recoverEvents json recovering (wal.appendTorn readDir directory torn) ≠ .ok events := by
  obtain ⟨files, holds, written⟩ := logs
  obtain ⟨groups, last, rfl, contents⟩ := written.appendFile wal.segmentMaxBytes torn
  rw [(holds.appendTorn readDir torn).recoverEvents, contents, readFiles_linesOf encodes]
  rcases readEventsFromPath_torn free opens with ⟨failure, failed⟩ | ⟨event, read⟩
  · rw [failed]
    exact fun same => by cases same
  · rw [read]
    intro same
    have lengths := congrArg List.length (Except.ok.inj same)
    rw [(stableSort_perm _ _).length_eq, List.length_append] at lengths
    simp at lengths

end Log

/-! ## A crash during an append -/

/-- Recovery returns these events, and after further appends also the appended ones. -/
def Recovers (wal : StorageWal) (json : EventJson) (directory : Directory)
    (complete : List EventEnvelope) : Prop :=
  (∀ readDir, wal.recoverEvents json readDir directory = .ok complete) ∧
    ∀ further : List (ReadDir × EventEnvelope),
      (∀ append ∈ further, EncodesLine json append.2) →
      ((complete ++ further.map Prod.snd).Pairwise fun earlier later =>
        earlier.seqId.toNat < later.seqId.toNat) →
      ∀ readDir, wal.recoverEvents json readDir (wal.appendEvents json directory further) =
        .ok (complete ++ further.map Prod.snd)

theorem Logs.recovers {wal : StorageWal} {json : EventJson} {directory : Directory}
    {events : List EventEnvelope} (logs : Logs wal json directory events)
    (encodes : ∀ event ∈ events, EncodesLine json event)
    (increasing : events.Pairwise fun earlier later => earlier.seqId.toNat < later.seqId.toNat) :
    Recovers wal json directory events := by
  refine ⟨logs.recoverEvents encodes increasing, fun further encodesToo longer => ?_⟩
  refine (logs.appendEvents further).recoverEvents (fun event member => ?_) longer
  rcases List.mem_append.mp member with earlier | later
  · exact encodes event earlier
  · obtain ⟨append, listed, rfl⟩ := List.mem_map.mp later
    exact encodesToo append listed

/-- **Appends with a torn tail are recovered exactly when the crash left nothing of the last line,
or all of it.** -/
theorem tornTail_iff (wal : StorageWal) (json : EventJson) {directory : Directory}
    (fresh : Holds wal directory []) (appends : List (ReadDir × EventEnvelope)) (readDir : ReadDir)
    (last : EventEnvelope)
    (encodes : ∀ event ∈ appends.map Prod.snd ++ [last], EncodesLine json event)
    (increasing : (appends.map Prod.snd ++ [last]).Pairwise fun earlier later =>
      earlier.seqId.toNat < later.seqId.toNat)
    {written : List UInt8} (part : written <+: eventLine json last) :
    Recovers wal json (wal.appendTorn readDir (wal.appendEvents json directory appends) written)
        (if written = eventLine json last then appends.map Prod.snd ++ [last]
          else appends.map Prod.snd) ↔
      written = [] ∨ written = eventLine json last := by
  have empty : Logs wal json directory [] := ⟨[], fresh, [], rfl, rfl⟩
  have logs := empty.appendEvents appends
  rw [List.nil_append] at logs
  have encodesAppended : ∀ event ∈ appends.map Prod.snd, EncodesLine json event :=
    fun event member => encodes event (List.mem_append_left _ member)
  have encodesLast := encodes last (List.mem_append_right _ (List.mem_singleton_self _))
  by_cases whole : written = eventLine json last
  · subst whole
    rw [if_pos rfl]
    exact iff_of_true ((logs.appendEvent (readDir, last)).recovers encodes increasing) (.inr rfl)
  · rw [if_neg whole]
    by_cases nothing : written = []
    · subst nothing
      exact iff_of_true ((logs.appendNothing readDir).recovers encodesAppended
        (List.pairwise_append.mp increasing).1) (.inl rfl)
    · refine iff_of_false (fun recovers => ?_) (not_or.mpr ⟨nothing, whole⟩)
      -- What is left is a part of the object itself, without the ending of the line.
      have inside : written <+: utf8Bytes (json.toText last) :=
        (List.prefix_concat_iff.mp part).resolve_left whole
      have free : newline ∉ written := fun member =>
        encodesLast.newlineFree (inside.subset member)
      have opens : written.head? = some 123 := by
        obtain ⟨rest, shape⟩ := inside
        have first := encodesLast.opens
        rw [← shape, List.head?_append_of_ne_nil _ nothing] at first
        exact first
      exact logs.recoverEvents_torn encodesAppended free opens readDir readDir (recovers.1 readDir)

theorem Holds.empty (wal : StorageWal) : Holds wal ∅ [] where
  increasing := List.Pairwise.nil
  segments name id parsed contents := by simp
  base := ExtTreeMap.getElem?_empty

/-- A directory that lists its entries by name. -/
def byName : ReadDir where
  names directory := directory.keys
  perm _ := List.Perm.refl _

/-- A dropped transaction. -/
def droppedEvent (seqId : UInt64) (hash : TxHash) : EventEnvelope :=
  sampleEnvelope seqId (.txDropped { hash := hash, reason := "test" })

/-- The JSON of a dropped transaction whose hash ends in the given byte. -/
def droppedText (seqId lastByte : String) : String :=
  "\x7b\"seq_id\":" ++ seqId ++ ",\"ingest_ts_unix_ms\":1700000000000,\"ingest_ts_mono_ns\":0," ++
    "\"source_id\":\"test\",\"payload\":\x7b\"type\":\"TxDropped\",\"data\":\x7b\"hash\":[" ++
    "0,0,0,0,0,0,0,0,0,0,0,0,0,0,0,0,0,0,0,0,0,0,0,0,0,0,0,0,0,0,0," ++ lastByte ++
    "],\"reason\":\"test\"\x7d\x7d\x7d"

/-- The encoder on two dropped transactions. -/
def sampleJson : EventJson where
  toText event := if event.seqId = 1 then droppedText "1" "10" else droppedText "2" "11"
  fromText text :=
    if text = droppedText "1" "10" then some (droppedEvent 1 10)
    else if text = droppedText "2" "11" then some (droppedEvent 2 11)
    else none

theorem sampleJson_encodes (event : EventEnvelope)
    (member : event ∈ [droppedEvent 1 10] ++ [droppedEvent 2 11]) :
    EncodesLine sampleJson event := by
  rcases List.mem_pair.mp member with rfl | rfl
  · exact
      { newlineFree := by decide +kernel
        opens := by decide +kernel
        closes := by decide +kernel
        roundTrip := by decide +kernel }
  · exact
      { newlineFree := by decide +kernel
        opens := by decide +kernel
        closes := by decide +kernel
        roundTrip := by decide +kernel }

/-- The second append has written one byte. -/
def tornDirectory : Directory :=
  (withSegmentSize "events" 256).appendTorn byName
    ((withSegmentSize "events" 256).appendEvents sampleJson ∅ [(byName, droppedEvent 1 10)]) [123]

theorem tornDirectory_tornTail_iff :
    Recovers (withSegmentSize "events" 256) sampleJson tornDirectory
        (if [123] = eventLine sampleJson (droppedEvent 2 11) then
          [droppedEvent 1 10] ++ [droppedEvent 2 11] else [droppedEvent 1 10]) ↔
      ([123] : List UInt8) = [] ∨ [123] = eventLine sampleJson (droppedEvent 2 11) :=
  tornTail_iff _ sampleJson (Holds.empty _) [(byName, droppedEvent 1 10)] byName
    (droppedEvent 2 11) sampleJson_encodes (by decide) (by decide +kernel)

/-- One byte of the second line keeps the first event from being recovered. -/
theorem tornDirectory_not_recovers :
    ¬ Recovers (withSegmentSize "events" 256) sampleJson tornDirectory [droppedEvent 1 10] := by
  have encodes : ∀ event ∈ [droppedEvent 1 10], EncodesLine sampleJson event :=
    fun event member => sampleJson_encodes event (List.mem_append_left _ member)
  have empty : Logs (withSegmentSize "events" 256) sampleJson ∅ [] :=
    ⟨[], Holds.empty _, [], rfl, rfl⟩
  have logs := empty.appendEvents [(byName, droppedEvent 1 10)]
  intro recovers
  exact logs.recoverEvents_torn encodes (by decide) rfl byName byName (recovers.1 byName)

end StorageWal

end Mempulse.Storage
