/-
# Replay of the operation journal

Replay returns, for each command, the last record whose append returned `Ok`,
over every run in which a crash or a failed write leaves whole characters of an
incomplete record and nothing is appended to an incomplete line.  The two
conditions are needed: the next record is appended to the torn line and lost
with it, and a character cut in the middle makes the whole file unreadable.

The invariant (`Intact`) says that the file is the lines of some records
followed by a torn record, and that these records leave the same latest record
for each command as the appends that returned.
-/
import Mathlib.Data.List.Induction
import CtfZone.Journal
import CtfZone.Runs

open Runs

namespace CtfZone

namespace Journal

variable {codec : Codec}

/-! ## The latest records -/

/-- What replay should return for a command: the last of the given records,
unless the database has acknowledged it. -/
def latest (records : List JournalRecord) (key : Key) : Option JournalRecord :=
  (records.reverse.find? fun r => r.key = key).filter fun r => r.phase ≠ .databaseAcknowledged

theorem latest_concat (records : List JournalRecord) (record : JournalRecord) (key : Key) :
    latest (records ++ [record]) key =
      if record.key = key then
        if record.phase = .databaseAcknowledged then none else some record
      else latest records key := by
  unfold latest
  rw [List.reverse_append, List.reverse_singleton, List.singleton_append, List.find?_cons]
  by_cases hk : record.key = key
  · by_cases hp : record.phase = .databaseAcknowledged <;> simp [hk, hp]
  · simp [hk]

/-- Records with distinct keys, none of them acknowledged, are all latest. -/
theorem latest_of_nodup {records : List JournalRecord}
    (hnodup : (records.map JournalRecord.key).Nodup)
    (hopen : ∀ r ∈ records, r.phase ≠ .databaseAcknowledged) {key : Key} {record : JournalRecord} :
    latest records key = some record ↔ record ∈ records ∧ record.key = key := by
  unfold latest
  rw [Option.filter_eq_some_iff]
  constructor
  · rintro ⟨hfind, -⟩
    exact ⟨List.mem_reverse.mp (List.mem_of_find?_eq_some hfind),
      by simpa using List.find?_some hfind⟩
  · rintro ⟨hmem, hkey⟩
    refine ⟨?_, by simpa using hopen record hmem⟩
    cases hfind : records.reverse.find? fun r => r.key = key with
    | none =>
        have hnone := List.find?_eq_none.mp hfind record (List.mem_reverse.mpr hmem)
        exact absurd hkey (by simpa using hnone)
    | some other =>
        have hother : other ∈ records := List.mem_reverse.mp (List.mem_of_find?_eq_some hfind)
        have hsame : other.key = key := by simpa using List.find?_some hfind
        rw [List.inj_on_of_nodup_map hnodup hother hmem (hsame.trans hkey.symm)]

/-! ## Lines -/

/-- The characters of a line: no line ends in one of them. -/
def Unbroken (text : List Char) : Prop := ∀ c ∈ text, ' ' ≤ c

theorem Unbroken.not_newline {text : List Char} (h : Unbroken text) {c : Char} (hc : c ∈ text) :
    c ≠ '\n' ∧ c ≠ '\r' := by
  have hle := h c hc
  constructor <;> rintro rfl <;> exact absurd hle (by decide)

theorem lines_line {text rest : List Char} (h : Unbroken text) :
    lines (text ++ '\n' :: rest) = text :: lines rest := by
  induction text with
  | nil => rfl
  | cons c text ih =>
      obtain ⟨hnewline, hreturn⟩ := h.not_newline List.mem_cons_self
      have hrest : lines (text ++ '\n' :: rest) = text :: lines rest :=
        ih fun c' hc' => h c' (List.mem_cons_of_mem c hc')
      rw [List.cons_append, lines, hrest]
      · simp [hnewline]
      · exact fun _ hc => absurd hc hreturn

theorem lines_tail {text : List Char} (h : Unbroken text) :
    lines text = if text = [] then [] else [text] := by
  induction text with
  | nil => rfl
  | cons c text ih =>
      obtain ⟨hnewline, hreturn⟩ := h.not_newline List.mem_cons_self
      have hrest := ih fun c' hc' => h c' (List.mem_cons_of_mem c hc')
      rw [lines, hrest]
      · by_cases htext : text = [] <;> simp [htext, hnewline]
      · exact fun _ hc => absurd hc hreturn

theorem readToString_utf8 (text : List Char) : readToString (utf8 text) = some text := by
  rw [readToString, utf8_eq_utf8Encode, List.utf8Decode?_utf8Encode]
  rfl

theorem utf8_append (text text' : List Char) : utf8 (text ++ text') = utf8 text ++ utf8 text' :=
  List.utf8Encode_append

/-! ## Replay of intact lines -/

/-- Replay of the line of a record. -/
def replayRecord (current : Current) (record : JournalRecord) : Current :=
  if record.phase = .databaseAcknowledged then current.erase record.key
  else current.insert record.key record

/-- A record as it stands in the file: `serde_json` handles it, and its payload
is redacted. -/
structure Codec.Stores (codec : Codec) (record : JournalRecord) : Prop
    extends codec.Serializes record where
  redacted : record.persisted = record

theorem Codec.Serializes.unbroken {record : JournalRecord} (h : codec.Serializes record) :
    Unbroken (codec.encode record) := h.printable

/-- What is left of a record that was not written to its end. -/
def Torn (codec : Codec) (tail : List Char) : Prop :=
  tail = [] ∨ ∃ record, codec.Serializes record ∧ tail <+: codec.encode record ∧
    tail ≠ codec.encode record

theorem replayLine_record {record : JournalRecord} (h : codec.Stores record)
    (current : Current) :
    replayLine codec current (codec.encode record) = replayRecord current record := by
  obtain ⟨rest, hopens⟩ := h.opens
  have hblank : (codec.encode record).all isWhitespace = false := by
    rw [hopens, List.all_cons]
    rfl
  rw [replayLine, hblank, h.roundTrip]
  dsimp only
  rw [h.redacted]
  rfl

theorem Torn.unbroken {tail : List Char} (h : Torn codec tail) : Unbroken tail := by
  rcases h with rfl | ⟨record, hserializes, hpre, -⟩
  · exact fun c hc => absurd hc List.not_mem_nil
  · exact fun c hc => hserializes.printable c (hpre.subset hc)

/-- A torn record is skipped. -/
theorem foldl_torn {tail : List Char} (h : Torn codec tail) (current : Current) :
    (lines tail).foldl (replayLine codec) current = current := by
  rw [lines_tail h.unbroken]
  rcases h with rfl | ⟨record, hserializes, hpre, hne⟩
  · rfl
  · split
    · rfl
    · rw [List.foldl_cons, List.foldl_nil, replayLine, hserializes.stopsEarly tail hpre hne]
      split <;> rfl

/-- Lines of stored records and a torn tail replay to the records. -/
theorem foldl_lines {records : List JournalRecord} {tail : List Char}
    (hrecords : ∀ r ∈ records, codec.Stores r) (htail : Torn codec tail) (current : Current) :
    (lines (records.flatMap codec.line ++ tail)).foldl (replayLine codec) current =
      records.foldl replayRecord current := by
  induction records generalizing current with
  | nil => exact foldl_torn htail current
  | cons record records ih =>
      have hrecord := hrecords record List.mem_cons_self
      rw [List.flatMap_cons, Codec.line, List.append_assoc, List.append_assoc,
        List.singleton_append, lines_line hrecord.unbroken, List.foldl_cons,
        replayLine_record hrecord,
        ih fun r hr => hrecords r (List.mem_cons_of_mem record hr)]
      rfl

theorem lookup_replay (records : List JournalRecord) (key : Key) :
    (records.foldl replayRecord ∅).lookup key = latest records key := by
  induction records using List.reverseRecOn with
  | nil => rfl
  | append_singleton records record ih =>
      rw [List.foldl_append, List.foldl_cons, List.foldl_nil, latest_concat, replayRecord]
      by_cases hk : record.key = key
      · subst hk
        by_cases hp : record.phase = .databaseAcknowledged
        · rw [if_pos hp, if_pos rfl, if_pos hp, AList.lookup_erase]
        · rw [if_neg hp, if_pos rfl, if_neg hp, AList.lookup_insert]
      · rw [if_neg hk]
        by_cases hp : record.phase = .databaseAcknowledged
        · rw [if_pos hp, AList.lookup_erase_ne (Ne.symm hk), ih]
        · rw [if_neg hp, AList.lookup_insert_ne (Ne.symm hk), ih]

/-! ## Compaction -/

/-- The records of a compacted file. -/
def compactedRecords (current : Current) : List JournalRecord :=
  (current.entries.map Sigma.snd).insertionSort JournalRecord.notAfter

/-- A map that holds the latest records of a list. -/
def Holds (current : Current) (records : List JournalRecord) : Prop :=
  ∀ key, current.lookup key = latest records key

theorem mem_of_latest {records : List JournalRecord} {key : Key} {record : JournalRecord}
    (h : latest records key = some record) :
    record ∈ records ∧ record.key = key ∧ record.phase ≠ .databaseAcknowledged := by
  unfold latest at h
  rw [Option.filter_eq_some_iff] at h
  exact ⟨List.mem_reverse.mp (List.mem_of_find?_eq_some h.1),
    by simpa using List.find?_some h.1, by simpa using h.2⟩

theorem mem_compactedRecords {current : Current} {record : JournalRecord} :
    record ∈ compactedRecords current ↔ ∃ key, current.lookup key = some record := by
  rw [compactedRecords, List.mem_insertionSort, List.mem_map]
  constructor
  · rintro ⟨⟨key, r⟩, hmem, rfl⟩
    exact ⟨key, AList.mem_lookup_iff.mpr hmem⟩
  · rintro ⟨key, h⟩
    exact ⟨⟨key, record⟩, AList.mem_lookup_iff.mp h, rfl⟩

/-- Compaction keeps the latest records. -/
theorem latest_compactedRecords {current : Current} {records : List JournalRecord}
    (h : Holds current records) (key : Key) :
    latest (compactedRecords current) key = latest records key := by
  have hkeys : ∀ e ∈ current.entries, e.2.key = e.1 ∧ e.2.phase ≠ .databaseAcknowledged := by
    rintro ⟨k, r⟩ he
    have hlookup : current.lookup k = some r := AList.mem_lookup_iff.mpr he
    rw [h k] at hlookup
    exact (mem_of_latest hlookup).2
  have hnodup : ((compactedRecords current).map JournalRecord.key).Nodup := by
    have hperm := (List.perm_insertionSort JournalRecord.notAfter
      (current.entries.map Sigma.snd)).map JournalRecord.key
    refine hperm.nodup_iff.mpr ?_
    have hmap : current.entries.map (JournalRecord.key ∘ Sigma.snd) = current.keys :=
      List.map_congr_left fun e he => (hkeys e he).1
    rw [List.map_map, hmap]
    exact current.nodupKeys
  have hopen : ∀ r ∈ compactedRecords current, r.phase ≠ .databaseAcknowledged := by
    intro r hr
    obtain ⟨k, hk⟩ := mem_compactedRecords.mp hr
    rw [h k] at hk
    exact (mem_of_latest hk).2.2
  refine Option.ext fun record => ?_
  rw [latest_of_nodup hnodup hopen, mem_compactedRecords, ← h key]
  constructor
  · rintro ⟨⟨k, hk⟩, hkey⟩
    have hlatest := hk
    rw [h k] at hlatest
    rw [← hkey, (mem_of_latest hlatest).2.1]
    exact hk
  · intro hk
    have hlatest := hk
    rw [h key] at hlatest
    exact ⟨⟨key, hk⟩, (mem_of_latest hlatest).2.1⟩

/-! ## The invariant -/

/-- The file is the lines of stored records and a torn record, and the records
leave the latest of those whose append returned. -/
structure Intact (codec : Codec) (s : Disk) (records : List JournalRecord) (tail : List Char) :
    Prop where
  bytes : s.bytes = utf8 (records.flatMap codec.line ++ tail)
  stored : ∀ r ∈ records, codec.Stores r
  torn : Torn codec tail
  latest : ∀ key, latest records key = latest s.returned key

/-- The file is empty or ends with a line feed. -/
def Disk.Clean (s : Disk) : Prop :=
  ∃ text, readToString s.bytes = some text ∧ (text = [] ∨ ∃ rest, text = rest ++ ['\n'])

theorem Intact.replays {s : Disk} {records : List JournalRecord} {tail : List Char}
    (h : Intact codec s records tail) :
    ∃ current, currentUnacknowledged codec (some s.bytes) = some current ∧
      Holds current records := by
  refine ⟨records.foldl replayRecord ∅, ?_, lookup_replay records⟩
  rw [currentUnacknowledged, h.bytes, readToString_utf8, Option.map_some,
    foldl_lines h.stored h.torn]

/-- The same of the file itself, which may not be there yet. -/
theorem Intact.read {s : Disk} {records : List JournalRecord} {tail : List Char}
    (h : Intact codec s records tail) :
    ∃ current, currentUnacknowledged codec s.file = some current ∧ Holds current records := by
  obtain ⟨current, hcurrent, hholds⟩ := h.replays
  refine ⟨current, ?_, hholds⟩
  cases hfile : s.file with
  | none =>
      have hempty : s.bytes = utf8 [] := by
        rw [Disk.bytes, hfile]
        rfl
      rw [hempty, currentUnacknowledged, readToString_utf8] at hcurrent
      exact hcurrent
  | some file =>
      rw [Disk.bytes, hfile] at hcurrent
      exact hcurrent

theorem Intact.tail_eq_nil {s : Disk} {records : List JournalRecord} {tail : List Char}
    (h : Intact codec s records tail) (hclean : s.Clean) : tail = [] := by
  obtain ⟨text, htext, hends⟩ := hclean
  rw [h.bytes, readToString_utf8] at htext
  cases htext
  rcases hends with hnil | ⟨rest, hrest⟩
  · exact (List.append_eq_nil_iff.mp hnil).2
  · rcases List.eq_nil_or_concat tail with hnil | ⟨tail', c, htail⟩
    · exact hnil
    · rw [htail, List.concat_eq_append, ← List.append_assoc] at hrest
      obtain ⟨-, hc⟩ := List.append_inj' hrest rfl
      have hmem : c ∈ tail := by simp [htail]
      cases hc
      exact absurd rfl (h.torn.unbroken.not_newline hmem).1

/-! ## Runs -/

/-- The step relation of the journal. -/
def step (codec : Codec) (action : Action) (s : Disk) : Option Disk := some (s.step codec action)

/-- `serde_json` handles the record of the action. -/
def Action.Serializes (codec : Codec) : Action → Prop
  | .openJournal => True
  | .append record _ => codec.Serializes record.persisted

/-- No append to an incomplete line, and no crash or failed write that leaves
part of a character, or a whole record that was not acknowledged. -/
def Untorn (codec : Codec) (s : Disk) : Action → Prop
  | .openJournal => True
  | .append _ .refused => True
  | .append record (.torn k) =>
    k = 0 ∨ s.Clean ∧ ((codec.lineBytes record).extract 0 k).IsValidUTF8 ∧
      k < (utf8 (codec.encode record.persisted)).size
  | .append _ (.returned _ _) => s.Clean

/-- The bytes a crash leaves of a line are the characters of a torn record. -/
theorem torn_of_extract {record : JournalRecord} {k : ℕ}
    (hserializes : codec.Serializes record.persisted)
    (hvalid : ((codec.lineBytes record).extract 0 k).IsValidUTF8)
    (hk : k < (utf8 (codec.encode record.persisted)).size) :
    ∃ tail, (codec.lineBytes record).extract 0 k = utf8 tail ∧ Torn codec tail := by
  have hline : codec.lineBytes record = utf8 (codec.encode record.persisted) ++ utf8 ['\n'] := by
    rw [Codec.lineBytes, Codec.line, utf8_append]
  have hwithin : (codec.lineBytes record).extract 0 k =
      (utf8 (codec.encode record.persisted)).extract 0 k := by
    rw [hline, ByteArray.extract_append, Nat.sub_eq_zero_of_le hk.le]
    simp
  obtain ⟨tail, htail⟩ := hvalid
  refine ⟨tail, htail, .inr ⟨record.persisted, hserializes, ?_, ?_⟩⟩
  · refine List.isPrefix_of_utf8Encode_append_eq_utf8Encode
      ((utf8 (codec.encode record.persisted)).extract k
        (utf8 (codec.encode record.persisted)).size) ?_
    rw [← htail, hwithin, ByteArray.extract_append_extract]
    simp [utf8_eq_utf8Encode]
  · rintro rfl
    have hsize : (utf8 (codec.encode record.persisted)).size = k := by
      rw [utf8_eq_utf8Encode, ← htail, hwithin, ByteArray.size_extract]
      omega
    omega

/-- A record appended to whole lines. -/
theorem Intact.append {s : Disk} {records : List JournalRecord} {record : JournalRecord}
    (h : Intact codec s records []) (hserializes : codec.Serializes record.persisted) :
    Intact codec { file := some (s.bytes ++ codec.lineBytes record),
                   returned := s.returned ++ [record.persisted] }
      (records ++ [record.persisted]) [] where
  bytes := by
    change s.bytes ++ codec.lineBytes record = _
    rw [h.bytes, Codec.lineBytes, ← utf8_append]
    simp
  stored r hr := by
    rcases List.mem_append.mp hr with hr | hr
    · exact h.stored r hr
    · rw [List.mem_singleton.mp hr]
      exact ⟨hserializes, record.persisted_persisted⟩
  torn := .inl rfl
  latest key := by
    rw [latest_concat, latest_concat, h.latest key]

/-- Compaction replaces the records by the latest ones. -/
theorem Intact.compact {s : Disk} {records : List JournalRecord} {tail : List Char}
    (h : Intact codec s records tail) (fault : CompactionFault) :
    ∃ records' tail',
      Intact codec { s with file := some (compact codec fault s.bytes) } records' tail' := by
  obtain ⟨current, hcurrent, hholds⟩ := h.replays
  have hcompacted : Intact codec { s with file := some (compacted codec current) }
      (compactedRecords current) [] := by
    refine ⟨?_, fun r hr => ?_, .inl rfl, fun key => ?_⟩
    · rw [List.append_nil]
      rfl
    · obtain ⟨key, hkey⟩ := mem_compactedRecords.mp hr
      rw [hholds key] at hkey
      exact h.stored r (mem_of_latest hkey).1
    · rw [latest_compactedRecords hholds key, h.latest key]
  cases fault with
  | beforeRename => exact ⟨records, tail, h.bytes, h.stored, h.torn, h.latest⟩
  | none | afterRename =>
      refine ⟨compactedRecords current, [], ?_⟩
      rw [Journal.compact, hcurrent]
      exact hcompacted

/-- The invariant of the journal. -/
def Disk.Sound (codec : Codec) (s : Disk) : Prop :=
  ∃ records tail, Intact codec s records tail

theorem Disk.Sound.step {s : Disk} {action : Action} (h : s.Sound codec)
    (hserializes : action.Serializes codec) (huntorn : Untorn codec s action) :
    (s.step codec action).Sound codec := by
  obtain ⟨records, tail, h⟩ := h
  cases action with
  | openJournal => exact ⟨records, tail, h.bytes, h.stored, h.torn, h.latest⟩
  | append record outcome =>
      cases outcome with
      | refused => exact ⟨records, tail, h⟩
      | torn k =>
          rcases huntorn with rfl | ⟨hclean, hvalid, hk⟩
          · refine ⟨records, tail, ?_, h.stored, h.torn, h.latest⟩
            rw [← h.bytes]
            simp [Disk.step, Disk.bytes]
          · obtain ⟨tail', htail', htorn⟩ := torn_of_extract hserializes hvalid hk
            refine ⟨records, tail', ?_, h.stored, htorn, h.latest⟩
            change s.bytes ++ (codec.lineBytes record).extract 0 k = _
            rw [h.bytes, h.tail_eq_nil hclean, List.append_nil, htail', ← utf8_append]
      | returned sized fault =>
          have happended : Intact codec { file := some (s.bytes ++ codec.lineBytes record),
                                          returned := s.returned ++ [record.persisted] }
              (records ++ [record.persisted]) [] :=
            (h.tail_eq_nil huntorn ▸ h).append hserializes
          unfold Disk.step
          dsimp only
          split
          · exact happended.compact fault
          · exact ⟨_, _, happended⟩

/-- **When replay survives crashes.**  In every state reached by opens and
appends that are untorn, replay succeeds and returns for each command the last
record among those whose append returned `Ok`, unless the database has
acknowledged it. -/
theorem replay_returns_latest (codec : Codec) (s : Disk)
    (h : Reach (step codec)
      (fun s action => action.Serializes codec ∧ Untorn codec s action) (· = .fresh) s) :
    ∃ current, currentUnacknowledged codec s.file = some current ∧
      ∀ key, current.lookup key = latest s.returned key := by
  have hsound : s.Sound codec := by
    refine h.invariant (fun s hs => ?_) fun s action s' hs hguard hstep => ?_
    · subst hs
      exact ⟨[], [], rfl, fun r hr => absurd hr List.not_mem_nil, .inl rfl, fun _ => rfl⟩
    · cases hstep
      exact hs.step hguard.1 hguard.2
  obtain ⟨records, tail, hs⟩ := hsound
  obtain ⟨current, hcurrent, hholds⟩ := hs.read
  exact ⟨current, hcurrent, fun key => (hholds key).trans (hs.latest key)⟩

/-! ## A torn line -/

/-- An intent without a server and a payload. -/
def sampleRecord : JournalRecord where
  instanceId := 1
  commandId := 2
  generation := 1
  settingRevision := 1
  challengeRuntimeRevision := 1
  operation := .ensureInstance
  phase := .intent
  remoteServer := none
  effectiveExpiresAt := seconds 1767229200
  remoteResult := none
  payload := none
  updatedAt := seconds 1767225600

/-- What `serde_json` writes for it, field by field. -/
def sampleFields : List String :=
  ["\"instance_id\":\"00000000-0000-0000-0000-000000000001\",",
   "\"command_id\":\"00000000-0000-0000-0000-000000000002\",",
   "\"generation\":1,", "\"setting_revision\":1,", "\"challenge_runtime_revision\":1,",
   "\"operation\":\"ensure_instance\",", "\"phase\":\"intent\",", "\"remote_server\":null,",
   "\"effective_expires_at\":\"2026-01-01T01:00:00Z\",", "\"remote_result\":null,",
   "\"payload\":null,", "\"updated_at\":\"2026-01-01T00:00:00Z\"\x7d"]

/-- The text of the record. -/
def sampleText : List Char := '{' :: sampleFields.flatMap String.toList

/-- `serde_json` on this record and its text. -/
def sampleCodec : Codec where
  encode := fun _ => sampleText
  decode := fun text => if text = sampleText then some sampleRecord else none

/-- The characters of a literal are read off, and not decoded. -/
theorem all_ofList {p : Char → Bool} {text : List Char} (h : text.all p = true) :
    (String.ofList text).toList.all p = true := by
  rwa [String.toList_ofList]

theorem sampleText_printable : ∀ c ∈ sampleText, ' ' ≤ c := by
  have hfields : ∀ field ∈ sampleFields, field.toList.all (' ' ≤ ·) = true := by
    repeat refine List.forall_mem_cons.mpr ⟨all_ofList rfl, ?_⟩
    exact List.forall_mem_nil _
  intro c hc
  rcases List.mem_cons.mp hc with rfl | hc
  · decide
  · obtain ⟨field, hfield, hmem⟩ := List.mem_flatMap.mp hc
    exact of_decide_eq_true (List.all_eq_true.mp (hfields field hfield) c hmem)

theorem sampleCodec_serializes : sampleCodec.Serializes sampleRecord := by
  refine ⟨?_, ⟨sampleFields.flatMap String.toList, ?_⟩, sampleText_printable, fun text _ hne => ?_⟩
  · simp [sampleCodec]
  · rfl
  · exact if_neg hne

/-- The bytes a crash after the first byte leaves. -/
theorem sample_first_byte : (sampleCodec.lineBytes sampleRecord).extract 0 1 = utf8 ['{'] := by
  have hsplit : sampleCodec.lineBytes sampleRecord =
      utf8 ['{'] ++ utf8 (sampleFields.flatMap String.toList ++ ['\n']) := by
    rw [← utf8_append]
    rfl
  have hsize : (utf8 ['{']).size = 1 := rfl
  have hwhole : (utf8 ['{']).extract 0 1 = utf8 ['{'] := ByteArray.extract_zero_size
  rw [hsplit, ByteArray.extract_append, hsize, hwhole]
  simp

/-- A crash after the first byte of a record, when nothing is written yet. -/
theorem sample_untorn : Untorn sampleCodec .fresh (.append sampleRecord (.torn 1)) := by
  refine .inr ⟨⟨[], rfl, .inl rfl⟩, ?_, ?_⟩
  · rw [sample_first_byte]
    exact ⟨['{'], rfl⟩
  · obtain ⟨rest, hrest⟩ : ∃ rest, sampleText = ['{', '"'] ++ rest := ⟨_, rfl⟩
    change 1 < (utf8 sampleText).size
    have hsize : (utf8 ['{', '"']).size = 2 := rfl
    rw [hrest, utf8_append, ByteArray.size_append, hsize]
    omega

/-- Two appends in good order around a crash that is followed by nothing. -/
theorem replay_returns_latest_sample :
    ∃ current, currentUnacknowledged sampleCodec
        (Disk.step sampleCodec .fresh (.append sampleRecord (.torn 1))).file = some current ∧
      ∀ key, current.lookup key =
        latest (Disk.step sampleCodec .fresh (.append sampleRecord (.torn 1))).returned key :=
  replay_returns_latest sampleCodec _
    (.step (.append sampleRecord (.torn 1)) (.init rfl) ⟨sampleCodec_serializes, sample_untorn⟩ rfl)

/-- A record appended and synced after a crash is lost: it joins the line the
crash has left. -/
theorem replay_loses_record :
    ¬ ∀ (codec : Codec) (s : Disk),
      Reach (step codec) (fun _ action => action.Serializes codec) (· = .fresh) s →
      ∃ current, currentUnacknowledged codec s.file = some current ∧
        ∀ key, current.lookup key = latest s.returned key := by
  intro h
  have hreach : Reach (step sampleCodec) (fun _ action => action.Serializes sampleCodec)
      (· = .fresh) (Disk.step sampleCodec
        (Disk.step sampleCodec .fresh (.append sampleRecord (.torn 1)))
        (.append sampleRecord (.returned false .none))) :=
    .step (.append sampleRecord (.returned false .none))
      (.step (.append sampleRecord (.torn 1)) (.init rfl) sampleCodec_serializes rfl)
      sampleCodec_serializes rfl
  obtain ⟨current, hcurrent, hlatest⟩ := h sampleCodec _ hreach
  -- the file is one line, which is not JSON
  have hfile : (Disk.step sampleCodec
      (Disk.step sampleCodec .fresh (.append sampleRecord (.torn 1)))
      (.append sampleRecord (.returned false .none))).file =
      some (utf8 (('{' :: sampleText) ++ '\n' :: [])) := by
    have happended : (Disk.step sampleCodec
        (Disk.step sampleCodec .fresh (.append sampleRecord (.torn 1)))
        (.append sampleRecord (.returned false .none))).file =
        some (ByteArray.empty ++ (sampleCodec.lineBytes sampleRecord).extract 0 1 ++
          sampleCodec.lineBytes sampleRecord) := rfl
    have hline : sampleCodec.lineBytes sampleRecord = utf8 (sampleText ++ ['\n']) := rfl
    rw [happended, sample_first_byte, hline, ByteArray.empty_append, ← utf8_append]
    rfl
  have hdecode : sampleCodec.decode ('{' :: sampleText) = none := by
    have hne : '{' :: sampleText ≠ sampleText := fun heq => by
      have hlength := congrArg List.length heq
      rw [List.length_cons] at hlength
      omega
    simp [sampleCodec, hne]
  have hblank : ('{' :: sampleText).all isWhitespace = false := rfl
  have hunbroken : Unbroken ('{' :: sampleText) := by
    intro c hc
    rcases List.mem_cons.mp hc with rfl | hc
    · decide
    · exact sampleText_printable c hc
  have hempty : currentUnacknowledged sampleCodec
      (some (utf8 (('{' :: sampleText) ++ '\n' :: []))) = some ∅ := by
    rw [currentUnacknowledged, readToString_utf8, Option.map_some, lines_line hunbroken,
      List.foldl_cons, replayLine, hblank, hdecode]
    rfl
  rw [hfile, hempty] at hcurrent
  cases hcurrent
  have hlost : latest ([] ++ [sampleRecord.persisted]) sampleRecord.key = none :=
    (hlatest sampleRecord.key).symm
  rw [latest_concat, JournalRecord.persisted_key, if_pos rfl, JournalRecord.persisted_phase,
    if_neg (by decide)] at hlost
  cases hlost

end Journal

end CtfZone
