/-
# Chunks of a PNG file

`validate_static_png_chunks` (`objects.rs`), which walks the chunks of an uploaded category
icon before it is decoded: with the offsets and slices of the source, each of which could
panic, and the checksum that `crc32fast` computes.

* `validateStaticPngChunks` : the walk;
* `Chunk` : a chunk as the file format has it, and `Chunk.encode` its bytes;
* `StaticPng` : a signature, chunks that are neither of an animation nor the end, and the end;
* `validateChunk_parts` : what one round of the loop does to a chunk;
* `static_png_exact` : what is accepted.
-/
import CtfZone.Basic
import Mathlib.Logic.Function.Iterate

namespace CtfZone.Png

/-! ## Bytes -/

/-- A slice; no allocation is longer than `isize::MAX`. -/
structure ByteSlice where
  bytes : List UInt8
  length_lt : bytes.length < 2 ^ 63

/-- How the validation can end otherwise: with the text of its error, by a panic, or never. -/
inductive Failure
  | message (text : String)
  | panic
  | unfinished
  deriving DecidableEq

/-- A check that ends the validation. -/
def reject (condition : Bool) (text : String) : Except Failure Unit :=
  if condition then .error (.message text) else .ok ⟨⟩

/-- `checked_add(…).ok_or("png_decode_failed")`. -/
def checkedAdd (m n : ℕ) : Except Failure ℕ :=
  if m + n < 2 ^ 64 then .ok (m + n) else .error (.message "png_decode_failed")

/-- `+` of `usize`. -/
def add (m n : ℕ) : Except Failure ℕ := if m + n < 2 ^ 64 then .ok (m + n) else .error .panic

/-- `bytes[start..stop]`. -/
def slice (bytes : List UInt8) (start stop : ℕ) : Except Failure (List UInt8) :=
  if start ≤ stop ∧ stop ≤ bytes.length then .ok ((bytes.take stop).drop start)
  else .error .panic

/-- `u32::from_be_bytes`, of a slice that has to have four bytes. -/
def fromBeBytes : List UInt8 → Except Failure ℕ
  | [a, b, c, d] => .ok (((a.toNat * 256 + b.toNat) * 256 + c.toNat) * 256 + d.toNat)
  | _ => .error (.message "png_decode_failed")

/-- `u32::to_be_bytes`. -/
def toBeBytes (n : ℕ) : List UInt8 :=
  [.ofNat (n / 2 ^ 24), .ofNat (n / 2 ^ 16), .ofNat (n / 2 ^ 8), .ofNat n]

/-! ## Checksums -/

/-- One bit of CRC-32. -/
def crcBit (state : UInt32) : UInt32 :=
  if state &&& 1 = 1 then (state >>> 1) ^^^ 0xEDB88320 else state >>> 1

/-- One byte of CRC-32. -/
def crcByte (state : UInt32) (byte : UInt8) : UInt32 := crcBit^[8] (state ^^^ byte.toUInt32)

/-- `crc32fast::Hasher`. -/
structure Hasher where
  state : UInt32

/-- `Hasher::new`. -/
def Hasher.new : Hasher := ⟨0xFFFFFFFF⟩

/-- `update`. -/
def Hasher.update (crc : Hasher) (bytes : List UInt8) : Hasher := ⟨bytes.foldl crcByte crc.state⟩

/-- `finalize`. -/
def Hasher.finalize (crc : Hasher) : ℕ := (crc.state ^^^ 0xFFFFFFFF).toNat

/-- The checksum of some bytes. -/
def crc32 (bytes : List UInt8) : ℕ := (Hasher.new.update bytes).finalize

example : crc32 [73, 69, 78, 68] = 0xAE426082 := by decide +kernel

/-! ## The loop -/

/-- `SIGNATURE`. -/
def signature : List UInt8 := [0x89, 0x50, 0x4E, 0x47, 0x0D, 0x0A, 0x1A, 0x0A]

/-- `b"IEND"`. -/
def iend : List UInt8 := [0x49, 0x45, 0x4E, 0x44]

/-- `b"acTL" | b"fcTL" | b"fdAT"`. -/
def animationKinds : List (List UInt8) :=
  [[0x61, 0x63, 0x54, 0x4C], [0x66, 0x63, 0x54, 0x4C], [0x66, 0x64, 0x41, 0x54]]

/-- The body of the loop at an offset: the next offset, or nothing where the file is over. -/
def validateChunk (bytes : List UInt8) (offset : ℕ) : Except Failure (Option ℕ) := do
  let headerEnd ← checkedAdd offset 8
  reject (bytes.length < headerEnd) "png_decode_failed"
  let kindStart ← add offset 4
  let length ← fromBeBytes (← slice bytes offset kindStart)
  let kind ← slice bytes kindStart (← add offset 8)
  let chunkEnd ← checkedAdd (← checkedAdd headerEnd length) 4
  reject (bytes.length < chunkEnd) "png_decode_failed"
  let dataEnd ← add headerEnd length
  let storedCrc ← fromBeBytes (← slice bytes dataEnd chunkEnd)
  let data ← slice bytes headerEnd dataEnd
  let crc := (Hasher.new.update kind).update data
  reject (crc.finalize ≠ storedCrc) "png_crc_invalid"
  reject (animationKinds.contains kind) "animated_png_not_supported"
  if kind = iend then do
    reject (! (length = 0 && chunkEnd = bytes.length)) "png_decode_failed"
    pure none
  else pure (some chunkEnd)

/-- The loop, `fuel` rounds of it at most. -/
def validateFrom (bytes : List UInt8) : ℕ → ℕ → Except Failure Unit
  | 0, _ => .error .unfinished
  | fuel + 1, offset =>
    if offset < bytes.length then do
      match ← validateChunk bytes offset with
      | none => pure ⟨⟩
      | some next => validateFrom bytes fuel next
    else .error (.message "png_decode_failed")

/-- `validate_static_png_chunks`. -/
def validateStaticPngChunks (file : ByteSlice) : Except Failure Unit := do
  reject (! signature.isPrefixOf file.bytes) "png_decode_failed"
  validateFrom file.bytes file.bytes.length signature.length

/-! ## The format -/

/-- A chunk. -/
@[ext]
structure Chunk where
  kind : List UInt8
  data : List UInt8
  kind_length : kind.length = 4
  data_length : data.length < 2 ^ 32

/-- The bytes of a chunk: its length, its type, its data and its checksum. -/
def Chunk.encode (c : Chunk) : List UInt8 :=
  toBeBytes c.data.length ++ (c.kind ++ (c.data ++ toBeBytes (crc32 (c.kind ++ c.data))))

/-- The empty chunk at the end of a file. -/
def Chunk.last : Chunk := ⟨iend, [], rfl, by decide⟩

/-- Chunks that are neither of an animation nor the end, and then the end. -/
def Chunks (bytes : List UInt8) : Prop :=
  ∃ chunks : List Chunk, (∀ c ∈ chunks, c.kind ∉ animationKinds ∧ c.kind ≠ iend) ∧
    bytes = chunks.flatMap Chunk.encode ++ Chunk.last.encode

/-- A PNG file that is no animation. -/
def StaticPng (bytes : List UInt8) : Prop := ∃ rest, bytes = signature ++ rest ∧ Chunks rest

/-! ## Numbers and slices -/

theorem fromBeBytes_toBeBytes {n : ℕ} (h : n < 2 ^ 32) : fromBeBytes (toBeBytes n) = .ok n := by
  simp only [toBeBytes, fromBeBytes, UInt8.toNat_ofNat', Except.ok.injEq]
  omega

/-- What four bytes say, they are the bytes of. -/
theorem toBeBytes_fromBeBytes {bytes : List UInt8} {n : ℕ} (h : fromBeBytes bytes = .ok n) :
    toBeBytes n = bytes ∧ n < 2 ^ 32 := by
  unfold fromBeBytes at h
  split at h
  · rename_i a b c d
    cases h
    have ha := a.toNat_lt
    have hb := b.toNat_lt
    have hc := c.toNat_lt
    have hd := d.toNat_lt
    refine ⟨?_, by omega⟩
    simp only [toBeBytes, List.cons.injEq, ← UInt8.toNat_inj, UInt8.toNat_ofNat', and_true]
    omega
  · cases h

theorem fromBeBytes_of_length {bytes : List UInt8} (h : bytes.length = 4) :
    ∃ n, fromBeBytes bytes = .ok n := by
  match bytes, h with
  | [a, b, c, d], _ => exact ⟨_, rfl⟩

theorem length_toBeBytes (n : ℕ) : (toBeBytes n).length = 4 := rfl

/-- A slice in the middle. -/
theorem slice_mid {bytes middle : List UInt8} {start stop : ℕ} (front back : List UInt8)
    (hbytes : bytes = front ++ (middle ++ back)) (hstart : start = front.length)
    (hstop : stop = front.length + middle.length) : slice bytes start stop = .ok middle := by
  subst hbytes hstart hstop
  rw [slice, if_pos]
  · rw [← List.append_assoc, List.take_left' (by rw [List.length_append]), List.drop_left]
  · rw [List.length_append, List.length_append]
    omega

theorem add_of_lt {m n : ℕ} (h : m + n < 2 ^ 64) : add m n = .ok (m + n) := if_pos h

theorem checkedAdd_of_lt {m n : ℕ} (h : m + n < 2 ^ 64) : checkedAdd m n = .ok (m + n) := if_pos h

theorem crc32_append (kind data : List UInt8) :
    ((Hasher.new.update kind).update data).finalize = crc32 (kind ++ data) := by
  simp only [crc32, Hasher.update, List.foldl_append]

theorem crc32_lt (bytes : List UInt8) : crc32 bytes < 2 ^ 32 := UInt32.toNat_lt _

/-! ## One chunk -/

/-- What is decided about a chunk of a file, its checksum read. -/
def judge (kind data rest : List UInt8) (storedCrc next : ℕ) : Except Failure (Option ℕ) := do
  reject (crc32 (kind ++ data) ≠ storedCrc) "png_crc_invalid"
  reject (animationKinds.contains kind) "animated_png_not_supported"
  if kind = iend then do
    reject (! (data.isEmpty && rest.isEmpty)) "png_decode_failed"
    pure none
  else pure (some next)

/-- A round of the loop at a place where the parts of a chunk stand. -/
theorem validateChunk_parts {bytes front size kind data crc rest : List UInt8} {storedCrc : ℕ}
    (hbytes : bytes = front ++ (size ++ (kind ++ (data ++ (crc ++ rest)))))
    (hlength : bytes.length < 2 ^ 63) (hkind : kind.length = 4)
    (hsize : fromBeBytes size = .ok data.length) (hcrc : fromBeBytes crc = .ok storedCrc) :
    validateChunk bytes front.length =
      judge kind data rest storedCrc (front.length + 12 + data.length) := by
  have hsize4 : size.length = 4 := by rw [← (toBeBytes_fromBeBytes hsize).1, length_toBeBytes]
  have hcrc4 : crc.length = 4 := by rw [← (toBeBytes_fromBeBytes hcrc).1, length_toBeBytes]
  have htotal : bytes.length = front.length + (4 + (4 + (data.length + (4 + rest.length)))) := by
    rw [hbytes]
    simp only [List.length_append, hsize4, hkind, hcrc4]
  -- the slices of the chunk, each of them within the file
  have hsizeSlice : slice bytes front.length (front.length + 4) = .ok size :=
    slice_mid front _ hbytes rfl (by omega)
  have hkindSlice : slice bytes (front.length + 4) (front.length + 8) = .ok kind := by
    apply slice_mid (front ++ size) (data ++ (crc ++ rest))
    · rw [hbytes, List.append_assoc]
    · rw [List.length_append, hsize4]
    · rw [List.length_append, hsize4, hkind]
  have hdataSlice : slice bytes (front.length + 8) (front.length + 8 + data.length) = .ok data := by
    apply slice_mid (front ++ size ++ kind) (crc ++ rest)
    · simp only [hbytes, List.append_assoc]
    · simp only [List.length_append, hsize4, hkind]
    · simp only [List.length_append, hsize4, hkind]
  have hcrcSlice : slice bytes (front.length + 8 + data.length)
      (front.length + 8 + data.length + 4) = .ok crc := by
    apply slice_mid (front ++ size ++ kind ++ data) rest
    · simp only [hbytes, List.append_assoc]
    · simp only [List.length_append, hsize4, hkind]
    · simp only [List.length_append, hsize4, hkind, hcrc4]
  have hheader : ¬ bytes.length < front.length + 8 := by omega
  have hend : ¬ bytes.length < front.length + 8 + data.length + 4 := by omega
  have hover : (data.length = 0 && front.length + 8 + data.length + 4 = bytes.length) =
      (data.isEmpty && rest.isEmpty) := by
    rw [Bool.eq_iff_iff]
    simp only [Bool.and_eq_true, decide_eq_true_eq, List.isEmpty_iff_length_eq_zero]
    omega
  unfold validateChunk
  rw [checkedAdd_of_lt (by omega), add_of_lt (by omega), add_of_lt (by omega)]
  simp only [bind, Except.bind, reject, hheader, decide_false, hsizeSlice, hkindSlice, hsize]
  rw [checkedAdd_of_lt (by omega)]
  simp only []
  rw [checkedAdd_of_lt (by omega), add_of_lt (by omega)]
  simp only [hend, decide_false, hcrcSlice, hcrc, hdataSlice, crc32_append, judge, reject, bind,
    Except.bind, hover]
  have hnext : front.length + 8 + data.length + 4 = front.length + 12 + data.length := by omega
  rw [hnext]
  rfl

section Judge

variable {kind data rest : List UInt8} {storedCrc next : ℕ}

theorem judge_crc (h : crc32 (kind ++ data) ≠ storedCrc) :
    judge kind data rest storedCrc next = .error (.message "png_crc_invalid") := by
  simp only [judge, reject, h, ne_eq, not_false_eq_true, decide_true, if_true]
  rfl

variable (hcrc : crc32 (kind ++ data) = storedCrc)
include hcrc

theorem judge_animation (h : kind ∈ animationKinds) :
    judge kind data rest storedCrc next = .error (.message "animated_png_not_supported") := by
  simp only [judge, reject, hcrc, ne_eq, not_true_eq_false, decide_false, List.contains_iff_mem, h,
    if_true]
  rfl

variable (hanimation : kind ∉ animationKinds)
include hanimation

/-- What is decided about a chunk with the right checksum that is not of an animation. -/
theorem judge_kept : judge kind data rest storedCrc next =
    if kind = iend then do
      reject (! (data.isEmpty && rest.isEmpty)) "png_decode_failed"
      pure none
    else pure (some next) := by
  simp only [judge, reject, hcrc, ne_eq, not_true_eq_false, decide_false, List.contains_iff_mem,
    hanimation, if_false]
  rfl

theorem judge_next (h : kind ≠ iend) : judge kind data rest storedCrc next = .ok (some next) := by
  rw [judge_kept hcrc hanimation, if_neg h]
  rfl

theorem judge_last (h : kind = iend) (hdata : data = []) (hrest : rest = []) :
    judge kind data rest storedCrc next = .ok none := by
  rw [judge_kept hcrc hanimation, if_pos h, hdata, hrest]
  rfl

theorem judge_trailing (h : kind = iend) (hlast : ¬ (data = [] ∧ rest = [])) :
    judge kind data rest storedCrc next = .error (.message "png_decode_failed") := by
  have hempty : (! (data.isEmpty && rest.isEmpty)) = true := by
    rw [Bool.not_eq_true', ← Bool.not_eq_true, Bool.and_eq_true, List.isEmpty_iff,
      List.isEmpty_iff]
    exact hlast
  rw [judge_kept hcrc hanimation, if_pos h, hempty]
  rfl

end Judge

/-- The parts of a chunk, at the front of what is left of a file. -/
structure Parts (tail : List UInt8) where
  size : List UInt8
  kind : List UInt8
  data : List UInt8
  crc : List UInt8
  rest : List UInt8
  storedCrc : ℕ
  tail_eq : tail = size ++ (kind ++ (data ++ (crc ++ rest)))
  kind_length : kind.length = 4
  size_eq : fromBeBytes size = .ok data.length
  crc_eq : fromBeBytes crc = .ok storedCrc

/-- Where the parts of a chunk stand, a chunk that stands there has them. -/
theorem Parts.eq_of_encode {tail rest : List UInt8} (parts : Parts tail) {c : Chunk}
    (h : tail = c.encode ++ rest) :
    parts.kind = c.kind ∧ parts.data = c.data ∧ parts.storedCrc = crc32 (c.kind ++ c.data) ∧
      parts.rest = rest := by
  obtain ⟨size, kind, data, crc, rest', storedCrc, rfl, hkind, hsize, hcrc⟩ := parts
  obtain ⟨hsizeBytes, -⟩ := toBeBytes_fromBeBytes hsize
  obtain ⟨hcrcBytes, -⟩ := toBeBytes_fromBeBytes hcrc
  simp only [Chunk.encode, List.append_assoc] at h
  obtain ⟨hsame, h⟩ := List.append_inj h (by rw [← hsizeBytes, length_toBeBytes,
    length_toBeBytes])
  have hdata : data.length = c.data.length := by
    rw [hsame, fromBeBytes_toBeBytes c.data_length, Except.ok.injEq] at hsize
    exact hsize.symm
  obtain ⟨hkinds, h⟩ := List.append_inj h (by rw [hkind, c.kind_length])
  obtain ⟨hdatas, h⟩ := List.append_inj h hdata
  obtain ⟨hcrcs, hrest⟩ := List.append_inj h (by rw [← hcrcBytes, length_toBeBytes,
    length_toBeBytes])
  refine ⟨hkinds, hdatas, ?_, hrest⟩
  rw [hcrcs, fromBeBytes_toBeBytes (crc32_lt _), Except.ok.injEq] at hcrc
  exact hcrc.symm

/-- The parts of a chunk are a chunk, if the checksum is right. -/
theorem Parts.encode {tail : List UInt8} (parts : Parts tail)
    (h : crc32 (parts.kind ++ parts.data) = parts.storedCrc) :
    ∃ c : Chunk, c.kind = parts.kind ∧ c.data = parts.data ∧ tail = c.encode ++ parts.rest := by
  obtain ⟨size, kind, data, crc, rest, storedCrc, rfl, hkind, hsize, hcrc⟩ := parts
  obtain ⟨hsizeBytes, hlt⟩ := toBeBytes_fromBeBytes hsize
  obtain ⟨hcrcBytes, -⟩ := toBeBytes_fromBeBytes hcrc
  refine ⟨⟨kind, data, hkind, hlt⟩, rfl, rfl, ?_⟩
  dsimp only at h
  simp only [Chunk.encode, List.append_assoc, hsizeBytes, h, hcrcBytes]

/-- A chunk takes twelve bytes beside its data. -/
theorem Parts.length {tail : List UInt8} (parts : Parts tail) :
    tail.length = 12 + parts.data.length + parts.rest.length := by
  obtain ⟨size, kind, data, crc, rest, storedCrc, rfl, hkind, hsize, hcrc⟩ := parts
  have hsize4 : size.length = 4 := by rw [← (toBeBytes_fromBeBytes hsize).1, length_toBeBytes]
  have hcrc4 : crc.length = 4 := by rw [← (toBeBytes_fromBeBytes hcrc).1, length_toBeBytes]
  simp only [List.length_append, hsize4, hkind, hcrc4]
  omega

/-- A chunk has parts. -/
theorem length_encode (c : Chunk) : c.encode.length = 12 + c.data.length := by
  simp only [Chunk.encode, List.length_append, length_toBeBytes, c.kind_length]
  omega

/-- At every place of a file there are the parts of a chunk, or no chunk fits, and the round of
the loop says so. -/
theorem parts_or_short {bytes front tail : List UInt8} (hbytes : bytes = front ++ tail)
    (hlength : bytes.length < 2 ^ 63) :
    Nonempty (Parts tail) ∨
      (validateChunk bytes front.length = .error (.message "png_decode_failed") ∧
        ∀ (c : Chunk) rest, tail ≠ c.encode ++ rest) := by
  have htotal : bytes.length = front.length + tail.length := by rw [hbytes, List.length_append]
  by_cases hheader : tail.length < 8
  · right
    constructor
    · unfold validateChunk
      rw [checkedAdd_of_lt (by omega)]
      have hreject : bytes.length < front.length + 8 := by omega
      simp only [bind, Except.bind, reject, hreject, decide_true, if_true]
    · intro c rest htail
      have hencode := length_encode c
      rw [htail, List.length_append] at hheader
      omega
  -- the header is there
  have hsize4 : (tail.take 4).length = 4 := by
    rw [List.length_take]
    omega
  have hkind4 : ((tail.drop 4).take 4).length = 4 := by
    rw [List.length_take, List.length_drop]
    omega
  obtain ⟨n, hn⟩ := fromBeBytes_of_length hsize4
  obtain ⟨hnBytes, hnlt⟩ := toBeBytes_fromBeBytes hn
  have hsplit : tail = tail.take 4 ++ ((tail.drop 4).take 4 ++ tail.drop 8) := by
    rw [← List.append_assoc, ← List.take_add, List.take_append_drop]
  by_cases hdata : (tail.drop 8).length < n + 4
  · right
    rw [List.length_drop] at hdata
    constructor
    · have hsizeSlice : slice bytes front.length (front.length + 4) = .ok (tail.take 4) :=
        slice_mid front ((tail.drop 4).take 4 ++ tail.drop 8) (by rw [hbytes, ← hsplit]) rfl
          (by rw [hsize4])
      have hkindSlice : slice bytes (front.length + 4) (front.length + 8) =
          .ok ((tail.drop 4).take 4) := by
        apply slice_mid (front ++ tail.take 4) (tail.drop 8)
        · rw [hbytes, List.append_assoc, ← hsplit]
        · rw [List.length_append, hsize4]
        · rw [List.length_append, hsize4, hkind4]
      have hheader' : ¬ bytes.length < front.length + 8 := by omega
      have hend : bytes.length < front.length + 8 + n + 4 := by omega
      unfold validateChunk
      rw [checkedAdd_of_lt (by omega), add_of_lt (by omega), add_of_lt (by omega)]
      simp only [bind, Except.bind, reject, hheader', decide_false, hsizeSlice, hkindSlice, hn]
      rw [checkedAdd_of_lt (by omega)]
      simp only []
      rw [checkedAdd_of_lt (by omega)]
      simp only [hend, decide_true, if_true]
      rfl
    · intro c rest htail
      have hencode := length_encode c
      have hc : c.data.length = n := by
        have htake : tail.take 4 = toBeBytes c.data.length := by
          rw [htail, Chunk.encode, List.append_assoc]
          exact List.take_left' (length_toBeBytes _)
        rw [htake, fromBeBytes_toBeBytes c.data_length, Except.ok.injEq] at hn
        exact hn
      have hlen := congrArg List.length htail
      rw [List.length_append] at hlen
      omega
  · left
    rw [List.length_drop] at hdata
    have hcrc4 : (((tail.drop 8).drop n).take 4).length = 4 := by
      rw [List.length_take, List.length_drop, List.length_drop]
      omega
    obtain ⟨storedCrc, hcrc⟩ := fromBeBytes_of_length hcrc4
    have hdata' : ((tail.drop 8).take n).length = n := by
      rw [List.length_take, List.length_drop]
      omega
    refine ⟨⟨tail.take 4, (tail.drop 4).take 4, (tail.drop 8).take n,
      ((tail.drop 8).drop n).take 4, ((tail.drop 8).drop n).drop 4, storedCrc, ?_, hkind4, ?_,
      hcrc⟩⟩
    · rw [List.take_append_drop, List.take_append_drop, ← hsplit]
    · rw [hdata']
      exact hn

/-! ## The whole file -/

/-- The first of some chunks. -/
theorem Chunks.first {tail : List UInt8} (h : Chunks tail) :
    ∃ (c : Chunk) (rest : List UInt8), tail = c.encode ++ rest := by
  obtain ⟨chunks, -, rfl⟩ := h
  rcases chunks with _ | ⟨c, chunks⟩
  · exact ⟨Chunk.last, [], (List.append_nil _).symm⟩
  · refine ⟨c, chunks.flatMap Chunk.encode ++ Chunk.last.encode, ?_⟩
    rw [List.flatMap_cons, List.append_assoc]

/-- Chunks are one that goes on with chunks, or the last one. -/
theorem chunks_iff {tail : List UInt8} (parts : Parts tail) :
    Chunks tail ↔ crc32 (parts.kind ++ parts.data) = parts.storedCrc ∧
      parts.kind ∉ animationKinds ∧
        (parts.kind = iend ∧ parts.data = [] ∧ parts.rest = [] ∨
          parts.kind ≠ iend ∧ Chunks parts.rest) := by
  constructor
  · rintro ⟨chunks, hchunks, htail⟩
    rcases chunks with _ | ⟨c, chunks⟩
    · obtain ⟨hkind, hdata, hcrc, hrest⟩ :=
        parts.eq_of_encode (htail.trans (List.append_nil Chunk.last.encode).symm)
      refine ⟨by rw [hkind, hdata, hcrc], ?_, .inl ⟨hkind, hdata, hrest⟩⟩
      rw [hkind]
      decide
    · rw [List.flatMap_cons, List.append_assoc] at htail
      obtain ⟨hkind, hdata, hcrc, hrest⟩ := parts.eq_of_encode htail
      obtain ⟨hanimation, hend⟩ := hchunks c List.mem_cons_self
      refine ⟨by rw [hkind, hdata, hcrc], hkind ▸ hanimation, .inr ⟨hkind ▸ hend, ?_⟩⟩
      exact ⟨chunks, fun d hd => hchunks d (List.mem_cons_of_mem c hd), hrest⟩
  · rintro ⟨hcrc, hanimation, hlast | ⟨hend, chunks, hchunks, hrest⟩⟩
    · obtain ⟨c, hkind, hdata, htail⟩ := parts.encode hcrc
      obtain ⟨hend, hempty, hrest⟩ := hlast
      refine ⟨[], nofun, ?_⟩
      have hc : c = Chunk.last := Chunk.ext (hkind.trans hend) (hdata.trans hempty)
      rw [htail, hc, hrest, List.append_nil]
      rfl
    · obtain ⟨c, hkind, hdata, htail⟩ := parts.encode hcrc
      refine ⟨c :: chunks, ?_, ?_⟩
      · intro d hd
        rcases List.mem_cons.mp hd with rfl | hd
        · rw [hkind]
          exact ⟨hanimation, hend⟩
        · exact hchunks d hd
      · rw [htail, hrest, List.flatMap_cons, List.append_assoc]

/-- What the loop comes to from a place in the file. -/
theorem validateFrom_exact {bytes : List UInt8} (hlength : bytes.length < 2 ^ 63) (fuel : ℕ)
    {front tail : List UInt8} (hbytes : bytes = front ++ tail) (hfuel : tail.length < fuel) :
    (validateFrom bytes fuel front.length = .ok ⟨⟩ ∧ Chunks tail) ∨
      ((∃ text, validateFrom bytes fuel front.length = .error (.message text)) ∧
        ¬ Chunks tail) := by
  induction fuel generalizing front tail with
  | zero => exact absurd hfuel (Nat.not_lt_zero _)
  | succ fuel ih =>
      have htotal : bytes.length = front.length + tail.length := by
        rw [hbytes, List.length_append]
      by_cases hover : front.length < bytes.length
      · rw [validateFrom, if_pos hover]
        rcases parts_or_short hbytes hlength with ⟨⟨parts⟩⟩ | ⟨hshort, hnone⟩
        · have hbytes' : bytes = front ++ (parts.size ++
              (parts.kind ++ (parts.data ++ (parts.crc ++ parts.rest)))) := by
            rw [hbytes, ← parts.tail_eq]
          rw [validateChunk_parts hbytes' hlength parts.kind_length parts.size_eq parts.crc_eq,
            chunks_iff parts]
          by_cases hcrc : crc32 (parts.kind ++ parts.data) = parts.storedCrc
          · by_cases hanimation : parts.kind ∈ animationKinds
            · right
              rw [judge_animation hcrc hanimation]
              exact ⟨⟨_, rfl⟩, fun h => h.2.1 hanimation⟩
            · by_cases hend : parts.kind = iend
              · by_cases hlast : parts.data = [] ∧ parts.rest = []
                · left
                  rw [judge_last hcrc hanimation hend hlast.1 hlast.2]
                  exact ⟨rfl, hcrc, hanimation, .inl ⟨hend, hlast⟩⟩
                · right
                  rw [judge_trailing hcrc hanimation hend hlast]
                  refine ⟨⟨_, rfl⟩, ?_⟩
                  rintro ⟨-, -, ⟨-, hlast'⟩ | ⟨hend', -⟩⟩
                  · exact hlast hlast'
                  · exact hend' hend
              · rw [judge_next hcrc hanimation hend]
                have hplace : front.length + 12 + parts.data.length = (front ++
                    (parts.size ++ (parts.kind ++ (parts.data ++ parts.crc)))).length := by
                  have hparts := congrArg List.length parts.tail_eq
                  have hlen := parts.length
                  simp only [List.length_append] at hparts ⊢
                  omega
                have hrest : parts.rest.length < fuel := by
                  have hlen := parts.length
                  omega
                -- the next round stands behind this chunk
                have hfront : bytes = (front ++ (parts.size ++
                    (parts.kind ++ (parts.data ++ parts.crc)))) ++ parts.rest := by
                  simp only [hbytes', List.append_assoc]
                have hnext := ih hfront hrest
                rw [← hplace] at hnext
                rcases hnext with ⟨hok, hchunks⟩ | ⟨herror, hchunks⟩
                · exact .inl ⟨hok, hcrc, hanimation, .inr ⟨hend, hchunks⟩⟩
                · refine .inr ⟨herror, ?_⟩
                  rintro ⟨-, -, ⟨hend', -⟩ | ⟨-, hchunks'⟩⟩
                  · exact hend hend'
                  · exact hchunks hchunks'
          · right
            rw [judge_crc hcrc]
            exact ⟨⟨_, rfl⟩, fun h => hcrc h.1⟩
        · right
          rw [hshort]
          refine ⟨⟨_, rfl⟩, fun hchunks => ?_⟩
          obtain ⟨c, rest, htail⟩ := hchunks.first
          exact hnone c rest htail
      · right
        rw [validateFrom, if_neg hover]
        refine ⟨⟨_, rfl⟩, fun hchunks => ?_⟩
        obtain ⟨c, rest, htail⟩ := hchunks.first
        have hencode := length_encode c
        rw [htail, List.length_append] at htotal
        omega

/-- **Accepted is what is a PNG file without animation, and everything else is refused with an
error**: no slice is out of range, nothing overflows, and the loop ends. -/
theorem static_png_exact (file : ByteSlice) :
    (validateStaticPngChunks file = .ok ⟨⟩ ↔ StaticPng file.bytes) ∧
      (¬ StaticPng file.bytes → ∃ text, validateStaticPngChunks file = .error (.message text)) := by
  by_cases hsignature : signature.isPrefixOf file.bytes = true
  · obtain ⟨tail, htail⟩ := List.isPrefixOf_iff_prefix.mp hsignature
    have hstatic : StaticPng file.bytes ↔ Chunks tail := by
      constructor
      · rintro ⟨rest, hrest, hchunks⟩
        rwa [List.append_cancel_left (htail.trans hrest)]
      · exact fun h => ⟨tail, htail.symm, h⟩
    have hlen := congrArg List.length htail
    rw [List.length_append] at hlen
    have hfuel : tail.length < file.bytes.length := by
      have hsize : signature.length = 8 := rfl
      omega
    unfold validateStaticPngChunks
    rw [hsignature, hstatic]
    rcases validateFrom_exact file.length_lt file.bytes.length htail.symm hfuel with
      ⟨hok, hchunks⟩ | ⟨⟨text, herror⟩, hchunks⟩
    · exact ⟨⟨fun _ => hchunks, fun _ => hok⟩, fun h => absurd hchunks h⟩
    · refine ⟨⟨fun h => absurd (herror.symm.trans h) nofun, fun h => absurd h hchunks⟩, ?_⟩
      exact fun _ => ⟨text, herror⟩
  · have hnot : ¬ StaticPng file.bytes := by
      rintro ⟨rest, hrest, -⟩
      exact hsignature (List.isPrefixOf_iff_prefix.mpr ⟨rest, hrest.symm⟩)
    have herror : validateStaticPngChunks file = .error (.message "png_decode_failed") := by
      have hfalse : signature.isPrefixOf file.bytes = false := by
        rw [← Bool.not_eq_true]
        exact hsignature
      rw [validateStaticPngChunks, hfalse]
      rfl
    refine ⟨⟨fun h => absurd (herror.symm.trans h) nofun, fun h => absurd h hnot⟩, ?_⟩
    exact fun _ => ⟨_, herror⟩

end CtfZone.Png
