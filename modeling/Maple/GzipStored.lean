import Maple.ByteReader
import Maple.Crc32

/-! The gzip of a page going away: stored blocks, written without compressing. -/

namespace Maple.Gzip
open ByteReader (leBytes ofLeBytes leField)

/-! ### The writer -/

/-- `crcTable` has an entry for every index it is asked for. -/
def crc32 (bytes : List UInt8) : BitVec 32 :=
  bytes.foldl Crc32.tableStep 0xffffffff#32 ^^^ 0xffffffff#32

/-- Largest payload of one stored block. -/
def STORED_BLOCK_BYTES : ℕ := 0xffff

/-- Bytes set in an array, which throws where they do not fit. -/
def setBytes (out : List UInt8) (at_ : ℕ) (bytes : List UInt8) : Option (List UInt8) :=
  if at_ + bytes.length ≤ out.length then
    some (out.take at_ ++ bytes ++ out.drop (at_ + bytes.length))
  else none

def HEADER : List UInt8 := [0x1f, 0x8b, 0x08, 0, 0, 0, 0, 0, 0, 0xff]

/-- `~length & 0xffff`. -/
def complement16 (length : ℕ) : ℕ := (~~~(BitVec.ofNat 32 length) &&& 0xffff#32).toNat

def writeBlock (bytes : List UInt8) (blocks : ℕ) (state : List UInt8 × ℕ) (block : ℕ) :
    Option (List UInt8 × ℕ) := do
  let (out, at_) := state
  let start := block * STORED_BLOCK_BYTES
  let length := min STORED_BLOCK_BYTES (bytes.length - start)
  let out := out.set at_ (if block = blocks - 1 then 1 else 0)
  let out ← setBytes out (at_ + 1) (leBytes 2 length)
  let out ← setBytes out (at_ + 3) (leBytes 2 (complement16 length))
  let out ← setBytes out (at_ + 5) ((bytes.drop start).take length)
  some (out, at_ + 5 + length)

/-- `Math.ceil` of the quotient, and at least one. -/
def blockCount (bytes : List UInt8) : ℕ :=
  max 1 ((bytes.length + (STORED_BLOCK_BYTES - 1)) / STORED_BLOCK_BYTES)

def allotted (bytes : List UInt8) : ℕ := 10 + blockCount bytes * 5 + bytes.length + 8

def gzipStored (bytes : List UInt8) : Option (List UInt8) := do
  let out ← setBytes (List.replicate (allotted bytes) 0) 0 HEADER
  let (out, at_) ←
    (List.range (blockCount bytes)).foldlM (writeBlock bytes (blockCount bytes)) (out, 10)
  let out ← setBytes out at_ (leBytes 4 (crc32 bytes).toNat)
  setBytes out (at_ + 4) (leBytes 4 (bytes.length % 2 ^ 32))

/-! ### The format -/

structure StoredBlock where
  final : Bool
  data : List UInt8
deriving DecidableEq, Repr

/-- Stored blocks up to the final one, and what follows it. -/
def readBlocks : ℕ → List UInt8 → Option (List StoredBlock × List UInt8)
  | 0, _ => none
  | _, [] => none
  | fuel + 1, head :: bytes =>
    let length := leField bytes 0 2
    -- a block of another type, or one whose length does not match its complement
    if head.toNat / 2 % 4 ≠ 0 ∨ bytes.length < 4 ∨ leField bytes 2 2 + length ≠ 0xffff ∨
        bytes.length < 4 + length then none
    else
      let block : StoredBlock := ⟨head.toNat % 2 = 1, (bytes.drop 4).take length⟩
      let rest := bytes.drop (4 + length)
      if block.final then some ([block], rest)
      else (readBlocks fuel rest).map fun (blocks, rest) => (block :: blocks, rest)

def afterZero (bytes : List UInt8) : Option (List UInt8) :=
  if 0 ∈ bytes then some (bytes.dropWhile (· ≠ 0)).tail else none

/-- The fields the flags announce: extra, name, comment, header checksum. -/
def afterOptional (flags : ℕ) (bytes : List UInt8) : Option (List UInt8) := do
  let bytes ←
    if flags / 4 % 2 = 0 then some bytes
    else if bytes.length < 2 + leField bytes 0 2 then none
    else some (bytes.drop (2 + leField bytes 0 2))
  let bytes ← if flags / 8 % 2 = 0 then some bytes else afterZero bytes
  let bytes ← if flags / 16 % 2 = 0 then some bytes else afterZero bytes
  if flags / 2 % 2 = 0 then some bytes
  else if bytes.length < 2 then none
  else some (bytes.drop 2)

/-- What follows a header: its two magic bytes, the method deflate, no reserved flag. -/
def readHeader (bytes : List UInt8) : Option (List UInt8) :=
  let flags := leField bytes 3 1
  if bytes.length < 10 ∨ bytes.take 3 ≠ [0x1f, 0x8b, 8] ∨ 32 ≤ flags then none
  else afterOptional flags (bytes.drop 10)

structure Member where
  blocks : List StoredBlock
  crc : ℕ
  size : ℕ
deriving DecidableEq, Repr

/-- The one member of a stream of stored blocks, with its trailer. -/
def readGzip (bytes : List UInt8) : Option Member := do
  let body ← readHeader bytes
  let (blocks, trailer) ← readBlocks body.length body
  if trailer.length = 8 then
    some { blocks, crc := leField trailer 0 4, size := leField trailer 4 4 }
  else none

/-! ### What the writer leaves -/

def encodeBlock (block : StoredBlock) : List UInt8 :=
  (if block.final then 1 else 0) :: (leBytes 2 block.data.length ++
    (leBytes 2 (complement16 block.data.length) ++ block.data))

lemma complement16_eq {length : ℕ} (h : length ≤ 0xffff) : complement16 length = 0xffff - length := by
  have hmask : (0xffff#32).toNat = 2 ^ 16 - 1 := by decide
  rw [complement16, BitVec.toNat_and, hmask, Nat.and_two_pow_sub_one_eq_mod, BitVec.toNat_not,
    BitVec.toNat_ofNat, Nat.mod_eq_of_lt (by omega : length < 2 ^ 32)]
  omega

lemma length_encodeBlock (block : StoredBlock) :
    (encodeBlock block).length = 5 + block.data.length := by
  simp only [encodeBlock, List.length_cons, List.length_append, ByteReader.leBytes_length]
  omega

/-- Bytes set at the end of what is written go there. -/
lemma setBytes_next (text bytes : List UInt8) {room : ℕ} (h : bytes.length ≤ room) :
    setBytes (text ++ List.replicate room 0) text.length bytes =
      some (text ++ bytes ++ List.replicate (room - bytes.length) 0) := by
  have hfits : text.length + bytes.length ≤ (text ++ List.replicate room (0 : UInt8)).length := by
    rw [List.length_append, List.length_replicate]
    omega
  rw [setBytes, if_pos hfits, List.take_left, List.drop_append,
    List.drop_eq_nil_of_le (by omega), List.nil_append, List.drop_replicate]
  congr 4
  omega

lemma set_next {text : List UInt8} {room : ℕ} (h : 1 ≤ room) (byte : UInt8) :
    (text ++ List.replicate room 0).set text.length byte =
      text ++ [byte] ++ List.replicate (room - 1) 0 := by
  obtain ⟨n, rfl⟩ := Nat.exists_eq_add_of_le h
  rw [List.set_append, if_neg (lt_irrefl _), Nat.sub_self, Nat.add_comm 1 n, List.replicate_succ]
  simp

/-- The block of a number. -/
def blockAt (bytes : List UInt8) (blocks block : ℕ) : StoredBlock where
  final := block = blocks - 1
  data := (bytes.drop (block * STORED_BLOCK_BYTES)).take STORED_BLOCK_BYTES

lemma length_blockAt_le (bytes : List UInt8) (blocks block : ℕ) :
    (blockAt bytes blocks block).data.length ≤ 0xffff := List.length_take_le _ _

/-- One turn of the loop appends one block. -/
lemma writeBlock_next {bytes text : List UInt8} {blocks block room : ℕ}
    (hroom : (encodeBlock (blockAt bytes blocks block)).length ≤ room) :
    writeBlock bytes blocks (text ++ List.replicate room 0, text.length) block =
      some (text ++ encodeBlock (blockAt bytes blocks block) ++
          List.replicate (room - (encodeBlock (blockAt bytes blocks block)).length) 0,
        (text ++ encodeBlock (blockAt bytes blocks block)).length) := by
  set stored := blockAt bytes blocks block with hstored
  rw [length_encodeBlock] at hroom
  have hlength : min STORED_BLOCK_BYTES (bytes.length - block * STORED_BLOCK_BYTES) =
      stored.data.length := by
    rw [hstored, blockAt, List.length_take, List.length_drop]
  have hdata : (bytes.drop (block * STORED_BLOCK_BYTES)).take stored.data.length = stored.data := by
    rw [← hlength, List.take_eq_take_iff.mpr]
    · rfl
    · rw [List.length_drop]
      omega
  unfold writeBlock
  dsimp only
  rw [hlength, hdata, set_next (by omega)]
  set flag : List UInt8 := [if block = blocks - 1 then 1 else 0]
  have hlen := setBytes_next (text ++ flag) (leBytes 2 stored.data.length)
    (show _ ≤ room - 1 by rw [ByteReader.leBytes_length]; omega)
  have hnlen := setBytes_next (text ++ flag ++ leBytes 2 stored.data.length)
    (leBytes 2 (complement16 stored.data.length))
    (show _ ≤ room - 1 - 2 by rw [ByteReader.leBytes_length]; omega)
  have hbody := setBytes_next (text ++ flag ++ leBytes 2 stored.data.length ++
    leBytes 2 (complement16 stored.data.length)) stored.data
    (show _ ≤ room - 1 - 2 - 2 by omega)
  simp only [List.length_append, ByteReader.leBytes_length, flag, List.length_singleton]
    at hlen hnlen hbody
  have htwo : text.length + 1 + 2 = text.length + 3 := by omega
  have hfour : text.length + 3 + 2 = text.length + 5 := by omega
  rw [htwo] at hnlen hbody
  rw [hfour] at hbody
  simp only [Option.bind_eq_bind]
  rw [hlen, Option.bind_some, hnlen, Option.bind_some, hbody, Option.bind_some]
  have hencoded : text ++ flag ++ leBytes 2 stored.data.length ++
      leBytes 2 (complement16 stored.data.length) ++ stored.data = text ++ encodeBlock stored := by
    simp [encodeBlock, flag, hstored, blockAt]
  rw [hencoded, List.length_append, length_encodeBlock]
  have hrest : room - 1 - 2 - 2 - stored.data.length = room - (5 + stored.data.length) := by omega
  rw [hrest, Nat.add_assoc]

def body (bytes : List UInt8) (blocks count : ℕ) : List UInt8 :=
  (List.range count).flatMap fun block => encodeBlock (blockAt bytes blocks block)

/-- The first blocks hold the front of the input. -/
lemma data_blocks (bytes : List UInt8) (blocks count : ℕ) :
    (List.range count).flatMap (fun block => (blockAt bytes blocks block).data) =
      bytes.take (count * STORED_BLOCK_BYTES) := by
  induction count with
  | zero => simp
  | succ count ih =>
    rw [List.range_succ, List.flatMap_append, ih, List.flatMap_singleton, Nat.succ_mul,
      List.take_add, blockAt]

lemma length_body (bytes : List UInt8) (blocks count : ℕ) :
    (body bytes blocks count).length =
      count * 5 + (bytes.take (count * STORED_BLOCK_BYTES)).length := by
  rw [← data_blocks bytes blocks count, body]
  induction count with
  | zero => simp
  | succ count ih =>
    rw [List.range_succ, List.flatMap_append, List.flatMap_append, List.length_append,
      List.length_append, ih, List.flatMap_singleton, List.flatMap_singleton, length_encodeBlock]
    omega

lemma writeBlocks (bytes text : List UInt8) (blocks count room : ℕ)
    (hroom : (body bytes blocks count).length ≤ room) :
    (List.range count).foldlM (writeBlock bytes blocks) (text ++ List.replicate room 0, text.length)
      = some (text ++ body bytes blocks count ++
          List.replicate (room - (body bytes blocks count).length) 0,
        (text ++ body bytes blocks count).length) := by
  induction count with
  | zero => simp [body]
  | succ count ih =>
    have hbody : body bytes blocks (count + 1) =
        body bytes blocks count ++ encodeBlock (blockAt bytes blocks count) := by
      rw [body, List.range_succ, List.flatMap_append, List.flatMap_singleton, body]
    rw [hbody, List.length_append] at hroom
    rw [List.range_succ, List.foldlM_append, ih (by omega), Option.bind_eq_bind, Option.bind_some,
      List.foldlM_cons, writeBlock_next (by omega), hbody]
    simp only [List.foldlM_nil, Option.bind_eq_bind, Option.bind_some, Option.pure_def]
    rw [@List.length_append _ (body bytes blocks count), Nat.sub_sub]
    simp only [List.append_assoc]

/-- Every byte is in a block. -/
lemma blockCount_covers (bytes : List UInt8) :
    bytes.length ≤ blockCount bytes * STORED_BLOCK_BYTES := by
  rw [blockCount, STORED_BLOCK_BYTES]
  rcases le_total 1 ((bytes.length + (0xffff - 1)) / 0xffff) with h | h
  · rw [max_eq_right h]
    omega
  · rw [max_eq_left h]
    omega

def trailer (bytes : List UInt8) : List UInt8 :=
  leBytes 4 (crc32 bytes).toNat ++ leBytes 4 (bytes.length % 2 ^ 32)

/-- Everything fits, and nothing is left unset. -/
lemma gzipStored_eq (bytes : List UInt8) :
    gzipStored bytes =
      some (HEADER ++ body bytes (blockCount bytes) (blockCount bytes) ++ trailer bytes) := by
  have hlength : (body bytes (blockCount bytes) (blockCount bytes)).length =
      blockCount bytes * 5 + bytes.length := by
    rw [length_body, List.take_of_length_le (blockCount_covers bytes)]
  have hheader : setBytes (List.replicate (allotted bytes) 0) 0 HEADER =
      some (HEADER ++ List.replicate (blockCount bytes * 5 + bytes.length + 8) 0) := by
    have h := setBytes_next [] HEADER
      (show _ ≤ allotted bytes by
        simp only [HEADER, allotted, List.length_cons, List.length_nil]
        omega)
    rw [List.nil_append, List.nil_append, List.length_nil] at h
    rw [h, allotted]
    congr 3
    simp only [HEADER, List.length_cons, List.length_nil]
    omega
  have hblocks := writeBlocks bytes HEADER (blockCount bytes) (blockCount bytes)
    (blockCount bytes * 5 + bytes.length + 8) (by omega)
  have hcrc := setBytes_next (HEADER ++ body bytes (blockCount bytes) (blockCount bytes))
    (leBytes 4 (crc32 bytes).toNat) (show _ ≤ 8 by simp)
  have hsize := setBytes_next (HEADER ++ body bytes (blockCount bytes) (blockCount bytes) ++
    leBytes 4 (crc32 bytes).toNat) (leBytes 4 (bytes.length % 2 ^ 32)) (show _ ≤ 4 by simp)
  rw [@List.length_append _ _ (leBytes 4 (crc32 bytes).toNat), ByteReader.leBytes_length] at hsize
  have hroom : blockCount bytes * 5 + bytes.length + 8 -
      (body bytes (blockCount bytes) (blockCount bytes)).length = 8 := by omega
  rw [hroom] at hblocks
  rw [ByteReader.leBytes_length] at hcrc
  have hten : HEADER.length = 10 := rfl
  rw [hten] at hblocks
  rw [gzipStored]
  simp only [Option.bind_eq_bind]
  rw [hheader, Option.bind_some, hblocks, Option.bind_some]
  dsimp only
  rw [hcrc, Option.bind_some, hsize, ByteReader.leBytes_length]
  simp [trailer]

/-! ### What a reader finds -/

lemma leField_front {field after : List UInt8} {len : ℕ} (hlen : field.length = len) :
    leField (field ++ after) 0 len = ofLeBytes field := by
  have h := @ByteReader.leField_append [] field after 0 len rfl hlen
  rwa [List.nil_append] at h

lemma readBlocks_encode {block : StoredBlock} (hdata : block.data.length ≤ 0xffff)
    (fuel : ℕ) (rest : List UInt8) :
    readBlocks (fuel + 1) (encodeBlock block ++ rest) =
      if block.final then some ([block], rest)
      else (readBlocks fuel rest).map fun (blocks, rest) => (block :: blocks, rest) := by
  set head : UInt8 := if block.final then 1 else 0 with hhead
  have htext : encodeBlock block ++ rest = head :: (leBytes 2 block.data.length ++
      (leBytes 2 (complement16 block.data.length) ++ (block.data ++ rest))) := by
    simp [encodeBlock, hhead]
  rw [htext, readBlocks]
  set tail := leBytes 2 block.data.length ++
    (leBytes 2 (complement16 block.data.length) ++ (block.data ++ rest)) with htail
  have hlen : leField tail 0 2 = block.data.length := by
    rw [htail, leField_front (ByteReader.leBytes_length _ _), ByteReader.ofLeBytes_leBytes]
    omega
  have hnlen : leField tail 2 2 = 0xffff - block.data.length := by
    rw [htail, ByteReader.leField_append (ByteReader.leBytes_length _ _)
      (ByteReader.leBytes_length _ _), complement16_eq hdata, ByteReader.ofLeBytes_leBytes]
    omega
  have htotal : tail.length = 4 + (block.data.length + rest.length) := by
    simp only [htail, List.length_append, ByteReader.leBytes_length]
    omega
  have htype : head.toNat / 2 % 4 = 0 := by
    rw [hhead]
    split_ifs <;> rfl
  have hfinal : decide (head.toNat % 2 = 1) = block.final := by
    rw [hhead]
    cases block.final <;> rfl
  have hbody : tail.drop 4 = block.data ++ rest := by
    rw [htail, ← List.append_assoc]
    exact List.drop_left' (by simp)
  have hrest : tail.drop (4 + block.data.length) = rest := by
    rw [← List.drop_drop, hbody, List.drop_left]
  dsimp only
  rw [hlen, hnlen, if_neg (by omega), hfinal, hbody, List.take_left, hrest]

/-- Blocks that end with the only final one. -/
structure Closed (blocks : List StoredBlock) : Prop where
  split : ∃ front last, blocks = front ++ [last] ∧ last.final = true ∧
    ∀ block ∈ front, block.final = false
  short : ∀ block ∈ blocks, block.data.length ≤ 0xffff

lemma readBlocks_front {front : List StoredBlock} {last : StoredBlock} {fuel : ℕ}
    (hfront : ∀ block ∈ front, block.final = false) (hlast : last.final = true)
    (hshort : ∀ block ∈ front ++ [last], block.data.length ≤ 0xffff)
    (hfuel : front.length < fuel) (rest : List UInt8) :
    readBlocks fuel ((front ++ [last]).flatMap encodeBlock ++ rest) =
      some (front ++ [last], rest) := by
  induction front generalizing fuel with
  | nil =>
    obtain ⟨n, rfl⟩ := Nat.exists_eq_add_of_lt hfuel
    rw [List.nil_append, List.flatMap_singleton, List.length_nil, Nat.zero_add,
      readBlocks_encode (hshort last (by simp)), if_pos hlast]
  | cons block front ih =>
    obtain ⟨n, rfl⟩ : ∃ n, fuel = n + 1 := Nat.exists_eq_succ_of_ne_zero (by omega)
    have hrest := ih (fun b hb => hfront b (List.mem_cons_of_mem _ hb))
      (fun b hb => hshort b (List.mem_cons_of_mem _ hb))
      (show front.length < n by rw [List.length_cons] at hfuel; omega)
    rw [List.cons_append, List.flatMap_cons, List.append_assoc,
      readBlocks_encode (hshort block (by simp)), hfront block List.mem_cons_self, if_neg (by simp),
      hrest]
    rfl

def storedBlocks (bytes : List UInt8) : List StoredBlock :=
  (List.range (blockCount bytes)).map (blockAt bytes (blockCount bytes))

lemma storedBlocks_closed (bytes : List UInt8) : Closed (storedBlocks bytes) := by
  obtain ⟨n, hn⟩ : ∃ n, blockCount bytes = n + 1 :=
    Nat.exists_eq_succ_of_ne_zero (by rw [blockCount]; omega)
  constructor
  · refine ⟨(List.range n).map (blockAt bytes (n + 1)), blockAt bytes (n + 1) n, ?_, ?_, ?_⟩
    · rw [storedBlocks, hn, List.range_succ, List.map_append, List.map_singleton]
    · simp [blockAt]
    · intro block hblock
      obtain ⟨i, hi, rfl⟩ := List.mem_map.mp hblock
      have hlt := List.mem_range.mp hi
      simp only [blockAt, Nat.add_sub_cancel, decide_eq_false_iff_not]
      omega
  · intro block hblock
    obtain ⟨i, -, rfl⟩ := List.mem_map.mp hblock
    exact length_blockAt_le _ _ _

lemma readHeader_header (rest : List UInt8) : readHeader (HEADER ++ rest) = some rest := by
  have hflags : leField (HEADER ++ rest) 3 1 = 0 := rfl
  rw [readHeader, hflags]
  simp [HEADER, afterOptional]

lemma flatMap_storedBlocks (bytes : List UInt8) :
    (storedBlocks bytes).flatMap StoredBlock.data = bytes := by
  rw [storedBlocks, List.flatMap_map, data_blocks, List.take_of_length_le (blockCount_covers bytes)]

lemma crc32_eq (bytes : List UInt8) : crc32 bytes = Crc32.bitwise bytes := by
  rw [crc32, Crc32.foldl_tableStep, Crc32.bitwise]

lemma readGzip_written {bytes : List UInt8} (h : bytes.length < 2 ^ 32) :
    readGzip (HEADER ++ body bytes (blockCount bytes) (blockCount bytes) ++ trailer bytes) =
      some ⟨storedBlocks bytes, (Crc32.bitwise bytes).toNat, bytes.length⟩ := by
  obtain ⟨front, last, hsplit, hlast, hfront⟩ := (storedBlocks_closed bytes).split
  have hbody : body bytes (blockCount bytes) (blockCount bytes) =
      (front ++ [last]).flatMap encodeBlock := by
    rw [← hsplit, storedBlocks, List.flatMap_map, body]
  have hfuel : front.length < ((front ++ [last]).flatMap encodeBlock ++ trailer bytes).length := by
    have hmany : (front ++ [last]).length ≤ ((front ++ [last]).flatMap encodeBlock).length := by
      induction front ++ [last] with
      | nil => simp
      | cons block blocks ih =>
        rw [List.flatMap_cons, List.length_append, length_encodeBlock, List.length_cons]
        omega
    rw [List.length_append] at hmany ⊢
    rw [List.length_singleton] at hmany
    omega
  have hread := readBlocks_front hfront hlast
    (fun block hblock => (storedBlocks_closed bytes).short block (hsplit ▸ hblock)) hfuel
    (trailer bytes)
  have hcrc : leField (trailer bytes) 0 4 = (Crc32.bitwise bytes).toNat := by
    rw [trailer, leField_front (ByteReader.leBytes_length _ _), ByteReader.ofLeBytes_leBytes,
      crc32_eq]
    exact lt_of_lt_of_eq (crc32 bytes).isLt (by norm_num)
  have hsize : leField (trailer bytes) 4 4 = bytes.length := by
    have hfield := @ByteReader.leField_append (leBytes 4 (crc32 bytes).toNat)
      (leBytes 4 (bytes.length % 2 ^ 32)) [] 4 4 (by simp) (by simp)
    rw [List.append_nil] at hfield
    rw [trailer, hfield, ByteReader.ofLeBytes_leBytes, Nat.mod_eq_of_lt h]
    exact lt_of_lt_of_eq (Nat.mod_lt _ (by norm_num)) (by norm_num)
  rw [readGzip, List.append_assoc]
  simp only [Option.bind_eq_bind]
  rw [readHeader_header, Option.bind_some, hbody, hread, Option.bind_some]
  dsimp only
  rw [hcrc, hsize, if_pos (by simp [trailer]), ← hsplit]

/-- What is written is the gzip of its input, to the last byte that was allotted. -/
theorem gzipStored_valid :
    (∀ bytes, crc32 bytes = Crc32.bitwise bytes) ∧
    ∀ bytes : List UInt8, bytes.length < 2 ^ 32 →
      ∃ out blocks, gzipStored bytes = some out ∧ out.length = allotted bytes ∧
        readGzip out = some ⟨blocks, (Crc32.bitwise bytes).toNat, bytes.length⟩ ∧
        Closed blocks ∧ blocks.flatMap StoredBlock.data = bytes := by
  refine ⟨crc32_eq, fun bytes h => ⟨_, storedBlocks bytes, gzipStored_eq bytes, ?_,
    readGzip_written h, storedBlocks_closed bytes, flatMap_storedBlocks bytes⟩⟩
  rw [List.length_append, List.length_append, length_body,
    List.take_of_length_le (blockCount_covers bytes)]
  simp only [HEADER, trailer, allotted, List.length_append, ByteReader.leBytes_length,
    List.length_cons, List.length_nil]
  omega

theorem gzipStored_valid_empty :
    ∃ out blocks, gzipStored [] = some out ∧ out.length = allotted [] ∧
      readGzip out = some ⟨blocks, (Crc32.bitwise []).toNat, 0⟩ ∧
      Closed blocks ∧ blocks.flatMap StoredBlock.data = [] :=
  gzipStored_valid.2 [] (by norm_num)

end Maple.Gzip
