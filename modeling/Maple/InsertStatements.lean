import Mathlib.Tactic

/-! The insert statements of NDJSON batches: whole batches share a statement while they fit, a batch
that does not fit is split between lines. -/

namespace Maple.Inserts

def MAX_ESCAPED_PAYLOAD_BYTES : ℕ := 200000

/-- A value in a single-quoted literal. -/
def escapeSqlLiteral (value : String) : String :=
  String.ofList (value.toList.flatMap fun c =>
    if c = '\\' then ['\\', '\\'] else if c = '\'' then ['\\', '\''] else [c])

structure InsertTemplate where
  sqlPrefix : String
  sqlSuffix : String

/-- A line counts with the line break after it. -/
structure EscapedLine where
  text : String
  bytes : ℕ
  counted : bytes = text.utf8ByteSize + 1

def escapeLine (line : List Char) : EscapedLine where
  text := escapeSqlLiteral (String.ofList line)
  bytes := (escapeSqlLiteral (String.ofList line)).utf8ByteSize + 1
  counted := rfl

def escapeLines (ndjson : String) : List EscapedLine :=
  ((ndjson.toList.splitOn '\n').filter fun line => !line.isEmpty).map escapeLine

/-- `data` has the escaped lines of the payload. -/
structure InsertStatement where
  data : List String
  rowCount : ℕ
deriving DecidableEq, Repr

structure InsertStatementPart (Owner : Type) where
  owner : Owner
  rowCount : ℕ
deriving DecidableEq, Repr

structure BatchedInsertStatement (Owner : Type) extends InsertStatement where
  parts : List (InsertStatementPart Owner)
deriving DecidableEq, Repr

/-- `join` with line breaks. -/
def joinLines : List String → String
  | [] => ""
  | [line] => line
  | line :: lines => line ++ "\n" ++ joinLines lines

def flushChunk (chunk : List String) : List InsertStatement :=
  if chunk.isEmpty then [] else [{ data := chunk, rowCount := chunk.length }]

def splitLinesFrom (chunk : List String) (chunkBytes : ℕ) :
    List EscapedLine → List InsertStatement
  | [] => flushChunk chunk
  | line :: lines =>
    if 0 < chunkBytes ∧ MAX_ESCAPED_PAYLOAD_BYTES < chunkBytes + line.bytes then
      flushChunk chunk ++ splitLinesFrom [line.text] line.bytes lines
    else splitLinesFrom (chunk ++ [line.text]) (chunkBytes + line.bytes) lines

def splitLines (lines : List EscapedLine) : List InsertStatement := splitLinesFrom [] 0 lines

def totalBytes (lines : List EscapedLine) : ℕ := (lines.map fun line => line.bytes).sum

/-- The statements so far, and the batches of the next one. -/
structure Packing (Owner : Type) where
  out : List (BatchedInsertStatement Owner) := []
  data : List String := []
  parts : List (InsertStatementPart Owner) := []
  rowCount : ℕ := 0
  bytes : ℕ := 0

section Build
variable {Owner : Type}

def Packing.flush (packing : Packing Owner) : Packing Owner :=
  if packing.parts.isEmpty then packing
  else
    { out := packing.out ++ [
        { data := packing.data, rowCount := packing.rowCount, parts := packing.parts }] }

def alone (owner : Owner) (statement : InsertStatement) : BatchedInsertStatement Owner :=
  { statement with parts := [{ owner, rowCount := statement.rowCount }] }

/-- Put a whole batch in the next statement. -/
def Packing.push (packing : Packing Owner) (owner : Owner) (lines : List EscapedLine) :
    Packing Owner :=
  { packing with
    data := packing.data ++ lines.map fun line => line.text
    parts := packing.parts ++ [{ owner, rowCount := lines.length }]
    rowCount := packing.rowCount + lines.length
    bytes := packing.bytes + totalBytes lines }

def Packing.add (packing : Packing Owner) (batch : Owner × String) : Packing Owner :=
  let lines := escapeLines batch.2
  if lines.isEmpty then packing
  else if MAX_ESCAPED_PAYLOAD_BYTES < totalBytes lines then
    let packing := packing.flush
    { packing with out := packing.out ++ (splitLines lines).map (alone batch.1) }
  else if MAX_ESCAPED_PAYLOAD_BYTES < packing.bytes + totalBytes lines then
    packing.flush.push batch.1 lines
  else packing.push batch.1 lines

def buildBatchedInsertStatements (batches : List (Owner × String)) :
    List (BatchedInsertStatement Owner) :=
  (batches.foldl Packing.add {}).flush.out

def buildInsertStatements (ndjson : String) : List InsertStatement :=
  (buildBatchedInsertStatements [((), ndjson)]).map fun statement => statement.toInsertStatement

/-! ### The statements, group by group -/

/-- Batches that share one statement, or one batch with statements of its own. -/
inductive Group (Owner : Type)
  | shared (batches : List (Owner × List EscapedLine))
  | split (owner : Owner) (lines : List EscapedLine)

def texts (lines : List EscapedLine) : List String := lines.map fun line => line.text

def sharedStatement (batches : List (Owner × List EscapedLine)) : BatchedInsertStatement Owner :=
  { data := batches.flatMap fun batch => texts batch.2
    rowCount := (batches.map fun batch => batch.2.length).sum
    parts := batches.map fun batch => { owner := batch.1, rowCount := batch.2.length } }

def Group.batches : Group Owner → List (Owner × List EscapedLine)
  | .shared batches => batches
  | .split owner lines => [(owner, lines)]

def Group.statements : Group Owner → List (BatchedInsertStatement Owner)
  | .shared batches => [sharedStatement batches]
  | .split owner lines => (splitLines lines).map (alone owner)

def sharedBytes (batches : List (Owner × List EscapedLine)) : ℕ :=
  (batches.map fun batch => totalBytes batch.2).sum

def Group.Fits : Group Owner → Prop
  | .shared batches => batches ≠ [] ∧ (∀ batch ∈ batches, batch.2 ≠ []) ∧
      sharedBytes batches ≤ MAX_ESCAPED_PAYLOAD_BYTES
  | .split _ lines => lines ≠ []

/-- The batches with lines, in order. -/
def linedBatches (batches : List (Owner × String)) : List (Owner × List EscapedLine) :=
  (batches.map fun batch => (batch.1, escapeLines batch.2)).filter fun batch => !batch.2.isEmpty

/-- What the packing loop has done with the batches so far. -/
structure Packed (packing : Packing Owner) (done : List (Owner × List EscapedLine))
    (groups : List (Group Owner)) (pending : List (Owner × List EscapedLine)) : Prop where
  out : packing.out = groups.flatMap Group.statements
  fits : ∀ group ∈ groups, group.Fits
  data : packing.data = pending.flatMap fun batch => texts batch.2
  parts : packing.parts = pending.map fun batch =>
    { owner := batch.1, rowCount := batch.2.length }
  rowCount : packing.rowCount = (pending.map fun batch => batch.2.length).sum
  bytes : packing.bytes = sharedBytes pending
  lined : ∀ batch ∈ pending, batch.2 ≠ []
  small : sharedBytes pending ≤ MAX_ESCAPED_PAYLOAD_BYTES
  all : groups.flatMap Group.batches ++ pending = done

lemma Packed.flush {packing : Packing Owner} {done pending : List (Owner × List EscapedLine)}
    {groups : List (Group Owner)} (h : Packed packing done groups pending) :
    ∃ groups', Packed packing.flush done groups' [] := by
  unfold Packing.flush
  cases pending with
  | nil =>
    have hparts : packing.parts = [] := h.parts
    rw [hparts]
    exact ⟨groups, h⟩
  | cons batch pending =>
    have hparts : packing.parts.isEmpty = false := by rw [h.parts]; rfl
    rw [hparts]
    refine ⟨groups ++ [.shared (batch :: pending)], ?_, ?_, rfl, rfl, rfl, rfl, by simp,
      Nat.zero_le _, ?_⟩
    · rw [List.flatMap_append, h.out, h.data, h.parts, h.rowCount]
      rfl
    · intro group hgroup
      rcases List.mem_append.mp hgroup with hgroup | hgroup
      · exact h.fits group hgroup
      · rw [List.mem_singleton.mp hgroup]
        exact ⟨by simp, h.lined, h.small⟩
    · rw [List.append_nil, List.flatMap_append, ← h.all]
      simp [Group.batches]

lemma Packed.push {packing : Packing Owner} {done pending : List (Owner × List EscapedLine)}
    {groups : List (Group Owner)} (h : Packed packing done groups pending) (owner : Owner)
    {lines : List EscapedLine} (hne : lines ≠ [])
    (hfits : packing.bytes + totalBytes lines ≤ MAX_ESCAPED_PAYLOAD_BYTES) :
    Packed (packing.push owner lines) (done ++ [(owner, lines)]) groups
      (pending ++ [(owner, lines)]) := by
  have hbytes := h.bytes
  refine ⟨h.out, h.fits, ?_, ?_, ?_, ?_, ?_, ?_, ?_⟩
  · simp [Packing.push, h.data, texts]
  · simp [Packing.push, h.parts]
  · simp [Packing.push, h.rowCount]
  · simp [Packing.push, h.bytes, sharedBytes]
  · intro batch hbatch
    rcases List.mem_append.mp hbatch with hbatch | hbatch
    · exact h.lined batch hbatch
    · rw [List.mem_singleton.mp hbatch]
      exact hne
  · simp only [sharedBytes, List.map_append, List.sum_append, List.map_singleton,
      List.sum_singleton] at *
    omega
  · rw [← h.all, List.append_assoc]

lemma Packed.add {packing : Packing Owner} {done pending : List (Owner × List EscapedLine)}
    {groups : List (Group Owner)} (h : Packed packing done groups pending)
    (batch : Owner × String) :
    ∃ groups' pending', Packed (packing.add batch) (done ++ linedBatches [batch]) groups'
      pending' := by
  obtain ⟨owner, ndjson⟩ := batch
  cases hlines : (escapeLines ndjson).isEmpty with
  | true =>
    have hnone : linedBatches [(owner, ndjson)] = [] := by simp [linedBatches, hlines]
    simp only [Packing.add, hlines, if_true, hnone, List.append_nil]
    exact ⟨groups, pending, h⟩
  | false =>
    have hne : escapeLines ndjson ≠ [] := by
      intro hnil
      simp [hnil] at hlines
    have hone : linedBatches [(owner, ndjson)] = [(owner, escapeLines ndjson)] := by
      simp [linedBatches, hlines]
    simp only [Packing.add, hlines, Bool.false_eq_true, if_false, hone]
    obtain ⟨groups', hflush⟩ := h.flush
    by_cases hbig : MAX_ESCAPED_PAYLOAD_BYTES < totalBytes (escapeLines ndjson)
    · rw [if_pos hbig]
      refine ⟨groups' ++ [.split owner (escapeLines ndjson)], [], ?_, ?_, hflush.data,
        hflush.parts, hflush.rowCount, hflush.bytes, by simp, Nat.zero_le _, ?_⟩
      · rw [List.flatMap_append, ← hflush.out]
        simp [Group.statements]
      · intro group hgroup
        rcases List.mem_append.mp hgroup with hgroup | hgroup
        · exact hflush.fits group hgroup
        · rw [List.mem_singleton.mp hgroup]
          exact hne
      · rw [List.flatMap_append, ← hflush.all]
        simp [Group.batches]
    · rw [if_neg hbig]
      by_cases hover : MAX_ESCAPED_PAYLOAD_BYTES < packing.bytes + totalBytes (escapeLines ndjson)
      · have hzero : packing.flush.bytes = 0 := hflush.bytes
        rw [if_pos hover]
        exact ⟨groups', _, hflush.push owner hne (by omega)⟩
      · rw [if_neg hover]
        exact ⟨groups, _, h.push owner hne (by omega)⟩

/-- The statements are those of groups, that have the batches with lines in order. -/
lemma build_groups (batches : List (Owner × String)) :
    ∃ groups : List (Group Owner),
      buildBatchedInsertStatements batches = groups.flatMap Group.statements ∧
      groups.flatMap Group.batches = linedBatches batches ∧ ∀ group ∈ groups, group.Fits := by
  have hall : ∀ (batches : List (Owner × String)), ∃ groups pending,
      Packed (batches.foldl Packing.add {}) (linedBatches batches) groups pending := by
    intro batches
    induction batches using List.reverseRecOn with
    | nil =>
      exact ⟨[], [], rfl, by simp, rfl, rfl, rfl, rfl, by simp, Nat.zero_le _, rfl⟩
    | append_singleton batches batch ih =>
      obtain ⟨groups, pending, hpacked⟩ := ih
      rw [List.foldl_append]
      have hlined : linedBatches (batches ++ [batch]) =
          linedBatches batches ++ linedBatches [batch] := by simp [linedBatches]
      rw [hlined]
      exact hpacked.add batch
  obtain ⟨groups, pending, hpacked⟩ := hall batches
  obtain ⟨groups', hflush⟩ := hpacked.flush
  refine ⟨groups', hflush.out, ?_, hflush.fits⟩
  rw [← hflush.all, List.append_nil]

end Build

/-! ### Payloads -/

/-- The payload is not too large, unless it is a single line. -/
def Bounded (data : List String) : Prop :=
  data.length = 1 ∨ (joinLines data).utf8ByteSize ≤ MAX_ESCAPED_PAYLOAD_BYTES

lemma joinLines_bytes (lines : List EscapedLine) (h : lines ≠ []) :
    (joinLines (texts lines)).utf8ByteSize + 1 = totalBytes lines := by
  induction lines with
  | nil => exact absurd rfl h
  | cons line lines ih =>
    cases lines with
    | nil => simp [texts, joinLines, totalBytes, line.counted]
    | cons next lines =>
      have hrest := ih (by simp)
      have hcounted := line.counted
      have hbreak : ("\n" : String).utf8ByteSize = 1 := by decide
      simp only [texts, List.map_cons, joinLines, String.utf8ByteSize_append, hbreak, totalBytes,
        List.sum_cons] at *
      omega

lemma bounded_of_total {lines : List EscapedLine}
    (h : totalBytes lines ≤ MAX_ESCAPED_PAYLOAD_BYTES) : Bounded (texts lines) := by
  cases lines with
  | nil => exact Or.inr (by simp [texts, joinLines])
  | cons line lines =>
    have hbytes := joinLines_bytes (line :: lines) (by simp)
    exact Or.inr (by omega)

/-- A statement of split lines: it has lines, and they fit unless there is but one. -/
structure Piece (statement : InsertStatement) : Prop where
  ne : statement.data ≠ []
  rowCount : statement.rowCount = statement.data.length
  bounded : Bounded statement.data

lemma piece_flushChunk {chunk : List EscapedLine}
    (h : chunk.length = 1 ∨ totalBytes chunk ≤ MAX_ESCAPED_PAYLOAD_BYTES) :
    (flushChunk (texts chunk)).flatMap (fun statement => statement.data) = texts chunk ∧
      ∀ statement ∈ flushChunk (texts chunk), Piece statement := by
  cases chunk with
  | nil => exact ⟨rfl, by simp [flushChunk, texts]⟩
  | cons line chunk =>
    refine ⟨by simp [flushChunk, texts], ?_⟩
    intro statement hstatement
    rw [show flushChunk (texts (line :: chunk)) = [⟨texts (line :: chunk), _⟩] from rfl,
      List.mem_singleton] at hstatement
    rw [hstatement]
    refine ⟨by simp [texts], rfl, ?_⟩
    rcases h with h | h
    · exact Or.inl (by simpa [texts] using h)
    · exact bounded_of_total h

lemma splitLinesFrom_spec (chunk : List EscapedLine) (lines : List EscapedLine)
    (h : chunk.length = 1 ∨ totalBytes chunk ≤ MAX_ESCAPED_PAYLOAD_BYTES) :
    (splitLinesFrom (texts chunk) (totalBytes chunk) lines).flatMap (fun s => s.data) =
        texts (chunk ++ lines) ∧
      ∀ statement ∈ splitLinesFrom (texts chunk) (totalBytes chunk) lines, Piece statement := by
  induction lines generalizing chunk with
  | nil =>
    rw [List.append_nil]
    exact piece_flushChunk h
  | cons line lines ih =>
    rw [splitLinesFrom]
    by_cases hover : 0 < totalBytes chunk ∧
        MAX_ESCAPED_PAYLOAD_BYTES < totalBytes chunk + line.bytes
    · rw [if_pos hover]
      obtain ⟨hchunk, hpieces⟩ := piece_flushChunk h
      have hone : splitLinesFrom [line.text] line.bytes lines =
          splitLinesFrom (texts [line]) (totalBytes [line]) lines := by
        simp [texts, totalBytes]
      obtain ⟨hrest, hpieces'⟩ := ih [line] (Or.inl rfl)
      rw [hone]
      constructor
      · rw [List.flatMap_append, hchunk, hrest]
        simp [texts]
      · intro statement hstatement
        rcases List.mem_append.mp hstatement with hstatement | hstatement
        · exact hpieces statement hstatement
        · exact hpieces' statement hstatement
    · rw [if_neg hover]
      have hnext : splitLinesFrom (texts chunk ++ [line.text]) (totalBytes chunk + line.bytes) lines =
          splitLinesFrom (texts (chunk ++ [line])) (totalBytes (chunk ++ [line])) lines := by
        simp [texts, totalBytes]
      have hfits : (chunk ++ [line]).length = 1 ∨
          totalBytes (chunk ++ [line]) ≤ MAX_ESCAPED_PAYLOAD_BYTES := by
        cases chunk with
        | nil => exact Or.inl rfl
        | cons first chunk =>
          have hpos : 0 < totalBytes (first :: chunk) := by
            have hcounted := first.counted
            simp only [totalBytes, List.map_cons, List.sum_cons]
            omega
          have htotal : totalBytes (first :: chunk ++ [line]) =
              totalBytes (first :: chunk) + line.bytes := by simp [totalBytes]; omega
          right
          omega
      have hrest := ih (chunk ++ [line]) hfits
      rw [hnext]
      rwa [List.append_assoc] at hrest

lemma splitLines_spec (lines : List EscapedLine) :
    (splitLines lines).flatMap (fun statement => statement.data) = texts lines ∧
      ∀ statement ∈ splitLines lines, Piece statement :=
  splitLinesFrom_spec [] lines (Or.inr (Nat.zero_le _))

section Build
variable {Owner : Type}

lemma sharedStatement_data (batches : List (Owner × List EscapedLine)) :
    (sharedStatement batches).data = texts (batches.flatMap fun batch => batch.2) := by
  simp [sharedStatement, texts, List.map_flatMap]

lemma sharedBytes_eq (batches : List (Owner × List EscapedLine)) :
    sharedBytes batches = totalBytes (batches.flatMap fun batch => batch.2) := by
  induction batches with
  | nil => rfl
  | cons batch batches ih =>
    simp only [sharedBytes, totalBytes, List.map_cons, List.sum_cons, List.flatMap_cons,
      List.map_append, List.sum_append] at *
    omega

/-- A batch that shares a statement is one statement on its own. -/
lemma buildInsertStatements_small {ndjson : String} (hne : escapeLines ndjson ≠ [])
    (hsmall : totalBytes (escapeLines ndjson) ≤ MAX_ESCAPED_PAYLOAD_BYTES) :
    buildInsertStatements ndjson =
      [{ data := texts (escapeLines ndjson), rowCount := (escapeLines ndjson).length }] := by
  have hempty : (escapeLines ndjson).isEmpty = false := by
    rw [List.isEmpty_eq_false_iff]
    exact hne
  have hadd : Packing.add {} ((), ndjson) =
      Packing.push ({} : Packing Unit) () (escapeLines ndjson) := by
    simp only [Packing.add, hempty, Bool.false_eq_true, if_false, if_neg (not_lt.mpr hsmall),
      Nat.zero_add]
  simp [buildInsertStatements, buildBatchedInsertStatements, hadd, Packing.push, Packing.flush,
    texts]

end Build

end Maple.Inserts
