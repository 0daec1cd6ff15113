import Maple.ReplayRecorder

/-! Whatever is lost, the chunks the recorder hands over can be played. -/

namespace Maple.ReplayRecorder

/-! ### Buffers of emitted events -/

/-- The events from a place on. -/
def since (emitted : List RrwebEvent) (start : ℕ) : List (RrwebEvent × ℕ) :=
  emitted.zipIdx.drop start

lemma since_snoc {emitted : List RrwebEvent} {start : ℕ} (hstart : start ≤ emitted.length)
    (event : RrwebEvent) :
    since (emitted ++ [event]) start = since emitted start ++ [(event, emitted.length)] := by
  have hlength : start ≤ emitted.zipIdx.length := by simpa using hstart
  simp [since, List.zipIdx_append, List.drop_append_of_le_length hlength]

@[simp] lemma since_length (emitted : List RrwebEvent) : since emitted emitted.length = [] := by
  simp [since]

lemma of_nil : EventBuffer.of [] = {} := rfl

lemma sliceBuffer_of (entries : List (RrwebEvent × ℕ)) (start stop : ℕ) :
    sliceBuffer (.of entries) start stop = .of (entries.extract start stop) := by
  simp [sliceBuffer, EventBuffer.of, List.map_take, List.map_drop]

lemma push_of {event : RrwebEvent} {json : Text} (hjson : event.json = some json)
    (entries : List (RrwebEvent × ℕ)) (place : ℕ) :
    (EventBuffer.of entries).push event json place = .of (entries ++ [(event, place)]) := by
  simp [EventBuffer.push, EventBuffer.of, byteSize, hjson]

lemma bytes_of (entries : List (RrwebEvent × ℕ)) :
    (EventBuffer.of entries).bytes = byteSize (EventBuffer.of entries).parts := rfl

lemma parts_length (emitted : List RrwebEvent) (start : ℕ) :
    (EventBuffer.of (since emitted start)).parts.length = emitted.length - start := by
  simp [EventBuffer.of, since]

lemma types_length (emitted : List RrwebEvent) (start : ℕ) :
    (EventBuffer.of (since emitted start)).types.length = emitted.length - start := by
  simp [EventBuffer.of, since]

lemma types_since (emitted : List RrwebEvent) (start k : ℕ) :
    (EventBuffer.of (since emitted start)).types[k]? = typeAt emitted (start + k) := by
  simp [EventBuffer.of, since, typeAt, List.getElem?_zipIdx, Function.comp_def]

lemma since_extract (emitted : List RrwebEvent) (start skip : ℕ) :
    (since emitted start).extract skip (emitted.length - start) = since emitted (start + skip) := by
  rw [List.extract_eq_drop_take', List.drop_take, since, List.drop_drop, since]
  apply List.take_of_length_le
  simp
  omega

lemma places_taken {emitted : List RrwebEvent} {start cut : ℕ}
    (hcut : start + cut ≤ emitted.length) :
    (EventBuffer.of ((since emitted start).extract 0 cut)).parts.map Part.place =
      List.range' start cut := by
  have hplaces (entries : List (RrwebEvent × ℕ)) :
      (EventBuffer.of entries).parts.map Part.place = entries.map Prod.snd := by
    simp [EventBuffer.of]
  rw [hplaces, List.extract_eq_take_drop, since]
  simp only [List.drop_zero, Nat.sub_zero, List.map_take, List.map_drop, List.zipIdx_map_snd]
  rw [List.drop_range', List.take_range'_of_length_ge (by omega)]
  simp

lemma lastIndexOf_spec {types : List ℕ} {type place : ℕ}
    (h : lastIndexOf types type = some place) : types[place]? = some type := by
  unfold lastIndexOf at h
  obtain ⟨behind, hbehind, rfl⟩ := Option.map_eq_some_iff.mp h
  obtain ⟨hlt, hat, -⟩ := List.findIdx?_eq_some_iff_getElem.mp hbehind
  have hlength : behind < types.length := by simpa using hlt
  rw [List.getElem_reverse] at hat
  rw [List.getElem?_eq_getElem (by omega)]
  simpa using hat

/-! ### One more event -/

lemma typeAt_snoc {emitted : List RrwebEvent} {place type : ℕ} (event : RrwebEvent)
    (h : typeAt emitted place = some type) : typeAt (emitted ++ [event]) place = some type := by
  obtain ⟨found, hfound, rfl⟩ := Option.map_eq_some_iff.mp h
  obtain ⟨hlt, -⟩ := List.getElem?_eq_some_iff.mp hfound
  rw [typeAt, List.getElem?_append_left hlt, hfound]
  rfl

lemma typeAt_old {emitted : List RrwebEvent} {place : ℕ} (event : RrwebEvent)
    (h : place < emitted.length) : typeAt (emitted ++ [event]) place = typeAt emitted place := by
  rw [typeAt, List.getElem?_append_left h, typeAt]

lemma Joins.snoc {emitted : List RrwebEvent} {before after : ℕ} (event : RrwebEvent)
    (h : Joins emitted before after) : Joins (emitted ++ [event]) before after :=
  h.imp_right fun hlater => ⟨hlater.1, typeAt_snoc event hlater.2⟩

lemma Whole.snoc {emitted : List RrwebEvent} {chunk : Chunk} (event : RrwebEvent)
    (h : Whole emitted chunk) : Whole (emitted ++ [event]) chunk := by
  obtain ⟨entries, hinfix, hsending⟩ := h.events
  refine ⟨⟨entries, ?_, hsending⟩, h.nonempty, ?_⟩
  · rw [List.zipIdx_append]
    exact hinfix.trans (List.prefix_append _ _).isInfix
  · intro place hplace htype
    have hmem : place ∈ chunk.places := List.mem_of_getLast? hplace
    have hlt : place < emitted.length := by
      rw [Chunk.places, hsending] at hmem
      simp only [EventBuffer.of, List.map_map, List.mem_map] at hmem
      obtain ⟨entry, hentry, rfl⟩ := hmem
      have hin := hinfix.subset hentry
      obtain ⟨found, index⟩ := entry
      simpa using (List.mem_zipIdx hin).2.1
    rw [typeAt_old event hlt] at htype
    exact typeAt_snoc event (h.ending place hplace htype)

/-! ### What every step keeps -/

def Recorder.Live (s : Recorder) : Prop := s.stopped = false ∧ s.halted = false

/-- What holds whatever was lost: the buffer holds the events since a place behind which everything
that was handed over lies. -/
structure Core (start : ℕ) (s : Recorder) : Prop where
  within : start ≤ s.emitted.length
  buffer : s.buffer = .of (since s.emitted start)
  buffered : s.buffer.bytes ≤ MAX_BUFFER_BYTES
  whole : ∀ chunk ∈ s.handed, Whole s.emitted chunk
  order : s.places.IsChain (Joins s.emitted)
  reopened : s.observed.IsChain Reopens
  inflight : s.inflightBytes = (s.uploads.map fun chunk => chunk.body.length).sum
  behind : ∀ last ∈ s.places.getLast?, last < start

/-- While chunks can still be handed over, the event at that place may be the next. -/
structure Inv (start : ℕ) (s : Recorder) : Prop extends Core start s where
  waiting : s.awaitingSnapshot = true → start = s.emitted.length
  joined : s.Live → s.awaitingSnapshot = false →
    ∀ last ∈ s.places.getLast?, Joins s.emitted last start
  afterLoss : s.Live → s.awaitingSnapshot = false → Observed.lost ∈ s.observed.getLast? →
    typeAt s.emitted start = some META

variable {s : Recorder} {start now : ℕ}

lemma Joins.lt {emitted : List RrwebEvent} {before after : ℕ} (h : Joins emitted before after) :
    before < after := by
  rcases h with rfl | h
  · exact Nat.lt_succ_self before
  · exact h.1

lemma Core.playable (h : Core start s) : Playable s where
  whole := h.whole
  order := h.order
  increasing := (h.order.imp fun _ _ => Joins.lt).pairwise
  reopened := h.reopened
  bytes := by rw [h.buffer, bytes_of]
  buffered := h.buffered
  inflight := h.inflight

lemma Core.lost (h : Core start s) :
    Core start { s with observed := s.observed ++ [.lost] } := by
  have hhanded : ({ s with observed := s.observed ++ [.lost] } : Recorder).handed = s.handed := by
    simp [Recorder.handed, Observed.chunk?]
  have hplaces : ({ s with observed := s.observed ++ [.lost] } : Recorder).places = s.places := by
    rw [Recorder.places, hhanded, Recorder.places]
  constructor
  case whole => rw [hhanded]; exact h.whole
  case order => rw [hplaces]; exact h.order
  case reopened =>
    refine h.reopened.append (.singleton _) fun last _ next hnext => ?_
    obtain rfl : .lost = next := by simpa using hnext
    cases last <;> trivial
  case behind => rw [hplaces]; exact h.behind
  all_goals first | exact h.within | exact h.buffer | exact h.buffered | exact h.inflight

/-- With an empty buffer nothing follows but what comes after a new snapshot. -/
lemma Core.discard (h : Core start s) {s' : Recorder} (hbuffer : s'.buffer = {})
    (hemitted : s'.emitted = s.emitted) (hobserved : s'.observed = s.observed)
    (huploads : s'.uploads = s.uploads) (hinflight : s'.inflightBytes = s.inflightBytes)
    (hclosed : s'.Live → s'.awaitingSnapshot = true) : Inv s'.emitted.length s' := by
  have hhanded : s'.handed = s.handed := by rw [Recorder.handed, hobserved, Recorder.handed]
  have hplaces : s'.places = s.places := by rw [Recorder.places, hhanded, Recorder.places]
  constructor
  case toCore =>
    constructor
    case within => exact le_rfl
    case buffer => rw [hbuffer, since_length, of_nil]
    case buffered => rw [hbuffer]; exact Nat.zero_le _
    case whole => rw [hhanded, hemitted]; exact h.whole
    case order => rw [hplaces, hemitted]; exact h.order
    case reopened => rw [hobserved]; exact h.reopened
    case inflight => rw [hinflight, huploads]; exact h.inflight
    case behind =>
      intro last hlast
      rw [hplaces] at hlast
      rw [hemitted]
      exact lt_of_lt_of_le (h.behind last hlast) h.within
  case waiting => exact fun _ => rfl
  case joined =>
    intro hlive hawaiting
    rw [hclosed hlive] at hawaiting
    contradiction
  case afterLoss =>
    intro hlive hawaiting
    rw [hclosed hlive] at hawaiting
    contradiction

lemma Core.dropAndResnapshot (h : Core start s) :
    ∃ start, Inv start (dropAndResnapshot s now) := by
  refine ⟨_, h.discard ?_ ?_ ?_ ?_ ?_ ?_⟩
  all_goals
    unfold Maple.ReplayRecorder.dropAndResnapshot
    dsimp only
    split <;> simp

lemma Inv.haltCapture (h : Inv start s) : ∃ start, Inv start (haltCapture s) := by
  unfold Maple.ReplayRecorder.haltCapture
  split_ifs with hstays
  · exact ⟨start, h⟩
  · refine ⟨_, h.discard rfl rfl rfl rfl rfl ?_⟩
    intro hlive
    exact absurd hlive.2 (by simp)

lemma Inv.halt (h : Inv start s) : ∃ start, Inv start (halt s) := by
  unfold Maple.ReplayRecorder.halt
  split_ifs with hhalted
  · exact ⟨start, h⟩
  · exact h.haltCapture

/-- Dropping the front of the buffer leaves the events since a later place. -/
lemma Core.slice (h : Core start s) (skip : ℕ) :
    sliceBuffer s.buffer skip s.buffer.parts.length = .of (since s.emitted (start + skip)) ∧
      (sliceBuffer s.buffer skip s.buffer.parts.length).bytes ≤ MAX_BUFFER_BYTES := by
  have hslice : sliceBuffer s.buffer skip s.buffer.parts.length =
      .of (since s.emitted (start + skip)) := by
    rw [h.buffer, sliceBuffer_of, parts_length, since_extract]
  refine ⟨hslice, ?_⟩
  have hsplit : since s.emitted start =
      (since s.emitted start).take skip ++ since s.emitted (start + skip) := by
    conv_lhs => rw [← List.take_append_drop skip (since s.emitted start)]
    rw [since, since, List.drop_drop]
  have hbytes : (EventBuffer.of (since s.emitted start)).bytes =
      (EventBuffer.of ((since s.emitted start).take skip)).bytes +
        (EventBuffer.of (since s.emitted (start + skip))).bytes := by
    conv_lhs => rw [hsplit]
    simp [EventBuffer.of, byteSize]
  have hbound := h.buffered
  rw [h.buffer, hbytes] at hbound
  rw [hslice]
  omega

/-! ### Handing a chunk over -/

lemma typeAt_lt {emitted : List RrwebEvent} {place type : ℕ}
    (h : typeAt emitted place = some type) : place < emitted.length := by
  obtain ⟨found, hfound, -⟩ := Option.map_eq_some_iff.mp h
  exact (List.getElem?_eq_some_iff.mp hfound).1

/-- The front of the buffer, up to a trailing Meta, is a whole chunk. -/
lemma whole_taken {emitted : List RrwebEvent} {cut : ℕ} {keepalive : Bool} (hpos : 0 < cut)
    (hcut : start + cut ≤ emitted.length)
    (hending : typeAt emitted (start + cut - 1) = some META →
      typeAt emitted (start + cut) = some META) :
    Whole emitted ⟨.of ((since emitted start).extract 0 cut), keepalive⟩ := by
  have hplaces := places_taken hcut
  refine ⟨⟨_, ?_, rfl⟩, ?_, ?_⟩
  · rw [List.extract_eq_take_drop, List.drop_zero]
    exact (List.take_prefix _ _).isInfix.trans (List.drop_suffix _ _).isInfix
  · intro hnil
    rw [hnil] at hplaces
    have hlength := congrArg List.length hplaces
    simp at hlength
    omega
  · intro place hplace
    rw [Chunk.places, hplaces, List.getLast?_range', if_neg (by omega)] at hplace
    obtain rfl : start + cut - 1 = place := by simpa using hplace
    rw [show start + cut - 1 + 1 = start + cut by omega]
    exact hending

lemma types_getLast {emitted : List RrwebEvent} (h : start < emitted.length) :
    (EventBuffer.of (since emitted start)).types.getLast? =
      typeAt emitted (emitted.length - 1) := by
  rw [List.getLast?_eq_getElem?, types_length, types_since]
  congr 1
  omega

lemma cut_le (buffer : EventBuffer) : buffer.cut ≤ buffer.parts.length := by
  unfold EventBuffer.cut
  split_ifs <;> omega

/-- Before the cut there is a Meta only if another one waits behind it. -/
lemma Core.cut_ending (h : Core start s) (hpos : 0 < s.buffer.cut) :
    typeAt s.emitted (start + s.buffer.cut - 1) = some META →
      typeAt s.emitted (start + s.buffer.cut) = some META := by
  have hlength : s.buffer.parts.length = s.emitted.length - start := by
    rw [h.buffer, parts_length]
  have hle := cut_le s.buffer
  have hlast := types_getLast (show start < s.emitted.length by omega)
  rw [← h.buffer] at hlast
  unfold EventBuffer.cut at hpos hle ⊢
  intro hmeta
  split_ifs at hpos hle hmeta ⊢ with htrailing
  · rw [hlast] at htrailing
    rw [show start + (s.buffer.parts.length - 1) = s.emitted.length - 1 by omega]
    exact htrailing
  · rw [hlast, show s.emitted.length - 1 = start + s.buffer.parts.length - 1 by omega] at htrailing
    exact absurd hmeta htrailing

lemma Core.slicedBuffer (h : Core start s) (cut : ℕ) (hle : start + cut ≤ s.emitted.length) :
    Core (start + cut) { s with buffer := sliceBuffer s.buffer cut s.buffer.parts.length } :=
  { h with
    within := hle
    buffer := (h.slice cut).1
    buffered := (h.slice cut).2
    behind := fun last hlast => Nat.lt_add_right cut (h.behind last hlast) }

/-- What a new chunk adds to what has been handed over. -/
lemma handed_hand (s : Recorder) (chunk : Chunk) :
    (hand s chunk).handed = s.handed ++ [chunk] := by
  simp [Recorder.handed, hand, Observed.chunk?]

lemma Inv.hand (h : Inv start s) (hlive : s.Live) (hawake : s.awaitingSnapshot = false)
    {cut : ℕ} (hpos : 0 < cut) (hle : start + cut ≤ s.emitted.length)
    (hending : typeAt s.emitted (start + cut - 1) = some META →
      typeAt s.emitted (start + cut) = some META) (keepalive : Bool) :
    Inv (start + cut)
      (hand { s with buffer := sliceBuffer s.buffer cut s.buffer.parts.length }
        ⟨sliceBuffer s.buffer 0 cut, keepalive⟩) := by
  have hsending : sliceBuffer s.buffer 0 cut = .of ((since s.emitted start).extract 0 cut) := by
    rw [h.buffer, sliceBuffer_of]
  have hplaces : Chunk.places ⟨sliceBuffer s.buffer 0 cut, keepalive⟩ = List.range' start cut := by
    rw [Chunk.places, hsending, places_taken hle]
  set chunk : Chunk := ⟨sliceBuffer s.buffer 0 cut, keepalive⟩ with hchunk
  set taken : Recorder := { s with buffer := sliceBuffer s.buffer cut s.buffer.parts.length }
  have hcore : Core (start + cut) taken := h.toCore.slicedBuffer cut hle
  have hall : (Maple.ReplayRecorder.hand taken chunk).places =
      s.places ++ List.range' start cut := by
    rw [Recorder.places, handed_hand, List.flatMap_append, ← hplaces]
    simp [Recorder.places, taken, Recorder.handed]
  have hlast : (Maple.ReplayRecorder.hand taken chunk).places.getLast? =
      some (start + cut - 1) := by
    rw [hall, List.getLast?_append, List.getLast?_range', if_neg (by omega)]
    rfl
  constructor
  case toCore =>
    constructor
    case within => exact hcore.within
    case buffer => exact hcore.buffer
    case buffered => exact hcore.buffered
    case whole =>
      intro other hother
      rw [handed_hand, List.mem_append, List.mem_singleton] at hother
      rcases hother with hother | rfl
      · exact hcore.whole other hother
      · rw [hchunk, hsending]
        exact whole_taken hpos hle hending
    case order =>
      rw [hall]
      refine h.order.append ((List.isChain_range' _ _ _).imp fun _ _ => .inl) ?_
      intro last hlast next hnext
      rw [List.head?_range', if_neg (by omega)] at hnext
      obtain rfl : start = next := by simpa using hnext
      exact h.joined hlive hawake last hlast
    case reopened =>
      refine h.reopened.append (.singleton _) ?_
      intro last hlast next hnext
      obtain rfl : .handed chunk = next := by simpa using hnext
      cases last with
      | handed _ => trivial
      | lost =>
        have hmeta := h.afterLoss hlive hawake hlast
        have hhead : chunk.sending.types.head? = typeAt s.emitted start := by
          rw [List.head?_eq_getElem?, ← Nat.add_zero start, ← types_since, hchunk]
          simp [sliceBuffer, h.buffer, hpos]
        rw [Reopens, hhead, hmeta]
    case inflight =>
      have hinflight := h.inflight
      simp only [Maple.ReplayRecorder.hand, taken, List.map_append, List.sum_append,
        List.map_cons, List.map_nil, List.sum_cons, List.sum_nil, hinflight]
      omega
    case behind =>
      intro last hmem
      rw [hlast] at hmem
      obtain rfl : start + cut - 1 = last := by simpa using hmem
      omega
  case waiting =>
    intro hwaits
    rw [show (Maple.ReplayRecorder.hand taken chunk).awaitingSnapshot = false from hawake] at hwaits
    contradiction
  case joined =>
    intro _ _ last hmem
    rw [hlast] at hmem
    obtain rfl : start + cut - 1 = last := by simpa using hmem
    exact .inl (by omega)
  case afterLoss =>
    intro _ _ hlost
    simp [Maple.ReplayRecorder.hand] at hlost

lemma Inv.flush (h : Inv start s) (keepalive : Bool) :
    ∃ start, Inv start (flush s keepalive now) := by
  have hlength : s.buffer.parts.length = s.emitted.length - start := by
    rw [h.buffer, parts_length]
  have hwithin := h.within
  have hcut := cut_le s.buffer
  have hle : start + s.buffer.cut ≤ s.emitted.length := by omega
  unfold Maple.ReplayRecorder.flush
  dsimp only
  split_ifs with hclosed hzero hfull
  · exact ⟨start, h⟩
  · exact ⟨start, h⟩
  · exact (h.toCore.slicedBuffer _ hle).dropAndResnapshot
  · have hlive : s.Live := by
      simp only [Bool.or_eq_true, not_or, Bool.not_eq_true] at hclosed
      exact ⟨hclosed.1.1, hclosed.1.2⟩
    have hpos : 0 < s.buffer.cut := Nat.pos_of_ne_zero hzero
    have hawake : s.awaitingSnapshot = false := by
      by_contra hwaits
      have := h.waiting (by simpa using hwaits)
      omega
    exact ⟨_, h.hand hlive hawake hpos hle (h.toCore.cut_ending hpos) keepalive⟩

/-! ### A chunk is lost -/

/-- The loss has been recorded; the buffer goes back to its latest snapshot. -/
lemma Core.onChunkLost (h : Core start s)
    (hwaiting : s.awaitingSnapshot = true → start = s.emitted.length) :
    ∃ start, Inv start (onChunkLost s now) := by
  unfold Maple.ReplayRecorder.onChunkLost
  split_ifs with hclosed
  · have hdead : ¬ s.Live := by
      rintro ⟨hstopped, hhalted⟩
      simp [hstopped, hhalted] at hclosed
    exact ⟨start, { h with
      waiting := hwaiting
      joined := fun hlive => absurd hlive hdead
      afterLoss := fun hlive => absurd hlive hdead }⟩
  split
  · rename_i metaAt hmetaAt
    have hmeta := lastIndexOf_spec hmetaAt
    rw [h.buffer, types_since] at hmeta
    have hlt := typeAt_lt hmeta
    refine ⟨start + metaAt, { h.slicedBuffer metaAt hlt.le with
      waiting := ?_
      joined := ?_
      afterLoss := fun _ _ _ => hmeta }⟩
    · intro hwaits
      have := hwaiting hwaits
      omega
    · intro _ _ last hlast
      have hbehind := h.behind last hlast
      exact .inr ⟨by omega, hmeta⟩
  · exact h.dropAndResnapshot

lemma Inv.haltCapture_lost (h : Inv start s) (hinstalled : s.installed = true) :
    ∃ start, Inv start (ReplayRecorder.haltCapture { s with observed := s.observed ++ [.lost] }) := by
  unfold Maple.ReplayRecorder.haltCapture
  split_ifs with hstays
  · have hhalted : s.halted = true := by simpa [hinstalled] using hstays
    have hdead : ¬ s.Live := fun hlive => by simp [hlive.2] at hhalted
    exact ⟨start, { h.lost with
      waiting := h.waiting
      joined := fun hlive => absurd hlive hdead
      afterLoss := fun hlive => absurd hlive hdead }⟩
  · refine ⟨_, h.lost.discard rfl rfl rfl rfl rfl ?_⟩
    intro hlive
    exact absurd hlive.2 (by simp)

lemma Inv.afterUpload (h : Inv start s) (hinstalled : s.installed = true)
    (outcome : UploadOutcome) : ∃ start, Inv start (afterUpload s outcome now) := by
  cases outcome with
  | accepted =>
    have hstill : Inv start { s with retriesInARow := 0 } := { h with }
    exact ⟨start, hstill⟩
  | handedOff => exact ⟨start, h⟩
  | refused => exact h.haltCapture_lost hinstalled
  | exhausted =>
    simp only [Maple.ReplayRecorder.afterUpload, Maple.ReplayRecorder.halt]
    split_ifs with hhalted
    · have hdead : ¬ s.Live := fun hlive => by simp [hlive.2] at hhalted
      exact ⟨start, { h.lost with
        waiting := h.waiting
        joined := fun hlive => absurd hlive hdead
        afterLoss := fun hlive => absurd hlive hdead }⟩
    · exact h.haltCapture_lost hinstalled
  | retry | rejected | failed | dropped =>
    refine Core.onChunkLost (?_ : Core start _) ?_
    · exact { h.lost with }
    · exact h.waiting

lemma Inv.settle (h : Inv start s) (hinstalled : s.installed = true) (index : ℕ)
    (outcome : Option UploadOutcome) : ∃ start, Inv start (settle s index outcome now) := by
  unfold Maple.ReplayRecorder.settle
  split
  · exact ⟨start, h⟩
  · rename_i chunk hchunk
    obtain ⟨hlt, hat⟩ := List.getElem?_eq_some_iff.mp hchunk
    -- One upload fewer, and its body off the total.
    have hperm := (List.getElem_cons_eraseIdx_perm hlt).map fun chunk => chunk.body.length
    have hsum := hperm.sum_eq
    rw [List.map_cons, List.sum_cons, hat, ← h.inflight] at hsum
    have hsettled : Inv start
        { s with
          inflightBytes := s.inflightBytes - chunk.body.length
          uploads := s.uploads.eraseIdx index } :=
      { h with
        inflight := by
          dsimp only
          omega }
    cases outcome with
    | none => exact ⟨start, hsettled⟩
    | some outcome => exact hsettled.afterUpload hinstalled outcome

/-! ### An event comes in -/

lemma Core.snoc (h : Core start s) (event : RrwebEvent) {next : ℕ} {buffer : EventBuffer}
    (hnext : start ≤ next) (hwithin : next ≤ s.emitted.length + 1)
    (hbuffer : buffer = .of (since (s.emitted ++ [event]) next))
    (hbytes : buffer.bytes ≤ MAX_BUFFER_BYTES) :
    Core next { s with emitted := s.emitted ++ [event], buffer } :=
  { h with
    within := by simpa using hwithin
    buffer := hbuffer
    buffered := hbytes
    whole := fun chunk hchunk => (h.whole chunk hchunk).snoc event
    order := h.order.imp fun _ _ hjoins => hjoins.snoc event
    behind := fun last hlast => lt_of_lt_of_le (h.behind last hlast) hnext }

/-- The event is left out. -/
lemma Core.leaveOut (h : Core start s) (event : RrwebEvent) :
    Core (s.emitted.length + 1) { s with emitted := s.emitted ++ [event], buffer := {} } := by
  apply h.snoc event
  · exact Nat.le_succ_of_le h.within
  · exact le_rfl
  · rw [show s.emitted.length + 1 = (s.emitted ++ [event]).length by simp, since_length, of_nil]
  · exact Nat.zero_le _

/-- The event is kept: behind others in the buffer, or as the Meta that was waited for. -/
lemma Inv.push (h : Inv start s) {event : RrwebEvent} {json : Text}
    (hjson : event.json = some json) (hkept : s.awaitingSnapshot = true → event.type = META)
    (hroom : s.buffer.bytes + json.length ≤ MAX_BUFFER_BYTES) :
    Inv start
      { s with
        emitted := s.emitted ++ [event]
        awaitingSnapshot := false
        buffer := s.buffer.push event json s.emitted.length } := by
  have hbuffer : s.buffer.push event json s.emitted.length =
      .of (since (s.emitted ++ [event]) start) := by
    rw [since_snoc h.within, h.buffer, push_of hjson]
  have hcore := h.toCore.snoc event le_rfl (Nat.le_succ_of_le h.within) hbuffer hroom
  have hopened (hawaiting : s.awaitingSnapshot = true) :
      typeAt (s.emitted ++ [event]) start = some META := by
    rw [h.waiting hawaiting, typeAt, List.getElem?_concat_length, Option.map_some, hkept hawaiting]
  constructor
  case toCore => exact { hcore with }
  case waiting => exact fun hwaits => absurd hwaits (by simp)
  case joined =>
    intro hlive _ last hlast
    cases hawaiting : s.awaitingSnapshot with
    | true => exact .inr ⟨h.behind last hlast, hopened hawaiting⟩
    | false => exact (h.joined hlive hawaiting last hlast).snoc event
  case afterLoss =>
    intro hlive _ hlost
    cases hawaiting : s.awaitingSnapshot with
    | true => exact hopened hawaiting
    | false => exact typeAt_snoc event (h.afterLoss hlive hawaiting hlost)

lemma Inv.keep (h : Inv start s) {event : RrwebEvent} {json : Text}
    (hjson : event.json = some json) : ∃ start, Inv start (keep s event json now) := by
  have hout : Core (s.emitted.length + 1)
      { s with emitted := s.emitted ++ [event], awaitingSnapshot := false, buffer := {} } :=
    { h.toCore.leaveOut event with }
  unfold Maple.ReplayRecorder.keep
  dsimp only
  split_ifs with hskipped hover hpart hmany hfull
  · have hawaiting : s.awaitingSnapshot = true := by simp_all
    refine ⟨_, hout.discard ?_ rfl rfl rfl rfl fun _ => hawaiting⟩
    rw [h.buffer, h.waiting hawaiting, since_length, of_nil]
  · exact hout.dropAndResnapshot
  · have hclosed : Inv _
        { s with
          emitted := s.emitted ++ [event]
          awaitingSnapshot := true
          buffer := {}
          oversizedSnapshots := s.oversizedSnapshots + 1 } :=
      hout.discard rfl rfl rfl rfl rfl fun _ => rfl
    exact hclosed.halt
  · exact ⟨_, hout.discard rfl rfl rfl rfl rfl fun _ => rfl⟩
  all_goals
    have hroom : s.buffer.bytes + json.length ≤ MAX_BUFFER_BYTES := Nat.le_of_not_lt hover
    have hkept : s.awaitingSnapshot = true → event.type = META := by
      intro hawaiting
      simpa [hawaiting] using hskipped
    have hpushed := h.push hjson hkept hroom
  · exact hpushed.flush false
  · exact ⟨start, hpushed⟩

lemma Inv.emit (h : Inv start s) (event : RrwebEvent) :
    ∃ start, Inv start (emit s event now) := by
  unfold Maple.ReplayRecorder.emit
  dsimp only
  split_ifs with hforeign hclick
  · exact ⟨start, h⟩
  all_goals
    have hcounted (clicks : ℕ) : Inv start { s with clickCount := s.clickCount + clicks } :=
      { h with }
    split
    · exact ⟨start, hcounted _⟩
    · rename_i json hjson
      exact (hcounted _).keep hjson

/-! ### Whole runs -/

lemma Inv.timer (h : Inv start s) (isHidden : Bool) :
    Inv start (takeResnapshot s now isHidden) := by
  unfold takeResnapshot
  dsimp only
  split_ifs <;> exact { h with }

lemma Inv.step (h : Inv start s) (l : Step) : ∃ start, Inv start (step s l) := by
  cases l with
  | emit event now => exact h.emit event
  | installed => exact ⟨start, { h with }⟩
  | flush keepalive now =>
    simp only [Maple.ReplayRecorder.step]
    split_ifs
    · exact h.flush keepalive
    · exact ⟨start, h⟩
  | settle index outcome now =>
    simp only [Maple.ReplayRecorder.step]
    split_ifs with hinstalled
    · exact h.settle hinstalled index outcome
    · exact ⟨start, h⟩
  | timer now isHidden =>
    simp only [Maple.ReplayRecorder.step]
    split_ifs
    · exact ⟨start, h.timer isHidden⟩
    · exact ⟨start, h⟩
  | stop =>
    simp only [Maple.ReplayRecorder.step]
    split_ifs
    · have hstopped : Inv start { s with stopped := true } :=
        { h with
          joined := fun hlive => absurd hlive.1 (by simp)
          afterLoss := fun hlive => absurd hlive.1 (by simp) }
      exact hstopped.haltCapture
    · exact ⟨start, h⟩

lemma inv_start : Inv 0 {} := by
  constructor
  case toCore =>
    constructor <;> simp [since, EventBuffer.of, byteSize, Recorder.handed, Recorder.places]
  all_goals simp [Recorder.places, Recorder.handed]

lemma run_inv (steps : List Step) : ∃ start, Inv start (run steps) := by
  induction steps using List.reverseRecOn with
  | nil => exact ⟨0, inv_start⟩
  | append_singleton steps l ih =>
    obtain ⟨start, h⟩ := ih
    rw [run, List.foldl_append]
    exact h.step l

/-- In every run the chunks can be played, whatever was dropped or lost, and the sizes are what they
say they are. -/
theorem run_playable (steps : List Step) : Playable (run steps) := by
  obtain ⟨_, h⟩ := run_inv steps
  exact h.toCore.playable

end Maple.ReplayRecorder
