import Maple.WalFrame

/-! Decoding a whole segment: complete frames followed by a torn write. -/

namespace Maple.Wal

open ByteReader FrameStream

variable {host : WalHost}

lemma stable_readWalHeader (version : UInt8) (start : ℕ) :
    Stable (readWalHeader version start) := by
  unfold readWalHeader
  split
  · exact stable_bind (stable_readExact _ _) fun _ => stable_pure _
  · exact stable_bind (stable_readExact _ _) fun _ => stable_pure _
  · refine stable_bind (stable_readExact _ _) fun rest => ?_
    split
    · exact stable_throw _
    · exact stable_pure _
  · exact stable_throw _

lemma stable_fromUtf8 (what : String) (bytes : List UInt8) :
    Stable (fromUtf8 host what bytes : Reader String) := by
  unfold fromUtf8
  split
  · exact stable_pure _
  · exact stable_throw _

lemma stable_readWalBody (version : UInt8) (signal : TelemetrySignal) (start : ℕ) :
    Stable (readWalBody host version signal start) := by
  unfold readWalBody
  refine stable_bind (stable_readWalHeader _ _) fun header => ?_
  refine stable_bind (stable_readExact _ _) fun orgId => ?_
  refine stable_bind (stable_readExact _ _) fun datasource => ?_
  refine stable_bind (stable_readExact _ _) fun payload => ?_
  refine stable_ite (stable_bind (stable_throw _) fun _ => ?_) ?_
  all_goals
    refine stable_bind (stable_fromUtf8 _ _) fun orgIdText => ?_
    exact stable_bind (stable_fromUtf8 _ _) fun datasourceText => stable_pure _

/-- Whether a frame is found does not depend on what follows the bytes it is made of. -/
lemma readWalFrame_used {start : ℕ} {file rest : List UInt8} {d : DecodedWalFrame}
    (h : readWalFrame host start file = .ok (some (d, rest))) :
    ∃ used, file = used ++ rest ∧
      ∀ rest', readWalFrame host start (used ++ rest') = .ok (some (d, rest')) := by
  unfold readWalFrame at h
  split_ifs at h with hlen hmagic
  · cases h
  split at h
  · cases h
  · rename_i signal hsignal
    cases hbody : readWalBody host (file.getD 4 0) signal start (file.drop 6) with
    | error e =>
      rw [hbody] at h
      cases h
    | ok p =>
      obtain ⟨rfl, rfl⟩ : p.1 = d ∧ p.2 = rest := by
        rw [hbody] at h
        simpa [Except.map, Prod.ext_iff] using h
      obtain ⟨used, hused, hread⟩ := stable_readWalBody _ _ _ _ _ _ hbody
      have hsix : (file.take 6).length = 6 := by
        rw [List.length_take]
        omega
      have hfile : file = (file.take 6 ++ used) ++ p.2 := by
        rw [List.append_assoc, ← hused, List.take_append_drop]
      refine ⟨file.take 6 ++ used, hfile, fun rest' => ?_⟩
      have hhead : ∀ i < 6, (file.take 6 ++ used ++ rest').getD i 0 = file.getD i 0 := by
        intro i hi
        rw [List.append_assoc, List.getD_append _ _ _ _ (by omega)]
        simp [List.getD, hi]
      have hlong : ¬ (file.take 6 ++ used ++ rest').length < 6 := by
        simp only [List.length_append, hsix]
        omega
      have htake : (file.take 6 ++ used ++ rest').take 4 = file.take 4 := by
        rw [List.append_assoc, List.take_append_of_le_length (by omega), List.take_take]
        rfl
      have hdrop : (file.take 6 ++ used ++ rest').drop 6 = used ++ rest' := by
        rw [List.append_assoc, List.drop_left' hsix]
      rw [readWalFrame, if_neg hlong, htake, if_neg hmagic, hhead 5 (by omega),
        hhead 4 (by omega), hdrop, hsignal]
      simp only [hread]
      rfl

/-- A torn write holds no frame: no proper beginning of an encoded frame reads as one. -/
theorem noFrame_torn {frame : EncodedFrame} (hfit : frame.Fits) {torn : List UInt8}
    (htorn : torn <+: frameBytes host frame) (hproper : torn ≠ frameBytes host frame)
    (start : ℕ) : NoFrame (readWalFrame host) start torn := by
  intro d rest h
  obtain ⟨lost, hlost⟩ := htorn
  obtain ⟨used, rfl, hused⟩ := readWalFrame_used h
  have hwhole := readWalFrame_frameBytes host hfit start []
  have hread := hused (rest ++ lost)
  rw [List.append_nil, ← hlost, List.append_assoc, hread] at hwhole
  have hnil : rest ++ lost = [] := by
    have := Except.ok.inj hwhole
    simp only [Option.some.injEq, Prod.mk.injEq] at this
    exact this.2
  obtain ⟨-, rfl⟩ := List.append_eq_nil_iff.mp hnil
  exact hproper (by simpa using hlost)

lemma frameBytes_ne_nil (host : WalHost) (frame : EncodedFrame) : frameBytes host frame ≠ [] := by
  simp [frameBytes, walMagic]

lemma readsBack_frameBytes {frames : List EncodedFrame} (hfit : ∀ f ∈ frames, f.Fits) :
    ReadsBack (readWalFrame host) (frameBytes host) (decodedFrame host) frames :=
  fun f hf => ⟨frameBytes_ne_nil host f, fun start rest => readWalFrame_frameBytes host (hfit f hf) start rest⟩

/-- Frames followed by bytes that hold no frame decode to exactly the frames. -/
theorem decodeSegmentFrames_append (host : WalHost) {frames : List EncodedFrame} (hfit : ∀ f ∈ frames, f.Fits)
    {tail : List UInt8}
    (htail : NoFrame (readWalFrame host) (frames.flatMap (frameBytes host)).length tail) :
    decodeSegmentFrames host (frames.flatMap (frameBytes host) ++ tail) =
      framesAt (frameBytes host) (decodedFrame host) 0 frames := by
  refine decodeStream_complete (readsBack_frameBytes hfit) (fun _ _ _ => rfl) ?_ ?_
  · simpa using htail
  · simp

lemma mapM_encodeWalFrame {frames : List EncodedFrame} (hfit : ∀ f ∈ frames, f.Fits) :
    frames.mapM (encodeWalFrame host) = .ok (frames.map (frameBytes host)) := by
  induction frames with
  | nil => rfl
  | cons f fs ih =>
    have hf : encodeWalFrame host f = .ok (frameBytes host f) :=
      encodeWalFrame_ok.mpr ⟨hfit f (by simp), rfl⟩
    rw [List.mapM_cons, hf, ih fun g hg => hfit g (by simp [hg])]
    rfl

lemma framesAt_getElem? {frames : List EncodedFrame} {i : ℕ} (hi : i < frames.length)
    (offset : ℕ) :
    (framesAt (frameBytes host) (decodedFrame host) offset frames)[i]? =
      some (decodedFrame host (offset + ((frames.take i).flatMap (frameBytes host)).length)
        frames[i]) := by
  have hsplit : frames = frames.take i ++ (frames[i] :: frames.drop (i + 1)) := by simp
  have hlen : (frames.take i).length = i := by
    rw [List.length_take]
    omega
  conv_lhs => rw [hsplit, framesAt_append]
  rw [List.getElem?_append_right (by simp [hlen]), framesAt_length, hlen]
  simp [framesAt]

/-- Decoding a segment gives back every complete frame and nothing of a torn last write. Each
frame starts and ends at the cumulative encoded lengths, and reading on from any such start
finds the same frame again. -/
theorem decodeSegmentFrames_encoded (host : WalHost) (frames : List EncodedFrame)
    (last : EncodedFrame) (hfit : ∀ f ∈ frames, f.Fits) (hlast : last.Fits) :
    ∃ encoded extra, frames.mapM (encodeWalFrame host) = .ok encoded ∧
      encodeWalFrame host last = .ok extra ∧
      ∀ torn, torn <+: extra → torn ≠ extra →
        (decodeSegmentFrames host (encoded.flatten ++ torn)).length = frames.length ∧
        ∀ i, (hi : i < frames.length) →
          let start := (encoded.take i).flatten.length
          let stop := (encoded.take (i + 1)).flatten.length
          let decoded : DecodedWalFrame :=
            { endAt := stop
              orgId := frames[i].orgId
              signal := frames[i].signal
              destination := frames[i].destination
              datasource := frames[i].datasource
              rowCount := max frames[i].rowCount 1
              payload := frames[i].payload }
          (decodeSegmentFrames host (encoded.flatten ++ torn))[i]? = some decoded ∧
          readWalFrame host start ((encoded.flatten ++ torn).drop start) =
            .ok (some (decoded, (encoded.flatten ++ torn).drop stop)) := by
  refine ⟨_, _, mapM_encodeWalFrame hfit, encodeWalFrame_ok.mpr ⟨hlast, rfl⟩, ?_⟩
  intro torn htorn hproper
  have hdecode := decodeSegmentFrames_append host hfit (noFrame_torn hlast htorn hproper _)
  have hflat : ∀ fs : List EncodedFrame,
      (fs.map (frameBytes host)).flatten = fs.flatMap (frameBytes host) :=
    fun fs => List.flatMap_def.symm
  simp only [← List.map_take, hflat, hdecode, framesAt_length, true_and]
  intro i hi
  have htake : (frames.take (i + 1)).flatMap (frameBytes host) =
      (frames.take i).flatMap (frameBytes host) ++ frameBytes host frames[i] := by
    rw [List.take_succ_eq_append_getElem hi, List.flatMap_append, List.flatMap_singleton]
  have hframe : frames[i].Fits := hfit _ (List.getElem_mem hi)
  refine ⟨?_, ?_⟩
  · rw [framesAt_getElem? hi, htake]
    simp [decodedFrame]
  · have hrest : frames.flatMap (frameBytes host) ++ torn =
        (frames.take i).flatMap (frameBytes host) ++ (frameBytes host frames[i] ++
          ((frames.drop (i + 1)).flatMap (frameBytes host) ++ torn)) := by
      conv_lhs => rw [← List.take_append_drop (i + 1) frames, List.flatMap_append, htake]
      simp
    have hafter : frames.flatMap (frameBytes host) ++ torn =
        (frames.take (i + 1)).flatMap (frameBytes host) ++
          ((frames.drop (i + 1)).flatMap (frameBytes host) ++ torn) := by
      rw [hrest, htake]
      simp
    have hstart : (frames.flatMap (frameBytes host) ++ torn).drop
        ((frames.take i).flatMap (frameBytes host)).length = frameBytes host frames[i] ++
          ((frames.drop (i + 1)).flatMap (frameBytes host) ++ torn) := by
      rw [hrest, List.drop_left' rfl]
    have hstop : (frames.flatMap (frameBytes host) ++ torn).drop
        ((frames.take (i + 1)).flatMap (frameBytes host)).length =
          (frames.drop (i + 1)).flatMap (frameBytes host) ++ torn := by
      rw [hafter, List.drop_left' rfl]
    rw [hstart, hstop, readWalFrame_frameBytes host hframe, htake]
    simp [decodedFrame]

theorem decodeSegmentFrames_encoded_pair :
    let frames : List EncodedFrame :=
      [⟨"org_1", .traces, .tinybird, "spans", 0, [123, 125]⟩,
        ⟨"org_2", .logs, .clickHouse, "logs", 2, [1, 2, 3]⟩]
    ∃ encoded extra, frames.mapM (encodeWalFrame ieeeHost) = .ok encoded ∧
      encodeWalFrame ieeeHost ⟨"org_1", .metrics, .tinybird, "", 1, [0]⟩ = .ok extra ∧
      ∀ torn, torn <+: extra → torn ≠ extra →
        (decodeSegmentFrames ieeeHost (encoded.flatten ++ torn)).length = 2 := by
  intro frames
  obtain ⟨encoded, extra, hencoded, hextra, hdecode⟩ :=
    decodeSegmentFrames_encoded ieeeHost frames ⟨"org_1", .metrics, .tinybird, "", 1, [0]⟩
      (by decide) (by decide)
  exact ⟨encoded, extra, hencoded, hextra, fun torn htorn hproper => (hdecode torn htorn hproper).1⟩

end Maple.Wal
