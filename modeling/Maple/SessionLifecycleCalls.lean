import Maple.SessionCounters
import Maple.SessionLifecycle

/-! What the lifecycle gets from the session module, whatever becomes of the storage: a record that
is held from the first call on, and rotations that are found while one is read. -/

namespace Maple.SessionLifecycle
open SessionStore

/-! ### Calls of the session module -/

/-- The session module reads this record, whatever becomes of its storage. -/
structure Holds (w : World) (record : SessionRecord) : Prop where
  ephemeral : (w.copies 0).ephemeral = some record
  stored : w.memoryOnly = true ∨ (w.copies 0).writesFailed = true ∨
    ((w.copies 0).ephemeralStorage = true ∧
      ∀ found ∈ w.stored.bind parseSessionRecord, found = record)

lemma Holds.read {w : World} {record : SessionRecord} (h : Holds w record) (throws : Bool) :
    readRecord w 0 throws = some record := by
  unfold readRecord
  dsimp only
  rw [h.ephemeral]
  rcases h.stored with hmemory | hfailed | ⟨hstorage, hfound⟩
  · rw [hmemory]
    rfl
  · rw [hfailed]
    simp
  · split_ifs
    · rfl
    · rfl
    · unfold readStored
      split
      · rw [if_pos hstorage, h.ephemeral]
      · rename_i raw hraw
        rw [hraw] at hfound
        cases hparsed : parseSessionRecord raw with
        | none => exact h.ephemeral
        | some found =>
          rw [hfound found (by simpa using hparsed)]
          rfl

lemma Holds.unique {w : World} {record found : SessionRecord} (h : Holds w record)
    (hfound : Holds w found) : found = record :=
  Option.some.inj ((hfound.read false).symm.trans (h.read false))

lemma writeRecord_holds (w : World) (record : SessionRecord) (result : WriteResult) :
    Holds (writeRecord w 0 record result) record := by
  unfold writeRecord
  dsimp only
  split_ifs with hmemory
  · exact ⟨by simp [World.setCopy], .inl hmemory⟩
  · cases result with
    | ok =>
      exact ⟨by simp [World.setCopy], .inr (.inr
        (by simp [World.setCopy, parseSessionRecord, eq_comm]))⟩
    | noStorage | noRoom =>
      exact ⟨by simp [World.setCopy], .inr (.inl (by simp [World.setCopy]))⟩

lemma Holds.removeKey {w : World} {record : SessionRecord} (h : Holds w record) :
    Holds (SessionStore.step w .removeKey) record := by
  refine ⟨h.ephemeral, ?_⟩
  rcases h.stored with hmemory | hfailed | ⟨hstorage, -⟩
  · exact .inl hmemory
  · exact .inr (.inl hfailed)
  · exact .inr (.inr ⟨hstorage, by simp [SessionStore.step]⟩)

lemma Holds.corruptKey {w : World} {record : SessionRecord} (h : Holds w record) :
    Holds (SessionStore.step w .corruptKey) record := by
  refine ⟨h.ephemeral, ?_⟩
  rcases h.stored with hmemory | hfailed | ⟨hstorage, -⟩
  · exact .inl hmemory
  · exact .inr (.inl hfailed)
  · exact .inr (.inr ⟨hstorage, by simp [SessionStore.step, parseSessionRecord]⟩)

/-- The session and the counts of two records are the same. -/
structure SameCounts (before after : SessionRecord) : Prop where
  id : after.id = before.id
  clickCount : after.clickCount = before.clickCount
  errorCount : after.errorCount = before.errorCount

lemma touched_sameCounts (record : SessionRecord) (env : Env) :
    SameCounts record (touched record env) := by
  unfold touched migrateRecord
  split_ifs <;> exact ⟨rfl, rfl, rfl⟩

/-- A record that was minted for a session nobody has used. -/
structure Minted (w : World) (record : SessionRecord) : Prop where
  id : record.id = w.minted
  clickCount : record.clickCount = some 0
  errorCount : record.errorCount = some 0

/-- What a call does to the session that it reads. -/
inductive Outcome (w w' : World) : Option SessionRecord → Prop
  | keeps {live after : SessionRecord} (holds : Holds w' after) (same : SameCounts live after)
      (rotations : w'.rotations = w.rotations) (minted : w'.minted = w.minted) :
      Outcome w w' (some live)
  | leaves {live : SessionRecord} (verified : (w.copies 0).verifiedSessionId = some live.id)
      (same : w' = w) : Outcome w w' (some live)
  | mints {record : SessionRecord} (holds : Holds w' record) (fresh : Minted w record)
      (rotations : w'.rotations = w.rotations) (minted : w'.minted = w.minted + 1) :
      Outcome w w' none
  /-- The records of the new session are written when the listeners are done. -/
  | rotates {previous next : SessionRecord} {rest : List SessionRecord}
      (same : w' = { w with
        minted := w.minted + 1
        rotations := ⟨0, w.minted, next :: rest⟩ :: w.rotations })
      (fresh : ∀ written ∈ next :: rest, Minted w written) : Outcome w w' (some previous)

/-- The calls that may rotate the session. -/
def SessionCall (env : Env) (call : World → World) : Prop :=
  ∀ w, Outcome w (call w) (readRecord w 0 env.readThrows)

lemma write_outcome (w : World) {live after : SessionRecord} (hsame : SameCounts live after)
    (result : WriteResult) : Outcome w (writeRecord w 0 after result) (some live) :=
  .keeps (writeRecord_holds w after result) hsame (writeRecord_shares w 0 after result).rotations
    (writeRecord_shares w 0 after result).minted

lemma foldl_holds (records : List (SessionRecord × ℕ)) {w : World} {last : SessionRecord}
    (hlast : Holds w last) (results : List WriteResult) :
    ∃ held, (held = last ∨ held ∈ records.map Prod.fst) ∧
      Holds (records.foldl (fun w entry => writeRecord w 0 entry.1 (results.getD entry.2 .ok)) w)
        held ∧
      (records.foldl (fun w entry => writeRecord w 0 entry.1 (results.getD entry.2 .ok)) w).rotations
        = w.rotations ∧
      (records.foldl (fun w entry => writeRecord w 0 entry.1 (results.getD entry.2 .ok)) w).minted
        = w.minted := by
  induction records generalizing w last with
  | nil => exact ⟨last, .inl rfl, hlast, rfl, rfl⟩
  | cons entry records ih =>
    rw [List.foldl_cons]
    have hshares := writeRecord_shares w 0 entry.1 (results.getD entry.2 .ok)
    obtain ⟨held, hheld, hrest⟩ := ih (writeRecord_holds w entry.1 (results.getD entry.2 .ok))
    rw [hshares.rotations, hshares.minted] at hrest
    refine ⟨held, ?_, hrest⟩
    rcases hheld with rfl | hmem
    · exact .inr (by simp)
    · exact .inr (List.mem_cons_of_mem _ hmem)

/-- The last of the records that are written is held. -/
lemma writeAll_holds (w : World) (next : SessionRecord) (rest : List SessionRecord)
    (results : List WriteResult) :
    ∃ last ∈ next :: rest, Holds (writeAll w 0 (next :: rest) results) last ∧
      (writeAll w 0 (next :: rest) results).rotations = w.rotations ∧
      (writeAll w 0 (next :: rest) results).minted = w.minted := by
  unfold writeAll
  rw [List.zipIdx_cons, List.foldl_cons]
  have hshares := writeRecord_shares w 0 next (results.getD 0 .ok)
  obtain ⟨held, hheld, hrest⟩ :=
    foldl_holds (rest.zipIdx (0 + 1)) (writeRecord_holds w next (results.getD 0 .ok)) results
  rw [hshares.rotations, hshares.minted] at hrest
  refine ⟨held, ?_, hrest⟩
  rcases hheld with rfl | hmem
  · exact List.mem_cons_self
  · rw [List.zipIdx_map_fst] at hmem
    exact List.mem_cons_of_mem _ hmem

/-- The listeners are done: the last record that is written stands for the new session. -/
lemma finishRotation_holds {w : World} {id : ℕ} {next : SessionRecord} {rest : List SessionRecord}
    {rotations : List Rotation} (hrotations : w.rotations = ⟨0, id, next :: rest⟩ :: rotations)
    (results : List WriteResult) :
    ∃ last ∈ next :: rest, Holds (finishRotation w 0 results) last ∧
      (finishRotation w 0 results).rotations = rotations ∧
      (finishRotation w 0 results).minted = w.minted := by
  unfold finishRotation
  rw [hrotations]
  exact writeAll_holds { w with rotations } next rest results

lemma install_outcome (w : World) (existing : Option SessionRecord) (env : Env)
    {more : SessionRecord → List SessionRecord}
    (hmore : ∀ next, Minted w next → ∀ written ∈ more next, Minted w written) :
    Outcome w (installRotatedRecord w 0 existing env more) existing := by
  have hfresh : Minted w (freshRecord w env) := ⟨rfl, rfl, rfl⟩
  have hall : ∀ written ∈ freshRecord w env :: more (freshRecord w env), Minted w written := by
    intro written hwritten
    rcases List.mem_cons.mp hwritten with rfl | hwritten
    · exact hfresh
    · exact hmore _ hfresh written hwritten
  cases existing with
  | none =>
    obtain ⟨last, hlast, hholds, hrotations, hminted⟩ := writeAll_holds
      { w with minted := w.minted + 1 } (freshRecord w env) (more (freshRecord w env))
      [env.write, env.writeAgain]
    exact .mints hholds (hall last hlast) hrotations hminted
  | some previous => exact .rotates rfl hall

lemma liveRecord_eq {w : World} {existing : Option SessionRecord} {env : Env}
    {live : SessionRecord} (hlive : SessionStore.liveRecord w 0 existing env = some live) :
    existing = some live :=
  Option.eq_some_of_filter_eq_some hlive

lemma getSession_call (env : Env) : SessionCall env fun w => SessionStore.getSession w 0 env := by
  intro w
  unfold SessionStore.getSession
  dsimp only
  split
  · rename_i live hlive
    rw [liveRecord_eq hlive]
    exact write_outcome w (touched_sameCounts live env) _
  · exact install_outcome w _ env (by simp)

lemma touchSession_call (env : Env) :
    SessionCall env fun w => SessionStore.touchSession w 0 env := by
  intro w
  unfold SessionStore.touchSession
  dsimp only
  split
  · rename_i live hlive
    rw [liveRecord_eq hlive]
    split_ifs with hdue
    · exact write_outcome w (touched_sameCounts live env) _
    · simp only [Bool.or_eq_true, not_or, decide_eq_true_eq, not_not] at hdue
      exact .leaves hdue.1.2 rfl
  · exact install_outcome w _ env (by simp)

/-- A touch of a session that goes on mints nothing. -/
lemma touchSession_live {w : World} {env : Env} {live : SessionRecord}
    (hlive : SessionStore.liveRecord w 0 (readRecord w 0 env.readThrows) env = some live) :
    (SessionStore.touchSession w 0 env).rotations = w.rotations ∧
      (SessionStore.touchSession w 0 env).minted = w.minted := by
  unfold SessionStore.touchSession
  dsimp only
  rw [hlive]
  dsimp only
  split_ifs
  · have hshares := writeRecord_shares w 0 (touched live env) env.write
    exact ⟨hshares.rotations, hshares.minted⟩
  · exact ⟨rfl, rfl⟩

lemma noteNavigation_call (url : String) (env : Env) :
    SessionCall env fun w => SessionStore.noteNavigation w 0 url env := by
  intro w
  unfold SessionStore.noteNavigation
  dsimp only
  split
  · rename_i live hlive
    obtain ⟨hrotations, hminted⟩ := touchSession_live hlive
    rw [liveRecord_eq hlive]
    have htouched := touched_sameCounts live env
    have hsame : SameCounts live (withNavigation (touched live env) url env.now) :=
      ⟨htouched.id, htouched.clickCount, htouched.errorCount⟩
    have hshares := writeRecord_shares (SessionStore.touchSession w 0 env) 0
      (withNavigation (touched live env) url env.now) env.writeAgain
    exact .keeps (writeRecord_holds _ _ _) hsame (hshares.rotations.trans hrotations)
      (hshares.minted.trans hminted)
  · apply install_outcome
    intro next hnext written hwritten
    obtain rfl := List.mem_singleton.mp hwritten
    exact ⟨hnext.id, hnext.clickCount, hnext.errorCount⟩

/-! ### Posting a row -/

section

variable {w : World} {record : SessionRecord}

lemma Holds.noteCounts (h : Holds w record) (clickCount errorCount : ℤ) (env : Env) :
    let noted := SessionStore.noteCounts w 0 (some clickCount) (some errorCount) env
    Holds noted { record with clickCount := some clickCount, errorCount := some errorCount } ∧
      noted.rotations = w.rotations ∧ noted.minted = w.minted := by
  dsimp only
  unfold SessionStore.noteCounts changeRecord
  dsimp only
  rw [h.read]
  have hshares := writeRecord_shares w 0
    { record with clickCount := some clickCount, errorCount := some errorCount } env.write
  exact ⟨writeRecord_holds w _ _, hshares.rotations, hshares.minted⟩

/-- The session that is held has a next version. -/
lemma Holds.nextMetaVersion (h : Holds w record) (env : Env) :
    (∃ version, metaVersionOf w record.id env = some version) ∧
      ∃ after, Holds (SessionStore.nextMetaVersion w 0 record.id env) after ∧
        SameCounts record after ∧
        (SessionStore.nextMetaVersion w 0 record.id env).rotations = w.rotations ∧
        (SessionStore.nextMetaVersion w 0 record.id env).minted = w.minted := by
  have hfilter : (some record).filter (fun found => found.id = record.id) = some record := by simp
  constructor
  · unfold metaVersionOf
    dsimp only
    rw [h.read, hfilter]
    exact ⟨_, rfl⟩
  · unfold SessionStore.nextMetaVersion takeCounter
    dsimp only
    rw [h.read, hfilter]
    dsimp only
    set after : SessionRecord :=
      { record with
        chunkSeq := (takeMetaVersion record.counters).2.chunkSeq
        metaVersion := (takeMetaVersion record.counters).2.metaVersion }
    have hshares := writeRecord_shares w 0 after env.write
    have hholds := writeRecord_holds w after env.write
    exact ⟨after, ⟨hholds.ephemeral, hholds.stored⟩, ⟨rfl, rfl, rfl⟩, hshares.rotations,
      hshares.minted⟩

end

variable {p : Page}

/-- What posting a row does to the session module, and what the row says. -/
structure Posted (p : Page) (status : Status) (m : Moment) (w' : World) (row : SessionMetaRow) :
    Prop where
  sessionId : row.sessionId = p.current.id
  status : row.status = status
  counts : ∃ record, record.id = p.current.id ∧ row.counts = countsOf p record m
  holds : ∃ after, Holds w' after ∧ after.id = p.current.id ∧
    after.clickCount = some row.counts.clickCount ∧ after.errorCount = some row.counts.errorCount
  rotations : w'.rotations = p.session.rotations
  minted : w'.minted = p.session.minted

/-- A row of the session that is held goes out, and its counts are noted. -/
lemma post_spec {record : SessionRecord} (h : Holds p.session record)
    (hid : record.id = p.current.id) (status : Status) (keepalive : Bool) (m : Moment) :
    ∃ w' row, Posted p status m w' row ∧ post p status keepalive m =
      { p with
        session := w'
        shown := p.shown ++ [.row row (due p p.current.id).1 (due p p.current.id).2] } := by
  have hlive : liveRecord p m = record := by
    unfold liveRecord peekSession
    rw [h.read]
    simp [hid]
  have hnext := h.nextMetaVersion m.env
  rw [hid] at hnext
  obtain ⟨⟨version, hversion⟩, taken, htaken, hsame, hrotations, hminted⟩ := hnext
  obtain ⟨hnoted, hrotations', hminted'⟩ := htaken.noteCounts
    (countsOf p record m).clickCount (countsOf p record m).errorCount m.env
  unfold post
  rw [hlive]
  dsimp only
  rw [hid, hversion]
  dsimp only
  have hown : (peekSession { p with
      session := SessionStore.nextMetaVersion p.session 0 p.current.id m.env } m).any
        (fun stored => stored.id = record.id) = true := by
    unfold peekSession
    rw [htaken.read]
    simp [hsame.id]
  rw [countsFor, if_pos hown]
  refine ⟨_, _, ⟨?sessionId, ?status, ⟨record, hid, ?counts⟩, ?holds, ?rotations, ?minted⟩, rfl⟩
  case sessionId => rfl
  case status => rfl
  case counts => rfl
  case holds => exact ⟨_, hnoted, hsame.id.trans hid, rfl, rfl⟩
  case rotations => exact hrotations'.trans hrotations
  case minted => exact hminted'.trans hminted

/-! ### Rotations that are found -/

/-- A document that has not asked for its session yet. -/
structure Opening (w : World) : Prop where
  copy : w.copies 0 = {}
  stored : ∀ found ∈ w.stored.bind parseSessionRecord, found.id < w.minted

lemma Opening.read {w : World} (h : Opening w) {throws : Bool} {found : SessionRecord}
    (hfound : readRecord w 0 throws = some found) : found.id < w.minted := by
  unfold readRecord readStored at hfound
  simp only [h.copy, Option.isSome_none, Bool.and_false, Bool.or_false, Bool.false_eq_true,
    if_false] at hfound
  split_ifs at hfound
  split at hfound
  · simp at hfound
  · rename_i raw hraw
    apply h.stored
    rw [hraw]
    simpa using hfound

/-- Before the lifecycle is started its listener does nothing. -/
lemma withSession_opening {call : World → World} {m : Moment} (hcall : SessionCall m.env call)
    (hstarted : p.started = false) (hopening : Opening p.session)
    (hrotations : p.session.rotations = []) :
    ∃ w' after, withSession p call m = { p with session := w' } ∧ Holds w' after ∧
      after.id < w'.minted ∧ w'.rotations = [] := by
  unfold withSession peekSession
  have houtcome := hcall p.session
  have hread := fun found => @hopening.read _ m.env.readThrows found
  generalize readRecord p.session 0 m.env.readThrows = existing at houtcome hread
  cases houtcome with
  | keeps hholds hsame hkept hminted =>
    rename_i live after
    rw [hrotations] at hkept
    refine ⟨call p.session, after, by simp only [hkept], hholds, ?_, hkept⟩
    rw [hsame.id, hminted]
    exact hread live rfl
  | leaves hverified hsame => simp [hopening.copy] at hverified
  | mints hholds hfresh hkept hminted =>
    rename_i after
    rw [hrotations] at hkept
    refine ⟨call p.session, after, by simp only [hkept], hholds, ?_, hkept⟩
    rw [hfresh.id, hminted]
    exact Nat.lt_succ_self _
  | rotates hsame hfresh =>
    rename_i previous next rest
    rw [hsame, hrotations]
    obtain ⟨last, hlast, hholds, hdone, hminted⟩ := finishRotation_holds
      (w := { p.session with
        minted := p.session.minted + 1
        rotations := [⟨0, p.session.minted, next :: rest⟩] }) rfl
      [m.env.write, m.env.writeAgain]
    refine ⟨_, last, ?_, hholds, ?_, hdone⟩
    · simp [onSessionRotate, hstarted]
    · rw [hminted, (hfresh last hlast).id]
      exact Nat.lt_succ_self _

/-- The listener hears of a rotation, and the new record is written. -/
def rotated (p : Page) (previous next : SessionRecord) (m : Moment) : Page :=
  let heard := onSessionRotate p previous next m
  { heard with session := finishRotation heard.session 0 [m.env.write, m.env.writeAgain] }

/-- A call keeps the session that is held, or the listener hears of another one. -/
lemma withSession_held {call : World → World} {m : Moment} (hcall : SessionCall m.env call)
    {record : SessionRecord} (hholds : Holds p.session record)
    (hrotations : p.session.rotations = []) :
    (∃ w' after, withSession p call m = { p with session := w' } ∧ Holds w' after ∧
      SameCounts record after ∧ w'.rotations = [] ∧ w'.minted = p.session.minted) ∨
    (∃ w' next rest,
      withSession p call m = rotated { p with session := w' } record next m ∧
      Holds w' record ∧ w'.rotations = [⟨0, p.session.minted, next :: rest⟩] ∧
      w'.minted = p.session.minted + 1 ∧
      ∀ written ∈ next :: rest, Minted p.session written) := by
  unfold withSession peekSession
  have houtcome := hcall p.session
  rw [hholds.read] at houtcome ⊢
  generalize hsome : some record = existing at houtcome
  cases houtcome with
  | keeps hafter hsame hkept hminted =>
    obtain rfl := Option.some.inj hsome
    rw [hrotations] at hkept
    exact .inl ⟨call p.session, _, by simp only [hkept], hafter, hsame, hkept, hminted⟩
  | leaves hverified hsame =>
    rw [hsame]
    exact .inl ⟨p.session, record, by simp only [hrotations], hholds, ⟨rfl, rfl, rfl⟩, hrotations,
      rfl⟩
  | mints => simp at hsome
  | rotates hsame hfresh =>
    rename_i next rest
    obtain rfl := Option.some.inj hsome
    rw [hrotations] at hsame
    rw [hsame]
    refine .inr ⟨{ p.session with
      minted := p.session.minted + 1
      rotations := [⟨0, p.session.minted, next :: rest⟩] }, next, rest, rfl, ?_, rfl, rfl, hfresh⟩
    exact ⟨hholds.ephemeral, hholds.stored⟩

end Maple.SessionLifecycle
