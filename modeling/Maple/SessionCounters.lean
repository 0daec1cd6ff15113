import Maple.SessionStore
import Maple.TransitionRun

/-! No number of a session is issued twice while no copy of the module works on what another has
overtaken; a copy that is alone never does, whatever fails. -/

namespace Maple.SessionStore
open TransitionRun

variable {w : World} {c : ℕ}

/-! ### What a write changes -/

@[simp] lemma setCopy_copies (w : World) (c : ℕ) (copy : Copy) :
    (w.setCopy c copy).copies = Function.update w.copies c copy := rfl
@[simp] lemma setCopy_stored (w : World) (c : ℕ) (copy : Copy) :
    (w.setCopy c copy).stored = w.stored := rfl
@[simp] lemma setCopy_memoryOnly (w : World) (c : ℕ) (copy : Copy) :
    (w.setCopy c copy).memoryOnly = w.memoryOnly := rfl

/-- Everything that is not in a copy or in the storage, which a write leaves alone. -/
structure Shares (w w' : World) : Prop where
  memoryOnly : w'.memoryOnly = w.memoryOnly
  minted : w'.minted = w.minted
  rotations : w'.rotations = w.rotations
  acted : w'.acted = w.acted
  chunks : w'.chunks = w.chunks
  versions : w'.versions = w.versions

lemma writeRecord_shares (w : World) (c : ℕ) (record : SessionRecord) (result : WriteResult) :
    Shares w (writeRecord w c record result) := by
  unfold writeRecord
  dsimp only
  split_ifs
  · exact ⟨rfl, rfl, rfl, rfl, rfl, rfl⟩
  · cases result <;> exact ⟨rfl, rfl, rfl, rfl, rfl, rfl⟩

lemma writeRecord_latest (w : World) (c : ℕ) (record : SessionRecord) (result : WriteResult) :
    (writeRecord w c record result).latest =
      Function.update w.latest record.id (some record.counters) := by
  unfold writeRecord
  dsimp only
  split_ifs
  · rfl
  · cases result <;> rfl

/-- The copy that writes, and what is stored after it. -/
lemma writeRecord_copy (w : World) (c : ℕ) (record : SessionRecord) (result : WriteResult) :
    let copy := (writeRecord w c record result).copies c
    copy.ephemeral = some record ∧
      copy.recentCounters = rememberCounters (w.copies c).recentCounters record ∧
      (w.memoryOnly = false → copy.writesFailed = false →
        copy.ephemeralStorage = true ∧
          (writeRecord w c record result).stored = some (.record record)) := by
  unfold writeRecord
  cases w.memoryOnly <;> cases result <;> simp [World.setCopy]

/-! ### What is known of the numbers -/

/-- A write that takes the counters of a session no further back. -/
structure Advances (w : World) (id : ℕ) (counters : SessionCounters) : Prop where
  minted : id < w.minted
  rotations : ∀ rotation ∈ w.rotations, rotation.id ≠ id
  onward : ∀ old, w.latest id = some old →
    old.chunkSeq ≤ counters.chunkSeq ∧ old.metaVersion.getD 2 ≤ counters.metaVersion.getD 2

/-- What holds of the document whatever its copies remember. -/
structure Base (w : World) : Prop where
  fresh : ∀ id, w.minted ≤ id → w.latest id = none
  rotated : ∀ rotation ∈ w.rotations, rotation.copy ∈ w.acted ∧ rotation.id < w.minted ∧
    w.latest rotation.id = none ∧
    ∀ record ∈ rotation.writes, record.id = rotation.id ∧ record.counters = ⟨0, some 0⟩
  distinct : w.rotations.Pairwise fun before after => before.id ≠ after.id
  chunks : ∀ issued ∈ w.chunks, ∃ counters, w.latest issued.1 = some counters ∧
    issued.2 < counters.chunkSeq
  versions : ∀ issued ∈ w.versions, ∃ counters, w.latest issued.1 = some counters ∧
    issued.2 ≤ counters.metaVersion.getD 2
  never : NeverReissued w

lemma Base.advances (h : Base w) {id : ℕ} {counters : SessionCounters}
    (hlatest : w.latest id = some counters) : Advances w id counters where
  minted := by
    by_contra hle
    rw [h.fresh id (Nat.le_of_not_lt hle)] at hlatest
    contradiction
  rotations := by
    rintro rotation hrotation rfl
    rw [(h.rotated rotation hrotation).2.2.1] at hlatest
    contradiction
  onward := by
    intro old hold
    rw [hlatest] at hold
    obtain rfl := Option.some.inj hold
    exact ⟨le_rfl, le_rfl⟩

/-- Numbers that were issued stay behind the counters of their sessions. -/
lemma Base.update (h : Base w) {w' : World} {id : ℕ} {counters : SessionCounters}
    (hadvances : Advances w id counters) (hshares : Shares w w')
    (hlatest : w'.latest = Function.update w.latest id (some counters)) : Base w' := by
  have hissued {P : SessionCounters → Prop} {issued : ℕ × ℤ}
      (hold : ∃ old, w.latest issued.1 = some old ∧ P old)
      (honward : ∀ old, w.latest id = some old → P old → P counters) :
      ∃ new, w'.latest issued.1 = some new ∧ P new := by
    obtain ⟨old, hold, hp⟩ := hold
    rw [hlatest]
    by_cases hid : issued.1 = id
    · rw [hid] at hold ⊢
      exact ⟨counters, Function.update_self .., honward old hold hp⟩
    · exact ⟨old, by rw [Function.update_of_ne hid, hold], hp⟩
  constructor
  case fresh =>
    intro other hle
    rw [hshares.minted] at hle
    have hne : other ≠ id := by
      have := hadvances.minted
      omega
    rw [hlatest, Function.update_of_ne hne]
    exact h.fresh other hle
  case rotated =>
    intro rotation hrotation
    rw [hshares.rotations] at hrotation
    obtain ⟨hacted, hminted, hnone, hwrites⟩ := h.rotated rotation hrotation
    rw [hshares.acted, hshares.minted, hlatest,
      Function.update_of_ne (hadvances.rotations rotation hrotation)]
    exact ⟨hacted, hminted, hnone, hwrites⟩
  case distinct => rw [hshares.rotations]; exact h.distinct
  case chunks =>
    intro issued hmem
    rw [hshares.chunks] at hmem
    apply hissued (h.chunks issued hmem)
    intro old hold hlt
    exact lt_of_lt_of_le hlt (hadvances.onward old hold).1
  case versions =>
    intro issued hmem
    rw [hshares.versions] at hmem
    apply hissued (h.versions issued hmem)
    intro old hold hle
    exact le_trans hle (hadvances.onward old hold).2
  case never =>
    exact ⟨by rw [hshares.chunks]; exact h.never.chunks,
      by rw [hshares.versions]; exact h.never.versions⟩

/-! ### A copy that is alone -/

lemma mem_rememberCounters {recent : List (ℕ × SessionCounters)} {record : SessionRecord}
    {entry : ℕ × SessionCounters} (h : entry ∈ rememberCounters recent record) :
    entry = (record.id, record.counters) ∨ entry ∈ recent ∧ entry.1 ≠ record.id := by
  have hmem := List.mem_of_mem_drop h
  rcases List.mem_append.mp hmem with hold | hnew
  · obtain ⟨hmem, hne⟩ := List.mem_filter.mp hold
    exact .inr ⟨hmem, by simpa using hne⟩
  · exact .inl (List.mem_singleton.mp hnew)

lemma nodup_rememberCounters {recent : List (ℕ × SessionCounters)} (record : SessionRecord)
    (h : (recent.map Prod.fst).Nodup) : ((rememberCounters recent record).map Prod.fst).Nodup := by
  unfold rememberCounters
  rw [List.map_drop]
  refine List.Nodup.sublist (List.drop_sublist _ _) ?_
  rw [List.map_append, List.nodup_append]
  refine ⟨h.sublist (List.filter_sublist.map _), by simp, ?_⟩
  rintro id hid other hother rfl
  obtain ⟨entry, hentry, rfl⟩ := List.mem_map.mp hid
  have hne := (List.mem_filter.mp hentry).2
  simp at hne hother
  exact hne hother

lemma mem_setEntry {entries : List (ℕ × SessionCounters)} {id : ℕ} {counters : SessionCounters}
    {entry : ℕ × SessionCounters} (hnodup : (entries.map Prod.fst).Nodup)
    (h : entry ∈ setEntry id counters entries) :
    entry = (id, counters) ∨ entry ∈ entries ∧ entry.1 ≠ id := by
  induction entries with
  | nil => exact .inl (by simpa [setEntry] using h)
  | cons first rest ih =>
    obtain ⟨j, old⟩ := first
    rw [List.map_cons, List.nodup_cons] at hnodup
    rw [setEntry] at h
    split_ifs at h with hj
    · subst hj
      rcases List.mem_cons.mp h with rfl | hrest
      · exact .inl rfl
      · refine .inr ⟨List.mem_cons_of_mem _ hrest, ?_⟩
        intro heq
        exact hnodup.1 (List.mem_map.mpr ⟨entry, hrest, heq⟩)
    · rcases List.mem_cons.mp h with rfl | hrest
      · exact .inr ⟨List.mem_cons_self, hj⟩
      · rcases ih hnodup.2 hrest with heq | ⟨hmem, hne⟩
        · exact .inl heq
        · exact .inr ⟨List.mem_cons_of_mem _ hmem, hne⟩

/-- What a copy that is alone keeps: its own record is the current one, and what is stored is that
record wherever the copy would read it. -/
structure Sole (w : World) (c : ℕ) : Prop where
  unused : (w.copies c).ephemeral = none → (w.copies c).recentCounters = [] ∧
    ∀ record, w.stored = some (.record record) → Current w record
  own : ∀ record, (w.copies c).ephemeral = some record → Current w record
  durable : ∀ record, (w.copies c).ephemeral = some record → w.memoryOnly = false →
    (w.copies c).writesFailed = false → (w.copies c).ephemeralStorage = true ∧
      ∀ other, w.stored = some (.record other) → other = record
  recent : ∀ entry ∈ (w.copies c).recentCounters, w.latest entry.1 = some entry.2
  nodup : ((w.copies c).recentCounters.map Prod.fst).Nodup

/-- Once it has written, it reads what it wrote last. -/
lemma Sole.read_own (h : Sole w c) {record : SessionRecord}
    (hephemeral : (w.copies c).ephemeral = some record) (throws : Bool) :
    readRecord w c throws = some record := by
  unfold readRecord
  dsimp only
  split_ifs with hfallback hthrows
  · exact hephemeral
  · exact hephemeral
  · have hneither : w.memoryOnly = false ∧ (w.copies c).writesFailed = false := by
      simpa [hephemeral] using hfallback
    obtain ⟨hstorage, hstored⟩ := h.durable record hephemeral hneither.1 hneither.2
    cases hraw : w.stored with
    | none => rw [readStored, if_pos hstorage, hephemeral]
    | some raw =>
      cases raw with
      | corrupt => exact hephemeral
      | record found => rw [hstored found hraw]; rfl

/-- So whatever it reads is current. -/
lemma Sole.read (h : Sole w c) (throws : Bool) :
    ∀ record ∈ readRecord w c throws, Current w record := by
  intro record hread
  cases hephemeral : (w.copies c).ephemeral with
  | some mine =>
    rw [h.read_own hephemeral throws, Option.mem_some] at hread
    exact hread ▸ h.own mine hephemeral
  | none =>
    have hstored : w.stored = some (.record record) := by
      unfold readRecord at hread
      simp only [hephemeral, Option.isSome_none, Bool.and_false, Bool.or_false] at hread
      split_ifs at hread
      · simp at hread
      · simp at hread
      · cases hraw : w.stored with
        | none => simp [hraw, readStored, hephemeral] at hread
        | some raw =>
          cases raw <;> simp_all [readStored, parseSessionRecord]
    exact (h.unused hephemeral).2 record hstored

lemma Sole.write (h : Sole w c) (record : SessionRecord) (result : WriteResult) :
    Sole (writeRecord w c record result) c := by
  obtain ⟨hephemeral, hrecent, hdurable⟩ := writeRecord_copy w c record result
  have hshares := writeRecord_shares w c record result
  have hcurrent : Current (writeRecord w c record result) record := by
    rw [Current, writeRecord_latest, Function.update_self]
  constructor
  case unused =>
    intro hnone
    rw [hephemeral] at hnone
    contradiction
  case own =>
    intro mine hmine
    obtain rfl : record = mine := Option.some.inj (hephemeral.symm.trans hmine)
    exact hcurrent
  case durable =>
    intro mine hmine hmemory hwrites
    obtain rfl : record = mine := Option.some.inj (hephemeral.symm.trans hmine)
    rw [hshares.memoryOnly] at hmemory
    obtain ⟨hstorage, hstored⟩ := hdurable hmemory hwrites
    refine ⟨hstorage, fun other hother => ?_⟩
    rw [hstored] at hother
    simpa using hother.symm
  case recent =>
    intro entry hentry
    rw [hrecent] at hentry
    rw [writeRecord_latest]
    rcases mem_rememberCounters hentry with rfl | ⟨hold, hne⟩
    · exact Function.update_self ..
    · rw [Function.update_of_ne hne]
      exact h.recent entry hold
  case nodup =>
    rw [hrecent]
    exact nodup_rememberCounters record h.nodup

/-- The counters of an earlier session move in the memory of the copy. -/
lemma Sole.remember (h : Sole w c) {sessionId : ℕ} {remembered counters : SessionCounters}
    (hother : ∀ mine, (w.copies c).ephemeral = some mine → mine.id ≠ sessionId)
    (hremembered : (w.copies c).recentCounters.lookup sessionId = some remembered) :
    Sole ({ w with latest := Function.update w.latest sessionId (some counters) }.setCopy c
      { w.copies c with
        recentCounters := setEntry sessionId counters (w.copies c).recentCounters }) c := by
  constructor
  case unused =>
    intro hnone
    simp only [setCopy_copies, Function.update_self] at hnone
    rw [(h.unused hnone).1] at hremembered
    contradiction
  case own =>
    intro mine hmine
    simp only [setCopy_copies, Function.update_self] at hmine
    have hcurrent := h.own mine hmine
    rw [Current] at hcurrent ⊢
    simp only [World.setCopy, Function.update_of_ne (hother mine hmine)]
    exact hcurrent
  case durable =>
    intro mine hmine hmemory hwrites
    simp only [setCopy_copies, Function.update_self] at hmine hwrites ⊢
    exact h.durable mine hmine hmemory hwrites
  case recent =>
    intro entry hentry
    simp only [setCopy_copies, Function.update_self] at hentry
    simp only [World.setCopy]
    rcases mem_setEntry h.nodup hentry with rfl | ⟨hold, hne⟩
    · exact Function.update_self ..
    · rw [Function.update_of_ne hne]
      exact h.recent entry hold
  case nodup =>
    simp only [setCopy_copies, Function.update_self, keys_setEntry]
    split_ifs with hmem
    · exact h.nodup
    · exact List.nodup_append.mpr ⟨h.nodup, by simp, by
        rintro id hid other hother rfl
        exact hmem (List.mem_singleton.mp hother ▸ hid)⟩

/-! ### What a call of a copy keeps -/

structure Kept (w : World) (c : ℕ) : Prop where
  base : Base w
  acted : c ∈ w.acted
  sole : Alone w c → Sole w c

lemma Kept.write (h : Kept w c) (record : SessionRecord)
    (hadvances : Advances w record.id record.counters) (result : WriteResult) :
    Kept (writeRecord w c record result) c ∧ Current (writeRecord w c record result) record := by
  have hshares := writeRecord_shares w c record result
  have hlatest := writeRecord_latest w c record result
  refine ⟨⟨h.base.update hadvances hshares hlatest, by rw [hshares.acted]; exact h.acted, ?_⟩, ?_⟩
  · intro halone
    rw [Alone, hshares.acted] at halone
    exact (h.sole halone).write record result
  · rw [Current, hlatest, Function.update_self]

/-- A record that has the counters of a current one is written. -/
lemma Kept.rewrite (h : Kept w c) {record existing : SessionRecord} (hcurrent : Current w existing)
    (hid : record.id = existing.id) (hcounters : record.counters = existing.counters)
    (result : WriteResult) :
    Kept (writeRecord w c record result) c ∧ Current (writeRecord w c record result) record := by
  apply h.write record
  rw [hid, hcounters]
  exact h.base.advances hcurrent

lemma touched_same (record : SessionRecord) (env : Env) :
    (touched record env).id = record.id ∧ (touched record env).counters = record.counters := by
  unfold touched migrateRecord
  split_ifs <;> exact ⟨rfl, rfl⟩

/-- The writes of a rotation, one after the other. -/
lemma Kept.writes (h : Kept w c) {id : ℕ} {records : List (SessionRecord × ℕ)}
    (hrecords : ∀ entry ∈ records, entry.1.id = id ∧ entry.1.counters = ⟨0, some 0⟩)
    (hadvances : Advances w id ⟨0, some 0⟩) (results : List WriteResult) :
    Kept (records.foldl
      (fun w entry => writeRecord w c entry.1 (results.getD entry.2 .ok)) w) c := by
  induction records generalizing w with
  | nil => exact h
  | cons entry records ih =>
    obtain ⟨hid, hcounters⟩ := hrecords entry List.mem_cons_self
    obtain ⟨hkept, hcurrent⟩ := h.write entry.1 (by rw [hid, hcounters]; exact hadvances)
      (results.getD entry.2 .ok)
    have hnext := hkept.base.advances hcurrent
    rw [hid, hcounters] at hnext
    exact ih hkept (fun other hother => hrecords other (List.mem_cons_of_mem _ hother)) hnext

lemma Kept.writeAll (h : Kept w c) {id : ℕ} {records : List SessionRecord}
    (hrecords : ∀ record ∈ records, record.id = id ∧ record.counters = ⟨0, some 0⟩)
    (hadvances : Advances w id ⟨0, some 0⟩) (results : List WriteResult) :
    Kept (SessionStore.writeAll w c records results) c := by
  apply h.writes _ hadvances
  intro entry hentry
  exact hrecords entry.1 (List.fst_mem_of_mem_zipIdx hentry)

lemma Kept.installRotatedRecord (h : Kept w c) (previous : Option SessionRecord) (env : Env)
    {more : SessionRecord → List SessionRecord}
    (hmore : ∀ next, ∀ record ∈ more next, record.id = next.id ∧ record.counters = next.counters) :
    Kept (SessionStore.installRotatedRecord w c previous env more) c := by
  have hbase : Base { w with minted := w.minted + 1 } :=
    { h.base with
      fresh := fun id hle => h.base.fresh id (by dsimp only at hle; omega)
      rotated := by
        intro rotation hrotation
        obtain ⟨hacted, hminted, hrest⟩ := h.base.rotated rotation hrotation
        exact ⟨hacted, Nat.lt_succ_of_lt hminted, hrest⟩
      never := { h.base.never with } }
  have hminted : Kept { w with minted := w.minted + 1 } c :=
    ⟨hbase, h.acted, fun halone => { h.sole halone with }⟩
  have hwrites : ∀ record ∈ freshRecord w env :: more (freshRecord w env),
      record.id = w.minted ∧ record.counters = ⟨0, some 0⟩ := by
    intro record hrecord
    rcases List.mem_cons.mp hrecord with rfl | hrecord
    · exact ⟨rfl, rfl⟩
    · exact hmore _ record hrecord
  have hnone : w.latest w.minted = none := h.base.fresh _ le_rfl
  have hother : ∀ rotation ∈ w.rotations, rotation.id ≠ w.minted := fun rotation hrotation =>
    (h.base.rotated rotation hrotation).2.1.ne
  unfold SessionStore.installRotatedRecord
  dsimp only
  split_ifs
  · refine ⟨?_, h.acted, fun halone => { h.sole halone with }⟩
    constructor
    case fresh => exact hbase.fresh
    case rotated =>
      intro rotation hrotation
      rcases List.mem_cons.mp hrotation with rfl | hrotation
      · exact ⟨h.acted, Nat.lt_succ_self _, hnone, hwrites⟩
      · exact hbase.rotated rotation hrotation
    case distinct =>
      exact List.Pairwise.cons (fun rotation hrotation => (hother rotation hrotation).symm)
        h.base.distinct
    case chunks => exact h.base.chunks
    case versions => exact h.base.versions
    case never => exact { h.base.never with }
  · refine hminted.writeAll hwrites ⟨Nat.lt_succ_self _, hother, ?_⟩ _
    intro old hold
    rw [show w.latest w.minted = some old from hold] at hnone
    contradiction

/-! ### Each call -/

lemma liveRecord_current {existing : Option SessionRecord} {env : Env} {live : SessionRecord}
    (hreads : ∀ record ∈ existing, Current w record)
    (hlive : liveRecord w c existing env = some live) : Current w live :=
  hreads live (Option.eq_some_of_filter_eq_some hlive)

lemma Kept.getSession (h : Kept w c) {env : Env}
    (hreads : ∀ record ∈ readRecord w c env.readThrows, Current w record) :
    Kept (SessionStore.getSession w c env) c := by
  unfold SessionStore.getSession
  dsimp only
  split
  · rename_i live hlive
    exact (h.rewrite (liveRecord_current hreads hlive) (touched_same live env).1
      (touched_same live env).2 _).1
  · exact h.installRotatedRecord _ env (by simp)

lemma Kept.touchSession (h : Kept w c) {env : Env}
    (hreads : ∀ record ∈ readRecord w c env.readThrows, Current w record) :
    Kept (SessionStore.touchSession w c env) c := by
  unfold SessionStore.touchSession
  dsimp only
  split
  · rename_i live hlive
    split_ifs
    · exact (h.rewrite (liveRecord_current hreads hlive) (touched_same live env).1
        (touched_same live env).2 _).1
    · exact h
  · exact h.installRotatedRecord _ env (by simp)

/-- A touch leaves the counters of a live session where they are. -/
lemma touchSession_current {env : Env} {live : SessionRecord}
    (hlive : liveRecord w c (readRecord w c env.readThrows) env = some live)
    (hcurrent : Current w live) : Current (SessionStore.touchSession w c env) live := by
  unfold SessionStore.touchSession
  dsimp only
  rw [hlive]
  dsimp only
  split_ifs
  · rw [Current, writeRecord_latest, (touched_same live env).1, Function.update_self,
      (touched_same live env).2]
  · exact hcurrent

lemma Kept.noteNavigation (h : Kept w c) (url : String) {env : Env}
    (hreads : ∀ record ∈ readRecord w c env.readThrows, Current w record) :
    Kept (SessionStore.noteNavigation w c url env) c := by
  unfold SessionStore.noteNavigation
  dsimp only
  split
  · rename_i live hlive
    have hcurrent := touchSession_current hlive (liveRecord_current hreads hlive)
    have hsame : (withNavigation (touched live env) url env.now).id = live.id ∧
        (withNavigation (touched live env) url env.now).counters = live.counters :=
      touched_same live env
    exact ((h.touchSession hreads).rewrite hcurrent hsame.1 hsame.2 _).1
  · apply h.installRotatedRecord _ env
    intro next record hrecord
    obtain rfl := List.mem_singleton.mp hrecord
    exact ⟨rfl, rfl⟩

lemma Kept.changeRecord (h : Kept w c) {skip : SessionRecord → Bool}
    {change : SessionRecord → SessionRecord} {env : Env}
    (hreads : ∀ record ∈ readRecord w c env.readThrows, Current w record)
    (hchange : ∀ record, (change record).id = record.id ∧
      (change record).counters = record.counters) :
    Kept (SessionStore.changeRecord w c skip change env) c := by
  unfold SessionStore.changeRecord
  split
  · exact h
  · rename_i record hread
    split_ifs
    · exact h
    · exact (h.rewrite (hreads record hread) (hchange record).1 (hchange record).2 _).1

lemma Kept.claimOnce (h : Kept w c) {claimed : SessionRecord → Bool}
    {claim : SessionRecord → SessionRecord} {env : Env}
    (hreads : ∀ record ∈ readRecord w c env.readThrows, Current w record)
    (hagain : ∀ record ∈ readRecord w c env.readAgainThrows, Current w record)
    (hclaim : ∀ record, (claim record).id = record.id ∧ (claim record).counters = record.counters) :
    Kept (SessionStore.claimOnce w c claimed claim env) c := by
  unfold SessionStore.claimOnce
  split
  · rename_i record hread
    split_ifs
    · exact h
    · exact (h.rewrite (hreads record hread) (hclaim record).1 (hclaim record).2 _).1
  · dsimp only
    split
    · rename_i live hlive
      obtain ⟨hkept, hcurrent⟩ := h.rewrite (liveRecord_current hagain hlive)
        (touched_same live env).1 (touched_same live env).2 env.write
      split_ifs
      · exact hkept
      · exact (hkept.rewrite hcurrent (hclaim _).1 (hclaim _).2 _).1
    · apply h.installRotatedRecord _ env
      intro next record hrecord
      obtain rfl := List.mem_singleton.mp hrecord
      exact hclaim next

/-- A number is taken from current counters, and `log` keeps it. -/
lemma Kept.takeCounter (h : Kept w c) {sessionId : ℕ} {env : Env}
    {take : SessionCounters → ℤ × SessionCounters} {log : World → ℤ → World}
    (htake : ∀ counters, counters.chunkSeq ≤ (take counters).2.chunkSeq ∧
      counters.metaVersion.getD 2 ≤ (take counters).2.metaVersion.getD 2)
    (hlog : ∀ w' counters, Kept w' c → Shares w w' → w.latest sessionId = some counters →
      w'.latest sessionId = some (take counters).2 → Kept (log w' (take counters).1) c)
    (hreads : ∀ record ∈ readRecord w c env.readThrows, Current w record)
    (hremembers : ∀ counters ∈ (w.copies c).recentCounters.lookup sessionId,
      w.latest sessionId = some counters) :
    Kept (SessionStore.takeCounter w c sessionId take log env) c := by
  have hadvances {counters : SessionCounters} (hlatest : w.latest sessionId = some counters) :
      Advances w sessionId (take counters).2 := by
    obtain ⟨hminted, hrotations, -⟩ := h.base.advances hlatest
    refine ⟨hminted, hrotations, fun old hold => ?_⟩
    obtain rfl : counters = old := Option.some.inj (hlatest.symm.trans hold)
    exact htake counters
  unfold SessionStore.takeCounter
  dsimp only
  split
  · rename_i record hread
    obtain ⟨hrecord, hid⟩ := Option.filter_eq_some_iff.mp hread
    obtain rfl : record.id = sessionId := by simpa using hid
    have hlatest := hreads record hrecord
    obtain ⟨hkept, hcurrent⟩ := h.write
      { record with
        chunkSeq := (take record.counters).2.chunkSeq
        metaVersion := (take record.counters).2.metaVersion } (hadvances hlatest) env.write
    exact hlog _ _ hkept (writeRecord_shares w c _ _) hlatest hcurrent
  · split
    · exact h
    · rename_i remembered hremembered
      have hlatest := hremembers remembered hremembered
      refine hlog _ _ ?_ ⟨rfl, rfl, rfl, rfl, rfl, rfl⟩ hlatest (Function.update_self ..)
      refine ⟨h.base.update (hadvances hlatest) ⟨rfl, rfl, rfl, rfl, rfl, rfl⟩ rfl, h.acted, ?_⟩
      intro halone
      refine (h.sole halone).remember ?_ hremembered
      intro mine hmine hid
      have hread := (h.sole halone).read_own hmine env.readThrows
      simp_all

lemma Kept.nextChunkSeq (h : Kept w c) {sessionId : ℕ} {env : Env}
    (hreads : ∀ record ∈ readRecord w c env.readThrows, Current w record)
    (hremembers : ∀ counters ∈ (w.copies c).recentCounters.lookup sessionId,
      w.latest sessionId = some counters) :
    Kept (SessionStore.nextChunkSeq w c sessionId env) c := by
  apply h.takeCounter _ _ hreads hremembers
  · intro counters
    simp [takeChunkSeq]
  · intro w' counters hkept hshares hold hnew
    refine ⟨{ hkept.base with chunks := ?_, never := ⟨?_, hkept.base.never.versions⟩ },
      hkept.acted, fun halone => { hkept.sole halone with }⟩
    · intro issued hissued
      rcases List.mem_append.mp hissued with hmem | hmem
      · exact hkept.base.chunks issued hmem
      · obtain rfl := List.mem_singleton.mp hmem
        exact ⟨_, hnew, Int.lt_succ counters.chunkSeq⟩
    · refine List.pairwise_append.mpr ⟨hkept.base.never.chunks, List.pairwise_singleton _ _, ?_⟩
      rintro before hbefore after hafter hsame
      obtain rfl := List.mem_singleton.mp hafter
      rw [hshares.chunks] at hbefore
      obtain ⟨found, hfound, hlt⟩ := h.base.chunks before hbefore
      rw [hsame, hold] at hfound
      obtain rfl := Option.some.inj hfound
      exact hlt

lemma Kept.nextMetaVersion (h : Kept w c) {sessionId : ℕ} {env : Env}
    (hreads : ∀ record ∈ readRecord w c env.readThrows, Current w record)
    (hremembers : ∀ counters ∈ (w.copies c).recentCounters.lookup sessionId,
      w.latest sessionId = some counters) :
    Kept (SessionStore.nextMetaVersion w c sessionId env) c := by
  apply h.takeCounter _ _ hreads hremembers
  · intro counters
    simp [takeMetaVersion]
  · intro w' counters hkept hshares hold hnew
    refine ⟨{ hkept.base with versions := ?_, never := ⟨hkept.base.never.chunks, ?_⟩ },
      hkept.acted, fun halone => { hkept.sole halone with }⟩
    · intro issued hissued
      rcases List.mem_append.mp hissued with hmem | hmem
      · exact hkept.base.versions issued hmem
      · obtain rfl := List.mem_singleton.mp hmem
        exact ⟨_, hnew, le_rfl⟩
    · refine List.pairwise_append.mpr ⟨hkept.base.never.versions, List.pairwise_singleton _ _, ?_⟩
      rintro before hbefore after hafter hsame
      obtain rfl := List.mem_singleton.mp hafter
      rw [hshares.versions] at hbefore
      obtain ⟨found, hfound, hle⟩ := h.base.versions before hbefore
      rw [hsame, hold] at hfound
      obtain rfl := Option.some.inj hfound
      exact Int.lt_add_one_of_le hle

lemma Kept.call (h : Kept w c) {env : Env} {made : Call} (hupToDate : UpToDate w c env made) :
    Kept (SessionStore.call w c env made) c := by
  obtain ⟨hreads, hagain, hremembers⟩ := hupToDate
  cases made with
  | getSession => exact h.getSession hreads
  | touchSession => exact h.touchSession hreads
  | rotateSession =>
    simp only [SessionStore.call, rotateSession]
    exact h.installRotatedRecord _ env (by simp)
  | noteNavigation url => exact h.noteNavigation url hreads
  | claimReplaySample sampled => exact h.claimOnce hreads (hagain rfl) fun _ => ⟨rfl, rfl⟩
  | claimReplayBuffered buffered => exact h.claimOnce hreads (hagain rfl) fun _ => ⟨rfl, rfl⟩
  | nextChunkSeq sessionId => exact h.nextChunkSeq hreads (hremembers sessionId rfl)
  | nextMetaVersion sessionId => exact h.nextMetaVersion hreads (hremembers sessionId rfl)
  | isNewVisitorSession =>
    apply h.changeRecord hreads
    intro record
    unfold migrateRecord
    split_ifs <;> exact ⟨rfl, rfl⟩
  | noteCounts clickCount errorCount => exact h.changeRecord hreads fun _ => ⟨rfl, rfl⟩
  | resolveBillable sessionId claim => exact h.changeRecord hreads fun _ => ⟨rfl, rfl⟩
  | markReplayHalted sessionId => exact h.changeRecord hreads fun _ => ⟨rfl, rfl⟩
  | markReplayTriggered sessionId => exact h.changeRecord hreads fun _ => ⟨rfl, rfl⟩
  | adoptReplayDecision sessionId recorded buffered =>
    exact h.changeRecord hreads fun _ => ⟨rfl, rfl⟩

/-! ### Whole runs -/

structure Inv (w : World) : Prop where
  base : Base w
  sole : ∀ c, Alone w c → Sole w c

lemma Inv.upToDate (h : Inv w) (halone : Alone w c) (env : Env) (made : Call) :
    UpToDate w c env made := by
  have hsole := h.sole c halone
  refine ⟨hsole.read _, fun _ => hsole.read _, fun sessionId _ counters hcounters => ?_⟩
  obtain ⟨before, after, hentries, -⟩ := List.lookup_eq_some_iff.mp hcounters
  exact hsole.recent (sessionId, counters) (by simp [hentries])

lemma Kept.inv (h : Kept w c) : Inv w :=
  ⟨h.base, fun other halone => by
    obtain rfl := halone c h.acted
    exact h.sole halone⟩

lemma Inv.step (h : Inv w) {l : Step} (hsound : Sound w l) : Inv (step w l) := by
  cases l with
  | call c made env =>
    have hupToDate : UpToDate w c env made := hsound.elim (fun halone => h.upToDate halone env made) id
    have hkept : Kept { w with acted := c :: w.acted } c := by
      refine ⟨{ h.base with rotated := ?_, never := { h.base.never with } }, List.mem_cons_self, ?_⟩
      · intro rotation hrotation
        obtain ⟨hacted, hrest⟩ := h.base.rotated rotation hrotation
        exact ⟨List.mem_cons_of_mem _ hacted, hrest⟩
      · intro halone
        exact { h.sole c fun other hother => halone other (List.mem_cons_of_mem _ hother) with }
    exact (hkept.call { hupToDate with }).inv
  | finishRotation index results =>
    simp only [SessionStore.step, finishRotation]
    split
    · exact h
    · rename_i rotation hrotation
      obtain ⟨hlt, rfl⟩ := List.getElem?_eq_some_iff.mp hrotation
      obtain ⟨hacted, hminted, hnone, hwrites⟩ := h.base.rotated _ (List.getElem_mem hlt)
      have hkept : Kept { w with rotations := w.rotations.eraseIdx index }
          w.rotations[index].copy := by
        refine ⟨{ h.base with rotated := ?_, distinct := ?_, never := { h.base.never with } },
          hacted, fun halone => { h.sole _ halone with }⟩
        · intro rotation hmem
          exact h.base.rotated rotation (List.mem_of_mem_eraseIdx hmem)
        · exact h.base.distinct.sublist (List.eraseIdx_sublist _ _)
      refine (hkept.writeAll hwrites ⟨hminted, ?_, ?_⟩ results).inv
      · -- No other rotation has minted the same session.
        intro rotation hmem hsame
        have hperm := List.getElem_cons_eraseIdx_perm hlt
        have hdistinct := (hperm.pairwise_iff (fun hne => Ne.symm hne)).mpr h.base.distinct
        exact (List.pairwise_cons.mp hdistinct).1 rotation hmem hsame.symm
      · intro old hold
        rw [show w.latest w.rotations[index].id = some old from hold] at hnone
        contradiction
  | removeKey =>
    refine ⟨{ h.base with never := { h.base.never with } }, fun c halone => ?_⟩
    have hsole := h.sole c halone
    exact { hsole with
      unused := fun hnone => ⟨(hsole.unused hnone).1, by simp [SessionStore.step]⟩
      durable := fun record hrecord hmemory hwrites =>
        ⟨(hsole.durable record hrecord hmemory hwrites).1, by simp [SessionStore.step]⟩ }
  | corruptKey =>
    refine ⟨{ h.base with never := { h.base.never with } }, fun c halone => ?_⟩
    have hsole := h.sole c halone
    exact { hsole with
      unused := fun hnone => ⟨(hsole.unused hnone).1, by simp [SessionStore.step]⟩
      durable := fun record hrecord hmemory hwrites =>
        ⟨(hsole.durable record hrecord hmemory hwrites).1, by simp [SessionStore.step]⟩ }
  | memoryOnly =>
    refine ⟨{ h.base with never := { h.base.never with } }, fun c halone => ?_⟩
    exact { h.sole c halone with durable := by simp [SessionStore.step] }

lemma opened_inv (stored : Option Stored) (memoryOnly : Bool) : Inv (opened stored memoryOnly) := by
  constructor
  case base =>
    constructor
    case fresh =>
      intro id hle
      simp only [opened] at hle ⊢
      cases hrecord : stored.bind parseSessionRecord with
      | none => rfl
      | some record =>
        have hne : record.id ≠ id := by
          simp only [hrecord, Option.map_some, Option.getD_some] at hle
          omega
        simp [Option.filter, hne]
    case never => exact ⟨List.Pairwise.nil, List.Pairwise.nil⟩
    all_goals simp [opened]
  case sole =>
    intro c _
    constructor
    case unused =>
      intro _
      refine ⟨rfl, fun record hrecord => ?_⟩
      have hstored : stored = some (.record record) := hrecord
      simp [Current, opened, hstored, parseSessionRecord]
    all_goals simp [opened]

/-- Runs of a document in which each call is of a copy that is alone, or finds what it works on
current. -/
abbrev SoundRun (stored : Option Stored) (memoryOnly : Bool) : World → Prop :=
  ReachWhen (fun w l => some (step w l)) Sound fun w => w = opened stored memoryOnly

lemma SoundRun.alone {stored : Option Stored} {memoryOnly : Bool}
    (h : SoundRun stored memoryOnly w) (halone : Alone w c) (made : Call) (env : Env) :
    SoundRun stored memoryOnly (step w (.call c made env)) :=
  h.next (show Sound w (.call c made env) from .inl halone) rfl

end Maple.SessionStore
