import Maple.EscalationQueue

/-! When an escalation pages at most once: in every run in which no tick claims a row that another
tick has claimed and not yet flipped to sent. -/

namespace Maple.Escalation

open TransitionRun

/-- It reported back, and delivered to nobody. -/
def Dispatch.Fruitless (d : Dispatch) : Prop := d.result.map DispatchResult.delivered = some 0

instance (d : Dispatch) : Decidable d.Fruitless := inferInstanceAs (Decidable (_ = _))

/-- A dispatch begins only after every earlier one of the row has reported back and delivered to
nobody, and there are at most `MAX_ATTEMPTS` of them. -/
structure PagedAtMostOnce (dispatches : List Dispatch) : Prop where
  fruitless : dispatches.Pairwise fun earlier _ => earlier.Fruitless
  bounded : dispatches.length ≤ MAX_ATTEMPTS

/-- The claim tick `t` works on. -/
def World.claim? (w : World) (t : ℕ) : Option Claim := w.ticks[t]?.bind Tick.current

/-- The row tick `t` turns to next. -/
def World.next? (w : World) (t : ℕ) : Option EscalationRow :=
  w.ticks[t]?.bind fun tick => tick.pending.head?

/-- A claim that succeeds takes no row that another tick has claimed and not yet flipped. -/
def ClaimsUnclaimed (w : World) : Label → Prop
  | .claim t _ _ => ∀ row, w.next? t = some row → w.escalations.any (claimable row) = true →
      ∀ t' c, w.claim? t' = some c → c.row.id = row.id → c.stage.beforeFlip = false
  | _ => True

/-- One more dispatch is in order after these. -/
structure MayDispatch (dispatches : List Dispatch) (attempts : ℕ) : Prop where
  fruitless : ∀ d ∈ dispatches, d.Fruitless
  attempted : dispatches.length ≤ attempts
  within : dispatches.length < MAX_ATTEMPTS

/-- The last of these is under way or has reported, and was in order. -/
def LastIs (dispatches : List Dispatch) (attempts : ℕ) (p : ℕ → Dispatch → Prop) : Prop :=
  ∃ past d, dispatches = past ++ [d] ∧ MayDispatch past attempts ∧ p past.length d

/-- The claimed row is in the table with this status, and with its attempts raised. -/
def RowIs (w : World) (row : EscalationRow) (status : EscalationStatus) : Prop :=
  ∀ current ∈ w.escalations, current.id = row.id →
    current.status = status ∧ current.attempts = row.attempts + 1

def ClaimInv (w : World) (c : Claim) : Prop :=
  match c.stage with
  | .dispatch _ _ => RowIs w c.row .sent ∧ MayDispatch (w.dispatches c.row.id) c.row.attempts
  | .dispatching index _ => RowIs w c.row .sent ∧
      LastIs (w.dispatches c.row.id) c.row.attempts fun at' _ => index = at'
  | .record result | .settle result => RowIs w c.row .sent ∧
      LastIs (w.dispatches c.row.id) c.row.attempts fun _ d => d.result = some result
  | _ => RowIs w c.row .queued ∧ MayDispatch (w.dispatches c.row.id) c.row.attempts

structure Good (w : World) : Prop where
  distinct : (w.escalations.map EscalationRow.id).Nodup
  alone : ∀ t t' c c', w.claim? t = some c → w.claim? t' = some c' → c.row.id = c'.row.id → t = t'
  claimed : ∀ t c, w.claim? t = some c → ClaimInv w c
  unclaimed : ∀ row ∈ w.escalations, (∀ t c, w.claim? t = some c → c.row.id ≠ row.id) →
    row.status = .queued → MayDispatch (w.dispatches row.id) row.attempts
  paged : ∀ id, PagedAtMostOnce (w.dispatches id)

/-! ### The lists of dispatches -/

lemma MayDispatch.mono {ds : List Dispatch} {n m : ℕ} (h : MayDispatch ds n) (hnm : n ≤ m) :
    MayDispatch ds m :=
  ⟨h.fruitless, h.attempted.trans hnm, h.within⟩

lemma MayDispatch.paged_append {past : List Dispatch} {n : ℕ} (h : MayDispatch past n)
    (d : Dispatch) : PagedAtMostOnce (past ++ [d]) := by
  have hwithin := h.within
  refine ⟨?_, ?_⟩
  · rw [List.pairwise_append]
    refine ⟨?_, List.pairwise_singleton _ _, fun earlier hearlier _ _ => h.fruitless earlier hearlier⟩
    exact List.pairwise_of_forall_mem_list fun earlier hearlier _ _ => h.fruitless earlier hearlier
  · simp only [List.length_append, List.length_singleton]
    omega

lemma LastIs.paged {ds : List Dispatch} {n : ℕ} {p : ℕ → Dispatch → Prop} (h : LastIs ds n p) :
    PagedAtMostOnce ds := by
  obtain ⟨past, d, rfl, hpast, -⟩ := h
  exact hpast.paged_append d

/-- A dispatch that delivered to nobody may be followed by another within the attempts. -/
lemma LastIs.mayDispatch {ds : List Dispatch} {n : ℕ} {result : DispatchResult}
    (h : LastIs ds n fun _ d => d.result = some result) (hnone : result.delivered = 0)
    (hn : n + 1 < MAX_ATTEMPTS) : MayDispatch ds (n + 1) := by
  obtain ⟨past, d, rfl, hpast, hd⟩ := h
  have hattempted := hpast.attempted
  refine ⟨?_, ?_, ?_⟩
  · intro e he
    rcases List.mem_append.mp he with he | he
    · exact hpast.fruitless e he
    · obtain rfl := List.mem_singleton.mp he
      simp [Dispatch.Fruitless, hd, hnone]
  · simpa using hattempted
  · simp only [List.length_append, List.length_singleton]
    omega

lemma MayDispatch.lastIs {past : List Dispatch} {n : ℕ} (h : MayDispatch past n) (d : Dispatch) :
    LastIs (past ++ [d]) n fun at' _ => past.length = at' :=
  ⟨past, d, rfl, h, rfl⟩

lemma modify_last (past : List Dispatch) (d : Dispatch) (f : Dispatch → Dispatch) :
    (past ++ [d]).modify past.length f = past ++ [f d] := by
  induction past with
  | nil => rfl
  | cons e past ih => simpa using ih

lemma LastIs.report {ds : List Dispatch} {n index : ℕ}
    (h : LastIs ds n fun at' _ => index = at') (result : DispatchResult) :
    LastIs (ds.modify index fun d => { d with result := some result }) n
      fun _ d => d.result = some result := by
  obtain ⟨past, d, rfl, hpast, rfl⟩ := h
  refine ⟨past, { d with result := some result }, ?_, hpast, rfl⟩
  exact modify_last past d _

/-! ### The table -/

lemma mem_updateWhere {p : EscalationRow → Bool} {f : EscalationRow → EscalationRow}
    {rows : List EscalationRow} {row : EscalationRow} (h : row ∈ updateWhere p f rows) :
    ∃ old ∈ rows, row = if p old then f old else old := by
  obtain ⟨old, hold, rfl⟩ := List.mem_map.mp h
  exact ⟨old, hold, rfl⟩

lemma updateWhere_ids {p : EscalationRow → Bool} {f : EscalationRow → EscalationRow}
    (hf : ∀ row, (f row).id = row.id) (rows : List EscalationRow) :
    (updateWhere p f rows).map EscalationRow.id = rows.map EscalationRow.id := by
  induction rows with
  | nil => rfl
  | cons row rows ih =>
    have hhead : (if p row then f row else row).id = row.id := by
      split_ifs
      · exact hf row
      · rfl
    simpa [updateWhere, hhead] using ih

/-- What an update of one row's id does to the table. -/
structure Updates (rows rows' : List EscalationRow) (id : ℕ) : Prop where
  ids : rows'.map EscalationRow.id = rows.map EscalationRow.id
  others : ∀ row ∈ rows', row.id ≠ id → row ∈ rows

lemma Updates.refl (rows : List EscalationRow) (id : ℕ) : Updates rows rows id :=
  ⟨rfl, fun _ hrow _ => hrow⟩

lemma updates_updateWhere {p : EscalationRow → Bool} {f : EscalationRow → EscalationRow} {id : ℕ}
    (hf : ∀ row, (f row).id = row.id) (hp : ∀ row, p row = true → row.id = id)
    (rows : List EscalationRow) : Updates rows (updateWhere p f rows) id := by
  refine ⟨updateWhere_ids hf rows, ?_⟩
  intro new hnew hid
  obtain ⟨old, hold, rfl⟩ := mem_updateWhere hnew
  by_cases hmatch : p old = true
  · rw [if_pos hmatch, hf old] at hid
    exact absurd (hp old hmatch) hid
  · rwa [if_neg hmatch]

lemma updates_finalize (row : EscalationRow) (status : EscalationStatus) (timestamp : ℕ)
    (error : Option String) (results : Option (List NotificationDestinationResult))
    (rows : List EscalationRow) :
    Updates rows (finalize row status timestamp error results rows) row.id := by
  apply updates_updateWhere
  · intro current
    rfl
  · intro current hcurrent
    exact of_decide_eq_true hcurrent

lemma mem_finalize {row : EscalationRow} {status : EscalationStatus} {timestamp : ℕ}
    {error : Option String} {results : Option (List NotificationDestinationResult)}
    {rows : List EscalationRow} {new : EscalationRow}
    (hnew : new ∈ finalize row status timestamp error results rows) (hid : new.id = row.id) :
    new.status = status ∧ ∃ old ∈ rows, old.id = row.id ∧ old.attempts = new.attempts := by
  obtain ⟨old, hold, rfl⟩ := mem_updateWhere hnew
  by_cases hmatch : old.id = row.id
  · simp only [hmatch, decide_true, if_true]
    exact ⟨trivial, old, hold, hmatch, rfl⟩
  · simp only [hmatch, decide_false, Bool.false_eq_true, if_false] at hid

lemma updates_claimUpdate (row : EscalationRow) (rows : List EscalationRow) :
    Updates rows (claimUpdate row rows) row.id := by
  apply updates_updateWhere
  · intro current
    rfl
  · intro current hcurrent
    simp only [claimable, Bool.and_eq_true, decide_eq_true_eq] at hcurrent
    exact hcurrent.1.1

lemma claimUpdate_none {row : EscalationRow} {rows : List EscalationRow}
    (h : rows.any (claimable row) = false) : claimUpdate row rows = rows := by
  unfold claimUpdate updateWhere
  conv_rhs => rw [← List.map_id rows]
  apply List.map_congr_left
  intro current hcurrent
  exact if_neg (List.any_eq_false.mp h current hcurrent)

/-- Ids are distinct, so the row that could be claimed is the only one of its id. -/
lemma mem_claimUpdate {row : EscalationRow} {rows : List EscalationRow}
    (hdistinct : (rows.map EscalationRow.id).Nodup) (hany : rows.any (claimable row) = true)
    {new : EscalationRow} (hnew : new ∈ claimUpdate row rows) (hid : new.id = row.id) :
    new.status = .queued ∧ new.attempts = row.attempts + 1 := by
  obtain ⟨found, hfound, hclaimable⟩ := List.any_eq_true.mp hany
  simp only [claimable, Bool.and_eq_true, decide_eq_true_eq] at hclaimable
  obtain ⟨⟨hfid, hfqueued⟩, hfattempts⟩ := hclaimable
  obtain ⟨old, hold, rfl⟩ := mem_updateWhere hnew
  have holdid : old.id = row.id := by
    split_ifs at hid
    · exact hid
    · exact hid
  obtain rfl : old = found :=
    List.inj_on_of_nodup_map hdistinct hold hfound (holdid.trans hfid.symm)
  have hmatch : claimable row old = true := by simp [claimable, hfid, hfqueued, hfattempts]
  rw [if_pos hmatch]
  exact ⟨hfqueued, rfl⟩

lemma World.execute_updates {w : World} {statement : Statement}
    {f : List EscalationRow → List EscalationRow} {id : ℕ}
    (h : Updates w.escalations (f w.escalations) id) :
    Updates w.escalations (w.execute statement f).escalations id := by
  unfold World.execute
  split_ifs
  · exact h
  · exact .refl _ _

@[simp] lemma World.execute_ticks (w : World) (statement : Statement)
    (f : List EscalationRow → List EscalationRow) :
    (w.execute statement f).ticks = w.ticks := by
  unfold World.execute
  split_ifs <;> rfl

@[simp] lemma World.execute_dispatches (w : World) (statement : Statement)
    (f : List EscalationRow → List EscalationRow) :
    (w.execute statement f).dispatches = w.dispatches := by
  unfold World.execute
  split_ifs <;> rfl

lemma World.execute_acknowledged {w : World} {statement : Statement}
    (f : List EscalationRow → List EscalationRow) (h : statement.acknowledged = true) :
    (w.execute statement f).escalations = f w.escalations := by
  cases statement with
  | done => rfl
  | unacknowledged => cases h
  | failed => cases h

/-! ### The ticks -/

@[simp] lemma World.setTick_escalations (w : World) (t : ℕ) (tick : Tick) :
    (w.setTick t tick).escalations = w.escalations := rfl

@[simp] lemma World.setTick_dispatches (w : World) (t : ℕ) (tick : Tick) :
    (w.setTick t tick).dispatches = w.dispatches := rfl

lemma World.claim?_setTick_ne (w : World) {t t' : ℕ} (h : t' ≠ t) (tick : Tick) :
    (w.setTick t tick).claim? t' = w.claim? t' := by
  simp [World.claim?, World.setTick, List.getElem?_set_ne h.symm]

lemma World.claim?_setTick_self {w : World} {t : ℕ} {old : Tick} (h : w.ticks[t]? = some old)
    (tick : Tick) : (w.setTick t tick).claim? t = tick.current := by
  have hlt : t < w.ticks.length := (List.getElem?_eq_some_iff.mp h).1
  simp [World.claim?, World.setTick, hlt]

lemma World.claim?_eq {w : World} {t : ℕ} {tick : Tick} (h : w.ticks[t]? = some tick) :
    w.claim? t = tick.current := by
  simp [World.claim?, h]

@[simp] lemma Tick.finish_current (tick : Tick) (outcome : Outcome) :
    (tick.finish outcome).current = none := rfl

@[simp] lemma Tick.advance_current (tick : Tick) (c : Claim) (stage : Stage) :
    (tick.advance c stage).current = some { c with stage } := rfl

lemma Tick.after_current (tick next : Tick) (statement : Statement) :
    (tick.after statement next).current =
      if statement.acknowledged then next.current else none := by
  unfold Tick.after
  split_ifs <;> rfl

lemma beforeFlip_decided (row : EscalationRow) (policy : Option IssueEscalationPolicy)
    (ids : List ℕ) : (decided row policy ids).beforeFlip = true := by
  unfold decided
  split <;> rfl

lemma beforeFlip_withPolicy (row : EscalationRow) (policy : Option IssueEscalationPolicy) :
    (withPolicy row policy).beforeFlip = true := by
  unfold withPolicy
  split_ifs
  · exact beforeFlip_decided row policy []
  · rfl

lemma beforeFlip_afterClaim (tick : Tick) (row : EscalationRow) :
    (afterClaim tick row).beforeFlip = true := by
  unfold afterClaim
  split
  · exact beforeFlip_withPolicy row _
  · rfl

lemma claimInv_beforeFlip {w : World} {c : Claim} (h : c.stage.beforeFlip = true) :
    ClaimInv w c ↔ RowIs w c.row .queued ∧ MayDispatch (w.dispatches c.row.id) c.row.attempts := by
  unfold ClaimInv
  cases hstage : c.stage <;> simp_all [Stage.beforeFlip]

/-- After the flip the row is out of the queue. -/
lemma claimInv_sent {w : World} {c : Claim} (h : ClaimInv w c) (hflip : c.stage.beforeFlip = false) :
    RowIs w c.row .sent := by
  unfold ClaimInv at h
  cases hstage : c.stage <;> simp_all [Stage.beforeFlip]

/-! ### A step of the tick that owns a row -/

/-- Everything but the row `id` and the tick `t` is as before. -/
structure Touches (w w' : World) (t id : ℕ) : Prop where
  rows : Updates w.escalations w'.escalations id
  dispatches : ∀ other, other ≠ id → w'.dispatches other = w.dispatches other
  claims : ∀ t', t' ≠ t → w'.claim? t' = w.claim? t'

/-- Nobody but tick `t` has claimed the row `id`, and `t` no other. -/
structure Owns (w : World) (t id : ℕ) : Prop where
  others : ∀ t' c, w.claim? t' = some c → c.row.id = id → t' = t
  self : ∀ c, w.claim? t = some c → c.row.id = id

lemma ClaimInv.frame {w w' : World} {c : Claim} {t id : ℕ} (h : ClaimInv w c)
    (ht : Touches w w' t id) (hid : c.row.id ≠ id) : ClaimInv w' c := by
  have hrow : ∀ status, RowIs w c.row status → RowIs w' c.row status := by
    intro status hstatus current hcurrent hcid
    exact hstatus current (ht.rows.others current hcurrent (by rw [hcid]; exact hid)) hcid
  unfold ClaimInv at h ⊢
  rw [ht.dispatches _ hid]
  cases hstage : c.stage <;> simp only [hstage] at h ⊢ <;> exact ⟨hrow _ h.1, h.2⟩

lemma Good.touched {w w' : World} {t id : ℕ} (h : Good w) (ht : Touches w w' t id)
    (ho : Owns w t id)
    (hclaim : ∀ c, w'.claim? t = some c → c.row.id = id ∧ ClaimInv w' c)
    (hfree : w'.claim? t = none → ∀ row ∈ w'.escalations, row.id = id → row.status = .queued →
      MayDispatch (w'.dispatches id) row.attempts)
    (hpaged : PagedAtMostOnce (w'.dispatches id)) : Good w' := by
  have hother : ∀ t' c, t' ≠ t → w'.claim? t' = some c → w.claim? t' = some c ∧ c.row.id ≠ id := by
    intro t' c hne hc
    rw [ht.claims t' hne] at hc
    exact ⟨hc, fun hid => hne (ho.others t' c hc hid)⟩
  refine ⟨?_, ?_, ?_, ?_, ?_⟩
  · rw [ht.rows.ids]
    exact h.distinct
  · intro t₁ t₂ c₁ c₂ h₁ h₂ heq
    by_cases ht₁ : t₁ = t
    · by_cases ht₂ : t₂ = t
      · rw [ht₁, ht₂]
      · subst ht₁
        exact absurd (heq.symm.trans (hclaim c₁ h₁).1) (hother t₂ c₂ ht₂ h₂).2
    · by_cases ht₂ : t₂ = t
      · subst ht₂
        exact absurd (heq.trans (hclaim c₂ h₂).1) (hother t₁ c₁ ht₁ h₁).2
      · exact h.alone t₁ t₂ c₁ c₂ (hother t₁ c₁ ht₁ h₁).1 (hother t₂ c₂ ht₂ h₂).1 heq
  · intro t' c hc
    by_cases ht' : t' = t
    · subst ht'
      exact (hclaim c hc).2
    · obtain ⟨hold, hid⟩ := hother t' c ht' hc
      exact (h.claimed t' c hold).frame ht hid
  · intro row hrow hunclaimed hqueued
    by_cases hid : row.id = id
    · rw [hid]
      refine hfree ?_ row hrow hid hqueued
      rw [Option.eq_none_iff_forall_not_mem]
      intro c hc
      exact hunclaimed t c hc (((hclaim c hc).1).trans hid.symm)
    · rw [ht.dispatches _ hid]
      refine h.unclaimed row (ht.rows.others row hrow hid) ?_ hqueued
      intro t' c hc heq
      by_cases ht' : t' = t
      · subst ht'
        exact hid (heq.symm.trans (ho.self c hc))
      · exact hunclaimed t' c ((ht.claims t' ht').trans hc) heq
  · intro other
    by_cases hid : other = id
    · rw [hid]
      exact hpaged
    · rw [ht.dispatches _ hid]
      exact h.paged other

lemma Good.owns {w : World} (h : Good w) {t : ℕ} {c : Claim} (hc : w.claim? t = some c) :
    Owns w t c.row.id := by
  refine ⟨?_, ?_⟩
  · intro t' c' hc' hid
    exact h.alone t' t c' c hc' hc hid
  · intro c' hc'
    rw [hc] at hc'
    rw [Option.some.inj hc']

/-- A step of tick `t` in the middle of `processOne` that leaves the dispatches alone. -/
lemma Good.executes {w : World} (h : Good w) {t : ℕ} {tick next : Tick} {c : Claim}
    {statement : Statement} {f : List EscalationRow → List EscalationRow}
    (htick : w.ticks[t]? = some tick) (hcur : tick.current = some c)
    (hf : Updates w.escalations (f w.escalations) c.row.id)
    (hclaim : ∀ c', next.current = some c' →
      c'.row.id = c.row.id ∧ ClaimInv ((w.execute statement f).setTick t next) c')
    (hfree : next.current = none → ∀ row ∈ (w.execute statement f).escalations,
      row.id = c.row.id → row.status = .queued →
      MayDispatch (w.dispatches c.row.id) row.attempts) :
    Good ((w.execute statement f).setTick t next) := by
  have hself : ((w.execute statement f).setTick t next).claim? t = next.current :=
    World.claim?_setTick_self (by rw [World.execute_ticks]; exact htick) next
  have htouches : Touches w ((w.execute statement f).setTick t next) t c.row.id := by
    refine ⟨World.execute_updates hf, ?_, ?_⟩
    · intro other _
      simp
    · intro t' ht'
      rw [World.claim?_setTick_ne _ ht', World.claim?, World.claim?, World.execute_ticks]
  refine h.touched htouches (h.owns ((World.claim?_eq htick).trans hcur)) ?_ ?_ ?_
  · rw [hself]
    exact hclaim
  · rw [hself]
    simpa using hfree
  · simpa using h.paged c.row.id

/-- A read before the flip moves on to another stage before the flip, or gives the row up. -/
lemma Good.reads {w : World} (h : Good w) {t : ℕ} {tick next : Tick} {c : Claim}
    (htick : w.ticks[t]? = some tick) (hcur : tick.current = some c)
    (hbefore : c.stage.beforeFlip = true) (statement : Statement)
    (hnext : ∃ stage, stage.beforeFlip = true ∧ next.current = some { c with stage }) :
    Good (w.setTick t (tick.after statement next)) := by
  have hc := h.claimed t c ((World.claim?_eq htick).trans hcur)
  rw [claimInv_beforeFlip hbefore] at hc
  have hdone : Good ((w.execute .failed id).setTick t (tick.after statement next)) := by
    refine h.executes htick hcur (.refl _ _) ?_ ?_
    · intro c' hc'
      obtain ⟨stage, hstage, hcurrent⟩ := hnext
      rw [Tick.after_current, hcurrent] at hc'
      split_ifs at hc'
      obtain rfl := Option.some.inj hc'
      rw [claimInv_beforeFlip hstage]
      exact ⟨rfl, hc⟩
    · intro _ row hrow hid _
      obtain ⟨-, hattempts⟩ := hc.1 row hrow hid
      exact hc.2.mono (by omega)
  exact hdone

lemma Good.skip {w : World} (h : Good w) {t : ℕ} {tick : Tick} {c : Claim}
    (htick : w.ticks[t]? = some tick) (hcur : tick.current = some c)
    (hbefore : c.stage.beforeFlip = true) (statement : Statement) (reason : String) :
    Good ((w.execute statement
      (finalize c.row .skipped c.timestamp (some reason) none)).setTick t
        (tick.after statement (tick.finish .skipped))) := by
  have hc := h.claimed t c ((World.claim?_eq htick).trans hcur)
  rw [claimInv_beforeFlip hbefore] at hc
  refine h.executes htick hcur (updates_finalize ..) ?_ ?_
  · intro c' hc'
    rw [Tick.after_current] at hc'
    split_ifs at hc'
    cases hc'
  · intro _ row hrow hid hqueued
    unfold World.execute at hrow
    split_ifs at hrow
    · rw [(mem_finalize hrow hid).1] at hqueued
      cases hqueued
    · obtain ⟨-, hattempts⟩ := hc.1 row hrow hid
      exact hc.2.mono (by omega)

/-- Once the flip has been written the tick may dispatch; if it was not acknowledged it does not. -/
lemma Good.flip {w : World} (h : Good w) {t : ℕ} {tick : Tick} {c : Claim}
    (htick : w.ticks[t]? = some tick) (hcur : tick.current = some c)
    (hbefore : c.stage.beforeFlip = true) (statement : Statement) (ids : List ℕ)
    (request : NotificationRequest) :
    Good ((w.execute statement (finalize c.row .sent c.timestamp none none)).setTick t
        (tick.after statement (tick.advance c (.dispatch ids request)))) := by
  have hc := h.claimed t c ((World.claim?_eq htick).trans hcur)
  rw [claimInv_beforeFlip hbefore] at hc
  refine h.executes htick hcur (updates_finalize ..) ?_ ?_
  · intro c' hc'
    rw [Tick.after_current] at hc'
    split_ifs at hc' with hack
    obtain rfl := Option.some.inj hc'
    refine ⟨rfl, ?_, ?_⟩
    · intro row hrow hid
      rw [World.setTick_escalations, World.execute_acknowledged _ hack] at hrow
      obtain ⟨hstatus, old, hold, holdid, hattempts⟩ := mem_finalize hrow hid
      exact ⟨hstatus, hattempts ▸ (hc.1 old hold holdid).2⟩
    · simpa using hc.2
  · intro _ row hrow hid hqueued
    unfold World.execute at hrow
    split_ifs at hrow
    · rw [(mem_finalize hrow hid).1] at hqueued
      cases hqueued
    · obtain ⟨-, hattempts⟩ := hc.1 row hrow hid
      exact hc.2.mono (by omega)

/-- A step that only changes the dispatches of the claimed row. -/
lemma Good.dispatches {w : World} (h : Good w) {t : ℕ} {tick : Tick} {c : Claim}
    (htick : w.ticks[t]? = some tick) (hcur : tick.current = some c) (ds : List Dispatch)
    (stage : Stage)
    (hclaim : ClaimInv ({ w with
      dispatches := Function.update w.dispatches c.row.id ds }.setTick t (tick.advance c stage))
        { c with stage })
    (hpaged : PagedAtMostOnce ds) :
    Good ({ w with dispatches := Function.update w.dispatches c.row.id ds }.setTick t
      (tick.advance c stage)) := by
  set w' : World := { w with dispatches := Function.update w.dispatches c.row.id ds } with hw'
  have hself : (w'.setTick t (tick.advance c stage)).claim? t = some { c with stage } :=
    World.claim?_setTick_self (w := w') htick _
  have htouches : Touches w (w'.setTick t (tick.advance c stage)) t c.row.id := by
    refine ⟨.refl _ _, ?_, ?_⟩
    · intro other hother
      exact Function.update_of_ne hother ds w.dispatches
    · intro t' ht'
      rw [World.claim?_setTick_ne _ ht']
      rfl
  refine h.touched htouches (h.owns ((World.claim?_eq htick).trans hcur)) ?_ ?_ ?_
  · intro c' hc'
    rw [hself] at hc'
    obtain rfl := Option.some.inj hc'
    exact ⟨rfl, hclaim⟩
  · intro hnone
    rw [hself] at hnone
    cases hnone
  · rw [World.setTick_dispatches, hw']
    simpa using hpaged

lemma Good.dispatch {w : World} (h : Good w) {t : ℕ} {tick : Tick} {c : Claim}
    (htick : w.ticks[t]? = some tick) (hcur : tick.current = some c) {ids : List ℕ}
    {request : NotificationRequest} (hstage : c.stage = .dispatch ids request) :
    Good ({ w with
      dispatches := Function.update w.dispatches c.row.id
        (w.dispatches c.row.id ++ [(⟨ids, request, none⟩ : Dispatch)]) }.setTick t
          (tick.advance c (.dispatching (w.dispatches c.row.id).length ids))) := by
  have hc := h.claimed t c ((World.claim?_eq htick).trans hcur)
  simp only [ClaimInv, hstage] at hc
  apply h.dispatches htick hcur
  · refine ⟨hc.1, ?_⟩
    simpa using hc.2.lastIs _
  · exact hc.2.paged_append _

lemma Good.report {w : World} (h : Good w) {t : ℕ} {tick : Tick} {c : Claim}
    (htick : w.ticks[t]? = some tick) (hcur : tick.current = some c) {index : ℕ} {ids : List ℕ}
    (hstage : c.stage = .dispatching index ids) (result : DispatchResult) :
    Good ({ w with
      dispatches := Function.update w.dispatches c.row.id
        ((w.dispatches c.row.id).modify index fun d => { d with result := some result })
      }.setTick t (tick.advance c (.record result))) := by
  have hc := h.claimed t c ((World.claim?_eq htick).trans hcur)
  simp only [ClaimInv, hstage] at hc
  have hlast := hc.2.report result
  apply h.dispatches htick hcur
  · refine ⟨hc.1, ?_⟩
    simpa using hlast
  · exact hlast.paged

/-- A tick that gives up a row that is out of the queue leaves it out of the queue. -/
lemma Good.leaves {w : World} (h : Good w) {t : ℕ} {tick next : Tick} {c : Claim}
    (htick : w.ticks[t]? = some tick) (hcur : tick.current = some c)
    (hsent : RowIs w c.row .sent) (hnext : next.current = none) : Good (w.setTick t next) := by
  have hdone : Good ((w.execute .failed id).setTick t next) := by
    refine h.executes htick hcur (.refl _ _) ?_ ?_
    · intro c' hc'
      rw [hnext] at hc'
      cases hc'
    · intro _ row hrow hid hqueued
      rw [(hsent row hrow hid).1] at hqueued
      cases hqueued
  exact hdone

/-- Writing the results keeps the row out of the queue. -/
lemma Good.record {w : World} (h : Good w) {t : ℕ} {tick : Tick} {c : Claim}
    (htick : w.ticks[t]? = some tick) (hcur : tick.current = some c) {result : DispatchResult}
    (hstage : c.stage = .record result) (statement : Statement) :
    Good ((w.execute statement
      (finalize c.row .sent c.timestamp none (some result.destinations))).setTick t
        (tick.after statement (tick.advance c (.settle result)))) := by
  have hc := h.claimed t c ((World.claim?_eq htick).trans hcur)
  simp only [ClaimInv, hstage] at hc
  refine h.executes htick hcur (updates_finalize ..) ?_ ?_
  · intro c' hc'
    rw [Tick.after_current] at hc'
    split_ifs at hc' with hack
    obtain rfl := Option.some.inj hc'
    refine ⟨rfl, ?_, ?_⟩
    · intro row hrow hid
      rw [World.setTick_escalations, World.execute_acknowledged _ hack] at hrow
      obtain ⟨hstatus, old, hold, holdid, hattempts⟩ := mem_finalize hrow hid
      exact ⟨hstatus, hattempts ▸ (hc.1 old hold holdid).2⟩
    · simpa using hc.2
  · intro _ row hrow hid hqueued
    unfold World.execute at hrow
    split_ifs at hrow
    · rw [(mem_finalize hrow hid).1] at hqueued
      cases hqueued
    · rw [(hc.1 row hrow hid).1] at hqueued
      cases hqueued

/-- The last update ends `processOne`; it may only queue the row again when another dispatch is in
order. -/
lemma Good.ends {w : World} (h : Good w) {t : ℕ} {tick : Tick} {c : Claim}
    (htick : w.ticks[t]? = some tick) (hcur : tick.current = some c)
    (hsent : RowIs w c.row .sent) (statement : Statement) (status : EscalationStatus)
    (error : Option String) (outcome : Outcome)
    (hagain : status = .queued → MayDispatch (w.dispatches c.row.id) (c.row.attempts + 1)) :
    Good ((w.execute statement (finalize c.row status c.timestamp error none)).setTick t
      (tick.after statement (tick.finish outcome))) := by
  refine h.executes htick hcur (updates_finalize ..) ?_ ?_
  · intro c' hc'
    rw [Tick.after_current] at hc'
    split_ifs at hc'
    cases hc'
  · intro _ row hrow hid hqueued
    unfold World.execute at hrow
    split_ifs at hrow
    · obtain ⟨hstatus, old, hold, holdid, hattempts⟩ := mem_finalize hrow hid
      rw [← hattempts, (hsent old hold holdid).2]
      exact hagain (hstatus ▸ hqueued)
    · rw [(hsent row hrow hid).1] at hqueued
      cases hqueued

lemma Good.settle {w : World} (h : Good w) {t : ℕ} {tick : Tick} {c : Claim}
    (htick : w.ticks[t]? = some tick) (hcur : tick.current = some c) {result : DispatchResult}
    (hstage : c.stage = .settle result) (statement : Statement) :
    Good (w.settle t statement tick c result) := by
  have hc := h.claimed t c ((World.claim?_eq htick).trans hcur)
  simp only [ClaimInv, hstage] at hc
  unfold World.settle
  split_ifs with hdelivered hfailed hattempts
  · exact h.leaves htick hcur hc.1 rfl
  · apply h.ends htick hcur hc.1
    intro hstatus
    cases hstatus
  · apply h.ends htick hcur hc.1
    intro hstatus
    cases hstatus
  · apply h.ends htick hcur hc.1
    intro _
    exact hc.2.mayDispatch (by omega) (by omega)

/-! ### The other steps -/

/-- Nothing but who is about to process what has changed. -/
lemma Good.same {w w' : World} (h : Good w) (hrows : w'.escalations = w.escalations)
    (hdispatches : w'.dispatches = w.dispatches)
    (hclaims : ∀ t, w'.claim? t = w.claim? t) : Good w' := by
  refine ⟨?_, ?_, ?_, ?_, ?_⟩
  · rw [hrows]
    exact h.distinct
  · intro t t' c c' hc hc'
    rw [hclaims] at hc hc'
    exact h.alone t t' c c' hc hc'
  · intro t c hc
    rw [hclaims] at hc
    have hinv := h.claimed t c hc
    unfold ClaimInv RowIs at hinv ⊢
    rw [hrows, hdispatches]
    exact hinv
  · intro row hrow hunclaimed hqueued
    rw [hrows] at hrow
    rw [hdispatches]
    apply h.unclaimed row hrow ?_ hqueued
    intro t c hc
    exact hunclaimed t c ((hclaims t).trans hc)
  · intro id
    rw [hdispatches]
    exact h.paged id

lemma Good.begin {w : World} (h : Good w) : Good w.begin := by
  refine h.same (rfl : w.begin.escalations = w.escalations) rfl ?_
  intro t
  unfold World.claim? World.begin
  rcases lt_trichotomy t w.ticks.length with hlt | rfl | hgt
  · rw [List.getElem?_append_left hlt]
  · simp
  · rw [List.getElem?_eq_none (by simp; omega), List.getElem?_eq_none (by omega)]

/-- Nobody holds a row that can be claimed, unless it is claimed and not yet flipped. -/
lemma Good.unheld {w : World} (h : Good w) {row : EscalationRow}
    (hany : w.escalations.any (claimable row) = true)
    (hok : ∀ t c, w.claim? t = some c → c.row.id = row.id → c.stage.beforeFlip = false) :
    ∀ t c, w.claim? t = some c → c.row.id ≠ row.id := by
  intro t c hc hid
  obtain ⟨current, hcurrent, hclaimable⟩ := List.any_eq_true.mp hany
  simp only [claimable, Bool.and_eq_true, decide_eq_true_eq] at hclaimable
  have hsent := claimInv_sent (h.claimed t c hc) (hok t c hc hid)
  have hstatus := (hsent current hcurrent (hclaimable.1.1.trans hid.symm)).1
  rw [hclaimable.1.2] at hstatus
  cases hstatus

/-- What the claimed row's dispatches were like when it was claimed. -/
lemma Good.mayDispatch {w : World} (h : Good w) {row : EscalationRow}
    (hany : w.escalations.any (claimable row) = true)
    (hfree : ∀ t c, w.claim? t = some c → c.row.id ≠ row.id) :
    MayDispatch (w.dispatches row.id) row.attempts := by
  obtain ⟨current, hcurrent, hclaimable⟩ := List.any_eq_true.mp hany
  simp only [claimable, Bool.and_eq_true, decide_eq_true_eq] at hclaimable
  obtain ⟨⟨hid, hqueued⟩, hattempts⟩ := hclaimable
  have hmay := h.unclaimed current hcurrent (by rw [hid]; exact hfree) hqueued
  rwa [hid, hattempts] at hmay

lemma Good.claim {w w' : World} (h : Good w) {t now : ℕ} {statement : Statement} {tick : Tick}
    (htick : w.ticks[t]? = some tick) (hok : ClaimsUnclaimed w (.claim t now statement))
    (hstep : w.claim t now statement tick = some w') : Good w' := by
  unfold World.claim at hstep
  split at hstep
  case h_2 => cases hstep
  case h_1 row pending hcurrent hpending =>
    obtain rfl := Option.some.inj hstep
    have hnext : w.next? t = some row := by simp [World.next?, htick, hpending]
    by_cases hany : w.escalations.any (claimable row) = true
    · have hfree := h.unheld hany (hok row hnext hany)
      have hmay := h.mayDispatch hany hfree
      have hclaims : ∀ next : Tick, ∀ t', t' ≠ t →
          ((w.execute statement (claimUpdate row)).setTick t next).claim? t' = w.claim? t' := by
        intro next t' ht'
        rw [World.claim?_setTick_ne _ ht', World.claim?, World.claim?, World.execute_ticks]
      have howns : Owns w t row.id := by
        refine ⟨?_, ?_⟩
        · intro t' c hc hid
          exact absurd hid (hfree t' c hc)
        · intro c hc
          rw [World.claim?_eq htick, hcurrent] at hc
          cases hc
      rw [if_pos hany]
      refine h.touched ⟨World.execute_updates (updates_claimUpdate row _), ?_, hclaims _⟩ howns
        ?_ ?_ ?_
      · intro other _
        simp
      · intro c hc
        rw [World.claim?_setTick_self (by rw [World.execute_ticks]; exact htick),
          Tick.after_current] at hc
        split_ifs at hc with hack
        obtain rfl := Option.some.inj hc
        refine ⟨rfl, (claimInv_beforeFlip (beforeFlip_afterClaim _ _)).mpr ⟨?_, ?_⟩⟩
        · intro current hcur hid
          rw [World.setTick_escalations, World.execute_acknowledged _ hack] at hcur
          exact mem_claimUpdate h.distinct hany hcur hid
        · simpa using hmay
      · intro _ current hcur hid hqueued
        rw [World.setTick_dispatches, World.execute_dispatches]
        rw [World.setTick_escalations] at hcur
        unfold World.execute at hcur
        split_ifs at hcur
        · rw [(mem_claimUpdate h.distinct hany hcur hid).2]
          exact hmay.mono (by omega)
        · rw [← hid]
          exact h.unclaimed current hcur (by rw [hid]; exact hfree) hqueued
      · simpa using h.paged row.id
    · rw [Bool.not_eq_true] at hany
      have hrows : (w.execute statement (claimUpdate row)).escalations = w.escalations := by
        unfold World.execute
        rw [claimUpdate_none hany]
        split_ifs <;> rfl
      rw [if_neg (by simp [hany])]
      refine h.same ((World.setTick_escalations _ t _).trans hrows) (by simp) ?_
      intro t'
      by_cases ht' : t' = t
      · subst ht'
        rw [World.claim?_setTick_self (by rw [World.execute_ticks]; exact htick),
          Tick.after_current, World.claim?_eq htick, hcurrent]
        split_ifs <;> rfl
      · rw [World.claim?_setTick_ne _ ht', World.claim?, World.claim?, World.execute_ticks]

lemma Good.die {w : World} (h : Good w) {t : ℕ} {tick : Tick} (htick : w.ticks[t]? = some tick) :
    Good (w.setTick t { tick with pending := [], current := none }) := by
  cases hcur : tick.current with
  | none =>
    refine h.same (World.setTick_escalations w t _) (World.setTick_dispatches w t _) ?_
    intro t'
    by_cases ht' : t' = t
    · subst ht'
      rw [World.claim?_setTick_self htick, World.claim?_eq htick, hcur]
    · exact World.claim?_setTick_ne w ht' _
  | some c =>
    have hc := h.claimed t c ((World.claim?_eq htick).trans hcur)
    by_cases hbefore : c.stage.beforeFlip = true
    · rw [claimInv_beforeFlip hbefore] at hc
      have hdone : Good ((w.execute .failed id).setTick t
          { tick with pending := [], current := none }) := by
        refine h.executes htick hcur (.refl _ _) ?_ ?_
        · intro c' hc'
          cases hc'
        · intro _ row hrow hid _
          obtain ⟨-, hattempts⟩ := hc.1 row hrow hid
          exact hc.2.mono (by omega)
      exact hdone
    · exact h.leaves htick hcur (claimInv_sent hc (Bool.not_eq_true _ ▸ hbefore)) rfl

lemma Good.process {w w' : World} (h : Good w) {t : ℕ} {tick : Tick} {c : Claim} {l : Label}
    (htick : w.ticks[t]? = some tick) (hcur : tick.current = some c)
    (hstep : w.process t tick c l = some w') : Good w' := by
  have hbefore : ∀ stage, c.stage = stage → stage.beforeFlip = true →
      c.stage.beforeFlip = true := by
    intro stage hstage hflip
    rwa [hstage]
  cases l with
  | begin => cases hstep
  | claim => cases hstep
  | die => cases hstep
  | readPolicy _ policy statement =>
    cases hstage : c.stage <;> simp only [World.process, hstage, reduceCtorEq] at hstep
    obtain rfl := Option.some.inj hstep
    exact h.reads htick hcur (hbefore _ hstage rfl) statement
      ⟨_, beforeFlip_withPolicy c.row policy, rfl⟩
  | readDestinations _ enabledIds statement =>
    cases hstage : c.stage <;> simp only [World.process, hstage, reduceCtorEq] at hstep
    obtain rfl := Option.some.inj hstep
    exact h.reads htick hcur (hbefore _ hstage rfl) statement
      ⟨_, beforeFlip_decided c.row _ enabledIds, rfl⟩
  | readIssue _ issue statement =>
    cases hstage : c.stage <;> simp only [World.process, hstage, reduceCtorEq] at hstep
    obtain rfl := Option.some.inj hstep
    refine h.reads htick hcur (hbefore _ hstage rfl) statement ⟨_, ?_, rfl⟩
    cases issue <;> rfl
  | skip _ statement =>
    cases hstage : c.stage <;> simp only [World.process, hstage, reduceCtorEq] at hstep
    obtain rfl := Option.some.inj hstep
    exact h.skip htick hcur (hbefore _ hstage rfl) statement _
  | flip _ statement =>
    cases hstage : c.stage <;> simp only [World.process, hstage, reduceCtorEq] at hstep
    obtain rfl := Option.some.inj hstep
    exact h.flip htick hcur (hbefore _ hstage rfl) statement _ _
  | dispatch =>
    cases hstage : c.stage <;> simp only [World.process, hstage, reduceCtorEq] at hstep
    obtain rfl := Option.some.inj hstep
    exact h.dispatch htick hcur hstage
  | report _ lookup succeeds =>
    cases hstage : c.stage <;> simp only [World.process, hstage, reduceCtorEq] at hstep
    obtain rfl := Option.some.inj hstep
    exact h.report htick hcur hstage _
  | defect =>
    cases hstage : c.stage <;> simp only [World.process, hstage, reduceCtorEq] at hstep
    obtain rfl := Option.some.inj hstep
    have hc := h.claimed t c ((World.claim?_eq htick).trans hcur)
    exact h.leaves htick hcur (claimInv_sent hc (by rw [hstage]; rfl)) rfl
  | record _ statement =>
    cases hstage : c.stage <;> simp only [World.process, hstage, reduceCtorEq] at hstep
    obtain rfl := Option.some.inj hstep
    exact h.record htick hcur hstage statement
  | settle _ statement =>
    cases hstage : c.stage <;> simp only [World.process, hstage, reduceCtorEq] at hstep
    obtain rfl := Option.some.inj hstep
    exact h.settle htick hcur hstage statement

lemma Good.step {w w' : World} (h : Good w) {l : Label} (hok : ClaimsUnclaimed w l)
    (hstep : w.step l = some w') : Good w' := by
  unfold World.step at hstep
  split at hstep
  case h_1 =>
    obtain rfl := Option.some.inj hstep
    exact h.begin
  case h_2 t ht =>
    split at hstep
    case h_1 => cases hstep
    case h_2 tick htick =>
      split at hstep
      · obtain rfl := Option.some.inj hstep
        exact h.die htick
      · cases ht
        exact h.claim htick hok hstep
      · exact h.process htick ‹_› hstep
      · cases hstep

lemma World.Initial.good {w : World} (h : w.Initial) : Good w := by
  have hnone : ∀ t, w.claim? t = none := by
    intro t
    simp [World.claim?, h.noTicks]
  refine ⟨h.distinct, ?_, ?_, ?_, ?_⟩
  · intro t t' c c' hc
    rw [hnone] at hc
    cases hc
  · intro t c hc
    rw [hnone] at hc
    cases hc
  · intro row _ _ _
    rw [h.noDispatches]
    exact ⟨by simp, Nat.zero_le _, by decide⟩
  · intro id
    rw [h.noDispatches]
    exact ⟨List.Pairwise.nil, Nat.zero_le _⟩

/-- A row is dispatched again only after every earlier dispatch of it has reported back and
delivered to nobody, and at most `MAX_ATTEMPTS` times. -/
theorem escalation_pages_at_most_once {w : World}
    (h : ReachWhen World.step ClaimsUnclaimed World.Initial w) (id : ℕ) :
    PagedAtMostOnce (w.dispatches id) := by
  have hgood : Good w := by
    apply h.invariant
    · intro s hs
      exact hs.good
    · intro s l s' hs hok hstep
      exact hs.step hok hstep
  exact hgood.paged id

def sampleRow : EscalationRow where
  id := 1
  orgId := 1
  issueId := 7
  severity := .high
  source := .manual
  confidence := none
  dedupeKey := "esc:1:7:high"
  status := .queued
  attempts := 0
  error := none
  deliveryResults := []
  createdAt := 5
  processedAt := none

def samplePolicy : IssueEscalationPolicy := ⟨true, [⟨.high, [3], none⟩]⟩

def sampleWorld : World := ⟨[sampleRow], [], fun _ => []⟩

lemma sampleWorld_initial : World.Initial sampleWorld := by
  refine ⟨?_, rfl, fun _ => rfl⟩
  simp [sampleWorld]

/-- From the claim to the flip. -/
def untilFlip (t : ℕ) : List Label :=
  [.readPolicy t (some samplePolicy) .done, .readDestinations t [3] .done,
    .readIssue t (some ⟨7, "TypeError", "api"⟩) .done, .flip t .done]

/-- The dispatch that delivers to its destination, and the updates after it. -/
def untilSent (t : ℕ) : List Label :=
  [.dispatch t, .report t (some fun _ => some true) (fun _ => true), .record t .done,
    .settle t .done]

/-- One tick pages the destination of the row. -/
theorem escalation_pages_at_most_once_sample :
    ∃ w, runSteps World.step sampleWorld ([.begin, .claim 0 9 .done] ++ untilFlip 0 ++ untilSent 0)
        = some w ∧ ((w.dispatches 1).map fun d => d.result.map DispatchResult.delivered) = [some 1] ∧
      PagedAtMostOnce (w.dispatches 1) := by
  have hbegun : ReachWhen World.step ClaimsUnclaimed World.Initial sampleWorld.begin :=
    .next (.start sampleWorld_initial) (l := .begin) trivial rfl
  have hclaimed := ReachWhen.next hbegun
    (show ClaimsUnclaimed sampleWorld.begin (.claim 0 9 .done) by
      intro row _ _ t' c hc
      rcases t' with _ | t'
      · cases hc
      · cases hc) rfl
  have hls : ∀ l ∈ untilFlip 0 ++ untilSent 0, ∀ s, ClaimsUnclaimed s l := by
    intro l hl s
    simp only [untilFlip, untilSent, List.cons_append, List.nil_append, List.mem_cons,
      List.not_mem_nil, or_false] at hl
    rcases hl with rfl | rfl | rfl | rfl | rfl | rfl | rfl | rfl <;> trivial
  have hrun := reachWhen_runSteps hclaimed hls rfl
  exact ⟨_, rfl, rfl, escalation_pages_at_most_once hrun 1⟩

/-- The second tick reads the queue between the first one's claim and its flip. -/
def overlapping : List Label :=
  [.begin, .claim 0 9 .done, .begin, .claim 1 9 .done] ++ untilFlip 0 ++ untilFlip 1 ++
    untilSent 0 ++ untilSent 1

/-- Both ticks page the destination. -/
theorem escalation_pages_twice :
    ¬ ∀ (w : World) (id : ℕ), Reach World.step World.Initial w →
      PagedAtMostOnce (w.dispatches id) := by
  intro hall
  obtain ⟨w, hw, hresults⟩ : ∃ w, runSteps World.step sampleWorld overlapping = some w ∧
      ((w.dispatches 1).map fun d => d.result.map DispatchResult.delivered) = [some 1, some 1] :=
    ⟨_, rfl, rfl⟩
  have hpaged := hall w 1 (reachWhen_runWhen (.start sampleWorld_initial) hw)
  have hfruitless := hpaged.fruitless
  generalize w.dispatches 1 = ds at hresults hfruitless
  rcases ds with _ | ⟨d, _ | ⟨d', rest⟩⟩
  · simp at hresults
  · simp at hresults
  · have hfirst := (List.cons.inj hresults).1
    have hnone := (List.pairwise_cons.mp hfruitless).1 d' (by simp)
    exact absurd (hfirst.symm.trans hnone) (by decide)

end Maple.Escalation
