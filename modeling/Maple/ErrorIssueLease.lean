import Maple.ErrorIssues
import Maple.ReadCommittedVersions

/-! Who may change the lease of an issue: what each update of each call does to it. -/

namespace Maple.Errors
open ReadCommitted WorkflowState

def ErrorIssueRow.expired (now : ℤ) (r : ErrorIssueRow) : Prop := ∃ e ∈ r.leaseExpiresAt, e < now

/-- The row is still held as the call read it: by its actor, by nobody for a release, and by nobody
who has renewed for the sweep. -/
def Finds (now : ℤ) (lease : Option LeaseWrite) (r : ErrorIssueRow) : Prop :=
  match lease with
  | some (.renew a) => r.leaseHolderActorId = some a
  | some (.release a) => r.leaseHolderActorId = none ∨ r.leaseHolderActorId = some a
  | some .expire => r.leaseExpiresAt = none ∨ r.expired now
  | some (.acquire _) => True
  | none => True

/-- What an update does to the lease of an issue. -/
inductive LeaseStep (now : ℤ) : Option LeaseWrite → ErrorIssueRow → ErrorIssueRow → Prop
  | keeps {r r' : ErrorIssueRow} (hholder : r'.leaseHolderActorId = r.leaseHolderActorId)
      (hexpiry : r'.leaseExpiresAt = r.leaseExpiresAt) : LeaseStep now none r r'
  | closes {r r' : ErrorIssueRow} (hclosed : r'.workflowState ∈ CLOSED_WORKFLOW_STATES)
      (hholder : r'.leaseHolderActorId = none) (hexpiry : r'.leaseExpiresAt = none) :
      LeaseStep now none r r'
  | acquires {a : ActorId} {r r' : ErrorIssueRow}
      (hfree : r.leaseHolderActorId = none ∨ r.leaseHolderActorId = some a ∨ r.expired now)
      (hholder : r'.leaseHolderActorId = some a) (hexpiry : r'.leaseExpiresAt.isSome) :
      LeaseStep now (some (.acquire a)) r r'
  | renews {a : ActorId} {r r' : ErrorIssueRow} (hheld : r.leaseHolderActorId = some a)
      (hholder : r'.leaseHolderActorId = some a) (hexpiry : r'.leaseExpiresAt.isSome) :
      LeaseStep now (some (.renew a)) r r'
  | releases {a : ActorId} {r r' : ErrorIssueRow}
      (hheld : r.leaseHolderActorId = none ∨ r.leaseHolderActorId = some a)
      (hholder : r'.leaseHolderActorId = none) (hexpiry : r'.leaseExpiresAt = none) :
      LeaseStep now (some (.release a)) r r'
  | expires {r r' : ErrorIssueRow} (hlapsed : r.leaseExpiresAt = none ∨ r.expired now)
      (hholder : r'.leaseHolderActorId = none) (hexpiry : r'.leaseExpiresAt = none) :
      LeaseStep now (some .expire) r r'

/-- An update of an issue that finds it as it was read respects its lease; no other update touches
a lease, and no insert makes an issue. -/
def leaseRule : RowRule Row LeaseWrite where
  update now lease row new :=
    match row, new with
    | .issue r, some (.issue r') => Finds now lease r → LeaseStep now lease r r'
    | .issue _, _ => False
    | _, some (.issue _) => False
    | _, _ => lease = none
  insert row := ∀ r, row ≠ .issue r

lemma lease_eq_none {now : ℤ} {lease : Option LeaseWrite} {row : Row} {new : Option Row}
    (h : leaseRule.update now lease row new) (hrow : ∀ r, row ≠ .issue r) : lease = none := by
  cases row with
  | issue r => exact absurd rfl (hrow r)
  | incident _ => cases new with
    | none => exact h
    | some row => cases row <;> first | exact h | exact h.elim
  | issueState _ => cases new with
    | none => exact h
    | some row => cases row <;> first | exact h | exact h.elim
  | event _ => cases new with
    | none => exact h
    | some row => cases row <;> first | exact h | exact h.elim

/-! ### Programs -/

def Keeps {A : Type} (x : Effect A) (now : ℤ) : Prop :=
  Program.Writes leaseRule x.run (fun _ _ => True) now

section Rules

variable {A B : Type} {now : ℤ}

lemma keeps_statements {p : Statements A} (h : p.Writes leaseRule (fun _ _ => True) now) :
    Keeps (liftM p : Effect A) now := by
  change Program.Writes leaseRule
    (p >>= fun a => (pure (Except.ok a) : Statements (Except ErrorsError A))) _ now
  exact Program.Writes.bind (h.mono fun a n _ _ m _ => trivial)

lemma keeps_pure (a : A) : Keeps (pure a) now := fun _ _ => trivial

lemma keeps_throw (error : ErrorsError) : Keeps (throw error : Effect A) now := fun _ _ => trivial

lemma keeps_bind {x : Effect A} {f : A → Effect B} (hx : Keeps x now)
    (hf : ∀ a n, now ≤ n → Keeps (f a) n) : Keeps (x >>= f) now := by
  change Program.Writes leaseRule (x.run >>= ExceptT.bindCont f) _ now
  apply Program.Writes.bind
  refine Program.Writes.mono hx ?_
  intro result n hn _
  cases result with
  | ok a => exact hf a n hn
  | error error => exact fun _ _ => trivial

lemma keeps_discard {x : Effect A} (hx : Keeps x now) : Keeps (discard x) now :=
  keeps_bind hx fun _ _ _ => keeps_pure _

lemma keeps_catch {x : Effect A} {handle : ErrorsError → Effect A} (hx : Keeps x now)
    (hf : ∀ error n, now ≤ n → Keeps (handle error) n) : Keeps (tryCatch x handle) now := by
  apply Program.Writes.bind
  refine Program.Writes.mono hx ?_
  intro result n hn _
  cases result with
  | ok a => exact fun _ _ => trivial
  | error error => exact hf error n hn

lemma keeps_clock {f : ℤ → Effect A} (hf : ∀ timestamp n, timestamp ≤ n → Keeps (f timestamp) n) :
    Keeps (liftM currentTimeMillis >>= f) now := by
  change Program.Writes leaseRule (.clock fun n => ExceptT.bindCont f (Except.ok n)) _ now
  intro n hn
  exact hf n n le_rfl

end Rules

section Statements

variable {now : ℤ} {lease : Option LeaseWrite} {write : Row → Option (Option Row)}

lemma setIssue_rule {f : ErrorIssueRow → Option ErrorIssueRow}
    (h : ∀ n r r', now ≤ n → f r = some r' → Finds n lease r → LeaseStep n lease r r') :
    ∀ n row new, now ≤ n → setIssue f row = some new → leaseRule.update n lease row new := by
  intro n row new hn hwrite
  cases row with
  | issue r =>
    obtain ⟨r', hr', rfl⟩ := Option.map_eq_some_iff.mp hwrite
    exact h n r r' hn hr'
  | incident r => simp [setIssue] at hwrite
  | issueState r => simp [setIssue] at hwrite
  | event r => simp [setIssue] at hwrite

lemma setIncident_rule (f : ErrorIncidentRow → Option ErrorIncidentRow) :
    ∀ n row new, now ≤ n → setIncident f row = some new → leaseRule.update n none row new := by
  intro n row new hn hwrite
  cases row with
  | incident r =>
    obtain ⟨r', -, rfl⟩ := Option.map_eq_some_iff.mp hwrite
    rfl
  | issue r => simp [setIncident] at hwrite
  | issueState r => simp [setIncident] at hwrite
  | event r => simp [setIncident] at hwrite

lemma setIssueState_rule (f : ErrorIssueStateRow → Option ErrorIssueStateRow) :
    ∀ n row new, now ≤ n → setIssueState f row = some new → leaseRule.update n none row new := by
  intro n row new hn hwrite
  cases row with
  | issueState r =>
    obtain ⟨r', -, rfl⟩ := Option.map_eq_some_iff.mp hwrite
    rfl
  | issue r => simp [setIssueState] at hwrite
  | incident r => simp [setIssueState] at hwrite
  | event r => simp [setIssueState] at hwrite

lemma keeps_updateRows
    (h : ∀ n row new, now ≤ n → write row = some new → leaseRule.update n lease row new) :
    Keeps (liftM (updateRows write lease)) now :=
  keeps_statements ⟨h, fun _ _ _ => trivial⟩

lemma keeps_executeUpdate
    (h : ∀ n row new, now ≤ n → write row = some new → leaseRule.update n lease row new) :
    Keeps (liftM (executeUpdate write lease)) now :=
  keeps_statements ⟨h, fun _ _ _ => trivial⟩

lemma keeps_selectIssues (p : ErrorIssueRow → Bool) : Keeps (liftM (selectIssues p)) now :=
  keeps_statements fun _ _ _ => trivial

lemma keeps_newEventId : Keeps (liftM newEventId) now := keeps_statements fun _ _ _ => trivial

lemma keeps_beginTransaction : Keeps (liftM beginTransaction) now :=
  keeps_statements fun _ _ => trivial

lemma keeps_commitTransaction : Keeps (liftM commitTransaction) now :=
  keeps_statements fun _ _ => trivial

lemma keeps_insertEvent (row : ErrorIssueEventRow) : Keeps (liftM (insertEvent row)) now :=
  keeps_statements ⟨by simp [leaseRule], fun _ _ => trivial⟩

lemma keeps_requireIssue (orgId : OrgId) (issueId : ErrorIssueId) :
    Keeps (requireIssue orgId issueId) now := by
  refine keeps_bind (keeps_selectIssues _) ?_
  intro rows n hn
  split
  · exact keeps_throw _
  · exact keeps_pure _

lemma keeps_recordEvent (orgId : OrgId) (issueId : ErrorIssueId) (actorId : Option ActorId)
    (type : ErrorIssueEventType) (timestamp : ℤ) (opts : EventOptions) :
    Keeps (recordEvent orgId issueId actorId type timestamp opts) now := by
  refine keeps_bind keeps_newEventId ?_
  intro id n hn
  refine keeps_bind (keeps_insertEvent _) ?_
  intro _ n hn
  exact keeps_commitTransaction

lemma keeps_except {A : Type} (result : Except ErrorsError A) : Keeps (liftM result) now := by
  cases result with
  | ok a => exact fun _ _ => trivial
  | error error => exact fun _ _ => trivial

lemma keeps_resolveIncidents (orgId : OrgId) (issueId : ErrorIssueId) (timestamp : ℤ) :
    Keeps (liftM (resolveIncidents orgId issueId timestamp)) now :=
  keeps_statements ⟨setIncident_rule _, fun _ => ⟨setIssueState_rule _, fun _ _ _ => trivial⟩⟩

/-- A transition leaves the lease, ends it with the work, or renews the one it found. -/
lemma transitioned_step {n : ℤ} (actorId : Option ActorId) (row : ErrorIssueRow)
    (toState : WorkflowState) (snoozeUntilMs : Option (Option ℤ)) (timestamp : ℤ)
    (r : ErrorIssueRow) (hfinds : Finds n (transitionLease actorId row toState) r) :
    LeaseStep n (transitionLease actorId row toState) r
      (transitioned actorId row toState snoozeUntilMs timestamp r) := by
  have hlease : ∀ current : ErrorIssueRow, current.workflowState = toState →
      current.leaseHolderActorId = r.leaseHolderActorId →
      current.leaseExpiresAt = r.leaseExpiresAt → LeaseStep n (transitionLease actorId row toState)
        r (if toState ∈ CLOSED_WORKFLOW_STATES then
          { current with leaseHolderActorId := none, leaseExpiresAt := none, claimedAt := none }
        else if refreshesLease actorId row then
          { current with leaseExpiresAt := some (renewedExpiry row timestamp) }
        else current) := by
    intro current hstate hholder hexpiry
    by_cases hclosed : toState ∈ CLOSED_WORKFLOW_STATES
    · have hnone : transitionLease actorId row toState = none := by
        simp [transitionLease, hclosed]
      rw [if_pos hclosed, hnone]
      exact .closes (hstate ▸ hclosed) rfl rfl
    · rw [if_neg hclosed]
      by_cases hrefresh : refreshesLease actorId row
      · obtain ⟨a, rfl⟩ := Option.ne_none_iff_exists'.mp hrefresh.1
        have hrenew : transitionLease (some a) row toState = some (.renew a) := by
          simp [transitionLease, hclosed, hrefresh]
        rw [hrenew] at hfinds ⊢
        rw [if_pos hrefresh]
        exact .renews hfinds (hholder.trans hfinds) rfl
      · have hnone : transitionLease actorId row toState = none := by
          simp [transitionLease, hrefresh]
        rw [if_neg hrefresh, hnone]
        exact .keeps hholder hexpiry
  unfold transitioned
  dsimp only
  apply hlease
  · repeat' split
    all_goals rfl
  · repeat' split
    all_goals rfl
  · repeat' split
    all_goals rfl

lemma keeps_applyTransition (orgId : OrgId) (actorId : Option ActorId) (row : ErrorIssueRow)
    (toState : WorkflowState) (timestamp : ℤ) (opts : TransitionOptions) :
    Keeps (applyTransition orgId actorId row toState timestamp opts) now := by
  unfold applyTransition
  dsimp only
  split
  · exact keeps_pure _
  · refine keeps_bind ?_ ?_
    · exact keeps_except _
    · intro _ n hn
      refine keeps_bind keeps_newEventId ?_
      intro id n hn
      refine keeps_bind keeps_beginTransaction ?_
      intro _ n hn
      refine keeps_bind (keeps_updateRows (setIssue_rule ?_)) ?_
      · intro m r r' hm hr' hfinds
        split at hr'
        · obtain rfl := Option.some.inj hr'
          exact transitioned_step _ _ _ _ _ _ hfinds
        · cases hr'
      · intro rows n hn
        have hrest : ∀ n, Keeps (do
            liftM (insertEvent (buildEventInsert id orgId row.id actorId .state_change timestamp
              { fromState := some row.workflowState, toState := some toState,
                payload := opts.payload ++ (opts.note.map fun note => ("note", note)).toList }))
            liftM commitTransaction
            requireIssue orgId row.id) n := by
          intro n
          refine keeps_bind (keeps_insertEvent _) ?_
          intro _ n hn
          refine keeps_bind keeps_commitTransaction ?_
          intro _ n hn
          exact keeps_requireIssue orgId row.id
        split
        · exact keeps_bind (keeps_resolveIncidents _ _ _) fun _ n _ => hrest n
        · exact hrest n

lemma keeps_acquireLease (orgId : OrgId) (actorId : ActorId) (issueId : ErrorIssueId)
    (leaseMs : ℤ) {timestamp : ℤ} (htimestamp : timestamp ≤ now) :
    Keeps (acquireLease orgId actorId issueId leaseMs timestamp) now := by
  refine keeps_bind (keeps_executeUpdate (setIssue_rule ?_)) ?_
  · intro n r r' hn hr' _
    split at hr'
    · rename_i hmatches
      obtain rfl := Option.some.inj hr'
      obtain ⟨-, -, hfree⟩ := hmatches
      refine .acquires (hfree.imp_right (Or.imp_right ?_)) rfl rfl
      intro ⟨e, he, hlt⟩
      exact ⟨e, he, by omega⟩
    · cases hr'
  · intro claimed n hn
    split
    · exact keeps_bind (keeps_selectIssues _) fun _ _ _ => keeps_throw _
    · exact keeps_pure _

lemma keeps_claimIssue (orgId : OrgId) (actorId : ActorId) (issueId : ErrorIssueId)
    (leaseDurationMs : Option ℤ) : Keeps (claimIssue orgId actorId issueId leaseDurationMs) now := by
  refine keeps_clock ?_
  intro timestamp n htimestamp
  refine keeps_bind (keeps_requireIssue _ _) ?_
  intro current n hn
  split
  · exact keeps_throw _
  · refine keeps_bind (keeps_acquireLease _ _ _ _ (htimestamp.trans hn)) ?_
    intro claimed n hn
    dsimp only
    split
    · exact keeps_applyTransition _ _ _ _ _ _
    · exact keeps_bind (keeps_recordEvent _ _ _ _ _ _) fun _ _ _ => keeps_pure _

lemma keeps_walkRoute (orgId : OrgId) (actorId : ActorId) (timestamp : ℤ)
    (route : List WorkflowState) (row : ErrorIssueRow) :
    Keeps (walkRoute orgId actorId timestamp row route) now := by
  induction route generalizing row now with
  | nil => exact keeps_pure _
  | cons hop route ih => exact keeps_bind (keeps_applyTransition _ _ _ _ _ _) fun next _ _ => ih next

lemma keeps_proposeFix (isPullRequestUrl : String → Bool) (orgId : OrgId) (actorId : ActorId)
    (issueId : ErrorIssueId) (request : FixRequest) :
    Keeps (proposeFix isPullRequestUrl orgId actorId issueId request) now := by
  refine keeps_clock ?_
  intro timestamp n htimestamp
  refine keeps_bind (keeps_requireIssue _ _) ?_
  intro current n hn
  refine keeps_bind (keeps_except _) ?_
  intro _ n' hn'
  refine keeps_bind (keeps_acquireLease _ _ _ _ ((htimestamp.trans hn).trans hn')) ?_
  intro claimed n hn
  dsimp only
  split
  · refine keeps_bind (keeps_recordEvent _ _ _ _ _ _) ?_
    intro _ n hn
    exact keeps_bind (keeps_recordEvent _ _ _ _ _ _) fun _ _ _ => keeps_walkRoute _ _ _ _ _
  · exact keeps_bind (keeps_recordEvent _ _ _ _ _ _) fun _ _ _ => keeps_walkRoute _ _ _ _ _

lemma keeps_claimOnTransition (orgId : OrgId) (actorId : ActorId) (current : ErrorIssueRow)
    {timestamp : ℤ} (htimestamp : timestamp ≤ now) :
    Keeps (claimOnTransition orgId actorId current timestamp) now := by
  refine keeps_catch (keeps_bind (keeps_acquireLease _ _ _ _ htimestamp) ?_) ?_
  · intro claimed n hn
    dsimp only
    split
    · exact keeps_recordEvent _ _ _ _ _ _
    · exact keeps_pure _
  · intro error n hn
    split
    · exact keeps_pure _
    · exact keeps_throw _

lemma keeps_transitionIssue (orgId : OrgId) (actorId : ActorId) (issueId : ErrorIssueId)
    (toState : WorkflowState) (note : Option String) (snoozeUntil : Snooze) :
    Keeps (transitionIssue orgId actorId issueId toState note snoozeUntil) now := by
  refine keeps_clock ?_
  intro timestamp n htimestamp
  refine keeps_bind (keeps_requireIssue _ _) ?_
  intro current n hn
  refine keeps_bind (keeps_except _) ?_
  intro snoozeUntilMs n' hn'
  split
  · have htime := (htimestamp.trans hn).trans hn'
    exact keeps_bind (keeps_claimOnTransition _ _ _ htime) fun _ _ _ =>
      keeps_applyTransition _ _ _ _ _ _
  · exact keeps_applyTransition _ _ _ _ _ _

lemma keeps_heartbeatIssue (orgId : OrgId) (actorId : ActorId) (issueId : ErrorIssueId) :
    Keeps (heartbeatIssue orgId actorId issueId) now := by
  refine keeps_clock ?_
  intro timestamp n htimestamp
  refine keeps_bind (keeps_requireIssue _ _) ?_
  intro current n hn
  split
  · exact keeps_throw _
  · refine keeps_bind (keeps_executeUpdate (setIssue_rule ?_)) fun _ _ _ => keeps_requireIssue _ _
    intro n r r' hn hr' hfinds
    split at hr'
    · obtain rfl := Option.some.inj hr'
      exact .renews hfinds hfinds rfl
    · cases hr'

lemma keeps_refreshLeaseIfHolder (orgId : OrgId) (actorId : ActorId) (issueId : ErrorIssueId)
    (current : ErrorIssueRow) (timestamp : ℤ) :
    Keeps (refreshLeaseIfHolder orgId actorId issueId current timestamp) now := by
  unfold refreshLeaseIfHolder
  split
  · exact keeps_pure _
  · refine keeps_bind (keeps_executeUpdate (setIssue_rule ?_)) fun _ _ _ => keeps_pure _
    intro n r r' hn hr' hfinds
    split at hr'
    · obtain rfl := Option.some.inj hr'
      exact .renews hfinds hfinds rfl
    · cases hr'

lemma keeps_releaseIssue (orgId : OrgId) (actorId : ActorId) (issueId : ErrorIssueId)
    (transitionTo : Option WorkflowState) (note : Option String) :
    Keeps (releaseIssue orgId actorId issueId transitionTo note) now := by
  refine keeps_clock ?_
  intro timestamp n htimestamp
  refine keeps_bind (keeps_requireIssue _ _) ?_
  intro current n hn
  dsimp only
  split
  · exact keeps_throw _
  · refine keeps_bind (keeps_executeUpdate (setIssue_rule ?_)) ?_
    · intro n r r' hn hr' hfinds
      split at hr'
      · obtain rfl := Option.some.inj hr'
        exact .releases hfinds rfl rfl
      · cases hr'
    · intro _ n hn
      refine keeps_bind (keeps_recordEvent _ _ _ _ _ _) ?_
      intro _ n hn
      refine keeps_bind (keeps_requireIssue _ _) ?_
      intro next n hn
      split
      · exact keeps_applyTransition _ _ _ _ _ _
      · exact keeps_pure _

lemma keeps_setSeverity (orgId : OrgId) (actorId : ActorId) (issueId : ErrorIssueId)
    (severity : Option IssueSeverity) (source : IssueSeveritySource) (note : Option String) :
    Keeps (setSeverity orgId actorId issueId severity source note) now := by
  refine keeps_clock ?_
  intro timestamp n htimestamp
  refine keeps_bind (keeps_requireIssue _ _) ?_
  intro current n hn
  split
  · exact keeps_pure _
  · refine keeps_bind (keeps_refreshLeaseIfHolder _ _ _ _ _) ?_
    intro _ n hn
    dsimp only
    split
    · exact keeps_pure _
    · refine keeps_bind keeps_newEventId ?_
      intro id n hn
      refine keeps_bind keeps_beginTransaction ?_
      intro _ n hn
      refine keeps_bind (keeps_updateRows (setIssue_rule ?_)) ?_
      · intro n r r' hn hr' hfinds
        split at hr'
        · obtain rfl := Option.some.inj hr'
          exact .keeps rfl rfl
        · cases hr'
      · intro _ n hn
        have hrest : ∀ n, Keeps (do
            liftM commitTransaction
            requireIssue orgId issueId) n := fun n =>
          keeps_bind keeps_commitTransaction fun _ _ _ => keeps_requireIssue orgId issueId
        split
        · exact keeps_bind (keeps_insertEvent _) fun _ n _ => hrest n
        · exact hrest n

lemma keeps_commentOnIssue (orgId : OrgId) (actorId : ActorId) (issueId : ErrorIssueId)
    (body : String) (kind : CommentKind) (visibility : Option String) :
    Keeps (commentOnIssue orgId actorId issueId body kind visibility) now := by
  refine keeps_clock ?_
  intro timestamp n htimestamp
  refine keeps_bind (keeps_requireIssue _ _) ?_
  intro current n hn
  refine keeps_bind (keeps_refreshLeaseIfHolder _ _ _ _ _) ?_
  intro _ n hn
  refine keeps_bind keeps_newEventId ?_
  intro id n hn
  refine keeps_bind (keeps_insertEvent _) ?_
  intro _ n hn
  exact keeps_bind keeps_commitTransaction fun _ _ _ => keeps_pure _

lemma keeps_expireLease (orgId : OrgId) (nowMs : ℤ) (systemActorId : ActorId)
    (row : ErrorIssueRow) : Keeps (expireLease orgId nowMs systemActorId row) now := by
  refine keeps_bind (keeps_executeUpdate (setIssue_rule ?_)) ?_
  · intro n r r' hn hr' hfinds
    split at hr'
    · obtain rfl := Option.some.inj hr'
      exact .expires hfinds rfl rfl
    · cases hr'
  · intro _ n hn
    refine keeps_bind (keeps_recordEvent _ _ _ _ _ _) ?_
    intro _ n hn
    split
    · refine keeps_bind (keeps_requireIssue _ _) ?_
      intro refreshed n hn
      exact keeps_bind (keeps_applyTransition _ _ _ _ _ _) fun _ _ _ => keeps_pure _
    · exact keeps_pure _

lemma keeps_expireEach (orgId : OrgId) (nowMs : ℤ) (systemActorId : ActorId)
    (expired : List ErrorIssueRow) : Keeps (expireEach orgId nowMs systemActorId expired) now := by
  induction expired generalizing now with
  | nil => exact keeps_pure _
  | cons row expired ih => exact keeps_bind (keeps_expireLease _ _ _ _) fun _ _ _ => ih

lemma keeps_expireLeasesForOrg (orgId : OrgId) (systemActorId : ActorId) :
    Keeps (expireLeasesForOrg orgId systemActorId) now := by
  refine keeps_clock ?_
  intro nowMs n hn
  exact keeps_bind (keeps_selectIssues _) fun expired _ _ => keeps_expireEach _ _ _ _

/-- Every update of every call respects the leases it finds as they were read. -/
lemma keeps_serve (isPullRequestUrl : String → Bool) (call : Call) :
    Keeps (serve isPullRequestUrl call) now := by
  cases call with
  | transitionIssue => exact keeps_discard (keeps_transitionIssue _ _ _ _ _ _)
  | claimIssue => exact keeps_discard (keeps_claimIssue _ _ _ _)
  | proposeFix => exact keeps_discard (keeps_proposeFix _ _ _ _ _)
  | heartbeatIssue => exact keeps_discard (keeps_heartbeatIssue _ _ _)
  | releaseIssue => exact keeps_discard (keeps_releaseIssue _ _ _ _ _)
  | setSeverity => exact keeps_discard (keeps_setSeverity _ _ _ _ _ _)
  | commentOnIssue => exact keeps_discard (keeps_commentOnIssue _ _ _ _ _ _)
  | expireLeases => exact keeps_expireLeasesForOrg _ _

end Statements

end Maple.Errors
