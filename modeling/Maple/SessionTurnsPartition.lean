import Maple.SessionTurnsAnchors
import Mathlib.Data.List.Perm.Basic

/-! The turns of a session partition its spans. The spans of a turn are in start order where no
setup has a span that starts after one of the turn it joins. -/

namespace Maple.AgentSessions

variable {spans : List AiSessionSpan} {anchors : List TurnAnchor}

/-! ### Assigned turns -/

lemma advance_length (startMs : ℚ) (starts : List ℚ) (cursor : ℕ) :
    (advance startMs cursor starts).1 + (advance startMs cursor starts).2.length =
      cursor + starts.length := by
  induction starts generalizing cursor with
  | nil => rfl
  | cons next starts ih =>
    unfold advance
    split_ifs
    · rw [ih, List.length_cons]
      omega
    · rfl

/-- Every span is in a turn there is, and in the one it names if it names one. -/
structure Assigned (spans : List AiSessionSpan) (anchors : List TurnAnchor)
    (ordered : List AiSessionSpan) (assigned : List (AiSessionSpan × ℕ)) : Prop where
  each : assigned.map Prod.fst = ordered
  bound : ∀ entry ∈ assigned, entry.2 < anchors.length
  owned : ∀ entry ∈ assigned, ∀ turn, ownTurn spans anchors entry.1 = some turn → entry.2 = turn

lemma assignTurns_spec (hnodup : (spans.map AiSessionSpan.spanId).Nodup)
    (ordered : List AiSessionSpan) (hsub : ordered ⊆ spans) {memo : Memo}
    (hok : MemoOk spans (ownTurn spans anchors) anchors.length memo) {cursor : ℕ} {starts : List ℚ}
    (hcursor : cursor + starts.length + 1 = anchors.length) :
    ∃ assigned, assignTurns (turnResolver spans anchors) memo cursor starts ordered =
      some assigned ∧ Assigned spans anchors ordered assigned := by
  induction ordered generalizing memo cursor starts with
  | nil => exact ⟨[], rfl, rfl, by simp, by simp⟩
  | cons span ordered ih =>
    obtain ⟨hspan, hrest⟩ := List.cons_subset.mp hsub
    obtain ⟨memo', turn, hturn, hresolved⟩ := turnResolver_spec hnodup hspan hok
    have hmoved := advance_length span.spanStartMs starts cursor
    obtain ⟨assigned, hassigned, hrec⟩ := @ih hrest memo' hresolved.memo
      (advance span.spanStartMs cursor starts).1 (advance span.spanStartMs cursor starts).2
      (by omega)
    unfold assignTurns
    dsimp only
    rw [hturn]
    dsimp only
    rw [hassigned]
    refine ⟨_, rfl, by simp [hrec.each], ?_, ?_⟩
    · intro entry hentry
      rcases List.mem_cons.mp hentry with rfl | hentry
      · cases turn with
        | none =>
          dsimp only [Option.getD_none]
          omega
        | some turn => exact hresolved.bound turn rfl
      · exact hrec.bound entry hentry
    · intro entry hentry named hnamed
      rcases List.mem_cons.mp hentry with rfl | hentry
      · dsimp only at hnamed ⊢
        rw [hresolved.owned named hnamed]
        rfl
      · exact hrec.owned entry hentry named hnamed

/-! ### Buckets -/

lemma pushSpan_length (buckets : List (List AiSessionSpan)) (entry : AiSessionSpan × ℕ) :
    (pushSpan buckets entry).length = buckets.length :=
  List.length_modify ..

lemma foldl_pushSpan_length (assigned : List (AiSessionSpan × ℕ))
    (buckets : List (List AiSessionSpan)) :
    (assigned.foldl pushSpan buckets).length = buckets.length := by
  induction assigned generalizing buckets with
  | nil => rfl
  | cons entry assigned ih => rw [List.foldl_cons, ih, pushSpan_length]

/-- A bucket gets the spans that were assigned to its turn, in their order. -/
lemma foldl_pushSpan_getElem? (assigned : List (AiSessionSpan × ℕ))
    (buckets : List (List AiSessionSpan)) (turn : ℕ) :
    (assigned.foldl pushSpan buckets)[turn]? = buckets[turn]?.map fun bucket =>
      bucket ++ (assigned.filter fun entry => entry.2 = turn).map Prod.fst := by
  induction assigned generalizing buckets with
  | nil => simp
  | cons entry assigned ih =>
    rw [List.foldl_cons, ih, pushSpan, List.getElem?_modify]
    by_cases hturn : entry.2 = turn
    · simp [hturn, Function.comp_def]
    · simp [hturn]

lemma modify_flatten_perm {α : Type} (item : α) (buckets : List (List α)) (k : ℕ)
    (hk : k < buckets.length) :
    ((buckets.modify k (· ++ [item])).flatten).Perm (item :: buckets.flatten) := by
  induction buckets generalizing k with
  | nil => cases hk
  | cons bucket buckets ih =>
    cases k with
    | zero =>
      rw [List.modify_zero_cons, List.flatten_cons, List.flatten_cons]
      exact ((List.perm_append_singleton item bucket).append_right buckets.flatten)
    | succ k =>
      rw [List.modify_succ_cons, List.flatten_cons, List.flatten_cons]
      have hrec := ih k (by simpa using hk)
      exact (hrec.append_left bucket).trans List.perm_middle

/-- Every span that was assigned is in one bucket, once. -/
lemma foldl_pushSpan_flatten (assigned : List (AiSessionSpan × ℕ))
    (buckets : List (List AiSessionSpan))
    (hbound : ∀ entry ∈ assigned, entry.2 < buckets.length) :
    ((assigned.foldl pushSpan buckets).flatten).Perm
      (assigned.map Prod.fst ++ buckets.flatten) := by
  induction assigned generalizing buckets with
  | nil => exact List.Perm.refl _
  | cons entry assigned ih =>
    rw [List.foldl_cons]
    have hrec := ih (pushSpan buckets entry) (by
      intro later hlater
      rw [pushSpan_length]
      exact hbound later (List.mem_cons_of_mem _ hlater))
    have hpush := modify_flatten_perm entry.1 buckets entry.2 (hbound entry List.mem_cons_self)
    refine hrec.trans ((hpush.append_left _).trans ?_)
    exact List.perm_middle

/-! ### Setups -/

/-- Each setup that joins a turn has started by the time a span of that turn does. -/
def JoinsInOrder (host : Host) : List AiSessionSpan → List (List AiSessionSpan) → Prop
  | _, [] => True
  | bucket, next :: rest =>
    if isSetup host bucket next then
      (∀ a ∈ bucket, ∀ b ∈ next, a.spanStartMs ≤ b.spanStartMs) ∧
        JoinsInOrder host (bucket ++ next) rest
    else JoinsInOrder host next rest

instance JoinsInOrder.decidable (host : Host) (bucket : List AiSessionSpan) :
    (rest : List (List AiSessionSpan)) → Decidable (JoinsInOrder host bucket rest)
  | [] => .isTrue trivial
  | next :: rest =>
    have := JoinsInOrder.decidable host (bucket ++ next) rest
    have := JoinsInOrder.decidable host next rest
    inferInstanceAs (Decidable (if isSetup host bucket next then
      (∀ a ∈ bucket, ∀ b ∈ next, a.spanStartMs ≤ b.spanStartMs) ∧
        JoinsInOrder host (bucket ++ next) rest
    else JoinsInOrder host next rest))

def InStartOrder (spans : List AiSessionSpan) : Prop :=
  spans.Pairwise fun a b => a.spanStartMs ≤ b.spanStartMs

variable {host : Host}

lemma joinSetups_length (host : Host) (bucket : List AiSessionSpan)
    (rest : List (List AiSessionSpan)) :
    (joinSetups host bucket rest).length = rest.length + 1 := by
  induction rest generalizing bucket with
  | nil => rfl
  | cons next rest ih =>
    unfold joinSetups
    split_ifs <;> simp [ih]

lemma joinSetups_flatten (host : Host) (bucket : List AiSessionSpan)
    (rest : List (List AiSessionSpan)) :
    (joinSetups host bucket rest).flatten = bucket ++ rest.flatten := by
  induction rest generalizing bucket with
  | nil => simp [joinSetups]
  | cons next rest ih =>
    unfold joinSetups
    split_ifs
    · simp [ih]
    · simp [ih]

/-- What is left at a turn is nothing, or all it had and what joined it. -/
lemma joinSetups_keeps (host : Host) (bucket : List AiSessionSpan)
    (rest : List (List AiSessionSpan)) (turn : ℕ) (kept : List AiSessionSpan)
    (hkept : (joinSetups host bucket rest)[turn]? = some kept) (hne : kept ≠ []) :
    ∃ filled, (bucket :: rest)[turn]? = some filled ∧ filled ⊆ kept := by
  induction rest generalizing bucket turn with
  | nil =>
    unfold joinSetups at hkept
    exact ⟨kept, hkept, List.Subset.refl _⟩
  | cons next rest ih =>
    unfold joinSetups at hkept
    split_ifs at hkept
    · cases turn with
      | zero =>
        rw [List.getElem?_cons_zero] at hkept
        exact absurd (Option.some.inj hkept).symm hne
      | succ turn =>
        rw [List.getElem?_cons_succ] at hkept
        obtain ⟨filled, hfilled, hsub⟩ := ih (bucket ++ next) turn hkept
        cases turn with
        | zero =>
          obtain rfl := Option.some.inj hfilled
          exact ⟨next, rfl, fun span hspan => hsub (List.mem_append_right _ hspan)⟩
        | succ turn => exact ⟨filled, hfilled, hsub⟩
    · cases turn with
      | zero =>
        obtain rfl := Option.some.inj hkept
        exact ⟨bucket, rfl, List.Subset.refl _⟩
      | succ turn =>
        obtain ⟨filled, hfilled, hsub⟩ := ih next turn hkept
        exact ⟨filled, hfilled, hsub⟩

/-- The turn at hand goes on whole into one of the turns that are left. -/
lemma joinSetups_sublist (host : Host) (bucket : List AiSessionSpan)
    (rest : List (List AiSessionSpan)) :
    ∃ kept ∈ joinSetups host bucket rest, bucket.Sublist kept := by
  induction rest generalizing bucket with
  | nil => exact ⟨bucket, by simp [joinSetups], List.Sublist.refl _⟩
  | cons next rest ih =>
    unfold joinSetups
    split_ifs
    · obtain ⟨kept, hkept, hsub⟩ := ih (bucket ++ next)
      exact ⟨kept, List.mem_cons_of_mem _ hkept, (List.sublist_append_left _ _).trans hsub⟩
    · exact ⟨bucket, List.mem_cons_self, List.Sublist.refl _⟩

lemma joinSetups_ordered_iff (bucket : List AiSessionSpan) (rest : List (List AiSessionSpan))
    (hbucket : InStartOrder bucket) (hrest : ∀ next ∈ rest, InStartOrder next) :
    (∀ kept ∈ joinSetups host bucket rest, InStartOrder kept) ↔ JoinsInOrder host bucket rest := by
  induction rest generalizing bucket with
  | nil =>
    constructor
    · exact fun _ => trivial
    · intro _ kept hkept
      rw [List.mem_singleton.mp hkept]
      exact hbucket
  | cons next rest ih =>
    have hnext := hrest next List.mem_cons_self
    have hlater := fun later hlater => hrest later (List.mem_cons_of_mem next hlater)
    unfold joinSetups JoinsInOrder
    split_ifs with hsetup
    · constructor
      · intro hall
        obtain ⟨kept, hkept, hsub⟩ := joinSetups_sublist host (bucket ++ next) rest
        have hjoined : InStartOrder (bucket ++ next) :=
          (hall kept (List.mem_cons_of_mem _ hkept)).sublist hsub
        refine ⟨(List.pairwise_append.mp hjoined).2.2, ?_⟩
        rw [← ih (bucket ++ next) hjoined hlater]
        exact fun kept hkept => hall kept (List.mem_cons_of_mem _ hkept)
      · rintro ⟨hcross, hjoins⟩ kept hkept
        have hjoined : InStartOrder (bucket ++ next) :=
          List.pairwise_append.mpr ⟨hbucket, hnext, hcross⟩
        rcases List.mem_cons.mp hkept with rfl | hkept
        · exact List.Pairwise.nil
        · exact (ih (bucket ++ next) hjoined hlater).mpr hjoins kept hkept
    · rw [List.forall_mem_cons, ih next hnext hlater]
      exact and_iff_right hbucket

/-! ### The buckets of a session -/

lemma inStartOrder_perm (spans : List AiSessionSpan) : (inStartOrder spans).Perm spans :=
  List.perm_insertionSort _ spans

lemma inStartOrder_ordered (spans : List AiSessionSpan) : InStartOrder (inStartOrder spans) := by
  have htotal : Std.Total fun a b : AiSessionSpan => a.spanStartMs ≤ b.spanStartMs :=
    ⟨fun a b => le_total a.spanStartMs b.spanStartMs⟩
  have htrans : IsTrans AiSessionSpan fun a b => a.spanStartMs ≤ b.spanStartMs :=
    ⟨fun _ _ _ => le_trans⟩
  exact List.pairwise_insertionSort _ spans

/-- The buckets before setups join: they hold the spans, each in the turn it names. -/
structure Filled (spans : List AiSessionSpan) (anchors : List TurnAnchor)
    (buckets : List (List AiSessionSpan)) : Prop where
  found : AnchorsOk spans anchors
  length : buckets.length = anchors.length
  perm : buckets.flatten.Perm spans
  ordered : ∀ bucket ∈ buckets, InStartOrder bucket
  owned : ∀ span ∈ spans, ∀ turn, ownTurn spans anchors span = some turn →
    ∀ bucket, buckets[turn]? = some bucket → span ∈ bucket

lemma AnchorsOk.ne_nil (h : AnchorsOk spans anchors) : anchors ≠ [] := by
  cases h with
  | conversation hne | agentRoot hne | trace hne => simpa using hne

lemma filledBuckets_spec (host : Host) (hne : spans ≠ [])
    (hnodup : (spans.map AiSessionSpan.spanId).Nodup) :
    ∃ anchors buckets, filledBuckets host spans = some (anchors, buckets) ∧
      Filled spans anchors buckets := by
  have hperm := inStartOrder_perm spans
  obtain ⟨anchors, hanchors, hok⟩ := findAnchors_spec host hperm hne hnodup
  have hlength : 0 + (anchors.map fun anchor => anchor.span.spanStartMs).tail.length + 1 =
      anchors.length := by
    have hpos := List.length_pos_iff.mpr hok.ne_nil
    rw [List.length_tail, List.length_map]
    omega
  obtain ⟨assigned, hassigned, hspec⟩ := assignTurns_spec hnodup (inStartOrder spans)
    (fun span hspan => hperm.mem_iff.mp hspan) (show MemoOk _ _ _ [] from ⟨by simp, by simp⟩) hlength
  have hbuckets (turn : ℕ) (bucket : List AiSessionSpan)
      (hbucket : (bucketsOf anchors assigned)[turn]? = some bucket) :
      bucket = (assigned.filter fun entry => entry.2 = turn).map Prod.fst := by
    unfold bucketsOf at hbucket
    rw [foldl_pushSpan_getElem?, List.getElem?_map] at hbucket
    obtain ⟨empty, hempty, rfl⟩ := Option.map_eq_some_iff.mp hbucket
    obtain ⟨_, -, rfl⟩ := Option.map_eq_some_iff.mp hempty
    rfl
  refine ⟨anchors, bucketsOf anchors assigned, ?_, hok, ?length, ?perm, ?ordered, ?owned⟩
  · unfold filledBuckets
    dsimp only
    rw [hanchors]
    dsimp only
    rw [hassigned]
    rfl
  case length =>
    unfold bucketsOf
    rw [foldl_pushSpan_length, List.length_map]
  case perm =>
    have hflat := foldl_pushSpan_flatten assigned (anchors.map fun _ => [])
      (by simpa using hspec.bound)
    rw [hspec.each] at hflat
    have hempty : (anchors.map fun _ => ([] : List AiSessionSpan)).flatten = [] := by simp
    rw [hempty, List.append_nil] at hflat
    exact hflat.trans hperm
  case ordered =>
    intro bucket hbucket
    obtain ⟨turn, hturn⟩ := List.mem_iff_getElem?.mp hbucket
    rw [hbuckets turn bucket hturn]
    have hsub : ((assigned.filter fun entry => entry.2 = turn).map Prod.fst).Sublist
        (inStartOrder spans) := by
      rw [← hspec.each]
      exact List.filter_sublist.map _
    exact (inStartOrder_ordered spans).sublist hsub
  case owned =>
    intro span hspan turn hturn bucket hbucket
    rw [hbuckets turn bucket hbucket]
    have hmem : span ∈ assigned.map Prod.fst := by
      rw [hspec.each]
      exact hperm.mem_iff.mpr hspan
    obtain ⟨entry, hentry, rfl⟩ := List.mem_map.mp hmem
    apply List.mem_map_of_mem
    exact List.mem_filter.mpr ⟨hentry, by simpa using hspec.owned entry hentry turn hturn⟩

/-! ### Turns -/

lemma turnsOf_index (host : Host) (anchors : List TurnAnchor)
    (buckets : List (List AiSessionSpan)) :
    (turnsOf host anchors buckets).map SessionTurn.index =
      List.range' 1 (turnsOf host anchors buckets).length := by
  unfold turnsOf
  generalize (anchors.zip buckets).filter _ = entries
  apply List.ext_getElem?
  intro i
  rw [List.getElem?_map, List.getElem?_mapIdx, List.length_mapIdx]
  by_cases hi : i < entries.length
  · rw [List.getElem?_eq_getElem hi, List.getElem?_range' hi]
    simp [sessionTurn, Nat.add_comm]
  · rw [List.getElem?_eq_none (by omega)]
    simp [hi]

lemma filter_nonempty_flatMap {α : Type} (anchors : List α) (buckets : List (List AiSessionSpan))
    (hlength : buckets.length = anchors.length) :
    ((anchors.zip buckets).filter fun entry => !entry.2.isEmpty).flatMap Prod.snd =
      buckets.flatten := by
  induction buckets generalizing anchors with
  | nil => simp
  | cons bucket buckets ih =>
    cases anchors with
    | nil => cases hlength
    | cons anchor anchors =>
      have hrec := ih anchors (by simpa using hlength)
      cases bucket with
      | nil => simpa using hrec
      | cons span bucket => simpa using hrec

lemma turnsOf_spans (host : Host) {anchors : List TurnAnchor}
    {buckets : List (List AiSessionSpan)} (hlength : buckets.length = anchors.length) :
    (turnsOf host anchors buckets).flatMap SessionTurn.spans = buckets.flatten := by
  rw [← filter_nonempty_flatMap anchors buckets hlength]
  unfold turnsOf
  generalize (anchors.zip buckets).filter _ = entries
  rw [List.flatMap_def, List.flatMap_def]
  congr 1
  apply List.ext_getElem?
  intro i
  rw [List.getElem?_map, List.getElem?_mapIdx, List.getElem?_map]
  cases entries[i]? <;> rfl

/-- A turn is that of an anchor with a bucket that is not empty. -/
lemma mem_turnsOf {host : Host} {buckets : List (List AiSessionSpan)} {turn : SessionTurn}
    (h : turn ∈ turnsOf host anchors buckets) :
    ∃ i : ℕ, ∃ anchor : TurnAnchor, anchors[i]? = some anchor ∧ buckets[i]? = some turn.spans ∧ turn.spans ≠ [] ∧
      turn.anchor = anchor.span ∧ turn.anchorKind = anchor.kind := by
  unfold turnsOf at h
  obtain ⟨index, hindex, rfl⟩ := List.mem_mapIdx.mp h
  have hmem := List.getElem_mem hindex
  generalize ((anchors.zip buckets).filter fun entry => !entry.2.isEmpty)[index] = entry at hmem
  obtain ⟨hzip, hne⟩ := List.mem_filter.mp hmem
  obtain ⟨i, hi⟩ := List.mem_iff_getElem?.mp hzip
  obtain ⟨hanchor, hbucket⟩ := List.getElem?_zip_eq_some.mp hi
  exact ⟨i, entry.1, hanchor, hbucket, by simpa [sessionTurn] using hne, rfl, rfl⟩

/-! ### The partition -/

structure Partition (spans : List AiSessionSpan) (turns : List SessionTurn) : Prop where
  numbered : turns.map SessionTurn.index = List.range' 1 turns.length
  /-- Every span is in one turn, once. -/
  covers : (turns.flatMap SessionTurn.spans).Perm spans
  nonempty : ∀ turn ∈ turns, turn.spans ≠ []
  ordered : ∀ turn ∈ turns, InStartOrder turn.spans
  anchored : ∀ turn ∈ turns, turn.anchorKind ≠ .trace → turn.anchor ∈ turn.spans
  conversations : ∀ turn ∈ turns, turn.anchorKind = .conversation → ∀ span ∈ spans,
    span.genAi.conversationId = turn.anchor.genAi.conversationId → span ∈ turn.spans

/-- No span of a setup that joins the next turn starts after a span of that turn. -/
def SetupsInOrder (host : Host) (spans : List AiSessionSpan) : Prop :=
  ∀ filled ∈ filledBuckets host spans, joins host filled.1 filled.2 = true →
    JoinsInOrder host (filled.2.headD []) filled.2.tail

instance (host : Host) (spans : List AiSessionSpan) : Decidable (SetupsInOrder host spans) :=
  inferInstanceAs (Decidable (∀ filled ∈ filledBuckets host spans, _ → _))

lemma joinedBuckets_length (host : Host) (anchors : List TurnAnchor)
    (buckets : List (List AiSessionSpan)) :
    (joinedBuckets host anchors buckets).length = buckets.length := by
  unfold joinedBuckets
  split_ifs
  · cases buckets with
    | nil => rfl
    | cons bucket rest => exact joinSetups_length host bucket rest
  · rfl

lemma joinedBuckets_flatten (host : Host) (anchors : List TurnAnchor)
    (buckets : List (List AiSessionSpan)) :
    (joinedBuckets host anchors buckets).flatten = buckets.flatten := by
  unfold joinedBuckets
  split_ifs
  · cases buckets with
    | nil => rfl
    | cons bucket rest => exact joinSetups_flatten host bucket rest
  · rfl

lemma joinedBuckets_keeps (host : Host) (anchors : List TurnAnchor)
    (buckets : List (List AiSessionSpan)) {i : ℕ} {kept : List AiSessionSpan}
    (hkept : (joinedBuckets host anchors buckets)[i]? = some kept) (hne : kept ≠ []) :
    ∃ filled, buckets[i]? = some filled ∧ filled ⊆ kept := by
  unfold joinedBuckets at hkept
  split_ifs at hkept
  · cases buckets with
    | nil => cases hkept
    | cons bucket rest => exact joinSetups_keeps host bucket rest i kept hkept hne
  · exact ⟨kept, hkept, List.Subset.refl _⟩

lemma joinedBuckets_ordered_iff (host : Host) (anchors : List TurnAnchor)
    {buckets : List (List AiSessionSpan)} (hordered : ∀ bucket ∈ buckets, InStartOrder bucket) :
    (∀ kept ∈ joinedBuckets host anchors buckets, InStartOrder kept) ↔
      (joins host anchors buckets = true → JoinsInOrder host (buckets.headD []) buckets.tail) := by
  unfold joinedBuckets
  by_cases hjoins : joins host anchors buckets = true
  · rw [if_pos hjoins, imp_iff_right hjoins]
    cases buckets with
    | nil => simp [JoinsInOrder]
    | cons bucket rest =>
      obtain ⟨hbucket, hrest⟩ := List.forall_mem_cons.mp hordered
      exact joinSetups_ordered_iff bucket rest hbucket hrest
  · rw [if_neg hjoins]
    exact iff_of_true hordered fun hjoin => absurd hjoin hjoins

/-- Every turn is in start order when every bucket is: what is empty is dropped. -/
lemma turnsOf_ordered_iff (host : Host) {anchors : List TurnAnchor}
    {buckets : List (List AiSessionSpan)} (hlength : buckets.length = anchors.length) :
    (∀ turn ∈ turnsOf host anchors buckets, InStartOrder turn.spans) ↔
      ∀ bucket ∈ buckets, InStartOrder bucket := by
  constructor
  · intro hturns bucket hbucket
    cases bucket with
    | nil => exact List.Pairwise.nil
    | cons span bucket =>
      obtain ⟨i, hi⟩ := List.mem_iff_getElem?.mp hbucket
      have hlt : i < anchors.length := by
        obtain ⟨hlt, -⟩ := List.getElem?_eq_some_iff.mp hi
        omega
      have hzip : (anchors[i], span :: bucket) ∈ anchors.zip buckets :=
        List.mem_iff_getElem?.mpr ⟨i, List.getElem?_zip_eq_some.mpr
          ⟨List.getElem?_eq_getElem hlt, hi⟩⟩
      have hmem : (anchors[i], span :: bucket) ∈
          (anchors.zip buckets).filter fun entry => !entry.2.isEmpty :=
        List.mem_filter.mpr ⟨hzip, rfl⟩
      obtain ⟨k, hk, heq⟩ := List.mem_iff_getElem.mp hmem
      have hturn : sessionTurn host anchors[i] (span :: bucket) k ∈
          turnsOf host anchors buckets := by
        unfold turnsOf
        exact List.mem_mapIdx.mpr ⟨k, hk, by rw [heq]⟩
      exact hturns _ hturn
  · intro hbuckets turn hturn
    obtain ⟨i, anchor, -, hbucket, -⟩ := mem_turnsOf hturn
    exact hbuckets turn.spans (List.mem_of_getElem? hbucket)

/-- An anchor that is no trace's is a span of its own turn. -/
lemma Filled.anchored {buckets : List (List AiSessionSpan)} (h : Filled spans anchors buckets)
    {i : ℕ} {anchor : TurnAnchor} (hanchor : anchors[i]? = some anchor)
    (hkind : anchor.kind ≠ .trace) {bucket : List AiSessionSpan} (hbucket : buckets[i]? = some bucket) :
    anchor.span ∈ bucket := by
  have howned := h.owned
  cases h.found with
  | conversation hne hfirst =>
    rw [List.getElem?_map] at hanchor
    obtain ⟨entry, hentry, rfl⟩ := Option.map_eq_some_iff.mp hanchor
    obtain ⟨hmem, hkey⟩ := hfirst.mem entry (List.mem_of_getElem? hentry)
    exact howned entry.2 hmem i (ownTurn_conversation hne hfirst.nodup hentry hkey) bucket hbucket
  | agentRoot hne hsub hnodup =>
    rw [List.getElem?_map] at hanchor
    obtain ⟨root, hroot, rfl⟩ := Option.map_eq_some_iff.mp hanchor
    exact howned root (hsub (List.mem_of_getElem? hroot)) i
      (ownTurn_agentRoot hne hnodup hroot) bucket hbucket
  | trace hne =>
    rw [List.getElem?_map] at hanchor
    obtain ⟨entry, -, rfl⟩ := Option.map_eq_some_iff.mp hanchor
    exact absurd rfl hkind

/-- The spans of a conversation are in its turn. -/
lemma Filled.conversations {buckets : List (List AiSessionSpan)} (h : Filled spans anchors buckets)
    {i : ℕ} {anchor : TurnAnchor} (hanchor : anchors[i]? = some anchor)
    (hkind : anchor.kind = .conversation) {span : AiSessionSpan} (hspan : span ∈ spans)
    (hid : span.genAi.conversationId = anchor.span.genAi.conversationId)
    {bucket : List AiSessionSpan} (hbucket : buckets[i]? = some bucket) : span ∈ bucket := by
  have howned := h.owned
  cases h.found with
  | conversation hne hfirst =>
    rw [List.getElem?_map] at hanchor
    obtain ⟨entry, hentry, rfl⟩ := Option.map_eq_some_iff.mp hanchor
    obtain ⟨-, hkey⟩ := hfirst.mem entry (List.mem_of_getElem? hentry)
    have hspanKey : conversationKey (sessionIdsOf spans) span = some entry.1 := by
      rw [← hkey]
      unfold conversationKey
      rw [hid]
      rfl
    exact howned span hspan i (ownTurn_conversation hne hfirst.nodup hentry hspanKey) bucket hbucket
  | agentRoot hne hsub hnodup =>
    rw [List.getElem?_map] at hanchor
    obtain ⟨root, -, rfl⟩ := Option.map_eq_some_iff.mp hanchor
    cases hkind
  | trace hne =>
    rw [List.getElem?_map] at hanchor
    obtain ⟨entry, -, rfl⟩ := Option.map_eq_some_iff.mp hanchor
    cases hkind

/-- The turns partition the spans, in order exactly where the setups that join are. -/
theorem partition_iff_setupsInOrder (host : Host) (spans : List AiSessionSpan) (hne : spans ≠ [])
    (hnodup : (spans.map AiSessionSpan.spanId).Nodup) :
    (∃ turns, buildSessionTurns host spans = some turns ∧ Partition spans turns) ↔
      SetupsInOrder host spans := by
  obtain ⟨anchors, buckets, hfilled, hspec⟩ := filledBuckets_spec host hne hnodup
  have hbuild : buildSessionTurns host spans =
      some (turnsOf host anchors (joinedBuckets host anchors buckets)) := by
    unfold buildSessionTurns
    rw [if_neg (by simpa using hne), hfilled]
    rfl
  have hlength : (joinedBuckets host anchors buckets).length = anchors.length :=
    (joinedBuckets_length host anchors buckets).trans hspec.length
  have hsetups : SetupsInOrder host spans ↔
      ∀ turn ∈ turnsOf host anchors (joinedBuckets host anchors buckets),
        InStartOrder turn.spans := by
    rw [turnsOf_ordered_iff host hlength, joinedBuckets_ordered_iff host anchors hspec.ordered]
    unfold SetupsInOrder
    rw [hfilled]
    simp
  rw [hsetups]
  constructor
  · rintro ⟨turns, hturns, hpartition⟩
    rw [hbuild] at hturns
    rw [Option.some.inj hturns]
    exact hpartition.ordered
  · intro hordered
    refine ⟨_, hbuild, turnsOf_index host anchors _, ?covers, ?nonempty, hordered, ?anchored,
      ?conversations⟩
    case covers =>
      rw [turnsOf_spans host hlength, joinedBuckets_flatten]
      exact hspec.perm
    case nonempty =>
      intro turn hturn
      obtain ⟨_, _, -, -, hspans, -⟩ := mem_turnsOf hturn
      exact hspans
    case anchored =>
      intro turn hturn hkind
      obtain ⟨i, anchor, hanchor, hkept, hspans, hspan, hkindEq⟩ := mem_turnsOf hturn
      obtain ⟨bucket, hbucket, hsub⟩ := joinedBuckets_keeps host anchors buckets hkept hspans
      rw [hspan]
      exact hsub (hspec.anchored hanchor (by rwa [← hkindEq]) hbucket)
    case conversations =>
      intro turn hturn hkind span hmem hid
      obtain ⟨i, anchor, hanchor, hkept, hspans, hspan, hkindEq⟩ := mem_turnsOf hturn
      obtain ⟨bucket, hbucket, hsub⟩ := joinedBuckets_keeps host anchors buckets hkept hspans
      rw [hspan] at hid
      exact hsub (hspec.conversations hanchor (hkindEq.symm.trans hkind) hmem hid hbucket)

def plain : Host :=
  { toLowerCase := id, stringOf := fun _ => "", withoutInjectedBlocks := id, elide := id }

def invoked (spanId : String) (spanStartMs durationMs : ℚ) : AiSessionSpan :=
  { spanId, isAiSpan := true, spanStartMs, durationMs
    genAi := { operationName := some "invoke_agent" } }

def called (spanId parentSpanId : String) (spanStartMs durationMs : ℚ) : AiSessionSpan :=
  { spanId, parentSpanId, isAiSpan := true, spanStartMs, durationMs
    genAi := { operationName := some "chat" } }

/-- A setup that is over when the run starts. -/
theorem partition_setup : ∃ turns,
    buildSessionTurns plain [invoked "build" 0 1, invoked "run" 10 500, called "call" "run" 20 10] =
      some turns ∧
    Partition [invoked "build" 0 1, invoked "run" 10 500, called "call" "run" 20 10] turns :=
  (partition_iff_setupsInOrder plain _ (by simp) (by with_unfolding_all decide)).mpr (by with_unfolding_all decide)

/-- A span of the setup starts after the run does. It is put before the run all the same. -/
theorem not_partition : ¬ ∃ turns,
    buildSessionTurns plain
      [invoked "build" 0 1, { spanId := "save", parentSpanId := "build", spanStartMs := 100 },
        invoked "run" 10 500, called "call" "run" 20 10] = some turns ∧
    Partition
      [invoked "build" 0 1, { spanId := "save", parentSpanId := "build", spanStartMs := 100 },
        invoked "run" 10 500, called "call" "run" 20 10] turns := by
  rintro ⟨turns, hturns, hpartition⟩
  have hstarts : (buildSessionTurns plain
      [invoked "build" 0 1, { spanId := "save", parentSpanId := "build", spanStartMs := 100 },
        invoked "run" 10 500, called "call" "run" 20 10]).map
        (fun turns => turns.map fun turn => turn.spans.map AiSessionSpan.spanStartMs) =
      some [[0, 100, 10, 20]] := by with_unfolding_all decide
  rw [hturns] at hstarts
  obtain ⟨turn, rfl, hturn⟩ := List.map_eq_singleton_iff.mp (Option.some.inj hstarts)
  have hordered := List.pairwise_map.mpr (hpartition.ordered turn (by simp))
  rw [hturn] at hordered
  exact absurd hordered (by decide)

end Maple.AgentSessions
