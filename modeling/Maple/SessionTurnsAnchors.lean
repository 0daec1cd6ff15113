import Maple.SessionTurnsWalk
import Mathlib.Data.List.Nodup

/-! The anchors of a session, whichever rule finds them, and the turn each of its spans is in. -/

namespace Maple.AgentSessions

variable {spans : List AiSessionSpan}

/-! ### Anchors -/

/-- The first spans of the keys of these spans. -/
structure FirstSpans (key : AiSessionSpan → Option String) (spans : List AiSessionSpan)
    (entries : List (String × AiSessionSpan)) : Prop where
  nodup : (entries.map Prod.fst).Nodup
  mem : ∀ entry ∈ entries, entry.2 ∈ spans ∧ key entry.2 = some entry.1
  complete : ∀ span ∈ spans, ∀ k, key span = some k → (entries.lookup k).isSome = true

lemma firstByKey_spec (key : AiSessionSpan → Option String) (spans : List AiSessionSpan) :
    FirstSpans key spans (firstByKey key spans) := by
  induction spans using List.reverseRecOn with
  | nil => exact ⟨List.nodup_nil, by simp [firstByKey], by simp⟩
  | append_singleton spans span ih =>
    have hstep : firstByKey key (spans ++ [span]) =
        (key span).elim (firstByKey key spans) fun k =>
          if ((firstByKey key spans).lookup k).isSome then firstByKey key spans
          else firstByKey key spans ++ [(k, span)] := by
      simp only [firstByKey, List.foldl_append, List.foldl_cons, List.foldl_nil]
      cases key span <;> rfl
    have hmem : ∀ entry ∈ firstByKey key spans,
        entry.2 ∈ spans ++ [span] ∧ key entry.2 = some entry.1 := by
      intro entry hentry
      exact ⟨List.mem_append_left _ (ih.mem entry hentry).1, (ih.mem entry hentry).2⟩
    rw [hstep]
    cases hkey : key span with
    | none =>
      refine ⟨ih.nodup, hmem, ?_⟩
      intro found hfound k hk
      rcases List.mem_append.mp hfound with hfound | hfound
      · exact ih.complete found hfound k hk
      · rw [List.mem_singleton.mp hfound, hkey] at hk
        cases hk
    | some k =>
      rw [Option.elim_some]
      split_ifs with hknown
      · refine ⟨ih.nodup, hmem, ?_⟩
        intro found hfound k' hk
        rcases List.mem_append.mp hfound with hfound | hfound
        · exact ih.complete found hfound k' hk
        · rw [List.mem_singleton.mp hfound, hkey] at hk
          obtain rfl := Option.some.inj hk
          exact hknown
      · rw [Option.not_isSome_iff_eq_none, List.lookup_eq_none_iff] at hknown
        refine ⟨?nodup, ?mem, ?complete⟩
        case nodup =>
          rw [List.map_append, List.nodup_append]
          refine ⟨ih.nodup, by simp, ?_⟩
          rintro _ hfst _ hlast rfl
          obtain ⟨entry, hentry, rfl⟩ := List.mem_map.mp hfst
          have hne := hknown entry hentry
          simp only [List.map_cons, List.map_nil, List.mem_singleton] at hlast
          simp [hlast] at hne
        case mem =>
          intro entry hentry
          rcases List.mem_append.mp hentry with hentry | hentry
          · exact hmem entry hentry
          · obtain rfl := List.mem_singleton.mp hentry
            exact ⟨by simp, hkey⟩
        case complete =>
          intro found hfound k' hk
          rw [List.lookup_append]
          rcases List.mem_append.mp hfound with hfound | hfound
          · have hsome := ih.complete found hfound k' hk
            rw [Option.isSome_or, hsome]
            rfl
          · rw [List.mem_singleton.mp hfound, hkey] at hk
            obtain rfl := Option.some.inj hk
            simp

/-- The anchors that one of the rules finds. -/
inductive AnchorsOk (spans : List AiSessionSpan) : List TurnAnchor → Prop
  | conversation {entries : List (String × AiSessionSpan)} (nonempty : entries ≠ [])
      (first : FirstSpans (conversationKey (sessionIdsOf spans)) spans entries) :
      AnchorsOk spans (entries.map conversationAnchor)
  | agentRoot {roots : List AiSessionSpan} (nonempty : roots ≠ []) (sub : roots ⊆ spans)
      (nodup : (roots.map AiSessionSpan.spanId).Nodup) :
      AnchorsOk spans (roots.map agentRootAnchor)
  | trace {entries : List (String × AiSessionSpan)} (nonempty : entries ≠ []) :
      AnchorsOk spans (entries.map traceAnchor)

lemma filterSpans_spec {test : AiSessionSpan → Option Bool} (spans : List AiSessionSpan)
    (htest : ∀ span, (test span).isSome = true) :
    ∃ kept, filterSpans test spans = some kept ∧ kept.Sublist spans := by
  induction spans with
  | nil => exact ⟨[], rfl, List.Sublist.refl _⟩
  | cons span spans ih =>
    obtain ⟨kept, hkept, hsub⟩ := ih
    obtain ⟨keep, hkeep⟩ := Option.isSome_iff_exists.mp (htest span)
    unfold filterSpans
    rw [hkeep, hkept]
    cases keep with
    | true => exact ⟨span :: kept, rfl, hsub.cons_cons span⟩
    | false => exact ⟨kept, rfl, hsub.cons span⟩

lemma isAgentRoot_isSome (host : Host) (ordered : List AiSessionSpan) (span : AiSessionSpan) :
    (isAgentRoot host ordered span).isSome = true := by
  unfold isAgentRoot underAiSpan
  split_ifs
  · rw [Option.isSome_map, Option.isSome_map]
    exact ancestorsOf_isSome ordered span
  · rfl

lemma conversationKey_perm {ordered : List AiSessionSpan} (hperm : ordered.Perm spans) :
    conversationKey (sessionIdsOf ordered) = conversationKey (sessionIdsOf spans) := by
  funext span
  unfold conversationKey
  have hmem (id : String) : id ∈ sessionIdsOf ordered ↔ id ∈ sessionIdsOf spans :=
    (hperm.filterMap _).mem_iff
  simp only [hmem]

lemma FirstSpans.perm {key : AiSessionSpan → Option String} {ordered : List AiSessionSpan}
    {entries : List (String × AiSessionSpan)} (h : FirstSpans key ordered entries)
    (hperm : ordered.Perm spans) : FirstSpans key spans entries where
  nodup := h.nodup
  mem := fun entry hentry => ⟨hperm.mem_iff.mp (h.mem entry hentry).1, (h.mem entry hentry).2⟩
  complete := fun span hspan => h.complete span (hperm.mem_iff.mpr hspan)

lemma findAnchors_spec (host : Host) {ordered : List AiSessionSpan} (hperm : ordered.Perm spans)
    (hne : spans ≠ []) (hnodup : (spans.map AiSessionSpan.spanId).Nodup) :
    ∃ anchors, findAnchors host ordered = some anchors ∧ AnchorsOk spans anchors := by
  unfold findAnchors
  dsimp only
  split_ifs with hmany
  · refine ⟨_, rfl, .conversation ?_ ?_⟩
    · intro hnil
      rw [hnil] at hmany
      simp at hmany
    · have hfirst := firstByKey_spec (conversationKey (sessionIdsOf ordered)) ordered
      rw [conversationKey_perm hperm] at hfirst ⊢
      exact hfirst.perm hperm
  · obtain ⟨roots, hroots, hsub⟩ := filterSpans_spec ordered (isAgentRoot_isSome host ordered)
    rw [hroots]
    dsimp only
    split_ifs with hempty
    · refine ⟨_, rfl, .trace ?_⟩
      intro hnil
      obtain ⟨span, hspan⟩ := List.exists_mem_of_ne_nil spans hne
      have hsome := (firstByKey_spec (fun span => some span.traceId) ordered).complete span
        (hperm.mem_iff.mpr hspan) span.traceId rfl
      rw [hnil] at hsome
      cases hsome
    · refine ⟨_, rfl, .agentRoot ?_ ?_ ?_⟩
      · simpa using hempty
      · exact fun span hspan => hperm.mem_iff.mp (hsub.subset hspan)
      · exact (hsub.map _).nodup ((hperm.map _).nodup_iff.mpr hnodup)

/-! ### The turn a span names -/

/-- The turn a span has of its own: its conversation's, or the one it is the root of. -/
def ownTurn (spans : List AiSessionSpan) (anchors : List TurnAnchor) (span : AiSessionSpan) :
    Option ℕ :=
  if anchors.head?.any fun anchor => anchor.kind = .agentRoot then
    turnByAnchor anchors span.spanId
  else ownConversationTurn spans anchors span

variable {anchors : List TurnAnchor}

lemma lt_of_mem_zipIdx {α : Type} {items : List α} {entry : α × ℕ} (h : entry ∈ items.zipIdx) :
    entry.2 < items.length := by
  obtain ⟨-, hlt, -⟩ := List.mem_zipIdx h
  omega

lemma ownTurn_lt {span : AiSessionSpan} {turn : ℕ} (h : ownTurn spans anchors span = some turn) :
    turn < anchors.length := by
  unfold ownTurn at h
  split_ifs at h
  · obtain ⟨entry, hentry, heq⟩ := List.mem_map.mp (mem_of_mapOf h)
    obtain ⟨-, rfl⟩ := Prod.mk.inj heq
    exact lt_of_mem_zipIdx hentry
  · obtain ⟨id, -, hturn⟩ := Option.bind_eq_some_iff.mp h
    obtain ⟨entry, hentry, heq⟩ := List.mem_filterMap.mp (mem_of_mapOf hturn)
    obtain ⟨_, -, heq⟩ := Option.map_eq_some_iff.mp heq
    obtain ⟨-, rfl⟩ := Prod.mk.inj heq
    exact lt_of_mem_zipIdx hentry

lemma map_zipIdx {α β : Type} (f : α → β) (items : List α) :
    items.zipIdx.map (fun entry => f entry.1) = items.map f := by
  calc items.zipIdx.map (fun entry => f entry.1) = (items.zipIdx.map Prod.fst).map f := by
        rw [List.map_map]
        rfl
    _ = items.map f := by rw [List.zipIdx_map_fst]

/-- An agent root is its own turn. -/
lemma ownTurn_agentRoot {roots : List AiSessionSpan} (hne : roots ≠ [])
    (hnodup : (roots.map AiSessionSpan.spanId).Nodup) {turn : ℕ} {span : AiSessionSpan}
    (hspan : roots[turn]? = some span) :
    ownTurn spans (roots.map agentRootAnchor) span = some turn := by
  have hhead : ((roots.map agentRootAnchor).head?.any fun anchor =>
      anchor.kind = .agentRoot) = true := by
    cases roots with
    | nil => exact absurd rfl hne
    | cons root roots => rfl
  unfold ownTurn turnByAnchor
  rw [if_pos hhead]
  apply mapOf_of_nodup
  · rw [List.zipIdx_map, List.map_map, List.map_map]
    exact (map_zipIdx AiSessionSpan.spanId roots).symm ▸ hnodup
  · apply List.mem_map.mpr
    refine ⟨(agentRootAnchor span, turn), ?_, rfl⟩
    rw [List.mem_zipIdx_iff_getElem?, List.getElem?_map, hspan]
    rfl

/-- A span that carries a conversation's id is in the turn of that conversation. -/
lemma ownTurn_conversation {entries : List (String × AiSessionSpan)} (hne : entries ≠ [])
    (hnodup : (entries.map Prod.fst).Nodup) {turn : ℕ} {entry : String × AiSessionSpan}
    (hentry : entries[turn]? = some entry) {span : AiSessionSpan}
    (hkey : conversationKey (sessionIdsOf spans) span = some entry.1) :
    ownTurn spans (entries.map conversationAnchor) span = some turn := by
  have hhead : ¬ ((entries.map conversationAnchor).head?.any fun anchor =>
      anchor.kind = .agentRoot) = true := by
    cases entries with
    | nil => exact absurd rfl hne
    | cons entry entries => simp [conversationAnchor]
  unfold ownTurn ownConversationTurn turnByConversation
  rw [if_neg hhead, hkey, Option.bind_some]
  apply mapOf_of_nodup
  · have hmap : (List.map Prod.fst (List.filterMap
        (fun numbered : TurnAnchor × ℕ =>
          numbered.1.conversationId.map fun id => (id, numbered.2))
        (entries.map conversationAnchor).zipIdx)) = entries.map Prod.fst := by
      rw [List.zipIdx_map, List.filterMap_map, List.map_filterMap]
      show entries.zipIdx.filterMap (fun numbered => some numbered.1.1) = entries.map Prod.fst
      rw [List.filterMap_eq_map']
      exact map_zipIdx Prod.fst entries
    rw [hmap]
    exact hnodup
  · apply List.mem_filterMap.mpr
    refine ⟨(conversationAnchor entry, turn), ?_, rfl⟩
    rw [List.mem_zipIdx_iff_getElem?, List.getElem?_map, hentry]
    rfl

/-! ### Resolvers -/

lemma resolver_spec (hnodup : (spans.map AiSessionSpan.spanId).Nodup) {own : AiSessionSpan → Option ℕ}
    {turns : ℕ} (hbound : ∀ span turn, own span = some turn → turn < turns) {memo : Memo}
    {span : AiSessionSpan} (hmem : span ∈ spans) (hok : MemoOk spans own turns memo) :
    ∃ memo' turn, resolve own (byId spans) spans.length memo span = some (memo', turn) ∧
      Resolved spans own turns span memo' turn :=
  resolve_spec hnodup hbound spans.length hmem hok (unseen_le _ _)

lemma enclosingRun_lt {span : AiSessionSpan} {turn : ℕ}
    (h : enclosingRun anchors span = some turn) : turn < anchors.length := by
  have hpick {f : Option (TurnAnchor × ℕ) → TurnAnchor × ℕ → Option (TurnAnchor × ℕ)}
      (hf : ∀ outer run, f outer run = outer ∨ f outer run = some run)
      (runs : List (TurnAnchor × ℕ)) : ∀ outer found : Option (TurnAnchor × ℕ),
      runs.foldl f outer = found → found = outer ∨ ∃ run ∈ runs, found = some run := by
    induction runs with
    | nil =>
      rintro outer found rfl
      exact .inl rfl
    | cons run runs ih =>
      intro outer found hfound
      rw [List.foldl_cons] at hfound
      rcases ih _ found hfound with heq | ⟨picked, hpicked, heq⟩
      · rcases hf outer run with hsame | hrun
        · exact .inl (heq.trans hsame)
        · exact .inr ⟨run, by simp, heq.trans hrun⟩
      · exact .inr ⟨picked, List.mem_cons_of_mem _ hpicked, heq⟩
  unfold enclosingRun at h
  obtain ⟨found, hfound, rfl⟩ := Option.map_eq_some_iff.mp h
  rcases hpick (fun outer run => by
      cases outer with
      | none => exact .inr rfl
      | some outer =>
        dsimp only
        split_ifs
        · exact .inr rfl
        · exact .inl rfl) _ _ _ hfound with hnone | ⟨run, hrun, heq⟩
  · cases hnone
  · obtain rfl := Option.some.inj heq
    exact lt_of_mem_zipIdx (List.mem_filter.mp hrun).1

/-- Whichever rule found the anchors, a walk ends, and finds for a span that names a turn that
turn. -/
lemma turnResolver_spec (hnodup : (spans.map AiSessionSpan.spanId).Nodup) {memo : Memo}
    {span : AiSessionSpan} (hmem : span ∈ spans)
    (hok : MemoOk spans (ownTurn spans anchors) anchors.length memo) :
    ∃ memo' turn, turnResolver spans anchors memo span = some (memo', turn) ∧
      Resolved spans (ownTurn spans anchors) anchors.length span memo' turn := by
  have hbound := fun span turn => @ownTurn_lt spans anchors span turn
  obtain ⟨memo', turn, hresolve, hresolved⟩ := resolver_spec hnodup hbound hmem hok
  unfold turnResolver
  split_ifs with hroot
  · have hown : ownTurn spans anchors = fun span => turnByAnchor anchors span.spanId := by
      funext span
      exact if_pos hroot
    unfold agentRootTurnResolver
    rw [← hown, hresolve]
    refine ⟨_, _, rfl, hresolved.memo, ?_, ?_⟩
    · intro named hnamed
      dsimp only
      rw [hresolved.owned named hnamed]
      rfl
    · intro found hfound
      cases turn with
      | none => exact enclosingRun_lt hfound
      | some turn => exact hresolved.bound found hfound
  · have hown : ownTurn spans anchors = ownConversationTurn spans anchors := by
      funext span
      exact if_neg hroot
    unfold conversationTurnResolver
    split_ifs with hnone
    · refine ⟨memo, none, rfl, hok, ?_, by simp⟩
      intro named hnamed
      rw [hown] at hnamed
      obtain ⟨id, -, hturn⟩ := Option.bind_eq_some_iff.mp hnamed
      obtain ⟨entry, hentry, heq⟩ := List.mem_filterMap.mp (mem_of_mapOf hturn)
      obtain ⟨anchor, number⟩ := entry
      have hanchor : anchor ∈ anchors := (List.mem_zipIdx hentry).2.2 ▸ List.getElem_mem _
      have hid := List.all_eq_true.mp hnone anchor hanchor
      rw [Option.isNone_iff_eq_none.mp hid] at heq
      cases heq
    · rw [← hown]
      exact ⟨memo', turn, hresolve, hresolved⟩

end Maple.AgentSessions
