import Maple.SessionTurns
import Mathlib.Data.Finset.Card
import Mathlib.Data.Finset.SDiff
import Mathlib.Tactic.Push

/-! The walks up the parents end, whatever the parents are, and what a walk finds for a span that has
a turn of its own is that turn. -/

namespace Maple.AgentSessions

/-! ### Maps -/

section

variable {α : Type} {entries : List (String × α)} {key : String} {value : α}

lemma mem_of_lookup (h : entries.lookup key = some value) : (key, value) ∈ entries := by
  obtain ⟨before, after, rfl, -⟩ := List.lookup_eq_some_iff.mp h
  simp

lemma lookup_of_nodup (hnodup : (entries.map Prod.fst).Nodup) (h : (key, value) ∈ entries) :
    entries.lookup key = some value := by
  induction entries with
  | nil => cases h
  | cons entry entries ih =>
    obtain ⟨hfresh, hrest⟩ := List.nodup_cons.mp hnodup
    rcases List.mem_cons.mp h with rfl | h
    · simp
    · have hne : key ≠ entry.1 := by
        rintro rfl
        exact hfresh (List.mem_map.mpr ⟨_, h, rfl⟩)
      rw [List.lookup_cons, beq_eq_false_iff_ne.mpr hne]
      exact ih hrest h

lemma mem_of_mapOf (h : mapOf entries key = some value) : (key, value) ∈ entries :=
  List.mem_reverse.mp (mem_of_lookup h)

lemma mapOf_of_nodup (hnodup : (entries.map Prod.fst).Nodup) (h : (key, value) ∈ entries) :
    mapOf entries key = some value := by
  apply lookup_of_nodup _ (List.mem_reverse.mpr h)
  rw [List.map_reverse]
  exact List.nodup_reverse.mpr hnodup

end

variable {spans : List AiSessionSpan}

lemma mem_of_byId {id : String} {span : AiSessionSpan} (h : byId spans id = some span) :
    span ∈ spans ∧ span.spanId = id := by
  obtain ⟨found, hfound, heq⟩ := List.mem_map.mp (mem_of_mapOf h)
  obtain ⟨rfl, rfl⟩ := Prod.mk.inj heq
  exact ⟨hfound, rfl⟩

/-- Distinct ids tell spans apart. -/
lemma eq_of_spanId (hnodup : (spans.map AiSessionSpan.spanId).Nodup) {a b : AiSessionSpan}
    (ha : a ∈ spans) (hb : b ∈ spans) (hid : a.spanId = b.spanId) : a = b :=
  List.inj_on_of_nodup_map hnodup ha hb hid

/-! ### The walks end -/

/-- How many of these spans have not been seen. -/
def unseen (spans : List AiSessionSpan) (seen : List String) : ℕ :=
  ((spans.map AiSessionSpan.spanId).toFinset \ seen.toFinset).card

lemma unseen_le (spans : List AiSessionSpan) (seen : List String) :
    unseen spans seen ≤ spans.length := by
  calc unseen spans seen ≤ (spans.map AiSessionSpan.spanId).toFinset.card :=
        Finset.card_le_card Finset.sdiff_subset
    _ ≤ (spans.map AiSessionSpan.spanId).length := List.toFinset_card_le _
    _ = spans.length := List.length_map _

/-- A span that is seen for the first time leaves fewer. -/
lemma unseen_cons {span : AiSessionSpan} (hmem : span ∈ spans) {seen : List String}
    (hfresh : span.spanId ∉ seen) : unseen spans (span.spanId :: seen) < unseen spans seen := by
  apply Finset.card_lt_card
  rw [Finset.ssubset_iff_of_subset]
  · refine ⟨span.spanId, ?_, by simp⟩
    simp only [Finset.mem_sdiff, List.mem_toFinset]
    exact ⟨List.mem_map_of_mem hmem, hfresh⟩
  · intro id hid
    simp only [Finset.mem_sdiff, List.mem_toFinset, List.mem_cons, not_or] at hid ⊢
    exact ⟨hid.1, hid.2.2⟩

lemma ancestors_isSome (fuel : ℕ) (seen : List String) (span : AiSessionSpan)
    (hfuel : unseen spans seen ≤ fuel) : (ancestors (byId spans) fuel seen span).isSome = true := by
  induction fuel generalizing seen span with
  | zero =>
    unfold ancestors
    split
    · rfl
    · rename_i parent hparent
      split_ifs with hseen
      · rfl
      · have hlt := unseen_cons (mem_of_byId hparent).1 hseen
        omega
  | succ fuel ih =>
    unfold ancestors
    split
    · rfl
    · rename_i parent hparent
      split_ifs with hseen
      · rfl
      · have hlt := unseen_cons (mem_of_byId hparent).1 hseen
        rw [Option.isSome_map]
        exact ih _ _ (by omega)

lemma ancestorsOf_isSome (spans : List AiSessionSpan) (span : AiSessionSpan) :
    (ancestorsOf spans span).isSome = true :=
  ancestors_isSome _ _ _ (unseen_le _ _)

/-! ### Resolved turns -/

variable {own : AiSessionSpan → Option ℕ}

/-- What the memo says is a turn, and for a span that has one of its own that one. -/
structure MemoOk (spans : List AiSessionSpan) (own : AiSessionSpan → Option ℕ) (turns : ℕ)
    (memo : Memo) : Prop where
  owned : ∀ span ∈ spans, ∀ turn, own span = some turn →
    ∀ found, memo.lookup span.spanId = some found → found = some turn
  bound : ∀ id turn, memo.lookup id = some (some turn) → turn < turns

variable {turns : ℕ} {memo : Memo}

lemma MemoOk.set (h : MemoOk spans own turns memo)
    (hnodup : (spans.map AiSessionSpan.spanId).Nodup) {span : AiSessionSpan} (hmem : span ∈ spans)
    {turn : Option ℕ} (hown : ∀ named, own span = some named → turn = some named)
    (hbound : ∀ found ∈ turn, found < turns) : MemoOk spans own turns ((span.spanId, turn) :: memo) where
  owned := by
    intro other hother named hnamed found hfound
    rw [List.lookup_cons] at hfound
    by_cases hid : other.spanId = span.spanId
    · obtain rfl := eq_of_spanId hnodup hother hmem hid
      rw [beq_self_eq_true] at hfound
      rw [← Option.some.inj hfound]
      exact hown named hnamed
    · rw [beq_eq_false_iff_ne.mpr hid] at hfound
      exact h.owned other hother named hnamed found hfound
  bound := by
    intro id found hfound
    rw [List.lookup_cons] at hfound
    split at hfound
    · exact hbound found (Option.some.inj hfound)
    · exact h.bound id found hfound

/-- A turn that was resolved: the memo goes on being sound. -/
structure Resolved (spans : List AiSessionSpan) (own : AiSessionSpan → Option ℕ) (turns : ℕ)
    (span : AiSessionSpan) (memo : Memo) (turn : Option ℕ) : Prop where
  memo : MemoOk spans own turns memo
  owned : ∀ named, own span = some named → turn = some named
  bound : ∀ found ∈ turn, found < turns

/-- What is set once more for a span is what stands. -/
lemma MemoOk.again {id : String} {turn before : Option ℕ}
    (h : MemoOk spans own turns ((id, turn) :: memo)) :
    MemoOk spans own turns ((id, turn) :: (id, before) :: memo) := by
  have hlookup (key : String) : List.lookup key ((id, turn) :: (id, before) :: memo) =
      List.lookup key ((id, turn) :: memo) := by
    simp only [List.lookup_cons]
    split <;> rfl
  constructor
  · intro span hspan named hnamed found hfound
    rw [hlookup] at hfound
    exact h.owned span hspan named hnamed found hfound
  · intro key found hfound
    rw [hlookup] at hfound
    exact h.bound key found hfound

lemma MemoOk.known (h : MemoOk spans own turns memo) {span : AiSessionSpan} (hmem : span ∈ spans)
    {turn : Option ℕ} (hturn : memo.lookup span.spanId = some turn) :
    Resolved spans own turns span memo turn where
  memo := h
  owned := fun named hnamed => h.owned span hmem named hnamed turn hturn
  bound := fun found hfound => h.bound span.spanId found (by rw [hturn, Option.mem_def.mp hfound])

lemma unseen_memo {span : AiSessionSpan} (hmem : span ∈ spans)
    (hnone : memo.lookup span.spanId = none) :
    unseen spans (span.spanId :: memo.map Prod.fst) < unseen spans (memo.map Prod.fst) := by
  apply unseen_cons hmem
  intro hseen
  obtain ⟨entry, hentry, heq⟩ := List.mem_map.mp hseen
  have hne := List.lookup_eq_none_iff.mp hnone entry hentry
  simp [heq] at hne

/-- With fuel for the spans that are not in the memo a walk ends. -/
lemma resolve_spec (hnodup : (spans.map AiSessionSpan.spanId).Nodup)
    (hbound : ∀ span turn, own span = some turn → turn < turns) (fuel : ℕ) {memo : Memo}
    {span : AiSessionSpan} (hmem : span ∈ spans) (hok : MemoOk spans own turns memo)
    (hfuel : unseen spans (memo.map Prod.fst) ≤ fuel) :
    ∃ memo' turn, resolve own (byId spans) fuel memo span = some (memo', turn) ∧
      Resolved spans own turns span memo' turn := by
  induction fuel generalizing memo span with
  | zero =>
    unfold resolve
    cases hlookup : memo.lookup span.spanId with
    | some turn => exact ⟨memo, turn, rfl, hok.known hmem hlookup⟩
    | none =>
      have hlt := unseen_memo hmem hlookup
      omega
  | succ fuel ih =>
    unfold resolve
    cases hlookup : memo.lookup span.spanId with
    | some turn => exact ⟨memo, turn, rfl, hok.known hmem hlookup⟩
    | none =>
      have hlt := unseen_memo hmem hlookup
      dsimp only
      cases hown : own span with
      | some named =>
        have hnamed : ∀ found, own span = some found → some named = some found := by
          intro found hfound
          rw [← hown, hfound]
        have hlt' : ∀ found ∈ some named, found < turns := by
          intro found hfound
          obtain rfl := Option.mem_some_iff.mp hfound
          exact hbound span named hown
        exact ⟨_, _, rfl, (hok.set hnodup hmem hnamed hlt').again, hnamed, hlt'⟩
      | none =>
        have hnone (turn : Option ℕ) : ∀ found, own span = some found → turn = some found := by
          intro found hfound
          rw [hown] at hfound
          cases hfound
        have hseeded : MemoOk spans own turns ((span.spanId, none) :: memo) :=
          hok.set hnodup hmem (hnone none) (by simp)
        dsimp only
        cases hparent : byId spans span.parentSpanId with
        | none => exact ⟨_, _, rfl, hseeded.again, hnone none, by simp⟩
        | some parent =>
          obtain ⟨memo', turn, hresolve, hresolved⟩ :=
            ih (mem_of_byId hparent).1 hseeded (by simp only [List.map_cons]; omega)
          dsimp only
          rw [hresolve]
          exact ⟨_, _, rfl, hresolved.memo.set hnodup hmem (hnone turn) hresolved.bound,
            hnone turn, hresolved.bound⟩

end Maple.AgentSessions
