import Maple.EventSink
import Maple.TransitionRun

/-! While no post is divided, no row that was accepted is sent again. -/

namespace Maple.EventSink
open TransitionRun

/-! ### How often a row stands in a list -/

def times (rows : List BufferedEvent) (seq : ℕ) : ℕ := rows.countP fun row => row.seq = seq

@[simp] lemma times_nil (seq : ℕ) : times [] seq = 0 := rfl

@[simp] lemma times_append (rows others : List BufferedEvent) (seq : ℕ) :
    times (rows ++ others) seq = times rows seq + times others seq :=
  List.countP_append

lemma times_cons (row : BufferedEvent) (rows : List BufferedEvent) (seq : ℕ) :
    times (row :: rows) seq = times rows seq + if row.seq = seq then 1 else 0 := by
  simp [times, List.countP_cons]

lemma times_pos {rows : List BufferedEvent} {seq : ℕ} :
    0 < times rows seq ↔ ∃ row ∈ rows, row.seq = seq := by
  simp [times, List.countP_pos_iff]

lemma carries_iff {request : Request} {seq : ℕ} :
    request.Carries seq ↔ 0 < times request.rows seq := times_pos.symm

def flying (posts : List Post) : List BufferedEvent := posts.flatMap Post.fresh

def sent (requests : List Request) : List BufferedEvent := requests.flatMap Request.rows

lemma sent_append (requests others : List Request) :
    sent (requests ++ others) = sent requests ++ sent others := by
  simp [sent]

lemma flying_append (posts others : List Post) :
    flying (posts ++ others) = flying posts ++ flying others := by
  simp [flying]

lemma sent_pos {requests : List Request} {request : Request} {seq : ℕ} (hmem : request ∈ requests)
    (hcarries : request.Carries seq) : 0 < times (sent requests) seq := by
  obtain ⟨row, hrow, hseq⟩ := hcarries
  exact times_pos.mpr ⟨row, List.mem_flatMap.mpr ⟨request, hmem, hrow⟩, hseq⟩

lemma countP_carries_le (requests : List Request) (seq : ℕ) :
    (requests.countP fun request => request.Carries seq) ≤ times (sent requests) seq := by
  induction requests with
  | nil => simp
  | cons request requests ih =>
    rw [List.countP_cons, sent, List.flatMap_cons, times_append, ← sent]
    by_cases hcarries : request.Carries seq
    · have := carries_iff.mp hcarries
      simp only [hcarries, decide_true, if_true]
      omega
    · simp only [hcarries, decide_false, Bool.false_eq_true, if_false]
      omega

/-- Two requests that carry a row stand for two times it was sent. -/
lemma two_le_sent {requests : List Request} {i j seq : ℕ} {before after : Request} (hij : i < j)
    (hbefore : requests[i]? = some before) (hafter : requests[j]? = some after)
    (hfirst : before.Carries seq) (hsecond : after.Carries seq) :
    2 ≤ times (sent requests) seq := by
  obtain ⟨hi, rfl⟩ := List.getElem?_eq_some_iff.mp hbefore
  have hsplit := List.take_append_drop (i + 1) requests
  have hold : requests[i] ∈ requests.take (i + 1) := by
    rw [List.mem_take_iff_getElem]
    exact ⟨i, by omega, rfl⟩
  have hnew : after ∈ requests.drop (i + 1) := by
    apply List.mem_of_getElem? (i := j - (i + 1))
    rw [List.getElem?_drop, ← hafter]
    congr 1
    omega
  have h₁ := sent_pos hold hfirst
  have h₂ := sent_pos hnew hsecond
  rw [← hsplit, sent_append, times_append]
  omega

/-! ### The worst outcome -/

lemma worst_mem {outcomes : List PostOutcome} (h : outcomes ≠ []) : worst outcomes ∈ outcomes := by
  cases outcomes with
  | nil => exact absurd rfl h
  | cons first outcomes =>
    rw [worst]
    clear h
    induction outcomes generalizing first with
    | nil => simp
    | cons next outcomes ih =>
      have hrest := ih (worse first next)
      rw [List.foldl_cons]
      have hone : worse first next = first ∨ worse first next = next := by
        unfold worse
        split_ifs <;> simp
      grind

lemma worse_le (first next : PostOutcome) : OUTCOME_RANK (worse first next) ≤ OUTCOME_RANK first ∧
    OUTCOME_RANK (worse first next) ≤ OUTCOME_RANK next := by
  unfold worse
  split_ifs <;> omega

lemma foldl_worse_le (first : PostOutcome) (outcomes : List PostOutcome) :
    ∀ outcome ∈ first :: outcomes,
      OUTCOME_RANK (outcomes.foldl worse first) ≤ OUTCOME_RANK outcome := by
  induction outcomes generalizing first with
  | nil => simp
  | cons next outcomes ih =>
    have hworse := worse_le first next
    have hself := ih (worse first next) _ List.mem_cons_self
    intro outcome hmem
    rw [List.foldl_cons]
    rcases List.mem_cons.mp hmem with rfl | hmem
    · omega
    · rcases List.mem_cons.mp hmem with rfl | hmem
      · omega
      · exact ih _ outcome (List.mem_cons_of_mem _ hmem)

lemma worst_le {outcomes : List PostOutcome} {outcome : PostOutcome} (h : outcome ∈ outcomes) :
    OUTCOME_RANK (worst outcomes) ≤ OUTCOME_RANK outcome := by
  cases outcomes with
  | nil => simp at h
  | cons first outcomes => exact foldl_worse_le first outcomes outcome h

/-! ### What every sound step keeps -/

/-- What is known of a post whose answers are awaited. -/
structure Posted (all : List Request) (listening : Bool) (post : Post) : Prop where
  made : ∀ i ∈ post.requests, ∃ request, all[i]? = some request ∧
    request.sentAt = post.sentAt ∧ (post.keepalive = false → request.keepalive = false)
  single : post.keepalive = false → post.requests.length ≤ 1
  heard : listening = true → post.transitionsAtSend = post.sentAt
  /-- Its rows on their first attempt are in no request but its own. -/
  once : ∀ seq, 0 < times post.fresh seq → times (sent all) seq ≤ 1
  own : ∀ (i : ℕ) (request : Request) (seq : ℕ), 0 < times post.fresh seq → all[i]? = some request →
    request.Carries seq → i ∈ post.requests

structure Inv (s : Sink) : Prop where
  /-- No row waits in two places. -/
  apart : ∀ seq, times (s.retry ++ s.resend) seq + times s.buffer seq +
    times (flying s.posts) seq ≤ 1
  numbered : ∀ seq, 0 < times (s.retry ++ s.resend) seq + times s.buffer seq +
    times (flying s.posts) seq + times (sent s.requests) seq → seq < s.seq
  unsent : ∀ seq, 0 < times s.buffer seq → times (sent s.requests) seq = 0
  once : ∀ seq, 0 < times (s.retry ++ s.resend) seq → times (sent s.requests) seq ≤ 1
  repeatable : ∀ seq, 0 < times (s.retry ++ s.resend) seq →
    ∀ request ∈ s.requests, request.Carries seq → request.MayRepeat
  posted : ∀ post ∈ s.posts, Posted s.requests s.listening post
  timed : ∀ request ∈ s.requests, request.sentAt ≤ s.transitions ∧
    ∀ found time, request.answer = some (found, time) → request.sentAt ≤ time ∧ time ≤ s.transitions
  twice : ∀ seq, times (sent s.requests) seq ≤ 2
  again : ∀ (i j : ℕ) (before after : Request) (seq : ℕ), i < j → s.requests[i]? = some before →
    s.requests[j]? = some after → before.Carries seq → after.Carries seq → before.MayRepeat
  heard : s.listening = true → s.pageTransitions = s.transitions

variable {s : Sink}

lemma Inv.once_run (h : Inv s) : Once s where
  distinct := by
    rw [List.nodup_iff_count_le_one]
    intro seq
    have hcount : (s.buffer.map BufferedEvent.seq).count seq = times s.buffer seq := by
      rw [List.count, List.countP_map, times]
      apply List.countP_congr
      simp
    have := h.apart seq
    omega
  twice := fun seq => (countP_carries_le _ seq).trans (h.twice seq)
  again := h.again

/-! ### A post goes out -/

/-- The rows of a batch, split into bodies, are sent once at most. -/
lemma times_bodies (rows : List BufferedEvent) (keepalive : Bool) (env : Env) (sentAt seq : ℕ) :
    times (sent ((bodies rows keepalive env).map fun part =>
      ({ rows := part.1, keepalive := part.2, sentAt } : Request))) seq ≤ times rows seq := by
  have hall (parts : List (List BufferedEvent × Bool)) :
      sent (parts.map fun part => ({ rows := part.1, keepalive := part.2, sentAt } : Request)) =
        parts.flatMap Prod.fst := by
    simp [sent, List.flatMap_map]
  rw [hall]
  unfold bodies
  split_ifs
  · simp
  · have hfilter (parts : List (List BufferedEvent × Bool)) :
        (parts.filter fun body => !body.1.isEmpty).flatMap Prod.fst = parts.flatMap Prod.fst := by
      induction parts with
      | nil => rfl
      | cons part parts ih =>
        rw [List.filter_cons, List.flatMap_cons]
        cases hpart : part.1 <;> simp [hpart, ih]
    rw [keepaliveBodies, hfilter]
    simp only [List.flatMap_cons, List.flatMap_nil, List.append_nil]
    rw [List.take_append_drop]
  · simp

lemma bodies_plain {rows : List BufferedEvent} {env : Env} :
    (bodies rows false env).length ≤ 1 ∧ ∀ part ∈ bodies rows false env, part.2 = false := by
  cases hrefused : env.isRefused <;> simp [bodies, hrefused]

/-- A batch of waiting rows goes out; `kept` stay behind. -/
lemma Inv.post (h : Inv s) {kept rows : List BufferedEvent} (keepalive : Bool) (env : Env)
    (hfresh : ∀ seq, times s.buffer seq ≤ times rows seq)
    (hrows : ∀ seq, times kept seq + times rows seq =
      times (s.retry ++ s.resend) seq + times s.buffer seq) :
    Inv (postSessionEvents { s with retry := kept, resend := [], buffer := [], bufferBytes := 0 }
      rows s.buffer keepalive env) := by
  set new := (bodies rows keepalive env).map fun part =>
    ({ rows := part.1, keepalive := part.2, sentAt := s.transitions } : Request) with hnew
  set post : Post :=
    { fresh := s.buffer, keepalive, transitionsAtSend := s.pageTransitions,
      sentAt := s.transitions,
      requests := List.range' s.requests.length (bodies rows keepalive env).length } with hpost
  have hstate : postSessionEvents
      { s with retry := kept, resend := [], buffer := [], bufferBytes := 0 }
      rows s.buffer keepalive env =
      { s with
        retry := kept, resend := [], buffer := [], bufferBytes := 0
        posts := s.posts ++ [post], requests := s.requests ++ new } := rfl
  have hbodies (seq : ℕ) : times (sent new) seq ≤ times rows seq :=
    times_bodies rows keepalive env s.transitions seq
  have hsent (seq : ℕ) : times (sent (s.requests ++ new)) seq =
      times (sent s.requests) seq + times (sent new) seq := by
    rw [sent_append, times_append]
  have hflying (seq : ℕ) : times (flying (s.posts ++ [post])) seq =
      times (flying s.posts) seq + times s.buffer seq := by
    rw [flying_append, times_append]
    simp [flying, hpost]
  have hlength : new.length = (bodies rows keepalive env).length := by simp [hnew]
  have hrow {i : ℕ} {request : Request} {seq : ℕ}
      (hrequest : (s.requests ++ new)[i]? = some request) (hcarries : request.Carries seq) :
      s.requests[i]? = some request ∨
        s.requests.length ≤ i ∧ i < s.requests.length + new.length ∧ 0 < times rows seq := by
    by_cases hold : i < s.requests.length
    · rw [List.getElem?_append_left hold] at hrequest
      exact .inl hrequest
    · rw [List.getElem?_append_right (by omega)] at hrequest
      have hlt := (List.getElem?_eq_some_iff.mp hrequest).1
      have := sent_pos (List.mem_of_getElem? hrequest) hcarries
      have := hbodies seq
      exact .inr ⟨by omega, by omega, by omega⟩
  rw [hstate]
  constructor
  case apart =>
    intro seq
    have := h.apart seq
    have := hrows seq
    have := hfresh seq
    simp only [hflying, List.append_nil, times_nil]
    omega
  case numbered =>
    intro seq hseq
    apply h.numbered seq
    have := hrows seq
    have := hbodies seq
    simp only [hflying, hsent, List.append_nil, times_nil] at hseq
    omega
  case unsent =>
    intro seq hseq
    simp at hseq
  case once =>
    intro seq hseq
    simp only [List.append_nil] at hseq
    have hapart := h.apart seq
    have := hrows seq
    have := hfresh seq
    have := hbodies seq
    have := h.once seq (by omega)
    simp only [hsent]
    omega
  case repeatable =>
    intro seq hseq request hrequest hcarries
    simp only [List.append_nil] at hseq
    have hapart := h.apart seq
    have := hrows seq
    have := hfresh seq
    obtain ⟨i, hi⟩ := List.getElem?_of_mem hrequest
    rcases hrow hi hcarries with hold | ⟨-, -, hnewrow⟩
    · exact h.repeatable seq (by omega) request (List.mem_of_getElem? hold) hcarries
    · omega
  case posted =>
    intro other hother
    rcases List.mem_append.mp hother with hother | hother
    · have hposted := h.posted other hother
      refine ⟨?_, hposted.single, hposted.heard, ?_, ?_⟩
      · intro i hi
        obtain ⟨request, hrequest, hrest⟩ := hposted.made i hi
        refine ⟨request, ?_, hrest⟩
        rw [List.getElem?_append_left (List.getElem?_eq_some_iff.mp hrequest).1, hrequest]
      all_goals
        have hin {seq : ℕ} (hfirst : 0 < times other.fresh seq) : times rows seq = 0 := by
          have hfly : 0 < times (flying s.posts) seq := by
            obtain ⟨row, hmem, hseq⟩ := times_pos.mp hfirst
            exact times_pos.mpr ⟨row, List.mem_flatMap.mpr ⟨other, hother, hmem⟩, hseq⟩
          have := h.apart seq
          have := hrows seq
          omega
      · intro seq hfresh
        have := hposted.once seq hfresh
        have := hin hfresh
        have := hbodies seq
        rw [hsent]
        omega
      · intro i request seq hfresh hrequest hcarries
        have := hin hfresh
        rcases hrow hrequest hcarries with hold | ⟨-, -, hnewrow⟩
        · exact hposted.own i request seq hfresh hold hcarries
        · omega
    · obtain rfl : other = post := by simpa using hother
      refine ⟨?_, ?_, h.heard, ?_, ?_⟩
      · intro i hi
        rw [List.mem_range'_1] at hi
        have hlt : i - s.requests.length < (bodies rows keepalive env).length := by omega
        refine ⟨new[i - s.requests.length], ?_, by simp only [hnew, List.getElem_map, hpost], ?_⟩
        · rw [List.getElem?_append_right hi.1, List.getElem?_eq_getElem]
        · intro hplain
          subst hplain
          simp only [hnew, List.getElem_map]
          exact bodies_plain.2 _ (List.getElem_mem _)
      · intro hplain
        subst hplain
        show (List.range' _ _).length ≤ 1
        rw [List.length_range']
        exact bodies_plain.1
      · intro seq hfresh
        have hunsent := h.unsent seq hfresh
        have := h.apart seq
        have := hrows seq
        have := hbodies seq
        rw [hsent]
        omega
      · intro i request seq hfresh hrequest hcarries
        rcases hrow hrequest hcarries with hold | ⟨hle, hlt, -⟩
        · have := sent_pos (List.mem_of_getElem? hold) hcarries
          have := h.unsent seq hfresh
          omega
        · rw [List.mem_range'_1]
          omega
  case timed =>
    intro request hrequest
    rcases List.mem_append.mp hrequest with hold | hnewrequest
    · exact h.timed request hold
    · obtain ⟨part, -, rfl⟩ := List.mem_map.mp hnewrequest
      simp
  case twice =>
    intro seq
    have := h.apart seq
    have := hrows seq
    have := hbodies seq
    have hunsent := h.unsent seq
    have honce := h.once seq
    have := h.twice seq
    rw [hsent]
    omega
  case again =>
    intro i j before after seq hij hbefore hafter hfirst hsecond
    rcases hrow hbefore hfirst with hold | ⟨hle, hlt, hrowi⟩
    · rcases hrow hafter hsecond with hlater | ⟨-, -, hrowj⟩
      · exact h.again i j before after seq hij hold hlater hfirst hsecond
      · have hmem := List.mem_of_getElem? hold
        have hpos := sent_pos hmem hfirst
        have hunsent := h.unsent seq
        have := hrows seq
        exact h.repeatable seq (by omega) before hmem hfirst
    · -- Both are bodies of this batch, which has the row only once.
      have hi : new[i - s.requests.length]? = some before := by
        rw [← hbefore, List.getElem?_append_right hle]
      have hj : new[j - s.requests.length]? = some after := by
        rw [← hafter, List.getElem?_append_right (by omega)]
      have htwo := two_le_sent (by omega) hi hj hfirst hsecond
      have := hbodies seq
      have := h.apart seq
      have := hrows seq
      omega
  case heard => exact h.heard

lemma Inv.send (h : Inv s) (keepalive : Bool) (env : Env) :
    Inv (EventSink.send s keepalive env).1 := by
  unfold EventSink.send
  dsimp only
  split_ifs with hwaits hkeepalive hempty hempty
  · exact h
  · exact h
  · apply h.post keepalive env <;> intro seq <;> simp only [times_append] <;> omega
  · exact h
  · apply h.post keepalive env <;> intro seq <;> simp only [times_append, times_nil] <;> omega

lemma Inv.runOnce (h : Inv s) (env : Env) : Inv (EventSink.runOnce s env) := by
  have hagain : Inv { s with flushAgain := false } := { h with }
  have hsent := hagain.send false env
  exact { hsent with }

lemma Inv.flush (h : Inv s) (keepalive : Bool) (env : Env) :
    Inv (EventSink.flush s keepalive env) := by
  unfold EventSink.flush
  split_ifs
  · exact h.send true env
  · exact { h with }
  · exact h.runOnce env

lemma Inv.resume (h : Inv s) (env : Env) : Inv (EventSink.resume s env) := by
  unfold EventSink.resume
  split_ifs
  · exact h.runOnce env
  · exact { h with }

/-! ### An answer -/

/-- An answer changes only a request that had none. -/
lemma getElem?_answer {index i : ℕ} {found : Answer} {request : Request}
    (h : (answer s index found).requests[i]? = some request) :
    ∃ old, s.requests[i]? = some old ∧ (request = old ∨
      old.answer = none ∧ request = { old with answer := some (found, s.transitions) }) := by
  rw [answer, List.getElem?_modify] at h
  obtain ⟨old, hold, rfl⟩ := Option.map_eq_some_iff.mp h
  refine ⟨old, hold, ?_⟩
  split_ifs with hindex hanswered
  · exact .inl rfl
  · exact .inr ⟨by simpa using hanswered, rfl⟩
  · exact .inl rfl

lemma sent_answer (index : ℕ) (found : Answer) :
    sent (answer s index found).requests = sent s.requests := by
  have hrows : (answer s index found).requests.map Request.rows = s.requests.map Request.rows := by
    apply List.ext_getElem?
    intro i
    rw [answer, List.getElem?_map, List.getElem?_modify, List.getElem?_map]
    cases s.requests[i]? with
    | none => rfl
    | some request =>
      simp only [Option.map_eq_map, Option.map_some]
      split_ifs <;> rfl
  simp only [sent, List.flatMap_def, hrows]

lemma Inv.answer (h : Inv s) (index : ℕ) (found : Answer) :
    Inv (EventSink.answer s index found) := by
  have hsent := sent_answer (s := s) index found
  have hold {i : ℕ} {request : Request} {seq : ℕ}
      (hi : (EventSink.answer s index found).requests[i]? = some request)
      (hcarries : request.Carries seq) :
      ∃ old, s.requests[i]? = some old ∧ old.Carries seq ∧ (old.MayRepeat → request.MayRepeat) := by
    obtain ⟨old, hold, rfl | ⟨hnone, rfl⟩⟩ := getElem?_answer hi
    · exact ⟨_, hold, hcarries, id⟩
    · refine ⟨_, hold, hcarries, ?_⟩
      rintro ⟨_, _, hanswer, -⟩
      rw [hnone] at hanswer
      contradiction
  constructor
  case apart => exact h.apart
  case numbered => rw [hsent]; exact h.numbered
  case unsent => rw [hsent]; exact h.unsent
  case once => rw [hsent]; exact h.once
  case repeatable =>
    intro seq hseq request hrequest hcarries
    obtain ⟨i, hi⟩ := List.getElem?_of_mem hrequest
    obtain ⟨old, hi, hcarries, hrepeat⟩ := hold hi hcarries
    exact hrepeat (h.repeatable seq hseq old (List.mem_of_getElem? hi) hcarries)
  case posted =>
    intro post hpost
    have hposted := h.posted post hpost
    refine ⟨?_, hposted.single, hposted.heard, ?_, ?_⟩
    · intro i hi
      obtain ⟨request, hrequest, hsentAt, hplain⟩ := hposted.made i hi
      simp only [EventSink.answer, List.getElem?_modify, hrequest]
      refine ⟨_, rfl, ?_, ?_⟩ <;> by_cases hindex : index = i <;>
        by_cases hanswered : request.answer.isSome <;>
        simp [hindex, hanswered, hsentAt] <;> exact hplain
    · rw [hsent]
      exact hposted.once
    · intro i request seq hfresh hrequest hcarries
      obtain ⟨old, hi, hcarries, -⟩ := hold hrequest hcarries
      exact hposted.own i old seq hfresh hi hcarries
  case timed =>
    intro request hrequest
    obtain ⟨i, hi⟩ := List.getElem?_of_mem hrequest
    obtain ⟨old, hold, rfl | ⟨hnone, rfl⟩⟩ := getElem?_answer hi
    · exact h.timed _ (List.mem_of_getElem? hold)
    · have htimed := (h.timed old (List.mem_of_getElem? hold)).1
      refine ⟨htimed, ?_⟩
      intro found time hanswer
      obtain ⟨-, rfl⟩ := Prod.mk.inj (Option.some.inj hanswer)
      exact ⟨htimed, le_rfl⟩
  case twice => rw [hsent]; exact h.twice
  case again =>
    intro i j before after seq hij hbefore hafter hfirst hsecond
    obtain ⟨old, hi, hfirst, hrepeat⟩ := hold hbefore hfirst
    obtain ⟨later, hj, hsecond, -⟩ := hold hafter hsecond
    exact hrepeat (h.again i j old later seq hij hi hj hfirst hsecond)
  case heard => exact h.heard

/-! ### A post is over -/

lemma answerOf_eq {index : ℕ} {found : Answer} (h : s.answerOf index = some found) :
    ∃ request time, s.requests[index]? = some request ∧ request.answer = some (found, time) := by
  obtain ⟨request, hrequest, hanswer⟩ := Option.bind_eq_some_iff.mp h
  obtain ⟨⟨_, time⟩, hmade, rfl⟩ := Option.map_eq_some_iff.mp hanswer
  exact ⟨request, time, hrequest, hmade⟩

/-- A settled post has all of its answers, and its outcome is the worst of theirs. -/
lemma outcome_spec {post : Post} {found : PostOutcome} (h : outcome s post = some found)
    (hrefused : found ≠ .refused) :
    (∀ i ∈ post.requests, ∃ answer, s.answerOf i = some answer ∧
      OUTCOME_RANK found ≤ OUTCOME_RANK (outcomeOfAnswer answer)) ∧
    ∃ i ∈ post.requests, ∃ answer, s.answerOf i = some answer ∧ outcomeOfAnswer answer = found := by
  unfold outcome at h
  split_ifs at h with hall
  obtain rfl := Option.some.inj h
  rw [List.all_eq_true] at hall
  constructor
  · intro i hi
    obtain ⟨answer, hanswer⟩ := Option.isSome_iff_exists.mp (hall i hi)
    refine ⟨answer, hanswer, worst_le ?_⟩
    exact List.mem_map_of_mem (List.mem_filterMap.mpr ⟨i, hi, hanswer⟩)
  · have hmem : worst ((post.requests.filterMap s.answerOf).map outcomeOfAnswer) ∈
        (post.requests.filterMap s.answerOf).map outcomeOfAnswer := by
      apply worst_mem
      intro hnil
      rw [hnil] at hrefused
      exact hrefused rfl
    obtain ⟨answer, hanswer, heq⟩ := List.mem_map.mp hmem
    obtain ⟨i, hi, hanswer⟩ := List.mem_filterMap.mp hanswer
    exact ⟨i, hi, answer, hanswer, heq⟩

/-- What is put back into a queue after a 429 or 5xx may be sent again. -/
lemma Posted.repeatable_retry {post : Post} (h : Posted s.requests s.listening post)
    (houtcome : outcome s post = some .retry) (hundivided : Undivided s post) {seq : ℕ}
    (hfresh : 0 < times post.fresh seq) {request : Request} (hrequest : request ∈ s.requests)
    (hcarries : request.Carries seq) : request.MayRepeat := by
  obtain ⟨hall, j, hj, other, hother, hretry⟩ := outcome_spec houtcome (by simp)
  obtain ⟨i, hi⟩ := List.getElem?_of_mem hrequest
  have hown := h.own i request seq hfresh hi hcarries
  obtain ⟨found, hfound, hrank⟩ := hall i hown
  obtain ⟨same, time, hsame, hanswer⟩ := answerOf_eq hfound
  obtain rfl : request = same := Option.some.inj (hi.symm.trans hsame)
  refine ⟨found, time, hanswer, ?_, ?_⟩
  · intro haccepted
    exact hundivided i hown j hj found hfound other hother haccepted hretry
  · rintro rfl
    simp [OUTCOME_RANK, outcomeOfAnswer] at hrank

/-- So may what is put back when no response came. -/
lemma Posted.repeatable_failed {post : Post} (h : Posted s.requests s.listening post)
    (htimed : ∀ request ∈ s.requests, request.sentAt ≤ s.transitions ∧ ∀ found time,
      request.answer = some (found, time) → request.sentAt ≤ time ∧ time ≤ s.transitions)
    (houtcome : outcome s post = some .failed) (hplain : post.keepalive = false)
    (hstill : s.transitions = post.sentAt) {seq : ℕ} (hfresh : 0 < times post.fresh seq)
    {request : Request} (hrequest : request ∈ s.requests) (hcarries : request.Carries seq) :
    request.MayRepeat := by
  obtain ⟨-, j, hj, found, hfound, hfailed⟩ := outcome_spec houtcome (by simp)
  obtain ⟨i, hi⟩ := List.getElem?_of_mem hrequest
  have hown := h.own i request seq hfresh hi hcarries
  -- An ordinary post is a single request.
  obtain rfl : i = j := by
    obtain ⟨a, ha, hai⟩ := List.getElem_of_mem hown
    obtain ⟨b, hb, hbj⟩ := List.getElem_of_mem hj
    have hsingle := h.single hplain
    obtain rfl : a = b := by omega
    rw [← hai, hbj]
  obtain ⟨same, time, hsame, hanswer⟩ := answerOf_eq hfound
  obtain rfl : request = same := Option.some.inj (hi.symm.trans hsame)
  obtain ⟨made, hmade, hsentAt, hkeepalive⟩ := h.made i hown
  obtain rfl : request = made := Option.some.inj (hi.symm.trans hmade)
  have hbetween := (htimed request hrequest).2 found time hanswer
  refine ⟨found, time, hanswer, by rw [hfailed]; simp, fun _ => ⟨hkeepalive hplain, ?_⟩⟩
  omega

lemma times_flying_eraseIdx {posts : List Post} {index : ℕ} {post : Post}
    (h : posts[index]? = some post) (seq : ℕ) :
    times (flying posts) seq = times post.fresh seq + times (flying (posts.eraseIdx index)) seq := by
  obtain ⟨hlt, rfl⟩ := List.getElem?_eq_some_iff.mp h
  have hperm := (List.getElem_cons_eraseIdx_perm hlt).flatMap_right Post.fresh
  rw [flying, times, ← hperm.countP_eq, List.flatMap_cons, List.countP_append]
  rfl

/-- A post that is over puts its fresh rows into a queue or gives them up. -/
lemma Inv.requeue (h : Inv s) {index : ℕ} {post : Post} (hpost : s.posts[index]? = some post)
    (retry resend buffer : List BufferedEvent)
    (hqueued : ∀ seq, times (retry ++ resend) seq ≤
      times (s.retry ++ s.resend) seq + times post.fresh seq)
    (hbuffer : ∀ seq, times buffer seq ≤ times s.buffer seq)
    (hrepeat : ∀ seq, 0 < times (retry ++ resend) seq → 0 < times post.fresh seq →
      ∀ request ∈ s.requests, request.Carries seq → request.MayRepeat) :
    Inv { s with posts := s.posts.eraseIdx index, retry, resend, buffer } := by
  have hflying := times_flying_eraseIdx hpost
  have hmem : post ∈ s.posts := List.mem_of_getElem? hpost
  constructor
  case apart =>
    intro seq
    have := h.apart seq
    have := hflying seq
    have := hqueued seq
    have := hbuffer seq
    dsimp only
    omega
  case numbered =>
    intro seq hseq
    apply h.numbered seq
    have := hflying seq
    have := hqueued seq
    have := hbuffer seq
    dsimp only at hseq
    omega
  case unsent =>
    intro seq hseq
    exact h.unsent seq (lt_of_lt_of_le hseq (hbuffer seq))
  case once =>
    intro seq hseq
    have := hqueued seq
    have hold := h.once seq
    have hnew := (h.posted post hmem).once seq
    dsimp only at hseq ⊢
    omega
  case repeatable =>
    intro seq hseq request hrequest hcarries
    by_cases hfresh : 0 < times post.fresh seq
    · exact hrepeat seq hseq hfresh request hrequest hcarries
    · have := hqueued seq
      dsimp only at hseq
      exact h.repeatable seq (by omega) request hrequest hcarries
  case posted =>
    intro other hother
    exact h.posted other (List.mem_of_mem_eraseIdx hother)
  case timed => exact h.timed
  case twice => exact h.twice
  case again => exact h.again
  case heard => exact h.heard

lemma Inv.settle (h : Inv s) (index now : ℕ) (hsound : Sound s (.settle index now)) :
    Inv (EventSink.settle s index now) := by
  unfold EventSink.settle
  cases hpost : s.posts[index]? with
  | none => exact h
  | some post =>
    obtain ⟨hundivided, hheard⟩ := hsound post hpost
    have hposted := h.posted post (List.mem_of_getElem? hpost)
    dsimp only
    cases houtcome : outcome s post with
    | none => exact h
    | some found =>
      dsimp only
      have hflying := times_flying_eraseIdx hpost
      -- Nothing is put back.
      have hgiven (retry buffer : List BufferedEvent)
          (hretry : ∀ seq, times retry seq ≤ times s.retry seq)
          (hbuffer : ∀ seq, times buffer seq ≤ times s.buffer seq) :
          Inv { s with posts := s.posts.eraseIdx index, retry, buffer } := by
        refine h.requeue hpost retry s.resend buffer ?_ hbuffer ?_
        · intro seq
          have := hretry seq
          rw [times_append, times_append]
          omega
        · intro seq hqueued hfresh
          have hapart := h.apart seq
          have := hflying seq
          have := hretry seq
          rw [times_append] at hqueued hapart
          omega
      cases found with
      | accepted => exact { hgiven s.retry s.buffer (fun _ => le_rfl) fun _ => le_rfl with }
      | rejected => exact { hgiven s.retry s.buffer (fun _ => le_rfl) fun _ => le_rfl with }
      | refused => exact { hgiven [] [] (fun _ => Nat.zero_le _) fun _ => Nat.zero_le _ with }
      | retry =>
        have hqueued : Inv { s with
            posts := s.posts.eraseIdx index
            resend := post.fresh ++ s.resend } := by
          refine h.requeue hpost s.retry (post.fresh ++ s.resend) s.buffer ?_ ?_ ?_
          · intro seq
            simp only [times_append]
            omega
          · exact fun _ => le_rfl
          · intro seq _ hfresh request hrequest hcarries
            exact hposted.repeatable_retry houtcome hundivided hfresh hrequest hcarries
        exact { hqueued with }
      | failed =>
        unfold afterPost
        dsimp only
        by_cases hkept : (!post.keepalive && s.pageTransitions = post.transitionsAtSend) = true
        · rw [if_pos hkept]
          simp only [Bool.and_eq_true, Bool.not_eq_true', decide_eq_true_eq] at hkept
          obtain ⟨hplain, hsame⟩ := hkept
          have hstill : s.transitions = post.sentAt := by
            rcases hheard with hlistening | hstill
            · rw [← h.heard hlistening, hsame, hposted.heard hlistening]
            · exact hstill
          have hqueued : Inv { s with
              posts := s.posts.eraseIdx index
              retry := post.fresh ++ s.retry } := by
            refine h.requeue hpost (post.fresh ++ s.retry) s.resend s.buffer ?_ ?_ ?_
            · intro seq
              simp only [times_append]
              omega
            · exact fun _ => le_rfl
            · intro seq _ hfresh request hrequest hcarries
              exact hposted.repeatable_failed h.timed houtcome hplain hstill hfresh hrequest
                hcarries
          exact { hqueued with }
        · rw [if_neg hkept]
          exact { hgiven s.retry s.buffer (fun _ => le_rfl) fun _ => le_rfl with }

/-! ### Whole runs -/

lemma times_dropOldest (rows : List BufferedEvent) (bytes seq : ℕ) :
    times (dropOldest rows bytes).1 seq ≤ times rows seq := by
  fun_induction dropOldest rows bytes with
  | case1 first second rest bytes _ ih =>
    rw [times_cons first]
    omega
  | case2 => exact le_rfl
  | case3 => exact le_rfl

lemma Inv.count (h : Inv s) (ev : SessionEvent) : Inv (s.count ev) := by
  unfold Sink.count
  split_ifs
  all_goals first | exact h | exact { h with }

/-- A new row, behind the ones that are kept. -/
lemma Inv.push (h : Inv s) (ev : SessionEvent) {kept : List BufferedEvent} {bufferBytes : ℕ}
    {repeatedErrors : List (Text × Seen)}
    (hkept : ∀ seq, times kept seq ≤ times (s.buffer ++ [⟨ev, s.seq⟩]) seq) :
    Inv { s with seq := s.seq + 1, buffer := kept, bufferBytes, repeatedErrors } := by
  have hsplit (seq : ℕ) :
      times kept seq ≤ times s.buffer seq + if s.seq = seq then 1 else 0 := by
    refine (hkept seq).trans ?_
    rw [times_append, times_cons, times_nil, Nat.zero_add]
  -- The new number stands nowhere yet.
  have hnew : times (s.retry ++ s.resend) s.seq + times s.buffer s.seq +
      times (flying s.posts) s.seq + times (sent s.requests) s.seq = 0 := by
    by_contra hpos
    exact absurd (h.numbered s.seq (Nat.pos_of_ne_zero hpos)) (lt_irrefl _)
  constructor
  case apart =>
    intro seq
    have := h.apart seq
    have hrow := hsplit seq
    dsimp only
    split_ifs at hrow with hseq
    · subst hseq
      omega
    · omega
  case numbered =>
    intro seq hpos
    have hrow := hsplit seq
    have hnumbered := h.numbered seq
    dsimp only at hpos ⊢
    split_ifs at hrow with hseq <;> omega
  case unsent =>
    intro seq hpos
    have hrow := hsplit seq
    have hunsent := h.unsent seq
    dsimp only at hpos ⊢
    split_ifs at hrow with hseq
    · subst hseq
      omega
    · omega
  case once => exact h.once
  case repeatable => exact h.repeatable
  case posted => exact h.posted
  case timed => exact h.timed
  case twice => exact h.twice
  case again => exact h.again
  case heard => exact h.heard

lemma Inv.stop (h : Inv s) : Inv (EventSink.stop s) :=
  { h with
    posted := fun post hpost => { h.posted post hpost with heard := by simp [EventSink.stop] }
    heard := by simp [EventSink.stop] }

lemma Inv.emit (h : Inv s) (ev : SessionEvent) (activity : Activity) (env : Env) :
    Inv (EventSink.emit s ev activity env) := by
  cases activity with
  | none => exact h
  | other =>
    simp only [EventSink.emit]
    split_ifs
    · exact (h.flush false env).stop
    · exact h
  | same =>
    have hcount := h.count ev
    simp only [EventSink.emit]
    split_ifs with hrefused hrepeated hfull
    · exact hcount
    · exact { hcount with }
    · exact (hcount.push ev (times_dropOldest _ _)).flush false env
    · exact hcount.push ev (times_dropOldest _ _)

lemma Inv.onPageTransition (h : Inv s) (isPagehide : Bool) :
    Inv (EventSink.onPageTransition s isPagehide) := by
  have htimed : ∀ request ∈ s.requests, request.sentAt ≤ s.transitions + 1 ∧ ∀ found time,
      request.answer = some (found, time) →
        request.sentAt ≤ time ∧ time ≤ s.transitions + 1 := by
    intro request hrequest
    obtain ⟨hsentAt, hanswer⟩ := h.timed request hrequest
    refine ⟨by omega, fun found time hfound => ?_⟩
    have := hanswer found time hfound
    omega
  unfold EventSink.onPageTransition
  dsimp only
  by_cases hlistening : s.listening = true
  · rw [if_pos hlistening]
    have hless (seq : ℕ) : times ((if isPagehide then [] else s.retry) ++ s.resend) seq ≤
        times (s.retry ++ s.resend) seq := by
      rw [times_append, times_append]
      split_ifs <;> simp
    constructor
    case apart =>
      intro seq
      have := h.apart seq
      have := hless seq
      dsimp only
      omega
    case numbered =>
      intro seq hseq
      apply h.numbered seq
      have := hless seq
      dsimp only at hseq
      omega
    case once => exact fun seq hseq => h.once seq (lt_of_lt_of_le hseq (hless seq))
    case repeatable => exact fun seq hseq => h.repeatable seq (lt_of_lt_of_le hseq (hless seq))
    case heard =>
      intro hheard
      dsimp only
      rw [h.heard hheard]
    case unsent => exact h.unsent
    case posted => exact h.posted
    case timed => exact htimed
    case twice => exact h.twice
    case again => exact h.again
  · rw [if_neg hlistening]
    exact { h with
      timed := htimed
      heard := fun hheard => absurd hheard hlistening }

lemma inv_start : Inv {} := by
  constructor <;> simp [flying, sent]

lemma Inv.step (h : Inv s) {l : Step} (hsound : Sound s l) : Inv (EventSink.step s l) := by
  cases l with
  | emit ev activity env => exact h.emit ev activity env
  | flush keepalive env => exact h.flush keepalive env
  | pageTransition isPagehide => exact h.onPageTransition isPagehide
  | answer index found => exact h.answer index found
  | settle index now => exact h.settle index now hsound
  | resume env =>
    simp only [EventSink.step]
    split_ifs
    · exact h.resume env
    · exact h
  | stop => exact h.stop

/-- In every run in which no post is divided, and no page transition is missed by a sink that was
stopped, no accepted row is sent again. -/
theorem once_of_sound_run {s : Sink}
    (h : ReachWhen (fun s l => some (step s l)) Sound (fun s => s = {}) s) : Once s := by
  apply Inv.once_run
  refine h.invariant ?_ ?_
  · rintro s rfl
    exact inv_start
  · intro s l s' hinv hsound hstep
    obtain rfl := Option.some.inj hstep
    exact hinv.step hsound

def click (lineBytes : ℕ) : SessionEvent := { type := .click, size := 40, lineBytes }

def calm (room : ℕ) : Env := { now := 0, keepaliveRoom := room, isRefused := false }

/-- A click is posted, answered with a 503 and posted once more. -/
def resentSteps : List Step :=
  [.emit (click 10) .same (calm 0), .flush false (calm 0), .answer 0 (some 503), .settle 0 0,
    .resume (calm 0), .flush true (calm 64)]

/-- Two clicks leave with the page in two requests, of which one is accepted and one is not, and
then once more. -/
def dividedSteps : List Step :=
  [.emit (click 10) .same (calm 0), .emit (click 10) .same (calm 0), .flush true (calm 10),
    .answer 0 (some 202), .answer 1 (some 503), .settle 0 0, .flush true (calm 64)]

theorem once_of_resent_run : Once (run resentSteps) := by
  apply once_of_sound_run
  have hrun : runWhen (fun s l => some (step s l)) Sound {} resentSteps =
      some (run resentSteps) := by decide
  exact reachWhen_runWhen (.start rfl) hrun

theorem not_once_of_divided_run : ¬ Once (run dividedSteps) := by
  intro h
  obtain ⟨found, time, hanswer, haccepted, -⟩ :=
    h.again 0 2 _ _ 0 (by decide) rfl rfl (by decide) (by decide)
  obtain ⟨rfl, -⟩ := Prod.mk.inj (Option.some.inj hanswer)
  exact haccepted rfl

end Maple.EventSink
