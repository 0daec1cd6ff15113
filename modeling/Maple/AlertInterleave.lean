import Maple.InsertMap

/-! Alert rules of many tenants in one tick: each tenant's in order, one of each tenant a round. -/

namespace Maple.Alerting

variable {T K : Type} [DecidableEq K] (tenantIdOf : T → K) (rows : List T)

/-- The rows of each tenant, the tenants in order of their first row. -/
def tenantQueues : InsertMap K (List T) :=
  rows.foldl (fun queues row =>
    queues.set (tenantIdOf row) ((queues.get (tenantIdOf row)).getD [] ++ [row])) .empty

/-- What one pass over the queues appends. -/
def roundAt (queues : InsertMap K (List T)) (index : ℕ) : List T :=
  queues.values.filterMap fun queue => queue[index]?

/-- The loop of rounds; none when the fuel runs out first. -/
def fairFrom (queues : InsertMap K (List T)) (length : ℕ) : ℕ → ℕ → List T → Option (List T)
  | 0, _, _ => none
  | fuel + 1, index, fair =>
    if fair.length < length then
      fairFrom queues length fuel (index + 1) (fair ++ roundAt queues index)
    else some fair

def interleaveAlertRulesByTenant (fuel : ℕ) : Option (List T) :=
  fairFrom (tenantQueues tenantIdOf rows) rows.length fuel 0 []

/-! ### Queues -/

def ofTenant (k : K) (rows : List T) : List T := rows.filter fun row => tenantIdOf row = k

lemma ofTenant_append (k : K) (more : List T) : ofTenant tenantIdOf k (rows ++ more) =
    ofTenant tenantIdOf k rows ++ ofTenant tenantIdOf k more := List.filter_append ..

lemma get_tenantQueues (k : K) : (tenantQueues tenantIdOf rows).get k =
    if ofTenant tenantIdOf k rows = [] then none else some (ofTenant tenantIdOf k rows) := by
  induction rows using List.reverseRecOn with
  | nil => rfl
  | append_singleton rows row ih =>
    have hqueue : ((tenantQueues tenantIdOf rows).get k).getD [] = ofTenant tenantIdOf k rows := by
      rw [ih]
      split_ifs with hnil
      · exact hnil.symm
      · rfl
    have hstep : tenantQueues tenantIdOf (rows ++ [row]) =
        (tenantQueues tenantIdOf rows).set (tenantIdOf row)
          (((tenantQueues tenantIdOf rows).get (tenantIdOf row)).getD [] ++ [row]) := by
      simp only [tenantQueues, List.foldl_append, List.foldl_cons, List.foldl_nil]
    rw [hstep, InsertMap.get_set, ofTenant_append]
    by_cases hk : k = tenantIdOf row
    · subst hk
      rw [if_pos rfl, hqueue]
      simp [ofTenant]
    · have hnone : ofTenant tenantIdOf k [row] = [] := by simp [ofTenant, Ne.symm hk]
      rw [if_neg hk, ih, hnone, List.append_nil]

/-- A round has a tenant's next row, if it has one, and no other row of the tenant. -/
lemma ofTenant_roundAt (k : K) (index : ℕ) :
    ofTenant tenantIdOf k (roundAt (tenantQueues tenantIdOf rows) index) =
      (ofTenant tenantIdOf k rows)[index]?.toList := by
  have hqueue : ∀ entry ∈ (tenantQueues tenantIdOf rows).entries,
      entry.2 = ofTenant tenantIdOf entry.1 rows := by
    intro entry hentry
    have hget := get_tenantQueues tenantIdOf rows entry.1
    rw [InsertMap.mem_entries.mp hentry] at hget
    split_ifs at hget
    exact Option.some.inj hget
  have habsent : k ∉ (tenantQueues tenantIdOf rows).entries.map Prod.fst →
      ofTenant tenantIdOf k rows = [] := by
    intro hk
    by_contra hne
    have hget := get_tenantQueues tenantIdOf rows k
    rw [if_neg hne] at hget
    exact hk (List.mem_map.mpr ⟨_, InsertMap.mem_entries.mpr hget, rfl⟩)
  have hnodup := (tenantQueues tenantIdOf rows).nodup
  rw [roundAt, InsertMap.values]
  generalize (tenantQueues tenantIdOf rows).entries = entries at hqueue habsent hnodup
  rw [List.filterMap_map, ofTenant, List.filter_filterMap]
  induction entries with
  | nil => simp [habsent (by simp)]
  | cons entry entries ih =>
    obtain ⟨hfresh, hnodup⟩ := List.nodup_cons.mp hnodup
    have hfirst := hqueue entry (by simp)
    have hrest := fun other hother => hqueue other (List.mem_cons_of_mem entry hother)
    have htenant : ∀ row ∈ entry.2, tenantIdOf row = entry.1 := by
      intro row hrow
      rw [hfirst] at hrow
      simpa [ofTenant] using (List.mem_filter.mp hrow).2
    by_cases hk : entry.1 = k
    · subst hk
      have hnone : List.filterMap (fun other : K × List T => (other.2[index]?).filter
          fun row => decide (tenantIdOf row = entry.1)) entries = [] := by
        refine List.filterMap_eq_nil_iff.mpr fun other hother => ?_
        rw [Option.filter_eq_none_iff]
        intro row hrow
        have hmem := List.mem_of_getElem? hrow
        rw [hrest other hother] at hmem
        have hother' : tenantIdOf row = other.1 := by
          simpa [ofTenant] using (List.mem_filter.mp hmem).2
        have hne : other.1 ≠ entry.1 :=
          fun heq => hfresh (heq ▸ List.mem_map_of_mem hother)
        simpa [hother'] using hne
      have hsame : (entry.2[index]?).filter (fun row => decide (tenantIdOf row = entry.1)) =
          entry.2[index]? := by
        cases hrow : entry.2[index]? with
        | none => rfl
        | some row => simp [htenant row (List.mem_of_getElem? hrow)]
      rw [List.filterMap_cons]
      simp only [Function.comp_apply, hsame] at hnone ⊢
      rw [← hfirst]
      cases hrow : entry.2[index]? with
      | none => simpa using hnone
      | some row => simpa using hnone
    · have hdrop : (entry.2[index]?).filter (fun row => decide (tenantIdOf row = k)) = none := by
        rw [Option.filter_eq_none_iff]
        intro row hrow
        simpa [htenant row (List.mem_of_getElem? hrow)] using hk
      rw [List.filterMap_cons]
      simp only [Function.comp_apply, hdrop]
      refine ih hrest (fun hnot => habsent ?_) hnodup
      rw [List.map_cons, List.mem_cons, not_or]
      exact ⟨Ne.symm hk, hnot⟩

/-! ### Rounds -/

/-- What the first rounds append. -/
def roundsBelow (n : ℕ) : List T :=
  (List.range n).flatMap (roundAt (tenantQueues tenantIdOf rows))

lemma roundsBelow_succ (n : ℕ) : roundsBelow tenantIdOf rows (n + 1) =
    roundsBelow tenantIdOf rows n ++ roundAt (tenantQueues tenantIdOf rows) n := by
  rw [roundsBelow, List.range_succ, List.flatMap_append, List.flatMap_singleton]
  rfl

/-- After some rounds a tenant has had as many of its first rows. -/
lemma ofTenant_roundsBelow (k : K) (n : ℕ) :
    ofTenant tenantIdOf k (roundsBelow tenantIdOf rows n) =
      (ofTenant tenantIdOf k rows).take n := by
  induction n with
  | zero => rfl
  | succ n ih =>
    rw [roundsBelow_succ, ofTenant_append, ih, ofTenant_roundAt, List.take_add_one]

lemma ofTenant_allRounds (k : K) :
    ofTenant tenantIdOf k (roundsBelow tenantIdOf rows rows.length) =
      ofTenant tenantIdOf k rows := by
  have hle : (ofTenant tenantIdOf k rows).length ≤ rows.length := List.length_filter_le _ _
  rw [ofTenant_roundsBelow, List.take_of_length_le hle]

lemma perm_of_ofTenant {rows others : List T}
    (h : ∀ k, ofTenant tenantIdOf k rows = ofTenant tenantIdOf k others) : rows.Perm others := by
  classical
  refine List.perm_iff_count.mpr fun row => ?_
  have hcount : ∀ l : List T, l.count row = (ofTenant tenantIdOf (tenantIdOf row) l).count row :=
    fun l => (List.count_filter (by simp)).symm
  rw [hcount rows, hcount others, h]

lemma roundsBelow_perm : (roundsBelow tenantIdOf rows rows.length).Perm rows :=
  perm_of_ofTenant tenantIdOf (ofTenant_allRounds tenantIdOf rows)

lemma roundsBelow_start {m n : ℕ} (h : m ≤ n) :
    roundsBelow tenantIdOf rows m <+: roundsBelow tenantIdOf rows n := by
  induction n, h using Nat.le_induction with
  | base => exact List.prefix_refl _
  | succ n _ ih =>
    rw [roundsBelow_succ]
    exact ih.trans (List.prefix_append _ _)

/-- The loop ends, after at most as many rounds as there are rows, with all of them. -/
lemma fairFrom_eq {fuel index : ℕ} (hindex : index ≤ rows.length)
    (hfuel : rows.length < index + fuel) :
    fairFrom (tenantQueues tenantIdOf rows) rows.length fuel index
        (roundsBelow tenantIdOf rows index) = some (roundsBelow tenantIdOf rows rows.length) := by
  have hstart := roundsBelow_start tenantIdOf rows hindex
  have hlength := (roundsBelow_perm tenantIdOf rows).length_eq
  induction fuel generalizing index with
  | zero => omega
  | succ fuel ih =>
    rw [fairFrom]
    split_ifs with hshort
    · have hlt : index < rows.length := by
        by_contra hge
        have heq : index = rows.length := by omega
        rw [heq, hlength] at hshort
        exact lt_irrefl _ hshort
      have hnext := ih hlt (by omega) (roundsBelow_start tenantIdOf rows hlt)
      rwa [roundsBelow_succ] at hnext
    · rw [hstart.eq_of_length_le (by omega)]

/-- A part of the result from its start is some rounds and a part of the next. -/
lemma prefix_roundsBelow {front : List T} {n : ℕ} (h : front <+: roundsBelow tenantIdOf rows n) :
    ∃ m part, front = roundsBelow tenantIdOf rows m ++ part ∧
      part <+: roundAt (tenantQueues tenantIdOf rows) m := by
  induction n with
  | zero =>
    obtain rfl := List.prefix_nil.mp h
    exact ⟨0, [], rfl, List.nil_prefix⟩
  | succ n ih =>
    rw [roundsBelow_succ] at h
    rcases List.prefix_or_prefix_of_prefix h (List.prefix_append _ _) with hfront | hfront
    · exact ih hfront
    · obtain ⟨part, rfl⟩ := hfront
      exact ⟨n, part, rfl, (List.prefix_append_right_inj _).mp h⟩

/-- In every prefix a tenant has at most one row more than another, which otherwise has had all. -/
lemma fair_of_prefix {front : List T} {n : ℕ} (h : front <+: roundsBelow tenantIdOf rows n)
    (a b : K) : (ofTenant tenantIdOf a front).length ≤ (ofTenant tenantIdOf b front).length + 1 ∨
      (ofTenant tenantIdOf b front).length = (ofTenant tenantIdOf b rows).length := by
  obtain ⟨m, part, rfl, hpart⟩ := prefix_roundsBelow tenantIdOf rows h
  have hmost : (ofTenant tenantIdOf a (roundsBelow tenantIdOf rows m ++ part)).length ≤ m + 1 := by
    have hround := (hpart.sublist.filter fun row => decide (tenantIdOf row = a)).length_le
    have hone := congrArg List.length (ofTenant_roundAt tenantIdOf rows a m)
    have htoList : (ofTenant tenantIdOf a rows)[m]?.toList.length ≤ 1 := by
      cases (ofTenant tenantIdOf a rows)[m]? <;> simp
    rw [ofTenant_append, ofTenant_roundsBelow, List.length_append, List.length_take]
    change (ofTenant tenantIdOf a part).length ≤ (ofTenant tenantIdOf a _).length at hround
    omega
  have hleast : min m (ofTenant tenantIdOf b rows).length ≤
      (ofTenant tenantIdOf b (roundsBelow tenantIdOf rows m ++ part)).length := by
    rw [ofTenant_append, ofTenant_roundsBelow, List.length_append, List.length_take]
    omega
  have hall : (ofTenant tenantIdOf b (roundsBelow tenantIdOf rows m ++ part)).length ≤
      (ofTenant tenantIdOf b rows).length := by
    have hwhole : roundsBelow tenantIdOf rows m ++ part <+: roundsBelow tenantIdOf rows (m + 1) := by
      rw [roundsBelow_succ]
      exact (List.prefix_append_right_inj _).mpr hpart
    have hfilter := (hwhole.sublist.filter fun row => decide (tenantIdOf row = b)).length_le
    change (ofTenant tenantIdOf b _).length ≤ (ofTenant tenantIdOf b _).length at hfilter
    rw [ofTenant_roundsBelow, List.length_take] at hfilter
    omega
  omega

/-- The row at `i` is the row number `k` of its tenant, counted from zero. -/
def IsNth (fair : List T) (i : ℕ) (tenant : K) (k : ℕ) : Prop :=
  ∃ row, fair[i]? = some row ∧ tenantIdOf row = tenant ∧
    (ofTenant tenantIdOf tenant (fair.take i)).length = k

lemma IsNth.take_succ {fair : List T} {i k : ℕ} {tenant : K}
    (h : IsNth tenantIdOf fair i tenant k) :
    (ofTenant tenantIdOf tenant (fair.take (i + 1))).length = k + 1 := by
  obtain ⟨row, hrow, htenant, hcount⟩ := h
  rw [List.take_add_one, ofTenant_append, List.length_append, hcount, hrow]
  simp [ofTenant, htenant]

/-- With enough rounds the loop returns all rows, each tenant's in order; a tenant's next row comes
after the row before it of every tenant, so no prefix favours a tenant by more than one row over one
that has rows left. -/
theorem interleave_fair : ∃ fair, (∀ fuel, rows.length < fuel →
      interleaveAlertRulesByTenant tenantIdOf rows fuel = some fair) ∧
    fair.Perm rows ∧
    (∀ k, ofTenant tenantIdOf k fair = ofTenant tenantIdOf k rows) ∧
    (∀ i j a b k, IsNth tenantIdOf fair i a k → IsNth tenantIdOf fair j b (k + 1) → i < j) ∧
    ∀ front, front <+: fair → ∀ a b,
      (ofTenant tenantIdOf a front).length ≤ (ofTenant tenantIdOf b front).length + 1 ∨
        (ofTenant tenantIdOf b front).length = (ofTenant tenantIdOf b rows).length := by
  refine ⟨roundsBelow tenantIdOf rows rows.length, ?_, roundsBelow_perm tenantIdOf rows,
    ofTenant_allRounds tenantIdOf rows, ?_,
    fun front hfront a b => fair_of_prefix tenantIdOf rows hfront a b⟩
  · intro fuel hfuel
    exact fairFrom_eq tenantIdOf rows (Nat.zero_le _) (by omega)
  · intro i j a b k hi hj
    by_contra hle
    have hji : j < i := by
      rcases Nat.lt_or_ge j i with hlt | hge
      · exact hlt
      · obtain rfl : i = j := by omega
        obtain ⟨row, hrow, ha, hcount⟩ := hi
        obtain ⟨row', hrow', hb, hcount'⟩ := hj
        obtain rfl : row = row' := Option.some.inj (hrow.symm.trans hrow')
        obtain rfl : a = b := ha.symm.trans hb
        omega
    have hstart := List.take_prefix (j + 1) (roundsBelow tenantIdOf rows rows.length)
    have hfew : (ofTenant tenantIdOf a
        ((roundsBelow tenantIdOf rows rows.length).take (j + 1))).length ≤ k := by
      obtain ⟨-, -, -, hcount⟩ := hi
      rw [← hcount]
      exact ((List.take_sublist_take_left (by omega)).filter _).length_le
    have hmany := IsNth.take_succ tenantIdOf hj
    rcases fair_of_prefix tenantIdOf rows hstart b a with hnear | hdone
    · omega
    · have hlater := IsNth.take_succ tenantIdOf hi
      have hmore := ((List.take_sublist (i + 1)
        (roundsBelow tenantIdOf rows rows.length)).filter
          fun row => decide (tenantIdOf row = a)).length_le
      change (ofTenant tenantIdOf a _).length ≤ (ofTenant tenantIdOf a _).length at hmore
      rw [ofTenant_allRounds] at hmore
      omega

example : interleaveAlertRulesByTenant Prod.fst
    [("a", 1), ("a", 2), ("b", 1), ("a", 3), ("b", 2)] 6 =
      some [("a", 1), ("b", 1), ("a", 2), ("b", 2), ("a", 3)] := by decide

end Maple.Alerting
