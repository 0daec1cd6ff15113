import Mathlib.Order.Lattice
import Mathlib.Data.List.Nodup
import Mathlib.Data.List.Count

/-! A cursor over rows read in the order of a key: a mark, and the names of the rows already taken
at that mark. Taking what a page holds beyond the cursor takes every row once. -/

namespace PageCursor

variable {α κ ι : Type} [LinearOrder κ] [DecidableEq ι] (key : α → κ) (name : α → ι)

/-- The rows a cursor has still to take. -/
def remaining (rows : List α) (mark : κ) (seen : List ι) : List α :=
  rows.filter fun r => decide (mark ≤ key r) && decide (name r ∉ seen)

lemma mem_remaining {rows : List α} {mark : κ} {seen : List ι} {r : α} :
    r ∈ remaining key name rows mark seen ↔ r ∈ rows ∧ mark ≤ key r ∧ name r ∉ seen := by
  simp [remaining]

/-- Everything from `first` on is taken or remains, in this order, and what the cursor names was
taken at its mark. -/
structure Taken (rows : List α) (first mark : κ) (seen : List ι) (taken : List α) : Prop where
  split : remaining key name rows first [] = taken ++ remaining key name rows mark seen
  named : ∀ i ∈ seen, ∃ r ∈ taken, name r = i ∧ key r = mark
  first_le : first ≤ mark

variable {key name} {rows taken : List α} {first mark : κ} {seen : List ι}

/-- A fresh cursor has taken nothing. -/
lemma Taken.start (rows : List α) (mark : κ) : Taken key name rows mark mark [] [] where
  split := rfl
  named := by simp
  first_le := le_rfl

lemma Taken.mem_rows (h : Taken key name rows first mark seen taken) {r : α} (hr : r ∈ taken) :
    r ∈ rows ∧ first ≤ key r := by
  have hmem : r ∈ remaining key name rows first [] := by
    rw [h.split]
    exact List.mem_append_left _ hr
  have := (mem_remaining key name).mp hmem
  exact ⟨this.1, this.2.1⟩

/-- Moving the cursor over a chunk: it passes the chunk and keeps the rest before it. -/
theorem Taken.advance (h : Taken key name rows first mark seen taken) {chunk rest : List α}
    {mark' : κ} {seen' : List ι}
    (hsplit : remaining key name rows mark seen = chunk ++ rest) (hmark : mark ≤ mark')
    (hkeep : ∀ r ∈ rows, name r ∈ seen → mark' ≤ key r → name r ∈ seen')
    (hchunk : ∀ r ∈ chunk, key r < mark' ∨ name r ∈ seen')
    (hrest : ∀ r ∈ rest, mark' ≤ key r ∧ name r ∉ seen')
    (hseen : ∀ i ∈ seen', ∃ r ∈ taken ++ chunk, name r = i ∧ key r = mark') :
    Taken key name rows first mark' seen' (taken ++ chunk) where
  split := by
    -- what the new cursor leaves, the old one left
    have hsub : remaining key name rows mark' seen' =
        (remaining key name rows mark seen).filter
          fun r => decide (mark' ≤ key r) && decide (name r ∉ seen') := by
      rw [remaining, remaining, List.filter_filter]
      refine List.filter_congr fun r hr => ?_
      rw [Bool.eq_iff_iff]
      simp only [Bool.and_eq_true, decide_eq_true_eq]
      constructor
      · intro hnew
        exact ⟨hnew, hmark.trans hnew.1, fun hold => hnew.2 (hkeep r hr hold hnew.1)⟩
      · exact fun hboth => hboth.1
    have hempty :
        (chunk.filter fun r => decide (mark' ≤ key r) && decide (name r ∉ seen')) = [] := by
      refine List.filter_eq_nil_iff.mpr fun r hr => ?_
      rcases hchunk r hr with hlt | hin
      · simp [not_le.mpr hlt]
      · simp [hin]
    have hall :
        (rest.filter fun r => decide (mark' ≤ key r) && decide (name r ∉ seen')) = rest := by
      refine List.filter_eq_self.mpr fun r hr => ?_
      simpa using hrest r hr
    rw [h.split, hsub, hsplit, List.filter_append, hempty, hall, List.nil_append,
      List.append_assoc]
  named := hseen
  first_le := le_trans h.first_le hmark

section Distinct

variable (hnames : (rows.map name).Nodup)
include hnames

lemma taken_append_nodup (h : Taken key name rows first mark seen taken) :
    ((taken ++ remaining key name rows mark seen).map name).Nodup := by
  rw [← h.split]
  exact (List.filter_sublist.map name).nodup hnames

/-- A row the cursor passed was taken once. -/
theorem Taken.once (h : Taken key name rows first mark seen taken) {r : α} (hr : r ∈ rows)
    (hfirst : first ≤ key r) (hpast : key r < mark ∨ name r ∈ seen) :
    (taken.map name).count (name r) = 1 := by
  have hmem : r ∈ taken := by
    have hall : r ∈ remaining key name rows first [] := by
      simp [mem_remaining, hr, hfirst]
    rw [h.split] at hall
    rcases List.mem_append.mp hall with hin | hout
    · exact hin
    · obtain ⟨-, hmark, hnew⟩ := (mem_remaining key name).mp hout
      rcases hpast with hlt | hin
      · exact absurd hmark (not_le.mpr hlt)
      · exact absurd hin hnew
  have hnodup := taken_append_nodup hnames h
  rw [List.map_append] at hnodup
  exact List.count_eq_one_of_mem hnodup.of_append_left (List.mem_map_of_mem hmem)

/-- A row the cursor named was taken, at its mark. -/
lemma Taken.of_seen (h : Taken key name rows first mark seen taken) {r : α} (hr : r ∈ rows)
    (hseen : name r ∈ seen) : r ∈ taken ∧ key r = mark := by
  obtain ⟨s, hs, hname, hkey⟩ := h.named _ hseen
  obtain rfl := List.inj_on_of_nodup_map hnames hr (h.mem_rows hs).1 hname.symm
  exact ⟨hs, hkey⟩

/-- A row the cursor named was taken once. -/
theorem Taken.named_once (h : Taken key name rows first mark seen taken) {r : α} (hr : r ∈ rows)
    (hseen : name r ∈ seen) : (taken.map name).count (name r) = 1 := by
  have htaken := (h.of_seen hnames hr hseen).1
  exact h.once hnames hr (h.mem_rows htaken).2 (.inr hseen)

/-- Nothing before the cursor's mark is left, and nothing beyond it was taken. -/
theorem Taken.not_beyond (h : Taken key name rows first mark seen taken) {r : α} (hr : r ∈ rows)
    (hmark : mark ≤ key r) (hseen : name r ∉ seen) : name r ∉ taken.map name := by
  intro hin
  have hnodup := taken_append_nodup hnames h
  rw [List.map_append] at hnodup
  have hout : name r ∈ (remaining key name rows mark seen).map name :=
    List.mem_map_of_mem ((mem_remaining key name).mpr ⟨hr, hmark, hseen⟩)
  exact List.disjoint_of_nodup_append hnodup hin hout

/-! ## Pages -/

/-- `page` is what the rows hold from `mark` on, up to where `rest` begins. -/
structure Page (key : α → κ) (rows : List α) (mark stop : κ) (page rest : List α) : Prop where
  split : ∃ before, rows = before ++ (page ++ rest) ∧ ∀ r ∈ before, key r < mark
  inside : ∀ r ∈ page, mark ≤ key r ∧ key r < stop
  rest_ge : ∀ r ∈ rest, mark ≤ key r

omit hnames in
/-- The rows of a page that are not yet taken come first of all that remain. -/
lemma Page.remaining_eq {stop : κ} {page rest : List α} (hpage : Page key rows mark stop page rest)
    (seen : List ι) :
    remaining key name rows mark seen =
      page.filter (fun r => decide (name r ∉ seen)) ++
        rest.filter fun r => decide (name r ∉ seen) := by
  obtain ⟨before, rfl, hbefore⟩ := hpage.split
  have hnone : (before.filter fun r => decide (mark ≤ key r) && decide (name r ∉ seen)) = [] := by
    refine List.filter_eq_nil_iff.mpr fun r hr => ?_
    simp [not_le.mpr (hbefore r hr)]
  have hkey : ∀ r ∈ page ++ rest,
      (decide (mark ≤ key r) && decide (name r ∉ seen)) = decide (name r ∉ seen) := by
    intro r hr
    have hle : mark ≤ key r := by
      rcases List.mem_append.mp hr with h | h
      · exact (hpage.inside r h).1
      · exact hpage.rest_ge r h
    simp [hle]
  rw [remaining, List.filter_append, hnone, List.nil_append, List.filter_congr hkey,
    List.filter_append]

variable {stop : κ} {page rest : List α}

/-- A mark past every named row needs no names. -/
lemma Taken.seen_behind (h : Taken key name rows first mark seen taken) {mark' : κ}
    (hmark : mark < mark') {r : α} (hr : r ∈ rows) (hseen : name r ∈ seen)
    (hpast : mark' ≤ key r) : False := by
  rw [(h.of_seen hnames hr hseen).2] at hpast
  exact absurd hmark (not_lt.mpr hpast)

/-- The window is done: the page held all of it. -/
theorem Taken.finish (h : Taken key name rows first mark seen taken)
    (hpage : Page key rows mark stop page rest) (hrest : ∀ r ∈ rest, stop ≤ key r)
    (hstop : mark < stop) :
    Taken key name rows first stop []
      (taken ++ page.filter fun r => decide (name r ∉ seen)) := by
  refine h.advance (hpage.remaining_eq seen) hstop.le ?_ ?_ ?_ (by simp)
  · intro r hr hseen hpast
    exact (h.seen_behind hnames hstop hr hseen hpast).elim
  · intro r hr
    exact .inl (hpage.inside r (List.mem_of_mem_filter hr)).2
  · intro r hr
    exact ⟨hrest r (List.mem_of_mem_filter hr), by simp⟩

/-- Nothing of the page was new, and nothing at its mark is left behind it. -/
theorem Taken.skip (h : Taken key name rows first mark seen taken)
    (hpage : Page key rows mark stop page rest) {mark' : κ} (hmark : mark < mark')
    (hrest : ∀ r ∈ rest, mark' ≤ key r)
    (hnone : page.filter (fun r => decide (name r ∉ seen)) = []) :
    Taken key name rows first mark' [] taken := by
  have hsplit : remaining key name rows mark seen =
      [] ++ rest.filter fun r => decide (name r ∉ seen) := by
    rw [hpage.remaining_eq, hnone]
  rw [← List.append_nil taken]
  refine h.advance hsplit hmark.le ?_ (by simp) ?_ (by simp)
  · intro r hr hseen hpast
    exact (h.seen_behind hnames hmark hr hseen hpast).elim
  · intro r hr
    exact ⟨hrest r (List.mem_of_mem_filter hr), by simp⟩

/-- The cursor moves to a row of the page, naming what the page read at its key up to it. -/
theorem Taken.reach (h : Taken key name rows first mark seen taken)
    (hsorted : rows.Pairwise fun r s => key r ≤ key s) {upto behind : List α} {last : α}
    (hpage : Page key rows mark stop (upto ++ last :: behind) rest)
    (hlate : ∀ r ∈ behind ++ rest, name r ∉ seen) :
    Taken key name rows first (key last)
      (((upto ++ [last]).filter fun r => decide (key r = key last)).map name)
      (taken ++ (upto ++ [last]).filter fun r => decide (name r ∉ seen)) := by
  obtain ⟨before, hrows, hbefore⟩ := hpage.split
  have hrows' : rows = before ++ ((upto ++ [last]) ++ (behind ++ rest)) := by simp [hrows]
  have hlast : mark ≤ key last := (hpage.inside last (by simp)).1
  rw [hrows'] at hsorted hnames
  have hread : ∀ r ∈ upto ++ [last], key r ≤ key last := by
    intro r hr
    have horder := (List.pairwise_append.mp (List.pairwise_append.mp hsorted).2.1).1
    rcases List.mem_append.mp hr with hup | hend
    · exact (List.pairwise_append.mp horder).2.2 r hup last (by simp)
    · rw [List.mem_singleton.mp hend]
  have hunread : ∀ r ∈ behind ++ rest, key last ≤ key r := fun r hr =>
    (List.pairwise_append.mp (List.pairwise_append.mp hsorted).2.1).2.2 last (by simp) r hr
  have hfresh : (behind ++ rest).filter (fun r => decide (name r ∉ seen)) = behind ++ rest :=
    List.filter_eq_self.mpr fun r hr => by simpa using hlate r hr
  have hsplit : remaining key name rows mark seen =
      (upto ++ [last]).filter (fun r => decide (name r ∉ seen)) ++ (behind ++ rest) := by
    have hparts : upto ++ last :: behind = (upto ++ [last]) ++ behind := by simp
    rw [hpage.remaining_eq, hparts, List.filter_append, List.append_assoc, ← List.filter_append,
      hfresh]
  rw [← hrows'] at hnames
  refine h.advance hsplit hlast ?_ ?_ ?_ ?_
  · intro r hr hseen hpast
    rw [hrows'] at hr
    rcases List.mem_append.mp hr with hbef | hr
    · exact absurd (hlast.trans hpast) (not_le.mpr (hbefore r hbef))
    rcases List.mem_append.mp hr with hup | hbehind
    · have hsame : key r = key last := le_antisymm (hread r hup) hpast
      exact List.mem_map_of_mem (List.mem_filter.mpr ⟨hup, by simpa using hsame⟩)
    · exact absurd hseen (hlate r hbehind)
  · intro r hr
    have hup := List.mem_of_mem_filter hr
    rcases (hread r hup).lt_or_eq with hlt | heq
    · exact .inl hlt
    · exact .inr (List.mem_map_of_mem (List.mem_filter.mpr ⟨hup, by simpa using heq⟩))
  · intro r hr
    refine ⟨hunread r hr, fun hin => ?_⟩
    obtain ⟨s, hs, hname⟩ := List.mem_map.mp hin
    have hsup := List.mem_of_mem_filter hs
    rw [hrows', List.map_append, List.map_append] at hnames
    refine List.disjoint_of_nodup_append (List.nodup_append.mp hnames).2.1 ?_ ?_ (a := name r)
    · exact hname ▸ List.mem_map_of_mem hsup
    · exact List.mem_map_of_mem hr
  · intro i hi
    obtain ⟨r, hr, rfl⟩ := List.mem_map.mp hi
    have hr' := List.mem_filter.mp hr
    have hkey : key r = key last := by simpa using hr'.2
    by_cases hseen : name r ∈ seen
    · have hmem : r ∈ rows := by
        rw [hrows']
        exact List.mem_append_right _ (List.mem_append_left _ hr'.1)
      exact ⟨r, List.mem_append_left _ (h.of_seen hnames hmem hseen).1, rfl, hkey⟩
    · exact ⟨r, List.mem_append_right _ (List.mem_filter.mpr ⟨hr'.1, by simpa using hseen⟩), rfl,
        hkey⟩

omit hnames in
/-- In a list cut twice, what lies left of the one cut lies left of an element right of it. -/
lemma mem_of_append_eq {xs ys us vs : List α} {a r : α} (heq : xs ++ ys = us ++ a :: vs)
    (hr : r ∈ xs) (ha : a ∈ ys) (hnodup : (xs ++ ys).Nodup) : r ∈ us := by
  rcases List.append_eq_append_iff.mp heq with ⟨zs, hus, -⟩ | ⟨zs, hxs, hvs⟩
  · rw [hus]
    exact List.mem_append_left _ hr
  · cases zs with
    | nil => simpa [hxs] using hr
    | cons z zs =>
      obtain ⟨rfl, -⟩ := List.cons.inj hvs
      exact (List.disjoint_of_nodup_append hnodup (by simp [hxs]) ha).elim

/-- Rows behind a fresh one were not taken before it. -/
lemma Taken.behind_fresh (h : Taken key name rows first mark seen taken)
    {upto behind : List α} {last : α}
    (hpage : Page key rows mark stop (upto ++ last :: behind) rest) (hlast : name last ∉ seen) :
    ∀ r ∈ behind ++ rest, name r ∉ seen := by
  intro r hr hseen
  obtain ⟨before, hrows, -⟩ := hpage.split
  have hrows' : rows = (before ++ upto) ++ last :: (behind ++ rest) := by simp [hrows]
  have hmem : ∀ s, s = last ∨ s ∈ behind ++ rest → s ∈ rows := by
    intro s hs
    rw [hrows']
    exact List.mem_append_right _ (List.mem_cons.mpr hs)
  have htaken := (h.of_seen hnames (hmem r (.inr hr)) hseen).1
  have hremains : last ∈ remaining key name rows mark seen :=
    (mem_remaining key name).mpr ⟨hmem last (.inl rfl), (hpage.inside last (by simp)).1, hlast⟩
  have hfirst : first ≤ key last := h.first_le.trans (hpage.inside last (by simp)).1
  have hnodup : (remaining key name rows first []).Nodup :=
    (hnames.of_map name).filter _
  -- the cursor took `r` before `last`, the rows hold it after
  have hsplit : remaining key name rows first [] =
      remaining key name (before ++ upto) first [] ++
        last :: remaining key name (behind ++ rest) first [] := by
    rw [hrows', remaining, List.filter_append, List.filter_cons]
    simp [remaining, hfirst]
  have hafter : r ∈ remaining key name (behind ++ rest) first [] :=
    (mem_remaining key name).mpr ⟨hr, (h.mem_rows htaken).2, by simp⟩
  rw [h.split] at hnodup
  have hbefore := mem_of_append_eq (h.split.symm.trans hsplit) htaken hremains hnodup
  rw [h.split.symm.trans hsplit] at hnodup
  exact List.disjoint_of_nodup_append hnodup hbefore (List.mem_cons_of_mem _ hafter)

end Distinct

/-! ## Pages of raw rows

The rows are what decodes of a sorted raw list; a page is the first `size` raw rows of a window. -/

section Raw

variable {β : Type} (rawKey : β → κ) (dec : β → Option α) (raw : List β) (mark stop : κ)
  (size : Nat)

def window : List β := raw.filter fun r => decide (mark ≤ rawKey r) && decide (rawKey r < stop)

def rawPage : List β := (window rawKey raw mark stop).take size

def beyondPage : List α :=
  ((window rawKey raw mark stop).drop size ++
    raw.filter fun r => decide (stop ≤ rawKey r)).filterMap dec

variable {rawKey dec raw mark stop size}

/-- A sorted list is its part below a key and the rest. -/
lemma filter_lt_append_filter_le (hsorted : raw.Pairwise fun r s => rawKey r ≤ rawKey s) (k : κ) :
    (raw.filter fun r => decide (rawKey r < k)) ++ (raw.filter fun r => decide (k ≤ rawKey r)) =
      raw := by
  induction raw with
  | nil => rfl
  | cons r raw ih =>
    obtain ⟨hhead, htail⟩ := List.pairwise_cons.mp hsorted
    by_cases hlt : rawKey r < k
    · simp [hlt, not_le.mpr hlt, ih htail]
    · have hle : k ≤ rawKey r := not_lt.mp hlt
      have hnone : (raw.filter fun s => decide (rawKey s < k)) = [] := by
        refine List.filter_eq_nil_iff.mpr fun s hs => ?_
        simpa using hle.trans (hhead s hs)
      have hall : (raw.filter fun s => decide (k ≤ rawKey s)) = raw := by
        refine List.filter_eq_self.mpr fun s hs => ?_
        simpa using hle.trans (hhead s hs)
      simp [hlt, hle, hnone, hall]

lemma window_split (hsorted : raw.Pairwise fun r s => rawKey r ≤ rawKey s) (hstop : mark ≤ stop) :
    raw = (raw.filter fun r => decide (rawKey r < mark)) ++
      (window rawKey raw mark stop ++ raw.filter fun r => decide (stop ≤ rawKey r)) := by
  have hlater : (raw.filter fun r => decide (mark ≤ rawKey r)).Pairwise
      fun r s => rawKey r ≤ rawKey s := hsorted.filter _
  conv_lhs =>
    rw [← filter_lt_append_filter_le hsorted mark, ← filter_lt_append_filter_le hlater stop]
  rw [List.filter_filter, List.filter_filter, window]
  congr 2
  · exact List.filter_congr fun r _ => by rw [Bool.and_comm]
  · refine List.filter_congr fun r _ => ?_
    by_cases hpast : stop ≤ rawKey r
    · simp [hpast, hstop.trans hpast]
    · simp [hpast]

lemma mem_window {r : β} (hr : r ∈ window rawKey raw mark stop) :
    r ∈ raw ∧ mark ≤ rawKey r ∧ rawKey r < stop := by
  simpa [window] using hr

section Decoded

variable (hsorted : raw.Pairwise fun r s => rawKey r ≤ rawKey s)
  (hdec : ∀ r ∈ raw, ∀ d, dec r = some d → key d = rawKey r)

include hdec in
/-- A row beyond the page decodes a raw row of the window behind the page, or one past it. -/
lemma mem_beyondPage {d : α} (hd : d ∈ beyondPage rawKey dec raw mark stop size) :
    (∃ r ∈ (window rawKey raw mark stop).drop size, key d = rawKey r) ∨ stop ≤ key d := by
  obtain ⟨r, hr, hdr⟩ := List.mem_filterMap.mp hd
  rcases List.mem_append.mp hr with hin | hout
  · exact .inl ⟨r, hin, hdec r (mem_window (List.mem_of_mem_drop hin)).1 d hdr⟩
  · obtain ⟨hraw, hpast⟩ := List.mem_filter.mp hout
    rw [hdec r hraw d hdr]
    exact .inr (by simpa using hpast)

include hsorted hdec in
theorem page_of_raw (hstop : mark ≤ stop) :
    Page key (raw.filterMap dec) mark stop ((rawPage rawKey raw mark stop size).filterMap dec)
      (beyondPage rawKey dec raw mark stop size) where
  split := by
    refine ⟨(raw.filter fun r => decide (rawKey r < mark)).filterMap dec, ?_, ?_⟩
    · have hwhole : rawPage rawKey raw mark stop size ++
          (window rawKey raw mark stop).drop size = window rawKey raw mark stop :=
        List.take_append_drop size _
      conv_lhs => rw [window_split hsorted hstop, ← hwhole]
      simp only [beyondPage, List.filterMap_append, List.append_assoc]
    · intro d hd
      obtain ⟨r, hr, hdr⟩ := List.mem_filterMap.mp hd
      obtain ⟨hraw, hlt⟩ := List.mem_filter.mp hr
      rw [hdec r hraw d hdr]
      simpa using hlt
  inside := by
    intro d hd
    obtain ⟨r, hr, hdr⟩ := List.mem_filterMap.mp hd
    obtain ⟨hraw, hkey⟩ := mem_window (List.mem_of_mem_take hr)
    rwa [hdec r hraw d hdr]
  rest_ge := by
    intro d hd
    rcases mem_beyondPage hdec hd with ⟨r, hr, hkey⟩ | hpast
    · rw [hkey]
      exact (mem_window (List.mem_of_mem_drop hr)).2.1
    · exact hstop.trans hpast

include hdec in
/-- A short page leaves nothing of its window. -/
theorem beyondPage_of_short (hshort : (rawPage rawKey raw mark stop size).length < size) :
    ∀ d ∈ beyondPage rawKey dec raw mark stop size, stop ≤ key d := by
  intro d hd
  have hdrop : (window rawKey raw mark stop).drop size = [] := by
    refine List.drop_eq_nil_of_le ?_
    rw [rawPage, List.length_take] at hshort
    omega
  rcases mem_beyondPage hdec hd with ⟨r, hr, -⟩ | hpast
  · simp [hdrop] at hr
  · exact hpast

include hsorted hdec in
/-- A full page holds all raw rows at its mark, where no key has more rows than a page. -/
theorem beyondPage_of_full (hfull : size ≤ (rawPage rawKey raw mark stop size).length)
    (hkeys : ∀ k, (raw.filter fun r => decide (rawKey r = k)).length ≤ size)
    (hstop : mark < stop) : ∀ d ∈ beyondPage rawKey dec raw mark stop size, mark < key d := by
  intro d hd
  rcases mem_beyondPage hdec hd with ⟨r, hr, hkey⟩ | hpast
  · rw [hkey]
    have hge := (mem_window (List.mem_of_mem_drop hr)).2.1
    refine lt_of_le_of_ne hge fun heq => ?_
    -- the page would then hold `size` rows at the mark, and one more follows it
    have hwindow : ((window rawKey raw mark stop).take size ++
        (window rawKey raw mark stop).drop size).Pairwise fun r s => rawKey r ≤ rawKey s := by
      rw [List.take_append_drop]
      exact hsorted.filter _
    have hpage : ∀ s ∈ rawPage rawKey raw mark stop size, rawKey s = mark := by
      intro s hs
      have hle : rawKey s ≤ rawKey r := (List.pairwise_append.mp hwindow).2.2 s hs r hr
      exact le_antisymm (heq ▸ hle) (mem_window (List.mem_of_mem_take hs)).2.1
    have hall : ((rawPage rawKey raw mark stop size).filter fun s => decide (rawKey s = mark)) =
        rawPage rawKey raw mark stop size :=
      List.filter_eq_self.mpr fun s hs => by simpa using hpage s hs
    have hone : 0 < (((window rawKey raw mark stop).drop size).filter
        fun s => decide (rawKey s = mark)).length :=
      List.length_pos_of_mem (List.mem_filter.mpr ⟨hr, by simpa using heq.symm⟩)
    have hcount : ((window rawKey raw mark stop).filter fun s => decide (rawKey s = mark)).length =
        (rawPage rawKey raw mark stop size).length +
          (((window rawKey raw mark stop).drop size).filter
            fun s => decide (rawKey s = mark)).length := by
      conv_lhs => rw [← List.take_append_drop size (window rawKey raw mark stop),
        List.filter_append, List.length_append]
      rw [← hall, rawPage]
    have hsub := ((List.filter_sublist (l := raw)
      (p := fun r => decide (mark ≤ rawKey r) && decide (rawKey r < stop))).filter
        fun s => decide (rawKey s = mark)).length_le
    have := hkeys mark
    rw [window] at hcount hone
    omega
  · exact lt_of_lt_of_le hstop hpast

end Decoded

end Raw

end PageCursor
