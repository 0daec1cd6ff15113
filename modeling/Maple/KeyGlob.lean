import Maple.CodeUnits

/-! The key globs of the redact rules: the editor's matcher over UTF-16 code units, the gateway's
over UTF-8 bytes. -/

namespace Maple.IngestRules
open StarPattern CodeUnits

/-! ### Code units -/

/-- The UTF-16 code units of a character. -/
def utf16 (c : Char) : List ℕ :=
  if c.toNat < 0x10000 then [c.toNat]
  else [0xD800 + (c.toNat - 0x10000) / 0x400, 0xDC00 + (c.toNat - 0x10000) % 0x400]

def codeUnits (text : String) : List ℕ := text.toList.flatMap utf16

def bytes (text : String) : List UInt8 := text.toList.flatMap String.utf8EncodeChar

/-- Not the second half of a surrogate pair. -/
def leadUnit (unit : ℕ) : Bool := unit < 0xDC00 || 0xE000 ≤ unit

lemma not_surrogate (c : Char) : c.toNat < 0xD800 ∨ 0xE000 ≤ c.toNat := by
  rcases c.valid with h | h
  · exact Or.inl h
  · have hlow := h.1
    right
    change 57343 < c.toNat at hlow
    omega

lemma toNat_lt (c : Char) : c.toNat < 0x110000 := by
  rcases c.valid with h | h
  · change c.toNat < 55296 at h
    omega
  · exact h.2

lemma selfSync_utf16 : SelfSync utf16 leadUnit where
  prefixFree := by
    intro c d x y heq
    have hc := not_surrogate c
    have hd := not_surrogate d
    have hcmax := toNat_lt c
    have hdmax := toNat_lt d
    refine Char.toNat_inj.mp ?_
    unfold utf16 at heq
    split_ifs at heq with hcsmall hdsmall hdsmall
    all_goals
      simp only [List.cons_append, List.nil_append, List.cons.injEq] at heq
      omega
  starts := by
    intro c
    have hc := not_surrogate c
    have hcmax := toNat_lt c
    unfold utf16
    split_ifs with hsmall
    · refine ⟨c.toNat, [], rfl, ?_, by simp⟩
      simp [leadUnit]
      omega
    · refine ⟨_, _, rfl, ?_, ?_⟩
      · simp [leadUnit]
        omega
      · simp [leadUnit]
        omega

lemma selfSync_utf8 : SelfSync String.utf8EncodeChar fun u => decide u.IsUTF8FirstByte where
  prefixFree := by
    intro c d x y heq
    have hbytes := congrArg List.toByteArray heq
    rw [List.toByteArray_append, List.toByteArray_append] at hbytes
    have hc := ByteArray.utf8DecodeChar?_utf8EncodeChar_append (b := x.toByteArray) (c := c)
    rw [hbytes, ByteArray.utf8DecodeChar?_utf8EncodeChar_append] at hc
    exact (Option.some.inj hc).symm
  starts := by
    intro c
    have hfirst : ∀ (i : ℕ) (hi : i < (String.utf8EncodeChar c).length),
        (String.utf8EncodeChar c)[i].IsUTF8FirstByte ↔ i = 0 := fun i hi =>
      UInt8.isUTF8FirstByte_getElem_utf8EncodeChar
    obtain ⟨unit, units, hunits⟩ : ∃ unit units, String.utf8EncodeChar c = unit :: units :=
      List.exists_cons_of_ne_nil String.utf8EncodeChar_ne_nil
    simp only [hunits] at hfirst
    refine ⟨unit, units, hunits, ?_, ?_⟩
    · simpa using hfirst 0 (by simp)
    · intro u hu
      obtain ⟨j, hj, rfl⟩ := List.getElem_of_mem hu
      simpa using hfirst (j + 1) (by simpa using hj)

/-! ### The editor's matcher -/

/-- `*` in either encoding. -/
def STAR : ℕ := 0x2A

/-- Where the loop stands: positions in pattern and text, the last star, and where its text would
be taken up again. -/
structure GlobCursor where
  p : ℕ
  t : ℕ
  star : Option ℕ
  resume : ℕ
  resume_le : resume ≤ t
  star_lt : ∀ s, star = some s → s < p

def GlobCursor.start : GlobCursor := ⟨0, 0, none, 0, le_rfl, by simp⟩

/-- A literal unit has matched. -/
def GlobCursor.literal (c : GlobCursor) : GlobCursor where
  p := c.p + 1
  t := c.t + 1
  star := c.star
  resume := c.resume
  resume_le := c.resume_le.trans (Nat.le_succ _)
  star_lt := fun s hs => (c.star_lt s hs).trans (Nat.lt_succ_self _)

/-- A star begins, with nothing for it yet. -/
def GlobCursor.atStar (c : GlobCursor) : GlobCursor where
  p := c.p + 1
  t := c.t
  star := some c.p
  resume := c.t
  resume_le := le_rfl
  star_lt := by simp

/-- The last star takes one unit more. -/
def GlobCursor.back (c : GlobCursor) (s : ℕ) : GlobCursor where
  p := s + 1
  t := c.resume + 1
  star := some s
  resume := c.resume + 1
  resume_le := le_rfl
  star_lt := by simp

/-- Where the pattern stands when the text is used up; `none` is a mismatch no star can mend. -/
def globLoop (pattern text : List ℕ) (c : GlobCursor) : Option ℕ :=
  if c.t < text.length then
    if c.p < pattern.length ∧ pattern[c.p]? ≠ some STAR ∧ pattern[c.p]? = text[c.t]? then
      globLoop pattern text c.literal
    else if c.p < pattern.length ∧ pattern[c.p]? = some STAR then globLoop pattern text c.atStar
    else
      match _hstar : c.star with
      | some s => globLoop pattern text (c.back s)
      | none => none
  else some c.p
termination_by (pattern.length - (c.star.map (· + 1)).getD 0, text.length - c.resume,
  text.length - c.t)
decreasing_by
  · exact Prod.Lex.right _ (Prod.Lex.right _ (by simp only [GlobCursor.literal]; omega))
  · refine Prod.Lex.left _ _ ?_
    simp only [GlobCursor.atStar, Option.map_some, Option.getD_some]
    cases hstar : c.star with
    | none => simp; omega
    | some s =>
      have := c.star_lt s hstar
      simp
      omega
  · have := c.resume_le
    rw [_hstar]
    exact Prod.Lex.right _ (Prod.Lex.left _ _ (by simp only [GlobCursor.back]; omega))

/-- `pattern` is lower-cased by the caller. -/
def globMatches (lower : String → String) (pattern key : String) : Bool :=
  let pattern := codeUnits pattern
  match globLoop pattern (codeUnits (lower key)) .start with
  | none => false
  | some p => p + ((pattern.drop p).takeWhile fun unit => unit = STAR).length = pattern.length

/-! ### The gateway's matcher -/

/-- The lower-cased pattern split on `*`; one segment means an exact key. -/
structure KeyGlob where
  segments : List (List UInt8)

def KeyGlob.new (lower : String → String) (pattern : String) : KeyGlob :=
  ⟨((lower pattern).toList.splitOn '*').map (List.flatMap String.utf8EncodeChar)⟩

/-- The loop over the segments between the first and the last. -/
def findSegments : List (List UInt8) → List UInt8 → Bool
  | [], _ => true
  | segment :: segments, rest =>
    if segment.isEmpty then findSegments segments rest
    else
      match find segment rest with
      | some at' => findSegments segments (rest.drop (at' + segment.length))
      | none => false

def KeyGlob.matches (glob : KeyGlob) (key : List UInt8) : Bool :=
  match glob.segments.head?, glob.segments.getLast? with
  | some first, some last =>
    if glob.segments.length = 1 then key = first
    else if key.length < first.length + last.length ∨ ¬ first.isPrefixOf key ∨
        ¬ last.isSuffixOf key then false
    else
      let rest := (key.take (key.length - last.length)).drop first.length
      findSegments glob.segments.tail.dropLast rest
  | _, _ => false

/-- ASCII text without capitals is not lower-cased again. -/
def isLowerAscii (key : String) : Bool :=
  key.toList.all fun c => c.toNat < 0x80 && !('A' ≤ c && c ≤ 'Z')

def lowercaseKey (lower : String → String) (key : String) : String :=
  if isLowerAscii key then key else lower key

def keyMatches (lower : String → String) (keys : List KeyGlob) (key : String) : Bool :=
  if keys.isEmpty then false
  else
    let lower := lowercaseKey lower key
    keys.any fun glob => KeyGlob.matches glob (bytes lower)

/-! ### One star at a time -/

/-- What follows the last star in the pattern begins with as many literals as have matched. -/
structure Tried (pattern text : List ℕ) (c : GlobCursor) : Prop where
  p_le : c.p ≤ pattern.length
  t_le : c.t ≤ text.length
  literals : ∀ s, c.star = some s → ∃ literals, STAR ∉ literals ∧
    pattern.drop (s + 1) = literals ++ pattern.drop c.p ∧ c.resume + literals.length = c.t

/-- The last star could take more. -/
def MoreForStar (pattern text : List ℕ) (c : GlobCursor) : Prop :=
  ∃ s, c.star = some s ∧ ∃ k, c.resume < k ∧ k ≤ text.length ∧
    Means STAR (pattern.drop (s + 1)) (text.drop k)

section loop
variable {pattern text : List ℕ} {c : GlobCursor}

lemma drop_of_getElem? {xs : List ℕ} {i u : ℕ} (h : xs[i]? = some u) :
    xs.drop i = u :: xs.drop (i + 1) := by
  obtain ⟨hi, rfl⟩ := List.getElem?_eq_some_iff.mp h
  exact List.drop_eq_getElem_cons hi

/-- Once the text is used up, no star can take more. -/
lemma Tried.not_more (h : Tried pattern text c) (hend : text.length ≤ c.t) :
    ¬ MoreForStar pattern text c := by
  intro ⟨s, hs, k, hk, hroom, hmeans⟩
  obtain ⟨literals, hliterals, hdrop, hlength⟩ := h.literals s hs
  rw [hdrop, means_append hliterals] at hmeans
  obtain ⟨tail, htail, -⟩ := hmeans
  have hcount := congrArg List.length htail
  rw [List.length_drop, List.length_append] at hcount
  omega

/-- What an earlier star could still take, the new one can take as well. -/
lemma Tried.more_at_star (h : Tried pattern text c) (hstar : pattern[c.p]? = some STAR)
    (hmore : MoreForStar pattern text c) : Means STAR (pattern.drop c.p) (text.drop c.t) := by
  obtain ⟨s, hs, k, hk, hroom, hmeans⟩ := hmore
  obtain ⟨literals, hliterals, hdrop, hlength⟩ := h.literals s hs
  rw [hdrop, means_append hliterals] at hmeans
  obtain ⟨tail, htail, hmeans⟩ := hmeans
  have hcount := congrArg List.length htail
  rw [List.length_drop, List.length_append] at hcount
  have hsplit : text.drop c.t = (text.drop c.t).take (k + literals.length - c.t) ++ tail := by
    have hrest : tail = (text.drop c.t).drop (k + literals.length - c.t) := by
      have hdrop' : text.drop (k + literals.length) = tail := by
        rw [← List.drop_drop, htail, List.drop_left]
      rw [← hdrop', List.drop_drop]
      congr 1
      omega
    rw [hrest, List.take_append_drop]
  rw [drop_of_getElem? hstar] at hmeans ⊢
  obtain ⟨gap, tail', htail', hmeans'⟩ := means_star.mp hmeans
  rw [means_star]
  exact ⟨(text.drop c.t).take (k + literals.length - c.t) ++ gap, tail', by
    rw [List.append_assoc, ← htail', ← hsplit], hmeans'⟩

lemma Tried.literal (h : Tried pattern text c) {u : ℕ} (hu : u ≠ STAR)
    (hpattern : pattern[c.p]? = some u) (ht : c.t < text.length) :
    Tried pattern text c.literal := by
  have hp := (List.getElem?_eq_some_iff.mp hpattern).1
  refine ⟨hp, ht, ?_⟩
  intro s hs
  obtain ⟨literals, hliterals, hdrop, hlength⟩ := h.literals s hs
  refine ⟨literals ++ [u], ?_, ?_, ?_⟩
  · simp [hliterals, Ne.symm hu]
  · rw [hdrop, drop_of_getElem? hpattern]
    simp [GlobCursor.literal]
  · simp [GlobCursor.literal]
    omega

lemma Tried.atStar (h : Tried pattern text c) (hp : c.p < pattern.length) :
    Tried pattern text c.atStar := by
  refine ⟨hp, h.t_le, ?_⟩
  intro s hs
  obtain rfl := Option.some.inj hs
  exact ⟨[], by simp, rfl, rfl⟩

lemma Tried.back (h : Tried pattern text c) {s : ℕ} (hs : c.star = some s)
    (ht : c.t < text.length) : Tried pattern text (c.back s) := by
  have hbefore := c.star_lt s hs
  have hle := c.resume_le
  have hp := h.p_le
  refine ⟨?_, ?_, ?_⟩
  · simp only [GlobCursor.back]
    omega
  · simp only [GlobCursor.back]
    omega
  · intro s' hs'
    obtain rfl := Option.some.inj hs'
    exact ⟨[], by simp, rfl, rfl⟩

/-- Neither a literal that matches nor a star: what is left of the pattern does not match here. -/
lemma not_means_here (ht : c.t < text.length)
    (hliteral : ¬ (c.p < pattern.length ∧ pattern[c.p]? ≠ some STAR ∧
      pattern[c.p]? = text[c.t]?))
    (hstar : ¬ (c.p < pattern.length ∧ pattern[c.p]? = some STAR)) :
    ¬ Means STAR (pattern.drop c.p) (text.drop c.t) := by
  intro hmeans
  have htext : text.drop c.t = text[c.t] :: text.drop (c.t + 1) := List.drop_eq_getElem_cons ht
  rw [htext] at hmeans
  by_cases hp : c.p < pattern.length
  · have hpattern : pattern[c.p]? = some pattern[c.p] := List.getElem?_eq_getElem hp
    have hnot : pattern[c.p] ≠ STAR := fun heq => hstar ⟨hp, by rw [hpattern, heq]⟩
    rw [drop_of_getElem? hpattern, means_cons hnot] at hmeans
    obtain ⟨tail, heq, -⟩ := hmeans
    have hunit := (List.cons.inj heq).1
    refine hliteral ⟨hp, fun heq => hstar ⟨hp, heq⟩, ?_⟩
    rw [hpattern, List.getElem?_eq_getElem ht, hunit]
  · rw [List.drop_eq_nil_of_le (not_lt.mp hp), means_nil] at hmeans
    cases hmeans

/-- The loop finds a match where it stands or by giving the last star more. -/
lemma globLoop_iff (h : Tried pattern text c) :
    (∃ p, globLoop pattern text c = some p ∧ p ≤ pattern.length ∧
      ∀ u ∈ pattern.drop p, u = STAR) ↔
      Means STAR (pattern.drop c.p) (text.drop c.t) ∨ MoreForStar pattern text c := by
  fun_induction globLoop pattern text c with
  | case1 c ht hliteral ih =>
    obtain ⟨hp, hnot, hsame⟩ := hliteral
    have htext : text[c.t]? = some text[c.t] := List.getElem?_eq_getElem ht
    have hpattern : pattern[c.p]? = some text[c.t] := by rw [hsame, htext]
    have hu : text[c.t] ≠ STAR := fun heq => hnot (by rw [hpattern, heq])
    rw [ih (h.literal hu hpattern ht), drop_of_getElem? hpattern, drop_of_getElem? htext,
      means_cons hu]
    refine or_congr ?_ Iff.rfl
    constructor
    · intro hmeans
      exact ⟨_, rfl, hmeans⟩
    · intro ⟨tail, heq, hmeans⟩
      rw [← (List.cons.inj heq).2] at hmeans
      exact hmeans
  | case2 c ht hnot hstar ih =>
    obtain ⟨hp, hpattern⟩ := hstar
    rw [ih (h.atStar hp)]
    constructor
    · intro hfound
      left
      rw [drop_of_getElem? hpattern, means_star]
      rcases hfound with hhere | ⟨s, hs, k, hk, hroom, hmeans⟩
      · exact ⟨[], text.drop c.t, rfl, hhere⟩
      · obtain rfl := Option.some.inj hs
        refine ⟨(text.drop c.t).take (k - c.t), text.drop k, ?_, hmeans⟩
        have hk' : c.t < k := hk
        have hdrop : text.drop k = (text.drop c.t).drop (k - c.t) := by
          rw [List.drop_drop]
          congr 1
          omega
        rw [hdrop, List.take_append_drop]
    · intro hfound
      have hhere : Means STAR (pattern.drop c.p) (text.drop c.t) := by
        rcases hfound with hhere | hmore
        · exact hhere
        · exact h.more_at_star hpattern hmore
      rw [drop_of_getElem? hpattern, means_star] at hhere
      obtain ⟨gap, tail, htext, hmeans⟩ := hhere
      cases gap with
      | nil =>
        left
        rw [List.nil_append] at htext
        rw [← htext] at hmeans
        exact hmeans
      | cons u gap =>
        right
        have hlength := congrArg List.length htext
        rw [List.length_drop, List.length_append, List.length_cons] at hlength
        have hdrop : text.drop (c.t + (gap.length + 1)) = tail := by
          rw [← List.drop_drop, htext]
          simp
        refine ⟨c.p, rfl, c.t + (gap.length + 1), ?_, ?_, ?_⟩
        · simp [GlobCursor.atStar]
        · omega
        · rw [hdrop]
          exact hmeans
  | case3 c ht hnot hnostar s hs ih =>
    have hhere := not_means_here ht hnot hnostar
    have hle := c.resume_le
    rw [ih (h.back hs ht)]
    constructor
    · intro hfound
      right
      rcases hfound with hnext | ⟨s', hs', k, hk, hroom, hmeans⟩
      · exact ⟨s, hs, c.resume + 1, by omega, by omega, hnext⟩
      · obtain rfl := Option.some.inj hs'
        have hk' : c.resume + 1 < k := hk
        exact ⟨s, hs, k, by omega, hroom, hmeans⟩
    · intro hfound
      rcases hfound with hmeans | ⟨s', hs', k, hk, hroom, hmeans⟩
      · exact absurd hmeans hhere
      · obtain rfl := Option.some.inj (hs.symm.trans hs')
        by_cases hfirst : k = c.resume + 1
        · subst hfirst
          exact Or.inl hmeans
        · refine Or.inr ⟨s, rfl, k, ?_, hroom, hmeans⟩
          simp only [GlobCursor.back]
          omega
  | case4 c ht hnot hnostar hs =>
    have hhere := not_means_here ht hnot hnostar
    simp [hhere, MoreForStar, hs]
  | case5 c ht =>
    have hend : text.length ≤ c.t := not_lt.mp ht
    have hmore := h.not_more hend
    rw [List.drop_eq_nil_of_le hend, means_empty_iff]
    simp [hmore, h.p_le]

end loop

lemma tried_start (pattern text : List ℕ) : Tried pattern text .start := by
  constructor
  · simp [GlobCursor.start]
  · simp [GlobCursor.start]
  · simp [GlobCursor.start]

/-- Skipping stars reaches the end exactly when nothing else is left. -/
lemma skip_stars {pattern : List ℕ} {p : ℕ} :
    p + ((pattern.drop p).takeWhile fun unit => unit = STAR).length = pattern.length ↔
      p ≤ pattern.length ∧ ∀ u ∈ pattern.drop p, u = STAR := by
  have hle := (List.takeWhile_prefix (fun unit : ℕ => decide (unit = STAR))
    (l := pattern.drop p)).length_le
  rw [List.length_drop] at hle
  constructor
  · intro hlength
    have hfull : (pattern.drop p).takeWhile (fun unit => unit = STAR) = pattern.drop p := by
      refine (List.takeWhile_prefix _).eq_of_length ?_
      rw [List.length_drop]
      omega
    refine ⟨by omega, ?_⟩
    simpa [List.takeWhile_eq_self_iff] using hfull
  · intro ⟨hp, hall⟩
    have hfull : (pattern.drop p).takeWhile (fun unit => unit = STAR) = pattern.drop p := by
      simpa [List.takeWhile_eq_self_iff] using hall
    rw [hfull, List.length_drop]
    omega

lemma globMatches_iff (lower : String → String) (pattern key : String) :
    globMatches lower pattern key = true ↔
      Means '*' pattern.toList (lower key).toList := by
  have hloop := globLoop_iff (tried_start (codeUnits pattern) (codeUnits (lower key)))
  have hnone : ¬ MoreForStar (codeUnits pattern) (codeUnits (lower key)) .start := by
    simp [MoreForStar, GlobCursor.start]
  have hunits : Means STAR (codeUnits pattern) (codeUnits (lower key)) ↔
      Means '*' pattern.toList (lower key).toList := by
    unfold Means codeUnits
    rw [selfSync_utf16.splitOn_flatMap (show utf16 '*' = [STAR] by decide)]
    exact selfSync_utf16.woven_iff _
  have hstart : (codeUnits pattern).drop GlobCursor.start.p = codeUnits pattern ∧
      (codeUnits (lower key)).drop GlobCursor.start.t = codeUnits (lower key) := ⟨rfl, rfl⟩
  rw [hstart.1, hstart.2, or_iff_left hnone, hunits] at hloop
  rw [← hloop, globMatches]
  split
  · rename_i hresult
    simp [hresult]
  · rename_i p hresult
    rw [decide_eq_true_eq, skip_stars]
    simp [hresult]

/-! ### Leftmost segments -/

lemma findSegments_iff (segments : List (List UInt8)) (rest : List UInt8) :
    findSegments segments rest = true ↔ InOrder segments rest := by
  induction segments generalizing rest with
  | nil => simp [findSegments, InOrder]
  | cons segment segments ih =>
    rw [findSegments]
    cases segment with
    | nil => simp [ih, inOrder_nil_cons]
    | cons b segment =>
      rw [inOrder_cons_find]
      cases hfind : find (b :: segment) rest with
      | none => simp
      | some at' => simp [ih]

/-- What is left between a first and a last segment that do not overlap. -/
lemma between_iff {first last key rest : List UInt8} :
    key = first ++ (rest ++ last) ↔ first.length + last.length ≤ key.length ∧ first <+: key ∧
      last <:+ key ∧ rest = (key.take (key.length - last.length)).drop first.length := by
  constructor
  · intro hkey
    have hfront : key.take (key.length - last.length) = first ++ rest := by
      rw [hkey, ← List.append_assoc]
      exact List.take_left' (by simp; omega)
    refine ⟨by rw [hkey]; simp, ⟨rest ++ last, hkey.symm⟩,
      ⟨first ++ rest, by rw [hkey, List.append_assoc]⟩, ?_⟩
    rw [hfront, List.drop_left]
  · intro ⟨hroom, ⟨after, hafter⟩, ⟨before, hbefore⟩, hrest⟩
    have hlength := congrArg List.length hbefore
    rw [List.length_append] at hlength
    have hfront : key.take (key.length - last.length) = before := by
      rw [← hbefore]
      exact List.take_left' (by simp)
    have hstart : first <+: before := by
      refine List.prefix_of_prefix_length_le ⟨after, hafter⟩ ⟨last, hbefore⟩ ?_
      omega
    obtain ⟨middle, hmiddle⟩ := hstart
    rw [hfront, ← hmiddle, List.drop_left] at hrest
    rw [hrest, ← List.append_assoc, hmiddle, hbefore]

lemma matches_iff {segments : List (List UInt8)} (hne : segments ≠ []) (key : List UInt8) :
    KeyGlob.matches ⟨segments⟩ key = true ↔ Woven segments key := by
  obtain ⟨first, others, rfl⟩ := List.exists_cons_of_ne_nil hne
  rcases List.eq_nil_or_concat' others with rfl | ⟨middle, last, rfl⟩
  · simp [KeyGlob.matches, woven_singleton]
  · have hwoven : Woven (first :: (middle ++ [last])) key ↔
        ∃ rest, key = first ++ (rest ++ last) ∧ InOrder middle rest := by
      obtain ⟨next, more, hmore⟩ := List.exists_cons_of_ne_nil
        (List.append_ne_nil_of_right_ne_nil middle (List.cons_ne_nil last []))
      rw [hmore, woven_cons, ← hmore]
      constructor
      · intro ⟨tail, hkey, hafter⟩
        obtain ⟨rest, htail, hin⟩ := after_concat.mp hafter
        exact ⟨rest, by rw [hkey, htail], hin⟩
      · intro ⟨rest, hkey, hin⟩
        exact ⟨rest ++ last, hkey, after_concat.mpr ⟨rest, rfl, hin⟩⟩
    rw [hwoven]
    have hlast : (first :: (middle ++ [last])).getLast? = some last := by
      rw [← List.cons_append, List.getLast?_append, List.getLast?_singleton]
      rfl
    unfold KeyGlob.matches
    dsimp only
    rw [hlast]
    have hlong : (first :: (middle ++ [last])).length ≠ 1 := by simp
    simp only [List.head?_cons, if_neg hlong, List.tail_cons, List.dropLast_concat]
    split_ifs with hoff
    · simp only [false_iff]
      intro ⟨rest, hkey, hin⟩
      obtain ⟨hroom, hprefix, hsuffix, -⟩ := between_iff.mp hkey
      simp only [List.isPrefixOf_iff_prefix, List.isSuffixOf_iff_suffix] at hoff
      rcases hoff with hshort | hnot | hnot
      · omega
      · exact hnot hprefix
      · exact hnot hsuffix
    · simp only [List.isPrefixOf_iff_prefix, List.isSuffixOf_iff_suffix, not_or, not_not,
        not_lt] at hoff
      rw [findSegments_iff]
      constructor
      · intro hin
        exact ⟨_, between_iff.mpr ⟨hoff.1, hoff.2.1, hoff.2.2, rfl⟩, hin⟩
      · intro ⟨rest, hkey, hin⟩
        rw [← (between_iff.mp hkey).2.2.2]
        exact hin

lemma keyGlob_iff (lower : String → String) (pattern key : String) :
    KeyGlob.matches (KeyGlob.new lower pattern) (bytes key) = true ↔
      Means '*' (lower pattern).toList key.toList := by
  have hne : (lower pattern).toList.splitOn '*' ≠ [] := List.splitOnP_ne_nil _ _
  have hne' : ((lower pattern).toList.splitOn '*').map (List.flatMap String.utf8EncodeChar) ≠ [] := by
    simp
  exact (matches_iff hne' _).trans (selfSync_utf8.woven_iff _)

lemma lowercaseKey_eq {lower : String → String}
    (hascii : ∀ key, isLowerAscii key = true → lower key = key) (key : String) :
    lowercaseKey lower key = lower key := by
  unfold lowercaseKey
  split_ifs with hcase
  · exact (hascii key hcase).symm
  · rfl

/-- The editor's matcher, the gateway's and the meaning of a pattern agree on every key, both sides
lower-casing the same way. -/
theorem key_globs_agree (lower : String → String)
    (hascii : ∀ key, isLowerAscii key = true → lower key = key) (pattern key : String) :
    (globMatches lower (lower pattern) key = true ↔
      Means '*' (lower pattern).toList (lower key).toList) ∧
    (KeyGlob.matches (KeyGlob.new lower pattern) (bytes (lowercaseKey lower key)) = true ↔
      Means '*' (lower pattern).toList (lower key).toList) ∧
    globMatches lower (lower pattern) key =
      KeyGlob.matches (KeyGlob.new lower pattern) (bytes (lowercaseKey lower key)) := by
  have hlower := lowercaseKey_eq hascii key
  have heditor := globMatches_iff lower (lower pattern) key
  have hgateway := keyGlob_iff lower pattern (lower key)
  rw [hlower]
  refine ⟨heditor, hgateway, ?_⟩
  rw [Bool.eq_iff_iff, heditor, hgateway]

/-- A capital in the key, a prefix and a suffix that overlap, and a segment between them. -/
theorem key_globs_agree_overlapping :
    globMatches String.toLower (String.toLower "ab*b*ba") "ABBA" =
      KeyGlob.matches (KeyGlob.new String.toLower "ab*b*ba")
        (bytes (lowercaseKey String.toLower "ABBA")) := by
  have hascii : ∀ key : String, isLowerAscii key = true → key.toLower = key := by
    intro key hkey
    rw [isLowerAscii, List.all_eq_true] at hkey
    refine String.toList_inj.mp ?_
    rw [String.toLower, String.toList_map]
    refine (List.map_congr_left fun c hc => ?_).trans (List.map_id _)
    have hnot := hkey c hc
    simp only [Bool.and_eq_true, decide_eq_true_eq, Bool.not_eq_true'] at hnot
    unfold Char.toLower
    split_ifs with hcapital
    · have hupper : 'A' ≤ c ∧ c ≤ 'Z' := hcapital
      simp [hupper] at hnot
    · rfl
  exact (key_globs_agree String.toLower hascii "ab*b*ba" "ABBA").2.2

end Maple.IngestRules
