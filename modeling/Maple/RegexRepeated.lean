import Mathlib.Tactic
import Maple.RegexGrammar

/-! The scan for repeated groups of variable width finds what is in the syntax tree. -/

namespace Maple.IngestRules

/-! ### Reading at an index -/

section Reading
variable (done text : List ℕ)

lemma getElem?_done (k : ℕ) : (done ++ text)[done.length + k]? = text[k]? := by
  rw [List.getElem?_append_right (Nat.le_add_right _ _), Nat.add_sub_cancel_left]

lemma unitIs_done (k : ℕ) (char : Char) :
    unitIs (done ++ text) (done.length + k) char = unitIs text k char := by
  rw [unitIs, unitIs, getElem?_done]

lemma unitIn_done (k : ℕ) (chars : String) :
    unitIn (done ++ text) (done.length + k) chars = unitIn text k chars := by
  rw [unitIn, unitIn, getElem?_done]

lemma drop_done : (done ++ text).drop done.length = text := List.drop_left

lemma quantifierAt_done :
    quantifierAt (done ++ text) done.length = quantifierAt text 0 := by
  have hat : ∀ char, unitIs (done ++ text) done.length char = unitIs text 0 char :=
    fun char => unitIs_done done text 0 char
  have hlazy : ∀ length, unitIs (done ++ text) (done.length + length) '?' =
      unitIs text (0 + length) '?' := by
    intro length
    rw [unitIs_done, Nat.zero_add]
  simp only [quantifierAt, hat, hlazy, drop_done, List.drop_zero]

lemma indexOf_done (char : Char) (index : ℕ) :
    indexOf (done ++ text) char (done.length + index) =
      (indexOf text char index).map (done.length + ·) := by
  rw [indexOf, indexOf, ← List.drop_drop, drop_done, Option.map_map]
  congr 1
  funext offset
  exact Nat.add_assoc _ _ _

end Reading

lemma unitIs_cons (unit : ℕ) (text : List ℕ) (char : Char) :
    unitIs (unit :: text) 0 char = (unit == char.toNat) := rfl

lemma unitIs_cons_succ (unit : ℕ) (text : List ℕ) (k : ℕ) (char : Char) :
    unitIs (unit :: text) (k + 1) char = unitIs text k char := by
  rw [unitIs, unitIs, List.getElem?_cons_succ]

/-! ### Quantifiers -/

/-- No quantifier starts here. -/
def Unquantified (text : List ℕ) : Prop :=
  ∀ unit ∈ text.head?, unit ∉ ['*'.toNat, '+'.toNat, '?'.toNat, '\x7b'.toNat]

lemma Unquantified.unitIs {text : List ℕ} (h : Unquantified text) {char : Char}
    (hchar : char.toNat ∈ ['*'.toNat, '+'.toNat, '?'.toNat, '\x7b'.toNat]) :
    unitIs text 0 char = false := by
  cases text with
  | nil => rfl
  | cons unit text =>
    rw [unitIs_cons, beq_eq_false_iff_ne]
    rintro rfl
    exact h _ rfl hchar

lemma quantifierAt_none {text : List ℕ} (h : Unquantified text) : quantifierAt text 0 = none := by
  have hcounted : counted text = none := by
    rw [counted, h.unitIs (by simp)]
    rfl
  rw [quantifierAt, h.unitIs (by simp), h.unitIs (by simp), h.unitIs (by simp), List.drop_zero,
    hcounted]
  rfl

lemma takeWhile_digits {digits rest : List ℕ} (hdigits : ∀ digit ∈ digits, isDigit digit = true)
    (hrest : ∀ unit ∈ rest.head?, isDigit unit = false) :
    (digits ++ rest).takeWhile isDigit = digits := by
  rw [List.takeWhile_append_of_pos hdigits]
  cases rest with
  | nil => simp
  | cons unit rest => simp [hrest unit rfl]

/-- The digits of a count and what follows them. -/
lemma counted_least {least rest : List ℕ} (hne : least ≠ [])
    (hleast : ∀ digit ∈ least, isDigit digit = true)
    (hrest : ∀ unit ∈ rest.head?, isDigit unit = false) :
    counted ('\x7b'.toNat :: (least ++ rest)) =
      if unitIs rest 0 '\x7d' then some ⟨number least, some (number least), least.length + 2⟩
      else
        let most := (rest.drop 1).takeWhile isDigit
        if unitIs rest 0 ',' && unitIs rest (1 + most.length) '\x7d' then
          some ⟨number least, if most.isEmpty then none else some (number most),
            least.length + most.length + 3⟩
        else none := by
  have hempty : least.isEmpty = false := by simpa using hne
  have hat : ∀ k char, unitIs ('\x7b'.toNat :: (least ++ rest)) (1 + least.length + k) char =
      unitIs rest k char := by
    intro k char
    rw [show 1 + least.length + k = least.length + k + 1 by omega, unitIs_cons_succ, unitIs_done]
  have hafter : (least ++ rest).drop (least.length + 1) = rest.drop 1 := by
    rw [← List.drop_drop, drop_done]
  have hzero := fun char => hat 0 char
  simp only [Nat.add_zero] at hzero
  simp only [counted, List.drop_succ_cons, List.drop_zero, takeWhile_digits hleast hrest,
    unitIs_cons, hempty, hzero, show 1 + least.length + 1 = (least.length + 1) + 1 by omega, hafter]
  have hmost : ∀ n char, unitIs ('\x7b'.toNat :: (least ++ rest)) (least.length + 1 + 1 + n) char =
      unitIs rest (1 + n) char := by
    intro n char
    rw [← hat, show 1 + least.length + (1 + n) = least.length + 1 + 1 + n by omega]
  rw [hmost, show least.length + 1 + 1 + ((rest.drop 1).takeWhile isDigit).length + 1 =
    least.length + ((rest.drop 1).takeWhile isDigit).length + 3 by omega]
  simp

lemma counted_text {bounds : Bounds} {rest : List ℕ}
    (hcounted : ∀ unit ∈ bounds.text.head?, unit = '\x7b'.toNat) :
    counted (bounds.text ++ rest) = some ⟨bounds.min, bounds.max, bounds.text.length⟩ := by
  cases bounds with
  | star => exact absurd (hcounted _ rfl) (by decide)
  | plus => exact absurd (hcounted _ rfl) (by decide)
  | optional => exact absurd (hcounted _ rfl) (by decide)
  | exactly count =>
    rw [Bounds.text, List.cons_append, List.append_assoc,
      counted_least count.ne count.decimal (by simp; decide)]
    simp [unitIs_cons, Bounds.min, Bounds.max]
  | atLeast least =>
    rw [Bounds.text, List.cons_append, List.append_assoc,
      counted_least least.ne least.decimal (by simp; decide)]
    have hnone : List.takeWhile isDigit ('\x7d'.toNat :: rest) = [] := by
      rw [List.takeWhile_cons]
      rfl
    simp only [List.cons_append, List.nil_append, List.drop_succ_cons, List.drop_zero, hnone]
    simp [unitIs_cons, unitIs_cons_succ, Bounds.min, Bounds.max]
  | between least most =>
    rw [Bounds.text, List.cons_append, List.append_assoc,
      counted_least least.ne least.decimal (by simp; decide)]
    have hmost : List.takeWhile isDigit (most.digits ++ '\x7d'.toNat :: rest) = most.digits :=
      takeWhile_digits most.decimal (by simp; decide)
    have hempty : most.digits.isEmpty = false := by simpa using most.ne
    simp only [List.cons_append, List.append_assoc, List.nil_append, List.drop_succ_cons,
      List.drop_zero, hmost, hempty, Nat.add_comm 1, unitIs_cons_succ]
    have hclose : unitIs (most.digits ++ '\x7d'.toNat :: rest) most.digits.length '\x7d' = true :=
      unitIs_done most.digits _ 0 '\x7d'
    rw [hclose]
    simp [unitIs_cons, Bounds.min, Bounds.max]
    omega

/-- Nothing here makes the quantifier before it lazy. -/
lemma quantifierAt_text (repeated : Repeat) {rest : List ℕ} (hrest : unitIs rest 0 '?' = false) :
    quantifierAt (repeated.text ++ rest) 0 =
      some ⟨repeated.bounds.min, repeated.bounds.max, repeated.text.length⟩ := by
  obtain ⟨bounds, lazy⟩ := repeated
  have hlazy : unitIs ((if lazy then ['?'.toNat] else []) ++ rest) 0 '?' = lazy := by
    cases lazy with
    | false => simpa using hrest
    | true => rfl
  have hlength : (if unitIs (bounds.text ++ ((if lazy then ['?'.toNat] else []) ++ rest))
      (0 + bounds.text.length) '?' then bounds.text.length + 1 else bounds.text.length) =
        (Repeat.text ⟨bounds, lazy⟩).length := by
    rw [Nat.zero_add, ← Nat.add_zero bounds.text.length, unitIs_done, hlazy]
    cases lazy <;> simp [Repeat.text]
  have hcount : (∀ unit ∈ bounds.text.head?, unit = '\x7b'.toNat) →
      quantifierAt (Repeat.text ⟨bounds, lazy⟩ ++ rest) 0 =
        some ⟨bounds.min, bounds.max, (Repeat.text ⟨bounds, lazy⟩).length⟩ := by
    intro hhead
    have hbrace : ∀ char : Char, char ≠ '\x7b' →
        unitIs (bounds.text ++ ((if lazy then ['?'.toNat] else []) ++ rest)) 0 char = false := by
      intro char hchar
      cases htext : bounds.text with
      | nil => cases bounds <;> simp [Bounds.text] at htext
      | cons unit units =>
        rw [htext] at hhead
        rw [hhead unit rfl, List.cons_append, unitIs_cons, beq_eq_false_iff_ne]
        exact fun hsame => hchar (Char.toNat_inj.mp hsame.symm)
    rw [Repeat.text, List.append_assoc, quantifierAt, hbrace '*' (by decide),
      hbrace '+' (by decide), hbrace '?' (by decide), List.drop_zero, counted_text hhead]
    simp only [Bool.false_eq_true, if_false, Option.map_some, hlength]
    rfl
  cases bounds with
  | star =>
    rw [Repeat.text, List.append_assoc, quantifierAt]
    exact congrArg (fun length => some (Quantifier.mk 0 none length)) hlength
  | plus =>
    rw [Repeat.text, List.append_assoc, quantifierAt]
    exact congrArg (fun length => some (Quantifier.mk 1 none length)) hlength
  | optional =>
    rw [Repeat.text, List.append_assoc, quantifierAt]
    exact congrArg (fun length => some (Quantifier.mk 0 (some 1) length)) hlength
  | exactly count => exact hcount (by simp [Bounds.text])
  | atLeast least => exact hcount (by simp [Bounds.text])
  | between least most => exact hcount (by simp [Bounds.text])

/-! ### Steps of the scan -/

/-- The scan after an atom. -/
def scanAfter (pattern : List ℕ) (index : ℕ) (stack : List Bool) (atomVaries : Bool) : Bool :=
  match afterAtom pattern index stack atomVaries with
  | none => true
  | some next => repeatedVariableFrom pattern next.1 next.2

section Steps
variable {pattern : List ℕ} {index : ℕ} {stack : List Bool}

lemma scan_open (hin : index < pattern.length) (hopen : unitIs pattern index '(' = true) :
    repeatedVariableFrom pattern index stack =
      repeatedVariableFrom pattern (groupOpen pattern index) (false :: stack) := by
  rw [repeatedVariableFrom, dif_pos hin, if_pos hopen]

lemma scan_close (hin : index < pattern.length) (hopen : unitIs pattern index '(' = false)
    (hclose : unitIs pattern index ')' = true) {varies top : Bool} {outer : List Bool} :
    repeatedVariableFrom pattern index (varies :: top :: outer) =
      scanAfter pattern (index + 1) (top :: outer) varies := by
  rw [repeatedVariableFrom, dif_pos hin, if_neg (by simp [hopen]), if_pos hclose]
  have hmore : 1 < (varies :: top :: outer).length := by simp
  simp only [List.headD_cons, List.tail_cons, scanAfter]
  split
  · rename_i hafter
    rw [if_pos hmore] at hafter
    simp only [hafter]
  · rename_i next stack hafter
    rw [if_pos hmore] at hafter
    simp only [hafter]

lemma scan_bar (hin : index < pattern.length) (hopen : unitIs pattern index '(' = false)
    (hclose : unitIs pattern index ')' = false) (hbar : unitIs pattern index '|' = true) :
    repeatedVariableFrom pattern index stack =
      repeatedVariableFrom pattern (index + 1) (markTop stack) := by
  rw [repeatedVariableFrom, dif_pos hin, if_neg (by simp [hopen]), if_neg (by simp [hclose]),
    if_pos hbar]

lemma scan_atom (hin : index < pattern.length) (hopen : unitIs pattern index '(' = false)
    (hclose : unitIs pattern index ')' = false) (hbar : unitIs pattern index '|' = false) :
    repeatedVariableFrom pattern index stack =
      scanAfter pattern (plainAtomEnd pattern index) stack false := by
  rw [repeatedVariableFrom, dif_pos hin, if_neg (by simp [hopen]), if_neg (by simp [hclose]),
    if_neg (by simp [hbar]), scanAfter]
  split
  · rename_i hafter
    simp only [hafter]
  · rename_i next stack hafter
    simp only [hafter]

end Steps

lemma markTop_cons (varies top : Bool) (outer : List Bool) :
    (if varies then markTop (top :: outer) else top :: outer) = (top || varies) :: outer := by
  cases varies <;> simp [markTop]

/-- After an atom the scan reads its quantifier, if there is one. -/
lemma scanAfter_repeated (done : List ℕ) (repeated : Option Repeat) {rest : List ℕ}
    (hrest : Unquantified rest) (varies top : Bool) (outer : List Bool) :
    scanAfter (done ++ (repeated.elim [] Repeat.text ++ rest)) done.length (top :: outer) varies =
      (varies && repeated.any Repeat.repeats ||
        repeatedVariableFrom (done ++ (repeated.elim [] Repeat.text ++ rest))
          (done.length + (repeated.elim [] Repeat.text).length)
          ((top || (varies || repeated.any Repeat.varies)) :: outer)) := by
  rw [scanAfter, afterAtom, quantifierAt_done]
  cases repeated with
  | none =>
    rw [Option.elim_none, List.nil_append, quantifierAt_none hrest]
    dsimp only
    rw [markTop_cons]
    simp
  | some repeated =>
    rw [Option.elim_some, quantifierAt_text repeated (hrest.unitIs (by simp))]
    dsimp only
    by_cases hrepeats : (varies && repeated.bounds.max.all (1 < ·)) = true
    · rw [if_pos hrepeats]
      simp only [Option.any_some, Repeat.repeats, hrepeats, Bool.true_or]
    · rw [if_neg hrepeats]
      rw [Bool.not_eq_true] at hrepeats
      simp only [Option.any_some, Repeat.repeats, hrepeats, Bool.false_or, markTop_cons,
        Repeat.varies]

/-! ### Atoms -/

lemma classClose_members (done : List ℕ) (members : List Member) (rest : List ℕ) :
    classClose (done ++ (members.flatMap Member.text ++ ']'.toNat :: rest)) done.length =
      done.length + (members.flatMap Member.text).length := by
  induction members generalizing done with
  | nil =>
    rw [List.flatMap_nil, List.nil_append, classClose, dif_pos (by simp)]
    have hclose := unitIs_done done (']'.toNat :: rest) 0 ']'
    rw [Nat.add_zero] at hclose
    rw [if_pos (by rw [hclose]; rfl)]
    rfl
  | cons member members ih =>
    have hat := unitIs_done done
      (member.text ++ (members.flatMap Member.text ++ ']'.toNat :: rest)) 0
    rw [Nat.add_zero] at hat
    have hnext := ih (done ++ member.text)
    rw [List.append_assoc, List.length_append] at hnext
    rw [List.flatMap_cons, List.append_assoc, classClose,
      dif_pos (by cases member <;> simp [Member.text]), hat, hat]
    cases member with
    | plain unit other =>
      rw [Member.text, List.singleton_append, unitIs_cons, unitIs_cons,
        if_neg (by simpa using other.1), if_neg (by simpa using other.2)]
      simp only [Member.text, List.singleton_append, List.length_singleton] at hnext
      rw [hnext, List.length_append, List.length_singleton]
      omega
    | escaped unit =>
      rw [Member.text, List.cons_append, unitIs_cons, unitIs_cons, if_neg (by decide),
        if_pos (by decide)]
      refine Eq.trans hnext ?_
      simp only [Member.text, List.length_append, List.length_cons, List.length_nil]
      omega

lemma indexOf_first {units rest : List ℕ} {char : Char} (h : ∀ unit ∈ units, unit ≠ char.toNat) :
    indexOf (units ++ char.toNat :: rest) char 0 = some units.length := by
  have hfind : (units ++ char.toNat :: rest).findIdx? (· == char.toNat) = some units.length := by
    induction units with
    | nil => simp [List.findIdx?_cons]
    | cons unit units ih =>
      have hne := h unit List.mem_cons_self
      rw [List.cons_append, List.findIdx?_cons,
        ih fun other hother => h other (List.mem_cons_of_mem _ hother)]
      simp [hne]
  rw [indexOf, List.drop_zero, hfind, Option.map_some, Nat.zero_add]

/-- A class ends at its bracket. -/
lemma plainAtomEnd_class (done : List ℕ) (charClass : CharClass) (rest : List ℕ) :
    plainAtomEnd (done ++ (charClass.text ++ rest)) done.length =
      done.length + charClass.text.length := by
  have hat := fun k => unitIs_done done (charClass.text ++ rest) k
  have hzero := hat 0
  rw [Nat.add_zero] at hzero
  have htext : charClass.text ++ rest =
      '['.toNat :: (charClass.inside ++ ']'.toNat :: rest) := by
    simp [CharClass.text]
  have hmembers : ∃ members : List Member, charClass.inside = members.flatMap Member.text ∧
      members ≠ [] := by
    obtain ⟨negated, members, hne⟩ := charClass
    cases negated with
    | false => exact ⟨members, by simp [CharClass.inside], hne⟩
    | true =>
      refine ⟨.plain '^'.toNat (by decide) :: members, ?_, by simp⟩
      simp [CharClass.inside, Member.text]
  obtain ⟨members, hinside, hne⟩ := hmembers
  have hfirst : unitIs (charClass.text ++ rest) 1 ']' = false := by
    rw [htext, hinside, unitIs_cons_succ]
    cases members with
    | nil => exact absurd rfl hne
    | cons member members =>
      cases member with
      | plain unit other => simpa [Member.text, unitIs_cons] using other.1
      | escaped unit => simp [Member.text, unitIs_cons]
  have hscan := classClose_members (done ++ ['['.toNat]) members rest
  rw [List.append_assoc, List.length_append, List.length_singleton, ← hinside] at hscan
  rw [plainAtomEnd, hzero, hzero, hat, hfirst, if_neg (by rw [htext, unitIs_cons]; decide),
    if_pos (by rw [htext]; rfl), if_neg (by simp), htext]
  refine Eq.trans (congrArg (· + 1) hscan) ?_
  simp only [CharClass.text, List.length_cons, List.length_append, List.length_nil]
  omega

lemma isHex_ne {unit : ℕ} (h : isHex unit = true) : unit ≠ '\x7b'.toNat := by
  rintro rfl
  exact absurd h (by decide)

/-- An escape ends where its text does. -/
lemma plainAtomEnd_escape (done : List ℕ) (escape : Escape) (rest : List ℕ) :
    plainAtomEnd (done ++ (escape.text ++ rest)) done.length =
      done.length + escape.text.length := by
  have hat := fun k => unitIs_done done (escape.text ++ rest) k
  have hzero := hat 0
  rw [Nat.add_zero] at hzero
  have hslash : unitIs (escape.text ++ rest) 0 '\\' = true := by cases escape <;> rfl
  rw [plainAtomEnd, hzero, hslash, if_pos rfl, atomEnd, hzero, hslash, if_pos rfl, escapeEnd,
    bracedEscape, unitIn_done, hat, hat, hat]
  cases escape with
  | plain unit other =>
    have hkind : unitIn (Escape.text (.plain unit other) ++ rest) 1 "pPux" = false := other
    have hx : unitIs (Escape.text (.plain unit other) ++ rest) 1 'x' = false := by
      rw [Escape.text, List.cons_append, unitIs_cons_succ, List.cons_append, unitIs_cons,
        beq_eq_false_iff_ne]
      rintro rfl
      exact absurd other (by decide)
    have hu : unitIs (Escape.text (.plain unit other) ++ rest) 1 'u' = false := by
      rw [Escape.text, List.cons_append, unitIs_cons_succ, List.cons_append, unitIs_cons,
        beq_eq_false_iff_ne]
      rintro rfl
      exact absurd other (by decide)
    rw [hkind, hx, hu]
    rfl
  | braced kind takes name closed =>
    have hkind : unitIn (Escape.text (.braced kind takes name closed) ++ rest) 1 "pPux" = true :=
      takes
    have hbrace : unitIs (Escape.text (.braced kind takes name closed) ++ rest) 2 '\x7b' = true :=
      rfl
    rw [hkind, hbrace, Bool.and_self, if_pos rfl, braceEnd]
    have hindex : indexOf (Escape.text (.braced kind takes name closed) ++ rest) '\x7d' 0 =
        some (name.length + 3) := by
      have hfirst : ∀ unit ∈ '\\'.toNat :: kind :: '\x7b'.toNat :: name, unit ≠ '\x7d'.toNat := by
        rintro unit hunit rfl
        simp only [List.mem_cons] at hunit
        rcases hunit with hslash | rfl | hbrace | hname
        · exact absurd hslash (by decide)
        · exact absurd takes (by decide)
        · exact absurd hbrace (by decide)
        · exact closed hname
      have htext : Escape.text (.braced kind takes name closed) ++ rest =
          ('\\'.toNat :: kind :: '\x7b'.toNat :: name) ++ '\x7d'.toNat :: rest := by
        simp [Escape.text]
      rw [htext, indexOf_first hfirst]
      rfl
    have hdone := indexOf_done done (Escape.text (.braced kind takes name closed) ++ rest) '\x7d' 0
    rw [Nat.add_zero, hindex] at hdone
    rw [hdone]
    simp [Escape.text]
    omega
  | hex first second digits =>
    have hbrace : unitIs (Escape.text (.hex first second digits) ++ rest) 2 '\x7b' = false := by
      have hfirst := isHex_ne (digits first (by simp))
      simpa [Escape.text, unitIs_cons_succ, unitIs_cons] using hfirst
    have hx : unitIs (Escape.text (.hex first second digits) ++ rest) 1 'x' = true := rfl
    rw [hbrace, hx, Bool.and_false]
    rfl
  | unicode first second third fourth digits =>
    have hbrace : unitIs (Escape.text (.unicode first second third fourth digits) ++ rest) 2
        '\x7b' = false := by
      have hfirst := isHex_ne (digits first (by simp))
      simpa [Escape.text, unitIs_cons_succ, unitIs_cons] using hfirst
    have hx : unitIs (Escape.text (.unicode first second third fourth digits) ++ rest) 1 'x' =
        false := rfl
    have hu : unitIs (Escape.text (.unicode first second third fourth digits) ++ rest) 1 'u' =
        true := rfl
    rw [hbrace, hx, hu, Bool.and_false]
    rfl

/-- The body of a group starts past its opening. -/
lemma groupOpen_text (done : List ℕ) (opening : Opening) {rest : List ℕ}
    (hrest : Unquantified rest) :
    groupOpen (done ++ (opening.text ++ rest)) done.length =
      done.length + opening.text.length := by
  have hat := fun k => unitIs_done done (opening.text ++ rest) k
  rw [groupOpen, hat, hat, unitIn_done]
  cases opening with
  | capturing =>
    have hopen : unitIs (Opening.text .capturing ++ rest) 1 '?' = false := by
      rw [Opening.text, List.singleton_append, unitIs_cons_succ]
      exact hrest.unitIs (by simp)
    rw [hopen]
    rfl
  | nonCapturing =>
    have hopen : unitIs (Opening.text .nonCapturing ++ rest) 1 '?' = true := rfl
    have hname : unitIs (Opening.text .nonCapturing ++ rest) 2 '<' = false := rfl
    rw [hopen, hname]
    rfl
  | named name =>
    have hopen : unitIs (Opening.text (.named name) ++ rest) 1 '?' = true := rfl
    have hname : unitIs (Opening.text (.named name) ++ rest) 2 '<' = true := rfl
    have hfirst : unitIn (Opening.text (.named name) ++ rest) 3 "=!" = false := by
      obtain ⟨unit, units, hname⟩ := List.exists_cons_of_ne_nil name.ne
      have hvalid := name.valid unit (by simp [hname])
      have hall : codeUnits ">=!" = '>'.toNat :: codeUnits "=!" := by decide
      rw [hall, List.contains_cons, Bool.or_eq_false_iff] at hvalid
      simp only [unitIn, Opening.text, hname, List.cons_append, List.getElem?_cons_succ,
        List.getElem?_cons_zero, Option.any_some]
      exact hvalid.2
    have hunits : ∀ unit ∈ '<'.toNat :: name.units, unit ≠ '>'.toNat := by
      rintro unit hunit rfl
      rcases List.mem_cons.mp hunit with hless | hmem
      · exact absurd hless (by decide)
      · exact absurd (name.valid _ hmem) (by decide)
    have hskip : skipTo (done ++ (Opening.text (.named name) ++ rest)) '>' (done.length + 2) =
        done.length + 2 + (name.units.length + 1) := by
      have hsplit : done ++ (Opening.text (.named name) ++ rest) =
          (done ++ ['('.toNat, '?'.toNat]) ++ (('<'.toNat :: name.units) ++ '>'.toNat :: rest) := by
        simp [Opening.text]
      have hlength : (done ++ ['('.toNat, '?'.toNat]).length = done.length + 2 := by simp
      have hindex := indexOf_done (done ++ ['('.toNat, '?'.toNat])
        (('<'.toNat :: name.units) ++ '>'.toNat :: rest) '>' 0
      rw [Nat.add_zero, indexOf_first hunits, hlength] at hindex
      rw [skipTo, hsplit, hindex]
      rfl
    rw [hopen, hname, hfirst, hskip]
    simp [Opening.text]
    omega

/-! ### The scan and the tree -/

section Tree

lemma unquantified_cons {unit : ℕ} {rest : List ℕ}
    (h : unit ∉ ['*'.toNat, '+'.toNat, '?'.toNat, '\x7b'.toNat]) :
    Unquantified (unit :: rest) := by
  intro first hfirst
  obtain rfl := Option.some.inj hfirst
  exact h

/-- The units of a literal are no syntax. -/
lemma utf16_plain {char : Char} (h : char ∉ SPECIAL) :
    ∀ unit ∈ utf16 char, ∀ special ∈ SPECIAL, unit ≠ special.toNat := by
  intro unit hunit special hspecial heq
  rw [utf16] at hunit
  split_ifs at hunit with hsmall
  · rw [List.mem_singleton.mp hunit] at heq
    exact h (Char.toNat_inj.mp heq ▸ hspecial)
  · have hlow : ∀ special ∈ SPECIAL, special.toNat < 128 := by simp [SPECIAL]
    have hless := hlow special hspecial
    simp only [List.mem_cons, List.not_mem_nil, or_false] at hunit
    omega

lemma utf16_cases (char : Char) :
    ∃ unit, utf16 char = [unit] ∨ ∃ next, utf16 char = [unit, next] := by
  rw [utf16]
  split_ifs
  · exact ⟨_, Or.inl rfl⟩
  · exact ⟨_, Or.inr ⟨_, rfl⟩⟩

lemma unquantified_units {unit : ℕ} {rest : List ℕ}
    (h : ∀ special ∈ SPECIAL, unit ≠ special.toNat) : Unquantified (unit :: rest) := by
  apply unquantified_cons
  have hstar := h '*' (by decide)
  have hplus := h '+' (by decide)
  have hoptional := h '?' (by decide)
  have hbrace := h '\x7b' (by decide)
  simp only [List.mem_cons, List.not_mem_nil, or_false, not_or]
  exact ⟨hstar, hplus, hoptional, hbrace⟩

lemma unquantified_alternative (alternative : Alternative) {rest : List ℕ}
    (hrest : Unquantified rest) : Unquantified (alternative.text ++ rest) := by
  cases alternative with
  | empty => exact hrest
  | term atom repeated more =>
    rw [Alternative.text, List.append_assoc]
    cases atom with
    | literal char plain =>
      have hplain := utf16_plain plain
      obtain ⟨unit, hunit | ⟨next, hunit⟩⟩ := utf16_cases char
      · rw [Atom.text, hunit]
        exact unquantified_units (hplain unit (by simp [hunit]))
      · rw [Atom.text, hunit]
        exact unquantified_units (hplain unit (by simp [hunit]))
    | escape escape => cases escape <;> exact unquantified_cons (by decide)
    | charClass charClass => exact unquantified_cons (by decide)
    | group opening body => cases opening <;> exact unquantified_cons (by decide)

lemma unquantified_disjunction (disjunction : Disjunction) {rest : List ℕ}
    (hrest : Unquantified rest) : Unquantified (disjunction.text ++ rest) := by
  cases disjunction with
  | one alternative => exact unquantified_alternative alternative hrest
  | either alternative others =>
    rw [Disjunction.text, List.append_assoc]
    exact unquantified_alternative alternative (unquantified_cons (by decide))

/-- One unit that is no syntax. -/
lemma scan_unit (done : List ℕ) {unit : ℕ} (rest : List ℕ)
    (h : ∀ special ∈ SPECIAL, unit ≠ special.toNat) (stack : List Bool) :
    repeatedVariableFrom (done ++ unit :: rest) done.length stack =
      scanAfter (done ++ unit :: rest) (done.length + 1) stack false := by
  have hat : ∀ char ∈ SPECIAL, unitIs (done ++ unit :: rest) done.length char = false := by
    intro char hchar
    rw [← Nat.add_zero done.length, unitIs_done, unitIs_cons, beq_eq_false_iff_ne]
    exact h char hchar
  rw [scan_atom (by simp) (hat '(' (by decide)) (hat ')' (by decide)) (hat '|' (by decide)),
    plainAtomEnd, hat '\\' (by decide), hat '[' (by decide)]
  rfl

/-- An escape or a class. -/
lemma scan_text {done text rest : List ℕ} {first : Char} {more : List ℕ}
    (htext : text = first.toNat :: more) (hfirst : first = '\\' ∨ first = '[')
    (hstop : plainAtomEnd (done ++ (text ++ rest)) done.length = done.length + text.length)
    (stack : List Bool) :
    repeatedVariableFrom (done ++ (text ++ rest)) done.length stack =
      scanAfter (done ++ (text ++ rest)) (done.length + text.length) stack false := by
  have hat : ∀ char, char ≠ first →
      unitIs (done ++ (text ++ rest)) done.length char = false := by
    intro char hchar
    rw [← Nat.add_zero done.length, unitIs_done, htext, List.cons_append, unitIs_cons,
      beq_eq_false_iff_ne]
    exact fun hsame => hchar (Char.toNat_inj.mp hsame.symm)
  have hne : '(' ≠ first ∧ ')' ≠ first ∧ '|' ≠ first := by
    rcases hfirst with rfl | rfl <;> decide
  rw [scan_atom (by simp [htext]) (hat '(' hne.1) (hat ')' hne.2.1) (hat '|' hne.2.2), hstop]

/-- After an atom that is done, with its quantifier and what follows. -/
lemma scanAfter_done {pattern : List ℕ} (done text : List ℕ) (repeated : Option Repeat)
    {rest : List ℕ} (hpattern : pattern = done ++ (text ++ (repeated.elim [] Repeat.text ++ rest)))
    (hrest : Unquantified rest) (varies top : Bool) (outer : List Bool) :
    scanAfter pattern (done.length + text.length) (top :: outer) varies =
      (varies && repeated.any Repeat.repeats ||
        repeatedVariableFrom pattern
          (done.length + (text.length + (repeated.elim [] Repeat.text).length))
          ((top || (varies || repeated.any Repeat.varies)) :: outer)) := by
  have h := scanAfter_repeated (done ++ text) repeated hrest varies top outer
  rw [List.append_assoc, List.length_append, ← hpattern, Nat.add_assoc] at h
  exact h

/-- A literal, an escape or a class, with its quantifier. -/
lemma scan_plain {pattern : List ℕ} (done : List ℕ) {atom : Atom}
    (hatom : ∀ opening body, atom ≠ .group opening body) (repeated : Option Repeat)
    {rest : List ℕ}
    (hpattern : pattern = done ++ (atom.text ++ (repeated.elim [] Repeat.text ++ rest)))
    (hrest : Unquantified rest) (top : Bool) (outer : List Bool) :
    repeatedVariableFrom pattern done.length (top :: outer) =
      repeatedVariableFrom pattern
        (done.length + (atom.text.length + (repeated.elim [] Repeat.text).length))
        ((top || repeated.any Repeat.varies) :: outer) := by
  have hafter := scanAfter_done done atom.text repeated hpattern hrest false top outer
  rw [Bool.false_and, Bool.false_or, Bool.false_or] at hafter
  rw [← hafter]
  cases atom with
  | literal char plain =>
    have hplain := utf16_plain plain
    obtain ⟨unit, hunit | ⟨next, hunit⟩⟩ := utf16_cases char
    · rw [Atom.text, hunit] at hpattern ⊢
      have hscan := scan_unit done (repeated.elim [] Repeat.text ++ rest)
        (hplain unit (by simp [hunit])) (top :: outer)
      rw [← List.singleton_append, ← hpattern] at hscan
      exact hscan
    · -- the two halves of a surrogate pair are two atoms to the scan
      rw [Atom.text, hunit] at hpattern ⊢
      have hnext := hplain next (by simp [hunit])
      have hhalf : Unquantified (next :: (repeated.elim [] Repeat.text ++ rest)) :=
        unquantified_units hnext
      have hscan := scan_unit done (next :: (repeated.elim [] Repeat.text ++ rest))
        (hplain unit (by simp [hunit])) (top :: outer)
      have hnone := scanAfter_repeated (done ++ [unit]) none hhalf false top outer
      have hscan' := scan_unit (done ++ [unit]) (repeated.elim [] Repeat.text ++ rest) hnext
        (top :: outer)
      have hsplit : done ++ unit :: next :: (repeated.elim [] Repeat.text ++ rest) = pattern := by
        rw [hpattern]
        rfl
      rw [Option.elim_none, List.nil_append, Option.any_none, Option.any_none, Bool.and_false,
        Bool.or_false, Bool.or_false, Bool.false_or, List.append_assoc, List.singleton_append,
        hsplit, List.length_append] at hnone
      rw [List.append_assoc, List.singleton_append, hsplit, List.length_append] at hscan'
      rw [hsplit] at hscan
      exact hscan.trans (hnone.trans hscan')
  | escape escape =>
    have hfirst : ∃ more, escape.text = '\\'.toNat :: more := by cases escape <;> exact ⟨_, rfl⟩
    obtain ⟨more, hmore⟩ := hfirst
    rw [Atom.text] at hpattern ⊢
    rw [hpattern]
    exact scan_text hmore (Or.inl rfl) (plainAtomEnd_escape done escape _) _
  | charClass charClass =>
    rw [Atom.text] at hpattern ⊢
    rw [hpattern]
    exact scan_text rfl (Or.inr rfl) (plainAtomEnd_class done charClass _) _
  | group opening body => exact absurd rfl (hatom opening body)

mutual

/-- The scan of a disjunction finds what repeats in it, or marks the group it is in. -/
theorem scan_disjunction (disjunction : Disjunction) {pattern : List ℕ} (done rest : List ℕ)
    (hpattern : pattern = done ++ (disjunction.text ++ rest)) (hrest : Unquantified rest)
    (top : Bool) (outer : List Bool) :
    repeatedVariableFrom pattern done.length (top :: outer) =
      (disjunction.repeatsVarying ||
        repeatedVariableFrom pattern (done.length + disjunction.text.length)
          ((top || disjunction.varies) :: outer)) := by
  cases disjunction with
  | one alternative => exact scan_alternative alternative done rest hpattern hrest top outer
  | either alternative others =>
    rw [Disjunction.text, List.append_assoc] at hpattern
    have hbar : Unquantified ('|'.toNat :: (others.text ++ rest)) := unquantified_cons (by decide)
    rw [scan_alternative alternative done _ hpattern hbar top outer, Disjunction.repeatsVarying,
      Bool.or_assoc]
    congr 1
    have hat := fun k => unitIs_done (done ++ alternative.text) ('|'.toNat :: (others.text ++ rest)) k
    have hat' := hat 0
    rw [Nat.add_zero, List.append_assoc, List.length_append] at hat'
    have hsplit : pattern = done ++ (alternative.text ++ '|'.toNat :: (others.text ++ rest)) :=
      hpattern
    have hin : done.length + alternative.text.length < pattern.length := by
      rw [hsplit]
      simp
    rw [scan_bar hin (by rw [hsplit, hat']; rfl) (by rw [hsplit, hat']; rfl)
      (by rw [hsplit, hat']; rfl), markTop]
    have hothers : pattern = (done ++ alternative.text ++ ['|'.toNat]) ++ (others.text ++ rest) := by
      rw [hsplit]
      simp
    have hnext := scan_disjunction others _ rest hothers hrest true outer
    rw [List.length_append, List.length_append, List.length_singleton] at hnext
    rw [hnext, Disjunction.text, Disjunction.varies, List.length_append, List.length_cons]
    simp only [Bool.true_or, Bool.or_true]
    congr 2
    omega

theorem scan_alternative (alternative : Alternative) {pattern : List ℕ} (done rest : List ℕ)
    (hpattern : pattern = done ++ (alternative.text ++ rest)) (hrest : Unquantified rest)
    (top : Bool) (outer : List Bool) :
    repeatedVariableFrom pattern done.length (top :: outer) =
      (alternative.repeatsVarying ||
        repeatedVariableFrom pattern (done.length + alternative.text.length)
          ((top || alternative.varies) :: outer)) := by
  cases alternative with
  | empty => simp [Alternative.repeatsVarying, Alternative.varies, Alternative.text]
  | term atom repeated more =>
    rw [Alternative.text, List.append_assoc, List.append_assoc] at hpattern
    have hmore := unquantified_alternative more hrest
    rw [scan_term atom done repeated _ hpattern hmore top outer, Alternative.repeatsVarying,
      Bool.or_assoc, Bool.or_assoc, Bool.or_assoc]
    congr 2
    have hsplit : pattern =
        (done ++ (atom.text ++ repeated.elim [] Repeat.text)) ++ (more.text ++ rest) := by
      rw [hpattern]
      simp
    have hnext := scan_alternative more _ rest hsplit hrest
      (top || (atom.varies || repeated.any Repeat.varies)) outer
    rw [List.length_append, List.length_append] at hnext
    rw [hnext, Alternative.text, Alternative.varies, List.length_append, List.length_append]
    rw [Bool.or_assoc top, Nat.add_assoc, Nat.add_assoc]

theorem scan_term (atom : Atom) {pattern : List ℕ} (done : List ℕ) (repeated : Option Repeat)
    (rest : List ℕ)
    (hpattern : pattern = done ++ (atom.text ++ (repeated.elim [] Repeat.text ++ rest)))
    (hrest : Unquantified rest) (top : Bool) (outer : List Bool) :
    repeatedVariableFrom pattern done.length (top :: outer) =
      (atom.varies && repeated.any Repeat.repeats || atom.repeatsVarying ||
        repeatedVariableFrom pattern
          (done.length + (atom.text.length + (repeated.elim [] Repeat.text).length))
          ((top || (atom.varies || repeated.any Repeat.varies)) :: outer)) := by
  cases atom with
  | literal char plain => exact scan_plain done (by simp) repeated hpattern hrest top outer
  | escape escape => exact scan_plain done (by simp) repeated hpattern hrest top outer
  | charClass charClass => exact scan_plain done (by simp) repeated hpattern hrest top outer
  | group opening body =>
    have hafter := scanAfter_done done (Atom.group opening body).text repeated hpattern hrest
      body.varies top outer
    set after := repeated.elim [] Repeat.text ++ rest with hafterText
    have hclosed : Unquantified (')'.toNat :: after) := unquantified_cons (by decide)
    have hbody := unquantified_disjunction body hclosed
    have hsplit : pattern = done ++ (opening.text ++ (body.text ++ ')'.toNat :: after)) := by
      rw [hpattern, Atom.text]
      simp
    have hopened := groupOpen_text done opening hbody
    have hbodySplit : pattern = (done ++ opening.text) ++ (body.text ++ ')'.toNat :: after) := by
      rw [hsplit, List.append_assoc]
    have hscan := scan_disjunction body (done ++ opening.text) _ hbodySplit hclosed false
      (top :: outer)
    have hcloseSplit : pattern = (done ++ opening.text ++ body.text) ++ ')'.toNat :: after := by
      rw [hsplit]
      simp
    have hat := unitIs_done (done ++ opening.text ++ body.text) (')'.toNat :: after) 0
    rw [Nat.add_zero, ← hcloseSplit, List.length_append, List.length_append] at hat
    have hopenAt : unitIs pattern done.length '(' = true := by
      have h := unitIs_done done (opening.text ++ (body.text ++ ')'.toNat :: after)) 0 '('
      rw [Nat.add_zero, ← hsplit] at h
      rw [h]
      cases opening <;> rfl
    have hin : done.length < pattern.length := by
      rw [hsplit]
      cases opening <;> simp [Opening.text]
    have hin' : done.length + opening.text.length + body.text.length < pattern.length := by
      rw [hcloseSplit]
      simp only [List.length_append, List.length_cons]
      omega
    have hlength : done.length + (Atom.group opening body).text.length =
        done.length + opening.text.length + body.text.length + 1 := by
      simp only [Atom.text, List.length_append, List.length_singleton]
      omega
    rw [← hsplit] at hopened
    rw [List.length_append, Bool.false_or] at hscan
    rw [hlength] at hafter
    rw [scan_open hin hopenAt, hopened, hscan, scan_close hin' (by rw [hat]; rfl)
      (by rw [hat]; rfl), hafter, Atom.varies, Atom.repeatsVarying, Bool.or_assoc]
    exact Bool.or_left_comm _ _ _

end

end Tree

/-- The scan says of every tree's text whether a group that varies repeats in the tree. -/
theorem hasRepeatedVariableGroup_text (disjunction : Disjunction) :
    hasRepeatedVariableGroup disjunction.text = disjunction.repeatsVarying := by
  have hpattern : disjunction.text = [] ++ (disjunction.text ++ []) := by simp
  have hscan := scan_disjunction disjunction [] [] hpattern (by simp [Unquantified]) false []
  have hend : ∀ stack,
      repeatedVariableFrom disjunction.text disjunction.text.length stack = false := by
    intro stack
    rw [repeatedVariableFrom, dif_neg (lt_irrefl _)]
  rw [List.length_nil, Nat.zero_add, hend, Bool.or_false] at hscan
  exact hscan

end Maple.IngestRules
