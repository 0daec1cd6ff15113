import Mathlib

/-! Decoding a concatenation of self-delimiting frames, up to a torn tail. -/

namespace Maple.FrameStream

variable {β φ ε : Type}

/-- A frame reader at an offset: a frame and the rest of the input, nothing left, or a failure. -/
abbrev FrameReader (β φ ε : Type) := ℕ → List β → Except ε (Option (φ × List β))

/-- Read frames until nothing is left or a read fails; each frame gives the next offset. -/
def decodeStream (read : FrameReader β φ ε) (next : φ → ℕ) : ℕ → ℕ → List β → List φ
  | 0, _, _ => []
  | fuel + 1, offset, bs =>
    match read offset bs with
    | .ok (some (f, rest)) => f :: decodeStream read next fuel (next f) rest
    | .ok none => []
    | .error _ => []

/-- `bs` gives no frame at `offset`: it is empty, torn, or corrupt. -/
def NoFrame (read : FrameReader β φ ε) (offset : ℕ) (bs : List β) : Prop :=
  ∀ f rest, read offset bs ≠ .ok (some (f, rest))

/-- Each item of `items` is read back, with its own frame, wherever it starts. -/
def ReadsBack {ι : Type} (read : FrameReader β φ ε) (enc : ι → List β) (frame : ℕ → ι → φ)
    (items : List ι) : Prop :=
  ∀ x ∈ items, enc x ≠ [] ∧
    ∀ offset rest, read offset (enc x ++ rest) = .ok (some (frame offset x, rest))

/-- The frames of `items` laid out from `offset`. -/
def framesAt {ι : Type} (enc : ι → List β) (frame : ℕ → ι → φ) : ℕ → List ι → List φ
  | _, [] => []
  | offset, x :: xs => frame offset x :: framesAt enc frame (offset + (enc x).length) xs

@[simp] lemma decodeStream_noFrame {read : FrameReader β φ ε} {next : φ → ℕ} {offset : ℕ}
    {bs : List β} (h : NoFrame read offset bs) (fuel : ℕ) :
    decodeStream read next fuel offset bs = [] := by
  cases fuel with
  | zero => rfl
  | succ fuel =>
    unfold decodeStream
    split
    · rename_i f rest heq
      exact absurd heq (h f rest)
    · rfl
    · rfl

variable {ι : Type} {read : FrameReader β φ ε} {next : φ → ℕ} {enc : ι → List β}
  {frame : ℕ → ι → φ}

lemma framesAt_append (offset : ℕ) (xs ys : List ι) :
    framesAt enc frame offset (xs ++ ys) =
      framesAt enc frame offset xs ++
        framesAt enc frame (offset + (xs.flatMap enc).length) ys := by
  induction xs generalizing offset with
  | nil => simp [framesAt]
  | cons x xs ih => simp [framesAt, ih, Nat.add_assoc]

@[simp] lemma framesAt_length (offset : ℕ) (xs : List ι) :
    (framesAt enc frame offset xs).length = xs.length := by
  induction xs generalizing offset with
  | nil => rfl
  | cons x xs ih => simp [framesAt, ih]

lemma framesAt_map {ψ : Type} (g : φ → ψ) (offset : ℕ) (xs : List ι) :
    framesAt enc (fun o x => g (frame o x)) offset xs = (framesAt enc frame offset xs).map g := by
  induction xs generalizing offset with
  | nil => rfl
  | cons x xs ih => simp [framesAt, ih]

/-- A frame of a layout sits after the items before it. -/
lemma mem_framesAt {offset : ℕ} {xs : List ι} {f : φ} :
    f ∈ framesAt enc frame offset xs ↔
      ∃ before x after, xs = before ++ x :: after ∧
        f = frame (offset + (before.flatMap enc).length) x := by
  constructor
  · intro h
    induction xs generalizing offset with
    | nil => cases h
    | cons x xs ih =>
      rcases List.mem_cons.mp h with rfl | h
      · exact ⟨[], x, xs, rfl, rfl⟩
      · obtain ⟨before, y, after, rfl, rfl⟩ := ih h
        exact ⟨x :: before, y, after, rfl, by simp [Nat.add_assoc]⟩
  · rintro ⟨before, x, after, rfl, rfl⟩
    rw [framesAt_append]
    simp [framesAt]

lemma length_le_flatMap (h : ∀ x ∈ (xs : List ι), enc x ≠ []) :
    xs.length ≤ (xs.flatMap enc).length := by
  induction xs with
  | nil => simp
  | cons x xs ih =>
    have hx : 0 < (enc x).length := List.length_pos_iff.mpr (h x (by simp))
    have hxs := ih fun y hy => h y (by simp [hy])
    simp only [List.length_cons, List.flatMap_cons, List.length_append]
    omega

/-- A concatenation of encoded items is decoded item by item, and decoding goes on with
whatever follows them. -/
theorem decodeStream_append {items : List ι} (hread : ReadsBack read enc frame items)
    (hnext : ∀ x ∈ items, ∀ offset, next (frame offset x) = offset + (enc x).length)
    (fuel offset : ℕ) (tail : List β) :
    decodeStream read next (items.length + fuel) offset (items.flatMap enc ++ tail) =
      framesAt enc frame offset items ++
        decodeStream read next fuel (offset + (items.flatMap enc).length) tail := by
  induction items generalizing offset with
  | nil => simp [framesAt]
  | cons x xs ih =>
    have hfuel : (x :: xs).length + fuel = (xs.length + fuel) + 1 := by
      simp only [List.length_cons]
      omega
    have hx := (hread x (by simp)).2 offset (xs.flatMap enc ++ tail)
    have hrest := ih (fun y hy => hread y (by simp [hy])) (fun y hy => hnext y (by simp [hy]))
      (offset + (enc x).length)
    rw [hfuel, List.flatMap_cons, List.append_assoc, decodeStream, hx]
    simp only [framesAt, List.cons_append, List.length_append, hnext x (by simp), hrest,
      Nat.add_assoc]

/-- Items followed by a tail that holds no frame are decoded to exactly the items. -/
theorem decodeStream_complete {items : List ι} (hread : ReadsBack read enc frame items)
    (hnext : ∀ x ∈ items, ∀ offset, next (frame offset x) = offset + (enc x).length)
    {offset : ℕ} {tail : List β}
    (htail : NoFrame read (offset + (items.flatMap enc).length) tail) {fuel : ℕ}
    (hfuel : (items.flatMap enc).length ≤ fuel) :
    decodeStream read next fuel offset (items.flatMap enc ++ tail) =
      framesAt enc frame offset items := by
  have hcount := length_le_flatMap fun x hx => (hread x hx).1
  obtain ⟨extra, rfl⟩ : ∃ extra, fuel = items.length + extra :=
    ⟨fuel - items.length, by omega⟩
  rw [decodeStream_append hread hnext, decodeStream_noFrame htail, List.append_nil]

end Maple.FrameStream
