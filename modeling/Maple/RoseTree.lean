import Mathlib.Data.List.Basic

/-! Finite trees whose nodes carry a label and a list of children. -/

namespace Maple

universe u

inductive RoseTree (α : Type u) where
  | node (label : α) (children : List (RoseTree α))

namespace RoseTree

variable {α β γ : Type u}

def label : RoseTree α → α
  | node a _ => a

def children : RoseTree α → List (RoseTree α)
  | node _ cs => cs

@[simp] lemma label_node (a : α) (cs : List (RoseTree α)) : (node a cs).label = a := rfl
@[simp] lemma children_node (a : α) (cs : List (RoseTree α)) : (node a cs).children = cs := rfl

@[elab_as_elim]
theorem induction {motive : RoseTree α → Prop}
    (node : ∀ a cs, (∀ c ∈ cs, motive c) → motive (node a cs)) (t : RoseTree α) : motive t :=
  @RoseTree.rec α motive (fun cs => ∀ c ∈ cs, motive c) (fun a cs ih => node a cs ih)
    (fun _ hc => nomatch hc)
    (fun _ _ hd htail c hc => (List.mem_cons.mp hc).elim (fun h => h ▸ hd) (htail c)) t

mutual

/-- Combines a tree bottom-up: `f` reads a node's label and what its children gave. -/
def fold (f : α → List β → β) : RoseTree α → β
  | node a cs => f a (foldAll f cs)

def foldAll (f : α → List β → β) : List (RoseTree α) → List β
  | [] => []
  | c :: cs => fold f c :: foldAll f cs

end

lemma fold_node (f : α → List β → β) (a : α) (cs : List (RoseTree α)) :
    fold f (node a cs) = f a (cs.map (fold f)) := by
  rw [fold]
  congr 1
  induction cs with
  | nil => rfl
  | cons c cs ih => rw [foldAll, ih, List.map_cons]

def map (f : α → β) : RoseTree α → RoseTree β :=
  fold fun a cs => node (f a) cs

@[simp] lemma map_node (f : α → β) (a : α) (cs : List (RoseTree α)) :
    map f (node a cs) = node (f a) (cs.map (map f)) := fold_node _ a cs

@[simp] lemma label_map (f : α → β) (t : RoseTree α) : (map f t).label = f t.label := by
  cases t
  rw [map_node, label_node, label_node]

lemma map_map (g : β → γ) (f : α → β) (t : RoseTree α) : map g (map f t) = map (g ∘ f) t := by
  induction t using induction with
  | node a cs ih =>
    simp only [map_node, List.map_map, Function.comp_apply]
    congr 1
    exact List.map_congr_left ih

/-- The labels of a tree, a node before its children. -/
def labels : RoseTree α → List α :=
  fold fun a below => a :: below.flatten

@[simp] lemma labels_node (a : α) (cs : List (RoseTree α)) :
    labels (node a cs) = a :: cs.flatMap labels := by
  rw [labels, fold_node, List.flatMap_def]

lemma labels_map (f : α → β) (t : RoseTree α) : (map f t).labels = t.labels.map f := by
  induction t using induction with
  | node a cs ih =>
    rw [map_node, labels_node, labels_node, List.map_cons, List.flatMap_map, List.map_flatMap]
    congr 1
    exact List.flatMap_congr ih

mutual

/-- Computes new labels top-down: `step b a c` is what a node labelled `a` that inherited `b`
hands to a child labelled `c`. -/
def inherit (step : β → α → α → β) (out : β → α → γ) : β → RoseTree α → RoseTree γ
  | b, node a cs => node (out b a) (inheritAll step out b a cs)

def inheritAll (step : β → α → α → β) (out : β → α → γ) :
    β → α → List (RoseTree α) → List (RoseTree γ)
  | _, _, [] => []
  | b, a, c :: cs => inherit step out (step b a c.label) c :: inheritAll step out b a cs

end

variable {step : β → α → α → β} {out : β → α → γ}

@[simp] lemma inherit_node (b : β) (a : α) (cs : List (RoseTree α)) :
    inherit step out b (node a cs) =
      node (out b a) (cs.map fun c => inherit step out (step b a c.label) c) := by
  rw [inherit]
  congr 1
  induction cs with
  | nil => rfl
  | cons c cs ih => rw [inheritAll, ih, List.map_cons]

@[simp] lemma label_inherit (b : β) (t : RoseTree α) :
    (inherit step out b t).label = out b t.label := by
  cases t
  rw [inherit_node, label_node, label_node]

/-- Every child stands in the relation `R` to its parent. -/
inductive Along (R : α → α → Prop) : RoseTree α → Prop
  | node {a : α} {cs : List (RoseTree α)} (hedge : ∀ c ∈ cs, R a c.label)
      (hbelow : ∀ c ∈ cs, Along R c) : Along R (node a cs)

variable {R S : α → α → Prop}

lemma along_node {a : α} {cs : List (RoseTree α)} :
    Along R (node a cs) ↔ ∀ c ∈ cs, R a c.label ∧ Along R c := by
  constructor
  · intro h
    cases h with
    | node hedge hbelow => exact fun c hc => ⟨hedge c hc, hbelow c hc⟩
  · exact fun h => .node (fun c hc => (h c hc).1) fun c hc => (h c hc).2

lemma Along.imp {t : RoseTree α} (h : Along R t) (himp : ∀ a c, R a c → S a c) : Along S t := by
  induction h with
  | node hedge _ ih => exact .node (fun c hc => himp _ _ (hedge c hc)) ih

lemma along_map {f : α → β} {Q : β → β → Prop} {t : RoseTree α} :
    Along Q (map f t) ↔ Along (fun a c => Q (f a) (f c)) t := by
  induction t using induction with
  | node a cs ih =>
    rw [map_node, along_node, along_node, List.forall_mem_map]
    refine forall₂_congr fun c hc => ?_
    rw [label_map, ih c hc]

lemma along_inherit {Q : γ → γ → Prop} (h : ∀ b a c, Q (out b a) (out (step b a c) c)) (b : β)
    (t : RoseTree α) : Along Q (inherit step out b t) := by
  induction t using induction generalizing b with
  | node a cs ih =>
    rw [inherit_node, along_node]
    intro d hd
    obtain ⟨c, hc, rfl⟩ := List.mem_map.mp hd
    exact ⟨by rw [label_inherit]; exact h b a c.label, ih c hc _⟩

mutual

/-- Each child's label behind its parent's. -/
def edges : RoseTree α → List (α × α)
  | node a cs => edgesAll a cs

def edgesAll (a : α) : List (RoseTree α) → List (α × α)
  | [] => []
  | c :: cs => (a, c.label) :: edges c ++ edgesAll a cs

end

@[simp] lemma edges_node (a : α) (cs : List (RoseTree α)) :
    edges (node a cs) = cs.flatMap fun c => (a, c.label) :: edges c := by
  rw [edges]
  induction cs with
  | nil => rfl
  | cons c cs ih => rw [edgesAll, ih, List.flatMap_cons]

lemma edges_map (f : α → β) (t : RoseTree α) :
    (map f t).edges = t.edges.map (Prod.map f f) := by
  induction t using induction with
  | node a cs ih =>
    rw [map_node, edges_node, edges_node, List.flatMap_map, List.map_flatMap]
    refine List.flatMap_congr fun c hc => ?_
    rw [List.map_cons, ih c hc, label_map]
    rfl

/-- The children of every node stand in the relation `R`, each to those after it. -/
inductive Siblings (R : α → α → Prop) : RoseTree α → Prop
  | node {a : α} {cs : List (RoseTree α)} (hcs : (cs.map label).Pairwise R)
      (hbelow : ∀ c ∈ cs, Siblings R c) : Siblings R (node a cs)

lemma siblings_node {a : α} {cs : List (RoseTree α)} :
    Siblings R (node a cs) ↔ (cs.map label).Pairwise R ∧ ∀ c ∈ cs, Siblings R c := by
  constructor
  · intro h
    cases h with
    | node hcs hbelow => exact ⟨hcs, hbelow⟩
  · exact fun h => .node h.1 h.2

lemma siblings_map {f : α → β} {Q : β → β → Prop} {t : RoseTree α} :
    Siblings Q (map f t) ↔ Siblings (fun a c => Q (f a) (f c)) t := by
  induction t using induction with
  | node a cs ih =>
    have hlabels : (cs.map (map f)).map label = (cs.map label).map f := by
      rw [List.map_map, List.map_map]
      exact List.map_congr_left fun c _ => label_map f c
    rw [map_node, siblings_node, siblings_node, hlabels, List.pairwise_map, List.forall_mem_map]
    exact and_congr_right fun _ => forall₂_congr ih

end RoseTree

end Maple
