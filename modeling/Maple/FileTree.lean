import Mathlib

/-! Trees of files, and what a recursive removal that is cut may leave of one. -/

namespace Maple.FileTree

/-- What a name leads to. A symbolic link may lead nowhere; `special` is a socket, a pipe or a
device. -/
inductive Node
  | file (text : String)
  | directory (children : List (String × Node))
  | symlink (dangling : Bool)
  | special

namespace Node

/-- What a check of existence that follows links says. -/
def found : Node → Bool
  | .symlink dangling => !dangling
  | _ => true

def isFile : Node → Bool
  | .file _ => true
  | _ => false

def isDirectory : Node → Bool
  | .directory _ => true
  | _ => false

def isSymbolicLink : Node → Bool
  | .symlink _ => true
  | _ => false

/-- The entry of a directory. -/
def child : Node → String → Option Node
  | .directory children, name => children.lookup name
  | _, _ => none

/-- What a recursive removal leaves on its way: nodes below go one by one. -/
inductive Remains : Node → Node → Prop
  | refl (node : Node) : Remains node node
  | gone (before after : List (String × Node)) (entry : String × Node) :
      Remains (.directory (before ++ entry :: after)) (.directory (before ++ after))
  | inside (before after : List (String × Node)) {name : String} {node left : Node}
      (h : Remains node left) :
      Remains (.directory (before ++ (name, node) :: after))
        (.directory (before ++ (name, left) :: after))
  | trans {first second third : Node} (h : Remains first second) (h' : Remains second third) :
      Remains first third

lemma Remains.isDirectory {node left : Node} (h : Remains node left)
    (hnode : node.isDirectory = true) : left.isDirectory = true := by
  induction h with
  | refl node => exact hnode
  | gone before after entry => rfl
  | inside before after h ih => rfl
  | trans h h' ih ih' => exact ih' (ih hnode)

lemma Remains.isFile {node left : Node} (h : Remains node left) (hnode : node.isFile = true) :
    left.isFile = true := by
  induction h with
  | refl node => exact hnode
  | gone before after entry => cases hnode
  | inside before after h ih => cases hnode
  | trans h h' ih ih' => exact ih' (ih hnode)

lemma found_of_isDirectory {node : Node} (h : node.isDirectory = true) : node.found = true := by
  cases node with
  | directory children => rfl
  | file text => cases h
  | symlink dangling => cases h
  | special => cases h

lemma found_of_isFile {node : Node} (h : node.isFile = true) : node.found = true := by
  cases node with
  | file text => rfl
  | directory children => cases h
  | symlink dangling => cases h
  | special => cases h

end Node

end Maple.FileTree
