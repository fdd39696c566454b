import StaticCheck.Table
import StaticCheck.Tree.NodeKind

/-!
# Syntax trees

A syntax tree is a node of some kind with attributes, which are texts under keys,
and with children. Nothing else is known of it: any node may have any attributes
and any children.

Equality of nodes is decidable (`Node.same_iff`).
-/

namespace StaticCheck

/-- A syntax tree. -/
structure Node where
  kind : NodeKind
  attributes : Table String
  children : List Node

namespace Node

/-- A node without attributes and children. -/
def ofKind (kind : NodeKind) : Node :=
  ⟨kind, .empty, []⟩

/-- Sets the attribute `key`. -/
def withAttribute (node : Node) (key value : String) : Node :=
  { node with attributes := node.attributes.insert key value }

/-- Puts `children` in the place of the children. -/
def withChildren (node : Node) (children : List Node) : Node :=
  { node with children := children }

/-- The attribute `key`. -/
def attribute? (node : Node) (key : String) : Option String :=
  node.attributes.get? key

/-- Whether the node is of this kind. -/
def is (node : Node) (kind : NodeKind) : Bool :=
  decide (node.kind = kind)

mutual

/-- Whether two trees are the same. -/
def same : Node → Node → Bool
  | ⟨k, as, cs⟩, ⟨k', as', cs'⟩ => decide (k = k') && decide (as = as') && sameEach cs cs'

/-- Whether two lists of trees are the same. -/
def sameEach : List Node → List Node → Bool
  | [], [] => true
  | a :: as, b :: bs => same a b && sameEach as bs
  | _, _ => false

end

mutual

theorem eq_of_same : ∀ {a b : Node}, same a b = true → a = b
  | ⟨_, _, _⟩, ⟨_, _, _⟩, h => by
    simp only [same, Bool.and_eq_true, decide_eq_true_eq] at h
    rw [h.1.1, h.1.2, eq_of_sameEach h.2]

theorem eq_of_sameEach : ∀ {as bs : List Node}, sameEach as bs = true → as = bs
  | [], [], _ => rfl
  | [], _ :: _, h => by simp only [sameEach, Bool.false_eq_true] at h
  | _ :: _, [], h => by simp only [sameEach, Bool.false_eq_true] at h
  | a :: as, b :: bs, h => by
    simp only [sameEach, Bool.and_eq_true] at h
    rw [eq_of_same h.1, eq_of_sameEach h.2]

end

mutual

theorem same_self : ∀ a : Node, same a a = true
  | ⟨_, _, cs⟩ => by simp only [same, decide_true, Bool.and_self, sameEach_self cs]

theorem sameEach_self : ∀ as : List Node, sameEach as as = true
  | [] => rfl
  | a :: as => by simp only [sameEach, Bool.and_self, same_self a, sameEach_self as]

end

@[simp]
theorem same_iff {a b : Node} : same a b = true ↔ a = b :=
  ⟨eq_of_same, fun h => h ▸ same_self a⟩

instance : DecidableEq Node := fun _ _ => decidable_of_iff _ same_iff

end Node

end StaticCheck
