import StaticCheck.Expr

/-!
# Statements

A statement assigns to a variable or to an element of an array, calls a routine,
branches, or loops. A branch may lack its second block, which is not the same as
having an empty one.

Equality of statements is decidable (`Stmt.same_iff`).
-/

namespace StaticCheck

/-- A statement. -/
inductive Stmt where
  | assign (target : String) (index : Option Expr) (value : Expr)
  | call (callee : String) (arguments : List Expr)
  | branch (condition : Expr) (thenBody : List Stmt) (elseBody : Option (List Stmt))
  | loop (condition : Expr) (body : List Stmt)

namespace Stmt

mutual

/-- Whether two statements are the same. -/
def same : Stmt → Stmt → Bool
  | assign x i v, assign x' i' v' => decide (x = x') && decide (i = i') && decide (v = v')
  | call f as, call f' as' => decide (f = f') && decide (as = as')
  | branch c t none, branch c' t' none => decide (c = c') && sameEach t t'
  | branch c t (some e), branch c' t' (some e') =>
    decide (c = c') && sameEach t t' && sameEach e e'
  | loop c b, loop c' b' => decide (c = c') && sameEach b b'
  | _, _ => false

/-- Whether two lists of statements are the same. -/
def sameEach : List Stmt → List Stmt → Bool
  | [], [] => true
  | a :: as, b :: bs => same a b && sameEach as bs
  | _, _ => false

end

mutual

theorem eq_of_same : ∀ {a b : Stmt}, same a b = true → a = b
  | assign .., b, h => by
    cases b <;> simp only [same, Bool.false_eq_true, Bool.and_eq_true, decide_eq_true_eq] at h
    rw [h.1.1, h.1.2, h.2]
  | call .., b, h => by
    cases b <;> simp only [same, Bool.false_eq_true, Bool.and_eq_true, decide_eq_true_eq] at h
    rw [h.1, h.2]
  | branch _ _ none, branch _ _ none, h => by
    simp only [same, Bool.and_eq_true, decide_eq_true_eq] at h
    rw [h.1, eq_of_sameEach h.2]
  | branch _ _ (some _), branch _ _ (some _), h => by
    simp only [same, Bool.and_eq_true, decide_eq_true_eq] at h
    rw [h.1.1, eq_of_sameEach h.1.2, eq_of_sameEach h.2]
  | branch _ _ none, branch _ _ (some _), h => by simp only [same, Bool.false_eq_true] at h
  | branch _ _ (some _), branch _ _ none, h => by simp only [same, Bool.false_eq_true] at h
  | branch _ _ none, assign .., h => by simp only [same, Bool.false_eq_true] at h
  | branch _ _ none, call .., h => by simp only [same, Bool.false_eq_true] at h
  | branch _ _ none, loop .., h => by simp only [same, Bool.false_eq_true] at h
  | branch _ _ (some _), assign .., h => by simp only [same, Bool.false_eq_true] at h
  | branch _ _ (some _), call .., h => by simp only [same, Bool.false_eq_true] at h
  | branch _ _ (some _), loop .., h => by simp only [same, Bool.false_eq_true] at h
  | loop .., b, h => by
    cases b <;> simp only [same, Bool.false_eq_true, Bool.and_eq_true, decide_eq_true_eq] at h
    rw [h.1, eq_of_sameEach h.2]

theorem eq_of_sameEach : ∀ {as bs : List Stmt}, sameEach as bs = true → as = bs
  | [], [], _ => rfl
  | [], _ :: _, h => by simp only [sameEach, Bool.false_eq_true] at h
  | _ :: _, [], h => by simp only [sameEach, Bool.false_eq_true] at h
  | a :: as, b :: bs, h => by
    simp only [sameEach, Bool.and_eq_true] at h
    rw [eq_of_same h.1, eq_of_sameEach h.2]

end

mutual

theorem same_self : ∀ a : Stmt, same a a = true
  | assign _ _ _ => by simp only [same, decide_true, Bool.and_self]
  | call _ _ => by simp only [same, decide_true, Bool.and_self]
  | branch _ t none => by simp only [same, decide_true, Bool.and_self, sameEach_self t]
  | branch _ t (some e) => by
    simp only [same, decide_true, Bool.and_self, sameEach_self t, sameEach_self e]
  | loop _ b => by simp only [same, decide_true, Bool.and_self, sameEach_self b]

theorem sameEach_self : ∀ as : List Stmt, sameEach as as = true
  | [] => rfl
  | a :: as => by simp only [sameEach, Bool.and_self, same_self a, sameEach_self as]

end

@[simp]
theorem same_iff {a b : Stmt} : same a b = true ↔ a = b :=
  ⟨eq_of_same, fun h => h ▸ same_self a⟩

instance : DecidableEq Stmt := fun _ _ => decidable_of_iff _ same_iff

end Stmt

end StaticCheck
