import StaticCheck.Tag

/-!
# Expressions

An expression is a literal, a variable, an element of an array, a call, or an
operator on one or two operands. Every expression carries a tag, which is
independent of its form: `withTag` replaces it.

Equality of expressions is decidable (`Expr.same_iff`).
-/

namespace StaticCheck

/-- An expression under its tag. -/
inductive Expr where
  | literal (tag : Tag) (value : String)
  | var (tag : Tag) (name : String)
  | element (tag : Tag) (name : String) (index : Expr)
  | call (tag : Tag) (callee : String) (arguments : List Expr)
  | unary (tag : Tag) (operator : String) (operand : Expr)
  | binary (tag : Tag) (left : Expr) (operator : String) (right : Expr)

namespace Expr

/-- The tag on the expression. -/
def tag : Expr → Tag
  | literal tag _ => tag
  | var tag _ => tag
  | element tag _ _ => tag
  | call tag _ _ => tag
  | unary tag _ _ => tag
  | binary tag _ _ _ => tag

/-- The same expression under another tag. -/
def withTag (tag : Tag) : Expr → Expr
  | literal _ value => literal tag value
  | var _ name => var tag name
  | element _ name index => element tag name index
  | call _ callee arguments => call tag callee arguments
  | unary _ operator operand => unary tag operator operand
  | binary _ left operator right => binary tag left operator right

/-- The callee of an expression that is a call. -/
def callee? : Expr → Option String
  | call _ callee _ => some callee
  | _ => none

/-- The expressions directly below, from left to right. -/
def children : Expr → List Expr
  | literal _ _ => []
  | var _ _ => []
  | element _ _ index => [index]
  | call _ _ arguments => arguments
  | unary _ _ operand => [operand]
  | binary _ left _ right => [left, right]

/-- A variable under the tag of variables. -/
def ofName (name : String) : Expr :=
  var .var name

/-- A call under the tag of its callee. -/
def ofCall (callee : String) (arguments : List Expr) : Expr :=
  call (.functionCall callee) callee arguments

@[simp]
theorem tag_withTag (t : Tag) (e : Expr) : (e.withTag t).tag = t := by
  cases e <;> rfl

@[simp]
theorem withTag_tag (e : Expr) : e.withTag e.tag = e := by
  cases e <;> rfl

@[simp]
theorem withTag_withTag (s t : Tag) (e : Expr) : (e.withTag s).withTag t = e.withTag t := by
  cases e <;> rfl

@[simp]
theorem callee?_withTag (t : Tag) (e : Expr) : (e.withTag t).callee? = e.callee? := by
  cases e <;> rfl

mutual

/-- Whether two expressions are the same. -/
def same : Expr → Expr → Bool
  | literal t v, literal t' v' => decide (t = t') && decide (v = v')
  | var t x, var t' x' => decide (t = t') && decide (x = x')
  | element t x i, element t' x' i' => decide (t = t') && decide (x = x') && same i i'
  | call t f as, call t' f' as' => decide (t = t') && decide (f = f') && sameEach as as'
  | unary t o e, unary t' o' e' => decide (t = t') && decide (o = o') && same e e'
  | binary t l o r, binary t' l' o' r' =>
    decide (t = t') && same l l' && decide (o = o') && same r r'
  | _, _ => false

/-- Whether two lists of expressions are the same. -/
def sameEach : List Expr → List Expr → Bool
  | [], [] => true
  | a :: as, b :: bs => same a b && sameEach as bs
  | _, _ => false

end

mutual

theorem eq_of_same : ∀ {a b : Expr}, same a b = true → a = b := by
  intro a b h
  cases a <;> cases b <;> simp only [same, Bool.false_eq_true, Bool.and_eq_true,
    decide_eq_true_eq] at h
  case literal => simp only [h]
  case var => simp only [h]
  case element => rw [h.1.1, h.1.2, eq_of_same h.2]
  case call => rw [h.1.1, h.1.2, eq_of_sameEach h.2]
  case unary => rw [h.1.1, h.1.2, eq_of_same h.2]
  case binary => rw [h.1.1.1, eq_of_same h.1.1.2, h.1.2, eq_of_same h.2]

theorem eq_of_sameEach : ∀ {as bs : List Expr}, sameEach as bs = true → as = bs
  | [], [], _ => rfl
  | [], _ :: _, h => by simp only [sameEach, Bool.false_eq_true] at h
  | _ :: _, [], h => by simp only [sameEach, Bool.false_eq_true] at h
  | a :: as, b :: bs, h => by
    simp only [sameEach, Bool.and_eq_true] at h
    rw [eq_of_same h.1, eq_of_sameEach h.2]

end

mutual

theorem same_self : ∀ a : Expr, same a a = true
  | literal _ _ => by simp only [same, decide_true, Bool.and_self]
  | var _ _ => by simp only [same, decide_true, Bool.and_self]
  | element _ _ i => by simp only [same, decide_true, Bool.and_self, same_self i]
  | call _ _ as => by simp only [same, decide_true, Bool.and_self, sameEach_self as]
  | unary _ _ e => by simp only [same, decide_true, Bool.and_self, same_self e]
  | binary _ l _ r => by
    simp only [same, decide_true, Bool.and_self, same_self l, same_self r]

theorem sameEach_self : ∀ as : List Expr, sameEach as as = true
  | [] => rfl
  | a :: as => by simp only [sameEach, Bool.and_self, same_self a, sameEach_self as]

end

@[simp]
theorem same_iff {a b : Expr} : same a b = true ↔ a = b :=
  ⟨eq_of_same, fun h => h ▸ same_self a⟩

instance : DecidableEq Expr := fun _ _ => decidable_of_iff _ same_iff

end Expr

end StaticCheck
