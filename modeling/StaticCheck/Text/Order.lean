/-!
# Texts in the order of their code points

Every table of the checker lists its names in one order: two texts are compared
at the first place where they differ, by the code point that stands there, and a
text comes before each of its proper extensions.

`before` decides this order. It is strict and total: `before_irrefl`,
`before_trans` and `eq_of_not_before` are all that the tables need to know of it.
-/

namespace StaticCheck.Text

/-- `before` on the characters of the two texts. -/
def charsBefore : List Char → List Char → Bool
  | _, [] => false
  | [], _ :: _ => true
  | c :: cs, d :: ds =>
    if c.toNat < d.toNat then true
    else if d.toNat < c.toNat then false
    else charsBefore cs ds

/-- `a` stands strictly before `b` in the order of code points. -/
def before (a b : String) : Bool :=
  charsBefore a.toList b.toList

@[simp]
theorem charsBefore_irrefl (cs : List Char) : charsBefore cs cs = false := by
  induction cs with
  | nil => rfl
  | cons c cs ih => simp only [charsBefore, Nat.lt_irrefl, if_false, ih]

theorem charsBefore_trans :
    ∀ {as bs cs : List Char}, charsBefore as bs = true → charsBefore bs cs = true →
      charsBefore as cs = true
  | [], [], _, h, _ => by cases h
  | _ :: _, [], _, h, _ => by cases h
  | _, _ :: _, [], _, h => by cases h
  | [], _ :: _, _ :: _, _, _ => rfl
  | a :: as, b :: bs, c :: cs, hab, hbc => by
    simp only [charsBefore] at hab hbc ⊢
    by_cases h₁ : a.toNat < b.toNat
    · by_cases h₂ : b.toNat < c.toNat
      · rw [if_pos (Nat.lt_trans h₁ h₂)]
      · by_cases h₃ : c.toNat < b.toNat
        · rw [if_neg h₂, if_pos h₃] at hbc
          cases hbc
        · rw [if_pos (by omega)]
    · by_cases h₂ : b.toNat < a.toNat
      · rw [if_neg h₁, if_pos h₂] at hab
        cases hab
      · rw [if_neg h₁, if_neg h₂] at hab
        by_cases h₃ : b.toNat < c.toNat
        · rw [if_pos (by omega)]
        · by_cases h₄ : c.toNat < b.toNat
          · rw [if_neg h₃, if_pos h₄] at hbc
            cases hbc
          · rw [if_neg h₃, if_neg h₄] at hbc
            rw [if_neg (by omega), if_neg (by omega)]
            exact charsBefore_trans hab hbc

theorem eq_of_not_charsBefore :
    ∀ {as bs : List Char}, charsBefore as bs = false → charsBefore bs as = false → as = bs
  | [], [], _, _ => rfl
  | [], _ :: _, h, _ => by cases h
  | _ :: _, [], _, h => by cases h
  | a :: as, b :: bs, hab, hba => by
    simp only [charsBefore] at hab hba
    by_cases h₁ : a.toNat < b.toNat
    · rw [if_pos h₁] at hab
      cases hab
    · by_cases h₂ : b.toNat < a.toNat
      · rw [if_pos h₂] at hba
        cases hba
      · rw [if_neg h₁, if_neg h₂] at hab
        rw [if_neg h₂, if_neg h₁] at hba
        have head : a = b := Char.toNat_inj.mp (by omega)
        rw [head, eq_of_not_charsBefore hab hba]

@[simp]
theorem before_irrefl (a : String) : before a a = false :=
  charsBefore_irrefl a.toList

theorem before_trans {a b c : String} (hab : before a b = true) (hbc : before b c = true) :
    before a c = true :=
  charsBefore_trans hab hbc

/-- Two texts of which neither stands before the other are the same text. -/
theorem eq_of_not_before {a b : String} (hab : before a b = false) (hba : before b a = false) :
    a = b :=
  String.toList_inj.mp (eq_of_not_charsBefore hab hba)

theorem ne_of_before {a b : String} (h : before a b = true) : a ≠ b := by
  rintro rfl
  simp at h

theorem not_before_of_before {a b : String} (h : before a b = true) : before b a = false := by
  cases hba : before b a with
  | false => rfl
  | true => exact absurd (before_trans h hba) (by simp)

end StaticCheck.Text
