import StaticCheck.Text.Quoted

/-!
# Quoted texts can be read back

The escapes of a text are told apart from the left: an escape is a single character or a backslash
with one or more characters behind it, the first of which says where it ends (`Escape.unique`). So a
text is determined by what stands between the quotes (`flatMap_escape_inj`).

The opening quote is told from the right. Between the quotes every quote has a backslash right in
front of it (`guarded_flatMap_escape`), and the opening quote has none. So a quoted text is found in
any text that has no quote behind it and no backslash right in front of it, whatever else stands in
front of it: `quoted_between_inj`.

Nothing is said here about the characters that are escaped by their code point, except that the
quote and the backslash are not among them.
-/

namespace StaticCheck.Text

/-! ## Splitting at a character -/

/-- A list that is split at two occurrences of a member is split at the same one, or the other
occurrence lies on one side. -/
theorem append_cons_cases {α : Type} {c : α} {xs ys us vs : List α}
    (h : xs ++ c :: us = ys ++ c :: vs) :
    (xs = ys ∧ us = vs) ∨ (∃ m, ys = xs ++ c :: m ∧ us = m ++ c :: vs) ∨
      ∃ m, xs = ys ++ c :: m ∧ vs = m ++ c :: us := by
  rcases List.append_eq_append_iff.mp h with ⟨as, rfl, hus⟩ | ⟨bs, rfl, hvs⟩
  · cases as with
    | nil =>
      cases hus
      exact Or.inl ⟨(List.append_nil xs).symm, rfl⟩
    | cons a as =>
      obtain ⟨rfl, rfl⟩ := List.cons.inj hus
      exact Or.inr (Or.inl ⟨as, rfl, rfl⟩)
  · cases bs with
    | nil =>
      cases hvs
      exact Or.inl ⟨List.append_nil ys, rfl⟩
    | cons b bs =>
      obtain ⟨rfl, rfl⟩ := List.cons.inj hvs
      exact Or.inr (Or.inr ⟨bs, rfl, rfl⟩)

/-- The last occurrence of a member splits a list in one way. -/
theorem append_cons_inj_of_not_mem_right {α : Type} {c : α} {xs ys us vs : List α} (hus : c ∉ us)
    (hvs : c ∉ vs) (h : xs ++ c :: us = ys ++ c :: vs) : xs = ys ∧ us = vs := by
  rcases append_cons_cases h with hsame | ⟨m, -, rfl⟩ | ⟨m, -, rfl⟩
  · exact hsame
  · exact absurd (List.mem_append_right _ (List.mem_cons_self ..)) hus
  · exact absurd (List.mem_append_right _ (List.mem_cons_self ..)) hvs

/-- The first occurrence of a member splits a list in one way. -/
theorem append_cons_inj_of_not_mem_left {α : Type} {c : α} {xs ys us vs : List α} (hxs : c ∉ xs)
    (hys : c ∉ ys) (h : xs ++ c :: us = ys ++ c :: vs) : xs = ys ∧ us = vs := by
  rcases append_cons_cases h with hsame | ⟨m, rfl, -⟩ | ⟨m, rfl, -⟩
  · exact hsame
  · exact absurd (List.mem_append_right _ (List.mem_cons_self ..)) hys
  · exact absurd (List.mem_append_right _ (List.mem_cons_self ..)) hxs

/-! ## Hexadecimal digits -/

theorem digitChar_inj : ∀ m < 16, ∀ n < 16, Nat.digitChar m = Nat.digitChar n → m = n := by
  decide

theorem exists_of_mem_toDigits {c : Char} (n : Nat) (h : c ∈ Nat.toDigits 16 n) :
    ∃ d < 16, c = Nat.digitChar d := by
  induction n using Nat.strongRecOn with
  | ind n ih =>
    rw [Nat.toDigits_eq_if (by decide)] at h
    split at h
    · next hlt => exact ⟨n, hlt, List.mem_singleton.mp h⟩
    · next hge =>
      rcases List.mem_append.mp h with h | h
      · exact ih (n / 16) (by omega) h
      · exact ⟨n % 16, by omega, List.mem_singleton.mp h⟩

theorem not_mem_toDigits {c : Char} (hc : ∀ d < 16, Nat.digitChar d ≠ c) (n : Nat) :
    c ∉ Nat.toDigits 16 n := by
  intro h
  obtain ⟨d, hd, heq⟩ := exists_of_mem_toDigits n h
  exact hc d hd heq.symm

theorem toDigits_inj {m n : Nat} (h : Nat.toDigits 16 m = Nat.toDigits 16 n) : m = n := by
  induction m using Nat.strongRecOn generalizing n with
  | ind m ih =>
    rw [Nat.toDigits_eq_if (by decide), Nat.toDigits_eq_if (n := n) (by decide)] at h
    split at h <;> split at h
    · next hm hn => exact digitChar_inj m hm n hn (List.cons.inj h).1
    · next hm hn =>
      have hlength := congrArg List.length h
      have hpos := List.length_pos_iff.mpr (Nat.toDigits_ne_nil (b := 16) (n := n / 16))
      simp only [List.length_append, List.length_singleton] at hlength
      omega
    · next hm hn =>
      have hlength := congrArg List.length h
      have hpos := List.length_pos_iff.mpr (Nat.toDigits_ne_nil (b := 16) (n := m / 16))
      simp only [List.length_append, List.length_singleton] at hlength
      omega
    · next hm hn =>
      obtain ⟨hfront, hlast⟩ := List.append_inj' h rfl
      have hdiv := ih (m / 16) (by omega) hfront
      have hmod := digitChar_inj (m % 16) (by omega) (n % 16) (by omega) (List.cons.inj hlast).1
      omega

/-! ## Escapes from the left -/

/-- The characters that are escaped by one character, with that character. -/
def shortEscapes : List (Char × Char) :=
  [('"', '"'), ('\\', '\\'), ('\n', 'n'), ('\r', 'r'), ('\t', 't'), ('\x00', '0')]

/-- The ways in which a character can be written between quotes. -/
inductive Escape : Char → List Char → Prop
  | short {c k : Char} (h : (c, k) ∈ shortEscapes) : Escape c ['\\', k]
  | codePoint (c : Char) : Escape c (codePointEscape c)
  | raw {c : Char} (hquote : c ≠ '"') (hbackslash : c ≠ '\\') : Escape c [c]

theorem escape_escape (c : Char) : Escape c (escape c) := by
  unfold escape
  -- the six characters of `shortEscapes`, and then all others
  iterate 6
    split
    · next h => exact .short (by rw [h]; decide)
  split
  · exact .codePoint c
  · exact .raw ‹c ≠ '"'› ‹c ≠ '\\'›

theorem shortEscapes_inj : ∀ p ∈ shortEscapes, ∀ q ∈ shortEscapes, p.2 = q.2 → p.1 = q.1 := by
  decide

theorem ne_of_mem_shortEscapes : ∀ p ∈ shortEscapes, p.2 ≠ 'u' := by
  decide

theorem codePointEscape_append (c : Char) (xs : List Char) :
    codePointEscape c ++ xs = '\\' :: 'u' :: '\x7b' :: (Nat.toDigits 16 c.toNat ++ '\x7d' :: xs) := by
  unfold codePointEscape
  simp

/-- No escape is the beginning of another, and each belongs to one character. -/
theorem Escape.unique {c d : Char} {es fs xs ys : List Char} (hc : Escape c es) (hd : Escape d fs)
    (h : es ++ xs = fs ++ ys) : c = d ∧ xs = ys := by
  cases hc with
  | short hk =>
    cases hd with
    | short hl =>
      obtain ⟨hkl, hrest⟩ := List.cons.inj (List.cons.inj h).2
      exact ⟨shortEscapes_inj _ hk _ hl hkl, hrest⟩
    | codePoint =>
      rw [codePointEscape_append] at h
      exact absurd (List.cons.inj (List.cons.inj h).2).1 (ne_of_mem_shortEscapes _ hk)
    | raw hquote hbackslash => exact absurd (List.cons.inj h).1.symm hbackslash
  | codePoint =>
    rw [codePointEscape_append] at h
    cases hd with
    | short hl =>
      exact absurd (List.cons.inj (List.cons.inj h).2).1.symm (ne_of_mem_shortEscapes _ hl)
    | codePoint =>
      rw [codePointEscape_append] at h
      have hbrace : ∀ n, '\x7d' ∉ Nat.toDigits 16 n := not_mem_toDigits (by decide)
      obtain ⟨hdigits, hrest⟩ :=
        append_cons_inj_of_not_mem_left (hbrace _) (hbrace _) (by simpa using h)
      exact ⟨Char.toNat_inj.mp (toDigits_inj hdigits), hrest⟩
    | raw hquote hbackslash => exact absurd (List.cons.inj h).1.symm hbackslash
  | raw hquote hbackslash =>
    cases hd with
    | short hl => exact absurd (List.cons.inj h).1 hbackslash
    | codePoint =>
      rw [codePointEscape_append] at h
      exact absurd (List.cons.inj h).1 hbackslash
    | raw _ _ => exact List.cons.inj h

theorem Escape.ne_nil {c : Char} {es : List Char} (h : Escape c es) : es ≠ [] := by
  cases h with
  | short _ => exact List.cons_ne_nil _ _
  | codePoint => exact List.cons_ne_nil _ _
  | raw _ _ => exact List.cons_ne_nil _ _

/-- What stands between the quotes determines the text. -/
theorem flatMap_escape_inj {cs ds : List Char} (h : cs.flatMap escape = ds.flatMap escape) :
    cs = ds := by
  induction cs generalizing ds with
  | nil =>
    cases ds with
    | nil => rfl
    | cons d ds => simp [(escape_escape d).ne_nil] at h
  | cons c cs ih =>
    cases ds with
    | nil => simp [(escape_escape c).ne_nil] at h
    | cons d ds =>
      rw [List.flatMap_cons, List.flatMap_cons] at h
      obtain ⟨rfl, hrest⟩ := (escape_escape c).unique (escape_escape d) h
      rw [ih hrest]

/-! ## Quotes from the right -/

/-- Every quote in the text has a backslash right in front of it. -/
def Guarded (cs : List Char) : Prop :=
  ∀ front back, cs = front ++ '"' :: back → front.getLast? = some '\\'

theorem guarded_of_not_mem {cs : List Char} (h : '"' ∉ cs) : Guarded cs := by
  rintro front back rfl
  exact absurd (List.mem_append_right _ (List.mem_cons_self ..)) h

theorem Guarded.append {xs ys : List Char} (hxs : Guarded xs) (hys : Guarded ys) :
    Guarded (xs ++ ys) := by
  intro front back h
  rcases List.append_eq_append_iff.mp h with ⟨as, rfl, hright⟩ | ⟨bs, hleft, hright⟩
  · rw [List.getLast?_append, hys as back hright]
    rfl
  · cases bs with
    | nil =>
      rw [List.append_nil] at hleft
      have hempty : ([] : List Char).getLast? = some '\\' := hys [] back hright.symm
      cases hempty
    | cons b bs =>
      obtain ⟨rfl, -⟩ := List.cons.inj hright
      exact hxs front bs hleft

theorem Escape.guarded {c : Char} {es : List Char} (h : Escape c es) : Guarded es := by
  cases h with
  | short _ =>
    intro front back h
    -- the backslash itself is no quote, so the quote can only be the character behind it
    rcases List.cons_eq_append_iff.mp h with ⟨-, hquote⟩ | ⟨rest, rfl, hrest⟩
    · exact absurd (List.cons.inj hquote).1 (by decide)
    · rcases List.cons_eq_append_iff.mp hrest with ⟨rfl, -⟩ | ⟨rest, rfl, hnil⟩
      · rfl
      · exact absurd hnil.symm (List.append_ne_nil_of_right_ne_nil _ (List.cons_ne_nil _ _))
  | codePoint =>
    have hdigits : '"' ∉ Nat.toDigits 16 c.toNat := not_mem_toDigits (by decide) _
    refine guarded_of_not_mem ?_
    unfold codePointEscape
    simpa using hdigits
  | raw hquote _ => exact guarded_of_not_mem fun h => hquote (List.mem_singleton.mp h).symm

theorem guarded_flatMap_escape (cs : List Char) : Guarded (cs.flatMap escape) := by
  induction cs with
  | nil => exact guarded_of_not_mem List.not_mem_nil
  | cons c cs ih =>
    rw [List.flatMap_cons]
    exact (escape_escape c).guarded.append ih

/-- The opening quote is the last one without a backslash in front of it. -/
theorem append_quote_inj_of_guarded {xs ys us vs : List Char} (hus : Guarded us) (hvs : Guarded vs)
    (hxs : xs.getLast? ≠ some '\\') (hys : ys.getLast? ≠ some '\\')
    (h : xs ++ '"' :: us = ys ++ '"' :: vs) : xs = ys ∧ us = vs := by
  -- a quote in the guarded part would put a backslash at the end of the part in front of the other
  have hlast : ∀ {front m back : List Char}, Guarded back → (∃ rest, back = m ++ '"' :: rest) →
      (front ++ '"' :: m).getLast? = some '\\' := by
    rintro front m back hback ⟨rest, hrest⟩
    rw [List.getLast?_append, List.getLast?_cons, hback m rest hrest]
    rfl
  rcases append_cons_cases h with hsame | ⟨m, rfl, hm⟩ | ⟨m, rfl, hm⟩
  · exact hsame
  · exact absurd (hlast hus ⟨vs, hm⟩) hys
  · exact absurd (hlast hvs ⟨us, hm⟩) hxs

/-- A quoted text is found in a longer one, together with what stands around it. -/
theorem quoted_between_inj {before before' behind behind' : List Char} {s t : String}
    (hbefore : before.getLast? ≠ some '\\') (hbefore' : before'.getLast? ≠ some '\\')
    (hbehind : '"' ∉ behind) (hbehind' : '"' ∉ behind')
    (h : before ++ (quoted s).toList ++ behind = before' ++ (quoted t).toList ++ behind') :
    before = before' ∧ s = t ∧ behind = behind' := by
  have hsplit : ∀ (front : List Char) (u : String) (back : List Char),
      front ++ (quoted u).toList ++ back =
        (front ++ '"' :: u.toList.flatMap escape) ++ '"' :: back := by
    simp
  rw [hsplit, hsplit] at h
  obtain ⟨hfront, hback⟩ := append_cons_inj_of_not_mem_right hbehind hbehind' h
  obtain ⟨hsame, hescaped⟩ := append_quote_inj_of_guarded (guarded_flatMap_escape _)
    (guarded_flatMap_escape _) hbefore hbefore' hfront
  exact ⟨hsame, String.toList_inj.mp (flatMap_escape_inj hescaped), hback⟩

end StaticCheck.Text
