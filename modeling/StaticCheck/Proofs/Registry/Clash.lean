import Mathlib.Order.Bounds.Basic
import Mathlib.Order.Nat

/-!
# The first name that is taken

Names that enter a namespace one after the other clash where a name is taken: from the outset, or by
one of the names in front of it (`ClashAt`). Without the order this says that the names are distinct
and that none of them is taken from the outset: `forall_not_clashAt_iff`.

Whatever takes in named members one by one and refuses the first one that clashes (`Admits`) is
determined by the position of this member. It succeeds if no position clashes, and it fails at the
first one that does, behind the members in front of it: `Admits.foldlM_eq_ok_iff`,
`Admits.foldlM_eq_error_iff`.
-/

namespace StaticCheck

/-- The name at position `k` is taken, from the outset or by a name in front of it. -/
def ClashAt (taken : String → Prop) (xs : List String) (k : Nat) : Prop :=
  ∃ x, xs[k]? = some x ∧ (taken x ∨ x ∈ xs.take k)

/-- Position `k` is the first one that clashes. -/
def FirstClash (taken : String → Prop) (xs : List String) (k : Nat) : Prop :=
  IsLeast {j | ClashAt taken xs j} k

section Clash

variable {taken : String → Prop} {x : String} {xs ys : List String} {k : Nat}

@[simp]
theorem clashAt_cons_zero : ClashAt taken (x :: xs) 0 ↔ taken x := by
  simp [ClashAt]

/-- Behind a name, that name is taken too. -/
@[simp]
theorem clashAt_cons_succ :
    ClashAt taken (x :: xs) (k + 1) ↔ ClashAt (fun y => taken y ∨ y = x) xs k := by
  simp only [ClashAt, List.getElem?_cons_succ, List.take_succ_cons, List.mem_cons, or_assoc]

@[simp]
theorem not_clashAt_nil : ¬ClashAt taken [] k := by
  simp [ClashAt]

theorem ClashAt.lt_length (h : ClashAt taken xs k) : k < xs.length := by
  obtain ⟨x, hx, -⟩ := h
  exact (List.getElem?_eq_some_iff.mp hx).1

/-- Names that follow make no difference. -/
theorem ClashAt.append (h : ClashAt taken xs k) (ys : List String) :
    ClashAt taken (xs ++ ys) k := by
  have hk := h.lt_length
  obtain ⟨x, hx, htaken⟩ := h
  refine ⟨x, ?_, ?_⟩
  · rw [List.getElem?_append_left hk]
    exact hx
  · rw [List.take_append_of_le_length (Nat.le_of_lt hk)]
    exact htaken

theorem forall_not_clashAt_cons_iff :
    (∀ k, ¬ClashAt taken (x :: xs) k) ↔
      ¬taken x ∧ ∀ k, ¬ClashAt (fun y => taken y ∨ y = x) xs k := by
  constructor
  · intro h
    exact ⟨fun hx => h 0 (clashAt_cons_zero.mpr hx), fun k hk => h (k + 1) (clashAt_cons_succ.mpr hk)⟩
  · rintro ⟨hx, hxs⟩ k hk
    cases k with
    | zero => exact hx (clashAt_cons_zero.mp hk)
    | succ k => exact hxs k (clashAt_cons_succ.mp hk)

/-- No position clashes if and only if the names are distinct and none is taken from the outset. -/
theorem forall_not_clashAt_iff :
    (∀ k, ¬ClashAt taken xs k) ↔ xs.Nodup ∧ ∀ x ∈ xs, ¬taken x := by
  induction xs generalizing taken with
  | nil => exact iff_of_true (fun _ => not_clashAt_nil) ⟨List.nodup_nil, nofun⟩
  | cons x xs ih =>
    rw [forall_not_clashAt_cons_iff, ih, List.nodup_cons, List.forall_mem_cons]
    constructor
    · rintro ⟨hx, hdistinct, hfree⟩
      exact ⟨⟨fun hmem => hfree x hmem (Or.inr rfl), hdistinct⟩, hx,
        fun y hy htaken => hfree y hy (Or.inl htaken)⟩
    · rintro ⟨⟨hnew, hdistinct⟩, hx, hfree⟩
      refine ⟨hx, hdistinct, fun y hy htaken => ?_⟩
      rcases htaken with htaken | rfl
      · exact hfree y hy htaken
      · exact hnew hy

/-- Where a position clashes, there is a first one that does. -/
theorem exists_firstClash (h : ∃ k, ClashAt taken xs k) : ∃ k, FirstClash taken xs k := by
  classical
  exact ⟨Nat.find h, Nat.isLeast_find h⟩

theorem FirstClash.unique {j : Nat} (hj : FirstClash taken xs j) (hk : FirstClash taken xs k) :
    j = k :=
  IsLeast.unique hj hk

end Clash

section Fold

variable {α σ ε : Type}

/-- The step adds a member whose name is not taken and refuses any other. The name of a member that
is added is taken from then on. -/
structure Admits (name : α → String) (taken : σ → String → Prop) (add : σ → α → σ)
    (refusal : σ → α → ε) (step : σ → α → Except ε σ) : Prop where
  added : ∀ {s a}, ¬taken s (name a) → step s a = .ok (add s a)
  refused : ∀ {s a}, taken s (name a) → step s a = .error (refusal s a)
  taken_add : ∀ s a x, taken (add s a) x ↔ taken s x ∨ x = name a

variable {name : α → String} {taken : σ → String → Prop} {add : σ → α → σ} {refusal : σ → α → ε}
  {step : σ → α → Except ε σ} {s t : σ} {as : List α} {e : ε}

namespace Admits

theorem taken_foldl (h : Admits name taken add refusal step) (as : List α) (s : σ) (x : String) :
    taken (as.foldl add s) x ↔ taken s x ∨ x ∈ as.map name := by
  induction as generalizing s with
  | nil => simp
  | cons a as ih =>
    simp [ih, h.taken_add, or_assoc]

/-- Members whose names do not clash are all added. -/
theorem foldlM_of_clear (h : Admits name taken add refusal step) :
    ∀ {as : List α} {s : σ}, (∀ k, ¬ClashAt (taken s) (as.map name) k) →
      as.foldlM step s = .ok (as.foldl add s) := by
  intro as
  induction as with
  | nil => intro s _; rfl
  | cons a as ih =>
    intro s hclear
    rw [List.map_cons, forall_not_clashAt_cons_iff] at hclear
    obtain ⟨hnew, hrest⟩ := hclear
    have htaken : taken (add s a) = fun x => taken s x ∨ x = name a :=
      funext fun x => propext (h.taken_add s a x)
    rw [List.foldlM_cons, h.added hnew, List.foldl_cons]
    exact ih (htaken ▸ hrest)

/-- The members in front of the first clash are added, and the next one is refused. -/
theorem exists_of_firstClash (h : Admits name taken add refusal step) {k : Nat}
    (hk : FirstClash (taken s) (as.map name) k) :
    ∃ a, as[k]? = some a ∧ as = as.take k ++ a :: as.drop (k + 1) ∧
      (∀ j, ¬ClashAt (taken s) ((as.take k).map name) j) ∧
        step ((as.take k).foldl add s) a = .error (refusal ((as.take k).foldl add s) a) := by
  obtain ⟨⟨x, hx, htaken⟩, hleast⟩ := hk
  rw [List.getElem?_map, Option.map_eq_some_iff] at hx
  obtain ⟨a, ha, rfl⟩ := hx
  obtain ⟨hlt, hat⟩ := List.getElem?_eq_some_iff.mp ha
  have hsplit : as = as.take k ++ a :: as.drop (k + 1) := by
    rw [← hat, ← List.drop_eq_getElem_cons hlt, List.take_append_drop]
  refine ⟨a, ha, hsplit, ?_, h.refused ?_⟩
  · intro j hj
    have hlt' := hj.lt_length
    have hle : k ≤ j := by
      refine hleast ?_
      have hall := hj.append ((as.drop k).map name)
      rw [← List.map_append, List.take_append_drop] at hall
      exact hall
    rw [List.length_map, List.length_take] at hlt'
    omega
  · rw [h.taken_foldl, List.map_take]
    exact htaken

theorem foldlM_of_firstClash (h : Admits name taken add refusal step) {k : Nat}
    (hk : FirstClash (taken s) (as.map name) k) :
    ∃ a, as[k]? = some a ∧ as.foldlM step s = .error (refusal ((as.take k).foldl add s) a) := by
  obtain ⟨a, ha, hsplit, hclear, hrefused⟩ := h.exists_of_firstClash hk
  refine ⟨a, ha, ?_⟩
  have hfold : (as.take k ++ a :: as.drop (k + 1)).foldlM step s =
      .error (refusal ((as.take k).foldl add s) a) := by
    rw [List.foldlM_append, h.foldlM_of_clear hclear]
    show (a :: as.drop (k + 1)).foldlM step ((as.take k).foldl add s) = _
    rw [List.foldlM_cons, hrefused]
    rfl
  rwa [← hsplit] at hfold

theorem foldlM_eq_ok_iff (h : Admits name taken add refusal step) :
    as.foldlM step s = .ok t ↔
      (∀ k, ¬ClashAt (taken s) (as.map name) k) ∧ as.foldl add s = t := by
  by_cases hclash : ∃ k, ClashAt (taken s) (as.map name) k
  · obtain ⟨k, hk⟩ := exists_firstClash hclash
    obtain ⟨a, -, hfold⟩ := h.foldlM_of_firstClash hk
    rw [hfold]
    exact iff_of_false nofun fun hclear => hclear.1 k hk.1
  · have hclear : ∀ k, ¬ClashAt (taken s) (as.map name) k := not_exists.mp hclash
    rw [h.foldlM_of_clear hclear, Except.ok.injEq]
    exact (and_iff_right hclear).symm

theorem foldlM_eq_error_iff (h : Admits name taken add refusal step) :
    as.foldlM step s = .error e ↔
      ∃ k a, FirstClash (taken s) (as.map name) k ∧ as[k]? = some a ∧
        refusal ((as.take k).foldl add s) a = e := by
  constructor
  · intro hfold
    by_cases hclash : ∃ k, ClashAt (taken s) (as.map name) k
    · obtain ⟨k, hk⟩ := exists_firstClash hclash
      obtain ⟨a, ha, herror⟩ := h.foldlM_of_firstClash hk
      rw [hfold, Except.error.injEq] at herror
      exact ⟨k, a, hk, ha, herror.symm⟩
    · rw [h.foldlM_of_clear (not_exists.mp hclash)] at hfold
      cases hfold
  · rintro ⟨k, a, hk, ha, rfl⟩
    obtain ⟨b, hb, herror⟩ := h.foldlM_of_firstClash hk
    rw [ha, Option.some.injEq] at hb
    rw [herror, hb]

end Admits

end Fold

end StaticCheck
