import StaticCheck.Logged

/-!
# Traversals that may fail

A computation that may fail answers a value if each of its steps does, and a traversal of a list
answers the list of the answers.
-/

namespace StaticCheck

variable {ε α β γ : Type}

@[simp]
theorem bind_eq_ok_iff {x : Except ε α} {f : α → Except ε β} {b : β} :
    x >>= f = .ok b ↔ ∃ a, x = .ok a ∧ f a = .ok b := by
  cases x with
  | error e =>
    refine iff_of_false nofun fun h => ?_
    obtain ⟨a, ha, -⟩ := h
    cases ha
  | ok a =>
    constructor
    · intro h
      exact ⟨a, rfl, h⟩
    · intro h
      obtain ⟨a', ha, hf⟩ := h
      cases ha
      exact hf

theorem Logged.bind_eq_ok_iff {x : Logged ε α} {f : α → Logged ε β} {b : β} :
    (x >>= f).result = .ok b ↔ ∃ a, x.result = .ok a ∧ (f a).result = .ok b := by
  rw [result_bind]
  exact StaticCheck.bind_eq_ok_iff

@[simp]
theorem map_eq_ok_iff {x : Except ε α} {f : α → β} {b : β} :
    x.map f = .ok b ↔ ∃ a, x = .ok a ∧ f a = b := by
  cases x with
  | error e =>
    refine iff_of_false nofun fun h => ?_
    obtain ⟨a, ha, -⟩ := h
    cases ha
  | ok a =>
    constructor
    · intro h
      exact ⟨a, rfl, Except.ok.inj h⟩
    · intro h
      obtain ⟨a', ha, hf⟩ := h
      cases ha
      exact congrArg Except.ok hf

@[simp]
theorem map_eq_error_iff {x : Except ε α} {f : α → β} {e : ε} :
    x.map f = .error e ↔ x = .error e := by
  cases x <;> simp

@[simp]
theorem mapError_eq_ok_iff {δ : Type} {x : Except ε α} {f : ε → δ} {a : α} :
    x.mapError f = .ok a ↔ x = .ok a := by
  cases x with
  | error e => exact iff_of_false nofun nofun
  | ok b =>
    constructor
    · intro h
      cases h
      rfl
    · intro h
      cases h
      rfl

theorem mapM_cons_eq_ok_iff {f : α → Except ε β} {x : α} {xs : List α} {ys : List β} :
    (x :: xs).mapM f = .ok ys ↔ ∃ z zs, f x = .ok z ∧ xs.mapM f = .ok zs ∧ ys = z :: zs := by
  rw [List.mapM_cons, bind_eq_ok_iff]
  refine exists_congr fun z => ?_
  rw [bind_eq_ok_iff]
  constructor
  · intro h
    obtain ⟨hz, zs, hzs, hys⟩ := h
    exact ⟨zs, hz, hzs, (Except.ok.inj hys).symm⟩
  · intro h
    obtain ⟨zs, hz, hzs, hys⟩ := h
    exact ⟨hz, zs, hzs, congrArg Except.ok hys.symm⟩

theorem length_of_mapM_eq_ok {f : α → Except ε β} :
    ∀ {xs : List α} {ys : List β}, xs.mapM f = .ok ys → ys.length = xs.length := by
  intro xs
  induction xs with
  | nil =>
    intro ys h
    cases h
    rfl
  | cons x xs ih =>
    intro ys h
    obtain ⟨z, zs, -, hzs, rfl⟩ := mapM_cons_eq_ok_iff.mp h
    rw [List.length_cons, List.length_cons, ih hzs]

/-- Every member of a traversed list has an answer, and it is in the list of the answers. -/
theorem exists_of_mapM_eq_ok {f : α → Except ε β} :
    ∀ {xs : List α} {ys : List β}, xs.mapM f = .ok ys → ∀ x ∈ xs, ∃ y ∈ ys, f x = .ok y := by
  intro xs
  induction xs with
  | nil =>
    intro ys _ x hx
    cases hx
  | cons x xs ih =>
    intro ys h
    obtain ⟨z, zs, hz, hzs, rfl⟩ := mapM_cons_eq_ok_iff.mp h
    intro a ha
    rcases List.mem_cons.mp ha with rfl | ha
    · exact ⟨z, List.mem_cons_self .., hz⟩
    · obtain ⟨y, hy, hfa⟩ := ih hzs a ha
      exact ⟨y, List.mem_cons_of_mem _ hy, hfa⟩

/-- Every answer of a traversal is that of a member of the list. -/
theorem exists_of_mem_of_mapM_eq_ok {f : α → Except ε β} :
    ∀ {xs : List α} {ys : List β}, xs.mapM f = .ok ys → ∀ y ∈ ys, ∃ x ∈ xs, f x = .ok y := by
  intro xs
  induction xs with
  | nil =>
    intro ys h
    cases h
    intro y hy
    cases hy
  | cons x xs ih =>
    intro ys h
    obtain ⟨z, zs, hz, hzs, rfl⟩ := mapM_cons_eq_ok_iff.mp h
    intro y hy
    rcases List.mem_cons.mp hy with rfl | hy
    · exact ⟨x, List.mem_cons_self .., hz⟩
    · obtain ⟨a, ha, hfa⟩ := ih hzs y hy
      exact ⟨a, List.mem_cons_of_mem _ ha, hfa⟩

/-- A traversal answers if each member of the list does. -/
theorem exists_mapM_eq_ok_iff {f : α → Except ε β} {xs : List α} :
    (∃ ys, xs.mapM f = .ok ys) ↔ ∀ x ∈ xs, ∃ y, f x = .ok y := by
  constructor
  · intro h x hx
    obtain ⟨ys, hys⟩ := h
    obtain ⟨y, -, hy⟩ := exists_of_mapM_eq_ok hys x hx
    exact ⟨y, hy⟩
  · intro h
    induction xs with
    | nil => exact ⟨[], rfl⟩
    | cons x xs ih =>
      obtain ⟨y, hy⟩ := h x (List.mem_cons_self ..)
      obtain ⟨ys, hys⟩ := ih fun a ha => h a (List.mem_cons_of_mem _ ha)
      exact ⟨y :: ys, mapM_cons_eq_ok_iff.mpr ⟨y, ys, hy, hys, rfl⟩⟩

/-- A traversal answers the list of the single answers. -/
theorem mapM_eq_ok_iff_map {f : α → Except ε β} :
    ∀ {xs : List α} {ys : List β}, xs.mapM f = .ok ys ↔ xs.map f = ys.map .ok := by
  intro xs
  induction xs with
  | nil =>
    intro ys
    cases ys with
    | nil => exact iff_of_true rfl rfl
    | cons y ys => exact iff_of_false nofun nofun
  | cons x xs ih =>
    intro ys
    rw [mapM_cons_eq_ok_iff, List.map_cons]
    constructor
    · intro h
      obtain ⟨z, zs, hz, hzs, rfl⟩ := h
      rw [List.map_cons, hz, ih.mp hzs]
    · intro h
      obtain ⟨y, zs, rfl, hy, hzs⟩ := List.map_eq_cons_iff.mp h.symm
      exact ⟨y, zs, hy.symm, ih.mpr hzs.symm, rfl⟩

/-- A traversal fails as the first member does that has no answer. -/
theorem mapM_eq_error_iff {f : α → Except ε β} {e : ε} :
    ∀ {xs : List α}, xs.mapM f = .error e ↔ ∃ before x after, xs = before ++ x :: after ∧
      (∀ b ∈ before, ∃ y, f b = .ok y) ∧ f x = .error e := by
  intro xs
  induction xs with
  | nil =>
    refine iff_of_false nofun fun h => ?_
    obtain ⟨before, x, after, hsplit, -⟩ := h
    simp at hsplit
  | cons x xs ih =>
    rw [List.mapM_cons]
    cases hx : f x with
    | error d =>
      constructor
      · intro h
        cases h
        exact ⟨[], x, xs, rfl, nofun, hx⟩
      · intro h
        obtain ⟨before, y, after, hsplit, hbefore, hy⟩ := h
        rcases List.cons_eq_append_iff.mp hsplit with ⟨rfl, hcons⟩ | ⟨rest, rfl, -⟩
        · cases hcons
          rw [hx] at hy
          cases hy
          rfl
        · obtain ⟨z, hz⟩ := hbefore x (List.mem_cons_self ..)
          rw [hx] at hz
          cases hz
    | ok z =>
      have hrest : (do let z ← Except.ok z; let zs ← xs.mapM f; return z :: zs : Except ε _) =
          .error e ↔ xs.mapM f = .error e := by
        cases xs.mapM f with
        | error d => exact Iff.rfl
        | ok zs => exact iff_of_false nofun nofun
      rw [hrest, ih]
      constructor
      · intro h
        obtain ⟨before, y, after, rfl, hbefore, hy⟩ := h
        exact ⟨x :: before, y, after, rfl, List.forall_mem_cons.mpr ⟨⟨z, hx⟩, hbefore⟩, hy⟩
      · intro h
        obtain ⟨before, y, after, hsplit, hbefore, hy⟩ := h
        rcases List.cons_eq_append_iff.mp hsplit with ⟨rfl, hcons⟩ | ⟨rest, rfl, hxs⟩
        · cases hcons
          rw [hx] at hy
          cases hy
        · exact ⟨rest, y, after, hxs, (List.forall_mem_cons.mp hbefore).2, hy⟩

/-- A traversal of things that were made of others, each of which has its answer. -/
theorem mapM_map_eq_ok_map {f : β → Except ε γ} {g : α → β} {h : α → γ} {xs : List α}
    (hanswer : ∀ x ∈ xs, f (g x) = .ok (h x)) : (xs.map g).mapM f = .ok (xs.map h) := by
  induction xs with
  | nil => rfl
  | cons x xs ih =>
    have hrest := ih fun a ha => hanswer a (List.mem_cons_of_mem _ ha)
    exact mapM_cons_eq_ok_iff.mpr ⟨h x, xs.map h, hanswer x (List.mem_cons_self ..), hrest, rfl⟩

/-- What is made of the answers of a traversal is made of each of them. -/
theorem mapM_map_eq_ok {f : α → Except ε β} (g : β → γ) :
    ∀ {xs : List α} {ys : List β}, xs.mapM f = .ok ys →
      xs.mapM (fun x => (f x).map g) = .ok (ys.map g) := by
  intro xs
  induction xs with
  | nil =>
    intro ys h
    cases h
    rfl
  | cons x xs ih =>
    intro ys h
    obtain ⟨z, zs, hz, hzs, rfl⟩ := mapM_cons_eq_ok_iff.mp h
    exact mapM_cons_eq_ok_iff.mpr ⟨g z, zs.map g, map_eq_ok_iff.mpr ⟨z, hz, rfl⟩, ih hzs, rfl⟩

end StaticCheck
