import StaticCheck.Proofs.Body.Events

/-!
# What occurs in a body

A statement occurs in a body if it is one of its statements or stands below one, however deep, and
an expression if it stands in a statement that occurs there, however deep again. None of this
depends on an order. With it a body is said to call a routine (`Calls`) and to assign under a tag
(`Assigns`).

The events of a body, which are listed in the order of the checks, are just these calls and
assignments: `call_mem_eventsEach_iff` and `assign_mem_eventsEach_iff`.
-/

namespace StaticCheck

namespace Expr

/-- The expression `d` is the other one or stands below it. -/
inductive Within (d : Expr) : Expr → Prop
  | here : Within d d
  | deeper {c e : Expr} (inside : Within d c) (child : c ∈ e.children) : Within d e

theorem Within.calls_subset {d e : Expr} (h : d.Within e) : d.calls ⊆ e.calls := by
  induction h with
  | here => exact List.Subset.refl _
  | @deeper c e inside child ih =>
    intro callee hc
    rw [calls_eq e]
    exact List.mem_append_right _ (List.mem_flatMap.mpr ⟨c, child, ih hc⟩)

theorem mem_calls_iff {callee : String} {e : Expr} :
    callee ∈ e.calls ↔ ∃ tag arguments, (call tag callee arguments).Within e := by
  constructor
  · induction e using induction_children with
    | step e ih =>
      intro h
      rw [calls_eq] at h
      rcases List.mem_append.mp h with hown | hbelow
      · cases e with
        | call tag f arguments =>
          cases List.mem_singleton.mp hown
          exact ⟨tag, arguments, .here⟩
        | literal => cases hown
        | var => cases hown
        | element => cases hown
        | unary => cases hown
        | binary => cases hown
      · obtain ⟨c, hc, hcallee⟩ := List.mem_flatMap.mp hbelow
        obtain ⟨tag, arguments, hin⟩ := ih c hc hcallee
        exact ⟨tag, arguments, .deeper hin hc⟩
  · rintro ⟨tag, arguments, h⟩
    refine h.calls_subset ?_
    rw [calls]
    exact List.mem_cons_self ..

end Expr

namespace Stmt

/-- The statement `s` is the other one or stands below it. -/
inductive Within (s : Stmt) : Stmt → Prop
  | here : Within s s
  | deeper {t u : Stmt} (inside : Within s t) (child : t ∈ u.inner) : Within s u

/-- The statement stands in the body, at any depth. -/
def OccursIn (s : Stmt) (body : List Stmt) : Prop :=
  ∃ t ∈ body, s.Within t

theorem Within.events_subset {s t : Stmt} (h : s.Within t) : s.events ⊆ t.events := by
  induction h with
  | here => exact List.Subset.refl _
  | @deeper t u inside child ih =>
    intro event he
    rw [events_eq u]
    exact List.mem_append_right _ (List.mem_flatMap.mpr ⟨t, child, ih he⟩)

theorem OccursIn.events_subset {s : Stmt} {body : List Stmt} (h : s.OccursIn body) :
    s.events ⊆ eventsEach body := by
  obtain ⟨t, ht, hin⟩ := h
  intro event he
  rw [eventsEach_eq]
  exact List.mem_flatMap.mpr ⟨t, ht, hin.events_subset he⟩

/-- An event of a statement is one that it or a statement below it has by itself, or a call in an
expression that stands directly in one of these. -/
theorem exists_within_of_mem_events {event : Event} {s : Stmt} (h : event ∈ s.events) :
    ∃ t : Stmt, t.Within s ∧ (event ∈ t.own ∨ event ∈ callEvents t.exprs) := by
  induction s using induction_inner with
  | step s ih =>
    rw [events_eq] at h
    rcases List.mem_append.mp h with hhere | hbelow
    · exact ⟨s, .here, List.mem_append.mp hhere⟩
    · obtain ⟨t, ht, hevent⟩ := List.mem_flatMap.mp hbelow
      obtain ⟨u, hu, hown⟩ := ih t ht hevent
      exact ⟨u, .deeper hu ht, hown⟩

theorem exists_occursIn_of_mem_eventsEach {event : Event} {body : List Stmt}
    (h : event ∈ eventsEach body) :
    ∃ t : Stmt, t.OccursIn body ∧ (event ∈ t.own ∨ event ∈ callEvents t.exprs) := by
  rw [eventsEach_eq] at h
  obtain ⟨s, hs, hevent⟩ := List.mem_flatMap.mp h
  obtain ⟨t, ht, hown⟩ := exists_within_of_mem_events hevent
  exact ⟨t, ⟨s, hs, ht⟩, hown⟩

theorem own_subset_events (s : Stmt) : s.own ⊆ s.events := by
  intro event h
  rw [events_eq]
  exact List.mem_append_left _ (List.mem_append_left _ h)

theorem callEvents_subset_events (s : Stmt) : callEvents s.exprs ⊆ s.events := by
  intro event h
  rw [events_eq]
  exact List.mem_append_left _ (List.mem_append_right _ h)

@[simp]
theorem call_mem_callEvents_iff {callee : String} {es : List Expr} :
    .call callee ∈ callEvents es ↔ ∃ e ∈ es, callee ∈ e.calls := by
  simp [callEvents]

@[simp]
theorem assign_not_mem_callEvents {target : String} {tag : Tag} {es : List Expr} :
    .assign target tag ∉ callEvents es := by
  simp [callEvents]

end Stmt

/-- The expression stands in a statement of the body, at any depth. -/
def Expr.OccursIn (e : Expr) (body : List Stmt) : Prop :=
  ∃ s : Stmt, s.OccursIn body ∧ ∃ f ∈ s.exprs, e.Within f

/-- A call of `callee` occurs in the body, as a statement or as an expression. -/
def Calls (body : List Stmt) (callee : String) : Prop :=
  (∃ arguments, (Stmt.call callee arguments).OccursIn body) ∨
    ∃ tag arguments, (Expr.call tag callee arguments).OccursIn body

/-- An assignment to `target` of a value under `tag` occurs in the body. -/
def Assigns (body : List Stmt) (target : String) (tag : Tag) : Prop :=
  ∃ index value, (Stmt.assign target index value).OccursIn body ∧ value.tag = tag

namespace Stmt

theorem call_mem_eventsEach_iff {callee : String} {body : List Stmt} :
    .call callee ∈ eventsEach body ↔ Calls body callee := by
  constructor
  · intro h
    obtain ⟨s, hs, hown | hcall⟩ := exists_occursIn_of_mem_eventsEach h
    · cases s with
      | call f arguments =>
        cases List.mem_singleton.mp hown
        exact Or.inl ⟨arguments, hs⟩
      | assign => cases List.mem_singleton.mp hown
      | branch => cases hown
      | loop => cases hown
    · obtain ⟨f, hf, hcallee⟩ := call_mem_callEvents_iff.mp hcall
      obtain ⟨tag, arguments, hin⟩ := Expr.mem_calls_iff.mp hcallee
      exact Or.inr ⟨tag, arguments, s, hs, f, hf, hin⟩
  · rintro (⟨arguments, hs⟩ | ⟨tag, arguments, s, hs, f, hf, hin⟩)
    · exact hs.events_subset (own_subset_events _ (List.mem_singleton_self _))
    · refine hs.events_subset (callEvents_subset_events s ?_)
      exact call_mem_callEvents_iff.mpr ⟨f, hf, Expr.mem_calls_iff.mpr ⟨tag, arguments, hin⟩⟩

theorem assign_mem_eventsEach_iff {target : String} {tag : Tag} {body : List Stmt} :
    .assign target tag ∈ eventsEach body ↔ Assigns body target tag := by
  constructor
  · intro h
    obtain ⟨s, hs, hown | hcall⟩ := exists_occursIn_of_mem_eventsEach h
    · cases s with
      | assign x index value =>
        cases List.mem_singleton.mp hown
        exact ⟨index, value, hs, rfl⟩
      | call => cases List.mem_singleton.mp hown
      | branch => cases hown
      | loop => cases hown
    · exact absurd hcall assign_not_mem_callEvents
  · rintro ⟨index, value, hs, rfl⟩
    exact hs.events_subset (own_subset_events _ (List.mem_singleton_self _))

end Stmt

end StaticCheck
