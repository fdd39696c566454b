import StaticCheck.Proofs.Analysis.Obligation

/-!
# Distinct names

Each declaration has to have a name that is new when its turn comes. Without the order this says that
the names are distinct, and that none of them was taken before: `forall_new_iff`. So the obligations
of all globals, of all hoisted signatures and of all local names of a routine are met if and only if
these names are distinct and clash with none of another kind.
-/

namespace StaticCheck

section Distinct

variable {α : Type} {name : α → String}

/-- Where names are distinct, the first member of a name is the member of that name. -/
theorem find?_name_eq_some_iff {as : List α} (h : (as.map name).Nodup) {x : String} {a : α} :
    (as.find? fun b => decide (name b = x)) = some a ↔ a ∈ as ∧ name a = x := by
  constructor
  · intro hfound
    have hname := List.find?_some hfound
    exact ⟨List.mem_of_find?_eq_some hfound, of_decide_eq_true hname⟩
  · rintro ⟨ha, rfl⟩
    induction as with
    | nil => cases ha
    | cons b bs ih =>
      rw [List.map_cons, List.nodup_cons] at h
      rcases List.mem_cons.mp ha with rfl | hbs
      · rw [List.find?_cons, decide_eq_true rfl]
      · have hne : name b ≠ name a := fun heq => h.1 (heq ▸ List.mem_map_of_mem hbs)
        rw [List.find?_cons, decide_eq_false hne]
        exact ih h.2 hbs

theorem find?_name_eq_none_iff {as : List α} {x : String} :
    (as.find? fun b => decide (name b = x)) = none ↔ x ∉ as.map name := by
  rw [List.find?_eq_none]
  constructor
  · intro h hmem
    obtain ⟨a, ha, hname⟩ := List.mem_map.mp hmem
    exact h a ha (decide_eq_true hname)
  · intro h a ha hname
    exact h (List.mem_map.mpr ⟨a, ha, of_decide_eq_true hname⟩)

/-- Behind distinct names that were taken before, names stay distinct if they are so by themselves
and none of them was taken. -/
theorem nodup_append_map_iff {as : List α} {taken : List String} (htaken : taken.Nodup) :
    (taken ++ as.map name).Nodup ↔ (as.map name).Nodup ∧ ∀ a ∈ as, name a ∉ taken := by
  rw [List.nodup_append, and_iff_right htaken]
  refine and_congr_right fun _ => ?_
  constructor
  · intro h a ha hmem
    exact h (name a) hmem (name a) (List.mem_map_of_mem ha) rfl
  · intro h x hx y hy heq
    obtain ⟨a, ha, hname⟩ := List.mem_map.mp hy
    rw [heq, ← hname] at hx
    exact h a ha hx

/-- If each name is new when its turn comes, the names are distinct and none was taken before. -/
theorem nodup_of_forall_new {as : List α} {taken : List String}
    (hnew : ∀ before a after, as = before ++ a :: after → name a ∉ taken ++ before.map name) :
    (as.map name).Nodup ∧ ∀ a ∈ as, name a ∉ taken := by
  induction as generalizing taken with
  | nil => exact ⟨List.nodup_nil, nofun⟩
  | cons b bs ih =>
    have hb : name b ∉ taken := by
      have h := hnew [] b bs rfl
      rwa [List.map_nil, List.append_nil] at h
    -- for the members behind it the name of `b` is taken too
    have hbs : (bs.map name).Nodup ∧ ∀ a ∈ bs, name a ∉ taken ++ [name b] := by
      refine ih fun before a after has => ?_
      have h := hnew (b :: before) a after (by rw [has, List.cons_append])
      rwa [List.map_cons, List.append_cons] at h
    have hrepeat : name b ∉ bs.map name := by
      intro hmem
      obtain ⟨a, ha, heq⟩ := List.mem_map.mp hmem
      exact hbs.2 a ha (List.mem_append_right _ (List.mem_singleton.mpr heq))
    refine ⟨List.nodup_cons.mpr ⟨hrepeat, hbs.1⟩, fun a ha => ?_⟩
    rcases List.mem_cons.mp ha with rfl | ha
    · exact hb
    · exact fun htaken => hbs.2 a ha (List.mem_append_left _ htaken)

/-- The names of a list are new, one after the other, if and only if they are distinct and none was
taken before. -/
theorem forall_new_iff {as : List α} {taken : List String} :
    (∀ before a after, as = before ++ a :: after → name a ∉ taken ++ before.map name) ↔
      (as.map name).Nodup ∧ ∀ a ∈ as, name a ∉ taken := by
  refine ⟨nodup_of_forall_new, ?_⟩
  rintro ⟨hdistinct, hfresh⟩ before a after rfl hmem
  rcases List.mem_append.mp hmem with htaken | hbefore
  · exact hfresh a (List.mem_append_right _ (List.mem_cons_self ..)) htaken
  · rw [List.map_append, List.map_cons, List.nodup_append] at hdistinct
    exact hdistinct.2.2 _ hbefore _ (List.mem_cons_self ..) rfl

end Distinct

/-! ## The declarations of a program -/

theorem not_mem_append_iff {x : String} {xs ys : List String} :
    x ∉ xs ++ ys ↔ x ∉ xs ∧ x ∉ ys :=
  (not_congr List.mem_append).trans not_or

/-- If all that is asked of each member is a name that is new, then what is asked of the list is
that these names are distinct and were not taken before. -/
theorem forall_met_inTurn_iff {α : Type} {name : α → String} {ask : List α → α → Obligation}
    {as : List α} (taken : List String)
    (hask : ∀ before a, (ask before a).Met ↔ name a ∉ taken ++ before.map name) :
    (∀ o ∈ inTurn (fun earlier a => [ask earlier a]) [] as, o.Met) ↔
      (as.map name).Nodup ∧ ∀ a ∈ as, name a ∉ taken := by
  rw [← forall_new_iff]
  constructor
  · intro h before a after has
    rw [← hask]
    exact h _ (mem_inTurn_iff.mpr ⟨before, a, after, has, List.mem_singleton_self _⟩)
  · intro h o ho
    obtain ⟨before, a, after, has, hmem⟩ := mem_inTurn_iff.mp ho
    rw [List.mem_singleton.mp hmem]
    exact (hask before a).mpr (h before a after has)

namespace Header

variable {h : Header} {globals : List Declaration}

theorem forall_met_parameterObligations_iff :
    (∀ o ∈ h.parameterObligations globals, o.Met) ↔
      (names h.parameters).Nodup ∧ ∀ d ∈ h.parameters, d.name ∉ names globals :=
  forall_met_inTurn_iff (names globals) fun _ _ =>
    Obligation.met_parameter_iff.trans not_mem_append_iff.symm

theorem forall_met_localObligations_iff :
    (∀ o ∈ h.localObligations globals, o.Met) ↔
      (names h.locals).Nodup ∧ ∀ d ∈ h.locals, d.name ∉ names globals ++ names h.parameters := by
  refine forall_met_inTurn_iff (names globals ++ names h.parameters) fun before d => ?_
  rw [Obligation.met_localVar_iff, List.append_assoc, ← names, ← names_append]
  exact not_mem_append_iff.symm

/-- The local names of a routine are distinct, and none is that of a global. -/
theorem forall_met_obligations_iff :
    (∀ o ∈ h.obligations globals, o.Met) ↔
      (names (h.parameters ++ h.locals)).Nodup ∧
        ∀ d ∈ h.parameters ++ h.locals, d.name ∉ names globals := by
  unfold obligations
  rw [List.forall_mem_append, forall_met_parameterObligations_iff, forall_met_localObligations_iff,
    List.forall_mem_append, names_append]
  constructor
  · intro hmet
    obtain ⟨⟨hparameters, hfree⟩, hlocals, hnew⟩ := hmet
    have hapart : ∀ d ∈ h.locals, d.name ∉ names globals ∧ d.name ∉ names h.parameters :=
      fun d hd => not_mem_append_iff.mp (hnew d hd)
    exact ⟨(nodup_append_map_iff hparameters).mpr ⟨hlocals, fun d hd => (hapart d hd).2⟩, hfree,
      fun d hd => (hapart d hd).1⟩
  · intro hmet
    obtain ⟨hdistinct, hfree, hlocalsFree⟩ := hmet
    have hparameters : (names h.parameters).Nodup := (List.nodup_append.mp hdistinct).1
    obtain ⟨hlocals, hapart⟩ := (nodup_append_map_iff hparameters).mp hdistinct
    exact ⟨⟨hparameters, hfree⟩, hlocals,
      fun d hd => not_mem_append_iff.mpr ⟨hlocalsFree d hd, hapart d hd⟩⟩

end Header

namespace Program

variable {p : Program}

/-- The names of the globals are distinct, and none is that of a built-in routine. -/
theorem forall_met_globalObligations_iff :
    (∀ o ∈ p.globalObligations, o.Met) ↔
      (names p.globals).Nodup ∧ ∀ d ∈ p.globals, d.name ∉ builtinNames :=
  forall_met_inTurn_iff builtinNames fun _ _ => Obligation.met_global_iff

/-- The names of the routines are distinct, and none is that of a global or a built-in routine. -/
theorem forall_met_hoistedObligations_iff :
    (∀ o ∈ p.hoistedObligations .hoisting, o.Met) ↔
      (p.routines.map (·.name)).Nodup ∧
        ∀ routine ∈ p.routines, routine.name ∉ names p.globals ++ builtinNames := by
  refine forall_met_inTurn_iff (names p.globals ++ builtinNames) fun before routine => ?_
  rw [List.append_assoc]
  exact Obligation.met_routine_iff.trans not_mem_append_iff.symm

end Program

end StaticCheck
