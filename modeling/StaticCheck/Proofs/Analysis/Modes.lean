import StaticCheck.Proofs.Analysis.Outcome
import StaticCheck.Proofs.Analysis.View

/-!
# The two modes

A program is analysed with all signatures hoisted or in a single pass. What the single pass accepts,
hoisting accepts with the same registry. The other way round there is one thing that can go wrong: a
body refers to a routine that stands further down (`Program.RefersAhead`), and the single pass ends
with the violation that this routine is undefined.

What is asked of the declarations is the same in both modes and falls due at different moments
(`wellDeclared_iff`). So the modes differ in the bodies alone. There the single pass sees
the signatures of the items that have been reached, and hoisting sees further ones behind them
(`view_hoisting_eq_extend`).
-/

namespace StaticCheck

namespace Item

/-- The body refers to a routine of this name: it calls one, or it assigns a value whose tag says so. -/
def Mentions (item : Item) (callee : String) : Prop :=
  Calls item.body callee ∨ ∃ target, Assigns item.body target (.functionCall callee)

end Item

/-- A routine of this name is built in or stands among the items. -/
def Known (reached : List Item) (callee : String) : Prop :=
  callee ∈ builtinNames ∨ ∃ routine, Item.routine routine ∈ reached ∧ routine.name = callee

namespace Program

/-- A body refers to a routine that stands behind it and not in front of it. -/
def RefersAhead (p : Program) (callee : String) : Prop :=
  ∃ before item after, p.items = before ++ item :: after ∧ item.Mentions callee ∧
    ¬Known (before ++ [item]) callee ∧
    ∃ routine, Item.routine routine ∈ after ∧ routine.name = callee

/-- Each body refers to built-in routines, to its own one and to those in front of it. -/
def RefersBack (p : Program) : Prop :=
  ∀ before item after, p.items = before ++ item :: after →
    ∀ callee, item.Mentions callee → Known (before ++ [item]) callee

end Program

theorem mentions_iff {item : Item} {callee : String} :
    item.Mentions callee ↔ ∃ ev ∈ Stmt.eventsEach item.body, ev.callee? = some callee := by
  constructor
  · intro h
    rcases h with hcalls | hassigns
    · exact ⟨.call callee, Stmt.call_mem_eventsEach_iff.mpr hcalls, rfl⟩
    · obtain ⟨target, hassigns⟩ := hassigns
      exact ⟨.assign target (.functionCall callee), Stmt.assign_mem_eventsEach_iff.mpr hassigns, rfl⟩
  · intro h
    obtain ⟨ev, hev, hcallee⟩ := h
    cases ev with
    | call name =>
      cases hcallee
      exact Or.inl (Stmt.call_mem_eventsEach_iff.mp hev)
    | assign target tag =>
      have htag := Event.tag_of_callee? hcallee
      rw [htag] at hev
      exact Or.inr ⟨target, Stmt.assign_mem_eventsEach_iff.mp hev⟩

namespace Program

variable {p : Program} {mode : Mode}

/-! ## The declarations -/

/-- A routine among others is an item among others. -/
theorem exists_split_of_routines_eq {front back : List Routine} {routine : Routine}
    (h : p.routines = front ++ routine :: back) :
    ∃ before after, p.items = before ++ .routine routine :: after ∧
      before.filterMap Item.routine? = front := by
  unfold routines at h
  obtain ⟨before, rest, hitems, hfront, hrest⟩ := List.filterMap_eq_append_iff.mp h
  obtain ⟨mains, item, after, hsplit, hmains, hitem, -⟩ := List.filterMap_eq_cons_iff.mp hrest
  -- between the routines `front` and this one there are main procedures alone
  have hroutine : item = .routine routine := by
    cases item with
    | main main => cases hitem
    | routine found =>
      cases hitem
      rfl
  refine ⟨before ++ mains, after, ?_, ?_⟩
  · rw [hitems, hsplit, hroutine, List.append_assoc]
  · simp [hfront, List.filterMap_eq_nil_iff.mpr hmains]

theorem routines_eq_of_split {before after : List Item} {routine : Routine}
    (h : p.items = before ++ .routine routine :: after) :
    p.routines = before.filterMap Item.routine? ++ routine :: after.filterMap Item.routine? := by
  simp [routines, h]

/-- All declarations of the program are as they have to be. -/
structure WellDeclared (p : Program) (mode : Mode) : Prop where
  main : (Obligation.main p.items).Met
  globals : ∀ o ∈ p.globalObligations, o.Met
  hoisted : ∀ o ∈ p.hoistedObligations mode, o.Met
  entries : ∀ before item after, p.items = before ++ item :: after →
    ∀ o ∈ p.entryObligations mode before item, o.Met

theorem mem_hoistedObligations_iff {o : Obligation} :
    o ∈ p.hoistedObligations .hoisting ↔
      ∃ before routine after, p.items = before ++ .routine routine :: after ∧
        o = p.routineObligation (before.filterMap Item.routine?) routine := by
  unfold hoistedObligations
  dsimp only
  rw [mem_inTurn_iff]
  constructor
  · intro h
    obtain ⟨front, routine, back, hroutines, ho⟩ := h
    obtain ⟨before, after, hitems, hfront⟩ := exists_split_of_routines_eq hroutines
    refine ⟨before, routine, after, hitems, ?_⟩
    rw [hfront]
    exact List.mem_singleton.mp ho
  · intro h
    obtain ⟨before, routine, after, hitems, ho⟩ := h
    exact ⟨_, routine, _, routines_eq_of_split hitems, List.mem_singleton.mpr ho⟩

/-- The same is asked of the declarations in both modes, at different moments. -/
theorem wellDeclared_iff : p.WellDeclared .singlePass ↔ p.WellDeclared .hoisting := by
  constructor
  · intro h
    refine ⟨h.main, h.globals, ?_, ?_⟩
    · intro o ho
      obtain ⟨before, routine, after, hitems, heq⟩ := mem_hoistedObligations_iff.mp ho
      refine h.entries before (.routine routine) after hitems o (List.mem_append_left _ ?_)
      exact List.mem_singleton.mpr heq
    · intro before item after hitems o ho
      cases item with
      | main main => cases ho
      | routine routine => exact h.entries before _ after hitems o (List.mem_append_right _ ho)
  · intro h
    refine ⟨h.main, h.globals, nofun, ?_⟩
    intro before item after hitems o ho
    cases item with
    | main main => cases ho
    | routine routine =>
      rcases List.mem_append.mp ho with hreached | hlocal
      · refine h.hoisted o (mem_hoistedObligations_iff.mpr ⟨before, routine, after, hitems, ?_⟩)
        exact List.mem_singleton.mp hreached
      · exact h.entries before _ after hitems o hlocal

/-! ## The bodies -/

/-- The events of all bodies fit what can be seen from there. -/
def BodiesFit (p : Program) (mode : Mode) : Prop :=
  ∀ before item after, p.items = before ++ item :: after → ∀ ev ∈ Stmt.eventsEach item.body,
    (p.view mode item.locals (before ++ [item])).violation? ev = none

/-- What is asked of a program beyond its declarations is that the bodies fit. -/
theorem forall_met_iff_bodiesFit :
    (∀ o ∈ p.obligations mode, o.Met) ↔ p.WellDeclared mode ∧ p.BodiesFit mode := by
  rw [forall_met_obligations_iff]
  constructor
  · intro h
    obtain ⟨hmain, hglobals, hhoisted, hitems⟩ := h
    refine ⟨⟨hmain, hglobals, hhoisted, ?_⟩, ?_⟩
    · intro before item after hsplit o ho
      exact hitems before item after hsplit o (List.mem_append_left _ ho)
    · intro before item after hsplit ev hev
      exact hitems before item after hsplit _
        (List.mem_append_right _ (List.mem_map_of_mem hev))
  · intro h
    obtain ⟨hdeclared, hbodies⟩ := h
    refine ⟨hdeclared.main, hdeclared.globals, hdeclared.hoisted, ?_⟩
    intro before item after hsplit o ho
    rcases List.mem_append.mp ho with hentry | hbody
    · exact hdeclared.entries before item after hsplit o hentry
    · obtain ⟨ev, hev, heq⟩ := List.mem_map.mp hbody
      rw [← heq]
      exact hbodies before item after hsplit ev hev

/-- If the declarations are as they have to be, a violation is that of an event. -/
theorem exists_event_of_result_eq_error (hdeclared : p.WellDeclared mode) {e : Violation}
    (h : (p.analyze mode).result = .error e) :
    ∃ before item after, p.items = before ++ item :: after ∧ ∃ ev ∈ Stmt.eventsEach item.body,
      (p.view mode item.locals (before ++ [item])).violation? ev = some e := by
  obtain ⟨front, o, back, hos, -, he⟩ :=
    settle_eq_error_iff.mp (result_analyze_eq_error_iff.mp h)
  -- all obligations but those of events are met, so the one that is not is an event
  have hunmet : ¬o.Met := by
    intro hmet
    rw [Obligation.Met, he] at hmet
    cases hmet
  have hmem : o ∈ p.obligations mode := hos ▸ List.mem_append_right _ (List.mem_cons_self ..)
  rcases mem_obligations_iff.mp hmem with heq | hglobal | hsignature | hitem
  · exact absurd (heq ▸ hdeclared.main) hunmet
  · exact absurd (hdeclared.globals o hglobal) hunmet
  · exact absurd (hdeclared.hoisted o hsignature) hunmet
  · obtain ⟨before, item, after, hsplit, ho⟩ := hitem
    rcases List.mem_append.mp ho with hentry | hbody
    · exact absurd (hdeclared.entries before item after hsplit o hentry) hunmet
    · obtain ⟨ev, hev, heq⟩ := List.mem_map.mp hbody
      rw [← heq] at he
      exact ⟨before, item, after, hsplit, ev, hev, he⟩

/-- Hoisting shows a body the signatures of the items that have been reached and of those behind
them. -/
theorem view_hoisting_eq_extend {before after : List Item} {item : Item}
    (h : p.items = before ++ item :: after) :
    p.view .hoisting item.locals (before ++ [item]) =
      (p.view .singlePass item.locals (before ++ [item])).extend
        ((after.filterMap Item.routine?).map (·.signature)) := by
  have hroutines : p.routines =
      (before ++ [item]).filterMap Item.routine? ++ after.filterMap Item.routine? := by
    unfold routines
    rw [h, List.append_cons, List.filterMap_append]
  unfold view View.extend declared
  dsimp only
  rw [hroutines, List.map_append, List.append_assoc]

/-- A body that fits in a single pass fits with all signatures hoisted. -/
theorem bodiesFit_hoisting (h : p.BodiesFit .singlePass) : p.BodiesFit .hoisting := by
  intro before item after hsplit ev hev
  have hfits := h before item after hsplit ev hev
  rw [view_hoisting_eq_extend hsplit,
    View.violation?_extend fun callee hcallee => View.signature?_of_fits hfits hcallee]
  exact hfits

/-- The names that a body sees in a single pass are those that are known by then. -/
theorem known_iff {reached : List Item} {locals : List Declaration} {callee : String} :
    Known reached callee ↔ (p.view .singlePass locals reached).signature? callee ≠ none := by
  have hnone : (p.view .singlePass locals reached).signature? callee = none ↔
      callee ∉ (builtins ++ (reached.filterMap Item.routine?).map (·.signature)).map (·.name) :=
    find?_name_eq_none_iff
  rw [ne_eq, hnone, Decidable.not_not, map_name_signatures, List.mem_append, List.mem_map]
  unfold Known
  refine or_congr_right (exists_congr fun routine => and_congr_left fun _ => ?_)
  exact Item.mem_filterMap_routine?_iff.symm

/-- A body that fits with all signatures hoisted is refused in a single pass for a reference ahead,
and for nothing else. -/
theorem refersAhead_of_violation (h : p.BodiesFit .hoisting) {before after : List Item} {item : Item}
    (hsplit : p.items = before ++ item :: after) {ev : Event} (hev : ev ∈ Stmt.eventsEach item.body)
    {e : Violation}
    (he : (p.view .singlePass item.locals (before ++ [item])).violation? ev = some e) :
    ∃ callee, e = .undefinedCallee callee ∧ p.RefersAhead callee := by
  have hfits := h before item after hsplit ev hev
  rw [view_hoisting_eq_extend hsplit] at hfits
  obtain ⟨callee, hcallee, heq, hunseen, hahead⟩ := View.violation?_of_fits_extend hfits he
  refine ⟨callee, heq, before, item, after, hsplit, mentions_iff.mpr ⟨ev, hev, hcallee⟩, ?_, ?_⟩
  · exact fun hknown => known_iff.mp hknown hunseen
  · obtain ⟨signature, hsignature, hname⟩ := List.mem_map.mp hahead
    obtain ⟨routine, hroutine, rfl⟩ := List.mem_map.mp hsignature
    exact ⟨routine, Item.mem_filterMap_routine?_iff.mp hroutine, hname⟩

/-- What fits with all signatures hoisted fits in a single pass if no body refers ahead. -/
theorem bodiesFit_singlePass_iff (h : p.BodiesFit .hoisting) :
    p.BodiesFit .singlePass ↔ p.RefersBack := by
  constructor
  · intro hfits before item after hsplit callee hmentions
    obtain ⟨ev, hev, hcallee⟩ := mentions_iff.mp hmentions
    obtain ⟨s, hs⟩ := View.signature?_of_fits (hfits before item after hsplit ev hev) hcallee
    have hseen : (p.view .singlePass item.locals (before ++ [item])).signature? callee ≠ none := by
      rw [hs]
      exact Option.some_ne_none s
    exact known_iff.mpr hseen
  · intro hback before item after hsplit ev hev
    cases he : (p.view .singlePass item.locals (before ++ [item])).violation? ev with
    | none => rfl
    | some e =>
      obtain ⟨callee, -, front, user, back, husers, hmentions, hunknown, -⟩ :=
        refersAhead_of_violation h hsplit hev he
      exact absurd (hback front user back husers callee hmentions) hunknown

/-! ## The outcomes -/

theorem result_hoisting_of_singlePass {r : Registry}
    (h : (p.analyze .singlePass).result = .ok r) : (p.analyze .hoisting).result = .ok r := by
  obtain ⟨hmet, hregistry⟩ := result_analyze_eq_ok_iff.mp h
  obtain ⟨hdeclared, hfits⟩ := forall_met_iff_bodiesFit.mp hmet
  have hhoisted : ∀ o ∈ p.obligations .hoisting, o.Met :=
    forall_met_iff_bodiesFit.mpr ⟨wellDeclared_iff.mp hdeclared, bodiesFit_hoisting hfits⟩
  exact result_analyze_eq_ok_iff.mpr ⟨hhoisted, hregistry⟩

/-- What the single pass accepts, hoisting accepts with the same registry. What hoisting accepts, the
single pass accepts with the same registry if no body refers ahead, and otherwise it ends with the
violation of such a reference. -/
theorem singlePass_relative_to_hoisting (p : Program) :
    (∀ r, (p.analyze .singlePass).result = .ok r → (p.analyze .hoisting).result = .ok r) ∧
      ∀ r, (p.analyze .hoisting).result = .ok r →
        ((p.analyze .singlePass).result = .ok r ∨
          ∃ callee, (p.analyze .singlePass).result = .error (.undefinedCallee callee) ∧
            p.RefersAhead callee) ∧
        ((p.analyze .singlePass).result = .ok r ↔ p.RefersBack) := by
  constructor
  · intro r hr
    exact result_hoisting_of_singlePass hr
  · intro r hr
    obtain ⟨hmet, hregistry⟩ := result_analyze_eq_ok_iff.mp hr
    obtain ⟨hhoisted, hfits⟩ := forall_met_iff_bodiesFit.mp hmet
    have hdeclared : p.WellDeclared .singlePass := wellDeclared_iff.mpr hhoisted
    have hok : (p.analyze .singlePass).result = .ok r ↔ p.RefersBack := by
      rw [result_analyze_eq_ok_iff, and_iff_left hregistry, forall_met_iff_bodiesFit,
        and_iff_right hdeclared]
      exact bodiesFit_singlePass_iff hfits
    refine ⟨?_, hok⟩
    cases hresult : (p.analyze .singlePass).result with
    | ok r₁ =>
      left
      have hsame : p.registry = r₁ := (result_analyze_eq_ok_iff.mp hresult).2
      rw [← hregistry, hsame]
    | error e =>
      right
      obtain ⟨before, item, after, hsplit, ev, hev, he⟩ :=
        exists_event_of_result_eq_error hdeclared hresult
      obtain ⟨callee, heq, hahead⟩ := refersAhead_of_violation hfits hsplit hev he
      exact ⟨callee, congrArg Except.error heq, hahead⟩

/-- The main procedure calls a procedure that is defined behind it. -/
def callAhead : Program :=
  ⟨[.main ⟨[], [.call "later" []]⟩, .routine ⟨⟨"later", [], none, []⟩, []⟩]⟩

theorem callAhead_refers_ahead :
    ∃ callee, (callAhead.analyze .singlePass).result = .error (.undefinedCallee callee) ∧
      callAhead.RefersAhead callee := by
  have hhoisting : (callAhead.analyze .hoisting).result = .ok callAhead.registry := by rfl
  rcases ((singlePass_relative_to_hoisting callAhead).2 _ hhoisting).1 with hok | hahead
  · cases hok
  · exact hahead

end Program

end StaticCheck
