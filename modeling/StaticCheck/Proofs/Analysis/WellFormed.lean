import StaticCheck.Proofs.Analysis.Outcome
import StaticCheck.Proofs.Analysis.View
import StaticCheck.Proofs.Body.Occurrence

/-!
# Well-formed programs

What it means for a program to be well formed can be said without an order: it has a main procedure,
the names of each kind are distinct and clash with none of another kind, every assigned variable is
declared with the type of its value, and every callee is a built-in routine or one of the program
(`Program.WellFormed`). It does not matter where in the text a routine stands.

> `analyze_ok_iff_wellFormed`: the hoisting analysis answers a registry for exactly the well-formed
> programs.

An analysis answers a registry if all obligations are met. Those of the declarations come down to
distinct names, and where names are distinct, what a body sees under a name is what is declared under
it. The rest is that the events of a body are the assignments and calls that occur in it.
-/

namespace StaticCheck

namespace Program

/-- The variable is declared with this type for a body that has these local names: among them, or
among the globals if none of them has its name. -/
def Declares (p : Program) (locals : List Declaration) (name : String) (ty : VarTy) : Prop :=
  ⟨name, ty⟩ ∈ locals ∨ name ∉ names locals ∧ ⟨name, ty⟩ ∈ p.globals

/-- A value under this tag has the type: its tag names the type, or it is a call of a built-in
routine or a routine of the program that returns the type. -/
def Offers (p : Program) : Tag → VarTy → Prop
  | .integer, ty => ty = .integer
  | .string, ty => ty = .string
  | .boolean, ty => ty = .boolean
  | .functionCall callee, ty =>
    ∃ s ∈ builtins ++ p.routines.map (·.signature), s.name = callee ∧ s.returnTy = .var ty
  | .var, _ => False
  | .other _, _ => False

/-- A body that has these local names assigns to each variable a value of its type and calls
routines that exist. -/
structure BodyFits (p : Program) (locals : List Declaration) (body : List Stmt) : Prop where
  assignments : ∀ target tag, Assigns body target tag →
    ∃ ty, p.Declares locals target ty ∧ p.Offers tag ty
  calls : ∀ callee, Calls body callee →
    callee ∈ builtinNames ∨ ∃ routine ∈ p.routines, routine.name = callee

/-- The program breaks no rule. -/
structure WellFormed (p : Program) : Prop where
  main : ∃ main, .main main ∈ p.items
  globals_distinct : (names p.globals).Nodup
  globals_fresh : ∀ d ∈ p.globals, d.name ∉ builtinNames
  routines_distinct : (p.routines.map (·.name)).Nodup
  routines_fresh : ∀ routine ∈ p.routines,
    routine.name ∉ builtinNames ∧ routine.name ∉ names p.globals
  locals_distinct : ∀ routine ∈ p.routines, (names (routine.parameters ++ routine.locals)).Nodup
  locals_fresh : ∀ routine ∈ p.routines, ∀ d ∈ routine.parameters ++ routine.locals,
    d.name ∉ names p.globals
  routine_bodies : ∀ routine ∈ p.routines,
    p.BodyFits (routine.parameters ++ routine.locals) routine.body
  main_bodies : ∀ main, .main main ∈ p.items → p.BodyFits [] main.body

/-! ## Bodies -/

variable {p : Program} {locals : List Declaration}

theorem received_eq_iff_offers (hsignatures : (builtinNames ++ p.routines.map (·.name)).Nodup)
    {reached : List Item} {tag : Tag} {ty : VarTy} :
    (p.view .hoisting locals reached).received tag = .ok (.typed (.var ty)) ↔ p.Offers tag ty := by
  have hliteral : ∀ actual : VarTy, (Except.ok (Received.typed (.var actual)) :
      Except Violation Received) = .ok (.typed (.var ty)) ↔ ty = actual := by
    intro actual
    simp [eq_comm]
  cases tag with
  | integer => exact hliteral .integer
  | string => exact hliteral .string
  | boolean => exact hliteral .boolean
  | var => exact iff_of_false nofun nofun
  | other raw => exact iff_of_false nofun nofun
  | functionCall callee =>
    rw [← map_name_signatures] at hsignatures
    rw [View.received_functionCall_iff]
    constructor
    · intro h
      obtain ⟨s, hs, hty⟩ := h
      obtain ⟨hmem, hname⟩ := (find?_name_eq_some_iff hsignatures).mp hs
      exact ⟨s, hmem, hname, hty⟩
    · intro h
      obtain ⟨s, hmem, hname, hty⟩ := h
      exact ⟨s, (find?_name_eq_some_iff hsignatures).mpr ⟨hmem, hname⟩, hty⟩

/-- The obligations of a body ask that it fits, whichever items have been reached. -/
theorem forall_met_view_iff (hsignatures : (builtinNames ++ p.routines.map (·.name)).Nodup)
    (hglobals : (names p.globals).Nodup) (hlocals : (names locals).Nodup) {reached : List Item}
    {body : List Stmt} :
    (∀ o ∈ (p.view .hoisting locals reached).obligations body, o.Met) ↔
      p.BodyFits locals body := by
  rw [View.forall_met_obligations_iff]
  have hassign : ∀ target tag,
      (p.view .hoisting locals reached).violation? (.assign target tag) = none ↔
        ∃ ty, p.Declares locals target ty ∧ p.Offers tag ty := by
    intro target tag
    rw [View.violation?_assign_eq_none_iff]
    refine exists_congr fun ty => and_congr ?_ (received_eq_iff_offers hsignatures)
    exact View.ty?_eq_some_iff hlocals hglobals
  have hcall : ∀ callee, (p.view .hoisting locals reached).violation? (.call callee) = none ↔
      callee ∈ builtinNames ∨ ∃ routine ∈ p.routines, routine.name = callee := by
    intro callee
    rw [View.violation?_call_eq_none_iff, ← List.mem_map, ← List.mem_append,
      ← map_name_signatures]
    rfl
  constructor
  · intro h
    exact ⟨fun target tag hin => (hassign target tag).mp (h.1 target tag hin),
      fun callee hin => (hcall callee).mp (h.2 callee hin)⟩
  · intro h
    exact ⟨fun target tag hin => (hassign target tag).mpr (h.assignments target tag hin),
      fun callee hin => (hcall callee).mpr (h.calls callee hin)⟩

/-! ## Programs -/

theorem mem_routines_iff {routine : Routine} :
    routine ∈ p.routines ↔ .routine routine ∈ p.items :=
  Item.mem_filterMap_routine?_iff

/-- What has to hold of an item by itself. -/
def ItemFits (p : Program) : Item → Prop
  | .main main => p.BodyFits [] main.body
  | .routine routine =>
    ((names (routine.parameters ++ routine.locals)).Nodup ∧
      ∀ d ∈ routine.parameters ++ routine.locals, d.name ∉ names p.globals) ∧
      p.BodyFits (routine.parameters ++ routine.locals) routine.body

/-- With all signatures hoisted, what falls due with an item does not depend on those in front of
it. -/
theorem forall_met_itemObligations_iff
    (hsignatures : (builtinNames ++ p.routines.map (·.name)).Nodup)
    (hglobals : (names p.globals).Nodup) {earlier : List Item} {item : Item} :
    (∀ o ∈ p.itemObligations .hoisting earlier item, o.Met) ↔ p.ItemFits item := by
  cases item with
  | main main =>
    have hlocals : (names ([] : List Declaration)).Nodup := List.nodup_nil
    exact forall_met_view_iff hsignatures hglobals hlocals
  | routine routine =>
    unfold itemObligations entryObligations ItemFits reachedObligations
    dsimp only
    rw [List.nil_append, List.forall_mem_append, Header.forall_met_obligations_iff]
    exact and_congr_right fun hlocals => forall_met_view_iff hsignatures hglobals hlocals.1

theorem forall_itemFits_iff :
    (∀ item ∈ p.items, p.ItemFits item) ↔
      (∀ routine ∈ p.routines, p.ItemFits (.routine routine)) ∧
        ∀ main, .main main ∈ p.items → p.BodyFits [] main.body := by
  constructor
  · intro h
    exact ⟨fun routine hroutine => h _ (mem_routines_iff.mp hroutine), fun main hmain => h _ hmain⟩
  · intro h item hitem
    cases item with
    | main main => exact h.2 main hitem
    | routine routine => exact h.1 routine (mem_routines_iff.mpr hitem)

theorem met_main_iff_exists :
    (Obligation.main p.items).Met ↔ ∃ main, Item.main main ∈ p.items := by
  rw [Obligation.met_main_iff]
  constructor
  · intro h
    obtain ⟨item, hitem, hsome⟩ := h
    cases item with
    | main main => exact ⟨main, hitem⟩
    | routine routine => cases hsome
  · intro h
    obtain ⟨main, hmain⟩ := h
    exact ⟨_, hmain, rfl⟩

/-- A program meets all that hoisting asks of it if and only if it is well formed. -/
theorem forall_met_iff_wellFormed :
    (∀ o ∈ p.obligations .hoisting, o.Met) ↔ p.WellFormed := by
  rw [forall_met_obligations_iff, met_main_iff_exists, forall_met_globalObligations_iff,
    forall_met_hoistedObligations_iff]
  constructor
  · intro h
    obtain ⟨hmain, ⟨hglobals, hglobalsFresh⟩, ⟨hroutines, hroutinesFresh⟩, hitems⟩ := h
    have hfresh : ∀ routine ∈ p.routines,
        routine.name ∉ names p.globals ∧ routine.name ∉ builtinNames :=
      fun routine hroutine => not_mem_append_iff.mp (hroutinesFresh routine hroutine)
    have hsignatures := (nodup_append_map_iff builtinNames_nodup).mpr
      ⟨hroutines, fun routine hroutine => (hfresh routine hroutine).2⟩
    -- an item stands somewhere in the text, and with all signatures hoisted it does not matter where
    have hfits : ∀ item ∈ p.items, p.ItemFits item := by
      intro item hitem
      obtain ⟨before, after, hsplit⟩ := List.append_of_mem hitem
      exact (forall_met_itemObligations_iff hsignatures hglobals).mp
        (hitems before item after hsplit)
    obtain ⟨hroutineItems, hmains⟩ := forall_itemFits_iff.mp hfits
    exact {
      main := hmain
      globals_distinct := hglobals
      globals_fresh := hglobalsFresh
      routines_distinct := hroutines
      routines_fresh := fun routine hroutine => (hfresh routine hroutine).symm
      locals_distinct := fun routine hroutine => (hroutineItems routine hroutine).1.1
      locals_fresh := fun routine hroutine => (hroutineItems routine hroutine).1.2
      routine_bodies := fun routine hroutine => (hroutineItems routine hroutine).2
      main_bodies := hmains }
  · intro h
    have hsignatures := (nodup_append_map_iff builtinNames_nodup).mpr
      ⟨h.routines_distinct, fun routine hroutine => (h.routines_fresh routine hroutine).1⟩
    have hfits : ∀ item ∈ p.items, p.ItemFits item := by
      refine forall_itemFits_iff.mpr ⟨fun routine hroutine => ?_, h.main_bodies⟩
      exact ⟨⟨h.locals_distinct routine hroutine, h.locals_fresh routine hroutine⟩,
        h.routine_bodies routine hroutine⟩
    refine ⟨h.main, ⟨h.globals_distinct, h.globals_fresh⟩, ⟨h.routines_distinct, ?_⟩, ?_⟩
    · intro routine hroutine
      exact not_mem_append_iff.mpr (h.routines_fresh routine hroutine).symm
    · intro before item after hsplit
      have hitem : item ∈ p.items := hsplit ▸ List.mem_append_right _ (List.mem_cons_self ..)
      exact (forall_met_itemObligations_iff hsignatures h.globals_distinct).mpr (hfits item hitem)

/-- The hoisting analysis answers a registry for the well-formed programs, and for no others. -/
theorem analyze_ok_iff_wellFormed (p : Program) :
    (∃ r, (p.analyze .hoisting).result = .ok r) ↔ p.WellFormed := by
  rw [← forall_met_iff_wellFormed]
  constructor
  · intro h
    obtain ⟨r, hr⟩ := h
    exact (result_analyze_eq_ok_iff.mp hr).1
  · intro h
    exact ⟨p.registry, result_analyze_eq_ok_iff.mpr ⟨h, rfl⟩⟩

end Program

end StaticCheck
