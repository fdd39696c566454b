import StaticCheck.Proofs.Analysis.ClosedForm

/-!
# Reading on after the main procedure

A single pass does not look ahead. Once a main procedure has been read, the verdict on the items
read so far is final: what follows can neither mend a violation nor change an entry of the registry,
it can only add routines (`Registry.Grows`).

> `Program.singlePass_online`: the outcome for a list of items with a main procedure holds for every
> list that begins with it.

The globals are those of the first main procedure, which is among the items read (`globals_append`),
and what falls due with an item depends on nothing but the globals and the items in front of it
(`itemObligations_eq_of_globals`). So the obligations of the longer program begin with those of the
shorter one: `settle_obligations_append`.
-/

namespace StaticCheck

/-- The second registry has all entries of the first one as they are, and no further globals. -/
structure Registry.Grows (r r' : Registry) : Prop where
  globals : r'.globals = r.globals
  signatures : ∀ name s, r.signature? name = some s → r'.signature? name = some s
  locals : ∀ owner table, r.locals? owner = some table → r'.locals? owner = some table

namespace Program

variable {p q : Program} {xs ys : List Item}

/-- In a single pass the rest of the program has no influence on what falls due with an item. -/
theorem itemObligations_eq_of_globals (h : p.globals = q.globals) :
    p.itemObligations .singlePass = q.itemObligations .singlePass := by
  funext earlier item
  cases item with
  | main main =>
    unfold itemObligations entryObligations view declared
    rw [h]
  | routine routine =>
    unfold itemObligations entryObligations reachedObligations routineObligation view declared
    rw [h]

/-- The first main procedure is found among the items that are read first. -/
theorem globals_append (hmain : ∃ main, .main main ∈ xs) :
    globals ⟨xs ++ ys⟩ = globals ⟨xs⟩ := by
  obtain ⟨main, hmem⟩ := hmain
  have hsome : (xs.findSome? Item.main?).isSome = true :=
    List.findSome?_isSome_iff.mpr ⟨.main main, hmem, rfl⟩
  have hfirst : main? ⟨xs ++ ys⟩ = main? ⟨xs⟩ := by
    unfold main?
    rw [List.findSome?_append, Option.or_of_isSome hsome]
  unfold globals
  rw [hfirst]

/-- A single pass settles what is asked of the items read so far before it turns to the others. -/
theorem settle_obligations_append (hmain : ∃ main, .main main ∈ xs) :
    settle (obligations ⟨xs ++ ys⟩ .singlePass) =
      settle (obligations ⟨xs⟩ .singlePass) >>= fun _ =>
        settle (inTurn (itemObligations ⟨xs⟩ .singlePass) xs ys) := by
  have hshort : (Obligation.main xs).Met := met_main_iff_exists.mpr hmain
  have hlong : (Obligation.main (xs ++ ys)).Met := by
    obtain ⟨main, hmem⟩ := hmain
    exact met_main_iff_exists.mpr ⟨main, List.mem_append_left _ hmem⟩
  have hglobals : globals ⟨xs ++ ys⟩ = globals ⟨xs⟩ := globals_append hmain
  have hitems := itemObligations_eq_of_globals hglobals
  unfold obligations globalObligations
  rw [hglobals, hitems, inTurn_append, List.nil_append, ← List.append_assoc, settle_append]
  -- what is left in front are the same obligations but for the first one, which is met
  simp only [List.cons_append, settle_cons_of_met hshort, settle_cons_of_met hlong]
  rfl

theorem routines_append : routines ⟨xs ++ ys⟩ = routines ⟨xs⟩ ++ routines ⟨ys⟩ :=
  List.filterMap_append

/-- The registry that is written out by the text grows with the text. -/
theorem grows_registry_append (hglobals : globals ⟨xs ++ ys⟩ = globals ⟨xs⟩)
    (hshort : WellFormed ⟨xs⟩) (hlong : WellFormed ⟨xs ++ ys⟩) :
    (registry ⟨xs⟩).Grows (registry ⟨xs ++ ys⟩) := by
  have hmem : ∀ routine ∈ routines ⟨xs⟩, routine ∈ routines ⟨xs ++ ys⟩ := by
    intro routine hroutine
    rw [routines_append]
    exact List.mem_append_left _ hroutine
  constructor
  case globals =>
    unfold registry Registry.listing
    rw [hglobals]
  case signatures =>
    intro name s hs
    obtain ⟨hname, hknown⟩ := hshort.signature?_registry_iff.mp hs
    refine hlong.signature?_registry_iff.mpr ⟨hname, hknown.imp_right fun hroutine => ?_⟩
    obtain ⟨routine, hroutine, heq⟩ := hroutine
    exact ⟨routine, hmem routine hroutine, heq⟩
  case locals =>
    intro owner table htable
    obtain ⟨routine, hroutine, hrest⟩ := hshort.locals?_registry_iff.mp htable
    exact hlong.locals?_registry_iff.mpr ⟨routine, hmem routine hroutine, hrest⟩

/-- A single pass that has read a main procedure does not revise what it found: a violation among
the items read so far stays the violation of the program, and if there is none in the program then
the items read so far were accepted with a registry that has only grown since. -/
theorem singlePass_online (xs ys : List Item) (hmain : ∃ main, .main main ∈ xs) :
    (∀ e, (analyze ⟨xs⟩ .singlePass).result = .error e →
      (analyze ⟨xs ++ ys⟩ .singlePass).result = .error e) ∧
    ∀ r, (analyze ⟨xs ++ ys⟩ .singlePass).result = .ok r →
      ∃ r₀, (analyze ⟨xs⟩ .singlePass).result = .ok r₀ ∧ r₀.Grows r := by
  constructor
  · intro e he
    have hsettle := result_analyze_eq_error_iff.mp he
    rw [result_analyze_eq_error_iff, settle_obligations_append hmain, hsettle]
    rfl
  · intro r hr
    have hshort : settle (obligations ⟨xs⟩ .singlePass) = .ok () := by
      have hlong := settle_eq_ok_iff.mpr (result_analyze_eq_ok_iff.mp hr).1
      rw [settle_obligations_append hmain] at hlong
      cases hsettle : settle (obligations ⟨xs⟩ .singlePass) with
      | ok u => rfl
      | error e =>
        rw [hsettle] at hlong
        cases hlong
    have hr₀ : (analyze ⟨xs⟩ .singlePass).result = .ok (registry ⟨xs⟩) :=
      result_analyze_eq_ok_iff.mpr ⟨settle_eq_ok_iff.mp hshort, rfl⟩
    obtain ⟨hlongFormed, rfl⟩ := wellFormed_of_analyze hr
    have hshortFormed := (wellFormed_of_analyze hr₀).1
    exact ⟨_, hr₀, grows_registry_append (globals_append hmain) hshortFormed hlongFormed⟩

/-- The main procedure calls what is defined behind it, which reading on does not mend. -/
theorem singlePass_online_callAhead :
    (callAhead.analyze .singlePass).result = .error (.undefinedCallee "later") := by
  have hmain : ∃ main, Item.main main ∈ callAhead.items.take 1 :=
    ⟨⟨[], [.call "later" []]⟩, List.mem_cons_self ..⟩
  have hread : (analyze ⟨callAhead.items.take 1⟩ .singlePass).result =
      .error (.undefinedCallee "later") := by rfl
  exact (singlePass_online (callAhead.items.take 1) (callAhead.items.drop 1) hmain).1 _ hread

end Program

end StaticCheck
