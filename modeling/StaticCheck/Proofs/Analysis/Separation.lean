import StaticCheck.Proofs.Analysis.ClosedForm

/-!
# Bodies apart

With all signatures hoisted a body sees the globals, the headers of all routines and nothing of any
other body. So the bodies of a program may be checked one at a time, each in a program of which it
is the only body (`Program.isolate`).

> `Program.bodies_apart`: a program is accepted if it is so with each of its bodies alone, with the
> same registry, and its violation is one that it has with one of its bodies alone.

What falls due depends on the other items through their outlines, which have no bodies
(`Item.outline`, `Program.AgreesWith`). The violation of a program stands with one of its items, and
with all other bodies gone it is still the first one: `exists_isolate_eq_error`.
-/

namespace StaticCheck

/-- The item without the statements of its body. -/
def Item.outline : Item → Item
  | main m => .main { m with body := [] }
  | routine r => .routine { r with body := [] }

namespace Program

/-- The program with the body of the item at `i` alone: all other bodies are empty. -/
def isolate (p : Program) (i : Nat) : Program :=
  ⟨p.items.mapIdx fun j item => if j = i then item else item.outline⟩

/-- The two programs differ in their bodies alone. -/
def AgreesWith (p q : Program) : Prop :=
  p.items.map Item.outline = q.items.map Item.outline

variable {p q : Program}

/-! ## What does not depend on bodies -/

@[simp]
theorem outline_outline (item : Item) : item.outline.outline = item.outline := by
  cases item <;> rfl

/-- What can be read off the outlines of the items is the same in programs that agree. -/
theorem AgreesWith.filterMap_eq {β : Type} (h : p.AgreesWith q) {f : Item → Option β}
    (hf : ∀ item : Item, f item.outline = f item) : p.items.filterMap f = q.items.filterMap f := by
  have houtlines : ∀ items : List Item,
      (items.map Item.outline).filterMap f = items.filterMap f := by
    intro items
    rw [List.filterMap_map, show f ∘ Item.outline = f from funext hf]
  rw [← houtlines p.items, ← houtlines q.items, show p.items.map _ = _ from h]

theorem AgreesWith.declarations_eq (h : p.AgreesWith q) :
    p.main?.map (·.declarations) = q.main?.map (·.declarations) := by
  have hmains := h.filterMap_eq (f := fun item => item.main?.map (·.declarations))
    fun item => by cases item <;> rfl
  have hfirst : ∀ r : Program, r.main?.map (·.declarations) =
      (r.items.filterMap fun item => item.main?.map (·.declarations)).head? := by
    intro r
    rw [List.head?_filterMap]
    exact List.map_findSome?
  rw [hfirst p, hfirst q, hmains]

theorem AgreesWith.globals_eq (h : p.AgreesWith q) : p.globals = q.globals := by
  unfold globals
  rw [h.declarations_eq]

theorem AgreesWith.headers_eq (h : p.AgreesWith q) :
    p.routines.map (·.toHeader) = q.routines.map (·.toHeader) := by
  have hheaders := h.filterMap_eq (f := fun item => item.routine?.map (·.toHeader))
    fun item => by cases item <;> rfl
  unfold routines
  rw [List.map_filterMap, List.map_filterMap]
  exact hheaders

theorem AgreesWith.signatures_eq (h : p.AgreesWith q) :
    p.routines.map (·.signature) = q.routines.map (·.signature) := by
  simpa [Function.comp_def] using congrArg (List.map Header.signature) h.headers_eq

theorem AgreesWith.routine_names_eq (h : p.AgreesWith q) :
    p.routines.map (·.name) = q.routines.map (·.name) := by
  simpa [Function.comp_def] using congrArg (List.map Header.name) h.headers_eq

theorem AgreesWith.registry_eq (h : p.AgreesWith q) : p.registry = q.registry :=
  registry_eq_of_headers h.globals_eq h.headers_eq

theorem AgreesWith.main_eq (h : p.AgreesWith q) :
    settle [.main p.items] = settle [.main q.items] := by
  have hany : ∀ items : List Item, (items.map Item.outline).any (·.main?.isSome) =
      items.any (·.main?.isSome) := by
    intro items
    rw [List.any_map]
    exact congrArg items.any (funext fun item => by cases item <;> rfl)
  rw [settle_singleton, settle_singleton, Obligation.violation?, Obligation.violation?,
    ← hany p.items, ← hany q.items, show p.items.map _ = _ from h]

/-- The names of the routines are all that their obligations ask about. -/
theorem hoistedObligations_eq_of_names (p : Program) :
    p.hoistedObligations .hoisting =
      inTurn (fun earlier name => [.routine (names p.globals) (builtinNames ++ earlier) name]) []
        (p.routines.map (·.name)) :=
  (@inTurn_map _ _ (fun routine : Routine => routine.name)
    (fun earlier name => [.routine (names p.globals) (builtinNames ++ earlier) name]) []
    p.routines).symm

/-- What falls due in front of the items does not depend on their bodies. -/
theorem AgreesWith.settle_opening_eq (h : p.AgreesWith q) :
    settle (p.openingObligations .hoisting) = settle (q.openingObligations .hoisting) := by
  have hglobals : p.globalObligations = q.globalObligations := by
    unfold globalObligations
    rw [h.globals_eq]
  have hhoisted : p.hoistedObligations .hoisting = q.hoistedObligations .hoisting := by
    rw [hoistedObligations_eq_of_names, hoistedObligations_eq_of_names, h.globals_eq,
      h.routine_names_eq]
  unfold openingObligations
  rw [List.cons_append, List.cons_append, settle_cons, settle_cons (.main q.items), h.main_eq,
    hglobals, hhoisted]

/-- With all signatures hoisted, what falls due with an item wherever it stands. -/
def duties (p : Program) (item : Item) : List Obligation :=
  p.itemObligations .hoisting [] item

theorem AgreesWith.duties_eq (h : p.AgreesWith q) : p.duties = q.duties := by
  funext item
  unfold duties itemObligations view declared
  cases item with
  | main main =>
    unfold entryObligations
    dsimp only
    rw [h.globals_eq, h.signatures_eq]
  | routine routine =>
    unfold entryObligations reachedObligations
    dsimp only
    rw [h.globals_eq, h.signatures_eq]

theorem obligations_hoisting_eq (p : Program) :
    p.obligations .hoisting = p.openingObligations .hoisting ++ p.items.flatMap p.duties := by
  have hplace : p.itemObligations .hoisting = fun _ item => p.duties item := by
    funext earlier item
    cases item <;> rfl
  rw [obligations_eq_append, hplace, inTurn_eq_flatMap]

/-- A program that agrees with `p` settles what falls due in front of the items of `p`, and then
what falls due in `p` with its own items. -/
theorem AgreesWith.settle_obligations_eq (h : p.AgreesWith q) :
    settle (q.obligations .hoisting) =
      settle (p.openingObligations .hoisting ++ q.items.flatMap p.duties) := by
  rw [obligations_hoisting_eq, settle_append, ← h.duties_eq, ← h.settle_opening_eq, settle_append]

/-- Without its body, an item has those duties that its header has. -/
theorem duties_outline_subset (p : Program) (item : Item) :
    p.duties item.outline ⊆ p.duties item := by
  cases item with
  | main main => exact List.nil_subset _
  | routine routine =>
    show _ ++ [] ⊆ _
    rw [List.append_nil]
    exact List.subset_append_left _ _

theorem settle_duties_outline {item : Item} (h : settle (p.duties item) = .ok ()) :
    settle (p.duties item.outline) = .ok () := by
  rw [settle_eq_ok_iff] at h ⊢
  exact fun o ho => h o (p.duties_outline_subset item ho)

/-! ## One body alone -/

theorem agreesWith_isolate (p : Program) (i : Nat) : p.AgreesWith (p.isolate i) := by
  unfold AgreesWith isolate
  refine List.ext_getElem (by simp) fun j hj hj' => ?_
  simp only [List.getElem_map, List.getElem_mapIdx]
  by_cases h : j = i <;> simp [h]

/-- The body of an item alone: those in front of it and behind it are gone. -/
theorem items_isolate {before after : List Item} {item : Item}
    (h : p.items = before ++ item :: after) :
    (p.isolate before.length).items =
      before.map Item.outline ++ item :: after.map Item.outline := by
  unfold isolate
  rw [h]
  refine List.ext_getElem (by simp) fun j hj hj' => ?_
  rw [List.getElem_mapIdx]
  rcases Nat.lt_trichotomy j before.length with hlt | rfl | hgt
  · rw [if_neg (by omega), List.getElem_append_left hlt,
      List.getElem_append_left (by simpa using hlt), List.getElem_map]
  · simp
  · obtain ⟨k, rfl⟩ : ∃ k, j = before.length + 1 + k := ⟨j - before.length - 1, by omega⟩
    rw [if_neg (by omega)]
    simp [List.getElem_append_right, Nat.add_assoc, Nat.add_comm 1]

/-- With one body alone no item has duties that it did not have before. -/
theorem exists_duties_superset {i : Nat} {other : Item} (h : other ∈ (p.isolate i).items) :
    ∃ item ∈ p.items, p.duties other ⊆ p.duties item := by
  obtain ⟨j, hj, heq⟩ := List.mem_mapIdx.mp h
  refine ⟨p.items[j], List.getElem_mem hj, ?_⟩
  by_cases hji : j = i
  · rw [if_pos hji] at heq
    rw [heq]
    exact List.Subset.refl _
  · rw [if_neg hji] at heq
    rw [← heq]
    exact p.duties_outline_subset _

/-- The first violation among the duties of items is that of one of them, with all those in front of
it fulfilled. -/
theorem exists_of_settle_flatMap {α : Type} {ask : α → List Obligation} {as : List α}
    {e : Violation} (h : settle (as.flatMap ask) = .error e) :
    ∃ before a after, as = before ++ a :: after ∧ (∀ b ∈ before, settle (ask b) = .ok ()) ∧
      settle (ask a) = .error e := by
  induction as with
  | nil => cases h
  | cons a as ih =>
    rw [List.flatMap_cons, settle_append] at h
    cases hset : settle (ask a) with
    | error d =>
      rw [hset] at h
      cases h
      exact ⟨[], a, as, rfl, nofun, hset⟩
    | ok u =>
      rw [hset] at h
      obtain ⟨before, b, after, rfl, hbefore, hb⟩ := ih h
      exact ⟨a :: before, b, after, rfl, List.forall_mem_cons.mpr ⟨hset, hbefore⟩, hb⟩

theorem settle_flatMap_eq_error {α : Type} {ask : α → List Obligation} {before after : List α}
    {a : α} {e : Violation} (hbefore : ∀ b ∈ before, settle (ask b) = .ok ())
    (h : settle (ask a) = .error e) :
    settle ((before ++ a :: after).flatMap ask) = .error e := by
  induction before with
  | nil => simp [h]
  | cons b before ih =>
    obtain ⟨hb, hrest⟩ := List.forall_mem_cons.mp hbefore
    rw [List.cons_append, List.flatMap_cons, settle_append, hb]
    exact ih hrest

/-- The first violation of a program is the first one with a certain body alone. -/
theorem exists_isolate_eq_error (hitems : p.items ≠ []) {e : Violation}
    (h : (p.analyze .hoisting).result = .error e) :
    ∃ i < p.items.length, ((p.isolate i).analyze .hoisting).result = .error e := by
  rw [result_analyze_eq_error_iff, obligations_hoisting_eq, settle_append] at h
  cases hopening : settle (p.openingObligations .hoisting) with
  | error d =>
    -- a violation in front of the items is there whichever body is left
    rw [hopening] at h
    refine ⟨0, List.length_pos_iff.mpr hitems, result_analyze_eq_error_iff.mpr ?_⟩
    rw [(p.agreesWith_isolate 0).settle_obligations_eq, settle_append, hopening]
    exact h
  | ok u =>
    rw [hopening] at h
    obtain ⟨before, item, after, hsplit, hbefore, hitem⟩ := exists_of_settle_flatMap h
    have hlength : before.length < p.items.length := by
      simp [hsplit]
    refine ⟨before.length, hlength, result_analyze_eq_error_iff.mpr ?_⟩
    rw [(p.agreesWith_isolate before.length).settle_obligations_eq, settle_append, hopening,
      items_isolate hsplit]
    refine settle_flatMap_eq_error (fun other hother => ?_) hitem
    obtain ⟨b, hb, rfl⟩ := List.mem_map.mp hother
    exact settle_duties_outline (hbefore b hb)

/-- A program that is accepted is so with each of its bodies alone. -/
theorem result_isolate_of_ok {r : Registry} (h : (p.analyze .hoisting).result = .ok r) (i : Nat) :
    ((p.isolate i).analyze .hoisting).result = .ok r := by
  have hagrees := p.agreesWith_isolate i
  obtain ⟨hmet, rfl⟩ := result_analyze_eq_ok_iff.mp h
  rw [obligations_hoisting_eq] at hmet
  refine result_analyze_eq_ok_iff.mpr ⟨settle_eq_ok_iff.mp ?_, hagrees.registry_eq.symm⟩
  rw [hagrees.settle_obligations_eq, settle_eq_ok_iff]
  intro o ho
  rcases List.mem_append.mp ho with hopening | hduty
  · exact hmet o (List.mem_append_left _ hopening)
  · obtain ⟨other, hother, ho⟩ := List.mem_flatMap.mp hduty
    obtain ⟨item, hitem, hsubset⟩ := exists_duties_superset hother
    exact hmet o (List.mem_append_right _ (List.mem_flatMap.mpr ⟨item, hitem, hsubset ho⟩))

/-- With all signatures hoisted the bodies of a program can be checked one at a time. -/
theorem bodies_apart (p : Program) (hitems : p.items ≠ []) :
    (∀ r, (p.analyze .hoisting).result = .ok r ↔
      ∀ i < p.items.length, ((p.isolate i).analyze .hoisting).result = .ok r) ∧
    ∀ e, (p.analyze .hoisting).result = .error e →
      ∃ i < p.items.length, ((p.isolate i).analyze .hoisting).result = .error e := by
  refine ⟨fun r => ⟨fun h i _ => result_isolate_of_ok h i, fun h => ?_⟩,
    fun e he => exists_isolate_eq_error hitems he⟩
  cases hresult : (p.analyze .hoisting).result with
  | ok r' =>
    have hfirst := h 0 (List.length_pos_iff.mpr hitems)
    rw [← hfirst]
    exact (result_isolate_of_ok hresult 0).symm
  | error e =>
    obtain ⟨i, hi, he⟩ := exists_isolate_eq_error hitems hresult
    rw [h i hi] at he
    cases he

/-- Both bodies break a rule, and so does a declaration in between. -/
def faultyBodies : Program :=
  ⟨[.main ⟨[⟨"x", .integer⟩], [.call "nope" []]⟩,
    .routine ⟨⟨"f", [⟨"x", .integer⟩], none, []⟩, [.assign "y" none (.ofName "x")]⟩]⟩

theorem bodies_apart_faultyBodies :
    faultyBodies.items ≠ [] ∧ ∃ i < faultyBodies.items.length,
      ((faultyBodies.isolate i).analyze .hoisting).result = .error (.undefinedCallee "nope") := by
  have hitems : faultyBodies.items ≠ [] := List.cons_ne_nil _ _
  refine ⟨hitems, (bodies_apart faultyBodies hitems).2 _ ?_⟩
  rfl

end Program

end StaticCheck
