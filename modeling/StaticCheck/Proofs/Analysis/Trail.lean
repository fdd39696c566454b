import Mathlib.Data.List.Induction
import StaticCheck.Proofs.Analysis.Records

/-!
# The trail of an analysis

Had every check of a body been made, the records of all checks would form one sequence, over the
items in the order of the text and the events of each body in their order (`Program.checkRecords`).
What an analysis leaves of them is its trail (`Program.trail`), which tells how far it came.

> `Program.trail_exact`: the trail is a prefix of that sequence, which ends where the analysis does,
> so no check is skipped, made twice or made after a violation.

An analysis that fails does so at a place (`Program.FailsAt`): before all items, in the header of
an item, or in its body at an event. The run up to an item is `Program.Reaches`. It grows by one item
at a time (`reaches_concat_iff`), and along it both the registry (`Reaches.behind`) and the trail
(`Reaches.trail_eq`) are those that the text tells.
-/

namespace StaticCheck

/-- Where an analysis may fail. -/
inductive Place where
  /-- Before all items. -/
  | opening
  /-- In front of the body of an item. -/
  | header (before : List Item) (item : Item)
  /-- In the body of an item, at the event behind those that passed. -/
  | body (before : List Item) (item : Item) (passed : List Event) (event : Event)

namespace Program

/-- The analysis passes the items `front`, and leaves the registry `r` behind them. -/
def Reaches (p : Program) (mode : Mode) (front : List Item) (r : Registry) : Prop :=
  (p.through mode front).outcome .initial = .ok ((), r)

/-- The analysis fails at this place with the violation `e`. -/
inductive FailsAt (p : Program) (mode : Mode) (e : Violation) : Place → Prop
  | opening (refused : (p.opening mode).outcome .initial = .error e) : FailsAt p mode e .opening
  | header {before after : List Item} {item : Item} {r : Registry}
    (items : p.items = before ++ item :: after) (reached : p.Reaches mode before r)
    (refused : (item.entry mode).outcome r = .error e) : FailsAt p mode e (.header before item)
  | body {before after : List Item} {item : Item} {r r₁ : Registry} {scope : Scope}
    {passed rest : List Event} {event : Event}
    (items : p.items = before ++ item :: after) (reached : p.Reaches mode before r)
    (entered : (item.entry mode).outcome r = .ok (scope, r₁))
    (events : Stmt.eventsEach item.body = passed ++ event :: rest)
    (passes : (r₁.checkEvents scope passed).result = .ok ())
    (refused : (r₁.check scope event).result = .error e) :
    FailsAt p mode e (.body before item passed event)

/-- The records that the analysis leaves of the checks of bodies. -/
def trail (p : Program) (mode : Mode) : List Record :=
  (p.analyze mode).log.filter Record.isCheck

/-- The records of these events of an item behind the items `earlier`. -/
def eventRecords (p : Program) (mode : Mode) (earlier : List Item) (item : Item)
    (events : List Event) : List Record :=
  events.flatMap ((p.view mode item.locals (earlier ++ [item])).records item.scope.owner?)

/-- The records of all events of items behind the items `earlier`. -/
def recordsBehind (p : Program) (mode : Mode) (earlier : List Item) : List Item → List Record
  | [] => []
  | item :: items =>
    p.eventRecords mode earlier item (Stmt.eventsEach item.body) ++
      p.recordsBehind mode (earlier ++ [item]) items

/-- The records of all events of the program. -/
def checkRecords (p : Program) (mode : Mode) : List Record :=
  p.recordsBehind mode [] p.items

/-- The records up to a place, those of the event at the place included. -/
def recordsUntil (p : Program) (mode : Mode) : Place → List Record
  | .opening => []
  | .header before _ => p.recordsBehind mode [] before
  | .body before item passed event =>
    p.recordsBehind mode [] before ++ p.eventRecords mode before item (passed ++ [event])

variable {p : Program} {mode : Mode} {front before after : List Item} {item : Item}
  {r r₁ : Registry} {scope : Scope} {passed rest : List Event} {event : Event} {e : Violation}
  {place : Place}

/-! ## The sequence of all records -/

@[simp]
theorem eventRecords_append (p : Program) (mode : Mode) (earlier : List Item) (item : Item)
    (xs ys : List Event) :
    p.eventRecords mode earlier item (xs ++ ys) =
      p.eventRecords mode earlier item xs ++ p.eventRecords mode earlier item ys :=
  List.flatMap_append

@[simp]
theorem filter_eventRecords (earlier : List Item) (item : Item) (events : List Event) :
    (p.eventRecords mode earlier item events).filter Record.isCheck =
      p.eventRecords mode earlier item events :=
  View.filter_records _ _ events

@[simp]
theorem recordsBehind_append (p : Program) (mode : Mode) {earlier xs ys : List Item} :
    p.recordsBehind mode earlier (xs ++ ys) =
      p.recordsBehind mode earlier xs ++ p.recordsBehind mode (earlier ++ xs) ys := by
  induction xs generalizing earlier with
  | nil => simp [recordsBehind]
  | cons x xs ih => simp [recordsBehind, ih]

theorem recordsBehind_concat (p : Program) (mode : Mode) (front : List Item) (item : Item) :
    p.recordsBehind mode [] (front ++ [item]) =
      p.recordsBehind mode [] front ++
        p.eventRecords mode front item (Stmt.eventsEach item.body) := by
  simp [recordsBehind]

/-- The records up to a place in the program begin the sequence of all records. -/
theorem FailsAt.recordsUntil_prefix (h : p.FailsAt mode e place) :
    p.recordsUntil mode place <+: p.checkRecords mode := by
  unfold checkRecords
  cases h with
  | opening refused => exact List.nil_prefix
  | header items reached refused =>
    rw [items, recordsBehind_append]
    exact List.prefix_append _ _
  | body items reached entered events passes refused =>
    -- the body goes on behind the event, and the program behind the item
    rw [items, recordsBehind_append, recordsBehind, events, List.append_cons, eventRecords_append,
      List.nil_append, List.append_assoc]
    exact (List.prefix_append_right_inj _).mpr (List.prefix_append _ _)

/-! ## One item -/

/-- What is known behind the items `front`, and is all that the check of the next item relies on. -/
structure Behind (p : Program) (mode : Mode) (front : List Item) (r : Registry) : Prop where
  registry : r = p.registryBehind mode front
  globals : (names p.globals).Nodup
  distinct : p.DistinctBehind mode front

/-- Inside an item that was entered, the registry answers by the text. -/
theorem Behind.shows (h : p.Behind mode front r)
    (hentry : (item.entry mode).outcome r = .ok (scope, r₁)) :
    scope = item.scope ∧ r₁.Shows item.scope (p.view mode item.locals (front ++ [item])) := by
  obtain ⟨rfl, hglobals, hdistinct⟩ := h
  obtain ⟨hmet, rfl, rfl⟩ := (follows_entry front item).of_ok hentry
  exact ⟨rfl, shows_inside hglobals hdistinct hmet⟩

/-- An item that passes leaves the records of all its events. -/
theorem Behind.trail_checkItem (h : p.Behind mode front r)
    (hok : (checkItem mode item).outcome r = .ok ((), r₁)) :
    (checkItem mode item).trail r =
      p.eventRecords mode front item (Stmt.eventsEach item.body) := by
  rw [checkItem_eq] at hok ⊢
  obtain ⟨scope, r₂, hentry, hrest⟩ := Edit.exists_of_outcome_bind_eq_ok hok
  obtain ⟨u, r₃, hbody, -⟩ := Edit.exists_of_outcome_bind_eq_ok hrest
  obtain ⟨rfl, hshows⟩ := h.shows hentry
  have hresult : (r₂.checkEvents item.scope (Stmt.eventsEach item.body)).result = .ok () := by
    rw [← Registry.checkBody_eq]
    exact Edit.result_of_outcome_read hbody
  have hlog : (Edit.read fun r => r.checkBody item.scope item.body).trail r₂ =
      p.eventRecords mode front item (Stmt.eventsEach item.body) := by
    show (r₂.checkBody item.scope item.body).log.filter Record.isCheck = _
    rw [Registry.checkBody_eq, hshows.log_checkEvents hresult]
    exact filter_eventRecords _ _ _
  -- neither the header nor what is left to do behind the body adds a record of a check
  rw [Edit.trail_bind_of_ok hentry, Edit.trail_bind_of_ok hbody, silent_entry, silent_leave, hlog,
    List.nil_append, List.append_nil]

/-- An item that is given up in its header leaves no record of a check. -/
theorem checkItem_of_entry_refused (hrefused : (item.entry mode).outcome r = .error e) :
    (checkItem mode item).outcome r = .error e ∧ (checkItem mode item).trail r = [] := by
  rw [checkItem_eq]
  refine ⟨Edit.outcome_bind_of_error hrefused, ?_⟩
  rw [Edit.trail_bind_of_error hrefused]
  exact silent_entry mode item r

/-- An item that is given up at an event leaves the records of its events up to that one. -/
theorem Behind.log_checkItem_of_refused (h : p.Behind mode front r)
    (hentry : (item.entry mode).outcome r = .ok (scope, r₁))
    (hevents : Stmt.eventsEach item.body = passed ++ event :: rest)
    (hpasses : (r₁.checkEvents scope passed).result = .ok ())
    (hrefused : (r₁.check scope event).result = .error e) :
    (checkItem mode item).outcome r = .error e ∧
      (checkItem mode item).log r =
        (item.entry mode).log r ++ p.eventRecords mode front item (passed ++ [event]) := by
  obtain ⟨rfl, hshows⟩ := h.shows hentry
  have hbody : (Edit.read fun r => r.checkBody item.scope item.body).outcome r₁ = .error e := by
    simp [Registry.checkBody_eq, hevents, hpasses, hrefused]
  have hlog : (Edit.read fun r => r.checkBody item.scope item.body).log r₁ =
      p.eventRecords mode front item (passed ++ [event]) := by
    show (r₁.checkBody item.scope item.body).log = _
    rw [Registry.checkBody_eq, hevents, hshows.log_checkEvents_of_refused hpasses hrefused]
    rfl
  rw [checkItem_eq]
  refine ⟨?_, ?_⟩
  · rw [Edit.outcome_bind_of_ok hentry, Edit.outcome_bind_of_error hbody]
  · rw [Edit.log_bind_of_ok hentry, Edit.log_bind_of_error hbody, hlog]

/-- An item that fails does so in its header or at an event of its body. -/
theorem exists_failsAt_of_checkItem (hitems : p.items = before ++ item :: after)
    (hreached : p.Reaches mode before r) (herror : (checkItem mode item).outcome r = .error e) :
    ∃ place, p.FailsAt mode e place := by
  rw [checkItem_eq] at herror
  rcases Edit.outcome_bind_eq_error herror with hheader | ⟨scope, r₁, hentry, hrest⟩
  · exact ⟨_, .header hitems hreached hheader⟩
  · rcases Edit.outcome_bind_eq_error hrest with hbody | ⟨u, r₂, -, hleave⟩
    · have hresult := Edit.result_of_outcome_read_error hbody
      rw [Registry.checkBody_eq] at hresult
      obtain ⟨passed, event, rest, hevents, hpasses, hrefused⟩ :=
        Registry.exists_refused_event hresult
      exact ⟨_, .body hitems hreached hentry hevents hpasses hrefused⟩
    · exact absurd hleave (outcome_leave_ne_error item scope r₂ e)

/-! ## Up to an item -/

theorem through_append (p : Program) (mode : Mode) (xs ys : List Item) :
    p.through mode (xs ++ ys) = p.through mode xs >>= fun _ => ys.forM (checkItem mode) := by
  have hforM : (xs ++ ys).forM (checkItem mode) =
      xs.forM (checkItem mode) >>= fun _ => ys.forM (checkItem mode) := by
    simp
  unfold through
  rw [hforM, bind_assoc]

theorem through_concat (p : Program) (mode : Mode) (front : List Item) (item : Item) :
    p.through mode (front ++ [item]) = p.through mode front >>= fun _ => checkItem mode item := by
  have hone : [item].forM (checkItem mode) = checkItem mode item := bind_pure_unit
  rw [through_append, hone]

theorem reaches_concat_iff :
    p.Reaches mode (front ++ [item]) r₁ ↔
      ∃ r, p.Reaches mode front r ∧ (checkItem mode item).outcome r = .ok ((), r₁) := by
  unfold Reaches
  rw [through_concat]
  constructor
  · intro h
    obtain ⟨u, r, hfront, hitem⟩ := Edit.exists_of_outcome_bind_eq_ok h
    exact ⟨r, hfront, hitem⟩
  · rintro ⟨r, hfront, hitem⟩
    rw [Edit.outcome_bind_of_ok hfront, hitem]

/-- Whatever items were passed, the next one finds what it relies on. -/
theorem Reaches.behind (h : p.Reaches mode front r) : p.Behind mode front r := by
  -- the last of the items is what one step adds, so the induction is on the list from its end
  induction front using List.reverseRecOn generalizing r with
  | nil =>
    obtain ⟨hmet, -, rfl⟩ := (follows_through p mode []).of_ok h
    obtain ⟨hglobals, hdistinct⟩ := known_of_opening (List.forall_mem_append.mp hmet).1
    exact ⟨rfl, hglobals, hdistinct⟩
  | append_singleton front item ih =>
    obtain ⟨r₀, hfront, hitem⟩ := reaches_concat_iff.mp h
    obtain ⟨rfl, hglobals, hdistinct⟩ := ih hfront
    -- what the item was asked for before its body keeps the names of routines distinct
    obtain ⟨hmet, -, rfl⟩ := (follows_checkItem hglobals hdistinct).of_ok hitem
    have hentry := (List.forall_mem_append.mp hmet).1
    exact ⟨rfl, hglobals, distinctBehind_concat hdistinct hentry⟩

/-- The trail up to an item that is reached is that of all items before it. -/
theorem Reaches.trail_eq (h : p.Reaches mode front r) :
    (p.through mode front).trail .initial = p.recordsBehind mode [] front := by
  induction front using List.reverseRecOn generalizing r with
  | nil => exact (silent_opening p mode).bind (fun _ => Edit.silent_pure ()) .initial
  | append_singleton front item ih =>
    obtain ⟨r₀, hfront, hitem⟩ := reaches_concat_iff.mp h
    rw [through_concat, Edit.trail_bind_of_ok hfront, ih hfront,
      hfront.behind.trail_checkItem hitem, recordsBehind_concat]

/-- A run that does not pass the items `front` fails at a place among them. -/
theorem exists_failsAt_of_through (hitems : p.items = front ++ after)
    (herror : (p.through mode front).outcome .initial = .error e) :
    ∃ place, p.FailsAt mode e place := by
  induction front using List.reverseRecOn generalizing after with
  | nil =>
    rcases Edit.outcome_bind_eq_error herror with hopening | ⟨u, r, -, hnone⟩
    · exact ⟨_, .opening hopening⟩
    · cases hnone
  | append_singleton front item ih =>
    rw [List.append_assoc, List.singleton_append] at hitems
    rw [through_concat] at herror
    rcases Edit.outcome_bind_eq_error herror with hfront | ⟨u, r, hreached, hitem⟩
    · exact ih hitems hfront
    · exact exists_failsAt_of_checkItem hitems hreached hitem

/-! ## The analysis -/

theorem log_analyze (p : Program) (mode : Mode) :
    (p.analyze mode).log = (p.analysis mode).log .initial := by
  unfold analyze Edit.log
  obtain ⟨⟨result, log⟩, r⟩ := (p.analysis mode).run .initial
  cases result with
  | error e => rfl
  | ok u => exact List.append_nil log

theorem trail_eq (p : Program) (mode : Mode) :
    p.trail mode = (p.analysis mode).trail .initial := by
  unfold trail Edit.trail
  rw [log_analyze]

/-- The analysis from the items `after` on. -/
def onward (mode : Mode) (after : List Item) : Edit Unit := do
  after.forM (checkItem mode)
  .read fun r => .emit (.finished r.globals.size r.signatures.size)

theorem onward_cons (mode : Mode) (item : Item) (after : List Item) :
    onward mode (item :: after) = checkItem mode item >>= fun _ => onward mode after := by
  unfold onward
  rw [show (item :: after).forM (checkItem mode) =
    checkItem mode item >>= fun _ => after.forM (checkItem mode) from rfl, bind_assoc]

/-- The analysis may be cut between any two items. -/
theorem analysis_eq_onward (hitems : p.items = front ++ after) :
    p.analysis mode = p.through mode front >>= fun _ => onward mode after := by
  rw [analysis_eq, hitems, through_append, bind_assoc]
  rfl

/-- An item that fails ends the analysis, with the records up to there. -/
theorem analysis_of_refused (hitems : p.items = before ++ item :: after)
    (hreached : p.Reaches mode before r) (hrefused : (checkItem mode item).outcome r = .error e) :
    (p.analysis mode).outcome .initial = .error e ∧
      (p.analysis mode).log .initial =
        (p.through mode before).log .initial ++ (checkItem mode item).log r := by
  rw [analysis_eq_onward hitems, onward_cons]
  constructor
  · rw [Edit.outcome_bind_of_ok hreached, Edit.outcome_bind_of_error hrefused]
  · rw [Edit.log_bind_of_ok hreached, Edit.log_bind_of_error hrefused]

theorem analysis_of_opening (hrefused : (p.opening mode).outcome .initial = .error e) :
    (p.analysis mode).outcome .initial = .error e ∧
      (p.analysis mode).log .initial = (p.opening mode).log .initial := by
  have hthrough : (p.through mode []).outcome .initial = .error e :=
    Edit.outcome_bind_of_error hrefused
  rw [analysis_eq_onward (List.nil_append p.items).symm]
  constructor
  · exact Edit.outcome_bind_of_error hthrough
  · rw [Edit.log_bind_of_error hthrough]
    exact Edit.log_bind_of_error hrefused

/-- An analysis that fails at a place leaves the records up to it. -/
theorem FailsAt.analysis (h : p.FailsAt mode e place) :
    (p.analysis mode).outcome .initial = .error e ∧ p.trail mode = p.recordsUntil mode place := by
  rw [trail_eq]
  cases h with
  | opening refused =>
    obtain ⟨houtcome, hlog⟩ := analysis_of_opening refused
    refine ⟨houtcome, ?_⟩
    unfold Edit.trail
    rw [hlog]
    exact silent_opening p mode .initial
  | header items reached refused =>
    obtain ⟨hitem, hnone⟩ := checkItem_of_entry_refused refused
    obtain ⟨houtcome, hlog⟩ := analysis_of_refused items reached hitem
    refine ⟨houtcome, ?_⟩
    unfold Edit.trail
    rw [hlog, List.filter_append]
    show Edit.trail _ _ ++ Edit.trail _ _ = _
    rw [reached.trail_eq, hnone, List.append_nil]
    rfl
  | body items reached entered events passes refused =>
    obtain ⟨hitem, hlogItem⟩ :=
      reached.behind.log_checkItem_of_refused entered events passes refused
    obtain ⟨houtcome, hlog⟩ := analysis_of_refused items reached hitem
    refine ⟨houtcome, ?_⟩
    unfold Edit.trail
    rw [hlog, hlogItem, List.filter_append, List.filter_append, filter_eventRecords]
    show Edit.trail _ _ ++ (Edit.trail _ _ ++ _) = _
    rw [reached.trail_eq, silent_entry, List.nil_append]
    rfl

/-- An analysis that fails in a body ends with the record that tells why. -/
theorem FailsAt.exists_lastRecord (h : p.FailsAt mode e (.body before item passed event)) :
    ∃ last, (p.analyze mode).log.getLast? = some last ∧
      LastRecord item.scope.owner? event e last := by
  obtain - | - | ⟨items, reached, entered, events, passes, refused⟩ := h
  have hbehind := reached.behind
  obtain ⟨hitem, hlogItem⟩ := hbehind.log_checkItem_of_refused entered events passes refused
  obtain ⟨-, hlog⟩ := analysis_of_refused items reached hitem
  obtain ⟨rfl, hshows⟩ := hbehind.shows entered
  have hviolation := hshows.violation?_of_refused refused
  obtain ⟨last, hgetLast, hlast⟩ := View.exists_lastRecord item.scope.owner? hviolation
  refine ⟨last, ?_, hlast⟩
  have hevent : (p.eventRecords mode before item [event]).getLast? = some last := by
    unfold eventRecords
    rw [List.flatMap_singleton]
    exact hgetLast
  -- the records of the event stand last among those of its item, and these last in the log
  simp [log_analyze, hlog, hlogItem, hevent]

/-- An analysis that passes all items leaves the records of all their events. -/
theorem trail_eq_of_reaches (h : p.Reaches mode p.items r) :
    p.trail mode = p.checkRecords mode := by
  have hclosing : (onward mode []).Silent :=
    (Edit.silent_pure ()).bind fun _ => Edit.silent_emit fun _ => rfl
  rw [trail_eq, analysis_eq_onward (List.append_nil p.items).symm, Edit.trail_bind_of_ok h,
    hclosing, h.trail_eq, List.append_nil]
  rfl

/-- An analysis either passes all its items or fails at a place. -/
theorem reaches_or_failsAt (p : Program) (mode : Mode) :
    (∃ r, p.Reaches mode p.items r) ∨ ∃ e place, p.FailsAt mode e place := by
  cases hthrough : (p.through mode p.items).outcome .initial with
  | ok q => exact Or.inl ⟨q.2, hthrough⟩
  | error e =>
    obtain ⟨place, hplace⟩ := exists_failsAt_of_through (List.append_nil p.items).symm hthrough
    exact Or.inr ⟨e, place, hplace⟩

theorem FailsAt.result_eq (h : p.FailsAt mode e place) : (p.analyze mode).result = .error e := by
  rw [result_analyze_eq, h.analysis.1]
  rfl

theorem Reaches.result_eq (h : p.Reaches mode p.items r) : (p.analyze mode).result = .ok r := by
  rw [result_analyze_eq, analysis_eq, Edit.outcome_bind_of_ok h]
  rfl

/-- The trail of an analysis begins the sequence of the records of all checks. It is all of it if
the analysis accepts the program, and it ends at the place where the analysis fails: it is empty if
that is before all items, it has the items before the one whose header is at fault, and in a body it
goes up to the event that is refused, whose last record is the last of the analysis. -/
theorem trail_exact (p : Program) (mode : Mode) :
    p.trail mode <+: p.checkRecords mode ∧
    (∀ r, (p.analyze mode).result = .ok r → p.trail mode = p.checkRecords mode) ∧
    (∀ e, (p.analyze mode).result = .error e ↔ ∃ place, p.FailsAt mode e place) ∧
    (∀ e place, p.FailsAt mode e place → p.trail mode = p.recordsUntil mode place) ∧
    ∀ e before item passed event, p.FailsAt mode e (.body before item passed event) →
      ∃ last, (p.analyze mode).log.getLast? = some last ∧
        LastRecord item.scope.owner? event e last := by
  have huntil : ∀ e place, p.FailsAt mode e place → p.trail mode = p.recordsUntil mode place :=
    fun _ _ h => h.analysis.2
  rcases reaches_or_failsAt p mode with ⟨r, hreaches⟩ | ⟨d, place, hplace⟩
  · have htrail := trail_eq_of_reaches hreaches
    refine ⟨htrail ▸ List.prefix_rfl, fun _ _ => htrail, fun e => ⟨fun he => ?_, ?_⟩, huntil,
      fun _ _ _ _ _ h => h.exists_lastRecord⟩
    · rw [hreaches.result_eq] at he
      cases he
    · rintro ⟨place, hplace⟩
      exact hplace.result_eq
  · refine ⟨?_, fun r hr => ?_, fun e => ⟨fun he => ?_, ?_⟩, huntil,
      fun _ _ _ _ _ h => h.exists_lastRecord⟩
    · rw [huntil d place hplace]
      exact hplace.recordsUntil_prefix
    · rw [hplace.result_eq] at hr
      cases hr
    · rw [hplace.result_eq] at he
      cases he
      exact ⟨place, hplace⟩
    · rintro ⟨place, hplace⟩
      exact hplace.result_eq

/-- The second assignment does not fit, and the call behind it is not looked at any more. -/
def lateMismatch : MainProc :=
  ⟨[⟨"x", .integer⟩], [.assign "x" none (.literal .integer "1"),
    .loop (.literal .boolean "true") [.assign "x" none (.literal .string "s")], .call "nope" []]⟩

theorem trail_exact_lateMismatch :
    trail ⟨[.main lateMismatch]⟩ .hoisting =
        [.resolving "x" none, .assignment "x" (.var .integer) (.typed (.var .integer)),
          .resolving "x" none, .assignment "x" (.var .integer) (.typed (.var .string))] ∧
      (analyze ⟨[.main lateMismatch]⟩ .hoisting).log.getLast? =
        some (.assignment "x" (.var .integer) (.typed (.var .string))) := by
  have hfails : FailsAt ⟨[.main lateMismatch]⟩ .hoisting
      (.typeMismatch "x" (.var .integer) (.typed (.var .string)))
      (.body [] (.main lateMismatch) [.assign "x" .integer] (.assign "x" .string)) :=
    .body rfl rfl rfl rfl rfl rfl
  obtain ⟨-, -, -, huntil, hends⟩ := trail_exact ⟨[.main lateMismatch]⟩ .hoisting
  refine ⟨huntil _ _ hfails, ?_⟩
  obtain ⟨last, hgetLast, hlast⟩ := hends _ _ _ _ _ hfails
  cases hlast
  exact hgetLast

end Program

end StaticCheck
