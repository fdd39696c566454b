import Mathlib.Data.List.Forall2
import StaticCheck.Proofs.Analysis.Records
import StaticCheck.Proofs.Analysis.Separation

/-!
# What the analysis sees of a body

The analysis sees the events of a body and nothing else of it. A body is accepted if each of its events
is, and refused by the first event that is refused. So two programs with the same headers whose bodies
have the same events cannot be told apart: they have the same registry or the same violation in either
mode, and even leave the same records (`checkBody_and_analyze_by_events`).

This hides the control flow, the operators, the literals and the variables that are read, and of the
tags all but those on the values of assignments.
-/

namespace StaticCheck

namespace Registry

variable {r : Registry} {scope : Scope}

/-- The events are checked one after the other, up to one that is refused for `e`. -/
def FirstRefused (r : Registry) (scope : Scope) (events : List Event) (e : Violation) : Prop :=
  ∃ passed ev rest, events = passed ++ ev :: rest ∧
    (∀ ev' ∈ passed, (r.check scope ev').result = .ok ()) ∧ (r.check scope ev).result = .error e

theorem result_checkEvents_eq_ok_iff {events : List Event} :
    (r.checkEvents scope events).result = .ok () ↔
      ∀ ev ∈ events, (r.check scope ev).result = .ok () := by
  induction events with
  | nil => exact iff_of_true rfl nofun
  | cons ev events ih =>
    rw [checkEvents_cons, Logged.bind_eq_ok_iff, List.forall_mem_cons, ih]
    constructor
    · intro h
      obtain ⟨u, hev, hrest⟩ := h
      exact ⟨hev, hrest⟩
    · intro h
      exact ⟨(), h⟩

theorem result_checkEvents_eq_error_iff {events : List Event} {e : Violation} :
    (r.checkEvents scope events).result = .error e ↔ r.FirstRefused scope events e := by
  constructor
  · intro h
    obtain ⟨passed, ev, rest, hevents, hpassed, hev⟩ := exists_refused_event h
    exact ⟨passed, ev, rest, hevents, result_checkEvents_eq_ok_iff.mp hpassed, hev⟩
  · intro h
    obtain ⟨passed, ev, rest, rfl, hpassed, hev⟩ := h
    exact result_checkEvents_of_refused (result_checkEvents_eq_ok_iff.mpr hpassed) hev

end Registry

/-- The items are of the same kind and have the same header, and their bodies have the same events. -/
structure Item.LooksLike (item other : Item) : Prop where
  outline : item.outline = other.outline
  events : Stmt.eventsEach item.body = Stmt.eventsEach other.body

/-- The programs look alike, item by item. -/
def Program.LooksLike (p q : Program) : Prop :=
  List.Forall₂ Item.LooksLike p.items q.items

/-- Items that look alike are checked alike. -/
theorem checkItem_eq_of_looksLike (mode : Mode) {item other : Item} (h : item.LooksLike other) :
    checkItem mode item = checkItem mode other := by
  obtain ⟨houtline, hevents⟩ := h
  have hbody : ∀ scope, (Edit.read fun r => r.checkBody scope item.body) =
      Edit.read fun r => r.checkBody scope other.body := by
    intro scope
    refine congrArg Edit.read (funext fun r => ?_)
    rw [r.checkBody_eq, r.checkBody_eq, hevents]
  cases item with
  | main main =>
    cases other with
    | main main' => exact hbody .outside
    | routine routine => cases houtline
  | routine routine =>
    cases other with
    | main main => cases houtline
    | routine routine' =>
      obtain ⟨header, body⟩ := routine
      obtain ⟨header', body'⟩ := routine'
      -- the headers are the same, so that only the bodies are left
      cases houtline
      refine congrArg (enter mode header >>= ·) (funext fun table => ?_)
      exact congrArg (· >>= fun _ => Edit.insertLocals header.name table)
        (hbody (.within header.name table))

theorem forM_checkItem_eq_of_looksLike (mode : Mode) {items others : List Item}
    (h : List.Forall₂ Item.LooksLike items others) :
    items.forM (checkItem mode) = others.forM (checkItem mode) := by
  induction h with
  | nil => rfl
  | @cons item other items others hitem _ ih =>
    show (checkItem mode item >>= fun _ => items.forM (checkItem mode)) =
      (checkItem mode other >>= fun _ => others.forM (checkItem mode))
    rw [checkItem_eq_of_looksLike mode hitem, ih]

namespace Program

variable {p q : Program}

/-! ## Up to the bodies -/

/-- The first main procedure declares the globals. -/
theorem requireMain_bind_collectGlobals (p : Program) :
    ((Edit.read fun _ => p.requireMain) >>= fun main => Edit.collectGlobals main.declarations) =
      match p.main?.map (·.declarations) with
      | some declarations => .collectGlobals declarations
      | none => .read fun _ => .fail .mainMissing := by
  unfold requireMain
  cases p.main? with
  | none => rfl
  | some main => exact pure_bind main _

theorem hoist_eq (mode : Mode) (routines : List Routine) :
    hoist mode routines = match mode with
      | .hoisting => (routines.map (·.signature)).forM Edit.declareSignature >>= fun _ =>
        Edit.read fun r => .emit (.signatures r.signatures.keys)
      | .singlePass => pure () := by
  cases mode with
  | singlePass => rfl
  | hoisting =>
    have hforM : (routines.map (·.signature)).forM Edit.declareSignature =
        routines.forM fun routine => Edit.declareSignature routine.signature := List.forM_map
    dsimp only
    rw [hforM]
    rfl

/-- What is done up to the first body does not depend on bodies. -/
theorem AgreesWith.opening_eq (h : p.AgreesWith q) (mode : Mode) :
    p.opening mode = q.opening mode := by
  have hlength : p.items.length = q.items.length := by
    simpa using congrArg List.length (show p.items.map _ = q.items.map _ from h)
  unfold opening
  rw [← bind_assoc (Edit.read fun _ => p.requireMain), ← bind_assoc (Edit.read fun _ => q.requireMain),
    requireMain_bind_collectGlobals, requireMain_bind_collectGlobals, h.declarations_eq, hoist_eq,
    hoist_eq, h.signatures_eq, hlength]

/-! ## Programs that look alike -/

theorem LooksLike.agreesWith (h : p.LooksLike q) : p.AgreesWith q := by
  have houtlines : ∀ {items others : List Item}, List.Forall₂ Item.LooksLike items others →
      items.map Item.outline = others.map Item.outline := by
    intro items others hitems
    induction hitems with
    | nil => rfl
    | cons hitem _ ih => simp [hitem.outline, ih]
  exact houtlines h

theorem LooksLike.analysis_eq (h : p.LooksLike q) (mode : Mode) :
    p.analysis mode = q.analysis mode := by
  rw [Program.analysis_eq, Program.analysis_eq]
  unfold through
  rw [h.agreesWith.opening_eq, forM_checkItem_eq_of_looksLike mode h]

/-- A body is judged by its events, one after the other, so that two programs that look alike are
analysed alike: with the same registry or the same violation, and with the same records. -/
theorem checkBody_and_analyze_by_events :
    (∀ (r : Registry) (scope : Scope) (body : List Stmt),
      ((r.checkBody scope body).result = .ok () ↔
        ∀ ev ∈ Stmt.eventsEach body, (r.check scope ev).result = .ok ()) ∧
      ∀ e, (r.checkBody scope body).result = .error e ↔
        r.FirstRefused scope (Stmt.eventsEach body) e) ∧
    ∀ p q : Program, p.LooksLike q → ∀ mode, p.analyze mode = q.analyze mode := by
  refine ⟨fun r scope body => ?_, fun p q h mode => ?_⟩
  · rw [r.checkBody_eq]
    exact ⟨Registry.result_checkEvents_eq_ok_iff,
      fun e => Registry.result_checkEvents_eq_error_iff⟩
  · unfold analyze
    rw [h.analysis_eq]

/-- A loop that asks for numbers, and sets a variable each time. -/
def asking : Program :=
  ⟨[.main ⟨[⟨"x", .integer⟩],
    [.loop (.call .unlabelled "getInt" []) [.assign "x" none (.literal .integer "1")]]⟩]⟩

/-- A branch on one number, with its condition and its value built in other ways. -/
def askingOnce : Program :=
  ⟨[.main ⟨[⟨"x", .integer⟩],
    [.branch (.binary .boolean (.ofName "y") "<" (.call .string "getInt" [.ofName "z"])) []
      (some [.assign "x" none (.unary .integer "-" (.ofName "y"))])]⟩]⟩

/-- They cannot be told apart, and both are accepted. -/
theorem analyze_asking_eq :
    asking.LooksLike askingOnce ∧
      asking.analyze .singlePass = askingOnce.analyze .singlePass ∧
      ∃ r, (askingOnce.analyze .singlePass).result = .ok r := by
  have hlooks : asking.LooksLike askingOnce := .cons ⟨rfl, rfl⟩ .nil
  exact ⟨hlooks, checkBody_and_analyze_by_events.2 asking askingOnce hlooks .singlePass, _, rfl⟩

end Program

end StaticCheck
