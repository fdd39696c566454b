import StaticCheck.Proofs.Analysis.Outcome
import StaticCheck.Proofs.Tree.Traversal

/-!
# The records of checks

The checks of bodies leave records: `resolving` and `assignment` for an assignment, `calling` for a
call. The text tells which (`View.records`). An event leaves its records whether or not it passes,
and its last record tells how far the check came (`View.exists_lastRecord`).

The events of a body leave them in turn, up to the first one that is refused
(`Shows.log_checkEvents_of_refused`). All other edits of an analysis leave none (`Edit.Silent`).
-/

namespace StaticCheck

/-- The records that checks of bodies leave. -/
def Record.isCheck : Record → Bool
  | resolving _ _ | assignment _ _ _ | calling _ => true
  | _ => false

/-- The records of the check of an event in a body of `owner`, whether or not it passes. The types
of an assignment are compared only if both are known. -/
def View.records (v : View) (owner : Option String) : Event → List Record
  | .assign target tag =>
    .resolving target owner ::
      match v.ty? target, v.received tag with
      | some expected, .ok received => [.assignment target expected received]
      | _, _ => []
  | .call callee => [.calling callee]

/-- The last record of a check that ends in a violation: an assignment whose target or tag is not
known is given up before the comparison of the types. -/
inductive LastRecord (owner : Option String) : Event → Violation → Record → Prop
  | undeclared (target : String) (tag : Tag) :
    LastRecord owner (.assign target tag) (.undeclaredVariable target) (.resolving target owner)
  | undefined (target callee : String) :
    LastRecord owner (.assign target (.functionCall callee)) (.undefinedCallee callee)
      (.resolving target owner)
  | procedure (target callee : String) :
    LastRecord owner (.assign target (.functionCall callee)) (.procedureAsValue callee)
      (.resolving target owner)
  | mismatch (target : String) (tag : Tag) (expected : Ty) (received : Received) :
    LastRecord owner (.assign target tag) (.typeMismatch target expected received)
      (.assignment target expected received)
  | call (callee : String) :
    LastRecord owner (.call callee) (.undefinedCallee callee) (.calling callee)

/-! ## The records of edits -/

namespace Edit

variable {α β : Type} {x : Edit α} {f : α → Edit β} {r r₁ : Registry} {a : α} {e : Violation}

/-- All records that an edit leaves. -/
def log (x : Edit α) (r : Registry) : List Record :=
  (x.run r).1.log

/-- The records that an edit leaves of the checks of bodies. -/
def trail (x : Edit α) (r : Registry) : List Record :=
  (x.log r).filter Record.isCheck

theorem outcome_bind_of_error (h : x.outcome r = .error e) : (x >>= f).outcome r = .error e := by
  simp [h]

theorem outcome_bind_of_ok (h : x.outcome r = .ok (a, r₁)) :
    (x >>= f).outcome r = (f a).outcome r₁ := by
  simp [h]

theorem exists_of_outcome_bind_eq_ok {q : β × Registry} (h : (x >>= f).outcome r = .ok q) :
    ∃ a r₁, x.outcome r = .ok (a, r₁) ∧ (f a).outcome r₁ = .ok q := by
  rw [outcome_bind] at h
  obtain ⟨⟨a, r₁⟩, hx, hf⟩ := bind_eq_ok_iff.mp h
  exact ⟨a, r₁, hx, hf⟩

theorem outcome_bind_eq_error (h : (x >>= f).outcome r = .error e) :
    x.outcome r = .error e ∨
      ∃ a r₁, x.outcome r = .ok (a, r₁) ∧ (f a).outcome r₁ = .error e := by
  cases hx : x.outcome r with
  | error d =>
    rw [outcome_bind_of_error hx] at h
    cases h
    exact Or.inl rfl
  | ok q =>
    rw [outcome_bind_of_ok hx] at h
    exact Or.inr ⟨q.1, q.2, rfl, h⟩

theorem result_of_outcome_read {f : Registry → Logged Violation α}
    (h : (read f).outcome r = .ok (a, r₁)) : (f r).result = .ok a := by
  obtain ⟨b, hresult, rfl, -⟩ : ∃ b, (f r).result = .ok b ∧ b = a ∧ r = r₁ := by simpa using h
  exact hresult

theorem result_of_outcome_read_error {f : Registry → Logged Violation α}
    (h : (read f).outcome r = .error e) : (f r).result = .error e := by
  simpa using h

/-- An edit that fails leaves its own records and no more. -/
theorem log_bind_of_error (h : x.outcome r = .error e) : (x >>= f).log r = x.log r := by
  unfold outcome at h
  unfold log
  rw [run_bind]
  generalize x.run r = q at h ⊢
  obtain ⟨⟨result, log⟩, r₁⟩ := q
  cases result with
  | error d => rfl
  | ok a => cases h

theorem log_bind_of_ok (h : x.outcome r = .ok (a, r₁)) :
    (x >>= f).log r = x.log r ++ (f a).log r₁ := by
  unfold outcome at h
  unfold log
  rw [run_bind]
  generalize x.run r = q at h ⊢
  obtain ⟨⟨result, log⟩, r₂⟩ := q
  cases result with
  | error d => cases h
  | ok b =>
    cases h
    rfl

theorem trail_bind_of_error (h : x.outcome r = .error e) : (x >>= f).trail r = x.trail r := by
  unfold trail
  rw [log_bind_of_error h]

theorem trail_bind_of_ok (h : x.outcome r = .ok (a, r₁)) :
    (x >>= f).trail r = x.trail r ++ (f a).trail r₁ := by
  unfold trail
  rw [log_bind_of_ok h, List.filter_append]

/-- The edit checks no body. -/
def Silent (x : Edit α) : Prop :=
  ∀ r, x.trail r = []

theorem Silent.bind (hx : x.Silent) (hf : ∀ a, (f a).Silent) : (x >>= f).Silent := by
  intro r
  cases h : x.outcome r with
  | error e => simp [trail_bind_of_error h, hx r]
  | ok q => simp [trail_bind_of_ok h, hx r, hf q.1 q.2]

theorem silent_pure (a : α) : (pure a : Edit α).Silent := by
  simp [Silent, trail, log]

theorem silent_change (g : Registry → Registry) : (change g).Silent := by
  simp [Silent, trail, log]

theorem silent_emit {record : Registry → Record} (h : ∀ r, (record r).isCheck = false) :
    (read fun r => .emit (record r)).Silent := by
  simp [Silent, trail, log, h]

theorem silent_attempt {g : Registry → Except Violation Registry} {done : Record}
    (h : done.isCheck = false) : (attempt g done).Silent := by
  intro r
  unfold trail log
  rw [run_attempt]
  cases g r with
  | error e => simp
  | ok r₁ => simp [h]

theorem silent_forM {f : α → Edit Unit} (h : ∀ a, (f a).Silent) :
    ∀ as : List α, (as.forM f).Silent := by
  intro as
  induction as with
  | nil => exact silent_pure ()
  | cons a as ih => exact (h a).bind fun _ => ih

end Edit

theorem silent_collectGlobals (ds : List Declaration) : (Edit.collectGlobals ds).Silent :=
  (Edit.silent_forM (fun _ => Edit.silent_attempt rfl) ds).bind fun _ =>
    Edit.silent_emit fun _ => rfl

theorem silent_hoist (mode : Mode) (routines : List Routine) : (hoist mode routines).Silent := by
  cases mode with
  | hoisting =>
    exact (Edit.silent_forM (fun _ => Edit.silent_attempt rfl) routines).bind fun _ =>
      Edit.silent_emit fun _ => rfl
  | singlePass => exact Edit.silent_pure ()

theorem silent_collectLocals (h : Header) : (Edit.collectLocals h).Silent := by
  intro r
  show (r.collectLocals h).log.filter Record.isCheck = []
  unfold Registry.collectLocals
  cases r.localsOf h <;> rfl

theorem silent_enter (mode : Mode) (h : Header) : (enter mode h).Silent := by
  cases mode with
  | hoisting => exact silent_collectLocals h
  | singlePass => exact (Edit.silent_attempt rfl).bind fun _ => silent_collectLocals h

theorem silent_entry (mode : Mode) (item : Item) : (item.entry mode).Silent := by
  cases item with
  | main m => exact Edit.silent_pure _
  | routine r => exact (silent_enter mode r.toHeader).bind fun _ => Edit.silent_pure _

theorem silent_leave (item : Item) (scope : Scope) : (item.leave scope).Silent := by
  cases item with
  | main m => exact Edit.silent_pure ()
  | routine r =>
    cases scope with
    | outside => exact Edit.silent_pure ()
    | within owner table => exact Edit.silent_change _

theorem outcome_leave_ne_error (item : Item) (scope : Scope) (r : Registry) (e : Violation) :
    (item.leave scope).outcome r ≠ .error e := by
  cases item with
  | main m => exact nofun
  | routine routine => cases scope <;> exact nofun

theorem silent_opening (p : Program) (mode : Mode) : (p.opening mode).Silent := by
  have hmain : (Edit.read fun _ => p.requireMain).Silent := by
    intro r
    show p.requireMain.log.filter Record.isCheck = []
    unfold Program.requireMain
    cases p.main? <;> rfl
  refine (Edit.silent_emit fun _ => rfl).bind fun _ => hmain.bind fun main => ?_
  exact (silent_collectGlobals _).bind fun _ => silent_hoist mode p.routines

/-! ## The records of bodies -/

theorem View.isCheck_of_mem_records {v : View} {owner : Option String} {ev : Event}
    {record : Record} (h : record ∈ v.records owner ev) : record.isCheck = true := by
  cases ev with
  | call callee =>
    rw [List.mem_singleton.mp h]
    rfl
  | assign target tag =>
    rcases List.mem_cons.mp h with rfl | h
    · rfl
    · split at h
      · rw [List.mem_singleton.mp h]
        rfl
      · cases h

theorem View.filter_records (v : View) (owner : Option String) (events : List Event) :
    (events.flatMap (v.records owner)).filter Record.isCheck =
      events.flatMap (v.records owner) := by
  rw [List.filter_eq_self]
  intro record hrecord
  obtain ⟨ev, -, hmem⟩ := List.mem_flatMap.mp hrecord
  exact isCheck_of_mem_records hmem

/-- The last record of an event that is refused tells how far its check came. -/
theorem View.exists_lastRecord {v : View} {ev : Event} {e : Violation} (owner : Option String)
    (h : v.violation? ev = some e) :
    ∃ last, (v.records owner ev).getLast? = some last ∧ LastRecord owner ev e last := by
  cases ev with
  | call callee =>
    unfold violation? at h
    dsimp only at h
    split at h
    · cases h
    · cases h
      exact ⟨_, rfl, .call callee⟩
  | assign target tag =>
    unfold violation? at h
    unfold records
    dsimp only at h ⊢
    cases hty : v.ty? target with
    | none =>
      rw [hty] at h
      cases h
      exact ⟨_, rfl, .undeclared target tag⟩
    | some expected =>
      rw [hty] at h
      cases hreceived : v.received tag with
      | ok received =>
        rw [hreceived] at h
        dsimp only at h
        split at h
        · cases h
        · cases h
          exact ⟨_, rfl, .mismatch target tag expected received⟩
      | error d =>
        rw [hreceived] at h
        cases h
        -- only the tag of a call may be refused by itself
        cases tag with
        | functionCall callee =>
          unfold received at hreceived
          dsimp only at hreceived
          split at hreceived
          · cases hreceived
            exact ⟨_, rfl, .undefined target callee⟩
          · cases hreceived
            exact ⟨_, rfl, .procedure target callee⟩
          · cases hreceived
        | integer => cases hreceived
        | string => cases hreceived
        | boolean => cases hreceived
        | var => cases hreceived
        | other raw => cases hreceived

namespace Registry

variable {r : Registry} {scope : Scope} {v : View} {events passed rest : List Event} {ev : Event}
  {e : Violation}

/-- An event leaves its records whether or not it passes. -/
theorem Shows.log_check (h : r.Shows scope v) (ev : Event) :
    (r.check scope ev).log = v.records scope.owner? ev := by
  cases ev with
  | call callee =>
    show (r.checkCall callee).log = [.calling callee]
    unfold checkCall
    by_cases hknown : r.signatures.contains callee = true <;> simp [hknown]
  | assign target tag =>
    show (r.checkAssignment scope target tag).log = _
    unfold checkAssignment resolve View.records
    dsimp only
    rw [← h.ty target, ← h.received_eq tag]
    cases r.ty? scope target with
    | none => simp
    | some expected =>
      cases r.received tag with
      | error e => simp
      | ok received => by_cases hfits : received = .typed expected <;> simp [hfits]

theorem Shows.log_checkEvents (h : r.Shows scope v) :
    ∀ {events : List Event}, (r.checkEvents scope events).result = .ok () →
      (r.checkEvents scope events).log = events.flatMap (v.records scope.owner?) := by
  intro events
  induction events with
  | nil =>
    intro _
    rfl
  | cons ev events ih =>
    intro hok
    rw [checkEvents_cons] at hok ⊢
    obtain ⟨u, hev, hrest⟩ := Logged.bind_eq_ok_iff.mp hok
    simp [hev, h.log_check ev, ← ih hrest]

theorem result_checkEvents_of_refused (hpassed : (r.checkEvents scope passed).result = .ok ())
    (hrefused : (r.check scope ev).result = .error e) :
    (r.checkEvents scope (passed ++ ev :: rest)).result = .error e := by
  simp [hpassed, hrefused]

/-- Events leave their records up to the first one that is refused, and none behind it. -/
theorem Shows.log_checkEvents_of_refused (h : r.Shows scope v)
    (hpassed : (r.checkEvents scope passed).result = .ok ())
    (hrefused : (r.check scope ev).result = .error e) :
    (r.checkEvents scope (passed ++ ev :: rest)).log =
      (passed ++ [ev]).flatMap (v.records scope.owner?) := by
  simp [hpassed, hrefused, h.log_check ev, h.log_checkEvents hpassed]

theorem exists_refused_event :
    ∀ {events : List Event}, (r.checkEvents scope events).result = .error e →
      ∃ passed ev rest, events = passed ++ ev :: rest ∧
        (r.checkEvents scope passed).result = .ok () ∧ (r.check scope ev).result = .error e := by
  intro events
  induction events with
  | nil =>
    intro h
    cases h
  | cons ev events ih =>
    intro h
    rw [checkEvents_cons, Logged.result_bind] at h
    cases hev : (r.check scope ev).result with
    | error d =>
      rw [hev] at h
      cases h
      exact ⟨[], ev, events, rfl, rfl, hev⟩
    | ok u =>
      rw [hev] at h
      obtain ⟨passed, last, rest, rfl, hpassed, hlast⟩ := ih h
      refine ⟨ev :: passed, last, rest, rfl, ?_, hlast⟩
      simp [hev, hpassed]

theorem Shows.violation?_of_refused (h : r.Shows scope v)
    (hrefused : (r.check scope ev).result = .error e) : v.violation? ev = some e := by
  simpa [h.result_check ev, Obligation.violation?] using hrefused

end Registry

end StaticCheck
