import StaticCheck.Proofs.Analysis.Distinct
import StaticCheck.Proofs.Body.Occurrence

/-!
# What a body sees

A view answers with the first declaration of a name. Where names are distinct that is the only one,
and an event fits the view if the text declares what it needs. A body fits if all assignments and
calls that occur in it do.
-/

namespace StaticCheck

theorem declaredTy?_eq_some_iff {declarations : List Declaration} (h : (names declarations).Nodup)
    {name : String} {ty : VarTy} :
    declaredTy? declarations name = some ty ↔ ⟨name, ty⟩ ∈ declarations := by
  unfold declaredTy?
  rw [Option.map_eq_some_iff]
  constructor
  · intro hfound
    obtain ⟨d, hd, hty⟩ := hfound
    obtain ⟨hmem, hname⟩ := (find?_name_eq_some_iff h).mp hd
    have heq : d = ⟨name, ty⟩ := by rw [← hname, ← hty]
    exact heq ▸ hmem
  · intro hmem
    exact ⟨⟨name, ty⟩, (find?_name_eq_some_iff h).mpr ⟨hmem, rfl⟩, rfl⟩

@[simp]
theorem declaredTy?_eq_none_iff {declarations : List Declaration} {name : String} :
    declaredTy? declarations name = none ↔ name ∉ names declarations := by
  unfold declaredTy?
  rw [Option.map_eq_none_iff]
  exact find?_name_eq_none_iff

namespace View

variable {v : View}

theorem ty?_eq_some_iff (hlocals : (names v.locals).Nodup) (hglobals : (names v.globals).Nodup)
    {name : String} {ty : VarTy} :
    v.ty? name = some ty ↔
      ⟨name, ty⟩ ∈ v.locals ∨ name ∉ names v.locals ∧ ⟨name, ty⟩ ∈ v.globals := by
  unfold ty?
  rw [Option.or_eq_some_iff, declaredTy?_eq_some_iff hlocals, declaredTy?_eq_none_iff,
    declaredTy?_eq_some_iff hglobals]

/-- A called routine fits if there is a signature of its name. -/
@[simp]
theorem violation?_call_eq_none_iff {callee : String} :
    v.violation? (.call callee) = none ↔ callee ∈ v.signatures.map (·.name) := by
  have hnone : v.signature? callee = none ↔ callee ∉ v.signatures.map (·.name) :=
    find?_name_eq_none_iff
  unfold violation?
  dsimp only
  cases hsignature : v.signature? callee with
  | none => exact iff_of_false nofun (hnone.mp hsignature)
  | some s =>
    refine iff_of_true rfl (Decidable.not_not.mp fun hmem => ?_)
    rw [hnone.mpr hmem] at hsignature
    cases hsignature

/-- An assignment fits if its target has the type that its value offers. -/
@[simp]
theorem violation?_assign_eq_none_iff {target : String} {tag : Tag} :
    v.violation? (.assign target tag) = none ↔
      ∃ ty, v.ty? target = some ty ∧ v.received tag = .ok (.typed (.var ty)) := by
  unfold violation?
  dsimp only
  cases v.ty? target with
  | none => simp
  | some expected => cases v.received tag <;> simp

/-- A call offers the type that the first signature of its callee returns. -/
theorem received_functionCall_iff {callee : String} {ty : VarTy} :
    v.received (.functionCall callee) = .ok (.typed (.var ty)) ↔
      ∃ s, v.signature? callee = some s ∧ s.returnTy = .var ty := by
  unfold received
  dsimp only
  cases v.signature? callee with
  | none => simp
  | some s =>
    obtain ⟨name, returnTy, parameters⟩ := s
    cases returnTy <;> simp

/-- The order of the events does not matter if they are all to fit. -/
theorem forall_met_obligations_iff {body : List Stmt} :
    (∀ o ∈ v.obligations body, o.Met) ↔
      (∀ target tag, Assigns body target tag → v.violation? (.assign target tag) = none) ∧
        ∀ callee, Calls body callee → v.violation? (.call callee) = none := by
  have hevents : (∀ o ∈ v.obligations body, o.Met) ↔
      ∀ ev ∈ Stmt.eventsEach body, v.violation? ev = none := List.forall_mem_map
  rw [hevents]
  constructor
  · intro h
    refine ⟨fun target tag hassigns => ?_, fun callee hcalls => ?_⟩
    · exact h _ (Stmt.assign_mem_eventsEach_iff.mpr hassigns)
    · exact h _ (Stmt.call_mem_eventsEach_iff.mpr hcalls)
  · intro h ev hev
    cases ev with
    | assign target tag => exact h.1 target tag (Stmt.assign_mem_eventsEach_iff.mp hev)
    | call callee => exact h.2 callee (Stmt.call_mem_eventsEach_iff.mp hev)

/-! ## A view with more signatures -/

/-- The view with further signatures behind its own. -/
def extend (v : View) (more : List Signature) : View :=
  { v with signatures := v.signatures ++ more }

/-- A signature that is seen stays the first one of its name. -/
theorem signature?_extend {more : List Signature} {callee : String} {s : Signature}
    (h : v.signature? callee = some s) : (v.extend more).signature? callee = some s := by
  show (v.signatures ++ more).find? _ = some s
  have hfound : v.signatures.find? (fun s => decide (s.name = callee)) = some s := h
  rw [List.find?_append, hfound]
  rfl

end View

/-- The routine that an event refers to: the callee of a call, or that of an assigned value whose tag
is that of a call. -/
def Event.callee? : Event → Option String
  | .call callee => some callee
  | .assign _ (.functionCall callee) => some callee
  | .assign _ _ => none

theorem Event.tag_of_callee? {target callee : String} {tag : Tag}
    (h : (assign target tag).callee? = some callee) : tag = .functionCall callee := by
  cases tag with
  | functionCall name =>
    cases h
    rfl
  | integer => cases h
  | string => cases h
  | boolean => cases h
  | var => cases h
  | other raw => cases h

namespace View

variable {v : View}

theorem received_extend {more : List Signature} {tag : Tag}
    (h : ∀ callee, tag = .functionCall callee → ∃ s, v.signature? callee = some s) :
    (v.extend more).received tag = v.received tag := by
  cases tag with
  | functionCall callee =>
    obtain ⟨s, hs⟩ := h callee rfl
    unfold received
    dsimp only
    rw [hs, signature?_extend hs]
  | integer => rfl
  | string => rfl
  | boolean => rfl
  | var => rfl
  | other raw => rfl

/-- Further signatures do not change the verdict on an event whose callee is seen without them. -/
theorem violation?_extend {more : List Signature} {ev : Event}
    (h : ∀ callee, ev.callee? = some callee → ∃ s, v.signature? callee = some s) :
    (v.extend more).violation? ev = v.violation? ev := by
  cases ev with
  | call callee =>
    obtain ⟨s, hs⟩ := h callee rfl
    unfold violation?
    dsimp only
    rw [hs, signature?_extend hs]
  | assign target tag =>
    have hty : (v.extend more).ty? target = v.ty? target := rfl
    have htag : (v.extend more).received tag = v.received tag := by
      refine received_extend fun callee heq => h callee ?_
      rw [heq]
      rfl
    unfold violation?
    dsimp only
    rw [hty, htag]

/-- An event whose callee is not seen is refused for the callee, unless it is an assignment to a
variable without a type, which no signature can help. -/
theorem violation?_of_unseen {ev : Event} {callee : String} (hcallee : ev.callee? = some callee)
    (hunseen : v.signature? callee = none) :
    v.violation? ev = some (.undefinedCallee callee) ∨
      ∃ e, v.violation? ev = some e ∧ ∀ more, (v.extend more).violation? ev = some e := by
  cases ev with
  | call name =>
    cases hcallee
    left
    unfold violation?
    dsimp only
    rw [hunseen]
    rfl
  | assign target tag =>
    cases Event.tag_of_callee? hcallee
    cases hty : v.ty? target with
    | none =>
      right
      have hrefused : ∀ w : View, w.ty? target = none →
          w.violation? (.assign target (.functionCall callee)) = some (.undeclaredVariable target) := by
        intro w hw
        unfold violation?
        dsimp only
        rw [hw]
      exact ⟨.undeclaredVariable target, hrefused v hty, fun more => hrefused (v.extend more) hty⟩
    | some ty =>
      left
      unfold violation? received
      dsimp only
      rw [hty, hunseen]

/-- An event that fits refers to a routine that is seen. -/
theorem signature?_of_fits {ev : Event} (h : v.violation? ev = none) {callee : String}
    (hcallee : ev.callee? = some callee) : ∃ s, v.signature? callee = some s := by
  cases hseen : v.signature? callee with
  | some s => exact ⟨s, rfl⟩
  | none =>
    rcases violation?_of_unseen hcallee hseen with hrefused | hrefused
    · rw [h] at hrefused
      cases hrefused
    · obtain ⟨e, hrefused, -⟩ := hrefused
      rw [h] at hrefused
      cases hrefused

/-- An event that fits with further signatures but not without them refers to a routine that is not
seen without them. -/
theorem exists_unseen_callee {more : List Signature} {ev : Event}
    (hfits : (v.extend more).violation? ev = none) {e : Violation}
    (h : v.violation? ev = some e) :
    ∃ callee, ev.callee? = some callee ∧ v.signature? callee = none := by
  -- otherwise the further signatures would not change the verdict
  have hchanges : ¬∀ callee, ev.callee? = some callee → ∃ s, v.signature? callee = some s := by
    intro hseen
    rw [violation?_extend hseen, h] at hfits
    cases hfits
  cases hcallee : ev.callee? with
  | none =>
    refine absurd (fun callee hc => ?_) hchanges
    rw [hcallee] at hc
    cases hc
  | some callee =>
    cases hs : v.signature? callee with
    | none => exact ⟨callee, rfl, hs⟩
    | some s =>
      refine absurd (fun name hname => ?_) hchanges
      rw [hcallee] at hname
      cases hname
      exact ⟨s, hs⟩

theorem mem_of_signature?_extend {more : List Signature} {callee : String} {s : Signature}
    (hunseen : v.signature? callee = none) (h : (v.extend more).signature? callee = some s) :
    callee ∈ more.map (·.name) := by
  have hfound : (v.signatures ++ more).find? (fun s => decide (s.name = callee)) = some s := h
  have hnone : v.signatures.find? (fun s => decide (s.name = callee)) = none := hunseen
  rw [List.find?_append, hnone, Option.none_or] at hfound
  have hname := List.find?_some hfound
  exact List.mem_map.mpr ⟨s, List.mem_of_find?_eq_some hfound, of_decide_eq_true hname⟩

/-- If an event fits with further signatures but not without them, then it is refused for its callee,
which is the name of one of these. -/
theorem violation?_of_fits_extend {more : List Signature} {ev : Event}
    (hfits : (v.extend more).violation? ev = none) {e : Violation}
    (h : v.violation? ev = some e) :
    ∃ callee, ev.callee? = some callee ∧ e = .undefinedCallee callee ∧
      v.signature? callee = none ∧ callee ∈ more.map (·.name) := by
  obtain ⟨callee, hcallee, hunseen⟩ := exists_unseen_callee hfits h
  obtain ⟨s, hs⟩ := signature?_of_fits hfits hcallee
  refine ⟨callee, hcallee, ?_, hunseen, mem_of_signature?_extend hunseen hs⟩
  rcases violation?_of_unseen hcallee hunseen with hrefused | hrefused
  · rw [h] at hrefused
    exact Option.some.inj hrefused
  · obtain ⟨d, -, hextended⟩ := hrefused
    rw [hextended more] at hfits
    cases hfits

end View

end StaticCheck
