import Mathlib.Data.List.Perm.Basic
import StaticCheck.Proofs.Analysis.ClosedForm

/-!
# The order of the text

With all signatures hoisted the order of the items does not matter, and neither does the order of
the globals or of the local variables of a routine. A rearranged program (`Program.Rearranged`) has
the same items in another order, the first main procedure is still the same one, and each item may
list its declarations in another order. The order of parameters stays, since callers see it.

> `Program.result_analyze_eq_ok_iff_of_rearranged`: a program and a rearranged one are accepted
> together, with the same registry.

Success is that a program is well formed, which is said without an order, so it is enough to follow
each item to its place in the other program (`Rearranged.exists_shuffled`). The tables of the
registry are written out by lists that differ in their order alone (`Rearranged.perm_filterMap`), and
where such a list holds each name once its table does not tell the order
(`Table.ofList_eq_of_perm`).
-/

namespace StaticCheck

/-- The same item with its own declarations in another order: the globals of a main procedure, the
local variables of a routine. -/
inductive Item.Shuffled : Item → Item → Prop
  | main {m : MainProc} {declarations : List Declaration} (h : m.declarations.Perm declarations) :
    Shuffled (.main m) (.main { m with declarations := declarations })
  | routine {r : Routine} {locals : List Declaration} (h : r.locals.Perm locals) :
    Shuffled (.routine r) (.routine { r with locals := locals })

/-- The same program in another order of its items and of their declarations, with the same first
main procedure. -/
structure Program.Rearranged (p q : Program) : Prop where
  first : Option.Rel (fun m n => Item.Shuffled (.main m) (.main n)) p.main? q.main?
  items : ∃ items, p.items.Perm items ∧ List.Forall₂ Item.Shuffled items q.items

theorem Item.Shuffled.symm {a b : Item} (h : a.Shuffled b) : b.Shuffled a := by
  cases h with
  | main h => exact .main h.symm
  | routine h => exact .routine h.symm

/-- Each member of a list has its counterpart in a list that is related to it member by member. -/
theorem exists_of_mem_of_forall₂ {α β : Type} {R : α → β → Prop} {as : List α} {bs : List β}
    (h : List.Forall₂ R as bs) {a : α} (ha : a ∈ as) : ∃ b ∈ bs, R a b := by
  induction h with
  | nil => cases ha
  | @cons c d cs ds hcd hrest ih =>
    rcases List.mem_cons.mp ha with rfl | ha
    · exact ⟨d, List.mem_cons_self .., hcd⟩
    · obtain ⟨b, hb, hab⟩ := ih ha
      exact ⟨b, List.mem_cons_of_mem _ hb, hab⟩

/-- What is picked from related members alike is picked from the lists alike. -/
theorem filterMap_eq_of_forall₂ {α β γ : Type} {R : α → β → Prop} {f : α → Option γ}
    {g : β → Option γ} {as : List α} {bs : List β} (h : List.Forall₂ R as bs)
    (hpick : ∀ a ∈ as, ∀ b, R a b → f a = g b) : as.filterMap f = bs.filterMap g := by
  induction h with
  | nil => rfl
  | @cons c d cs ds hcd hrest ih =>
    have hhead : f c = g d := hpick c (List.mem_cons_self ..) d hcd
    have htail : cs.filterMap f = ds.filterMap g :=
      ih fun a ha => hpick a (List.mem_cons_of_mem _ ha)
    rw [List.filterMap_cons, List.filterMap_cons, hhead, htail]

namespace Program

variable {p q : Program}

namespace Rearranged

theorem symm (h : p.Rearranged q) : q.Rearranged p := by
  obtain ⟨hfirst, items, hperm, hshuffled⟩ := h
  constructor
  case first =>
    generalize p.main? = m? at hfirst
    generalize q.main? = n? at hfirst
    cases hfirst with
    | none => exact .none
    | some hmain => exact .some hmain.symm
  case items =>
    -- the items of `q` are shuffled back first, and put in the order of `p` then
    have hback : List.Forall₂ Item.Shuffled q.items items :=
      (hshuffled.imp fun _ _ hab => hab.symm).flip
    have hcomp : Relation.Comp List.Perm (List.Forall₂ Item.Shuffled) q.items p.items := by
      rw [← List.forall₂_comp_perm_eq_perm_comp_forall₂]
      exact ⟨items, hback, hperm.symm⟩
    exact hcomp

theorem perm_globals (h : p.Rearranged q) : p.globals.Perm q.globals := by
  have hfirst := h.first
  unfold globals
  generalize p.main? = m? at hfirst
  generalize q.main? = n? at hfirst
  cases hfirst with
  | none => exact .refl _
  | some hmain =>
    cases hmain with
    | main hperm => exact hperm

/-- Each item has its place in the other program. -/
theorem exists_shuffled (h : p.Rearranged q) {item : Item} (hitem : item ∈ p.items) :
    ∃ other ∈ q.items, item.Shuffled other := by
  obtain ⟨items, hperm, hshuffled⟩ := h.items
  exact exists_of_mem_of_forall₂ hshuffled (hperm.mem_iff.mp hitem)

/-- What an item shows whatever the order of its declarations, all items show up to their order. -/
theorem perm_filterMap {β : Type} {f : Item → Option β} (h : p.Rearranged q)
    (hf : ∀ a ∈ p.items, ∀ b, a.Shuffled b → f a = f b) :
    (p.items.filterMap f).Perm (q.items.filterMap f) := by
  obtain ⟨items, hperm, hshuffled⟩ := h.items
  have hpick : items.filterMap f = q.items.filterMap f :=
    filterMap_eq_of_forall₂ hshuffled fun a ha => hf a (hperm.mem_iff.mpr ha)
  exact hpick ▸ hperm.filterMap f

/-- What a routine shows whatever the order of its local variables, all routines show up to their
order. -/
theorem perm_map_routines {β : Type} {f : Routine → β} (h : p.Rearranged q)
    (hf : ∀ r ∈ p.routines, ∀ locals, r.locals.Perm locals → f r = f { r with locals := locals }) :
    (p.routines.map f).Perm (q.routines.map f) := by
  have hitems := h.perm_filterMap (f := fun item => item.routine?.map f) fun a ha b hab => by
    cases hab with
    | main hperm => rfl
    | routine hperm => exact congrArg some (hf _ (mem_routines_iff.mpr ha) _ hperm)
  unfold routines
  rw [List.map_filterMap, List.map_filterMap]
  exact hitems

theorem perm_signatures (h : p.Rearranged q) :
    (p.routines.map (·.signature)).Perm (q.routines.map (·.signature)) :=
  h.perm_map_routines fun _ _ _ _ => rfl

theorem perm_routine_names (h : p.Rearranged q) :
    (p.routines.map (·.name)).Perm (q.routines.map (·.name)) :=
  h.perm_map_routines fun _ _ _ _ => rfl

/-- A routine of the other program is one of this program with its local variables shuffled. -/
theorem exists_routine (h : p.Rearranged q) {routine : Routine} (hroutine : routine ∈ q.routines) :
    ∃ original ∈ p.routines, ∃ locals, original.locals.Perm locals ∧
      routine = { original with locals := locals } := by
  obtain ⟨item, hitem, hshuffled⟩ := h.symm.exists_shuffled (mem_routines_iff.mp hroutine)
  cases hshuffled with
  | @routine _ locals hperm =>
    exact ⟨_, mem_routines_iff.mpr hitem, routine.locals, hperm.symm, rfl⟩

/-- A main procedure of the other program has the body of one of this program. -/
theorem exists_main (h : p.Rearranged q) {main : MainProc} (hmain : .main main ∈ q.items) :
    ∃ original, .main original ∈ p.items ∧ original.body = main.body := by
  obtain ⟨item, hitem, hshuffled⟩ := h.symm.exists_shuffled hmain
  cases hshuffled with
  | main hperm => exact ⟨_, hitem, rfl⟩

end Rearranged

/-! ## Well-formed programs stay so -/

theorem Declares.of_perm {locals locals' : List Declaration} {name : String} {ty : VarTy}
    (hlocals : locals.Perm locals') (hglobals : p.globals.Perm q.globals)
    (h : p.Declares locals name ty) : q.Declares locals' name ty := by
  have hnames : (names locals).Perm (names locals') := hlocals.map _
  unfold Declares at h ⊢
  rwa [← hlocals.mem_iff, ← hnames.mem_iff, ← hglobals.mem_iff]

theorem Offers.of_rearranged (h : p.Rearranged q) {tag : Tag} {ty : VarTy} (hty : p.Offers tag ty) :
    q.Offers tag ty := by
  cases tag with
  | functionCall callee =>
    obtain ⟨s, hs, hname, hreturn⟩ := hty
    exact ⟨s, (h.perm_signatures.append_left builtins).mem_iff.mp hs, hname, hreturn⟩
  | integer => exact hty
  | string => exact hty
  | boolean => exact hty
  | var => exact hty
  | other raw => exact hty

theorem BodyFits.of_rearranged (h : p.Rearranged q) {locals locals' : List Declaration}
    (hlocals : locals.Perm locals') {body : List Stmt} (hfits : p.BodyFits locals body) :
    q.BodyFits locals' body := by
  constructor
  case assignments =>
    intro target tag hassigns
    obtain ⟨ty, hdeclares, hoffers⟩ := hfits.assignments target tag hassigns
    exact ⟨ty, hdeclares.of_perm hlocals h.perm_globals, hoffers.of_rearranged h⟩
  case calls =>
    intro callee hcalls
    refine (hfits.calls callee hcalls).imp_right fun hroutine => ?_
    exact List.mem_map.mp (h.perm_routine_names.mem_iff.mp (List.mem_map.mpr hroutine))

theorem WellFormed.of_rearranged (h : p.Rearranged q) (hp : p.WellFormed) : q.WellFormed := by
  have hglobalNames : (names p.globals).Perm (names q.globals) := h.perm_globals.map _
  constructor
  case main =>
    obtain ⟨m, hm⟩ := hp.main
    obtain ⟨item, hitem, hshuffled⟩ := h.exists_shuffled hm
    cases hshuffled with
    | main hperm => exact ⟨_, hitem⟩
  case globals_distinct => exact hglobalNames.nodup_iff.mp hp.globals_distinct
  case globals_fresh => exact fun d hd => hp.globals_fresh d (h.perm_globals.mem_iff.mpr hd)
  case routines_distinct => exact h.perm_routine_names.nodup_iff.mp hp.routines_distinct
  case routines_fresh =>
    intro routine hroutine
    obtain ⟨original, horiginal, locals, hperm, rfl⟩ := h.exists_routine hroutine
    rw [← hglobalNames.mem_iff]
    exact hp.routines_fresh original horiginal
  case locals_distinct =>
    intro routine hroutine
    obtain ⟨original, horiginal, locals, hperm, rfl⟩ := h.exists_routine hroutine
    have hnames := (hperm.append_left original.parameters).map (·.name)
    exact hnames.nodup_iff.mp (hp.locals_distinct original horiginal)
  case locals_fresh =>
    intro routine hroutine d hd
    obtain ⟨original, horiginal, locals, hperm, rfl⟩ := h.exists_routine hroutine
    rw [← hglobalNames.mem_iff]
    exact hp.locals_fresh original horiginal d
      ((hperm.append_left original.parameters).mem_iff.mpr hd)
  case routine_bodies =>
    intro routine hroutine
    obtain ⟨original, horiginal, locals, hperm, rfl⟩ := h.exists_routine hroutine
    exact (hp.routine_bodies original horiginal).of_rearranged h
      (hperm.append_left original.parameters)
  case main_bodies =>
    intro main hmain
    obtain ⟨original, horiginal, hbody⟩ := h.exists_main hmain
    rw [← hbody]
    exact (hp.main_bodies original horiginal).of_rearranged h (.refl _)

/-! ## The registry stays the same -/

theorem registry_eq_of_rearranged (h : p.Rearranged q) (hp : p.WellFormed) :
    p.registry = q.registry := by
  have hglobals := Table.ofList_eq_of_perm
    (h.perm_globals.map fun d => (d.name, d.ty)) hp.nodup_globals
  have hsignatures := Table.ofList_eq_of_perm
    ((h.perm_signatures.append_left builtins).map fun s => (s.name, s)) hp.nodup_signatures
  -- the local table of a routine does not tell the order of its local variables either
  have htable : ∀ r ∈ p.routines, ∀ locals, r.locals.Perm locals →
      r.table = localListing r.parameters locals := by
    intro r hr locals hperm
    have hentries : (symbols .var r.locals).Perm (symbols .var locals) := hperm.map _
    exact Table.ofList_eq_of_perm (hentries.append_left (symbols .parameter r.parameters))
      (Header.nodup_symbols (hp.locals_distinct r hr))
  have hentries : (p.routines.map fun r => (r.name, r.table)).Perm
      (q.routines.map fun r => (r.name, r.table)) :=
    h.perm_map_routines fun r hr locals hperm =>
      congrArg (Prod.mk r.name) (htable r hr locals hperm)
  have hlocals := Table.ofList_eq_of_perm hentries hp.nodup_owners
  unfold registry Registry.listing
  rw [hglobals, hsignatures, hlocals]

theorem result_analyze_of_rearranged (h : p.Rearranged q) {r : Registry}
    (hp : (p.analyze .hoisting).result = .ok r) : (q.analyze .hoisting).result = .ok r := by
  obtain ⟨hformed, rfl⟩ := wellFormed_of_analyze hp
  have hq : ∀ o ∈ q.obligations .hoisting, o.Met :=
    forall_met_iff_wellFormed.mpr (hformed.of_rearranged h)
  exact result_analyze_eq_ok_iff.mpr ⟨hq, (registry_eq_of_rearranged h hformed).symm⟩

/-- With all signatures hoisted, the order of the items and of their own declarations does not
matter for what is accepted, nor for the registry. -/
theorem result_analyze_eq_ok_iff_of_rearranged (p q : Program) (h : p.Rearranged q)
    (r : Registry) :
    (p.analyze .hoisting).result = .ok r ↔ (q.analyze .hoisting).result = .ok r :=
  ⟨result_analyze_of_rearranged h, result_analyze_of_rearranged h.symm⟩

/-- The main procedure calls a function that stands behind it. -/
def mainFirst : Program :=
  ⟨[.main ⟨[⟨"a", .integer⟩, ⟨"b", .string⟩], [.assign "a" none (.ofCall "f" [])]⟩,
    .routine ⟨⟨"f", [⟨"x", .string⟩], some VarTy.integer, [⟨"u", .boolean⟩, ⟨"v", .float⟩]⟩,
      [.assign "u" none (.literal .boolean "true")]⟩]⟩

/-- The same program read backwards, but for the parameters and the bodies. -/
def mainLast : Program :=
  ⟨[.routine ⟨⟨"f", [⟨"x", .string⟩], some VarTy.integer, [⟨"v", .float⟩, ⟨"u", .boolean⟩]⟩,
      [.assign "u" none (.literal .boolean "true")]⟩,
    .main ⟨[⟨"b", .string⟩, ⟨"a", .integer⟩], [.assign "a" none (.ofCall "f" [])]⟩]⟩

theorem rearranged_mainLast : mainFirst.Rearranged mainLast where
  first := .some (.main (.swap _ _ _))
  items := ⟨_, .swap _ _ _, .cons (.routine (.swap _ _ _)) (.cons (.main (.swap _ _ _)) .nil)⟩

theorem result_analyze_mainLast :
    (mainLast.analyze .hoisting).result = .ok mainFirst.registry := by
  have h : (mainFirst.analyze .hoisting).result = .ok mainFirst.registry := by rfl
  exact (result_analyze_eq_ok_iff_of_rearranged mainFirst mainLast rearranged_mainLast _).mp h

end Program

end StaticCheck
