import StaticCheck.Table

/-!
# What a table answers

Each operation on tables is described by its look-ups: `get?_empty`,
`get?_insert`; `simp` knows them under the name that was inserted
(`get?_insert_self`) and under any other. Entries and look-ups determine each other (`mem_entries_iff`,
`ext_get?`), and an insertion adds one to the size exactly when the name is new
(`size_insert`). The table of a list of entries knows the names of the list
(`contains_ofList_iff`). Where the list holds each name once, its table answers by the list
(`get?_ofList`, `get?_ofList_eq_some_iff`), is as large as it (`size_ofList`) and does not tell its
order (`ofList_eq_of_perm`).
-/

namespace StaticCheck

open Text (before)

namespace Table

variable {V : Type}

@[simp]
theorem get?_empty (k : String) : (empty : Table V).get? k = none := rfl

@[simp]
theorem contains_empty (k : String) : (empty : Table V).contains k = false := rfl

@[simp]
private theorem lookup_cons_fst (e : String × V) (es : List (String × V)) :
    (e :: es).lookup e.1 = some e.2 :=
  List.lookup_cons_self

private theorem lookup_cons_of_ne {e : String × V} {es : List (String × V)} {k : String}
    (h : k ≠ e.1) : (e :: es).lookup k = es.lookup k := by
  rw [List.lookup_cons, beq_false_of_ne h]

@[simp]
private theorem lookup_insertEntry_self (k : String) (v : V) :
    ∀ es : List (String × V), (insertEntry k v es).lookup k = some v
  | [] => List.lookup_cons_self
  | d :: ds => by
    unfold insertEntry
    split
    · exact List.lookup_cons_self
    · split
      · next behind =>
        rw [lookup_cons_of_ne (Text.ne_of_before behind).symm]
        exact lookup_insertEntry_self k v ds
      · exact List.lookup_cons_self

private theorem lookup_insertEntry_of_ne {k l : String} (v : V) (h : l ≠ k) :
    ∀ es : List (String × V), (insertEntry k v es).lookup l = es.lookup l
  | [] => lookup_cons_of_ne h
  | d :: ds => by
    unfold insertEntry
    split
    · exact lookup_cons_of_ne h
    · next notFront =>
      split
      · rw [List.lookup_cons, List.lookup_cons, lookup_insertEntry_of_ne v h ds]
      · next notBehind =>
        have same : k = d.1 :=
          Text.eq_of_not_before (Bool.eq_false_iff.mpr notFront) (Bool.eq_false_iff.mpr notBehind)
        rw [lookup_cons_of_ne h, lookup_cons_of_ne (same ▸ h)]

@[simp]
theorem get?_insert_self (t : Table V) (k : String) (v : V) : (t.insert k v).get? k = some v :=
  lookup_insertEntry_self k v t.entries

@[simp]
theorem get?_insert_of_ne (t : Table V) {k l : String} (v : V) (h : l ≠ k) :
    (t.insert k v).get? l = t.get? l :=
  lookup_insertEntry_of_ne v h t.entries

/-- After an insertion, its name has the new value and every other name what it had. -/
theorem get?_insert (t : Table V) (k l : String) (v : V) :
    (t.insert k v).get? l = if l = k then some v else t.get? l := by
  by_cases h : l = k <;> simp [h]

theorem contains_eq_true_iff {t : Table V} {k : String} :
    t.contains k = true ↔ ∃ v, t.get? k = some v :=
  Option.isSome_iff_exists

theorem contains_eq_false_iff {t : Table V} {k : String} :
    t.contains k = false ↔ t.get? k = none := by
  simp [contains]

@[simp]
theorem contains_insert (t : Table V) (k l : String) (v : V) :
    (t.insert k v).contains l = (decide (l = k) || t.contains l) := by
  by_cases h : l = k <;> simp [contains, h]

private theorem lookup_eq_some_iff :
    ∀ {es : List (String × V)}, Ordered es → ∀ {k : String} {v : V},
      es.lookup k = some v ↔ (k, v) ∈ es
  | [], _, _, _ => by simp
  | e :: es, h, k, v => by
    have later := (List.pairwise_cons.mp h).1
    have rest : Ordered es := (List.pairwise_cons.mp h).2
    by_cases hk : k = e.1
    · subst hk
      rw [lookup_cons_fst]
      constructor
      · intro hv
        cases hv
        exact List.mem_cons_self ..
      · intro hmem
        rcases List.mem_cons.mp hmem with heq | hmem
        · rw [← heq]
        · exact absurd rfl (Text.ne_of_before (later (e.1, v) hmem))
    · rw [lookup_cons_of_ne hk, lookup_eq_some_iff rest]
      constructor
      · exact List.mem_cons_of_mem _
      · intro hmem
        rcases List.mem_cons.mp hmem with heq | hmem
        · exact absurd (congrArg Prod.fst heq) hk
        · exact hmem

/-- The entries of a table are its look-ups that succeed. -/
theorem mem_entries_iff {t : Table V} {k : String} {v : V} :
    (k, v) ∈ t.entries ↔ t.get? k = some v :=
  (lookup_eq_some_iff t.ordered).symm

private theorem ordered_ext :
    ∀ {es fs : List (String × V)}, Ordered es → Ordered fs → (∀ e, e ∈ es ↔ e ∈ fs) → es = fs
  | [], [], _, _, _ => rfl
  | [], f :: _, _, _, h => absurd ((h f).mpr (List.mem_cons_self ..)) List.not_mem_nil
  | e :: _, [], _, _, h => absurd ((h e).mp (List.mem_cons_self ..)) List.not_mem_nil
  | e :: es, f :: fs, he, hf, h => by
    have laterE := (List.pairwise_cons.mp he).1
    have laterF := (List.pairwise_cons.mp hf).1
    have head : e = f := by
      rcases List.mem_cons.mp ((h e).mp (List.mem_cons_self ..)) with heq | hE
      · exact heq
      · rcases List.mem_cons.mp ((h f).mpr (List.mem_cons_self ..)) with heq | hF
        · exact heq.symm
        · have hef := laterE f hF
          rw [Text.not_before_of_before (laterF e hE)] at hef
          cases hef
    subst head
    refine congrArg (e :: ·)
      (ordered_ext (List.pairwise_cons.mp he).2 (List.pairwise_cons.mp hf).2 fun d => ?_)
    constructor
    · intro hd
      rcases List.mem_cons.mp ((h d).mp (List.mem_cons_of_mem _ hd)) with heq | hd'
      · exact absurd (congrArg Prod.fst heq.symm) (Text.ne_of_before (laterE d hd))
      · exact hd'
    · intro hd
      rcases List.mem_cons.mp ((h d).mpr (List.mem_cons_of_mem _ hd)) with heq | hd'
      · exact absurd (congrArg Prod.fst heq.symm) (Text.ne_of_before (laterF d hd))
      · exact hd'

theorem ext_entries {s t : Table V} (h : s.entries = t.entries) : s = t := by
  cases s
  cases t
  cases h
  rfl

/-- Two tables that answer every look-up alike are the same table. -/
@[ext]
theorem ext_get? {s t : Table V} (h : ∀ k, s.get? k = t.get? k) : s = t :=
  ext_entries (ordered_ext s.ordered t.ordered fun e => by
    obtain ⟨k, v⟩ := e
    rw [mem_entries_iff, mem_entries_iff, h])

private theorem length_insertEntry (k : String) (v : V) :
    ∀ es : List (String × V), Ordered es →
      (insertEntry k v es).length = if (es.lookup k).isSome then es.length else es.length + 1
  | [], _ => rfl
  | d :: ds, h => by
    have later := (List.pairwise_cons.mp h).1
    have rest : Ordered ds := (List.pairwise_cons.mp h).2
    unfold insertEntry
    split
    · next front =>
      have fresh : (d :: ds).lookup k = none := by
        cases found : (d :: ds).lookup k with
        | none => rfl
        | some w =>
          rcases List.mem_cons.mp ((lookup_eq_some_iff h).mp found) with heq | hmem
          · exact absurd (congrArg Prod.fst heq) (Text.ne_of_before front)
          · exact absurd rfl (Text.ne_of_before (Text.before_trans front (later (k, w) hmem)))
      simp [fresh]
    · next notFront =>
      split
      · next behind =>
        rw [lookup_cons_of_ne (Text.ne_of_before behind).symm, List.length_cons,
          length_insertEntry k v ds rest, List.length_cons]
        split <;> rfl
      · next notBehind =>
        have same : k = d.1 :=
          Text.eq_of_not_before (Bool.eq_false_iff.mpr notFront) (Bool.eq_false_iff.mpr notBehind)
        subst same
        simp

/-- A new name makes the table larger by one, a known one leaves its size. -/
theorem size_insert (t : Table V) (k : String) (v : V) :
    (t.insert k v).size = if t.contains k then t.size else t.size + 1 :=
  length_insertEntry k v t.entries t.ordered

@[simp]
theorem ofList_concat (es : List (String × V)) (e : String × V) :
    ofList (es ++ [e]) = (ofList es).insert e.1 e.2 :=
  List.foldl_append

private theorem contains_foldl_insert_iff {k : String} :
    ∀ {es : List (String × V)} {t : Table V},
      (es.foldl (fun t e => t.insert e.1 e.2) t).contains k = true ↔
        k ∈ es.map Prod.fst ∨ t.contains k = true := by
  intro es
  induction es with
  | nil => intro t; simp
  | cons e es ih =>
    intro t
    rw [List.foldl_cons, ih, contains_insert, Bool.or_eq_true, decide_eq_true_eq, List.map_cons,
      List.mem_cons, or_left_comm, or_assoc]

@[simp]
theorem contains_ofList_iff {es : List (String × V)} {k : String} :
    (ofList es).contains k = true ↔ k ∈ es.map Prod.fst := by
  rw [ofList, contains_foldl_insert_iff, contains_empty]
  exact or_iff_left Bool.false_ne_true

private theorem get?_foldl_insert {k : String} :
    ∀ {es : List (String × V)} {t : Table V}, (es.map Prod.fst).Nodup →
      (es.foldl (fun t e => t.insert e.1 e.2) t).get? k = (es.lookup k).or (t.get? k) := by
  intro es
  induction es with
  | nil => intro t _; rfl
  | cons e es ih =>
    intro t h
    rw [List.map_cons, List.nodup_cons] at h
    rw [List.foldl_cons, ih h.2, get?_insert]
    by_cases hk : k = e.1
    · subst hk
      have hnew : es.lookup e.1 = none := by
        rw [List.lookup_eq_none_iff]
        intro d hd
        rw [bne_iff_ne]
        exact fun heq => h.1 (heq ▸ List.mem_map_of_mem hd)
      simp [hnew]
    · rw [lookup_cons_of_ne hk, if_neg hk]

/-- A list that holds each name once answers for its table. -/
theorem get?_ofList {es : List (String × V)} (h : (es.map Prod.fst).Nodup) (k : String) :
    (ofList es).get? k = es.lookup k := by
  simp [ofList, get?_foldl_insert h]

private theorem mem_of_lookup_eq_some {k : String} {v : V} :
    ∀ {es : List (String × V)}, es.lookup k = some v → (k, v) ∈ es := by
  intro es h
  obtain ⟨front, back, heq, -⟩ := List.lookup_eq_some_iff.mp h
  rw [heq]
  exact List.mem_append_right _ (List.mem_cons_self ..)

private theorem lookup_eq_some_of_mem {k : String} {v : V} :
    ∀ {es : List (String × V)}, (es.map Prod.fst).Nodup → (k, v) ∈ es → es.lookup k = some v := by
  intro es
  induction es with
  | nil =>
    intro _ hmem
    cases hmem
  | cons e es ih =>
    intro h hmem
    rw [List.map_cons, List.nodup_cons] at h
    rcases List.mem_cons.mp hmem with rfl | hmem
    · exact List.lookup_cons_self
    · have hne : k ≠ e.1 := fun heq => h.1 (heq ▸ List.mem_map_of_mem hmem)
      rw [lookup_cons_of_ne hne]
      exact ih h.2 hmem

/-- The entries of a list that holds each name once are those of its table. -/
theorem get?_ofList_eq_some_iff {es : List (String × V)} (h : (es.map Prod.fst).Nodup) {k : String}
    {v : V} : (ofList es).get? k = some v ↔ (k, v) ∈ es := by
  rw [get?_ofList h]
  exact ⟨mem_of_lookup_eq_some, lookup_eq_some_of_mem h⟩

/-- Lists that hold each name once have the same table if they differ in their order alone. -/
theorem ofList_eq_of_perm {es fs : List (String × V)} (h : es.Perm fs)
    (hes : (es.map Prod.fst).Nodup) : ofList es = ofList fs := by
  have hfs : (fs.map Prod.fst).Nodup := (h.map Prod.fst).nodup_iff.mp hes
  ext k v
  rw [get?_ofList_eq_some_iff hes, get?_ofList_eq_some_iff hfs]
  exact h.mem_iff

private theorem size_foldl_insert :
    ∀ {es : List (String × V)} {t : Table V}, (es.map Prod.fst).Nodup →
      (∀ e ∈ es, t.contains e.1 = false) →
        (es.foldl (fun t e => t.insert e.1 e.2) t).size = t.size + es.length := by
  intro es
  induction es with
  | nil =>
    intro t _ _
    rfl
  | cons e es ih =>
    intro t h hnew
    rw [List.map_cons, List.nodup_cons] at h
    have hrest : ∀ d ∈ es, (t.insert e.1 e.2).contains d.1 = false := by
      intro d hd
      have hne : d.1 ≠ e.1 := fun heq => h.1 (heq ▸ List.mem_map_of_mem hd)
      simp [hne, hnew d (List.mem_cons_of_mem _ hd)]
    rw [List.foldl_cons, ih h.2 hrest, size_insert, hnew e (List.mem_cons_self ..), if_neg nofun,
      List.length_cons, Nat.add_assoc, Nat.add_comm 1]

/-- The table of a list that holds each name once has as many entries as the list. -/
theorem size_ofList {es : List (String × V)} (h : (es.map Prod.fst).Nodup) :
    (ofList es).size = es.length := by
  unfold ofList
  rw [size_foldl_insert h fun _ _ => rfl]
  exact Nat.zero_add _

end Table

end StaticCheck
