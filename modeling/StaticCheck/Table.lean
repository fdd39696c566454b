import StaticCheck.Text.Order

/-!
# Tables: finite maps from names

A `Table V` sends finitely many names to values. It lists its entries in the
order of `Text.before` and holds each name once, so that a table is determined by
what it answers: `Table.ext_get?` in `StaticCheck.Table.Lemmas` says that two
tables with the same look-ups are equal.
-/

namespace StaticCheck

open Text (before)

/-- The entries of a table in the order of their names. -/
def Ordered {V : Type} (entries : List (String × V)) : Prop :=
  entries.Pairwise fun a b => before a.1 b.1 = true

/-- Puts `v` under `k` into a list of entries, in front of the first later name and in the place
of an entry of the same name. -/
def insertEntry {V : Type} (k : String) (v : V) : List (String × V) → List (String × V)
  | [] => [(k, v)]
  | e :: es =>
    if before k e.1 then (k, v) :: e :: es
    else if before e.1 k then e :: insertEntry k v es
    else (k, v) :: es

theorem mem_insertEntry {V : Type} {k : String} {v : V} {e : String × V} :
    ∀ {es : List (String × V)}, e ∈ insertEntry k v es → e = (k, v) ∨ e ∈ es
  | [], h => Or.inl (List.mem_singleton.mp h)
  | d :: ds, h => by
    unfold insertEntry at h
    split at h
    · rcases List.mem_cons.mp h with rfl | h
      · exact Or.inl rfl
      · exact Or.inr h
    · split at h
      · rcases List.mem_cons.mp h with rfl | h
        · exact Or.inr (List.mem_cons_self ..)
        · rcases mem_insertEntry h with h | h
          · exact Or.inl h
          · exact Or.inr (List.mem_cons_of_mem _ h)
      · rcases List.mem_cons.mp h with rfl | h
        · exact Or.inl rfl
        · exact Or.inr (List.mem_cons_of_mem _ h)

theorem Ordered.insertEntry {V : Type} (k : String) (v : V) :
    ∀ {es : List (String × V)}, Ordered es → Ordered (insertEntry k v es)
  | [], _ => List.pairwise_singleton _ _
  | d :: ds, h => by
    have later := (List.pairwise_cons.mp h).1
    have rest : Ordered ds := (List.pairwise_cons.mp h).2
    unfold StaticCheck.insertEntry
    split
    · next front =>
      refine List.pairwise_cons.mpr ⟨?_, h⟩
      intro e he
      rcases List.mem_cons.mp he with rfl | he
      · exact front
      · exact Text.before_trans front (later e he)
    · next notFront =>
      split
      · next behind =>
        refine List.pairwise_cons.mpr ⟨?_, Ordered.insertEntry k v rest⟩
        intro e he
        rcases mem_insertEntry he with rfl | he
        · exact behind
        · exact later e he
      · next notBehind =>
        have same : k = d.1 :=
          Text.eq_of_not_before (Bool.eq_false_iff.mpr notFront) (Bool.eq_false_iff.mpr notBehind)
        refine List.pairwise_cons.mpr ⟨?_, rest⟩
        intro e he
        rw [show (k, v).1 = d.1 from same]
        exact later e he

/-- A finite map from names to values, listed in the order of the names. -/
structure Table (V : Type) where
  entries : List (String × V)
  ordered : Ordered entries

namespace Table

variable {V : Type}

/-- The table without entries. -/
def empty : Table V := ⟨[], List.Pairwise.nil⟩

instance [DecidableEq V] : DecidableEq (Table V) := fun s t =>
  match decEq s.entries t.entries with
  | .isTrue h => .isTrue (by cases s; cases t; cases h; rfl)
  | .isFalse h => .isFalse fun same => h (congrArg entries same)

/-- The value under `k`. -/
def get? (t : Table V) (k : String) : Option V :=
  t.entries.lookup k

/-- Whether `k` has a value. -/
def contains (t : Table V) (k : String) : Bool :=
  (t.get? k).isSome

/-- Puts `v` under `k`, in the place of what stood there. -/
def insert (t : Table V) (k : String) (v : V) : Table V :=
  ⟨insertEntry k v t.entries, t.ordered.insertEntry k v⟩

/-- The number of names in the table. -/
def size (t : Table V) : Nat :=
  t.entries.length

/-- The names of the table, in their order. -/
def keys (t : Table V) : List String :=
  t.entries.map Prod.fst

/-- Inserts the entries one by one, so that the last one of a name counts. -/
def ofList (entries : List (String × V)) : Table V :=
  entries.foldl (fun t e => t.insert e.1 e.2) empty

end Table

end StaticCheck
