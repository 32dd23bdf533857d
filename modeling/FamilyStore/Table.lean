/-!
Finite maps that remember insertion order.

A table is a list of entries. Setting a present key changes its value in place; setting an absent
key appends an entry, so the order of the entries is the order in which their keys last went from
absent to present.
-/

namespace FamilyStore

/-- A finite map from `κ` to `ν` in insertion order. -/
structure Table (κ ν : Type) where
  /-- The entries, oldest first. -/
  entries : List (κ × ν)
  deriving Repr, Inhabited

namespace Table

variable {κ ν : Type}

/-- The table without entries. -/
def empty : Table κ ν := ⟨[]⟩

instance : EmptyCollection (Table κ ν) := ⟨empty⟩

/-- The keys, oldest first. -/
def keys (t : Table κ ν) : List κ := t.entries.map Prod.fst

/-- The number of entries. -/
def size (t : Table κ ν) : Nat := t.entries.length

variable [DecidableEq κ]

/-- Replaces the value of `k` in a list of entries, or appends an entry for it. -/
def put (k : κ) (v : ν) : List (κ × ν) → List (κ × ν)
  | [] => [(k, v)]
  | e :: es => if e.1 = k then (k, v) :: es else e :: put k v es

/-- The value of `k` in a list of entries. -/
def find? (k : κ) : List (κ × ν) → Option ν
  | [] => none
  | e :: es => if e.1 = k then some e.2 else find? k es

/-- The value stored under `k`. -/
def get? (t : Table κ ν) (k : κ) : Option ν := find? k t.entries

/-- Whether `k` is present. -/
def contains (t : Table κ ν) (k : κ) : Bool := (t.get? k).isSome

/-- Stores `v` under `k`, in place when `k` is present and at the end otherwise. -/
def set (t : Table κ ν) (k : κ) (v : ν) : Table κ ν := ⟨put k v t.entries⟩

/-- Removes `k`; a table without `k` is left as it is. -/
def erase (t : Table κ ν) (k : κ) : Table κ ν := ⟨t.entries.filter fun e => e.1 ≠ k⟩

/-- Applies `f` to the value of `k`, if there is one. -/
def modify (t : Table κ ν) (k : κ) (f : ν → ν) : Table κ ν :=
  match t.get? k with
  | some v => t.set k (f v)
  | none => t

theorem find?_put (k k' : κ) (v : ν) (es : List (κ × ν)) :
    find? k' (put k v es) = if k' = k then some v else find? k' es := by
  induction es with
  | nil => by_cases h : k = k' <;> simp [put, find?, h, eq_comm]
  | cons e es ih =>
    by_cases h : e.1 = k
    · subst h
      by_cases h' : e.1 = k'
      · subst h'; simp [put, find?]
      · have : ¬ k' = e.1 := fun hc => h' hc.symm
        simp [put, find?, h', this]
    · by_cases h' : e.1 = k'
      · subst h'; simp [put, find?, h]
      · simp [put, find?, h, h', ih]

theorem find?_filter (k k' : κ) (es : List (κ × ν)) :
    find? k' (es.filter fun e => e.1 ≠ k) = if k' = k then none else find? k' es := by
  induction es with
  | nil => simp [find?]
  | cons e es ih =>
    by_cases h : e.1 = k
    · rw [List.filter_cons_of_neg (by simp [h]), ih]
      by_cases h' : k' = k
      · simp [h']
      · have : ¬ e.1 = k' := fun hc => h' (by rw [← hc, h])
        simp [h', find?, this]
    · rw [List.filter_cons_of_pos (by simp [h]), find?, find?, ih]
      by_cases h' : e.1 = k'
      · subst h'; simp [h]
      · simp [h']

theorem get?_empty (k : κ) : (empty : Table κ ν).get? k = none := rfl

theorem get?_set (t : Table κ ν) (k k' : κ) (v : ν) :
    (t.set k v).get? k' = if k' = k then some v else t.get? k' :=
  find?_put k k' v t.entries

theorem get?_set_self (t : Table κ ν) (k : κ) (v : ν) : (t.set k v).get? k = some v := by
  simp [get?_set]

theorem get?_set_ne (t : Table κ ν) {k k' : κ} (h : k' ≠ k) (v : ν) :
    (t.set k v).get? k' = t.get? k' := by
  simp [get?_set, h]

theorem get?_erase (t : Table κ ν) (k k' : κ) :
    (t.erase k).get? k' = if k' = k then none else t.get? k' :=
  find?_filter k k' t.entries

theorem get?_modify (t : Table κ ν) (k k' : κ) (f : ν → ν) :
    (t.modify k f).get? k' = if k' = k then (t.get? k).map f else t.get? k' := by
  unfold modify
  cases h : t.get? k with
  | none => by_cases h' : k' = k <;> simp [h', h]
  | some v => simp [get?_set]

end Table

end FamilyStore
