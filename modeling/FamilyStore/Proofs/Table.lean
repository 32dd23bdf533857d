import FamilyStore.Table

/-!
Keys of tables.

Setting a present key keeps the list of keys, and setting an absent one appends it. A table whose
keys are the numbers below its size is numbered: its size is then a key that is not in use, and
setting that key leaves the table numbered.
-/

namespace FamilyStore.Table

variable {κ ν : Type}

theorem length_keys (t : Table κ ν) : t.keys.length = t.size := by
  simp [keys, size]

variable [DecidableEq κ]

theorem find?_eq_none_iff (k : κ) (es : List (κ × ν)) :
    find? k es = none ↔ k ∉ es.map Prod.fst := by
  induction es with
  | nil => simp [find?]
  | cons e es ih =>
    by_cases h : e.1 = k
    · simp [find?, h]
    · have h' : ¬ k = e.1 := fun hc => h hc.symm
      simp only [find?, h, h', if_false, ih, List.map_cons, List.mem_cons, false_or]

theorem get?_eq_none_iff (t : Table κ ν) (k : κ) : t.get? k = none ↔ k ∉ t.keys :=
  find?_eq_none_iff k t.entries

theorem mem_keys_of_get? {t : Table κ ν} {k : κ} {v : ν} (h : t.get? k = some v) :
    k ∈ t.keys := by
  apply Decidable.byContradiction
  intro hk
  rw [(t.get?_eq_none_iff k).2 hk] at h
  exact absurd h (by simp)

theorem exists_get?_of_mem_keys {t : Table κ ν} {k : κ} (h : k ∈ t.keys) :
    ∃ v, t.get? k = some v := by
  cases hv : t.get? k with
  | none => exact absurd h ((t.get?_eq_none_iff k).1 hv)
  | some v => exact ⟨v, rfl⟩

theorem put_of_find? {k : κ} {v : ν} {es : List (κ × ν)} (h : find? k es = some v) :
    put k v es = es := by
  induction es with
  | nil => simp [find?] at h
  | cons e es ih =>
    by_cases he : e.1 = k
    · simp only [find?, he, if_true, Option.some.injEq] at h
      simp [put, ← he, ← h]
    · simp only [find?, he, if_false] at h
      simp [put, he, ih h]

/-- Setting a key to the value that it has changes nothing. -/
theorem set_of_get? {t : Table κ ν} {k : κ} {v : ν} (h : t.get? k = some v) : t.set k v = t := by
  have := put_of_find? h
  simp [set, this]

/-- What is found after a setting is the value that was set, or was there before. -/
theorem of_get?_set {t : Table κ ν} {k j : κ} {v w : ν} (h : (t.set k v).get? j = some w) :
    (j = k ∧ v = w) ∨ (j ≠ k ∧ t.get? j = some w) := by
  by_cases hj : j = k
  · rw [hj, get?_set_self] at h
    exact .inl ⟨hj, Option.some.inj h⟩
  · rw [get?_set_ne _ hj] at h
    exact .inr ⟨hj, h⟩

theorem put_put (k : κ) (v w : ν) (es : List (κ × ν)) : put k w (put k v es) = put k w es := by
  induction es with
  | nil => simp [put]
  | cons e es ih =>
    by_cases he : e.1 = k
    · simp [put, he]
    · simp [put, he, ih]

/-- Of two settings of one key the last one counts. -/
theorem set_set (t : Table κ ν) (k : κ) (v w : ν) : (t.set k v).set k w = t.set k w := by
  simp [set, put_put]

theorem map_fst_put (k : κ) (v : ν) (es : List (κ × ν)) :
    (put k v es).map Prod.fst =
      if k ∈ es.map Prod.fst then es.map Prod.fst else es.map Prod.fst ++ [k] := by
  induction es with
  | nil => simp [put]
  | cons e es ih =>
    by_cases he : e.1 = k
    · simp [put, he]
    · have he' : ¬ k = e.1 := fun hc => he hc.symm
      rw [put, if_neg he, List.map_cons, ih, List.map_cons]
      by_cases hk : k ∈ es.map Prod.fst
      · rw [if_pos hk, if_pos (List.mem_cons_of_mem _ hk)]
      · rw [if_neg hk, if_neg (by simpa [he'] using hk), List.cons_append]

theorem keys_set_of_mem {t : Table κ ν} {k : κ} (h : k ∈ t.keys) (v : ν) :
    (t.set k v).keys = t.keys :=
  (map_fst_put k v t.entries).trans (if_pos h)

theorem keys_set_of_not_mem {t : Table κ ν} {k : κ} (h : k ∉ t.keys) (v : ν) :
    (t.set k v).keys = t.keys ++ [k] :=
  (map_fst_put k v t.entries).trans (if_neg h)

theorem keys_erase (t : Table κ ν) (k : κ) : (t.erase k).keys = t.keys.filter (· ≠ k) := by
  simp only [keys, erase, List.filter_map]
  rfl

/-! ## Tables without two entries for one key -/

theorem nodup_keys_set {t : Table κ ν} (h : t.keys.Nodup) (k : κ) (v : ν) :
    (t.set k v).keys.Nodup := by
  by_cases hk : k ∈ t.keys
  · rw [keys_set_of_mem hk]
    exact h
  · rw [keys_set_of_not_mem hk, List.nodup_append]
    refine ⟨h, by simp, ?_⟩
    intro a ha b hb
    rw [List.mem_singleton] at hb
    exact fun hab => hk (hb ▸ hab ▸ ha)

theorem nodup_keys_erase {t : Table κ ν} (h : t.keys.Nodup) (k : κ) : (t.erase k).keys.Nodup := by
  rw [keys_erase]
  exact h.filter _

theorem find?_eq_some_iff {k : κ} {v : ν} {es : List (κ × ν)} (h : (es.map Prod.fst).Nodup) :
    find? k es = some v ↔ (k, v) ∈ es := by
  induction es with
  | nil => simp [find?]
  | cons e es ih =>
    rw [List.map_cons, List.nodup_cons] at h
    by_cases he : e.1 = k
    · subst he
      have hn : (e.1, v) ∉ es := fun hm => h.1 (List.mem_map.2 ⟨_, hm, rfl⟩)
      simp only [find?, if_true, Option.some.injEq, List.mem_cons, hn, or_false]
      exact ⟨fun hv => by rw [← hv], fun hv => by rw [← hv]⟩
    · have hne : ¬ (k, v) = e := fun hc => he (by rw [← hc])
      simp only [find?, he, if_false, ih h.2, List.mem_cons, hne, false_or]

/-- In a table with one entry for each key, the entries are what look-ups find. -/
theorem get?_eq_some_iff {t : Table κ ν} (h : t.keys.Nodup) {k : κ} {v : ν} :
    t.get? k = some v ↔ (k, v) ∈ t.entries :=
  find?_eq_some_iff h

/-- Tables that find the same values have the same entries, in orders of their own. -/
theorem entries_perm {t t' : Table κ ν} (h : t.keys.Nodup) (h' : t'.keys.Nodup)
    (hsame : ∀ k, t.get? k = t'.get? k) : t.entries.Perm t'.entries := by
  have hnodup : ∀ {u : Table κ ν}, u.keys.Nodup → u.entries.Nodup := fun hu =>
    List.Pairwise.of_map Prod.fst (fun _ _ hne heq => hne (congrArg Prod.fst heq)) hu
  refine (List.perm_ext_iff_of_nodup (hnodup h) (hnodup h')).2 fun ⟨k, v⟩ => ?_
  rw [← get?_eq_some_iff h, ← get?_eq_some_iff h', hsame]

/-! ## Counting entries -/

/-- How many entries have a value of some sort. -/
def count (t : Table κ ν) (p : ν → Bool) : Nat := t.entries.countP fun e => p e.2

theorem countP_put_of_find? (p : ν → Bool) {k : κ} {v w : ν} {es : List (κ × ν)}
    (h : find? k es = some w) : (put k v es).countP (fun e => p e.2) + (p w).toNat =
      es.countP (fun e => p e.2) + (p v).toNat := by
  induction es with
  | nil => simp [find?] at h
  | cons e es ih =>
    by_cases he : e.1 = k
    · simp only [find?, he, if_true, Option.some.injEq] at h
      simp only [put, he, if_true, List.countP_cons, h]
      cases p v <;> cases p w <;> simp
    · simp only [find?, he, if_false] at h
      simp only [put, he, if_false, List.countP_cons]
      have := ih h
      omega

/-- A new value under a key that is present counts instead of the old one. -/
theorem count_set_of_get? (p : ν → Bool) {t : Table κ ν} {k : κ} {w : ν} (h : t.get? k = some w)
    (v : ν) : (t.set k v).count p + (p w).toNat = t.count p + (p v).toNat :=
  countP_put_of_find? p h

theorem put_of_find?_none {k : κ} {es : List (κ × ν)} (h : find? k es = none) (v : ν) :
    put k v es = es ++ [(k, v)] := by
  induction es with
  | nil => rfl
  | cons e es ih =>
    by_cases he : e.1 = k
    · simp [find?, he] at h
    · simp only [find?, he, if_false] at h
      simp [put, he, ih h]

theorem entries_set_of_none {t : Table κ ν} {k : κ} (h : t.get? k = none) (v : ν) :
    (t.set k v).entries = t.entries ++ [(k, v)] :=
  put_of_find?_none h v

theorem count_set_of_none (p : ν → Bool) {t : Table κ ν} {k : κ} (h : t.get? k = none) (v : ν) :
    (t.set k v).count p = t.count p + (p v).toNat := by
  unfold count
  rw [entries_set_of_none h, List.countP_append]
  cases hp : p v <;> simp [hp]

/-- What is set and erased at once was never there. -/
theorem erase_set_of_none {t : Table κ ν} {k : κ} (h : t.get? k = none) (v : ν) :
    (t.set k v).erase k = t := by
  have hall : ∀ e ∈ t.entries, decide (e.1 ≠ k) = true := by
    intro e he
    refine decide_eq_true fun hk => (t.get?_eq_none_iff k).1 h ?_
    exact List.mem_map.2 ⟨e, he, hk⟩
  unfold erase
  rw [entries_set_of_none h, List.filter_append, List.filter_eq_self.2 hall]
  simp

theorem size_erase {t : Table κ ν} (hn : t.keys.Nodup) {k : κ} (hk : k ∈ t.keys) :
    (t.erase k).size + 1 = t.size := by
  have hpos : 0 < t.keys.length := List.length_pos_of_mem hk
  have hkeys : (t.erase k).keys = t.keys.erase k := by
    rw [keys_erase, hn.erase_eq_filter]
    congr 1
    funext a
    by_cases ha : a = k <;> simp [ha]
  rw [← length_keys, ← length_keys, hkeys, List.length_erase_of_mem hk]
  omega

/-! ## Numbered tables -/

/-- The keys are the numbers below the size, in their order. -/
def Numbered (t : Table Nat ν) : Prop := t.keys = List.range t.size

variable {t : Table Nat ν}

theorem numbered_empty : (empty : Table Nat ν).Numbered := rfl

theorem Numbered.lt_size (h : t.Numbered) {k : Nat} {v : ν} (hv : t.get? k = some v) :
    k < t.size := by
  have hk := mem_keys_of_get? hv
  rw [h] at hk
  exact List.mem_range.1 hk

theorem Numbered.get?_size (h : t.Numbered) : t.get? t.size = none := by
  rw [get?_eq_none_iff, h]
  simp

theorem Numbered.ne_size (h : t.Numbered) {k : Nat} {v : ν} (hv : t.get? k = some v) :
    k ≠ t.size :=
  Nat.ne_of_lt (h.lt_size hv)

theorem Numbered.size_set (h : t.Numbered) (v : ν) : (t.set t.size v).size = t.size + 1 := by
  have hk : t.size ∉ t.keys := (t.get?_eq_none_iff _).1 h.get?_size
  rw [← length_keys, keys_set_of_not_mem hk, List.length_append, length_keys]
  rfl

/-- A new entry under the next number. -/
theorem Numbered.set_size (h : t.Numbered) (v : ν) : (t.set t.size v).Numbered := by
  have hk : t.size ∉ t.keys := (t.get?_eq_none_iff _).1 h.get?_size
  unfold Numbered
  rw [h.size_set, keys_set_of_not_mem hk, h, List.range_succ]

/-- A new value under a number in use. -/
theorem Numbered.set_old (h : t.Numbered) {k : Nat} {v : ν} (hv : t.get? k = some v) (w : ν) :
    (t.set k w).Numbered := by
  have hkeys := keys_set_of_mem (mem_keys_of_get? hv) w
  unfold Numbered
  rw [hkeys, ← length_keys (t.set k w), hkeys, length_keys, h]

/-- The last number is taken back. -/
theorem Numbered.erase_last (h : t.Numbered) {n : Nat} (hn : t.size = n + 1) :
    (t.erase n).Numbered := by
  have hkeys : (t.erase n).keys = List.range n := by
    have hall : ∀ a ∈ List.range n, decide (a ≠ n) = true := fun a ha =>
      decide_eq_true (Nat.ne_of_lt (List.mem_range.1 ha))
    rw [keys_erase, h, hn, List.range_succ, List.filter_append, List.filter_eq_self.2 hall]
    simp
  unfold Numbered
  rw [← length_keys (t.erase n), hkeys, List.length_range]

end FamilyStore.Table
