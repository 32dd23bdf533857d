import FamilyStore.DataFuncs.Builtin
import FamilyStore.Proofs.Bytes
import FamilyStore.Proofs.Engine.Selection
import Mathlib.Data.List.Nodup

/-!
Strict orders of keys.

Where only equal keys compare equal, sorting leaves no choice: however the records came into their
table, there is one list of them that is strictly ascending. So what an iteration selects depends on
the map that the records stand for and on nothing else. The built-in comparisons are of this sort.
-/

namespace FamilyStore

/-! ## The built-in comparisons -/

namespace DataFuncs

theorem tryRank_builtin (b : Builtin) (k₁ k₂ : Bytes) :
    b.funcs.tryRank k₁ k₂ = .ok (Returned.signCode (b.rank k₁ k₂)) := by
  show (rankValue (b.rank k₁ k₂)).difference = _
  cases b.rank k₁ k₂ <;> rfl

/-- The engine sees the comparison of a built-in as it is. -/
theorem rank_builtin (b : Builtin) (k₁ k₂ : Bytes) : b.funcs.rank k₁ k₂ = b.rank k₁ k₂ := by
  unfold rank compareKeys
  rw [tryRank_builtin, Returned.compare_signCode]

end DataFuncs

namespace Engine

variable {f g : DataFuncs} {keys : List Bytes} {R R' : Records}

/-- On some keys, the comparison of data functions is a strict total order: a total preorder in
which only equal keys compare equal. -/
structure StrictlyOrders (f : DataFuncs) (keys : List Bytes) : Prop extends Orders f keys where
  unique : ∀ a ∈ keys, ∀ b ∈ keys, f.rank a b = .eq → a = b

theorem strictlyOrders_of_rank (hrank : ∀ a b, f.rank a b = Bytes.order a b) :
    StrictlyOrders f keys where
  swap a _ b _ := by rw [hrank, hrank, Bytes.order_swap]
  trans a _ b _ c _ hab hbc := by
    rw [hrank] at hab hbc ⊢
    exact Bytes.isLE_order_trans hab hbc
  unique a _ b _ h := (Bytes.order_eq_iff a b).1 ((hrank a b).symm.trans h)

/-- A strict total order the other way round is one. -/
theorem StrictlyOrders.reversed (h : StrictlyOrders f keys)
    (hrank : ∀ a b, g.rank a b = f.rank b a) : StrictlyOrders g keys where
  swap a ha b hb := by rw [hrank, hrank, h.swap b hb a ha]
  trans a ha b hb c hc hab hbc := by
    rw [hrank] at hab hbc ⊢
    exact h.trans c hc b hb a ha hbc hab
  unique a ha b hb heq := (h.unique b hb a ha ((hrank a b).symm.trans heq)).symm

/-- Each built-in compares keys by a strict total order. -/
theorem strictlyOrders_builtin (b : DataFuncs.Builtin) (keys : List Bytes) :
    StrictlyOrders b.funcs keys := by
  cases b with
  | default => exact strictlyOrders_of_rank (DataFuncs.rank_builtin .default)
  | counter => exact strictlyOrders_of_rank (DataFuncs.rank_builtin .counter)
  | reverse =>
    have hbytewise : StrictlyOrders (DataFuncs.Builtin.funcs .default) keys :=
      strictlyOrders_of_rank (DataFuncs.rank_builtin .default)
    refine hbytewise.reversed fun k₁ k₂ => ?_
    rw [DataFuncs.rank_builtin, DataFuncs.rank_builtin]
    rfl

/-! ## One ascending list -/

theorem pairwise_idxOf {α : Type} [DecidableEq α] {xs : List α} (h : xs.Nodup) :
    xs.Pairwise fun a b => xs.idxOf a < xs.idxOf b := by
  refine List.pairwise_iff_getElem.2 fun i j hi hj hij => ?_
  rw [h.idxOf_getElem i hi, h.idxOf_getElem j hj]
  exact hij

/-- Sorted records are strictly ascending, where each key has one record. -/
theorem sorted_ascending (h : StrictlyOrders f R.keys) (hn : R.keys.Nodup) :
    (Sort.sort (precedes f) R.entries).Pairwise fun r r' => f.rank r.1 r'.1 = .lt := by
  have hmem : ∀ r ∈ Sort.sort (precedes f) R.entries, r.1 ∈ R.keys :=
    fun r hr => List.mem_map_of_mem ((perm_sorted f R).mem_iff.1 hr)
  refine (sorted_pairwise h.toOrders (pairwise_idxOf hn)).imp_of_mem fun {r r'} hr hr' hb => ?_
  rcases hb with hlt | ⟨heq, hplace⟩
  · exact hlt
  · rw [h.unique r.1 (hmem r hr) r'.1 (hmem r' hr') heq] at hplace
    exact absurd hplace (Nat.lt_irrefl _)

/-- Tables with the same map are sorted to the same list. -/
theorem sorted_eq (h : StrictlyOrders f R.keys) (hn : R.keys.Nodup) (hn' : R'.keys.Nodup)
    (hsame : ∀ k, R.get? k = R'.get? k) :
    Sort.sort (precedes f) R.entries = Sort.sort (precedes f) R'.entries := by
  have hentries := Table.entries_perm hn hn' hsame
  have hkeys : R.keys.Perm R'.keys := hentries.map Prod.fst
  have h' : StrictlyOrders f R'.keys :=
    ⟨h.toOrders.mono fun _ hk => hkeys.mem_iff.2 hk,
      fun a ha b hb => h.unique a (hkeys.mem_iff.2 ha) b (hkeys.mem_iff.2 hb)⟩
  have hperm : (Sort.sort (precedes f) R.entries).Perm (Sort.sort (precedes f) R'.entries) :=
    (perm_sorted f R).trans (hentries.trans (perm_sorted f R').symm)
  refine List.Perm.eq_of_pairwise (fun r r' hr hr' hlt hgt => ?_)
    (sorted_ascending h hn) (sorted_ascending h' hn') hperm
  have hmem : r.1 ∈ R.keys := List.mem_map_of_mem ((perm_sorted f R).mem_iff.1 hr)
  have hmem' : r'.1 ∈ R'.keys := List.mem_map_of_mem ((perm_sorted f R').mem_iff.1 hr')
  rw [h.swap r.1 hmem r'.1 (hkeys.mem_iff.2 hmem'), hgt] at hlt
  exact absurd hlt (by decide)

/-! ## What an iteration selects -/

/-- What is selected does not depend on the order in which the table has its records. -/
theorem selected_eq (h : StrictlyOrders f R.keys) (hn : R.keys.Nodup) (hn' : R'.keys.Nodup)
    (hsame : ∀ k, R.get? k = R'.get? k) (start : Span) :
    selected f R start = selected f R' start := by
  unfold selected
  rw [sorted_eq h hn hn' hsame]

/-- Data functions that compare alike select the same records. -/
theorem selected_congr (hrank : ∀ a b, f.rank a b = g.rank a b) (R : Records) (start : Span) :
    selected f R start = selected g R start := by
  have hprecedes : precedes f = precedes g := by
    funext r r'
    unfold precedes
    rw [hrank]
  have hreaches : reaches f start.read = reaches g start.read := by
    funext r
    unfold reaches
    rw [hrank]
  unfold selected
  rw [hprecedes, hreaches]

/-- Selected records are strictly ascending. -/
theorem selected_ascending (h : StrictlyOrders f R.keys) (hn : R.keys.Nodup) (start : Span) :
    (selected f R start).Pairwise fun r r' => f.rank r.1 r'.1 = .lt := by
  unfold selected
  dsimp only
  by_cases hnull : start.isNull = true
  · rw [if_pos hnull]
    exact sorted_ascending h hn
  · rw [if_neg hnull]
    exact (sorted_ascending h hn).filter _

/-- Each selected record is in the table, and not below the start key if that has an address. -/
theorem mem_selected_iff (f : DataFuncs) (R : Records) (start : Span) (r : Record) :
    r ∈ selected f R start ↔
      r ∈ R.entries ∧ (start.isNull = false → f.rank r.1 start.read ≠ .lt) := by
  unfold selected
  dsimp only
  cases hnull : start.isNull with
  | true =>
    rw [if_pos rfl, (perm_sorted f R).mem_iff]
    exact ⟨fun hr => ⟨hr, fun hf => absurd hf (by decide)⟩, fun hr => hr.1⟩
  | false =>
    rw [if_neg Bool.false_ne_true, List.mem_filter, (perm_sorted f R).mem_iff]
    unfold reaches
    rw [bne_iff_ne]
    exact ⟨fun hr => ⟨hr.1, fun _ => hr.2⟩, fun hr => ⟨hr.1, hr.2 rfl⟩⟩

theorem nodup_selected (f : DataFuncs) (hn : R.keys.Nodup) (start : Span) :
    ((selected f R start).map Prod.fst).Nodup := by
  have hall : ((Sort.sort (precedes f) R.entries).map Prod.fst).Nodup :=
    ((perm_sorted f R).map Prod.fst).nodup_iff.2 hn
  unfold selected
  dsimp only
  by_cases hnull : start.isNull = true
  · rw [if_pos hnull]
    exact hall
  · rw [if_neg hnull]
    exact hall.sublist (List.filter_sublist.map Prod.fst)

end Engine

end FamilyStore
