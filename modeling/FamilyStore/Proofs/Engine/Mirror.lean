import FamilyStore.Proofs.Engine.StrictOrder

/-!
Two comparisons of which one is the other with its sides changed.

Where only equal keys compare equal, the two sort the same records to lists of which one is the
other reversed. A start key cuts such a list in three: the records below it, the record with that
key if there is one, and the records above it. The first comparison selects the last two parts, the
second one the first two, backwards.
-/

namespace FamilyStore.Engine

/-! ## A list in three parts -/

/-- A list in which what is classed as lower comes before what is classed as higher consists of the
three classes, one after the other. -/
theorem eq_filter_append {α : Type} (c : α → Ordering) {xs : List α}
    (h : xs.Pairwise fun a b => (c b = .lt → c a = .lt) ∧ (c a = .gt → c b = .gt)) :
    xs = xs.filter (c · == .lt) ++ xs.filter (c · == .eq) ++ xs.filter (c · == .gt) := by
  induction xs with
  | nil => rfl
  | cons a xs ih =>
    obtain ⟨hhead, htail⟩ := List.pairwise_cons.1 h
    have hrest := ih htail
    -- From the first element that is not below on, none is below; likewise for those above.
    cases ha : c a with
    | lt =>
      simp only [List.filter_cons, ha]
      exact congrArg (a :: ·) hrest
    | eq =>
      have hlow : xs.filter (c · == .lt) = [] := by
        refine List.filter_eq_nil_iff.2 fun b hb hlt => ?_
        have heq := (hhead b hb).1 (beq_iff_eq.1 hlt)
        exact absurd (ha.symm.trans heq) (by decide)
      rw [hlow, List.nil_append] at hrest
      simp only [List.filter_cons, ha, hlow]
      exact congrArg (a :: ·) hrest
    | gt =>
      have hhigh : ∀ b ∈ xs, c b = .gt := fun b hb => (hhead b hb).2 ha
      have hlow : xs.filter (c · == .lt) = [] :=
        List.filter_eq_nil_iff.2 fun b hb => by simp [hhigh b hb]
      have hsame : xs.filter (c · == .eq) = [] :=
        List.filter_eq_nil_iff.2 fun b hb => by simp [hhigh b hb]
      rw [hlow, hsame, List.nil_append, List.nil_append] at hrest
      simp only [List.filter_cons, ha, hlow, hsame]
      exact congrArg (a :: ·) hrest

/-- Leaving out the lowest class leaves the two others. -/
theorem filter_ne_lt {α : Type} (c : α → Ordering) {low same high : List α}
    (hlow : ∀ a ∈ low, c a = .lt) (hsame : ∀ a ∈ same, c a = .eq) (hhigh : ∀ a ∈ high, c a = .gt) :
    (low ++ same ++ high).filter (c · != .lt) = same ++ high := by
  have hnone : low.filter (c · != .lt) = [] :=
    List.filter_eq_nil_iff.2 fun a ha => by simp [hlow a ha]
  have hall : same.filter (c · != .lt) = same :=
    List.filter_eq_self.2 fun a ha => by simp [hsame a ha]
  have hall' : high.filter (c · != .lt) = high :=
    List.filter_eq_self.2 fun a ha => by simp [hhigh a ha]
  rw [List.filter_append, List.filter_append, hnone, hall, hall', List.nil_append]

/-- An element that is in a list once is all that a test for it leaves. -/
theorem filter_eq_singleton {α : Type} {test : α → Bool} {xs : List α} {a : α} (hn : xs.Nodup)
    (ha : a ∈ xs) (htest : ∀ b ∈ xs, test b = true ↔ b = a) : xs.filter test = [a] := by
  refine List.perm_singleton.1 ((List.perm_ext_iff_of_nodup (hn.filter _)
    (List.nodup_singleton a)).2 fun b => ?_)
  rw [List.mem_filter, List.mem_singleton]
  constructor
  · rintro ⟨hb, hpass⟩
    exact (htest b hb).1 hpass
  · rintro rfl
    exact ⟨ha, (htest b ha).2 rfl⟩

/-! ## Sorting both ways -/

variable {f g : DataFuncs} {R R' : Records}

theorem StrictlyOrders.mono {keys keys' : List Bytes} (h : StrictlyOrders f keys)
    (hsub : keys' ⊆ keys) : StrictlyOrders f keys' :=
  ⟨h.toOrders.mono hsub, fun a ha b hb => h.unique a (hsub ha) b (hsub hb)⟩

/-- With the sides of the comparison changed, sorting gives the reversed list. -/
theorem sorted_reverse (hrank : ∀ a b, g.rank a b = f.rank b a) (h : StrictlyOrders f R.keys)
    (hn : R.keys.Nodup) (hn' : R'.keys.Nodup) (hsame : ∀ k, R.get? k = R'.get? k) :
    Sort.sort (precedes g) R'.entries = (Sort.sort (precedes f) R.entries).reverse := by
  have hg : StrictlyOrders g R.keys := h.reversed hrank
  have hperm : (Sort.sort (precedes g) R.entries).Perm
      (Sort.sort (precedes f) R.entries).reverse :=
    (perm_sorted g R).trans ((perm_sorted f R).symm.trans (List.reverse_perm _).symm)
  have hbackwards : (Sort.sort (precedes f) R.entries).reverse.Pairwise
      fun r r' => g.rank r.1 r'.1 = .lt := by
    refine List.pairwise_reverse.2 ((sorted_ascending h hn).imp fun {r r'} hlt => ?_)
    rw [hrank, hlt]
  rw [← sorted_eq hg hn hn' hsame]
  refine List.Perm.eq_of_pairwise (fun r r' hr hr' hlt hgt => ?_) (sorted_ascending hg hn)
    hbackwards hperm
  have hmem : r.1 ∈ R.keys := List.mem_map_of_mem ((perm_sorted g R).mem_iff.1 hr)
  have hmem' : r'.1 ∈ R.keys :=
    List.mem_map_of_mem ((perm_sorted f R).mem_iff.1 (List.mem_reverse.1 hr'))
  rw [hg.swap r.1 hmem r'.1 hmem', hgt] at hlt
  exact absurd hlt (by decide)

/-! ## Selecting both ways from a key on -/

/-- The record with a key, if there is one. -/
def Records.own (R : Records) (k : Bytes) : List Record := ((R.get? k).map (k, ·)).toList

theorem Records.key_of_mem_own {k : Bytes} {r : Record} (h : r ∈ R.own k) : r.1 = k := by
  unfold Records.own at h
  rw [Option.mem_toList] at h
  obtain ⟨v, -, rfl⟩ := Option.map_eq_some_iff.1 h
  rfl

theorem Records.reverse_own (R : Records) (k : Bytes) : (R.own k).reverse = R.own k := by
  unfold Records.own
  cases R.get? k with
  | none => rfl
  | some v => rfl

theorem Orders.rank_self {keys : List Bytes} {k : Bytes} (h : Orders f keys) (hk : k ∈ keys) :
    f.rank k k = .eq := by
  have hswap := h.swap k hk k hk
  cases hrank : f.rank k k with
  | eq => rfl
  | lt =>
    rw [hrank] at hswap
    exact absurd hswap (by decide)
  | gt =>
    rw [hrank] at hswap
    exact absurd hswap (by decide)

/-- Sorted records are those below a key, the one with that key, and those above it. -/
theorem sorted_split {k : Bytes} (h : StrictlyOrders f (k :: R.keys)) (hn : R.keys.Nodup) :
    ∃ below above, Sort.sort (precedes f) R.entries = below ++ R.own k ++ above ∧
      (∀ r ∈ below, f.rank r.1 k = .lt) ∧ (∀ r ∈ above, f.rank r.1 k = .gt) := by
  have hmem : ∀ r ∈ Sort.sort (precedes f) R.entries, r.1 ∈ k :: R.keys := fun r hr =>
    List.mem_cons_of_mem _ (List.mem_map_of_mem ((perm_sorted f R).mem_iff.1 hr))
  have hk : k ∈ k :: R.keys := List.mem_cons_self
  have hrest : StrictlyOrders f R.keys := h.mono (List.subset_cons_self _ _)
  have hsplit := eq_filter_append (fun r : Record => f.rank r.1 k)
    ((sorted_ascending hrest hn).imp_of_mem fun {r r'} hr hr' hlt => by
      refine ⟨fun hlow => ?_, fun hhigh => ?_⟩
      · exact h.lt_of_lt_of_isLE (hmem r hr) (hmem r' hr') hk hlt (by rw [hlow]; rfl)
      · have habove : f.rank k r.1 = .lt := by
          rw [h.swap k hk r.1 (hmem r hr), hhigh]
          rfl
        have hfar := h.lt_of_lt_of_isLE hk (hmem r hr) (hmem r' hr') habove (by rw [hlt]; rfl)
        rw [h.swap r'.1 (hmem r' hr') k hk, hfar]
        rfl)
  have hsame : (Sort.sort (precedes f) R.entries).filter (fun r => f.rank r.1 k == .eq) =
      R.own k := by
    have hkey : ∀ r ∈ Sort.sort (precedes f) R.entries,
        (f.rank r.1 k == .eq) = true ↔ r.1 = k := by
      intro r hr
      rw [beq_iff_eq]
      refine ⟨h.unique r.1 (hmem r hr) k hk, ?_⟩
      rintro rfl
      exact h.rank_self hk
    unfold Records.own
    cases hv : R.get? k with
    | none =>
      refine List.filter_eq_nil_iff.2 fun r hr heq => ?_
      have hin : (k, r.2) ∈ R.entries := by
        rw [← (hkey r hr).1 heq]
        exact (perm_sorted f R).mem_iff.1 hr
      rw [← Table.get?_eq_some_iff hn, hv] at hin
      exact nomatch hin
    | some v =>
      have hin : (k, v) ∈ R.entries := (Table.get?_eq_some_iff hn).1 hv
      have hnodup : (Sort.sort (precedes f) R.entries).Nodup :=
        (perm_sorted f R).nodup_iff.2 (List.Nodup.of_map Prod.fst hn)
      refine filter_eq_singleton hnodup ((perm_sorted f R).mem_iff.2 hin) fun r hr => ?_
      rw [hkey r hr]
      constructor
      · intro heq
        have hr' : (k, r.2) ∈ R.entries := by
          rw [← heq]
          exact (perm_sorted f R).mem_iff.1 hr
        rw [← Table.get?_eq_some_iff hn, hv] at hr'
        exact Prod.ext heq (Option.some.inj hr').symm
      · rintro rfl
        rfl
  rw [hsame] at hsplit
  exact ⟨_, _, hsplit, fun r hr => beq_iff_eq.1 (List.mem_filter.1 hr).2,
    fun r hr => beq_iff_eq.1 (List.mem_filter.1 hr).2⟩

/-- From a key on, the one comparison selects the record with that key and those above it, and the
other one the record with that key and those below it, backwards. -/
theorem selected_split (hrank : ∀ a b, g.rank a b = f.rank b a) {k : Bytes}
    (h : StrictlyOrders f (k :: R.keys)) (hn : R.keys.Nodup) (hn' : R'.keys.Nodup)
    (hsame : ∀ k, R.get? k = R'.get? k) :
    ∃ below above, selected f R (.null 0) = below ++ R.own k ++ above ∧
      selected f R (.ofBytes k) = R.own k ++ above ∧
      selected g R' (.ofBytes k) = R.own k ++ below.reverse := by
  have hk : k ∈ k :: R.keys := List.mem_cons_self
  have hrest : StrictlyOrders f R.keys := h.mono (List.subset_cons_self _ _)
  obtain ⟨below, above, hsorted, hbelow, habove⟩ := sorted_split h hn
  have hmem : ∀ r ∈ below ++ R.own k ++ above, r.1 ∈ k :: R.keys := fun r hr =>
    List.mem_cons_of_mem _
      (List.mem_map_of_mem ((perm_sorted f R).mem_iff.1 (hsorted.symm ▸ hr)))
  have hown : ∀ r ∈ R.own k, f.rank r.1 k = .eq := by
    intro r hr
    rw [Records.key_of_mem_own hr]
    exact h.rank_self hk
  -- The other comparison has what is below the key above it, and the other way round.
  have hturned : ∀ r ∈ below ++ R.own k ++ above, g.rank r.1 k = (f.rank r.1 k).swap := by
    intro r hr
    rw [hrank, h.swap k hk r.1 (hmem r hr)]
  have hread : (Span.ofBytes k).read = k := List.take_of_length_le (Nat.le_refl _)
  refine ⟨below, above, hsorted, ?_, ?_⟩
  · show (Sort.sort (precedes f) R.entries).filter (reaches f (Span.ofBytes k).read) = _
    rw [hsorted, hread]
    exact filter_ne_lt (fun r : Record => f.rank r.1 k) hbelow hown habove
  · show (Sort.sort (precedes g) R'.entries).filter (reaches g (Span.ofBytes k).read) = _
    rw [sorted_reverse hrank hrest hn hn' hsame, hsorted, hread, List.reverse_append,
      List.reverse_append, R.reverse_own, ← List.append_assoc]
    refine filter_ne_lt (fun r : Record => g.rank r.1 k) (fun r hr => ?_) (fun r hr => ?_)
      fun r hr => ?_
    · have hr := List.mem_reverse.1 hr
      rw [hturned r (by simp [hr]), habove r hr]
      rfl
    · rw [hturned r (by simp [hr]), hown r hr]
      rfl
    · have hr := List.mem_reverse.1 hr
      rw [hturned r (by simp [hr]), hbelow r hr]
      rfl

end FamilyStore.Engine
