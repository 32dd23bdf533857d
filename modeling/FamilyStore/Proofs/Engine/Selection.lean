import FamilyStore.Engine.Cursors
import FamilyStore.Proofs.Engine.Sort.Runs
import FamilyStore.Proofs.Table

/-!
Which records an iteration selects, and in which order.

Without a start key these are all records, whatever the comparison answers. Where the comparison is
a total preorder, they are in its order, and records that compare equal are in the order in which
the table has them; so a start key cuts off a beginning of them.
-/

namespace FamilyStore.Engine

variable {f : DataFuncs} {keys : List Bytes} {place : Bytes → Nat}

/-- On some keys, the comparison of data functions is a total preorder: with the sides changed it
answers the other way round, and being at most another key is transitive. -/
structure Orders (f : DataFuncs) (keys : List Bytes) : Prop where
  swap : ∀ a ∈ keys, ∀ b ∈ keys, f.rank a b = (f.rank b a).swap
  trans : ∀ a ∈ keys, ∀ b ∈ keys, ∀ c ∈ keys,
    (f.rank a b).isLE = true → (f.rank b c).isLE = true → (f.rank a c).isLE = true

instance (f : DataFuncs) (keys : List Bytes) : Decidable (Orders f keys) :=
  decidable_of_iff
    ((∀ a ∈ keys, ∀ b ∈ keys, f.rank a b = (f.rank b a).swap) ∧
      ∀ a ∈ keys, ∀ b ∈ keys, ∀ c ∈ keys,
        (f.rank a b).isLE = true → (f.rank b c).isLE = true → (f.rank a c).isLE = true)
    ⟨fun h => ⟨h.1, h.2⟩, fun h => ⟨h.swap, h.trans⟩⟩

/-- The comparison of data functions for some keys only. -/
def rankOn (f : DataFuncs) (keys : List Bytes) (a b : { k // k ∈ keys }) : Ordering := f.rank a b

/-- One record is to come before another: its key is the lower one, or the keys compare equal and
it has the earlier place. -/
def Before (f : DataFuncs) (place : Bytes → Nat) (r r' : Record) : Prop :=
  f.rank r.1 r'.1 = .lt ∨ f.rank r.1 r'.1 = .eq ∧ place r.1 < place r'.1

theorem Before.isLE {r r' : Record} (h : Before f place r r') : (f.rank r.1 r'.1).isLE = true := by
  rcases h with h | ⟨h, -⟩
  · rw [h]
    rfl
  · rw [h]
    rfl

namespace Orders

theorem transCmp (h : Orders f keys) : Std.TransCmp (rankOn f keys) where
  eq_swap {a b} := h.swap a a.2 b b.2
  isLE_trans {a b c} := h.trans a a.2 b b.2 c c.2

theorem mono {keys' : List Bytes} (h : Orders f keys) (hsub : keys' ⊆ keys) : Orders f keys' where
  swap a ha b hb := h.swap a (hsub ha) b (hsub hb)
  trans a ha b hb c hc := h.trans a (hsub ha) b (hsub hb) c (hsub hc)

section Keys

variable {a b c : Bytes} (h : Orders f keys) (ha : a ∈ keys) (hb : b ∈ keys) (hc : c ∈ keys)
include h ha hb hc

theorem lt_of_lt_of_isLE (hab : f.rank a b = .lt) (hbc : (f.rank b c).isLE = true) :
    f.rank a c = .lt := by
  have htrans := h.transCmp
  have hab' : rankOn f keys ⟨a, ha⟩ ⟨b, hb⟩ = .lt := hab
  have hbc' : (rankOn f keys ⟨b, hb⟩ ⟨c, hc⟩).isLE = true := hbc
  have hac : rankOn f keys ⟨a, ha⟩ ⟨c, hc⟩ = .lt := Std.TransCmp.lt_of_lt_of_isLE hab' hbc'
  exact hac

theorem lt_of_isLE_of_lt (hab : (f.rank a b).isLE = true) (hbc : f.rank b c = .lt) :
    f.rank a c = .lt := by
  have htrans := h.transCmp
  have hab' : (rankOn f keys ⟨a, ha⟩ ⟨b, hb⟩).isLE = true := hab
  have hbc' : rankOn f keys ⟨b, hb⟩ ⟨c, hc⟩ = .lt := hbc
  have hac : rankOn f keys ⟨a, ha⟩ ⟨c, hc⟩ = .lt := Std.TransCmp.lt_of_isLE_of_lt hab' hbc'
  exact hac

theorem eq_trans (hab : f.rank a b = .eq) (hbc : f.rank b c = .eq) : f.rank a c = .eq := by
  have htrans := h.transCmp
  have hab' : rankOn f keys ⟨a, ha⟩ ⟨b, hb⟩ = .eq := hab
  have hbc' : rankOn f keys ⟨b, hb⟩ ⟨c, hc⟩ = .eq := hbc
  have hac : rankOn f keys ⟨a, ha⟩ ⟨c, hc⟩ = .eq := Std.TransCmp.eq_trans hab' hbc'
  exact hac

end Keys

variable {r r' r'' : Record}

theorem before_irrefl (h : Orders f keys) (hr : r.1 ∈ keys) : ¬ Before f place r r := by
  have hself := h.swap r.1 hr r.1 hr
  rintro (hlt | ⟨-, hplace⟩)
  · rw [hlt] at hself
    exact absurd hself (by decide)
  · exact Nat.lt_irrefl _ hplace

theorem before_trans (h : Orders f keys) (hr : r.1 ∈ keys) (hr' : r'.1 ∈ keys)
    (hr'' : r''.1 ∈ keys) (hb : Before f place r r') (hb' : Before f place r' r'') :
    Before f place r r'' := by
  rcases hb with hlt | ⟨heq, hplace⟩
  · exact .inl (h.lt_of_lt_of_isLE hr hr' hr'' hlt hb'.isLE)
  · have hle : (f.rank r.1 r'.1).isLE = true := by rw [heq]; rfl
    rcases hb' with hlt | ⟨heq', hplace'⟩
    · exact .inl (h.lt_of_isLE_of_lt hr hr' hr'' hle hlt)
    · exact .inr ⟨h.eq_trans hr hr' hr'' heq heq', Nat.lt_trans hplace hplace'⟩

/-- The record that is first stays first, unless the other one has the lower key. -/
theorem decides (h : Orders f keys) (hr : r.1 ∈ keys) (hr' : r'.1 ∈ keys)
    (hplace : place r.1 < place r'.1) : Sort.Decides (precedes f) (Before f place) r r' := by
  unfold Sort.Decides precedes
  refine ⟨fun hlt => .inl (beq_iff_eq.1 hlt), fun hnot => ?_⟩
  have hswap := h.swap r.1 hr r'.1 hr'
  unfold Before
  cases hrank : f.rank r'.1 r.1 with
  | lt =>
    rw [hrank] at hnot
    exact absurd hnot (by decide)
  | eq =>
    rw [hrank] at hswap
    exact .inr ⟨hswap, hplace⟩
  | gt =>
    rw [hrank] at hswap
    exact .inl hswap

end Orders

/-! ## All records -/

/-- Among records with some keys, one comes before another. -/
def BeforeOn (f : DataFuncs) (place : Bytes → Nat) (keys : List Bytes) (r r' : Record) : Prop :=
  r.1 ∈ keys ∧ r'.1 ∈ keys ∧ Before f place r r'

theorem Orders.isStrictOrder (h : Orders f keys) :
    IsStrictOrder Record (BeforeOn f place keys) where
  irrefl _ := fun ⟨hr, _, hb⟩ => h.before_irrefl hr hb
  trans _ _ _ := fun ⟨hr, hr', hb⟩ ⟨_, hr'', hb'⟩ =>
    ⟨hr, hr'', h.before_trans hr hr' hr'' hb hb'⟩

theorem selected_of_isNull {start : Span} (h : start.isNull = true) (R : Records) :
    selected f R start = Sort.sort (precedes f) R.entries := by
  unfold selected
  exact if_pos h

/-- Sorting by any comparison keeps each record. -/
theorem perm_sorted (f : DataFuncs) (R : Records) :
    (Sort.sort (precedes f) R.entries).Perm R.entries :=
  Sort.sort_perm _ _

/-- Sorted records come one before the other, where the table has them in the order of places. -/
theorem sorted_pairwise {R : Records} (h : Orders f R.keys)
    (hplace : R.keys.Pairwise fun k k' => place k < place k') :
    (Sort.sort (precedes f) R.entries).Pairwise (Before f place) := by
  have hstrict : IsStrictOrder Record (BeforeOn f place R.keys) := h.isStrictOrder
  have hmem : ∀ r ∈ R.entries, r.1 ∈ R.keys := fun r hr => List.mem_map_of_mem hr
  have hentries : R.entries.Pairwise fun r r' => place r.1 < place r'.1 := by
    unfold Table.keys at hplace
    rw [List.pairwise_map] at hplace
    exact hplace
  have hdecides : R.entries.Pairwise
      (Sort.Decides (precedes f) (BeforeOn f place R.keys)) :=
    hentries.imp_of_mem fun {r r'} hr hr' hlt => by
      obtain ⟨hbefore, hafter⟩ := h.decides (hmem r hr) (hmem r' hr') hlt
      exact ⟨fun hp => ⟨hmem r' hr', hmem r hr, hbefore hp⟩,
        fun hn => ⟨hmem r hr, hmem r' hr', hafter hn⟩⟩
  exact (Sort.sort_pairwise hdecides).imp fun hb => hb.2.2

/-! ## Records from a start key on -/

/-- Where a test holds for a beginning only, leaving out what passes it drops that beginning. -/
theorem filter_eq_dropWhile {α : Type} {test : α → Bool} {xs : List α}
    (h : xs.Pairwise fun a b => test b = true → test a = true) :
    xs.filter (fun a => !test a) = xs.dropWhile test := by
  induction xs with
  | nil => rfl
  | cons a xs ih =>
    obtain ⟨hhead, htail⟩ := List.pairwise_cons.1 h
    cases ha : test a with
    | true => rw [List.filter_cons_of_neg (by simp [ha]), List.dropWhile_cons_of_pos ha, ih htail]
    | false =>
      have hall : ∀ b ∈ a :: xs, (!test b) = true := by
        intro b hb
        cases htest : test b with
        | false => rfl
        | true =>
          rcases List.mem_cons.1 hb with rfl | hb
          · exact absurd (htest.symm.trans ha) (by decide)
          · exact absurd ((hhead b hb htest).symm.trans ha) (by decide)
      rw [List.filter_eq_self.2 hall, List.dropWhile_cons_of_neg (by simp [ha])]

/-- A start key cuts off the records below it, which are a beginning of all records. -/
theorem selected_of_start {R : Records} {start : Span} (hstart : start.isNull = false)
    (h : Orders f (start.read :: R.keys))
    (hplace : R.keys.Pairwise fun k k' => place k < place k') :
    selected f R start = (Sort.sort (precedes f) R.entries).dropWhile fun r =>
      f.rank r.1 start.read == .lt := by
  have hsorted := sorted_pairwise (h.mono (List.subset_cons_self _ _)) hplace
  have hmem : ∀ r ∈ Sort.sort (precedes f) R.entries, r.1 ∈ start.read :: R.keys :=
    fun r hr => List.mem_cons_of_mem _ (List.mem_map_of_mem ((perm_sorted f R).mem_iff.1 hr))
  have hstart' : start.read ∈ start.read :: R.keys := List.mem_cons_self
  unfold selected
  dsimp only
  rw [if_neg (by rw [hstart]; exact Bool.false_ne_true)]
  refine filter_eq_dropWhile (hsorted.imp_of_mem fun {r r'} hr hr' hb hlt => ?_)
  have hlow : f.rank r.1 start.read = .lt :=
    h.lt_of_isLE_of_lt (hmem r hr) (hmem r' hr') hstart' hb.isLE (beq_iff_eq.1 hlt)
  exact beq_iff_eq.2 hlow

end FamilyStore.Engine
