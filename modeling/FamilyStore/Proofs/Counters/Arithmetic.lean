import FamilyStore.DataFuncs.Builtin
import FamilyStore.Proofs.Bytes
import FamilyStore.Proofs.Points.Maps
import Mathlib.Algebra.Order.Ring.Int

/-!
Counters as numbers of 64 bits.

Byte strings of the right length and numbers below the modulus stand for each other, and adding
counters adds the numbers up to the modulus. A counter that is absent counts as zero.
-/

namespace FamilyStore

namespace Counter

variable {bs delta : Bytes} {found : Option Bytes} {n : Nat}

theorem modulus_eq : (modulus : Int) = 2 ^ 64 := by decide

/-- A byte string of any other length is no counter. -/
theorem decode_of_ne (h : bs.length ≠ width) :
    decode bs = .error (.argument (.counterLength bs.length)) := by
  unfold decode
  exact if_neg h

theorem length_of_decode (h : decode bs = .ok n) : bs.length = width := by
  by_cases hw : bs.length = width
  · exact hw
  · exact absurd (h.symm.trans (decode_of_ne hw)) (by simp)

/-- Eight bytes are the counter of the number that they stand for. -/
theorem exists_decode (h : bs.length = width) :
    ∃ n, decode bs = .ok n ∧ n < modulus ∧ encode n = bs := by
  have hlt : bs.toNatLittle < modulus := by
    have hbound := Bytes.toNatLittle_lt bs
    rw [h] at hbound
    exact hbound
  refine ⟨bs.toNatLittle, if_pos h, hlt, ?_⟩
  have hsame : ((bs.toNatLittle : Int) % modulus).toNat = bs.toNatLittle := by
    rw [Int.emod_eq_of_lt (by omega) (by omega), Int.toNat_natCast]
  unfold encode
  rw [hsame, ← h]
  exact Bytes.ofNatLittle_toNatLittle bs

/-- The number in the value of a key, which counts as zero where there is no value. -/
def reading (found : Option Bytes) : Except Failure Nat :=
  match found with
  | none => .ok 0
  | some bs => decode bs

/-- What is absent or has eight bytes can be read. -/
theorem exists_reading (h : ∀ bs, found = some bs → bs.length = width) :
    ∃ n, reading found = .ok n := by
  cases found with
  | none => exact ⟨0, rfl⟩
  | some bs =>
    obtain ⟨n, hn, -⟩ := exists_decode (h bs rfl)
    exact ⟨n, hn⟩

theorem lt_of_reading (h : reading found = .ok n) : n < modulus := by
  cases found with
  | none =>
    obtain rfl := Except.ok.inj h
    decide
  | some bs =>
    have hbs : decode bs = .ok n := h
    obtain ⟨m, hm, hlt, -⟩ := exists_decode (length_of_decode hbs)
    obtain rfl := Except.ok.inj (hm.symm.trans hbs)
    exact hlt

/-- Adding a counter adds the numbers. -/
theorem add_of_reading (hn : reading found = .ok n) {d : Nat} (hd : decode delta = .ok d) :
    add found delta = .ok (encode (n + d : Nat)) := by
  unfold add
  rw [hd]
  cases found with
  | none =>
    obtain rfl := Except.ok.inj hn
    rfl
  | some bs =>
    have hbase : decode bs = .ok n := hn
    dsimp only
    rw [hbase]
    rfl

/-- A delta of any other length is not added. -/
theorem add_of_ne (hn : reading found = .ok n) (hd : delta.length ≠ width) :
    add found delta = .error (.argument (.counterLength delta.length)) := by
  unfold add
  rw [decode_of_ne hd]
  cases found with
  | none => rfl
  | some bs =>
    have hbase : decode bs = .ok n := hn
    dsimp only
    rw [hbase]
    rfl

/-! ## Sums -/

theorem toNatLittle_encode (d : Int) : ((encode d).toNatLittle : Int) = d % modulus := by
  have hdecode := decode_encode d
  unfold decode at hdecode
  rw [if_pos (encode_length d)] at hdecode
  rw [Except.ok.inj hdecode, Int.toNat_of_nonneg (Int.emod_nonneg _ (by decide))]

/-- The deltas as they are written add up to the sum of the deltas, up to the modulus. -/
theorem sum_encoded (ds : List Int) :
    (((ds.map encode).map Bytes.toNatLittle).sum : Int) % modulus = ds.sum % modulus := by
  induction ds with
  | nil => rfl
  | cons d ds ih =>
    rw [List.map_cons, List.map_cons, List.sum_cons, List.sum_cons, Int.natCast_add,
      toNatLittle_encode, Int.add_emod, ih, Int.emod_emod, ← Int.add_emod]

theorem add_sum_mod (n : Nat) (ds : List Int) :
    (n + ((ds.map encode).map Bytes.toNatLittle).sum) % modulus =
      ((n + ds.sum) % 2 ^ 64).toNat := by
  have hsum : ((n + ((ds.map encode).map Bytes.toNatLittle).sum : Nat) : Int) % modulus =
      (n + ds.sum) % modulus := by
    rw [Int.natCast_add, Int.add_emod, sum_encoded, ← Int.add_emod]
  rw [← modulus_eq, ← hsum]
  rfl

end Counter

namespace DataFuncs

/-- Updates of counters add, whether there is a value or not. -/
theorem merged_counter (old : Option Bytes) (key delta : Bytes) :
    (Builtin.funcs .counter).merged old key delta =
      Attempt.ofExcept (Counter.add old delta) := by
  have hadd : ∀ old, (Builtin.counter.merge old delta >>= Returned.toBytes) =
      Attempt.ofExcept (Counter.add old delta) := fun old => by
    unfold Builtin.merge
    cases Counter.add old delta with
    | error failure => rfl
    | ok bs => rfl
  cases old with
  | none => exact hadd none
  | some value => exact hadd (some value)

end DataFuncs

end FamilyStore
