import FamilyStore.Text.Decimal

/-!
Decimal text that is read again.

Writing uses ASCII digits and a minus sign. Reading takes those, each digit for its value, and so
gives back the number that was written, as long as the digits are not too many. Whatever is read
has few enough digits to be written.
-/

namespace FamilyStore.Text

/-! ## Digits -/

theorem toNat_of_isDigit {c : Char} (h : c.isDigit = true) : 48 ≤ c.toNat ∧ c.toNat < 58 := by
  simp only [Char.isDigit, ge_iff_le, Bool.and_eq_true, decide_eq_true_eq, UInt32.le_iff_toNat_le]
    at h
  have h0 : '0'.val.toNat = 48 := rfl
  have h9 : '9'.val.toNat = 57 := rfl
  have hc : c.val.toNat = c.toNat := rfl
  omega

/-- An ASCII digit is read for its value. -/
theorem digitOrMark?_of_isDigit {c : Char} (h : c.isDigit = true) :
    digitOrMark? c = some (some (c.toNat - '0'.toNat)) := by
  obtain ⟨hlow, hhigh⟩ := toNat_of_isDigit h
  have hmark : c ≠ '_' := by
    rintro rfl
    exact absurd hhigh (by decide)
  have hzero : digitZeros.find? (fun z => z ≤ c.toNat && c.toNat < z + 10) = some 48 := by
    refine List.find?_cons_of_pos ?_
    simp only [Bool.and_eq_true, decide_eq_true_eq]
    omega
  rw [digitOrMark?, if_neg hmark, digitValue?, hzero]
  rfl

theorem readDigits_of_isDigit {cs : List Char} (h : ∀ c ∈ cs, c.isDigit = true)
    (read value : Nat) :
    readDigits read value true cs = some (read + cs.length, Nat.ofDigitChars 10 cs value) := by
  induction cs generalizing read value with
  | nil => rfl
  | cons c cs ih =>
    simp only [readDigits, digitOrMark?_of_isDigit (h c List.mem_cons_self)]
    rw [ih (fun d hd => h d (List.mem_cons_of_mem _ hd)), Nat.ofDigitChars_cons,
      List.length_cons]
    congr 2
    omega

theorem isDigit_of_mem_natDigits {n : Nat} {c : Char} (h : c ∈ natDigits n) :
    c.isDigit = true :=
  Nat.isDigit_of_mem_toDigits (by decide) (by decide) h

theorem readDigits_natDigits (n : Nat) :
    readDigits 0 0 false (natDigits n) = some ((natDigits n).length, n) := by
  have hdigit : ∀ c ∈ natDigits n, c.isDigit = true := fun _ => isDigit_of_mem_natDigits
  have hvalue : Nat.ofDigitChars 10 (natDigits n) 0 = n :=
    Nat.ofDigitChars_toDigits (by decide) (by decide)
  cases hs : natDigits n with
  | nil => exact absurd hs Nat.toDigits_ne_nil
  | cons c cs =>
    rw [hs] at hdigit hvalue
    -- The first digit is read when no underscore may come yet; the others are not.
    have htrue : readDigits 0 0 false (c :: cs) = readDigits 0 0 true (c :: cs) := by
      simp only [readDigits, digitOrMark?_of_isDigit (hdigit c List.mem_cons_self)]
    rw [htrue, readDigits_of_isDigit hdigit, hvalue, Nat.zero_add]

/-! ## Integers -/

/-- The characters of decimal text. -/
theorem of_mem_intDigits {n : Int} {c : Char} (h : c ∈ intDigits n) :
    c = '-' ∨ c.isDigit = true := by
  unfold intDigits at h
  split at h
  · exact (List.mem_cons.1 h).imp id isDigit_of_mem_natDigits
  · exact .inr (isDigit_of_mem_natDigits h)

theorem intDigits_ne_nil (n : Int) : intDigits n ≠ [] := by
  unfold intDigits
  split
  · simp
  · exact Nat.toDigits_ne_nil

theorem isWritable_iff_lt {n : Int} :
    isWritable n = true ↔ n.natAbs < Nat.pow 10 digitLimit := by
  rw [isWritable, decide_eq_true_eq]

/-- An integer can be written exactly when it has few enough digits. -/
theorem isWritable_iff_length {n : Int} :
    isWritable n = true ↔ (natDigits n.natAbs).length ≤ digitLimit := by
  have hlimit : 0 < digitLimit := by decide
  rw [isWritable_iff_lt, Nat.pow_eq, natDigits, Nat.length_toDigits_le_iff (by decide) hlimit]

theorem dropWhile_eq_self {p : Char → Bool} {s : List Char} (h : ∀ c ∈ s, p c = false) :
    s.dropWhile p = s := by
  cases s with
  | nil => rfl
  | cons c s => rw [List.dropWhile_cons_of_neg (by simp [h c List.mem_cons_self])]

theorem trimNumber_intDigits (n : Int) : trimNumber (intDigits n) = intDigits n := by
  have hblank : ∀ c ∈ intDigits n, isNumberBlank c = false := by
    intro c hc
    rcases of_mem_intDigits hc with rfl | hdigit
    · decide
    · have hbounds := toNat_of_isDigit hdigit
      simp [isNumberBlank, isBlank, CodeRanges.has, blankRanges]
      omega
  rw [trimNumber, dropWhile_eq_self hblank,
    dropWhile_eq_self fun c hc => hblank c (List.mem_reverse.1 hc), List.reverse_reverse]

/-- Only a number below zero is written with a sign. -/
theorem splitSign_intDigits (n : Int) :
    splitSign (intDigits n) = (decide (n < 0), natDigits n.natAbs) := by
  unfold intDigits
  split
  · rename_i hneg
    simp [splitSign, hneg]
  · rename_i hpos
    have hsign : ∀ c ∈ natDigits n.natAbs, c ≠ '-' ∧ c ≠ '+' := by
      intro c hc
      have hdigit := isDigit_of_mem_natDigits hc
      exact ⟨fun h => by simp [h] at hdigit, fun h => by simp [h] at hdigit⟩
    rw [decide_eq_false hpos]
    cases hs : natDigits n.natAbs with
    | nil => rfl
    | cons c cs =>
      obtain ⟨hminus, hplus⟩ := hsign c (hs ▸ List.mem_cons_self)
      unfold splitSign
      split <;> simp_all

/-- What is written is read as the same number. -/
theorem readInt?_intDigits {n : Int} (h : isWritable n = true) :
    readInt? (intDigits n) = some n := by
  have hcount := isWritable_iff_length.1 h
  simp only [readInt?, trimNumber_intDigits, splitSign_intDigits, readDigits_natDigits, hcount,
    if_true, decide_eq_true_eq, Option.some.injEq]
  split <;> omega

/-! ## What can be read can be written -/

theorem lt_of_readDigits {read value : Nat} {afterDigit : Bool} {cs : List Char} {count n : Nat}
    (h : readDigits read value afterDigit cs = some (count, n)) (hv : value < Nat.pow 10 read) :
    n < Nat.pow 10 count := by
  induction cs generalizing read value afterDigit with
  | nil =>
    cases afterDigit <;> simp [readDigits] at h
    exact h.1 ▸ h.2 ▸ hv
  | cons c cs ih =>
    simp only [readDigits] at h
    split at h
    · exact absurd h (by simp)
    · split at h
      · exact ih h hv
      · exact absurd h (by simp)
    · rename_i d hmark
      refine ih h ?_
      have hd : d < 10 := by
        unfold digitOrMark? at hmark
        split at hmark
        · simp at hmark
        · obtain ⟨_, hvalue, hsome⟩ := Option.map_eq_some_iff.1 hmark
          exact Option.some.inj hsome ▸ digitValue?_lt hvalue
      have hpow : Nat.pow 10 (read + 1) = Nat.pow 10 read * 10 := rfl
      omega

theorem isWritable_of_readInt? {s : List Char} {n : Int} (h : readInt? s = some n) :
    isWritable n = true := by
  simp only [readInt?] at h
  split at h
  · rename_i count value hread
    split at h
    · rename_i hcount
      have habs : n.natAbs = value := by
        simp only [Option.some.injEq] at h
        split at h <;> omega
      have hpow : ∀ limit, count ≤ limit → Nat.pow 10 count ≤ Nat.pow 10 limit :=
        fun limit hle => Nat.pow_le_pow_right (by decide) hle
      rw [isWritable_iff_lt, habs]
      exact Nat.lt_of_lt_of_le (lt_of_readDigits hread (by decide)) (hpow digitLimit hcount)
    · exact absurd h (by simp)
  · exact absurd h (by simp)

end FamilyStore.Text
