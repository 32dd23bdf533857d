import FamilyStore.Text.Utf8
import Mathlib.Data.List.Basic

/-!
UTF-8 texts, whole and cut off.

A text is read again as it was written. What is left of a text when only so many of its bytes are
kept is read as far as whole characters go. If the cut falls between two characters, that is all
there is; else the bytes of the one character that was cut in two are the only flaw, an unexpected
end.
-/

namespace FamilyStore.Text.Utf8

/-! ## Characters -/

/-- Some bytes are the UTF-8 form of a character: a first byte, and up to three bytes that continue
it. -/
inductive Encodes : Char → Bytes → Prop
  | one {c : Char} {a : UInt8} (ha : a < 0x80) (hc : Char.ofNat a.toNat = c) : Encodes c [a]
  | two {c : Char} {a b : UInt8} (ha : 0xC2 ≤ a) (ha' : a < 0xE0) (hb : isContinuation b = true)
      (hc : Char.ofNat (a.toNat % 32 * 64 + payload b) = c) : Encodes c [a, b]
  | three {c : Char} {a b d : UInt8} (ha : 0xE0 ≤ a) (ha' : a < 0xF0) (hb : mayFollow a b = true)
      (hd : isContinuation d = true)
      (hc : Char.ofNat (a.toNat % 16 * 4096 + payload b * 64 + payload d) = c) :
      Encodes c [a, b, d]
  | four {c : Char} {a b d e : UInt8} (ha : 0xF0 ≤ a) (ha' : a < 0xF5) (hb : mayFollow a b = true)
      (hd : isContinuation d = true) (he : isContinuation e = true)
      (hc : Char.ofNat (a.toNat % 8 * 262144 + payload b * 4096 + payload d * 64 + payload e) = c) :
      Encodes c [a, b, d, e]

theorem isContinuation_iff (b : UInt8) :
    isContinuation b = true ↔ 128 ≤ b.toNat ∧ b.toNat < 192 := by
  simp [isContinuation, UInt8.le_iff_toNat_le, UInt8.lt_iff_toNat_lt]

/-- The four first bytes after which not every continuation byte may stand. -/
theorem mayFollow_iff (a b : UInt8) :
    mayFollow a b = true ↔ 128 ≤ b.toNat ∧ b.toNat < 192 ∧
      (a.toNat = 0xE0 → 160 ≤ b.toNat) ∧ (a.toNat = 0xED → b.toNat < 160) ∧
      (a.toNat = 0xF0 → 144 ≤ b.toNat) ∧ (a.toNat = 0xF4 → b.toNat < 144) := by
  unfold mayFollow
  simp only [← UInt8.toNat_inj, UInt8.reduceToNat]
  split_ifs <;>
    simp [isContinuation, UInt8.le_iff_toNat_le, UInt8.lt_iff_toNat_lt] <;> omega

theorem toNat_ofNat {n : Nat} (h : n < 256) : (UInt8.ofNat n).toNat = n :=
  UInt8.toNat_ofNat_of_lt' h

/-- The byte that carries six bits continues a character. -/
theorem isContinuation_ofNat (n : Nat) : isContinuation (UInt8.ofNat (n % 64 + 128)) = true := by
  rw [isContinuation_iff, toNat_ofNat (by omega)]
  omega

theorem payload_ofNat (n : Nat) : payload (UInt8.ofNat (n % 64 + 128)) = n % 64 := by
  rw [payload, toNat_ofNat (by omega)]
  omega

theorem le_ofNat {k : UInt8} {n : Nat} (hn : n < 256) (h : k.toNat ≤ n) : k ≤ UInt8.ofNat n := by
  rwa [UInt8.le_iff_toNat_le, toNat_ofNat hn]

theorem ofNat_lt {k : UInt8} {n : Nat} (hn : n < 256) (h : n < k.toNat) : UInt8.ofNat n < k := by
  rwa [UInt8.lt_iff_toNat_lt, toNat_ofNat hn]

/-- Writing a character gives its UTF-8 form. No surrogate is a character, and none is beyond the
last code point, which is why its second byte may follow its first one. -/
theorem encodes (c : Char) : Encodes c (String.utf8EncodeChar c) := by
  have hvalid : c.val.toNat < 0xD800 ∨ 0xDFFF < c.val.toNat ∧ c.val.toNat < 0x110000 := c.valid
  have hchar : Char.ofNat c.val.toNat = c := Char.ofNat_toNat c
  unfold String.utf8EncodeChar
  generalize c.val.toNat = v at hvalid hchar
  dsimp only
  split_ifs with h1 h2 h3
  · refine .one (ofNat_lt (by omega) (Nat.lt_succ_of_le h1)) ?_
    rw [toNat_ofNat (by omega), hchar]
  · refine .two (le_ofNat (by omega) (show 194 ≤ _ by omega))
      (ofNat_lt (by omega) (show _ < 224 by omega)) (isContinuation_ofNat _) ?_
    rw [toNat_ofNat (by omega), payload_ofNat, ← hchar]
    congr 1
    omega
  · refine .three (le_ofNat (by omega) (show 224 ≤ _ by omega))
      (ofNat_lt (by omega) (show _ < 240 by omega)) ?_ (isContinuation_ofNat _) ?_
    · rw [mayFollow_iff, toNat_ofNat (by omega), toNat_ofNat (by omega)]
      omega
    · rw [toNat_ofNat (by omega), payload_ofNat, payload_ofNat, ← hchar]
      congr 1
      omega
  · refine .four (le_ofNat (by omega) (show 240 ≤ _ by omega))
      (ofNat_lt (by omega) (show _ < 245 by omega)) ?_ (isContinuation_ofNat _)
      (isContinuation_ofNat _) ?_
    · rw [mayFollow_iff, toNat_ofNat (by omega), toNat_ofNat (by omega)]
      omega
    · rw [toNat_ofNat (by omega), payload_ofNat, payload_ofNat, payload_ofNat, ← hchar]
      congr 1
      omega

/-! ## First bytes -/

section

variable {a : UInt8}

theorem lead_of_lt_E0 (h : 0xC2 ≤ a) (h' : a < 0xE0) (bs : Bytes) : lead a bs = leadTwo a bs := by
  have h₁ : ¬ a < 0x80 := UInt8.not_lt.2 (UInt8.le_trans (by decide) h)
  rw [lead, if_neg h₁, if_neg (UInt8.not_lt.2 h), if_pos h']

theorem lead_of_lt_F0 (h : 0xE0 ≤ a) (h' : a < 0xF0) (bs : Bytes) :
    lead a bs = leadThree a bs := by
  have h₁ : ¬ a < 0x80 := UInt8.not_lt.2 (UInt8.le_trans (by decide) h)
  have h₂ : ¬ a < 0xC2 := UInt8.not_lt.2 (UInt8.le_trans (by decide) h)
  rw [lead, if_neg h₁, if_neg h₂, if_neg (UInt8.not_lt.2 h), if_pos h']

theorem lead_of_lt_F5 (h : 0xF0 ≤ a) (h' : a < 0xF5) (bs : Bytes) :
    lead a bs = leadFour a bs := by
  have h₁ : ¬ a < 0x80 := UInt8.not_lt.2 (UInt8.le_trans (by decide) h)
  have h₂ : ¬ a < 0xC2 := UInt8.not_lt.2 (UInt8.le_trans (by decide) h)
  have h₃ : ¬ a < 0xE0 := UInt8.not_lt.2 (UInt8.le_trans (by decide) h)
  rw [lead, if_neg h₁, if_neg h₂, if_neg h₃, if_neg (UInt8.not_lt.2 h), if_pos h']

end

namespace Encodes

variable {c : Char} {a : UInt8} {bs : Bytes}

/-- A character is read whatever stands behind it. -/
theorem lead_append (h : Encodes c (a :: bs)) (rest : Bytes) :
    lead a (bs ++ rest) = .char c (bs.length + 1) := by
  cases h with
  | one ha hc =>
    rw [lead, if_pos ha, hc]
    rfl
  | two ha ha' hb hc =>
    rw [lead_of_lt_E0 ha ha']
    simp [leadTwo, hb, hc]
  | three ha ha' hb hd hc =>
    rw [lead_of_lt_F0 ha ha']
    simp [leadThree, hb, hd, hc]
  | four ha ha' hb hd he hc =>
    rw [lead_of_lt_F5 ha ha']
    simp [leadFour, hb, hd, he, hc]

/-- A character that is cut off is no other character: reading it hits the end of the bytes. -/
theorem lead_take (h : Encodes c (a :: bs)) {n : Nat} (hn : n < bs.length) :
    lead a (bs.take n) = .fault .unexpectedEnd (n + 1) := by
  cases h with
  | one => exact absurd hn (Nat.not_lt_zero n)
  | two ha ha' hb hc =>
    obtain rfl : n = 0 := Nat.lt_one_iff.1 hn
    rw [lead_of_lt_E0 ha ha']
    rfl
  | three ha ha' hb hd hc =>
    rw [lead_of_lt_F0 ha ha']
    match n, hn with
    | 0, _ => rfl
    | 1, _ => simp [leadThree, hb]
  | four ha ha' hb hd he hc =>
    rw [lead_of_lt_F5 ha ha']
    match n, hn with
    | 0, _ => rfl
    | 1, _ => simp [leadFour, hb]
    | 2, _ => simp [leadFour, hb, hd]

theorem exists_cons {bs : Bytes} (h : Encodes c bs) : ∃ a rest, bs = a :: rest := by
  cases h <;> exact ⟨_, _, rfl⟩

/-- The zero byte stands for the zero character and for nothing else. -/
theorem zero_not_mem {bs : Bytes} (h : Encodes c bs) (hc : c ≠ '\x00') : 0 ∉ bs := by
  have hlow : ∀ {k b : UInt8}, 0 < k → k ≤ b → (0 : UInt8) ≠ b := fun hk hb h0 =>
    absurd (UInt8.lt_of_lt_of_le hk hb) (by rw [← h0]; decide)
  have hcont : ∀ {b}, isContinuation b = true → (0 : UInt8) ≠ b := fun hb h0 =>
    absurd hb (by rw [← h0]; decide)
  have hfollow : ∀ {a b}, mayFollow a b = true → (0 : UInt8) ≠ b := fun hb h0 =>
    absurd ((mayFollow_iff _ _).1 hb).1 (by rw [← h0]; decide)
  cases h with
  | one ha hchar =>
    refine fun hmem => hc ?_
    rw [← hchar, ← List.mem_singleton.1 hmem]
    rfl
  | two ha ha' hb => simp [hlow (by decide) ha, hcont hb]
  | three ha ha' hb hd => simp [hlow (by decide) ha, hfollow hb, hcont hd]
  | four ha ha' hb hd he => simp [hlow (by decide) ha, hfollow hb, hcont hd, hcont he]

end Encodes

/-! ## Reading what was written -/

theorem readFrom_skip (skipped rest : Bytes) (position : Nat) :
    readFrom position skipped.length (skipped ++ rest) =
      readFrom (position + skipped.length) 0 rest := by
  induction skipped generalizing position with
  | nil => rfl
  | cons b bs ih =>
    rw [List.length_cons, List.cons_append, readFrom, ih]
    congr 1
    omega

/-- Reading goes on behind a character. -/
theorem readFrom_encodeChar (c : Char) (rest : Bytes) (position : Nat) :
    readFrom position 0 (String.utf8EncodeChar c ++ rest) =
      (c :: (readFrom (position + c.utf8Size) 0 rest).1,
        (readFrom (position + c.utf8Size) 0 rest).2) := by
  have h := encodes c
  have hlength := String.length_utf8EncodeChar c
  obtain ⟨a, bs, he⟩ := h.exists_cons
  rw [he] at h hlength ⊢
  rw [List.cons_append, readFrom, h.lead_append]
  dsimp only
  rw [Nat.add_sub_cancel, readFrom_skip, ← hlength, List.length_cons, Nat.add_assoc,
    Nat.add_comm 1]

/-- Reading goes on behind a text. -/
theorem readFrom_encode (s : List Char) (rest : Bytes) (position : Nat) :
    readFrom position 0 (encode s ++ rest) =
      (s ++ (readFrom (position + (encode s).length) 0 rest).1,
        (readFrom (position + (encode s).length) 0 rest).2) := by
  induction s generalizing position with
  | nil => rfl
  | cons c s ih =>
    rw [encode_cons, List.append_assoc, readFrom_encodeChar, ih, List.length_append,
      String.length_utf8EncodeChar, Nat.add_assoc]
    rfl

theorem read_encode (s : List Char) : read (encode s) = (s, none) := by
  have h := readFrom_encode s [] 0
  rw [List.append_nil] at h
  rw [read, h]
  simp [readFrom]

theorem decode_encode (s : List Char) : decode (encode s) = .ok s := by
  rw [decode, read_encode]

theorem encode_begins {p s : List Char} (h : p <+: s) : encode p <+: encode s := by
  obtain ⟨rest, rfl⟩ := h
  rw [encode_append]
  exact List.prefix_append _ _

/-- Up to the first zero byte stands what comes before the first zero character. -/
theorem takeWhile_encode (s : List Char) :
    (encode s).takeWhile (· ≠ 0) = encode (s.takeWhile (· ≠ '\x00')) := by
  induction s with
  | nil => rfl
  | cons c s ih =>
    rw [encode_cons]
    by_cases hc : c = '\x00'
    · subst hc
      rw [List.takeWhile_cons_of_neg (by simp)]
      rfl
    · have hzero := (encodes c).zero_not_mem hc
      rw [List.takeWhile_append_of_pos, ih, List.takeWhile_cons_of_pos (by simpa using hc),
        encode_cons]
      exact fun b hb => decide_eq_true fun h0 => hzero (h0 ▸ hb)

/-! ## Texts that are cut off -/

/-- The longest beginning of a text that fits into so many bytes. -/
def fitting : Nat → List Char → List Char
  | _, [] => []
  | n, c :: s => if c.utf8Size ≤ n then c :: fitting (n - c.utf8Size) s else []

theorem fitting_begins (n : Nat) (s : List Char) : fitting n s <+: s := by
  induction s generalizing n with
  | nil => exact List.nil_prefix
  | cons c s ih =>
    rw [fitting]
    split
    · exact List.cons_prefix_cons.2 ⟨rfl, ih _⟩
    · exact List.nil_prefix

/-- What is cut off of a text is the part that fits, and perhaps the first bytes of the character
behind that. -/
theorem exists_take_encode (n : Nat) (s : List Char) :
    ∃ piece, (encode s).take n = encode (fitting n s) ++ piece ∧
      (piece = [] ∨ ∃ c k, 0 < k ∧ k < c.utf8Size ∧ (encode (fitting n s)).length + k = n ∧
        piece = (String.utf8EncodeChar c).take k) := by
  induction s generalizing n with
  | nil => exact ⟨[], by simp [encode_nil, fitting], .inl rfl⟩
  | cons c s ih =>
    have hlength := String.length_utf8EncodeChar c
    rw [encode_cons, fitting, List.take_append, hlength]
    split
    · next hfits =>
      obtain ⟨piece, htake, hpiece⟩ := ih (n - c.utf8Size)
      refine ⟨piece, ?_, hpiece.imp_right ?_⟩
      · rw [htake, List.take_of_length_le (hlength ▸ hfits), encode_cons, List.append_assoc]
      · rintro ⟨d, k, hpos, hlt, hn, rfl⟩
        refine ⟨d, k, hpos, hlt, ?_, rfl⟩
        rw [encode_cons, List.length_append, hlength]
        omega
    · next hlong =>
      have hnone : n - c.utf8Size = 0 := by omega
      rw [hnone, List.take_zero, List.append_nil]
      refine ⟨_, rfl, ?_⟩
      rcases Nat.eq_zero_or_pos n with rfl | hpos
      · exact .inl List.take_zero
      · exact .inr ⟨c, n, hpos, by omega, Nat.zero_add n, rfl⟩

/-- The first bytes of a character are read as an unexpected end. -/
theorem readFrom_take_encodeChar {c : Char} {k : Nat} (hpos : 0 < k) (hk : k < c.utf8Size)
    (position : Nat) :
    readFrom position 0 ((String.utf8EncodeChar c).take k) =
      ([], some ⟨position, k, .unexpectedEnd⟩) := by
  have h := encodes c
  have hlength := String.length_utf8EncodeChar c
  obtain ⟨a, bs, he⟩ := h.exists_cons
  rw [he] at h hlength ⊢
  rw [List.length_cons] at hlength
  obtain ⟨k, rfl⟩ := Nat.exists_eq_succ_of_ne_zero (Nat.ne_of_gt hpos)
  rw [List.take_succ_cons, readFrom, h.lead_take (by omega)]

/-- A text that is cut off is read as far as it fits. If a character is cut in two then, its bytes
are the only flaw. -/
theorem read_take_encode (n : Nat) (s : List Char) :
    read ((encode s).take n) = (fitting n s, none) ∧ (encode s).take n = encode (fitting n s) ∨
      ∃ start width, read ((encode s).take n) = (fitting n s, some ⟨start, width, .unexpectedEnd⟩) ∧
        start + width = n ∧ 0 < width ∧ width < 4 ∧
        ((encode s).take n).take start = encode (fitting n s) := by
  obtain ⟨piece, htake, rfl | ⟨c, k, hpos, hk, hn, rfl⟩⟩ := exists_take_encode n s
  · rw [htake, List.append_nil, read_encode]
    exact .inl ⟨rfl, rfl⟩
  · refine .inr ⟨(encode (fitting n s)).length, k, ?_, hn, hpos, ?_, ?_⟩
    · rw [htake, read, readFrom_encode, readFrom_take_encodeChar hpos hk, List.append_nil,
        Nat.zero_add]
    · exact Nat.lt_of_lt_of_le hk c.utf8Size_le_four
    · rw [htake, List.take_left]

/-- What is left of a text of which only so many bytes are kept. -/
structure IsCut (s : List Char) (n : Nat) (left : Bytes) : Prop where
  left_eq : left = (encode s).take n
  /-- What can be read is a beginning of the text. -/
  decode_eq_ok_iff : ∀ p, decode left = .ok p ↔ p <+: s ∧ encode p = left
  /-- It can be read if nothing is cut off, or the cut falls between two characters. -/
  readable_iff : (∃ p, decode left = .ok p) ↔
    (encode s).length ≤ n ∨ ∃ p, p <+: s ∧ (encode p).length = n
  /-- Else the bytes of one character at the end are all that cannot be read. -/
  of_flaw : ∀ flaw, decode left = .error flaw →
    flaw.fault = .unexpectedEnd ∧ flaw.start + flaw.width = n ∧ 0 < flaw.width ∧ flaw.width < 4 ∧
      ∃ p, p <+: s ∧ encode p = left.take flaw.start

theorem decode_take_encode_eq_ok_iff (n : Nat) (s p : List Char) :
    decode ((encode s).take n) = .ok p ↔ p <+: s ∧ encode p = (encode s).take n := by
  constructor
  · intro h
    rcases read_take_encode n s with ⟨hread, htake⟩ | ⟨start, width, hread, -⟩
    · rw [decode, hread] at h
      obtain rfl := Except.ok.inj h
      exact ⟨fitting_begins n s, htake.symm⟩
    · rw [decode, hread] at h
      exact absurd h (by simp)
  · rintro ⟨-, hp⟩
    rw [← hp, decode_encode]

theorem isCut_take (n : Nat) (s : List Char) : IsCut s n ((encode s).take n) where
  left_eq := rfl
  decode_eq_ok_iff := decode_take_encode_eq_ok_iff n s
  readable_iff := by
    constructor
    · rintro ⟨p, hp⟩
      obtain ⟨hbegins, htake⟩ := (decode_take_encode_eq_ok_iff n s p).1 hp
      rcases Nat.le_total (encode s).length n with hall | hsome
      · exact .inl hall
      · refine .inr ⟨p, hbegins, ?_⟩
        rw [htake, List.length_take, Nat.min_eq_left hsome]
    · rintro (hall | ⟨p, hbegins, rfl⟩)
      · exact ⟨s, by rw [List.take_of_length_le hall, decode_encode]⟩
      · have htake := List.prefix_iff_eq_take.1 (encode_begins hbegins)
        exact ⟨p, (decode_take_encode_eq_ok_iff _ s p).2 ⟨hbegins, htake⟩⟩
  of_flaw := by
    intro flaw h
    rcases read_take_encode n s with ⟨hread, -⟩ | ⟨start, width, hread, hn, hpos, hlt, htake⟩
    · rw [decode, hread] at h
      exact absurd h (by simp)
    · rw [decode, hread] at h
      obtain rfl := Except.error.inj h
      exact ⟨rfl, hn, hpos, hlt, _, fitting_begins n s, htake.symm⟩

end FamilyStore.Text.Utf8
