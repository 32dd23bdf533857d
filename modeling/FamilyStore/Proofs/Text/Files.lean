import FamilyStore.Text.Blank
import FamilyStore.Text.Blocks
import FamilyStore.Text.Lines

/-!
Files of ASCII text.

Every character is one byte, so no block of a file cuts one in two, and the text that is read is
the one that was written. Text without carriage returns keeps its line ends, and each of its lines
ends at the next line feed. A line is stripped of the blanks at its ends and of nothing else.
-/

namespace FamilyStore.Text

/-! ## Encoding -/

/-- The character that an ASCII byte stands for. -/
def asciiChar (b : UInt8) : Char := Char.ofNat b.toNat

theorem Utf8.readFrom_of_ascii {bs : Bytes} (h : ∀ b ∈ bs, b < 0x80) (position : Nat) :
    Utf8.readFrom position 0 bs = (bs.map asciiChar, none) := by
  induction bs generalizing position with
  | nil => rfl
  | cons b bs ih =>
    have hlead : Utf8.lead b bs = .char (asciiChar b) 1 := by
      rw [Utf8.lead, if_pos (h b List.mem_cons_self), asciiChar]
    simp only [Utf8.readFrom, hlead]
    rw [ih fun c hc => h c (List.mem_cons_of_mem _ hc)]
    rfl

theorem readBlocks_of_ascii {bss : List Bytes} (h : ∀ bs ∈ bss, ∀ b ∈ bs, b < 0x80) :
    readBlocks [] bss = (bss.flatten.map asciiChar, none) := by
  induction bss with
  | nil => rfl
  | cons bs bss ih =>
    have hblock : readBlock ([] ++ bs) = .ok (bs.map asciiChar, []) := by
      rw [List.nil_append, readBlock, Utf8.read,
        Utf8.readFrom_of_ascii (h bs List.mem_cons_self)]
    rw [readBlocks, hblock]
    dsimp only
    rw [ih fun cs hc => h cs (List.mem_cons_of_mem _ hc), List.flatten_cons, List.map_append]

/-- The blocks of a byte string, one after the other, are the byte string. -/
theorem flatten_blocks (bs : Bytes) : (blocks bs).flatten = bs := by
  fun_induction blocks bs with
  | case1 bs _ hempty => simp [List.isEmpty_iff.1 hempty]
  | case2 bs _ _ => simp
  | case3 bs _ ih => rw [List.flatten_cons, ih, List.take_append_drop]

theorem readFile_of_ascii {bs : Bytes} (h : ∀ b ∈ bs, b < 0x80) :
    readFile bs = (bs.map asciiChar, none) := by
  rw [readFile, readBlocks_of_ascii, flatten_blocks]
  intro block hblock b hb
  refine h b ?_
  rw [← flatten_blocks bs]
  exact List.mem_flatten.2 ⟨block, hblock, hb⟩

/-- A statement about all ASCII characters can be checked one by one. -/
theorem forall_ascii {p : Char → Prop} [DecidablePred p] (h : ∀ n < 128, p (Char.ofNat n))
    {c : Char} (hc : c.toNat < 128) : p c := by
  have := h c.toNat hc
  rwa [Char.ofNat_toNat] at this

theorem Utf8.encodeChar_of_ascii {c : Char} (h : c.toNat < 128) :
    String.utf8EncodeChar c = [UInt8.ofNat c.toNat] := by
  have : c.val.toNat = c.toNat := rfl
  simp [String.utf8EncodeChar]
  omega

/-- ASCII text is read as it was written. -/
theorem readFile_encode {s : List Char} (h : ∀ c ∈ s, c.toNat < 128) :
    readFile (Utf8.encode s) = (s, none) := by
  have hencode : Utf8.encode s = s.map fun c => UInt8.ofNat c.toNat := by
    induction s with
    | nil => rfl
    | cons c s ih =>
      rw [Utf8.encode_cons, ih fun d hd => h d (List.mem_cons_of_mem _ hd),
        Utf8.encodeChar_of_ascii (h c List.mem_cons_self)]
      rfl
  rw [hencode, readFile_of_ascii, List.map_map]
  · congr 1
    refine (List.map_congr_left fun c hc => ?_).trans (List.map_id s)
    exact forall_ascii (p := fun c => asciiChar (UInt8.ofNat c.toNat) = c) (by decide +kernel)
      (h c hc)
  · intro b hb
    obtain ⟨c, hc, rfl⟩ := List.mem_map.1 hb
    exact forall_ascii (p := fun c => UInt8.ofNat c.toNat < 0x80) (by decide +kernel) (h c hc)

/-! ## Blanks -/

section

variable {c : Char} (s : List Char)

theorem stripLeft_cons (h : isBlank c = false) : stripLeft (c :: s) = c :: s :=
  List.dropWhile_cons_of_neg (by simp [h])

theorem stripLeft_cons_blank (h : isBlank c = true) : stripLeft (c :: s) = stripLeft s :=
  List.dropWhile_cons_of_pos h

theorem stripRight_concat (h : isBlank c = false) : stripRight (s ++ [c]) = s ++ [c] := by
  rw [stripRight, List.reverse_append, List.reverse_singleton, List.singleton_append,
    List.dropWhile_cons_of_neg (by simp [h]), List.reverse_cons, List.reverse_reverse]

theorem stripRight_concat_blank (h : isBlank c = true) :
    stripRight (s ++ [c]) = stripRight s := by
  rw [stripRight, List.reverse_append, List.reverse_singleton, List.singleton_append,
    List.dropWhile_cons_of_pos h, stripRight]

end

/-! ## Lines -/

theorem unifyLineEnds_of_not_mem {s : List Char} (h : '\r' ∉ s) : unifyLineEnds s = s := by
  fun_induction unifyLineEnds s with
  | case1 => rfl
  | case2 => simp at h
  | case3 c s _ ih =>
    rw [List.mem_cons, not_or] at h
    rw [if_neg fun hc => h.1 hc.symm, ih h.2]

/-- The first line of a text ends at its first line feed. -/
theorem splitLines_append {line : List Char} (h : '\n' ∉ line) (rest : List Char) :
    splitLines (line ++ '\n' :: rest) = (line ++ ['\n']) :: splitLines rest := by
  induction line with
  | nil =>
    rw [List.nil_append, splitLines]
    cases splitLines rest <;> rfl
  | cons c line ih =>
    rw [List.mem_cons, not_or] at h
    rw [List.cons_append, splitLines, ih h.2, pushChar, if_neg fun hc => h.1 hc.symm,
      List.cons_append]

/-- A text that is made of lines consists of these lines. -/
theorem splitLines_flatMap {ls : List (List Char)} (h : ∀ l ∈ ls, '\n' ∉ l) :
    splitLines (ls.flatMap (· ++ ['\n'])) = ls.map (· ++ ['\n']) := by
  induction ls with
  | nil => rfl
  | cons l ls ih =>
    rw [List.flatMap_cons, List.append_assoc, List.singleton_append,
      splitLines_append (h l List.mem_cons_self),
      ih fun m hm => h m (List.mem_cons_of_mem _ hm), List.map_cons]

end FamilyStore.Text
