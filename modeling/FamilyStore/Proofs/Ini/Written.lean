import FamilyStore.Ini.Writer
import FamilyStore.Proofs.Ini.Reading
import FamilyStore.Proofs.Text.Decimal
import FamilyStore.Proofs.Text.Files

/-!
A section that was written from plain words is read as it was: its heading, and each option under
its name with its value.

Plain characters mean nothing to a reader: they are no blanks, no delimiters, no brackets, and no
marks of comments or references. So each written line says what it was written for. The empty line
at the end belongs to the value of the last option, where blanks at the end do not count.
-/

namespace FamilyStore.Ini

/-! ## Words -/

/-- Whether a character is a small letter, a digit, an underscore, or a minus sign. -/
def isPlain (c : Char) : Bool := c.isLower || c.isDigit || c = '_' || c = '-'

/-- A text of plain characters that is not empty. -/
structure IsWord (s : Line) : Prop where
  ne_nil : s ≠ []
  plain : ∀ c ∈ s, isPlain c = true

theorem toNat_of_isPlain {c : Char} (h : isPlain c = true) : c.toNat < 128 := by
  have hc : c.val.toNat = c.toNat := rfl
  have hz : 'z'.val.toNat = 122 := rfl
  have hlower : c.isLower = (decide (c.val ≥ 'a'.val) && decide (c.val ≤ 'z'.val)) := rfl
  simp only [isPlain, hlower, Bool.or_eq_true, Bool.and_eq_true, decide_eq_true_eq,
    UInt32.le_iff_toNat_le] at h
  rcases h with ((h | h) | rfl) | rfl
  · omega
  · have := (Text.toNat_of_isDigit h).2
    omega
  · decide
  · decide

/-- A statement about plain characters can be checked among the ASCII characters. -/
theorem of_isPlain {p : Char → Prop} [DecidablePred p]
    (hp : ∀ n < 128, isPlain (Char.ofNat n) = true → p (Char.ofNat n)) {c : Char}
    (h : isPlain c = true) : p c :=
  Text.forall_ascii (p := fun c => isPlain c = true → p c) hp (toNat_of_isPlain h) h

theorem ne_of_isPlain {c d : Char} (h : isPlain c = true) (hd : isPlain d = false) : c ≠ d := by
  rintro rfl
  simp [h] at hd

theorem not_mem_of_isPlain {s : Line} (h : ∀ c ∈ s, isPlain c = true) {d : Char}
    (hd : isPlain d = false) : d ∉ s :=
  fun hmem => ne_of_isPlain (h d hmem) hd rfl

theorem isBlank_of_isPlain {c : Char} (h : isPlain c = true) : Text.isBlank c = false :=
  of_isPlain (p := fun c => Text.isBlank c = false) (by decide +kernel) h

theorem isDelimiter_of_isPlain {c : Char} (h : isPlain c = true) : isDelimiter c = false :=
  of_isPlain (p := fun c => isDelimiter c = false) (by decide +kernel) h

theorem lowerChar_of_isPlain {c : Char} (h : isPlain c = true) : Text.lowerChar c = c :=
  of_isPlain (p := fun c => Text.lowerChar c = c) (by decide +kernel) h

theorem lowerAfter_of_isPlain {s : Line} (h : ∀ c ∈ s, isPlain c = true) (before : Line) :
    Text.lowerAfter before s = s := by
  induction s generalizing before with
  | nil => rfl
  | cons c s ih =>
    have hc := h c List.mem_cons_self
    rw [Text.lowerAfter, ih fun d hd => h d (List.mem_cons_of_mem _ hd), Text.lowerIn,
      if_neg (ne_of_isPlain hc (by decide +kernel)), if_neg (ne_of_isPlain hc (by decide +kernel)),
      lowerChar_of_isPlain hc]
    rfl

namespace IsWord

variable {s : Line}

theorem of_all (hne : s ≠ []) (h : s.all isPlain = true) : IsWord s :=
  ⟨hne, List.all_eq_true.1 h⟩

theorem exists_cons (h : IsWord s) : ∃ c t, s = c :: t ∧ isPlain c = true := by
  cases s with
  | nil => exact absurd rfl h.ne_nil
  | cons c t => exact ⟨c, t, rfl, h.plain c List.mem_cons_self⟩

theorem exists_concat (h : IsWord s) : ∃ t c, s = t ++ [c] ∧ isPlain c = true := by
  refine ⟨s.dropLast, s.getLast h.ne_nil, (List.dropLast_concat_getLast h.ne_nil).symm, ?_⟩
  exact h.plain _ (List.getLast_mem h.ne_nil)

theorem lowercase (h : IsWord s) : Text.lowercase s = s := lowerAfter_of_isPlain h.plain []

end IsWord

/-! ## Lines -/

/-- The line that starts a section. -/
def headingLine (heading : Line) : Line := '[' :: heading ++ [']']

/-- The line of an option with a value on one line. -/
def optionLine (o : Line × Line) : Line := o.1 ++ [' ', '=', ' '] ++ o.2

variable {heading : Line} {options : List (Line × Line)}

theorem indentLines_of_isPlain {s : Line} (h : ∀ c ∈ s, isPlain c = true) : indentLines s = s := by
  induction s with
  | nil => rfl
  | cons c s ih =>
    have hc : c ≠ '\n' := ne_of_isPlain (h c List.mem_cons_self) (by decide)
    have hrest := ih fun d hd => h d (List.mem_cons_of_mem _ hd)
    rw [indentLines] at hrest ⊢
    rw [List.flatMap_cons, hrest, if_neg hc, List.singleton_append]

/-- The lines of a written section: its heading, its options, and an empty line. -/
def sectionLines (heading : Line) (options : List (Line × Line)) : List Line :=
  headingLine heading :: (options.map optionLine ++ [[]])

theorem writeSection_eq (ho : ∀ o ∈ options, IsWord o.1 ∧ IsWord o.2) :
    writeSection heading options = (sectionLines heading options).flatMap (· ++ ['\n']) := by
  have hoption : options.flatMap (fun o => writeOption o.1 o.2) =
      (options.map optionLine).flatMap (· ++ ['\n']) := by
    rw [List.flatMap_map, List.flatMap_def, List.flatMap_def]
    refine congrArg List.flatten (List.map_congr_left fun o hmem => ?_)
    rw [writeOption, indentLines_of_isPlain (ho o hmem).2.plain, optionLine]
  rw [writeSection, hoption]
  simp [sectionLines, headingLine]

/-- The lines have plain characters and a few marks. -/
theorem of_mem_sectionLines (hh : IsWord heading) (ho : ∀ o ∈ options, IsWord o.1 ∧ IsWord o.2)
    {l : Line} (hl : l ∈ sectionLines heading options) {c : Char} (hc : c ∈ l) :
    isPlain c = true ∨ c ∈ ['[', ']', ' ', '='] := by
  rcases List.mem_cons.1 hl with rfl | hl
  · rw [headingLine, List.mem_append, List.mem_cons, List.mem_singleton] at hc
    rcases hc with (rfl | hc) | rfl
    · exact .inr (by decide)
    · exact .inl (hh.plain c hc)
    · exact .inr (by decide)
  · rcases List.mem_append.1 hl with hl | hl
    · obtain ⟨o, hmem, rfl⟩ := List.mem_map.1 hl
      rw [optionLine, List.mem_append, List.mem_append] at hc
      rcases hc with (hc | hc) | hc
      · exact .inl ((ho o hmem).1.plain c hc)
      · simp only [List.mem_cons, List.not_mem_nil, or_false] at hc
        rcases hc with rfl | rfl | rfl <;> exact .inr (by decide)
      · exact .inl ((ho o hmem).2.plain c hc)
    · rw [List.mem_singleton.1 hl] at hc
      exact absurd hc List.not_mem_nil

theorem of_mem_writeSection (hh : IsWord heading) (ho : ∀ o ∈ options, IsWord o.1 ∧ IsWord o.2)
    {c : Char} (hc : c ∈ writeSection heading options) :
    isPlain c = true ∨ c ∈ ['[', ']', ' ', '=', '\n'] := by
  rw [writeSection_eq ho] at hc
  obtain ⟨l, hl, hc⟩ := List.mem_flatMap.1 hc
  rcases List.mem_append.1 hc with hc | hc
  · refine (of_mem_sectionLines hh ho hl hc).imp id fun hmark => ?_
    exact List.mem_append_left ['\n'] hmark
  · exact .inr (List.mem_append_right ['[', ']', ' ', '='] hc)

theorem lines_writeSection (hh : IsWord heading) (ho : ∀ o ∈ options, IsWord o.1 ∧ IsWord o.2) :
    Text.lines (writeSection heading options) =
      (sectionLines heading options).map (· ++ ['\n']) := by
  have hfeed : ∀ l ∈ sectionLines heading options, '\n' ∉ l := by
    intro l hl hmem
    rcases of_mem_sectionLines hh ho hl hmem with h | h
    · exact absurd h (by decide)
    · exact absurd h (by decide)
  have hreturn : '\r' ∉ writeSection heading options := by
    intro hmem
    rcases of_mem_writeSection hh ho hmem with h | h
    · exact absurd h (by decide)
    · exact absurd h (by decide)
  rw [Text.lines, Text.unifyLineEnds_of_not_mem hreturn, writeSection_eq ho,
    Text.splitLines_flatMap hfeed]

/-- A written section is ASCII text. -/
theorem toNat_of_mem_writeSection (hh : IsWord heading)
    (ho : ∀ o ∈ options, IsWord o.1 ∧ IsWord o.2) {c : Char}
    (hc : c ∈ writeSection heading options) : c.toNat < 128 := by
  rcases of_mem_writeSection hh ho hc with h | h
  · exact toNat_of_isPlain h
  · simp only [List.mem_cons, List.not_mem_nil, or_false] at h
    rcases h with rfl | rfl | rfl | rfl | rfl <;> decide

/-- A line that has blanks nowhere at its ends loses its line feed only. -/
theorem strip_line {a b : Char} (s : Line) (ha : Text.isBlank a = false)
    (hb : Text.isBlank b = false) : Text.strip (a :: s ++ [b] ++ ['\n']) = a :: s ++ [b] := by
  rw [Text.strip, List.cons_append, List.cons_append, Text.stripLeft_cons _ ha,
    ← List.cons_append, ← List.cons_append, Text.stripRight_concat_blank _ (by decide),
    Text.stripRight_concat _ hb]

theorem ofLine_headingLine (h : IsWord heading) :
    Statement.ofLine (headingLine heading) = .heading heading := by
  have hname : heading? (headingLine heading) = some heading := by
    have hne : heading.reverse ≠ [] := by simpa using h.ne_nil
    have hdrop : ((heading ++ [']']).reverse.dropWhile (· ≠ ']')).drop 1 = heading.reverse := by
      rw [List.reverse_append, List.reverse_singleton, List.singleton_append,
        List.dropWhile_cons_of_neg (by simp), List.drop_one, List.tail_cons]
    simp only [heading?, headingLine, List.cons_append, hdrop]
    rw [List.reverse_reverse]
  simp only [Statement.ofLine, hname]

theorem ofLine_optionLine {o : Line × Line} (hn : IsWord o.1) (hv : IsWord o.2) :
    Statement.ofLine (optionLine o) = .option o.1 o.2 := by
  obtain ⟨c, t, hc, hplain⟩ := hn.exists_cons
  have hheading : heading? (optionLine o) = none := by
    unfold heading?
    split
    · rename_i heq
      rw [optionLine, hc] at heq
      have hbracket : c ≠ '[' := ne_of_isPlain hplain (by decide)
      simp [hbracket] at heq
    · rfl
  have hbefore : ∀ d ∈ o.1 ++ [' '], (!isDelimiter d) = true := by
    intro d hd
    rcases List.mem_append.1 hd with hd | hd
    · rw [isDelimiter_of_isPlain (hn.plain d hd)]
      rfl
    · rw [List.mem_singleton.1 hd]
      decide
  have hline : optionLine o = (o.1 ++ [' ']) ++ '=' :: ' ' :: o.2 := by simp [optionLine]
  have hname : Text.stripRight (o.1 ++ [' ']) = o.1 := by
    obtain ⟨t, c, hlast, hc⟩ := hn.exists_concat
    rw [Text.stripRight_concat_blank _ (by decide), hlast,
      Text.stripRight_concat _ (isBlank_of_isPlain hc)]
  have hvalue : Text.strip (' ' :: o.2) = o.2 := by
    obtain ⟨a, s, hfirst, ha⟩ := hv.exists_cons
    obtain ⟨t, b, hlast, hb⟩ := hv.exists_concat
    rw [Text.strip, Text.stripLeft_cons_blank _ (by decide), hfirst,
      Text.stripLeft_cons _ (isBlank_of_isPlain ha), ← hfirst, hlast,
      Text.stripRight_concat _ (isBlank_of_isPlain hb)]
  have hoption : option? (optionLine o) = some (o.1, o.2) := by
    rw [option?, hline, List.dropWhile_append_of_pos hbefore, List.takeWhile_append_of_pos hbefore,
      List.dropWhile_cons_of_neg (by decide), List.takeWhile_cons_of_neg (by decide),
      List.append_nil]
    simp only [hname, hvalue]
  simp only [Statement.ofLine, hheading, hoption]

/-! ## Sections -/

theorem IsWord.ne_defaultsName (h : IsWord heading) : heading ≠ defaultsName := by
  rintro rfl
  exact absurd (h.plain 'D' (by decide)) (by decide)

/-- Options with a value of one line each. -/
def singly (os : List (Line × Line)) : Options := ⟨os.map fun o => (o.1, [o.2])⟩

theorem get?_singly (os : List (Line × Line)) (name : Line) :
    (singly os).get? name = (Table.find? name os).map fun value => [value] :=
  Table.find?_map (fun value => [value]) name os

theorem get?_singly_of_not_mem {os : List (Line × Line)} {name : Line}
    (h : name ∉ os.map Prod.fst) : (singly os).get? name = none := by
  rw [get?_singly, (Table.find?_eq_none_iff name os).2 h]
  rfl

theorem set_singly {os : List (Line × Line)} {o : Line × Line} (h : o.1 ∉ os.map Prod.fst) :
    (singly os).set o.1 [o.2] = singly (os ++ [o]) := by
  have hmore : singly (os ++ [o]) = ⟨(singly os).entries ++ [(o.1, [o.2])]⟩ := by simp [singly]
  rw [hmore]
  exact congrArg Table.mk (Table.entries_set_of_none (get?_singly_of_not_mem h) [o.2])

namespace Reader

/-- The state after the heading of a section and some of its options were read. -/
def amid (source : String) (heading : Line) (os : List (Line × Line)) : Reader where
  source := source
  document := ⟨.empty, ⟨[(heading, singly os)]⟩⟩
  heading := some heading
  option := os.getLast?.map Prod.fst
  indent := 0
  unreadable := []

theorem optionsOf_amid (h : IsWord heading) (source : String) (os : List (Line × Line)) :
    (amid source heading os).document.optionsOf heading = singly os := by
  rw [Document.optionsOf, if_neg h.ne_defaultsName]
  simp [amid, Table.get?, Table.find?]

theorem step_headingLine (h : IsWord heading) (source : String) :
    (start source).step 1 (headingLine heading ++ ['\n']) = .ok (amid source heading []) := by
  have hstrip : Text.strip (headingLine heading ++ ['\n']) = headingLine heading :=
    strip_line heading (by decide) (by decide)
  have hindent : indentOf (headingLine heading ++ ['\n']) = 0 := rfl
  unfold step
  simp only [hstrip, begin, ofLine_headingLine h, openSection, hindent]
  simp [headingLine, isComment, start, Document.hasSection, Document.empty, Table.contains,
    Table.get?, Table.find?, h.ne_defaultsName, Document.setOptions, amid, Table.set, Table.empty,
    Table.put, singly]

variable {o : Line × Line} {os : List (Line × Line)}

theorem openOption_amid (hh : IsWord heading) (hn : IsWord o.1) (hnew : o.1 ∉ os.map Prod.fst)
    (source : String) (number : Nat) (line : Line) :
    (amid source heading os).openOption number line heading o.1 o.2 =
      .ok (amid source heading (os ++ [o])) := by
  have hempty : o.1.isEmpty = false := by simpa using hn.ne_nil
  simp only [openOption, hempty, Bool.false_eq_true, if_false, hn.lowercase, optionsOf_amid hh,
    Table.contains, get?_singly_of_not_mem hnew, Option.isSome_none, set_singly hnew]
  simp [amid, Document.setOptions, hh.ne_defaultsName, Table.set, Table.put]

/-- The line of an option is read whatever option came before it. -/
theorem step_optionLine (hh : IsWord heading) (hn : IsWord o.1) (hv : IsWord o.2)
    (hnew : o.1 ∉ os.map Prod.fst) (source : String) (number : Nat) :
    (amid source heading os).step number (optionLine o ++ ['\n']) =
      .ok (amid source heading (os ++ [o])) := by
  obtain ⟨a, s, hfirst, ha⟩ := hn.exists_cons
  obtain ⟨t, b, hlast, hb⟩ := hv.exists_concat
  have hline : optionLine o = a :: (s ++ [' ', '=', ' '] ++ t) ++ [b] := by
    simp [optionLine, hfirst, hlast]
  have hstrip : Text.strip (optionLine o ++ ['\n']) = optionLine o := by
    rw [hline]
    exact strip_line _ (isBlank_of_isPlain ha) (isBlank_of_isPlain hb)
  have hsays : (optionLine o).isEmpty = false ∧ isComment (optionLine o) = false := by
    have hhash : a ≠ '#' := ne_of_isPlain ha (by decide)
    have hsemi : a ≠ ';' := ne_of_isPlain ha (by decide)
    rw [hline]
    simp [isComment, hhash, hsemi]
  have hindent : indentOf (optionLine o ++ ['\n']) = 0 := by
    rw [hline, indentOf, List.cons_append, List.cons_append,
      List.takeWhile_cons_of_neg (by simp [isBlank_of_isPlain ha])]
    rfl
  have hbegin : (amid source heading os).begin number (optionLine o ++ ['\n']) (optionLine o) =
      .ok (amid source heading (os ++ [o])) := by
    simp only [begin, ofLine_optionLine hn hv, hindent]
    exact openOption_amid hh hn hnew source number _
  simp only [step, hstrip, hsays, Bool.or_false, Bool.false_eq_true, if_false, hindent]
  -- No indentation is deeper than none, so the line goes on with no option.
  split
  · rw [if_neg (Nat.not_lt_zero _)]
    exact hbegin
  · exact hbegin

/-- The lines of options are read one after the other. -/
theorem run_optionLines (hh : IsWord heading) {rest : List (Line × Line)}
    (hw : ∀ o ∈ rest, IsWord o.1 ∧ IsWord o.2) (hnew : ((os ++ rest).map Prod.fst).Nodup)
    (source : String) (number : Nat) (ls : List Line) :
    (amid source heading os).run number ((rest.map optionLine).map (· ++ ['\n']) ++ ls) =
      (amid source heading (os ++ rest)).run (number + rest.length) ls := by
  induction rest generalizing os number with
  | nil => simp
  | cons o rest ih =>
    obtain ⟨hn, hv⟩ := hw o List.mem_cons_self
    have hfirst : o.1 ∉ os.map Prod.fst := by
      intro hmem
      rw [List.map_append, List.nodup_append] at hnew
      exact hnew.2.2 _ hmem o.1 (by simp) rfl
    have hnext : ((os ++ [o]) ++ rest).map Prod.fst = (os ++ o :: rest).map Prod.fst := by simp
    rw [List.map_cons, List.map_cons, List.cons_append, run,
      step_optionLine hh hn hv hfirst]
    dsimp only
    rw [ih (fun p hp => hw p (List.mem_cons_of_mem _ hp)) (hnext ▸ hnew), List.length_cons]
    congr 1
    · simp
    · omega

theorem unreadable_skip (r : Reader) (comment : Bool) :
    (r.skip comment).unreadable = r.unreadable := by
  unfold skip
  split
  · split <;> rfl
  · rfl

theorem raw?_amid (hh : IsWord heading) (hw : ∀ o ∈ os, IsWord o.1 ∧ IsWord o.2)
    (source : String) (name : Line) :
    (amid source heading os).document.raw? heading name = Table.find? name os := by
  have hdefaults : (amid source heading os).document.defaults.get? name = none := rfl
  rw [Document.raw?, optionsOf_amid hh, get?_singly, hdefaults, Option.or_none, Option.map_map]
  cases hfind : Table.find? name os with
  | none => rfl
  | some value =>
    have hv : IsWord value := (hw _ (Table.mem_of_find? hfind)).2
    obtain ⟨t, b, hlast, hb⟩ := hv.exists_concat
    rw [Option.map_some, Function.comp_apply, joinLines, List.intercalate_singleton, hlast,
      Text.stripRight_concat _ (isBlank_of_isPlain hb)]

/-- A written section is read as a document in which its options have their values. -/
theorem exists_finish_writeSection {options : List (Line × Line)} (hh : IsWord heading)
    (hw : ∀ o ∈ options, IsWord o.1 ∧ IsWord o.2) (hn : (options.map Prod.fst).Nodup)
    (source : String) :
    ∃ r d, (start source).run 1 (Text.lines (writeSection heading options)) = .ok r ∧
      r.finish = .ok d ∧ d.hasSection heading = true ∧
      ∀ name, d.raw? heading name = Table.find? name options := by
  have hblank : Text.strip ['\n'] = [] := by decide
  have hrun : (start source).run 1 (Text.lines (writeSection heading options)) =
      .ok ((amid source heading options).skip false) := by
    have hnew : (([] ++ options).map Prod.fst).Nodup := hn
    rw [lines_writeSection hh hw, sectionLines, List.map_cons, List.map_append, run,
      step_headingLine hh]
    dsimp only
    rw [run_optionLines hh hw hnew]
    simp only [List.map_cons, List.map_nil, List.nil_append, run, step, hblank]
    rfl
  have hfinish : ((amid source heading options).skip false).finish =
      .ok ((amid source heading options).skip false).document := by
    unfold finish
    rw [unreadable_skip]
    rfl
  refine ⟨_, _, hrun, hfinish, hasSection_skip ?_ false, fun name => ?_⟩
  · simp [amid, Document.hasSection, Table.contains, Table.get?, Table.find?]
  · rw [raw?_skip, raw?_amid hh hw]

end Reader

end FamilyStore.Ini
