import FamilyStore.Proofs.Ini.Reading
import FamilyStore.Proofs.Work
import Mathlib.Data.List.Forall2

/-!
Options of one section may stand in any order.

`exists_finish_reordered` takes the lines of a file apart: some lines, then options of a section on
a line each, then blank lines and comments, and then the end or the start of another section. With
the options in another order the lines are read as a document that says the same in every section.

Two states of reading are `Near` if their documents have the same texts under the same names; this
is what the reordered lines leave. Their last options differ, so what goes on with the last option
would tell them apart. From the start of a section on they are `Alike`: they also have the last
option in common, with the same lines, and then nothing tells them apart any more.
-/

namespace FamilyStore.Ini

/-! ## Lines -/

/-- A line gives an option its value, and starts with the name. -/
structure SaysOption (l : Line) (o : Line × Line) : Prop where
  indent : indentOf l = 0
  statement : Statement.ofLine (Text.strip l) = .option o.1 o.2
  counts : isComment (Text.strip l) = false
  named : o.1 ≠ []

instance (l : Line) (o : Line × Line) : Decidable (SaysOption l o) :=
  decidable_of_iff (indentOf l = 0 ∧ Statement.ofLine (Text.strip l) = .option o.1 o.2 ∧
      isComment (Text.strip l) = false ∧ o.1 ≠ [])
    ⟨fun ⟨hi, hs, hc, hn⟩ => ⟨hi, hs, hc, hn⟩,
      fun ⟨hi, hs, hc, hn⟩ => ⟨hi, hs, hc, hn⟩⟩

/-- A line starts a section, without blanks before the bracket. -/
def StartsSection (l : Line) : Prop :=
  indentOf l = 0 ∧ ∃ heading, Statement.ofLine (Text.strip l) = .heading heading

/-- A line is blank or a comment. -/
def SaysNothing (l : Line) : Prop := Text.strip l = [] ∨ isComment (Text.strip l) = true

/-- Two files differ in the order of some options of one section. Each of these is on a line of its
own, and the section ends with them. -/
inductive Reordered : List Line → List Line → Prop
  | intro {before ls ls' nothing after : List Line} {os os' : List (Line × Line)}
      (hls : List.Forall₂ SaysOption ls os) (hls' : List.Forall₂ SaysOption ls' os')
      (hperm : os.Perm os') (hnothing : ∀ l ∈ nothing, SaysNothing l)
      (hafter : ∀ l ∈ after.head?, StartsSection l) :
      Reordered (before ++ (ls ++ (nothing ++ after))) (before ++ (ls' ++ (nothing ++ after)))

theorem not_saysNothing_of_ofLine {l : Line} (h : Statement.ofLine (Text.strip l) ≠ .unreadable)
    (hcounts : isComment (Text.strip l) = false) : ¬ SaysNothing l := by
  rintro (hnil | hcomment)
  · rw [hnil] at h
    exact h rfl
  · exact Bool.false_ne_true (hcounts.symm.trans hcomment)

theorem SaysOption.not_saysNothing {l : Line} {o : Line × Line} (h : SaysOption l o) :
    ¬ SaysNothing l :=
  not_saysNothing_of_ofLine (by simp [h.statement]) h.counts

theorem StartsSection.not_saysNothing {l : Line} (h : StartsSection l) : ¬ SaysNothing l := by
  obtain ⟨-, heading, hheading⟩ := h
  refine not_saysNothing_of_ofLine (by simp [hheading]) ?_
  generalize Text.strip l = s at hheading
  cases hc : isComment s with
  | false => rfl
  | true =>
    have hnone : heading? s = none := by
      unfold heading?
      split
      · simp [isComment] at hc
      · rfl
    unfold Statement.ofLine at hheading
    rw [hnone] at hheading
    dsimp only at hheading
    split at hheading
    · exact nomatch hheading
    · exact nomatch hheading

/-- A lower-case text has characters if the text has. -/
theorem lowercase_ne_nil {s : Line} (h : s ≠ []) : Text.lowercase s ≠ [] := by
  cases s with
  | nil => exact absurd rfl h
  | cons c cs =>
    have hfirst : Text.lowerIn [] c cs ≠ [] := by
      unfold Text.lowerIn
      split
      · exact List.cons_ne_nil _ _
      · split
        · split
          · exact List.cons_ne_nil _ _
          · exact List.cons_ne_nil _ _
        · exact List.cons_ne_nil _ _
    exact List.append_ne_nil_of_left_ne_nil hfirst _

/-! ## Documents -/

namespace Document

variable {d d' : Document} {heading name : Line} {options options' : Options}

/-- Documents have the same sections, and in them the same options with the same texts. -/
structure SameTexts (d d' : Document) : Prop where
  hasSection : ∀ heading, d.hasSection heading = d'.hasSection heading
  texts : ∀ heading name, ((d.optionsOf heading).get? name).map joinLines =
    ((d'.optionsOf heading).get? name).map joinLines

theorem SameTexts.refl (d : Document) : SameTexts d d := ⟨fun _ => rfl, fun _ _ => rfl⟩

theorem SameTexts.trans {e : Document} (h : SameTexts d d') (h' : SameTexts d' e) :
    SameTexts d e where
  hasSection heading := (h.hasSection heading).trans (h'.hasSection heading)
  texts heading name := (h.texts heading name).trans (h'.texts heading name)

theorem SameTexts.contains (h : SameTexts d d') (heading name : Line) :
    (d.optionsOf heading).contains name = (d'.optionsOf heading).contains name := by
  have := congrArg Option.isSome (h.texts heading name)
  rwa [Option.isSome_map, Option.isSome_map] at this

theorem hasSection_setOptions_eq (d : Document) (heading other : Line) (options : Options) :
    (d.setOptions heading options).hasSection other =
      (d.hasSection other || decide (heading ≠ defaultsName ∧ other = heading)) := by
  unfold setOptions hasSection Table.contains
  split
  · next hd => simp [hd]
  · next hd =>
    rw [Table.get?_set]
    split
    · next ho => simp [hd, ho]
    · next ho => simp [ho]

theorem SameTexts.setOptions (h : SameTexts d d')
    (ho : ∀ name, (options.get? name).map joinLines = (options'.get? name).map joinLines) :
    SameTexts (d.setOptions heading options) (d'.setOptions heading options') where
  hasSection other := by
    rw [hasSection_setOptions_eq, hasSection_setOptions_eq, h.hasSection]
  texts other name := by
    rw [optionsOf_setOptions, optionsOf_setOptions]
    split
    · exact ho name
    · exact h.texts other name

/-- Documents with the same texts say the same in every section. -/
theorem SameTexts.sameIn (h : SameTexts d d') (hd : d.Regular) (hd' : d'.Regular)
    (heading : Line) : SameIn heading d d' := by
  have hown : ∀ heading : Line, (d.optionsOf heading).joined.entries.Perm
      (d'.optionsOf heading).joined.entries := by
    intro heading
    refine Table.entries_perm ?_ ?_ fun name => ?_
    · rw [Options.keys_joined]
      exact hd.optionsOf heading
    · rw [Options.keys_joined]
      exact hd'.optionsOf heading
    · rw [Options.get?_joined, Options.get?_joined, h.texts]
  have hdefaults := hown defaultsName
  rw [optionsOf_defaultsName, optionsOf_defaultsName] at hdefaults
  exact ⟨h.hasSection heading, hown heading, hdefaults⟩

end Document

namespace Reader

variable {r r' s t : Reader} {heading name value : Line}

/-! ## What one line does -/

theorem openOption_eq (r : Reader) (number : Nat) (line heading name value : Line) :
    r.openOption number line heading name value =
      if (r.document.optionsOf heading).contains (Text.lowercase name) then
        .error (.duplicateOption r.source number (String.ofList heading)
          (String.ofList (Text.lowercase name)))
      else .ok { r with
        unreadable := if name.isEmpty then (number, line) :: r.unreadable else r.unreadable
        document := r.document.setOptions heading
          ((r.document.optionsOf heading).set (Text.lowercase name) [value])
        option := if (Text.lowercase name).isEmpty then none else some (Text.lowercase name) } := by
  unfold openOption
  cases name.isEmpty <;> rfl

/-- An option is taken up that has a name, at the start of a line. -/
def take (heading : Line) (r : Reader) (o : Line × Line) : Option Reader :=
  if (r.document.optionsOf heading).contains (Text.lowercase o.1) then none
  else some { r with
    document := r.document.setOptions heading
      ((r.document.optionsOf heading).set (Text.lowercase o.1) [o.2])
    option := some (Text.lowercase o.1)
    indent := 0 }

theorem take_eq_some_iff {o : Line × Line} : r.take heading o = some t ↔
    (r.document.optionsOf heading).contains (Text.lowercase o.1) = false ∧
      t = { r with
        document := r.document.setOptions heading
          ((r.document.optionsOf heading).set (Text.lowercase o.1) [o.2])
        option := some (Text.lowercase o.1)
        indent := 0 } := by
  unfold take
  cases (r.document.optionsOf heading).contains (Text.lowercase o.1) <;> simp [eq_comm]

section

variable {l : Line} {number : Nat}

theorem step_of_saysNothing (hl : SaysNothing l) :
    r.step number l = .ok (r.skip (isComment (Text.strip l))) := by
  have hnothing : ((Text.strip l).isEmpty || isComment (Text.strip l)) = true := by
    rcases hl with h | h
    · rw [h]
      rfl
    · rw [h, Bool.or_true]
  unfold step
  simp only [hnothing, if_true]

theorem nothing_eq_false (hl : ¬ SaysNothing l) :
    ((Text.strip l).isEmpty || isComment (Text.strip l)) = false := by
  obtain ⟨hne, hcounts⟩ := not_or.1 hl
  rw [Bool.or_eq_false_iff]
  exact ⟨by simpa using hne, by simpa using hcounts⟩

/-- A line that is indented deeper goes on with the last option. -/
theorem step_of_deeper (hl : ¬ SaysNothing l) (hheading : r.heading = some heading)
    (hoption : r.option = some name) (hdeeper : r.indent < indentOf l) :
    r.step number l = .ok (r.extend heading name (Text.strip l)) := by
  unfold step
  simp only [nothing_eq_false hl, Bool.false_eq_true, if_false, hheading, hoption, if_pos hdeeper]

/-- Any other line starts something. -/
theorem step_of_not_deeper (hl : ¬ SaysNothing l) (h : ∀ heading name, r.heading = some heading →
      r.option = some name → ¬ r.indent < indentOf l) :
    r.step number l = r.begin number l (Text.strip l) := by
  unfold step
  simp only [nothing_eq_false hl, Bool.false_eq_true, if_false]
  split
  · next heading name hheading hoption => rw [if_neg (h heading name hheading hoption)]
  · rfl

theorem begin_of_heading {stripped : Line} (hs : Statement.ofLine stripped = .heading name) :
    r.begin number l stripped = { r with indent := indentOf l }.openSection number name := by
  unfold begin
  simp only [hs]

theorem begin_of_none {stripped : Line} (hs : ∀ name, Statement.ofLine stripped ≠ .heading name)
    (hheading : r.heading = none) :
    r.begin number l stripped = .error (.missingHeader r.source number (String.ofList l)) := by
  unfold begin
  cases hstatement : Statement.ofLine stripped with
  | heading name => exact absurd hstatement (hs name)
  | option | unreadable => simp only [hheading]

theorem begin_of_option {stripped : Line} (hs : Statement.ofLine stripped = .option name value)
    (hheading : r.heading = some heading) : r.begin number l stripped =
      { r with indent := indentOf l }.openOption number l heading name value := by
  unfold begin
  simp only [hs, hheading]

theorem begin_of_unreadable {stripped : Line} (hs : Statement.ofLine stripped = .unreadable)
    (hheading : r.heading = some heading) :
    r.begin number l stripped = .ok ({ r with indent := indentOf l }.reject number l) := by
  unfold begin
  simp only [hs, hheading]

/-- No option can stand before the first section. -/
theorem step_of_no_heading {o : Line × Line} (hl : SaysOption l o) (hheading : r.heading = none) :
    r.step number l = .error (.missingHeader r.source number (String.ofList l)) := by
  have hsection : ∀ name, Statement.ofLine (Text.strip l) ≠ .heading name := by
    simp [hl.statement]
  have hstart : ∀ heading name, r.heading = some heading → r.option = some name →
      ¬ r.indent < indentOf l := fun _ _ hsome => nomatch hheading.symm.trans hsome
  rw [step_of_not_deeper hl.not_saysNothing hstart, begin_of_none hsection hheading]

theorem step_of_saysOption {o : Line × Line} (hl : SaysOption l o)
    (hheading : r.heading = some heading) : (r.step number l).toOption = r.take heading o := by
  have hnamed : o.1.isEmpty = false := by simpa using hl.named
  have hlower : (Text.lowercase o.1).isEmpty = false := by simpa using lowercase_ne_nil hl.named
  have hstart : ∀ heading name, r.heading = some heading → r.option = some name →
      ¬ r.indent < indentOf l := fun _ _ _ _ => hl.indent ▸ Nat.not_lt_zero _
  rw [step_of_not_deeper hl.not_saysNothing hstart, begin_of_option hl.statement hheading,
    hl.indent, openOption_eq, take, hnamed, hlower]
  dsimp only
  split
  · rfl
  · rfl

end

theorem run_append (r : Reader) (number : Nat) (ls ls' : List Line) :
    r.run number (ls ++ ls') = r.run number ls >>= fun s => s.run (number + ls.length) ls' := by
  induction ls generalizing r number with
  | nil => rfl
  | cons l ls ih =>
    rw [List.cons_append, run, run]
    cases r.step number l with
    | error fault => rfl
    | ok s =>
      have hnumber : number + 1 + ls.length = number + (ls.length + 1) := by omega
      dsimp only
      rw [ih, List.length_cons, hnumber]

/-! ## Near states -/

/-- Two states of reading differ in the order of options, and in which option comes last. -/
structure Near (r r' : Reader) : Prop where
  heading : r.heading = r'.heading
  option : r.option.isSome = r'.option.isSome
  indent : r.indent = r'.indent
  unreadable : r.unreadable = r'.unreadable
  document : r.document.SameTexts r'.document

theorem Near.refl (r : Reader) : Near r r := ⟨rfl, rfl, rfl, rfl, .refl _⟩

theorem Near.trans (h : Near r s) (h' : Near s t) : Near r t where
  heading := h.heading.trans h'.heading
  option := h.option.trans h'.option
  indent := h.indent.trans h'.indent
  unreadable := h.unreadable.trans h'.unreadable
  document := h.document.trans h'.document

/-- One option more, of the same text. -/
theorem Near.take (h : Near r r') {o : Line × Line} (ht : r.take heading o = some t) :
    ∃ t', r'.take heading o = some t' ∧ Near t t' := by
  obtain ⟨hnew, rfl⟩ := take_eq_some_iff.1 ht
  refine ⟨_, take_eq_some_iff.2 ⟨(h.document.contains heading _).symm.trans hnew, rfl⟩,
    h.heading, rfl, rfl, h.unreadable, h.document.setOptions fun name => ?_⟩
  rw [Table.get?_set, Table.get?_set]
  split
  · rfl
  · exact h.document.texts heading name

/-- Two options that come one after the other may change places. -/
theorem exists_take_swap {o p : Line × Line} (ho : r.take heading o = some s)
    (hp : s.take heading p = some t) :
    ∃ s' t', r.take heading p = some s' ∧ s'.take heading o = some t' ∧ Near t t' := by
  obtain ⟨hnewo, rfl⟩ := take_eq_some_iff.1 ho
  obtain ⟨hnewp, rfl⟩ := take_eq_some_iff.1 hp
  dsimp only at hnewp ⊢
  rw [Document.optionsOf_setOptions, if_pos rfl, Table.contains, Table.get?_set] at hnewp
  have hne : Text.lowercase p.1 ≠ Text.lowercase o.1 := fun heq => by
    rw [if_pos heq] at hnewp
    exact nomatch hnewp
  rw [if_neg hne] at hnewp
  refine ⟨_, _, take_eq_some_iff.2 ⟨hnewp, rfl⟩, take_eq_some_iff.2 ⟨?_, rfl⟩, rfl, rfl, rfl, rfl,
    ?_⟩
  · dsimp only
    rw [Document.optionsOf_setOptions, if_pos rfl, Table.contains, Table.get?_set,
      if_neg hne.symm]
    exact hnewo
  · constructor
    · intro other
      simp only [Document.hasSection_setOptions_eq]
    · intro other name
      simp only [Document.optionsOf_setOptions, if_true]
      split
      · rw [Table.get?_set, Table.get?_set, Table.get?_set, Table.get?_set]
        by_cases hnp : name = Text.lowercase p.1
        · rw [if_pos hnp, if_neg (hnp ▸ hne), if_pos hnp]
        · rw [if_neg hnp]
          split
          · rfl
          · rfl
      · rfl

theorem Near.foldlM_take {os : List (Line × Line)} (h : Near r r')
    (ht : os.foldlM (Reader.take heading) r = some t) :
    ∃ t', os.foldlM (Reader.take heading) r' = some t' ∧ Near t t' := by
  induction os generalizing r r' with
  | nil =>
    obtain rfl := Option.some.inj ht
    exact ⟨r', rfl, h⟩
  | cons o os ih =>
    rw [List.foldlM_cons] at ht ⊢
    obtain ⟨s, hs, ht⟩ := Option.bind_eq_some_iff.1 ht
    obtain ⟨s', hs', hnear⟩ := h.take hs
    rw [hs']
    exact ih hnear ht

/-- Options of one section may be taken up in any order. -/
theorem exists_foldlM_take {os os' : List (Line × Line)} (hperm : os.Perm os')
    (ht : os.foldlM (take heading) r = some t) :
    ∃ t', os'.foldlM (take heading) r = some t' ∧ Near t t' := by
  induction hperm generalizing r t with
  | nil => exact ⟨t, ht, .refl t⟩
  | cons o _ ih =>
    rw [List.foldlM_cons] at ht ⊢
    obtain ⟨s, hs, ht⟩ := Option.bind_eq_some_iff.1 ht
    rw [hs]
    exact ih ht
  | swap o p os =>
    rw [List.foldlM_cons] at ht ⊢
    obtain ⟨s, hs, ht⟩ := Option.bind_eq_some_iff.1 ht
    rw [List.foldlM_cons] at ht
    obtain ⟨u, hu, ht⟩ := Option.bind_eq_some_iff.1 ht
    obtain ⟨s', u', hs', hu', hnear⟩ := exists_take_swap hs hu
    obtain ⟨t', ht', hnear⟩ := hnear.foldlM_take ht
    refine ⟨t', ?_, hnear⟩
    rw [hs', Option.bind_eq_bind, Option.bind_some, List.foldlM_cons, hu']
    exact ht'
  | trans _ _ ih ih' =>
    obtain ⟨s, hs, hnear⟩ := ih ht
    obtain ⟨t', ht', hnear'⟩ := ih' hs
    exact ⟨t', ht', hnear.trans hnear'⟩

/-- Lines that say one option each are read as these options. -/
theorem run_of_saysOption {ls : List Line} {os : List (Line × Line)}
    (hls : List.Forall₂ SaysOption ls os) (hheading : r.heading = some heading) (number : Nat) :
    (r.run number ls).toOption = os.foldlM (take heading) r := by
  induction hls generalizing r number with
  | nil => rfl
  | @cons l o ls os hl _ ih =>
    have hstep : (r.step number l).toOption = _ := step_of_saysOption hl hheading
    rw [run, List.foldlM_cons, ← hstep]
    cases hs : r.step number l with
    | error fault => rfl
    | ok s =>
      rw [hs] at hstep
      have hnext : s.heading = some heading := by
        rw [(take_eq_some_iff.1 hstep.symm).2]
        exact hheading
      exact ih hnext _

/-! ## Lines that say nothing -/

theorem Near.skip (h : Near r r') (comment : Bool) : Near (r.skip comment) (r'.skip comment) := by
  have hoption := h.option
  unfold Reader.skip
  rw [h.heading]
  cases r'.heading with
  | none => exact h
  | some heading =>
    cases hr : r.option with
    | none =>
      rw [hr] at hoption
      have hr' : r'.option = none :=
        Option.not_isSome_iff_eq_none.1 (by rw [← hoption]; exact Bool.false_ne_true)
      rw [hr']
      exact h
    | some name =>
      rw [hr] at hoption
      obtain ⟨name', hr'⟩ := Option.isSome_iff_exists.1 hoption.symm
      rw [hr']
      dsimp only
      cases comment with
      | true => exact h
      | false =>
        refine ⟨h.heading, h.option, h.indent, h.unreadable, fun other => ?_, fun other own => ?_⟩
        · simp only [Bool.false_eq_true, if_false, extend, Document.hasSection_setOptions_eq,
            h.document.hasSection]
        · simp only [Bool.false_eq_true, if_false, texts_extend_nil, h.document.texts]

theorem Near.run_of_saysNothing {ls : List Line} (hls : ∀ l ∈ ls, SaysNothing l) (h : Near r r')
    (number : Nat) : ∃ t t', r.run number ls = .ok t ∧ r'.run number ls = .ok t' ∧ Near t t' := by
  induction ls generalizing r r' number with
  | nil => exact ⟨r, r', rfl, rfl, h⟩
  | cons l ls ih =>
    have hl := hls l List.mem_cons_self
    rw [run, run, step_of_saysNothing hl, step_of_saysNothing hl]
    exact ih (fun k hk => hls k (List.mem_cons_of_mem _ hk)) (h.skip _) (number + 1)

/-! ## Alike states -/

/-- Two states of reading differ in the order of options only: the last option is the same, with the
same lines. -/
structure Alike (r r' : Reader) : Prop extends Near r r' where
  last : r.option = r'.option
  lines : ∀ heading name, r.heading = some heading → r.option = some name →
    (r.document.optionsOf heading).get? name = (r'.document.optionsOf heading).get? name

theorem alike_start (source source' : String) : Alike (start source) (start source') :=
  { Near.refl (start source) with
    last := rfl
    lines := fun _ _ _ _ => rfl }

theorem Near.openSection (h : Near r r') {number : Nat} (ht : r.openSection number name = .ok t) :
    ∃ t', r'.openSection number name = .ok t' ∧ Alike t t' := by
  unfold Reader.openSection at ht ⊢
  rw [← h.document.hasSection]
  split at ht
  · exact nomatch ht
  · next hnew =>
    obtain rfl := Except.ok.inj ht
    rw [if_neg hnew]
    refine ⟨_, rfl, ⟨rfl, rfl, h.indent, h.unreadable, ?_⟩, rfl, fun _ _ _ hnone => nomatch hnone⟩
    dsimp only
    split
    · exact h.document
    · exact h.document.setOptions fun _ => rfl

theorem Near.openOption (h : Near r r') (hheading : r.heading = some heading) {number : Nat}
    {line : Line} (ht : r.openOption number line heading name value = .ok t) :
    ∃ t', r'.openOption number line heading name value = .ok t' ∧ Alike t t' := by
  rw [openOption_eq] at ht ⊢
  rw [← h.document.contains]
  split at ht
  · cases ht
  · next hnew =>
    obtain rfl := Except.ok.inj ht
    rw [if_neg hnew, ← h.unreadable]
    refine ⟨_, rfl, ⟨h.heading, rfl, h.indent, rfl, ?_⟩, rfl, fun own last hown hlast => ?_⟩
    · refine h.document.setOptions fun other => ?_
      rw [Table.get?_set, Table.get?_set]
      split
      · rfl
      · exact h.document.texts heading other
    · obtain rfl := Option.some.inj (hheading.symm.trans hown)
      dsimp only at hlast ⊢
      split at hlast
      · cases hlast
      · obtain rfl := Option.some.inj hlast
        rw [Document.optionsOf_setOptions, Document.optionsOf_setOptions, if_pos rfl, if_pos rfl,
          Table.get?_set_self, Table.get?_set_self]

theorem Alike.extend (h : Alike r r') (hheading : r.heading = some heading)
    (hoption : r.option = some name) (value : Line) :
    Alike (r.extend heading name value) (r'.extend heading name value) := by
  have hlines := h.lines heading name hheading hoption
  refine ⟨⟨h.heading, h.option, h.indent, h.unreadable, ?_⟩, h.last, fun own last hown hlast => ?_⟩
  · refine h.document.setOptions fun other => ?_
    rw [Table.get?_modify, Table.get?_modify, hlines]
    split
    · rfl
    · exact h.document.texts heading other
  · obtain rfl := Option.some.inj (hheading.symm.trans hown)
    obtain rfl := Option.some.inj (hoption.symm.trans hlast)
    rw [Reader.extend, Reader.extend]
    dsimp only
    rw [Document.optionsOf_setOptions, Document.optionsOf_setOptions, if_pos rfl, if_pos rfl,
      Table.get?_modify, Table.get?_modify, if_pos rfl, if_pos rfl, hlines]

theorem Alike.skip (h : Alike r r') (comment : Bool) :
    Alike (r.skip comment) (r'.skip comment) := by
  unfold Reader.skip
  rw [← h.heading, ← h.last]
  split
  · next heading name hheading hoption =>
    cases comment with
    | true => exact h
    | false => exact h.extend hheading hoption []
  · exact h

theorem Near.indented (h : Near r r') (n : Nat) :
    Near { r with indent := n } { r' with indent := n } :=
  ⟨h.heading, h.option, rfl, h.unreadable, h.document⟩

theorem Alike.begin (h : Alike r r') {number : Nat} {line stripped : Line}
    (ht : r.begin number line stripped = .ok t) :
    ∃ t', r'.begin number line stripped = .ok t' ∧ Alike t t' := by
  have hnear := h.toNear.indented (indentOf line)
  cases hs : Statement.ofLine stripped with
  | heading name =>
    rw [begin_of_heading hs] at ht ⊢
    exact hnear.openSection ht
  | option name value =>
    cases hheading : r.heading with
    | none =>
      rw [begin_of_none (by simp [hs]) hheading] at ht
      exact nomatch ht
    | some heading =>
      rw [begin_of_option hs hheading] at ht
      rw [begin_of_option hs (h.heading.symm.trans hheading)]
      exact hnear.openOption hheading ht
  | unreadable =>
    cases hheading : r.heading with
    | none =>
      rw [begin_of_none (by simp [hs]) hheading] at ht
      exact nomatch ht
    | some heading =>
      rw [begin_of_unreadable hs hheading] at ht
      obtain rfl := Except.ok.inj ht
      refine ⟨_, begin_of_unreadable hs (h.heading.symm.trans hheading),
        ⟨h.heading, h.option, rfl, ?_, h.document⟩, h.last, h.lines⟩
      exact congrArg (List.cons _) h.unreadable

/-- Nothing tells alike states apart. -/
theorem Alike.step (h : Alike r r') {number : Nat} {line : Line}
    (ht : r.step number line = .ok t) : ∃ t', r'.step number line = .ok t' ∧ Alike t t' := by
  by_cases hnothing : SaysNothing line
  · rw [step_of_saysNothing hnothing] at ht
    obtain rfl := Except.ok.inj ht
    exact ⟨_, step_of_saysNothing hnothing, h.skip _⟩
  · by_cases hdeeper : ∃ heading name, r.heading = some heading ∧ r.option = some name ∧
        r.indent < indentOf line
    · obtain ⟨heading, name, hheading, hoption, hdeeper⟩ := hdeeper
      rw [step_of_deeper hnothing hheading hoption hdeeper] at ht
      obtain rfl := Except.ok.inj ht
      refine ⟨_, step_of_deeper hnothing (h.heading.symm.trans hheading)
        (h.last.symm.trans hoption) (h.indent ▸ hdeeper), h.extend hheading hoption _⟩
    · have hstart : ∀ heading name, r.heading = some heading → r.option = some name →
          ¬ r.indent < indentOf line := fun heading name hheading hoption hlt =>
        hdeeper ⟨heading, name, hheading, hoption, hlt⟩
      rw [step_of_not_deeper hnothing hstart] at ht
      rw [step_of_not_deeper hnothing (h.heading ▸ h.last ▸ h.indent ▸ hstart)]
      exact h.begin ht

theorem Alike.run (h : Alike r r') {number : Nat} {ls : List Line}
    (ht : r.run number ls = .ok t) : ∃ t', r'.run number ls = .ok t' ∧ Alike t t' := by
  induction ls generalizing r r' number with
  | nil =>
    obtain rfl := Except.ok.inj ht
    exact ⟨r', rfl, h⟩
  | cons l ls ih =>
    rw [Reader.run] at ht ⊢
    cases hs : r.step number l with
    | error fault =>
      rw [hs] at ht
      cases ht
    | ok s =>
      rw [hs] at ht
      obtain ⟨s', hs', halike⟩ := h.step hs
      rw [hs']
      exact ih halike ht

/-- The start of a section makes near states alike. -/
theorem Near.step_of_startsSection (h : Near r r') {l : Line} (hl : StartsSection l) {number : Nat}
    (ht : r.step number l = .ok t) : ∃ t', r'.step number l = .ok t' ∧ Alike t t' := by
  have hstart : ∀ u : Reader, u.step number l = u.begin number l (Text.strip l) := fun u =>
    step_of_not_deeper hl.not_saysNothing fun _ _ _ _ => by rw [hl.1]; exact Nat.not_lt_zero _
  obtain ⟨-, name, hname⟩ := hl
  rw [hstart, begin_of_heading hname] at ht ⊢
  exact (h.indented _).openSection ht

/-! ## Reordered files -/

theorem Alike.run_reordered (h : Alike r r') {ls ls' : List Line} {os os' : List (Line × Line)}
    (hls : List.Forall₂ SaysOption ls os) (hls' : List.Forall₂ SaysOption ls' os')
    (hperm : os.Perm os') {number : Nat} (ht : r.run number ls = .ok t) :
    ∃ t', r'.run number ls' = .ok t' ∧ Near t t' := by
  cases hheading : r.heading with
  | some heading =>
    have htake := run_of_saysOption hls hheading number
    rw [ht] at htake
    obtain ⟨s, hs, hnear⟩ := exists_foldlM_take hperm htake.symm
    obtain ⟨t', ht', hnear'⟩ := h.toNear.foldlM_take hs
    refine ⟨t', eq_ok_of_toOption ?_, hnear.trans hnear'⟩
    rw [run_of_saysOption hls' (h.heading.symm.trans hheading), ht']
  | none =>
    cases hls with
    | nil =>
      obtain rfl := hperm.nil_eq
      cases hls'
      obtain rfl := Except.ok.inj ht
      exact ⟨r', rfl, h.toNear⟩
    | cons hl _ =>
      rw [Reader.run, step_of_no_heading hl hheading] at ht
      cases ht

theorem Near.run_after (h : Near r r') {after : List Line}
    (hafter : ∀ l ∈ after.head?, StartsSection l) {number : Nat}
    (ht : r.run number after = .ok t) : ∃ t', r'.run number after = .ok t' ∧ Near t t' := by
  cases after with
  | nil =>
    obtain rfl := Except.ok.inj ht
    exact ⟨r', rfl, h⟩
  | cons l after =>
    rw [Reader.run] at ht ⊢
    cases hs : r.step number l with
    | error fault =>
      rw [hs] at ht
      cases ht
    | ok s =>
      rw [hs] at ht
      obtain ⟨s', hs', halike⟩ := h.step_of_startsSection (hafter l rfl) hs
      obtain ⟨t', ht', halike⟩ := halike.run ht
      rw [hs']
      exact ⟨t', ht', halike.toNear⟩

theorem Near.finish (h : Near r r') {d : Document} (hf : r.finish = .ok d) :
    r'.finish = .ok r'.document := by
  unfold Reader.finish at hf ⊢
  rw [← h.unreadable]
  split at hf
  · rfl
  · exact nomatch hf

/-- A reordered file is read as a document that says the same in every section. -/
theorem exists_finish_reordered {ls ls' : List Line} (h : Reordered ls ls') {source : String}
    {d : Document} (hr : (start source).run 1 ls = .ok r) (hf : r.finish = .ok d)
    (source' : String) : ∃ r' d', (start source').run 1 ls' = .ok r' ∧ r'.finish = .ok d' ∧
      ∀ heading, d.SameIn heading d' := by
  have hregular := regular_finish hr hf
  obtain ⟨r', hr', hnear⟩ : ∃ r', (start source').run 1 ls' = .ok r' ∧ Near r r' := by
    obtain ⟨hls, hls', hperm, hnothing, hafter⟩ := h
    have hlength := hls.length_eq.trans (hperm.length_eq.trans hls'.length_eq.symm)
    rw [run_append] at hr
    obtain ⟨s, hs, hr⟩ := exists_of_bind_ok hr
    rw [run_append] at hr
    obtain ⟨t, ht, hr⟩ := exists_of_bind_ok hr
    obtain ⟨s', hs', halike⟩ := (alike_start source source').run hs
    obtain ⟨t', ht', hnear⟩ := halike.run_reordered hls hls' hperm ht
    obtain ⟨u, u', hu, hu', hnear⟩ := hnear.run_of_saysNothing hnothing _
    rw [run_append, hu] at hr
    obtain ⟨r', hr', hnear⟩ := hnear.run_after hafter hr
    refine ⟨r', ?_, hnear⟩
    rw [hlength] at hu' hr'
    rw [run_append, hs']
    show s'.run _ _ = _
    rw [run_append, ht']
    show t'.run _ _ = _
    rw [run_append, hu']
    exact hr'
  have hf' := hnear.finish hf
  refine ⟨r', _, hr', hf', fun heading => ?_⟩
  rw [← document_of_finish hf] at hregular ⊢
  exact hnear.document.sameIn hregular (regular_finish hr' hf') heading

end Reader

end FamilyStore.Ini
