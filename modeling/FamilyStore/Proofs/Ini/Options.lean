import FamilyStore.Ini.Interpolation
import FamilyStore.Proofs.Table

/-!
What options say in a section.

An option has the text that its section gives it, or else the text that the defaults give it. In
which order a section has its options makes no difference, nor do the options of other sections:
references are looked up by name among the texts that hold in the section.
-/

namespace FamilyStore

namespace Table

variable {κ ν μ : Type} [DecidableEq κ]

theorem find?_map (f : ν → μ) (k : κ) (es : List (κ × ν)) :
    find? k (es.map fun e => (e.1, f e.2)) = (find? k es).map f := by
  induction es with
  | nil => rfl
  | cons e es ih =>
    by_cases he : e.1 = k
    · simp [find?, he]
    · simp [find?, he, ih]

theorem mem_of_find? {k : κ} {v : ν} {es : List (κ × ν)} (h : find? k es = some v) :
    (k, v) ∈ es := by
  induction es with
  | nil => simp [find?] at h
  | cons e es ih =>
    by_cases he : e.1 = k
    · simp only [find?, he, if_true, Option.some.injEq] at h
      rw [← he, ← h]
      exact List.mem_cons_self
    · simp only [find?, he, if_false] at h
      exact List.mem_cons_of_mem _ (ih h)

theorem isSome_get?_iff {t : Table κ ν} {k : κ} : (t.get? k).isSome = true ↔ k ∈ t.keys := by
  rw [Option.isSome_iff_exists]
  exact ⟨fun ⟨_, hv⟩ => mem_keys_of_get? hv, exists_get?_of_mem_keys⟩

/-- What is found after entries were set one by one: one of them, or what was there before. -/
theorem get?_foldl_set {es : List (κ × ν)} (hn : (es.map Prod.fst).Nodup) (t : Table κ ν) (k : κ) :
    (es.foldl (fun t e => t.set e.1 e.2) t).get? k = (find? k es).or (t.get? k) := by
  induction es generalizing t with
  | nil => rfl
  | cons e es ih =>
    rw [List.map_cons, List.nodup_cons] at hn
    rw [List.foldl_cons, ih hn.2, get?_set]
    by_cases he : k = e.1
    · have hlater : find? k es = none := (find?_eq_none_iff k es).2 (he ▸ hn.1)
      simp [find?, he, he ▸ hlater]
    · have he' : ¬ e.1 = k := fun hc => he hc.symm
      simp [find?, he, he']

/-- With one entry for each key, the order of the entries makes no difference. -/
theorem get?_perm {t t' : Table κ ν} (h : t.keys.Nodup) (h' : t'.keys.Nodup)
    (hp : t.entries.Perm t'.entries) (k : κ) : t.get? k = t'.get? k := by
  refine Option.ext fun v => ?_
  rw [get?_eq_some_iff h, get?_eq_some_iff h', hp.mem_iff]

theorem nodup_keys_foldl_set (es : List (κ × ν)) {t : Table κ ν} (h : t.keys.Nodup) :
    (es.foldl (fun t e => t.set e.1 e.2) t).keys.Nodup := by
  induction es generalizing t with
  | nil => exact h
  | cons e es ih => exact ih (nodup_keys_set h e.1 e.2)

end Table

namespace Ini

/-! ## Texts of options -/

theorem Options.get?_joined (options : Options) (name : Line) :
    options.joined.get? name = (options.get? name).map joinLines :=
  Table.find?_map joinLines name options.entries

theorem Options.keys_joined (options : Options) : options.joined.keys = options.keys := by
  simp [Options.joined, Table.keys]

/-- A document in which no options come twice in one section. -/
structure Document.Regular (d : Document) : Prop where
  defaults : d.defaults.keys.Nodup
  sections : ∀ {heading options}, d.sections.get? heading = some options → options.keys.Nodup

namespace Document

variable {d : Document}

/-- The text of an option before references are resolved: the section's own, or the defaults'. -/
def raw? (d : Document) (heading name : Line) : Option Line :=
  (((d.optionsOf heading).get? name).or (d.defaults.get? name)).map joinLines

theorem Regular.optionsOf (h : d.Regular) (heading : Line) :
    (d.optionsOf heading).keys.Nodup := by
  unfold Document.optionsOf
  split
  · exact h.defaults
  · cases hs : d.sections.get? heading with
    | none => exact List.nodup_nil
    | some options => exact h.sections hs

theorem Regular.nodup_effective (h : d.Regular) (heading : Line) :
    (d.effective heading).keys.Nodup :=
  Table.nodup_keys_foldl_set _ (by rw [Options.keys_joined]; exact h.defaults)

theorem Regular.get?_effective (h : d.Regular) (heading name : Line) :
    (d.effective heading).get? name = d.raw? heading name := by
  have hn : ((d.optionsOf heading).joined.entries.map Prod.fst).Nodup := by
    have := h.optionsOf heading
    rwa [← Options.keys_joined] at this
  rw [effective, Table.get?_foldl_set hn, raw?, Option.map_or, ← Options.get?_joined,
    ← Options.get?_joined]
  rfl

/-- The options that hold in a section are those that have a text there. -/
theorem Regular.mem_effective (h : d.Regular) {heading name raw : Line} :
    (name, raw) ∈ (d.effective heading).entries ↔ d.raw? heading name = some raw := by
  rw [← Table.get?_eq_some_iff (h.nodup_effective heading), h.get?_effective]

end Document

/-! ## References -/

variable {heading : Line} {options options' : RawOptions}

/-- References are resolved by looking options up, in whatever order they stand. -/
theorem expand_congr (h : ∀ name, options.get? name = options'.get? name)
    (heading option raw : Line) (depth : Nat) (s : Line) :
    expand ⟨heading, option, raw, options⟩ depth s =
      expand ⟨heading, option, raw, options'⟩ depth s := by
  induction depth generalizing s with
  | zero => rfl
  | succ depth ih =>
    have hpiece : Piece.value ⟨heading, option, raw, options⟩
          (expand ⟨heading, option, raw, options⟩ depth) =
        Piece.value ⟨heading, option, raw, options'⟩
          (expand ⟨heading, option, raw, options'⟩ depth) := by
      funext p
      cases p with
      | char | stray | unclosed => rfl
      | reference name => simp only [Piece.value, h, ih]
    rw [expand, expand, hpiece]

theorem valueOf_congr (h : ∀ name, options.get? name = options'.get? name)
    (heading option raw : Line) :
    valueOf heading options option raw = valueOf heading options' option raw :=
  expand_congr h heading option raw _ raw

theorem pieces_of_not_mem {s : Line} (h : '%' ∉ s) : pieces s = s.map Piece.char := by
  fun_induction pieces s with
  | case1 => rfl
  | case2 => simp at h
  | case3 => simp at h
  | case4 => simp at h
  | case5 => simp at h
  | case6 c s _ _ hc ih =>
    rw [List.mem_cons, not_or] at h
    rw [ih h.2, List.map_cons]

/-- A text without percent signs is its own value. -/
theorem valueOf_of_not_mem (heading option : Line) (options : RawOptions) {s : Line}
    (h : '%' ∉ s) : valueOf heading options option s = .ok s := by
  have hchars : ∀ (at_ : Place) (depth : Nat) (t : Line),
      valueOfPieces (Piece.value at_ (expand at_ depth)) (t.map Piece.char) = .ok t := by
    intro at_ depth t
    induction t with
    | nil => rfl
    | cons c t ih => simp [valueOfPieces, Piece.value, ih]
  have hdepth : Fault.depthLimit = 9 + 1 := rfl
  rw [valueOf, hdepth, expand, pieces_of_not_mem h, hchars]

theorem dropPercentPairs_of_not_mem {s : Line} (h : '%' ∉ s) : dropPercentPairs s = s := by
  fun_induction dropPercentPairs s with
  | case1 => rfl
  | case2 => simp at h
  | case3 c s _ ih =>
    rw [List.mem_cons, not_or] at h
    rw [ih h.2]

theorem dropReferences_of_not_mem {s : Line} (h : '%' ∉ s) : dropReferences s = s := by
  fun_induction dropReferences s with
  | case1 => rfl
  | case2 => simp at h
  | case3 => simp at h
  | case4 c s _ ih =>
    rw [List.mem_cons, not_or] at h
    rw [ih h.2]

/-- A text without percent signs can be stored. -/
theorem strayPercent?_of_not_mem {s : Line} (h : '%' ∉ s) : strayPercent? s = none := by
  simp [strayPercent?, dropPercentPairs_of_not_mem h, dropReferences_of_not_mem h, h]

theorem valuesOf_cons_eq_ok {o : Line × Line} {os values : List (Line × Line)} :
    valuesOf heading options (o :: os) = .ok values ↔
      ∃ first rest, valueOf heading options o.1 o.2 = .ok first ∧
        valuesOf heading options os = .ok rest ∧ values = (o.1, first) :: rest := by
  simp only [valuesOf]
  cases hfirst : valueOf heading options o.1 o.2 with
  | error fault => simp
  | ok first =>
    cases hrest : valuesOf heading options os with
    | error fault => simp
    | ok rest => simp [eq_comm]

/-- The values of options come under the names of the options, in their order. -/
theorem names_valuesOf {os values : List (Line × Line)}
    (h : valuesOf heading options os = .ok values) :
    values.map Prod.fst = os.map Prod.fst := by
  induction os generalizing values with
  | nil => cases h; rfl
  | cons o os ih =>
    obtain ⟨first, rest, -, hrest, rfl⟩ := valuesOf_cons_eq_ok.1 h
    rw [List.map_cons, List.map_cons, ih hrest]

/-- A value stands for an option whose text has that value. -/
theorem mem_valuesOf {os values : List (Line × Line)}
    (h : valuesOf heading options os = .ok values) {name value : Line} :
    (name, value) ∈ values ↔
      ∃ raw, (name, raw) ∈ os ∧ valueOf heading options name raw = .ok value := by
  induction os generalizing values with
  | nil => cases h; simp
  | cons o os ih =>
    obtain ⟨first, rest, hfirst, hrest, rfl⟩ := valuesOf_cons_eq_ok.1 h
    rw [List.mem_cons, ih hrest]
    constructor
    · rintro (heq | ⟨raw, hmem, hvalue⟩)
      · cases heq
        exact ⟨o.2, List.mem_cons_self, hfirst⟩
      · exact ⟨raw, List.mem_cons_of_mem _ hmem, hvalue⟩
    · rintro ⟨raw, hmem, hvalue⟩
      rcases List.mem_cons.1 hmem with rfl | hmem
      · rw [hfirst] at hvalue
        cases hvalue
        exact .inl rfl
      · exact .inr ⟨raw, hmem, hvalue⟩

/-- Options have values exactly when each of them has one. -/
theorem exists_valuesOf_iff {os : List (Line × Line)} :
    (∃ values, valuesOf heading options os = .ok values) ↔
      ∀ o ∈ os, ∃ value, valueOf heading options o.1 o.2 = .ok value := by
  induction os with
  | nil => simp [valuesOf]
  | cons o os ih =>
    rw [List.forall_mem_cons, ← ih]
    constructor
    · rintro ⟨values, h⟩
      obtain ⟨first, rest, hfirst, hrest, -⟩ := valuesOf_cons_eq_ok.1 h
      exact ⟨⟨first, hfirst⟩, rest, hrest⟩
    · rintro ⟨⟨first, hfirst⟩, rest, hrest⟩
      exact ⟨_, valuesOf_cons_eq_ok.2 ⟨first, rest, hfirst, hrest, rfl⟩⟩

namespace Document

variable {d d' : Document} {name text : Line} {values : List (Line × Line)}

/-- An option is set in a section, or else among the defaults. -/
def Sets (d : Document) (heading name : Line) : Prop :=
  name ∈ (d.optionsOf heading).keys ∨ name ∈ d.defaults.keys

instance (d : Document) (heading name : Line) : Decidable (d.Sets heading name) :=
  inferInstanceAs (Decidable (_ ∨ _))

theorem sets_iff : d.Sets heading name ↔ ∃ raw, d.raw? heading name = some raw := by
  rw [← Option.isSome_iff_exists, raw?, Option.isSome_map, Option.isSome_or, Bool.or_eq_true,
    Table.isSome_get?_iff, Table.isSome_get?_iff]
  rfl

/-- An option of a section has this text once all references in it are resolved. -/
def Gives (d : Document) (heading name text : Line) : Prop :=
  ∃ raw, d.raw? heading name = some raw ∧
    valueOf heading (d.effective heading) name raw = .ok text

theorem Gives.sets (h : d.Gives heading name text) : d.Sets heading name := by
  obtain ⟨raw, hraw, -⟩ := h
  exact sets_iff.2 ⟨raw, hraw⟩

/-- References are resolved in one way only. -/
theorem Gives.unique {text' : Line} (h : d.Gives heading name text)
    (h' : d.Gives heading name text') : text = text' := by
  obtain ⟨raw, hraw, htext⟩ := h
  obtain ⟨raw', hraw', htext'⟩ := h'
  cases hraw.symm.trans hraw'
  exact Except.ok.inj (htext.symm.trans htext')

/-- All references in a section can be resolved. -/
def Resolves (d : Document) (heading : Line) : Prop :=
  ∀ name, d.Sets heading name → ∃ text, d.Gives heading name text

/-- References can be resolved when the section has values. -/
theorem Regular.resolves_iff (h : d.Regular) :
    d.Resolves heading ↔ ∃ values, d.values heading = .ok values := by
  rw [values, exists_valuesOf_iff]
  constructor
  · rintro hv ⟨name, raw⟩ hmem
    have hraw := h.mem_effective.1 hmem
    obtain ⟨text, raw', hraw', htext⟩ := hv name (sets_iff.2 ⟨raw, hraw⟩)
    cases hraw.symm.trans hraw'
    exact ⟨text, htext⟩
  · intro hall name hsets
    obtain ⟨raw, hraw⟩ := sets_iff.1 hsets
    obtain ⟨text, htext⟩ := hall (name, raw) (h.mem_effective.2 hraw)
    exact ⟨text, raw, hraw, htext⟩

theorem Regular.mem_values (h : d.Regular) (hv : d.values heading = .ok values) :
    (name, text) ∈ values ↔ d.Gives heading name text := by
  rw [mem_valuesOf hv]
  exact exists_congr fun raw => and_congr_left fun _ => h.mem_effective

theorem Regular.mem_names (h : d.Regular) (hv : d.values heading = .ok values) :
    name ∈ values.map Prod.fst ↔ d.Sets heading name := by
  rw [names_valuesOf hv, sets_iff]
  simp only [List.mem_map, Prod.exists, exists_and_right, exists_eq_right, h.mem_effective]

theorem Regular.nodup_names (h : d.Regular) (hv : d.values heading = .ok values) :
    (values.map Prod.fst).Nodup := by
  rw [names_valuesOf hv]
  exact h.nodup_effective heading

/-- Documents say the same in a section when both have it or neither has it, and its options and
the defaults have the same texts in them, in whatever order. -/
structure SameIn (heading : Line) (d d' : Document) : Prop where
  present : d.hasSection heading = d'.hasSection heading
  own : (d.optionsOf heading).joined.entries.Perm (d'.optionsOf heading).joined.entries
  defaults : d.defaults.joined.entries.Perm d'.defaults.joined.entries

instance (heading : Line) (d d' : Document) : Decidable (SameIn heading d d') :=
  decidable_of_iff
    (d.hasSection heading = d'.hasSection heading ∧
      (d.optionsOf heading).joined.entries.Perm (d'.optionsOf heading).joined.entries ∧
      d.defaults.joined.entries.Perm d'.defaults.joined.entries)
    ⟨fun ⟨hp, ho, hd⟩ => ⟨hp, ho, hd⟩, fun ⟨hp, ho, hd⟩ => ⟨hp, ho, hd⟩⟩

theorem SameIn.raw? (hs : SameIn heading d d') (h : d.Regular) (h' : d'.Regular) (name : Line) :
    d.raw? heading name = d'.raw? heading name := by
  have hjoined : ∀ {options options' : Options}, options.keys.Nodup → options'.keys.Nodup →
      options.joined.entries.Perm options'.joined.entries →
      (options.get? name).map joinLines = (options'.get? name).map joinLines := by
    intro options options' hn hn' hp
    rw [← Options.keys_joined] at hn hn'
    rw [← Options.get?_joined, ← Options.get?_joined, Table.get?_perm hn hn' hp]
  rw [Document.raw?, Document.raw?, Option.map_or, Option.map_or,
    hjoined (h.optionsOf heading) (h'.optionsOf heading) hs.own,
    hjoined h.defaults h'.defaults hs.defaults]

theorem SameIn.sets_iff (hs : SameIn heading d d') (h : d.Regular) (h' : d'.Regular) :
    d.Sets heading name ↔ d'.Sets heading name := by
  rw [Document.sets_iff, Document.sets_iff, hs.raw? h h']

theorem SameIn.gives_iff (hs : SameIn heading d d') (h : d.Regular) (h' : d'.Regular) :
    d.Gives heading name text ↔ d'.Gives heading name text := by
  have hget : ∀ name, (d.effective heading).get? name = (d'.effective heading).get? name := by
    intro name
    rw [h.get?_effective, h'.get?_effective, hs.raw? h h']
  unfold Gives
  rw [hs.raw? h h']
  exact exists_congr fun raw => and_congr_right fun _ => by
    rw [valueOf_congr hget heading name raw]

end Document

end Ini

end FamilyStore
