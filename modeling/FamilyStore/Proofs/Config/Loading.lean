import FamilyStore.Config.File
import FamilyStore.Proofs.Ini.Reading
import FamilyStore.Proofs.SizeLimits
import FamilyStore.Proofs.Text.Decimal

/-!
What loading takes from a document.

Every option that holds in the section of the fields must name a field, and its text must be an
integer; that integer is the setting. Fields without an option keep their defaults. In which order
the options are taken makes no difference, since none comes twice.
-/

namespace FamilyStore

/-! ## Fields -/

namespace ConfigField

theorem name_inj {field other : ConfigField} :
    field.name.toList = other.name.toList ↔ field = other := by
  rw [String.toList_inj]
  cases field <;> cases other <;> decide

theorem ofName?_eq_some_iff {name : String} {field : ConfigField} :
    ofName? name = some field ↔ name = field.name := by
  constructor
  · intro h
    have := List.find?_some h
    exact (beq_iff_eq.1 this).symm
  · rintro rfl
    cases field <;> decide

/-- The fields that are checked before a field. -/
def earlier (field : ConfigField) : List ConfigField := all.takeWhile (· ≠ field)

end ConfigField

namespace Settings

variable {s t : Settings}

theorem get_set (s : Settings) (field other : ConfigField) (v : Value) :
    (s.set field v).get other = if other = field then v else s.get other := by
  cases field <;> cases other <;> rfl

theorem get_defaults (field : ConfigField) : defaults.get field = .int field.default := by
  cases field <;> rfl

theorem ext_get (h : ∀ field, s.get field = t.get field) : s = t := by
  have hcache := h .cacheSize
  have hdisk := h .diskSize
  have hkey := h .maxKeySize
  have hvalue := h .maxValueSize
  cases s
  cases t
  simp only [get] at hcache hdisk hkey hvalue
  rw [hcache, hdisk, hkey, hvalue]

end Settings

/-! ## Validation -/

theorem Value.size?_eq_some_iff {v : Value} {n : Size} : v.size? = some n ↔ v = .int n.1 := by
  constructor
  · intro h
    cases v with
    | int m =>
      simp only [Value.size?] at h
      split at h
      · rw [← Option.some.inj h, Int.toNat_of_nonneg (by omega)]
      · exact absurd h (by simp)
    | null | bool | float | str | list | buffer => exact absurd h (by simp [Value.size?])
  · rintro rfl
    have hpos : (0 : Int) < n.1 := Int.natCast_pos.2 n.2
    simp only [Value.size?, dif_pos hpos, Int.toNat_natCast]

theorem Sizes.get_settings (sizes : Sizes) (field : ConfigField) :
    sizes.settings.get field = .int (sizes.get field).1 := by
  cases field <;> rfl

theorem Value.size?_int_eq_none_iff {n : Int} : (Value.int n).size? = none ↔ n ≤ 0 := by
  simp only [Value.size?]
  split <;> simp <;> omega

namespace Settings

variable {s : Settings}

/-- Settings pass when every field is a positive integer, which is then the size. -/
theorem validate_eq_ok_iff {sizes : Sizes} :
    s.validate = .ok sizes ↔ ∀ field, s.get field = .int (sizes.get field).1 := by
  constructor
  · exact fun h field => Value.size?_eq_some_iff.1 (validate_eq_ok h field)
  · intro h
    have hsize : ∀ field, s.sizeOf field = .ok (sizes.get field) := by
      intro field
      rw [sizeOf, Value.size?_eq_some_iff.2 (h field)]
    rw [validate, hsize, hsize, hsize, hsize]
    rfl

/-- An integer that can be written is shown in the failure. -/
theorem sizeFailure_int (field : ConfigField) {n : Int} (h : Text.isWritable n = true) :
    sizeFailure field (.int n) =
      .store (.sizeNotPositive field.name (String.ofList (Text.intDigits n))) := by
  simp [sizeFailure, Value.show?, Text.writeInt?, h]

/-- The first field that is no positive integer decides how validation fails. -/
theorem validate_eq_error {field : ConfigField}
    (hearlier : ∀ other ∈ field.earlier, ((s.get other).size?).isSome = true)
    (hfield : (s.get field).size? = none) :
    s.validate = .error (sizeFailure field (s.get field)) := by
  have hfail : s.sizeOf field = .error (sizeFailure field (s.get field)) := by
    rw [sizeOf, hfield]
  have hpass : ∀ other ∈ field.earlier, ∃ size, s.sizeOf other = .ok size := by
    intro other hmem
    obtain ⟨size, hsize⟩ := Option.isSome_iff_exists.1 (hearlier other hmem)
    exact ⟨size, by rw [sizeOf, hsize]⟩
  cases field with
  | cacheSize => simp [validate, hfail, bind, Except.bind]
  | diskSize =>
    obtain ⟨cache, hcache⟩ := hpass .cacheSize (by decide)
    simp [validate, hcache, hfail, bind, Except.bind]
  | maxKeySize =>
    obtain ⟨cache, hcache⟩ := hpass .cacheSize (by decide)
    obtain ⟨disk, hdisk⟩ := hpass .diskSize (by decide)
    simp [validate, hcache, hdisk, hfail, bind, Except.bind]
  | maxValueSize =>
    obtain ⟨cache, hcache⟩ := hpass .cacheSize (by decide)
    obtain ⟨disk, hdisk⟩ := hpass .diskSize (by decide)
    obtain ⟨key, hkey⟩ := hpass .maxKeySize (by decide)
    simp [validate, hcache, hdisk, hkey, hfail, bind, Except.bind]

end Settings

/-! ## Options -/

namespace Config

open Ini (Line Document)

variable {s t : Settings} {name value : Line}

/-- An option is taken when it names a field and its text is an integer. -/
theorem setOption_eq_ok_iff : setOption s name value = .ok t ↔
    ∃ field n, name = field.name.toList ∧ Text.readInt? value = some n ∧
      t = s.set field (.int n) := by
  unfold setOption
  cases hname : ConfigField.ofName? (String.ofList name) with
  | none =>
    constructor
    · exact fun h => absurd h (by simp)
    · rintro ⟨field, n, rfl, -, -⟩
      rw [String.ofList_toList, ConfigField.ofName?_eq_some_iff.2 rfl] at hname
      exact absurd hname (by simp)
  | some field =>
    have hfield : name = field.name.toList := by
      rw [← ConfigField.ofName?_eq_some_iff.1 hname, String.toList_ofList]
    cases hvalue : Text.readInt? value with
    | none => simp
    | some n =>
      constructor
      · intro h
        exact ⟨field, n, hfield, rfl, (Except.ok.inj h).symm⟩
      · rintro ⟨other, m, hother, hm, rfl⟩
        rw [ConfigField.name_inj.1 (hfield.symm.trans hother), Option.some.inj hm]

/-- Options with names of their own are taken when each of them is, whatever their order. Fields
that none of them names stay as they are. -/
theorem foldlM_setOption_eq_ok_iff {values : List (Line × Line)}
    (hn : (values.map Prod.fst).Nodup) :
    values.foldlM (fun s o => setOption s o.1 o.2) s = .ok t ↔
      (∀ name value, (name, value) ∈ values → ∃ field n, name = field.name.toList ∧
        Text.readInt? value = some n ∧ t.get field = .int n) ∧
      ∀ field, field.name.toList ∉ values.map Prod.fst → t.get field = s.get field := by
  induction values generalizing s with
  | nil =>
    constructor
    · intro h
      cases h
      simp
    · intro h
      exact congrArg Except.ok (Settings.ext_get fun field => (h.2 field (by simp)).symm)
  | cons o values ih =>
    rw [List.map_cons, List.nodup_cons] at hn
    rw [List.foldlM_cons]
    constructor
    · intro h
      obtain ⟨next, hnext, hrest⟩ := exists_of_bind_ok h
      obtain ⟨field, n, hname, hvalue, rfl⟩ := setOption_eq_ok_iff.1 hnext
      obtain ⟨hset, hleft⟩ := (ih hn.2).1 hrest
      constructor
      · intro name value hmem
        rcases List.mem_cons.1 hmem with rfl | hmem
        · refine ⟨field, n, hname, hvalue, ?_⟩
          rw [hleft field (hname ▸ hn.1), Settings.get_set, if_pos rfl]
        · exact hset name value hmem
      · intro other hother
        rw [List.map_cons, List.mem_cons, not_or] at hother
        have hne : other ≠ field := fun heq => hother.1 (heq ▸ hname.symm)
        rw [hleft other hother.2, Settings.get_set, if_neg hne]
    · rintro ⟨hset, hleft⟩
      obtain ⟨field, n, hname, hvalue, hfield⟩ := hset o.1 o.2 List.mem_cons_self
      rw [setOption_eq_ok_iff.2 ⟨field, n, hname, hvalue, rfl⟩]
      refine (ih hn.2).2 ⟨fun name value hmem => hset name value (List.mem_cons_of_mem _ hmem), ?_⟩
      intro other hother
      rw [Settings.get_set]
      split
      · rename_i heq
        rw [heq, hfield]
      · rename_i hne
        refine hleft other ?_
        rw [List.map_cons, List.mem_cons, not_or]
        exact ⟨fun heq => hne (ConfigField.name_inj.1 (heq.trans hname)), hother⟩

theorem settingsOf_of_missing {d : Document} (path : String)
    (h : d.hasSection sectionName.toList = false) :
    settingsOf path d = .error (.store (.noConfigSection path sectionName)) := by
  simp [settingsOf, h, throw, throwThe, MonadExceptOf.throw, bind, Except.bind]

theorem settingsOf_of_values {d : Document} (path : String) {values : List (Line × Line)}
    (h : d.hasSection sectionName.toList = true)
    (hv : d.values sectionName.toList = .ok values) :
    settingsOf path d = values.foldlM (fun s o => setOption s o.1 o.2) Settings.defaults := by
  simp [settingsOf, h, hv]

theorem exists_of_settingsOf {d : Document} {path : String} (h : settingsOf path d = .ok s) :
    d.hasSection sectionName.toList = true ∧
      ∃ values, d.values sectionName.toList = .ok values := by
  cases hs : d.hasSection sectionName.toList with
  | false =>
    rw [settingsOf_of_missing path hs] at h
    exact absurd h (by simp)
  | true =>
    cases hv : d.values sectionName.toList with
    | error fault =>
      simp [settingsOf, hs, hv, throw, throwThe, MonadExceptOf.throw] at h
    | ok values => exact ⟨rfl, values, rfl⟩

/-- The settings of a document are those that its options give, and the defaults for the rest. -/
theorem settingsOf_eq_ok_iff {d : Document} (hd : d.Regular) (path : String) :
    settingsOf path d = .ok s ↔ d.hasSection sectionName.toList = true ∧
      (∀ name, d.Sets sectionName.toList name → ∃ field text n, name = field.name.toList ∧
        d.Gives sectionName.toList name text ∧ Text.readInt? text = some n ∧
        s.get field = .int n) ∧
      ∀ field, ¬ d.Sets sectionName.toList field.name.toList →
        s.get field = .int field.default := by
  constructor
  · intro h
    obtain ⟨hs, values, hv⟩ := exists_of_settingsOf h
    rw [settingsOf_of_values path hs hv, foldlM_setOption_eq_ok_iff (hd.nodup_names hv)] at h
    refine ⟨hs, fun name hsets => ?_, fun field hsets => ?_⟩
    · obtain ⟨⟨_, text⟩, hmem, rfl⟩ := List.mem_map.1 ((hd.mem_names hv).2 hsets)
      obtain ⟨field, n, hname, htext, hfield⟩ := h.1 _ text hmem
      exact ⟨field, text, n, hname, (hd.mem_values hv).1 hmem, htext, hfield⟩
    · rw [h.2 field, Settings.get_defaults]
      rwa [hd.mem_names hv]
  · rintro ⟨hs, hgiven, hleft⟩
    obtain ⟨values, hv⟩ := hd.resolves_iff.1 fun name hsets => by
      obtain ⟨_, text, _, -, htext, -, -⟩ := hgiven name hsets
      exact ⟨text, htext⟩
    rw [settingsOf_of_values path hs hv, foldlM_setOption_eq_ok_iff (hd.nodup_names hv)]
    refine ⟨fun name value hmem => ?_, fun field hfield => ?_⟩
    · have hvalue := (hd.mem_values hv).1 hmem
      obtain ⟨field, text, n, hname, htext, hn, hfield⟩ := hgiven name hvalue.sets
      rw [hvalue.unique htext]
      exact ⟨field, n, hname, hn, hfield⟩
    · rw [hd.mem_names hv] at hfield
      rw [hleft field hfield, Settings.get_defaults]

/-! ## Files -/

variable {path : String} {content : Bytes} {d : Document}

/-- Text that can be decoded is read line by line. -/
theorem document_of_readFile {text : Line} {r : Ini.Reader}
    (ht : Text.readFile content = (text, none))
    (hr : (Ini.Reader.start path).run 1 (Text.lines text) = .ok r) (hf : r.finish = .ok d) :
    document path content = .ok d := by
  simp only [document, ht, hr, hf]

/-- A document that was found is what the lines of some text were read as. -/
theorem exists_finish_of_document (h : document path content = .ok d) :
    ∃ text r, Text.readFile content = (text, none) ∧
      (Ini.Reader.start path).run 1 (Text.lines text) = .ok r ∧ r.finish = .ok d := by
  unfold document at h
  cases ht : Text.readFile content with
  | mk text undecodable =>
    rw [ht] at h
    cases undecodable with
    | some cause =>
      dsimp only at h
      split at h
      · exact nomatch h
      · exact nomatch h
    | none =>
      dsimp only at h
      split at h
      · exact nomatch h
      · next r hr =>
        split at h
        · exact nomatch h
        · next hf =>
          cases h
          exact ⟨text, r, rfl, hr, hf⟩

theorem regular_document (h : document path content = .ok d) : d.Regular := by
  obtain ⟨text, r, -, hr, hf⟩ := exists_finish_of_document h
  exact Ini.Reader.regular_finish hr hf

theorem load_of_document (h : document path content = .ok d) :
    load path (some content) = settingsOf path d >>= Settings.validate := by
  rw [load, h]
  rfl

theorem exists_document_of_load {sizes : Sizes} (h : load path (some content) = .ok sizes) :
    ∃ d, document path content = .ok d := by
  obtain ⟨d, hd, -⟩ := exists_of_bind_ok h
  exact ⟨d, hd⟩

end Config

end FamilyStore
