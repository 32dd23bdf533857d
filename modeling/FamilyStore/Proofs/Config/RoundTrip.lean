import FamilyStore.Proofs.Config.Loading
import FamilyStore.Proofs.Ini.Written
import FamilyStore.Proofs.Reopening.Paths

/-!
Saving settings and loading them again.

Integers are saved as plain words, each on the line of its field, and read as the same integers. So
loading what was saved does what validation of the settings does: it gives the sizes when all of
them are positive, and fails for the first field that is not.
-/

namespace FamilyStore

/-- A path asks for a place at which a file is or can be made, whatever a file there holds. -/
def Files.TakesFile (t : Files) (path : String) : Prop :=
  Files.hasZero path = false ∧
    ∃ place, t.locateFile path = .ok place ∧ t.node? place ≠ some .directory

theorem Files.TakesFile.exists_write {t : Files} {path : String} (h : t.TakesFile path)
    (content : Bytes) : ∃ t', t.write path content = .ok t' := by
  obtain ⟨-, place, hplace, hnode⟩ := h
  simp only [write, hplace]
  cases hn : t.node? place with
  | none => exact ⟨_, rfl⟩
  | some node =>
    cases node with
    | file => exact ⟨_, rfl⟩
    | directory => exact absurd hn hnode

/-- If not all fields have a property, there is a first one that does not have it. -/
theorem ConfigField.exists_first {p : ConfigField → Prop} (h : ¬ ∀ field, p field) :
    ∃ field, ¬ p field ∧ ∀ other ∈ field.earlier, p other := by
  by_cases hcache : p .cacheSize
  · by_cases hdisk : p .diskSize
    · by_cases hkey : p .maxKeySize
      · refine ⟨.maxValueSize, fun hvalue => h fun field => ?_, ?_⟩
        · cases field <;> assumption
        · simp [earlier, all, hcache, hdisk, hkey]
      · exact ⟨.maxKeySize, hkey, by simp [earlier, all, hcache, hdisk]⟩
    · exact ⟨.diskSize, hdisk, by simp [earlier, all, hcache]⟩
  · exact ⟨.cacheSize, hcache, by simp [earlier, all]⟩

namespace Config

open Ini (Document IsWord Line)

/-! ## What is written -/

/-- Integers as options, each under the name of its field. -/
def written (n : ConfigField → Int) : List (Line × Line) :=
  ConfigField.all.map fun field => (field.name.toList, Text.intDigits (n field))

theorem isWord_sectionName : IsWord sectionName.toList :=
  .of_all (by decide) (by decide)

theorem isWord_name (field : ConfigField) : IsWord field.name.toList := by
  cases field <;> exact .of_all (by decide) (by decide)

theorem isWord_intDigits (n : Int) : IsWord (Text.intDigits n) := by
  refine ⟨Text.intDigits_ne_nil n, fun c hc => ?_⟩
  rcases Text.of_mem_intDigits hc with rfl | h
  · decide
  · simp [Ini.isPlain, h]

variable {n : ConfigField → Int}

theorem isWord_written (n : ConfigField → Int) : ∀ o ∈ written n, IsWord o.1 ∧ IsWord o.2 := by
  intro o ho
  obtain ⟨field, -, rfl⟩ := List.mem_map.1 ho
  exact ⟨isWord_name field, isWord_intDigits (n field)⟩

theorem nodup_names_written (n : ConfigField → Int) : ((written n).map Prod.fst).Nodup := by
  rw [written, List.map_map]
  exact (by decide : (ConfigField.all.map fun field => field.name.toList).Nodup)

theorem mem_written {name value : Line} (h : (name, value) ∈ written n) :
    ∃ field, name = field.name.toList ∧ value = Text.intDigits (n field) := by
  obtain ⟨field, -, heq⟩ := List.mem_map.1 h
  cases heq
  exact ⟨field, rfl, rfl⟩

theorem mem_names_written (field : ConfigField) :
    field.name.toList ∈ (written n).map Prod.fst := by
  rw [written, List.map_map]
  exact List.mem_map.2 ⟨field, by cases field <;> decide, rfl⟩

theorem percent_not_mem_intDigits (n : Int) : '%' ∉ Text.intDigits n :=
  Ini.not_mem_of_isPlain (isWord_intDigits n).plain (by decide)

variable {s : Settings}

/-- Integers with few enough digits can be saved. -/
theorem save_eq_ok (hs : ∀ field, s.get field = .int (n field))
    (hn : ∀ field, Text.isWritable (n field) = true) :
    save s = .ok (String.ofList (Ini.writeSection sectionName.toList (written n))) := by
  have hstore : ∀ field, storable (s.get field) =
      .ok (String.ofList (Text.intDigits (n field))) := by
    intro field
    simp [hs, storable, Value.plain?, Value.show?, Text.writeInt?, hn]
  have hcheck : ∀ field, checkPercent (String.ofList (Text.intDigits (n field))) = .ok () := by
    intro field
    rw [checkPercent, String.toList_ofList,
      Ini.strayPercent?_of_not_mem (percent_not_mem_intDigits _)]
  simp [save, options, ConfigField.all, List.mapM_cons, hstore, hcheck, written, bind,
    Except.bind, pure, Except.pure]

/-! ## What is read -/

/-- The file with the integers is read as a document with the options that were written. -/
theorem exists_document_written (n : ConfigField → Int) (path : String) :
    ∃ d, document path (Text.Utf8.encode (Ini.writeSection sectionName.toList (written n))) =
        .ok d ∧ d.hasSection sectionName.toList = true ∧
      ∀ name, d.raw? sectionName.toList name = Table.find? name (written n) := by
  obtain ⟨r, d, hr, hf, hs, hraw⟩ := Ini.Reader.exists_finish_writeSection isWord_sectionName
    (isWord_written n) (nodup_names_written n) path
  have htext := Text.readFile_encode fun _ hc =>
    Ini.toNat_of_mem_writeSection isWord_sectionName (isWord_written n) hc
  exact ⟨d, document_of_readFile htext hr hf, hs, hraw⟩

/-- What is saved and loaded is validated. -/
theorem load_written (hs : ∀ field, s.get field = .int (n field))
    (hn : ∀ field, Text.isWritable (n field) = true) (path : String) :
    load path (some (Text.Utf8.encode (Ini.writeSection sectionName.toList (written n)))) =
      s.validate := by
  obtain ⟨d, hd, hsection, hraw⟩ := exists_document_written n path
  have hsettings : settingsOf path d = .ok s := by
    refine (settingsOf_eq_ok_iff (regular_document hd) path).2 ⟨hsection, ?_, ?_⟩
    · intro name hsets
      obtain ⟨raw, hname⟩ := Document.sets_iff.1 hsets
      obtain ⟨field, rfl, rfl⟩ := mem_written (Table.mem_of_find? ((hraw name).symm.trans hname))
      refine ⟨field, Text.intDigits (n field), n field, rfl, ?_,
        Text.readInt?_intDigits (hn field), hs field⟩
      exact ⟨_, hname, Ini.valueOf_of_not_mem _ _ _ (percent_not_mem_intDigits _)⟩
    · intro field hsets
      rw [Document.sets_iff, hraw, ← Option.isSome_iff_exists, Option.not_isSome_iff_eq_none,
        Table.find?_eq_none_iff] at hsets
      exact absurd (mem_names_written field) hsets
  rw [load_of_document hd, hsettings]
  rfl

/-- Saving settings where a file can be, and loading them again, is validating them. -/
theorem exists_saveTo {files : Files} {path : String} (hp : files.TakesFile path)
    (hs : ∀ field, s.get field = .int (n field))
    (hn : ∀ field, Text.isWritable (n field) = true) :
    ∃ files', saveTo files path s = .ok files' ∧ loadFrom files' path = s.validate := by
  obtain ⟨files', hwrite⟩ := hp.exists_write
    (Text.Utf8.encode (Ini.writeSection sectionName.toList (written n)))
  refine ⟨files', ?_, ?_⟩
  · rw [saveTo, save_eq_ok hs hn]
    simp only [bind, Except.bind, hp.1, Bool.false_eq_true, if_false, String.toList_ofList, hwrite]
    rfl
  · rw [loadFrom, hp.1, if_neg Bool.false_ne_true, Files.read_of_write hwrite]
    exact load_written hs hn path

/-- Positive integers pass validation as they are. -/
theorem exists_sizes (hs : ∀ field, s.get field = .int (n field)) (hpos : ∀ field, 0 < n field) :
    ∃ sizes, s.validate = .ok sizes ∧ sizes.settings = s := by
  let size (field : ConfigField) : Size := ⟨(n field).toNat, Int.pos_iff_toNat_pos.1 (hpos field)⟩
  let sizes : Sizes := ⟨size .cacheSize, size .diskSize, size .maxKeySize, size .maxValueSize⟩
  have hget : ∀ field, s.get field = .int (sizes.get field).1 := by
    intro field
    rw [hs, ← Int.toNat_of_nonneg (Int.le_of_lt (hpos field))]
    cases field <;> rfl
  refine ⟨sizes, Settings.validate_eq_ok_iff.2 hget, ?_⟩
  exact Settings.ext_get fun field => (sizes.get_settings field).trans (hget field).symm

/-- Of integers that are not all positive, the first one that is not is blamed. -/
theorem exists_blamed (hs : ∀ field, s.get field = .int (n field))
    (hn : ∀ field, Text.isWritable (n field) = true) (hpos : ¬ ∀ field, 0 < n field) :
    ∃ field, n field ≤ 0 ∧ (∀ other ∈ field.earlier, 0 < n other) ∧
      s.validate = .error (.store (.sizeNotPositive field.name
        (String.ofList (Text.intDigits (n field))))) := by
  obtain ⟨field, hfield, hearlier⟩ := ConfigField.exists_first hpos
  have hle : n field ≤ 0 := Int.not_lt.1 hfield
  refine ⟨field, hle, hearlier, ?_⟩
  rw [Settings.validate_eq_error, hs, Settings.sizeFailure_int field (hn field)]
  · intro other hmem
    have hpass := hearlier other hmem
    rw [← Option.ne_none_iff_isSome, hs, Ne, Value.size?_int_eq_none_iff]
    omega
  · rw [hs, Value.size?_int_eq_none_iff]
    exact hle

/-- Settings of integers with few enough digits can be saved wherever a file can be, and loading
what was saved is validation: it gives back the settings when all fields are positive, and fails
for the first field that is not otherwise. -/
theorem saving_then_loading_validates {files : Files} {path : String} {s : Settings}
    {n : ConfigField → Int} (hp : files.TakesFile path) (hs : ∀ field, s.get field = .int (n field))
    (hn : ∀ field, (Text.natDigits (n field).natAbs).length ≤ Text.digitLimit) :
    ∃ files', saveTo files path s = .ok files' ∧
      loadFrom files' path = s.validate ∧
      ((∀ field, 0 < n field) →
        ∃ sizes, loadFrom files' path = .ok sizes ∧ sizes.settings = s) ∧
      ((¬ ∀ field, 0 < n field) →
        ∃ field, n field ≤ 0 ∧ (∀ other ∈ field.earlier, 0 < n other) ∧
          loadFrom files' path = .error (.store (.sizeNotPositive field.name
            (String.ofList (Text.intDigits (n field)))))) := by
  have hw : ∀ field, Text.isWritable (n field) = true := fun field =>
    Text.isWritable_iff_length.2 (hn field)
  obtain ⟨files', hsave, hload⟩ := exists_saveTo hp hs hw
  refine ⟨files', hsave, hload, ?_⟩
  rw [hload]
  exact ⟨exists_sizes hs, exists_blamed hs hw⟩

/-- A file that held no configuration is overwritten; the disk size is the first field in it that is
not positive. -/
theorem disk_size_blamed_first :
    ∃ files', saveTo ⟨"/", ⟨[(["c.ini"], .file [0xff])]⟩⟩ "/c.ini"
        ⟨.int 5, .int 0, .int (-3), .int 7⟩ = .ok files' ∧
      loadFrom files' "/c.ini" =
        .error (.store (.sizeNotPositive "disk_size_bytes" "0")) := by
  let n (field : ConfigField) : Int :=
    if field = .cacheSize then 5 else if field = .diskSize then 0
    else if field = .maxKeySize then -3 else 7
  obtain ⟨files', hsave, hload, -⟩ := @saving_then_loading_validates
    ⟨"/", ⟨[(["c.ini"], .file [0xff])]⟩⟩ "/c.ini" ⟨.int 5, .int 0, .int (-3), .int 7⟩ n
    ⟨by decide +kernel, ["c.ini"], by decide +kernel, by decide +kernel⟩
    (by intro field; cases field <;> rfl)
    (by intro field; cases field <;> decide +kernel)
  have hshown : Settings.sizeFailure .diskSize (.int 0) =
      .store (.sizeNotPositive "disk_size_bytes" "0") := by
    rw [Settings.sizeFailure_int .diskSize (by decide +kernel)]
    decide +kernel
  exact ⟨files', hsave, hload.trans (hshown ▸ Settings.validate_eq_error (by decide) rfl)⟩

end Config

end FamilyStore
