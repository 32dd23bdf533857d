import FamilyStore.Proofs.Config.Loading
import FamilyStore.Proofs.Ini.Reordering

/-!
What files can be loaded, and as which sizes.

A file gives sizes exactly when it has the section of the fields, every option that holds there
names a field, and the text of each is a positive integer once its references are resolved. The
order of the options and the other sections do not matter. A file with values that are no such
sizes is refused as a faulty configuration, not with any other failure.
-/

namespace FamilyStore.Config

open Ini (Line Document)

variable {path : String} {content : Bytes} {d d' : Document} {s : Settings} {sizes : Sizes}

/-- Sizes agree with a document when each option that holds in the section of the fields names a
field and gives its size, and the fields without an option have their defaults. -/
structure Agrees (d : Document) (sizes : Sizes) : Prop where
  known : ∀ name, d.Sets sectionName.toList name → ∃ field : ConfigField, name = field.name.toList
  given : ∀ field : ConfigField, d.Sets sectionName.toList field.name.toList → ∃ text,
    d.Gives sectionName.toList field.name.toList text ∧
      Text.readInt? text = some ((sizes.get field).1 : Int)
  missing : ∀ field : ConfigField, ¬ d.Sets sectionName.toList field.name.toList →
    (sizes.get field).1 = field.default

/-- Settings that hold sizes are those of a document exactly when the sizes agree with it. -/
theorem settingsOf_eq_settings_iff (hd : d.Regular) (path : String) :
    settingsOf path d = .ok sizes.settings ↔
      d.hasSection sectionName.toList = true ∧ Agrees d sizes := by
  rw [settingsOf_eq_ok_iff hd]
  refine and_congr_right fun _ => ⟨fun ⟨hgiven, hleft⟩ => ⟨?_, ?_, ?_⟩, fun h => ⟨?_, ?_⟩⟩
  · intro name hsets
    obtain ⟨field, -, -, hname, -⟩ := hgiven name hsets
    exact ⟨field, hname⟩
  · intro field hsets
    obtain ⟨other, text, n, hname, htext, hn, hget⟩ := hgiven _ hsets
    cases ConfigField.name_inj.1 hname
    rw [Sizes.get_settings] at hget
    exact ⟨text, htext, by rw [hn, Value.int.inj hget]⟩
  · intro field hsets
    have hget := hleft field hsets
    rw [Sizes.get_settings] at hget
    exact Int.ofNat.inj (Value.int.inj hget)
  · intro name hsets
    obtain ⟨field, rfl⟩ := h.known name hsets
    obtain ⟨text, htext, hn⟩ := h.given field hsets
    exact ⟨field, text, _, rfl, htext, hn, sizes.get_settings field⟩
  · intro field hsets
    rw [Sizes.get_settings, h.missing field hsets]

/-- A file that can be read gives the sizes that agree with it, and no others. -/
theorem load_eq_ok_iff (h : document path content = .ok d) :
    load path (some content) = .ok sizes ↔
      d.hasSection sectionName.toList = true ∧ Agrees d sizes := by
  rw [load_of_document h, ← settingsOf_eq_settings_iff (regular_document h) path]
  constructor
  · intro hload
    obtain ⟨s, hs, hvalid⟩ := exists_of_bind_ok hload
    rw [hs]
    refine congrArg Except.ok (Settings.ext_get fun field => ?_)
    rw [Settings.validate_eq_ok_iff.1 hvalid, Sizes.get_settings]
  · intro hs
    rw [hs]
    exact Settings.validate_eq_ok_iff.2 sizes.get_settings

/-- Documents that say the same in the section of the fields agree with the same sizes. -/
theorem Agrees.same (h : Agrees d sizes) (hs : Document.SameIn sectionName.toList d d')
    (hd : d.Regular) (hd' : d'.Regular) : Agrees d' sizes where
  known := fun name hsets => h.known name ((hs.sets_iff hd hd').2 hsets)
  given := fun field hsets => by
    obtain ⟨text, htext, hn⟩ := h.given field ((hs.sets_iff hd hd').2 hsets)
    exact ⟨text, (hs.gives_iff hd hd').1 htext, hn⟩
  missing := fun field hsets => h.missing field fun hset => hsets ((hs.sets_iff hd hd').1 hset)

/-! ## Faulty configurations -/

/-- A result is no failure, or one that blames the configuration. -/
def Blames {α : Type} (r : Except Failure α) : Prop :=
  ∀ failure, r = .error failure → failure.kind = .configuration

namespace Blames

variable {α β : Type} {r : Except Failure α}

theorem ok (a : α) : Blames (.ok a) := fun _ h => nomatch h

theorem error {failure : Failure} (h : failure.kind = .configuration) :
    Blames (.error failure : Except Failure α) := fun _ heq => Except.error.inj heq ▸ h

theorem bind {f : α → Except Failure β} (hr : Blames r) (hf : ∀ a, r = .ok a → Blames (f a)) :
    Blames (r >>= f) := by
  cases r with
  | error failure => exact fun _ heq => hr _ (congrArg Except.error (Except.error.inj heq))
  | ok a => exact hf a rfl

end Blames

theorem blames_setOption (s : Settings) (name value : Line) : Blames (setOption s name value) := by
  unfold setOption
  split
  · exact .error rfl
  · split
    · exact .ok _
    · exact .error rfl

theorem blames_foldlM_setOption (values : List (Line × Line)) (s : Settings) :
    Blames (values.foldlM (fun s o => setOption s o.1 o.2) s) := by
  induction values generalizing s with
  | nil => exact .ok _
  | cons o values ih => exact .bind (blames_setOption s o.1 o.2) fun next _ => ih next

/-- Integers that can be written fail validation as a faulty configuration. -/
theorem blames_validate (hs : ∀ field, ∃ n, s.get field = .int n ∧ Text.isWritable n = true) :
    Blames s.validate := by
  have hsize : ∀ field, Blames (s.sizeOf field) := by
    intro field
    obtain ⟨n, hget, hn⟩ := hs field
    unfold Settings.sizeOf
    split
    · exact .ok _
    · rw [hget, Settings.sizeFailure_int field hn]
      exact .error rfl
  refine .bind (hsize _) fun a _ => .bind (hsize _) fun b _ => ?_
  exact .bind (hsize _) fun c _ => .bind (hsize _) fun d _ => .ok _

/-- What a document gives can be written: what was read has few enough digits, and so have the
defaults. -/
theorem isWritable_of_settingsOf (hd : d.Regular) (h : settingsOf path d = .ok s)
    (field : ConfigField) : ∃ n, s.get field = .int n ∧ Text.isWritable n = true := by
  obtain ⟨-, hgiven, hleft⟩ := (settingsOf_eq_ok_iff hd path).1 h
  by_cases hsets : d.Sets sectionName.toList field.name.toList
  · obtain ⟨other, text, n, hname, -, hn, hget⟩ := hgiven _ hsets
    cases ConfigField.name_inj.1 hname
    exact ⟨n, hget, Text.isWritable_of_readInt? hn⟩
  · exact ⟨_, hleft field hsets, by cases field <;> decide +kernel⟩

/-- A document whose references can all be resolved gives sizes or is refused as a faulty
configuration. -/
theorem blames_load (h : document path content = .ok d)
    (hv : d.hasSection sectionName.toList = true → d.Resolves sectionName.toList) :
    Blames (load path (some content)) := by
  have hd := regular_document h
  rw [load_of_document h]
  refine .bind ?_ fun s hs => blames_validate (isWritable_of_settingsOf hd hs)
  cases hsection : d.hasSection sectionName.toList with
  | false =>
    rw [settingsOf_of_missing path hsection]
    exact .error rfl
  | true =>
    obtain ⟨values, hvalues⟩ := hd.resolves_iff.1 (hv hsection)
    rw [settingsOf_of_values path hsection hvalues]
    exact blames_foldlM_setOption values _

/-! ## Soundness -/

/-- A document is faulty when it lacks the section of the fields, or when its values there, all of
which can be resolved, have an unknown option or one that is no positive integer among them. -/
inductive Faulty (d : Document) : Prop where
  | missing (h : d.hasSection sectionName.toList = false)
  | unknown (hv : d.Resolves sectionName.toList) {name : Line}
    (hs : d.Sets sectionName.toList name) (hn : ∀ field : ConfigField, name ≠ field.name.toList)
  | unsized (hv : d.Resolves sectionName.toList) {field : ConfigField} {text : Line}
    (ht : d.Gives sectionName.toList field.name.toList text)
    (hn : ∀ n, Text.readInt? text = some n → n ≤ 0)

/-- No sizes agree with a faulty document. -/
theorem Faulty.not_agrees (h : Faulty d) (hsection : d.hasSection sectionName.toList = true) :
    ¬ Agrees d sizes := by
  intro hagrees
  cases h with
  | missing hmissing => simp [hsection] at hmissing
  | unknown _ hs hn =>
    obtain ⟨field, hname⟩ := hagrees.known _ hs
    exact hn field hname
  | @unsized _ field _ ht hn =>
    obtain ⟨other, hother, hsize⟩ := hagrees.given field ht.sets
    rw [ht.unique hother] at hn
    have hle := hn _ hsize
    have hpos := (sizes.get field).2
    omega

theorem Faulty.resolves (h : Faulty d) (hsection : d.hasSection sectionName.toList = true) :
    d.Resolves sectionName.toList := by
  cases h with
  | missing hmissing => simp [hsection] at hmissing
  | unknown hv _ _ => exact hv
  | unsized hv _ _ => exact hv

/-- Files can be decoded, and their lines differ in the order of options. -/
def Reordered (content content' : Bytes) : Prop :=
  ∃ text text', Text.readFile content = (text, none) ∧ Text.readFile content' = (text', none) ∧
    Ini.Reordered (Text.lines text) (Text.lines text')

theorem Reordered.exists_document {content' : Bytes} (h : Reordered content content')
    (hd : document path content = .ok d) (path' : String) :
    ∃ d', document path' content' = .ok d' ∧ Document.SameIn sectionName.toList d d' := by
  obtain ⟨text, text', ht, ht', hlines⟩ := h
  obtain ⟨read, r, hread, hr, hf⟩ := exists_finish_of_document hd
  obtain rfl : read = text := (Prod.mk.inj (hread.symm.trans ht)).1
  obtain ⟨r', d', hr', hf', hsame⟩ := Ini.Reader.exists_finish_reordered hlines hr hf path'
  exact ⟨d', document_of_readFile ht' hr' hf', hsame _⟩

/-- What is loaded from a file is what its options say. The sizes are positive and agree with the
document in the file; another file whose document has the same options in the section of the fields
and among the defaults, in whatever order and with whatever other sections, gives the same sizes.
So does a file whose lines are those of the first one but for the order of options. A file with a
faulty document is refused as a faulty configuration. -/
theorem loading_is_sound (path : String) (content : Bytes) :
    (∀ sizes, load path (some content) = .ok sizes →
      (∀ field, 0 < (sizes.get field).1) ∧
      (∃ d, document path content = .ok d ∧ d.hasSection sectionName.toList = true ∧
        Agrees d sizes ∧
        ∀ path' content' d', document path' content' = .ok d' →
          Document.SameIn sectionName.toList d d' → load path' (some content') = .ok sizes) ∧
      ∀ path' content', Reordered content content' → load path' (some content') = .ok sizes) ∧
    ∀ d, document path content = .ok d → Faulty d →
      ∃ failure, load path (some content) = .error failure ∧ failure.kind = .configuration := by
  constructor
  · intro sizes hload
    obtain ⟨d, hd⟩ := exists_document_of_load hload
    obtain ⟨hsection, hagrees⟩ := (load_eq_ok_iff hd).1 hload
    have halike : ∀ path' content' d', document path' content' = .ok d' →
        Document.SameIn sectionName.toList d d' → load path' (some content') = .ok sizes := by
      intro path' content' d' hd' hsame
      refine (load_eq_ok_iff hd').2 ⟨hsame.present ▸ hsection, ?_⟩
      exact hagrees.same hsame (regular_document hd) (regular_document hd')
    refine ⟨fun field => (sizes.get field).2, ⟨d, hd, hsection, hagrees, halike⟩, ?_⟩
    intro path' content' hreordered
    obtain ⟨d', hd', hsame⟩ := hreordered.exists_document hd path'
    exact halike path' content' d' hd' hsame
  · intro d hd hfaulty
    cases hload : load path (some content) with
    | error failure => exact ⟨failure, rfl, blames_load hd hfaulty.resolves failure hload⟩
    | ok sizes =>
      obtain ⟨hsection, hagrees⟩ := (load_eq_ok_iff hd).1 hload
      exact absurd hagrees (hfaulty.not_agrees hsection)

/-- A file whose fields are set in two sections, one of them by a reference. -/
def inheritingFile : Bytes :=
  Text.Utf8.encode ("[DEFAULT]\nmax_key_size=8\n".toList ++
    "[splinterdb]\ncache_size_bytes=%(disk_size_bytes)s\nDISK_SIZE_BYTES:4_2\n\n".toList)

/-- The same options in another order, with another section beside them. -/
def shuffledFile : Bytes :=
  Text.Utf8.encode
    ("[splinterdb]\ndisk_size_bytes=4_2\nCache_size_bytes : %(disk_size_bytes)s\n".toList ++
      "[a]\nb=c\n[DEFAULT]\nmax_key_size=8".toList)

/-- A file with two options on a line each, and another section. -/
def plainText : Line :=
  "[splinterdb]\nmax_key_size = 8\nDISK_SIZE_BYTES:4_2\n\n[a]\nb=c\n d\n".toList

/-- The same file with the two options in the other order. -/
def swappedText : Line :=
  "[splinterdb]\nDISK_SIZE_BYTES:4_2\nmax_key_size = 8\n\n[a]\nb=c\n d\n".toList

theorem reordered_plainText :
    Reordered (Text.Utf8.encode plainText) (Text.Utf8.encode swappedText) := by
  have hplain : plainText.all (fun c => decide (c.toNat < 128)) = true := by decide +kernel
  have hswapped : swappedText.all (fun c => decide (c.toNat < 128)) = true := by decide +kernel
  refine ⟨plainText, swappedText,
    Text.readFile_encode fun c hc => of_decide_eq_true (List.all_eq_true.1 hplain c hc),
    Text.readFile_encode fun c hc => of_decide_eq_true (List.all_eq_true.1 hswapped c hc), ?_⟩
  have hkey : Ini.SaysOption "max_key_size = 8\n".toList ("max_key_size".toList, ['8']) := by
    decide +kernel
  have hdisk : Ini.SaysOption "DISK_SIZE_BYTES:4_2\n".toList
      ("DISK_SIZE_BYTES".toList, "4_2".toList) := by
    decide +kernel
  have hsection : Ini.StartsSection "[a]\n".toList :=
    ⟨by decide +kernel, ['a'], by decide +kernel⟩
  have hlines : Text.lines plainText = ["[splinterdb]\n".toList] ++
      (["max_key_size = 8\n".toList, "DISK_SIZE_BYTES:4_2\n".toList] ++
        ([['\n']] ++ ["[a]\n".toList, "b=c\n".toList, " d\n".toList])) := by
    decide +kernel
  have hlines' : Text.lines swappedText = ["[splinterdb]\n".toList] ++
      (["DISK_SIZE_BYTES:4_2\n".toList, "max_key_size = 8\n".toList] ++
        ([['\n']] ++ ["[a]\n".toList, "b=c\n".toList, " d\n".toList])) := by
    decide +kernel
  rw [hlines, hlines']
  refine .intro (.cons hkey (.cons hdisk .nil)) (.cons hdisk (.cons hkey .nil))
    (.swap _ _ []) ?_ ?_
  · exact fun l hl => List.mem_singleton.1 hl ▸ .inl (by decide)
  · exact fun l hl => Option.some.inj hl ▸ hsection

/-- A file with an option that is no field. -/
def misspeltFile : Bytes := Text.Utf8.encode "[splinterdb]\ncache_size=5".toList

/-- The order of the options and the other sections make no difference; an option that is not one of
the fields does. -/
theorem shuffled_options_load_alike :
    (∃ sizes, load "a.ini" (some inheritingFile) = .ok sizes ∧
      load "b.ini" (some shuffledFile) = .ok sizes ∧ (sizes.get .cacheSize).1 = 42) ∧
    (∃ sizes, load "d.ini" (some (Text.Utf8.encode plainText)) = .ok sizes ∧
      load "e.ini" (some (Text.Utf8.encode swappedText)) = .ok sizes) ∧
    ∃ failure, load "c.ini" (some misspeltFile) = .error failure ∧
      failure.kind = .configuration := by
  refine ⟨?_, ?_, ?_⟩
  · have hcache : (load "a.ini" (some inheritingFile)).toOption.map
        (fun sizes => (sizes.get .cacheSize).1) = some 42 := by
      decide +kernel
    have hsame : ∃ d ∈ (document "a.ini" inheritingFile).toOption,
        ∃ d' ∈ (document "b.ini" shuffledFile).toOption,
          Document.SameIn sectionName.toList d d' := by
      decide +kernel
    obtain ⟨sizes, hload, hcache⟩ := Option.map_eq_some_iff.1 hcache
    have hload := eq_ok_of_toOption hload
    obtain ⟨d, hd, d', hd', hsame⟩ := hsame
    obtain ⟨-, ⟨e, he, -, -, hother⟩, -⟩ := (loading_is_sound _ _).1 sizes hload
    obtain rfl : d = e := Except.ok.inj ((eq_ok_of_toOption hd).symm.trans he)
    exact ⟨sizes, hload, hother _ _ d' (eq_ok_of_toOption hd') hsame, hcache⟩
  · have hplain : (load "d.ini" (some (Text.Utf8.encode plainText))).toOption.isSome = true := by
      decide +kernel
    obtain ⟨sizes, hsizes⟩ := Option.isSome_iff_exists.1 hplain
    have hload := eq_ok_of_toOption hsizes
    obtain ⟨-, -, hreordered⟩ := (loading_is_sound _ _).1 sizes hload
    exact ⟨sizes, hload, hreordered _ _ reordered_plainText⟩
  · have hfaulty : ∃ d ∈ (document "c.ini" misspeltFile).toOption,
        (d.values sectionName.toList).toOption.isSome = true ∧
          d.Sets sectionName.toList "cache_size".toList := by
      decide +kernel
    obtain ⟨d, hd, hvalues, hsets⟩ := hfaulty
    have hd := eq_ok_of_toOption hd
    obtain ⟨values, hvalues⟩ := Option.isSome_iff_exists.1 hvalues
    have hresolves := (regular_document hd).resolves_iff.2 ⟨values, eq_ok_of_toOption hvalues⟩
    refine (loading_is_sound _ _).2 d hd (.unknown hresolves hsets fun field => ?_)
    cases field <;> decide

end FamilyStore.Config
