import FamilyStore.DataFuncs.Recipe
import FamilyStore.Proofs.Points.Refinement
import FamilyStore.Proofs.Text.Utf8
import Mathlib.Data.List.Infix

/-!
Renderings in the buffers of the engine, and the names in its records.

`rendering_stays_in_buffer` says what becomes of a buffer: as much of the text as leaves room for
the closing zero byte, that byte, and no change behind it. Only an escape gets through; it leaves
the buffer as it was, without a closing byte. The text is cut by bytes, as is a name in its field,
so a cut may fall inside a character. `pieces_read_up_to_cut` says when a piece can be read again,
which part of the text it is then, and that else the bytes of one character are all that is in the
way.
-/

namespace FamilyStore

open Text.Utf8 (IsCut)

/-! ## Glyphs -/

/-- The character that stands for a glyph: a question mark for half of a surrogate pair. -/
def Glyph.shown : Glyph → Char
  | .char c => c
  | .unpaired => '?'

theorem Glyph.encode_eq (g : Glyph) : g.encode = String.utf8EncodeChar g.shown := by
  cases g <;> rfl

theorem Glyph.flatMap_encode (glyphs : List Glyph) :
    glyphs.flatMap Glyph.encode = Text.Utf8.encode (glyphs.map Glyph.shown) := by
  rw [Text.Utf8.encode, List.flatMap_map]
  exact congrArg (List.flatMap · glyphs) (funext Glyph.encode_eq)

/-! ## What is written -/

namespace DataFuncs

variable {f : DataFuncs} {slot : RenderSlot} {data : Bytes} {m : Nat} {glyphs : List Glyph}
  {typeName : String}

theorem room_of_pos (hm : 0 < m) : ¬ (!true || decide (m = 0)) = true := by
  have hne : m ≠ 0 := by omega
  simpa using hne

theorem render_of_ok (hm : 0 < m) {bs : Bytes}
    (h : f.rendering slot data >>= Rendering.encode (m - 1) = .ok bs) :
    f.render slot data true m = ⟨bs ++ [0], [], none⟩ := by
  rw [render, if_neg (room_of_pos hm), h]

theorem render_of_error (hm : 0 < m) {raised : Raised Unit}
    (h : f.rendering slot data >>= Rendering.encode (m - 1) = .error raised) :
    f.render slot data true m =
      ⟨raised.written, raised.events (renderFailed slot), raised.escape?⟩ := by
  rw [render, if_neg (room_of_pos hm), h]

theorem encode_text (h : f.rendering slot data = .ok (.text glyphs)) (limit : Nat) :
    f.rendering slot data >>= Rendering.encode limit =
      .ok ((Text.Utf8.encode (glyphs.map Glyph.shown)).take limit) := by
  rw [h, ← Glyph.flatMap_encode]
  rfl

theorem encode_other (h : f.rendering slot data = .ok (.other typeName)) (limit : Nat) :
    f.rendering slot data >>= Rendering.encode limit =
      .error (.failure (.argument (.noAttribute typeName "encode"))) := by
  rw [h]
  rfl

theorem encode_encoder {cut : Nat → Attempt Unit Bytes}
    (h : f.rendering slot data = .ok (.encoder cut)) (limit : Nat) :
    f.rendering slot data >>= Rendering.encode limit = cut limit := by
  rw [h]
  rfl

/-- A rendering escapes, or what it gives does when it encodes itself. -/
theorem encode_escape_iff {e : Escape Unit} {limit : Nat} :
    f.rendering slot data >>= Rendering.encode limit = .error (.escape e) ↔
      f.rendering slot data = .error (.escape e) ∨
      ∃ cut, f.rendering slot data = .ok (.encoder cut) ∧ cut limit = .error (.escape e) := by
  rw [bind_eq_error_iff]
  refine or_congr_right ⟨?_, fun ⟨cut, h, hcut⟩ => ⟨_, h, hcut⟩⟩
  rintro ⟨r, h, hr⟩
  cases r with
  | text glyphs => exact nomatch hr
  | other typeName => exact nomatch hr
  | encoder cut => exact ⟨cut, h, hr⟩

end DataFuncs

/-- An outcome writes so many bytes and a closing zero byte, all of them within the buffer. -/
structure RenderOutcome.Closes (o : RenderOutcome) (m : Nat) (shown : Bytes) : Prop where
  written_eq : o.written = shown ++ [0]
  room : shown.length + 1 ≤ m

namespace RenderOutcome.Closes

variable {o : RenderOutcome} {m : Nat} {shown : Bytes}

end RenderOutcome.Closes

/-- Up to the first zero byte, the buffer shows nothing of what was there before. -/
theorem RenderOutcome.takeWhile_over_of_written {o : RenderOutcome} {shown : Bytes}
    (h : o.written = shown ++ [0]) (buffer : Bytes) :
    (o.over buffer).takeWhile (· ≠ 0) = shown.takeWhile (· ≠ 0) := by
  have hbegins : shown.takeWhile (· ≠ 0) <+: shown := List.takeWhile_prefix _
  rw [RenderOutcome.over, h, List.append_assoc, List.singleton_append, List.takeWhile_append,
    List.takeWhile_cons_of_neg (by simp), List.append_nil]
  split
  · next hall => exact (hbegins.eq_of_length hall).symm
  · rfl

namespace DataFuncs

/-- Something that encodes itself leaves no more than it is cut to. -/
def KeepsCut (f : DataFuncs) (slot : RenderSlot) (data : Bytes) (limit : Nat) : Prop :=
  ∀ cut bs, f.rendering slot data = .ok (.encoder cut) → cut limit = .ok bs → bs.length ≤ limit

/-- What is encoded keeps to the cut. -/
theorem KeepsCut.length_le {f : DataFuncs} {slot : RenderSlot} {data : Bytes} {limit : Nat}
    {bs : Bytes} (hcut : f.KeepsCut slot data limit)
    (h : f.rendering slot data >>= Rendering.encode limit = .ok bs) : bs.length ≤ limit := by
  obtain ⟨r, hr, hbs⟩ := exists_of_bind_ok h
  cases r with
  | text glyphs =>
    obtain rfl := Except.ok.inj hbs
    exact List.length_take_le limit _
  | other typeName => exact nomatch hbs
  | encoder cut => exact hcut cut bs hr hbs

/-- A buffer that is there and has room for one byte takes what is shown and a zero byte, unless
something escapes: what is encoded is shown, and nothing if that fails. -/
theorem exists_closes (f : DataFuncs) (slot : RenderSlot) (data : Bytes) {m : Nat} (hm : 0 < m)
    (hcut : f.KeepsCut slot data (m - 1)) (hescaped : (f.render slot data true m).escaped = none) :
    ∃ shown, (f.render slot data true m).Closes m shown ∧
      (∀ bs, f.rendering slot data >>= Rendering.encode (m - 1) = .ok bs →
        shown = bs ∧ (f.render slot data true m).events = []) ∧
      (∀ cause, f.rendering slot data >>= Rendering.encode (m - 1) = .error (.failure cause) →
        shown = [] ∧ (f.render slot data true m).events = [renderFailed slot cause]) := by
  cases h : f.rendering slot data >>= Rendering.encode (m - 1) with
  | ok bs =>
    have hlength := hcut.length_le h
    rw [render_of_ok hm h]
    refine ⟨bs, ⟨rfl, by omega⟩, ?_, nofun⟩
    rintro _ ⟨⟩
    exact ⟨rfl, rfl⟩
  | error raised =>
    rw [render_of_error hm h] at hescaped ⊢
    cases raised with
    | escape e => exact nomatch hescaped
    | failure cause =>
      refine ⟨[], ⟨rfl, hm⟩, nofun, ?_⟩
      rintro _ ⟨⟩
      exact ⟨rfl, rfl⟩

end DataFuncs

/-! ## What can be read again -/

/-- What a buffer has up to its first zero byte after a rendering that is cut to a number of bytes;
before, it had the bytes `before` there. -/
structure Leaves (r : Attempt Unit Rendering) (limit : Nat) (before left : Bytes) : Prop where
  /-- A text is cut by bytes, and it ends at its first zero character. -/
  text : ∀ glyphs, r = .ok (.text glyphs) →
    IsCut ((glyphs.map Glyph.shown).takeWhile (· ≠ '\x00')) limit left
  other : ∀ typeName, r = .ok (.other typeName) → left = []
  failure : ∀ cause, r = .error (.failure cause) → left = []
  /-- Something that encodes itself need not be text. -/
  encoded : ∀ cut bs, r = .ok (.encoder cut) → cut limit = .ok bs → left = bs.takeWhile (· ≠ 0)
  uncut : ∀ cut cause, r = .ok (.encoder cut) → cut limit = .error (.failure cause) → left = []
  escape : ∀ e, (r = .error (.escape e) ∨
    ∃ cut, r = .ok (.encoder cut) ∧ cut limit = .error (.escape e)) → left = before

namespace DataFuncs

variable {f : DataFuncs} {slot : RenderSlot} {data : Bytes} {m : Nat}

/-- A failure closes the buffer at its first byte, and an escape does not. -/
theorem leaves_render (hm : 0 < m) (buffer : Bytes) :
    Leaves (f.rendering slot data) (m - 1) (buffer.takeWhile (· ≠ 0))
      (((f.render slot data true m).over buffer).takeWhile (· ≠ 0)) := by
  have hok : ∀ bs, f.rendering slot data >>= Rendering.encode (m - 1) = .ok bs →
      ((f.render slot data true m).over buffer).takeWhile (· ≠ 0) = bs.takeWhile (· ≠ 0) := by
    intro bs h
    rw [render_of_ok hm h]
    exact RenderOutcome.takeWhile_over_of_written rfl buffer
  have hfailure : ∀ cause,
      f.rendering slot data >>= Rendering.encode (m - 1) = .error (.failure cause) →
      ((f.render slot data true m).over buffer).takeWhile (· ≠ 0) = [] := by
    intro cause h
    rw [render_of_error hm h]
    rfl
  exact
    { text := fun glyphs h => by
        rw [hok _ (encode_text h _), ← List.take_takeWhile, Text.Utf8.takeWhile_encode]
        exact Text.Utf8.isCut_take _ _
      other := fun typeName h => hfailure _ (encode_other h _)
      failure := fun cause h => hfailure cause (bind_eq_error_iff.2 (.inl h))
      encoded := fun cut bs h hbs => hok bs ((encode_encoder h _).trans hbs)
      uncut := fun cut cause h hcause => hfailure cause ((encode_encoder h _).trans hcause)
      escape := fun e h => by
        rw [render_of_error hm (encode_escape_iff.2 h)]
        rfl }

end DataFuncs

theorem DataConfig.isCut_record (c : DataConfig) :
    IsCut (c.typeName.toList.takeWhile (· ≠ '\x00')) (typeNameField - 1)
      c.record.nameUpToZero := by
  rw [DataRecord.nameUpToZero, record, ← List.take_takeWhile, Text.Utf8.takeWhile_encode]
  exact Text.Utf8.isCut_take _ _

/-- What comes of reading a piece of text: the text, or the failure that names the flaw. -/
def readBack (left : Bytes) : Except Failure String :=
  match Text.Utf8.decode left with
  | .ok p => .ok (String.ofList p)
  | .error flaw => .error (.argument (.undecodable (flaw.undecodable left)))

namespace Engine.Run

/-- The engine fails where it cannot read the piece in its buffer again. -/
theorem run_debugText {e : Engine} {fh : FamilyHandle} {fam : Family} (h : Serves e fh fam)
    (slot : RenderSlot) (data : Bytes) :
    (debugText fh slot data).run e =
      ((readBack ((fam.config.funcs.render slot data true diagnosticsLength).written.takeWhile
          (· ≠ 0))).map fun text =>
        (text, (fam.config.funcs.render slot data true diagnosticsLength).events), e) := by
  unfold debugText
  rw [run_bind, run_family h]
  dsimp only
  generalize (fam.config.funcs.render slot data true diagnosticsLength).events = events
  generalize (fam.config.funcs.render slot data true diagnosticsLength).written.takeWhile
    (· ≠ 0) = left
  have hcharset : Text.Charset.utf8.decode left =
      (Text.Utf8.decode left).mapError (·.undecodable left) := rfl
  rw [hcharset, readBack]
  cases Text.Utf8.decode left <;> rfl

end Engine.Run

namespace Store

/-- Showing a key or a message of an open family. -/
theorem run_debugText {s : Store} (hs : Reachable s) {id : FamilyId}
    (hopen : s.isOpenFamily id = true) {config : DataConfig} (hconfig : s.config? id = some config)
    (slot : RenderSlot) (data : Bytes) :
    ((Run.debugText id slot data).run s).1 =
      readBack ((config.funcs.render slot data true
        Engine.Run.diagnosticsLength).written.takeWhile (· ≠ 0)) := by
  obtain ⟨f, fh, fam, ⟨hget, hhandle, -⟩, rfl, hserves, hrecord, -⟩ :=
    hs.founded.exists_configured hopen hconfig
  have hfuncs : fam.config.funcs = f.config.funcs := by
    rw [hrecord]
    rfl
  unfold Run.debugText
  rw [run_bind, Run.run_storeFamily hget]
  dsimp only
  rw [hhandle]
  dsimp only
  rw [run_bind, Run.run_engine, Engine.Run.run_debugText hserves, hfuncs]
  cases readBack _ <;> rfl

/-- Of a text longer than its buffer, as of a name longer than its field, a beginning is left that
is cut by bytes. If it can be read, it is a beginning of the text, up to its first zero character;
it can be read if the text fits or the cut falls between two characters, and else the bytes of
one character at its end are all that cannot. A rendering that fails, or is no text, leaves nothing,
and one that escapes what was there before. The engine, whose buffer has zeros before, shows a key
or a message if it can read what is left, and else fails with the flaw. -/
theorem pieces_read_up_to_cut (f : DataFuncs) (slot : RenderSlot) (data : Bytes) :
    (∀ (m : Nat) (buffer : Bytes), 0 < m →
      Leaves (f.rendering slot data) (m - 1) (buffer.takeWhile (· ≠ 0))
        (((f.render slot data true m).over buffer).takeWhile (· ≠ 0))) ∧
    (∀ config : DataConfig, config.funcs = f →
      IsCut (f.typeName.toList.takeWhile (· ≠ '\x00')) (typeNameField - 1)
        config.record.nameUpToZero) ∧
    ∀ (s : Store) (id : FamilyId) (config : DataConfig), Reachable s →
      s.isOpenFamily id = true → s.config? id = some config → config.funcs = f → ∃ left,
        ((Run.debugText id slot data).run s).1 = readBack left ∧
        Leaves (f.rendering slot data) (Engine.Run.diagnosticsLength - 1) [] left := by
  refine ⟨fun m buffer hm => DataFuncs.leaves_render hm buffer, fun config hfuncs => ?_,
    fun s id config hs hopen hconfig hfuncs => ?_⟩
  · subst hfuncs
    exact config.isCut_record
  · subst hfuncs
    have hroom : 0 < Engine.Run.diagnosticsLength := by decide
    have hleaves : Leaves (config.funcs.rendering slot data) (Engine.Run.diagnosticsLength - 1)
        [] _ := DataFuncs.leaves_render hroom []
    rw [RenderOutcome.over, List.drop_nil, List.append_nil] at hleaves
    exact ⟨_, run_debugText hs hopen hconfig slot data, hleaves⟩

/-! ## A character that is cut in two -/

/-- A text of letters that take two bytes each. -/
def accentedText (n : Nat) : String := String.ofList (List.replicate n 'é')

/-- Data functions with a name of 32 such letters, which show every key as 64 of them. -/
def accents : DataFuncs :=
  Recipe.funcs ⟨"Accents", .default, some (some (accentedText 32)), none, none, none,
    some (.always (.str (accentedText 64))), none⟩

/-- A store with a family of such data functions. -/
def accented : Store := withFamily accents

theorem rendering_accents (key : Bytes) :
    accents.rendering .key key = .ok (.text (List.replicate 64 (.char 'é'))) := by
  show Except.ok (Rendering.ofString (accentedText 64)) = _
  rw [Rendering.ofString, accentedText, String.toList_ofList, List.map_replicate]

theorem takeWhile_accents (n : Nat) :
    ((List.replicate n (Glyph.char 'é')).map Glyph.shown).takeWhile (· ≠ '\x00') =
      List.replicate n 'é' := by
  rw [List.map_replicate, List.takeWhile_replicate]
  exact if_pos (by decide)

theorem reachable_accented : Reachable accented := reachable_withFamily accents []

/-- In three bytes of a buffer there is room for one letter, and it can be read. The engine has room
for 127 bytes. -/
theorem one_accent_kept :
    IsCut (List.replicate 64 'é') 2
      (((accents.render .key [] true 3).over [1, 1, 1, 1]).takeWhile (· ≠ 0)) ∧
    Text.Utf8.decode (((accents.render .key [] true 3).over [1, 1, 1, 1]).takeWhile (· ≠ 0)) =
      .ok ['é'] ∧
    ∃ left, ((Run.debugText 0 .key []).run accented).1 = readBack left ∧
      IsCut (List.replicate 64 'é') 127 left := by
  have hopen : accented.isOpenFamily 0 = true := by decide +kernel
  have hid : ((Run.createFamily 0 (.ofClass accents) .null).run single).1.toOption = some 0 := by
    decide +kernel
  obtain ⟨config, hconfig, hfuncs⟩ := exists_config_withFamily hid []
  obtain ⟨hbuffer, -, hengine⟩ := pieces_read_up_to_cut accents .key []
  have hthree := hbuffer 3 [1, 1, 1, 1] (by decide)
  obtain ⟨left, hreply, hleaves⟩ :=
    hengine accented 0 config reachable_accented hopen hconfig hfuncs
  have hbytes := hthree.text _ (rendering_accents [])
  have hcut := hleaves.text _ (rendering_accents [])
  rw [takeWhile_accents] at hbytes hcut
  exact ⟨hbytes, by decide +kernel, left, hreply, hcut⟩

/-- The engine cannot show a key of these families, and the name in its record cannot be read. -/
theorem accent_cut_in_two :
    Reachable accented ∧ accented.isOpenFamily 0 = true ∧
    accents.rendering .key [] = .ok (.text (List.replicate 64 (.char 'é'))) ∧
    Text.Utf8.decode (((accents.render .key [] true 128).over (List.replicate 128 0)).takeWhile
      (· ≠ 0)) = .error ⟨126, 1, .unexpectedEnd⟩ ∧
    ((Run.debugText 0 .key []).run accented).1 =
      .error (.argument (.undecodable ⟨.utf8, 126, [0xC3], "unexpected end of data"⟩)) ∧
    ((accented.config? 0).map fun config => (config.typeName,
      Text.Utf8.decode config.record.nameUpToZero)) =
      some (accentedText 32, .error ⟨62, 1, .unexpectedEnd⟩) := by
  refine ⟨reachable_accented, ?_, rendering_accents [], ?_, ?_, ?_⟩
  · decide +kernel
  · decide +kernel
  · decide +kernel
  · decide +kernel

end Store

end FamilyStore
