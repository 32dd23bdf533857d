import FamilyStore.DataFuncs.Builtin
import FamilyStore.Proofs.Founded
import FamilyStore.Proofs.Points.Calls

/-!
Sizes, as they are given and as the engine has them.

A size may be any positive integer, and nothing compares it with the 64 bits of the engine's field.
The engine has the rest of the size modulo 2 ^ 64, so the two agree exactly when the size fits. A
family whose limit does not fit takes keys that the engine then finds too long.
-/

namespace FamilyStore

/-! ## Sizes in the engine's fields -/

theorem toNat_eq_iff (n : Nat) : (UInt64.ofNat n).toNat = n ↔ n < 2 ^ 64 := by
  rw [UInt64.toNat_ofNat']
  exact ⟨fun h => h ▸ Nat.mod_lt _ (by decide), Nat.mod_eq_of_lt⟩

theorem Settings.sizeOf_eq_ok {settings : Settings} {field : ConfigField} {size : Size}
    (h : settings.sizeOf field = .ok size) : (settings.get field).size? = some size := by
  unfold sizeOf at h
  cases hs : (settings.get field).size? with
  | none =>
    rw [hs] at h
    exact absurd h (by simp)
  | some n =>
    rw [hs] at h
    rw [Except.ok.inj h]

/-- Sizes that pass validation are the integers that were asked for. -/
theorem Settings.validate_eq_ok {settings : Settings} {sizes : Sizes}
    (h : settings.validate = .ok sizes) (field : ConfigField) :
    (settings.get field).size? = some (sizes.get field) := by
  obtain ⟨cacheSize, hcache, h⟩ := exists_of_bind_ok h
  obtain ⟨diskSize, hdisk, h⟩ := exists_of_bind_ok h
  obtain ⟨maxKeySize, hkey, h⟩ := exists_of_bind_ok h
  obtain ⟨maxValueSize, hvalue, h⟩ := exists_of_bind_ok h
  obtain rfl : ⟨cacheSize, diskSize, maxKeySize, maxValueSize⟩ = sizes := Except.ok.inj h
  cases field with
  | cacheSize => exact sizeOf_eq_ok hcache
  | diskSize => exact sizeOf_eq_ok hdisk
  | maxKeySize => exact sizeOf_eq_ok hkey
  | maxValueSize => exact sizeOf_eq_ok hvalue

/-- The key size of a configuration is the integer that was asked for. -/
theorem DataConfig.size?_of_make {funcs : DataFuncs} {size limit : Value} {c : DataConfig}
    (h : DataConfig.make funcs size limit = .ok c) : size.size? = some ⟨c.maxKeySize, c.pos⟩ := by
  unfold DataConfig.make at h
  cases hs : size.size? with
  | none =>
    rw [hs] at h
    exact absurd h (by simp)
  | some n =>
    rw [hs] at h
    obtain ⟨above, -, h⟩ := exists_of_bind_ok h
    cases above with
    | true => exact absurd h (by simp [throw, throwThe, MonadExceptOf.throw, bind, Except.bind])
    | false =>
      obtain rfl : (⟨funcs, n.1, n.2⟩ : DataConfig) = c := Except.ok.inj h
      rfl

namespace Engine.Run

variable {fam : Family}

/-- A key is too long for the engine when it is longer than what is left of the limit. -/
theorem isTooLong_eq {c : DataConfig} (h : fam.config = c.record) (length : Nat) :
    isTooLong fam length = decide (c.maxKeySize % 2 ^ 64 < length) := by
  unfold isTooLong
  rw [h, DataConfig.record, UInt64.toNat_ofNat']

end Engine.Run

namespace Store

/-- The engine finds a key too long, when it is written and when it is updated, exactly when the
handle does. -/
def SameTest (fam : Engine.Family) (f : Family) : Prop :=
  ∀ key slice, Slice.ofValue key = .ok slice →
    Engine.Run.isTooLong fam (slice.span key.contents).length =
      decide (f.config.maxKeySize < slice.length) ∧
    Engine.Run.isTooLong fam (slice.span key.contents).read.length =
      decide (f.config.maxKeySize < slice.length)

variable {s : Store} {id : FamilyId} {f : Family} {fh : Engine.FamilyHandle}
  {fam : Engine.Family} {key value delta : Value}

/-- The tests agree exactly when the limit fits: otherwise a key as long as the limit is taken by
the handle, and not by the engine. -/
theorem sameTest_iff (h : fam.config = f.config.record) :
    SameTest fam f ↔ f.config.maxKeySize < 2 ^ 64 := by
  constructor
  case mp =>
    intro hsame
    let longest : Bytes := List.replicate f.config.maxKeySize 0
    have hlength : longest.length = f.config.maxKeySize := List.length_replicate
    obtain ⟨htest, -⟩ := hsame (.bytes longest) ⟨longest.length, .shared⟩ rfl
    have htest : Engine.Run.isTooLong fam longest.length =
        decide (f.config.maxKeySize < longest.length) := htest
    rw [Engine.Run.isTooLong_eq h, hlength, decide_eq_false (Nat.lt_irrefl _),
      decide_eq_false_iff_not] at htest
    exact Nat.lt_of_le_of_lt (Nat.not_lt.1 htest) (Nat.mod_lt _ (by decide))
  case mpr =>
    intro hlt key slice hslice
    rcases Slice.ofValue_cases key with ⟨-, slice', hs, hlen, hspan, hread⟩ | ⟨-, failure, hs⟩
    · obtain rfl := Except.ok.inj (hs.symm.trans hslice)
      rw [hspan, hread, hlen, Engine.Run.isTooLong_eq h, Nat.mod_eq_of_lt hlt]
      exact ⟨rfl, rfl⟩
    · exact absurd (hs.symm.trans hslice) (by simp)

/-- A key and a value that the handle takes are written if the key is within what the engine has of
the limit; otherwise the engine finds the key invalid. -/
theorem insert_by_length (h : Serves s id f fh) (hs : Engine.Run.Serves s.engine fh fam)
    (hc : fam.config = f.config.record) (hk : key.isKey f.config.maxKeySize = true)
    (hv : value.isAccepted = true)
    (hp : Engine.Run.pendingStatus s.engine .insert = Status.success) :
    (s.perform (.point id (.insert key value))).1 =
      if f.config.maxKeySize % 2 ^ 64 < key.contents.length then
        .error (.store (.engine .insert Status.invalid)) else .ok .done := by
  obtain ⟨span, hspan, hlen, -⟩ := Family.span_of_isKey hk
  obtain ⟨slice, hslice, -⟩ := Slice.ofValue_of_isAccepted hv
  have hreply := Engine.Run.insert_reply hs span (slice.span value.contents)
  rw [hp, if_neg (not_not_intro rfl), Engine.Run.isTooLong_eq hc, hlen] at hreply
  have hrun : s.perform (.point id (.insert key value)) = _ := run_map _ _ s
  rw [hrun]
  unfold Run.insert
  rw [Run.run_valued h hspan hslice, run_bind, Run.run_engine, hreply]
  dsimp only
  by_cases hlong : f.config.maxKeySize % 2 ^ 64 < key.contents.length
  · rw [decide_eq_true hlong, if_pos rfl, if_pos hlong]
    rfl
  · rw [decide_eq_false hlong, if_neg Bool.false_ne_true, if_neg hlong]
    rfl

/-- An update of a key that the handle takes comes to what its merge comes to, if the key is within
what the engine has of the limit; otherwise the engine finds the key invalid. -/
theorem update_by_length (h : Serves s id f fh) (hs : Engine.Run.Serves s.engine fh fam)
    (hc : fam.config = f.config.record) (hk : key.isKey f.config.maxKeySize = true)
    (hv : delta.isAccepted = true)
    (hp : Engine.Run.pendingStatus s.engine .update = Status.success) {o : MergeOutcome}
    (ho : Engine.Run.mergeOutcome f.config.funcs (s.engine.recordsOf fam.store) key.contents
      ⟨delta.contents⟩ s.engine.refuseResize = o) :
    (s.perform (.point id (.update key delta))).1 =
      if f.config.maxKeySize % 2 ^ 64 < key.contents.length then
        .error (.store (.engine .update Status.invalid))
      else if o.status = Status.success then .ok .done
      else .error (Run.statusFailure .update o.status) := by
  obtain ⟨span, hspan, -, hread⟩ := Family.span_of_isKey hk
  obtain ⟨slice, hslice, hdelta⟩ := Slice.ofValue_of_isAccepted hv
  have hmerge : Engine.Run.mergeOutcome fam.config.funcs (s.engine.recordsOf fam.store) span.read
      ⟨(slice.span delta.contents).read⟩ s.engine.refuseResize = o := by
    rw [hread, hdelta, hc]
    exact ho
  have hreply := Engine.Run.update_reply hs span (slice.span delta.contents) hmerge
  rw [hp, if_neg (not_not_intro rfl), Engine.Run.isTooLong_eq hc, hread] at hreply
  have hrun : s.perform (.point id (.update key delta)) = _ := run_map _ _ s
  rw [hrun]
  unfold Run.update
  rw [Run.run_valued h hspan hslice, run_bind, Run.run_engine, hreply]
  dsimp only
  by_cases hlong : f.config.maxKeySize % 2 ^ 64 < key.contents.length
  · rw [decide_eq_true hlong, if_pos rfl, if_pos hlong]
    rfl
  · rw [decide_eq_false hlong, if_neg Bool.false_ne_true, if_neg hlong]
    dsimp only
    rw [run_bind, Run.run_note]
    dsimp only
    unfold Run.checkStatus
    rw [run_ite]
    by_cases hstatus : o.status = Status.success
    · rw [if_pos hstatus, if_pos hstatus]
      rfl
    · rw [if_neg hstatus, if_neg hstatus]
      rfl

/-- Sizes that are accepted are the integers that were asked for, and the engine has the same sizes
exactly when they fit into 64 bits. So the two tests of a key agree exactly in families whose limit
fits, where a key that the handle takes is never refused for its length. In other families the
engine refuses the keys that are longer than the limit modulo 2 ^ 64. -/
theorem sizes_agree_iff {s : Store} (hs : Reachable s) :
    (∀ settings sizes path block, Settings.validate settings = .ok sizes →
      (∀ field, (settings.get field).size? = some (sizes.get field)) ∧
      ((Run.databaseRecord path sizes block).cacheSize.toNat = sizes.cacheSize.1 ↔
        sizes.cacheSize.1 < 2 ^ 64) ∧
      ((Run.databaseRecord path sizes block).diskSize.toNat = sizes.diskSize.1 ↔
        sizes.diskSize.1 < 2 ^ 64)) ∧
    (∀ funcs size limit c, DataConfig.make funcs size limit = .ok c →
      size.size? = some ⟨c.maxKeySize, c.pos⟩ ∧
      (c.record.maxKeySize.toNat = c.maxKeySize ↔ c.maxKeySize < 2 ^ 64)) ∧
    ∀ id f fh, Serves s id f fh → ∃ fam, Engine.Run.Serves s.engine fh fam ∧
      (fam.config.maxKeySize.toNat = f.config.maxKeySize ↔ f.config.maxKeySize < 2 ^ 64) ∧
      (SameTest fam f ↔ f.config.maxKeySize < 2 ^ 64) ∧
      ∀ key value, key.isKey f.config.maxKeySize = true → value.isAccepted = true →
        (Engine.Run.pendingStatus s.engine .insert = Status.success →
          (s.perform (.point id (.insert key value))).1 =
            if f.config.maxKeySize % 2 ^ 64 < key.contents.length then
              .error (.store (.engine .insert Status.invalid)) else .ok .done) ∧
        (Engine.Run.pendingStatus s.engine .update = Status.success →
          (s.perform (.point id (.update key value))).1 =
            let o := Engine.Run.mergeOutcome f.config.funcs (s.stored id) key.contents
              ⟨value.contents⟩ s.engine.refuseResize
            if f.config.maxKeySize % 2 ^ 64 < key.contents.length then
              .error (.store (.engine .update Status.invalid))
            else if o.status = Status.success then .ok .done
            else .error (Run.statusFailure .update o.status)) := by
  refine ⟨fun settings sizes path block hv => ?_, fun funcs size limit c hc => ?_,
    fun id f fh hserves => ?_⟩
  · exact ⟨Settings.validate_eq_ok hv, toNat_eq_iff _, toNat_eq_iff _⟩
  · exact ⟨DataConfig.size?_of_make hc, toNat_eq_iff _⟩
  · obtain ⟨fam, hfam, hconfig, hengine⟩ := hs.founded.exists_inUse hserves
    refine ⟨fam, hfam, ?_, sameTest_iff hconfig, fun key value hk hv =>
      ⟨fun hp => ?_, fun hp => ?_⟩⟩
    · rw [hconfig]
      exact toNat_eq_iff _
    · exact insert_by_length hserves hfam hconfig hk hv hp
    · rw [stored_eq hengine]
      exact update_by_length hserves hfam hconfig hk hv hp rfl

/-- A family whose limit is the first one that does not fit. -/
def widen : List Operation :=
  [.connect (.str "db") { Settings.defaults with maxKeySize := .int (2 ^ 64) } false,
    .createFamily 0 (.ofInstance (DataFuncs.Builtin.funcs .default)) .null]

/-- A store with such a family. -/
def wide : Store := (Store.initial (.empty "/")).after widen

/-- The engine writes no key in this family but the empty one. -/
theorem empty_key_only :
    (wide.perform (.point 0 (.insert (.bytes []) (.bytes [1])))).1 = .ok .done ∧
    (wide.perform (.point 0 (.insert (.bytes [97]) (.bytes [1])))).1 =
      .error (.store (.engine .insert Status.invalid)) := by
  have hs : Reachable wide := (Reachable.initial _).after widen
  have hopen : wide.isOpenFamily 0 = true := by decide +kernel
  have hlimit : (wide.families.get? 0).any (fun f => f.config.maxKeySize == 2 ^ 64) = true := by
    decide +kernel
  have hp : Engine.Run.pendingStatus wide.engine .insert = Status.success := by decide +kernel
  obtain ⟨f, fh, hserves⟩ := exists_serves hopen
  have hmax : f.config.maxKeySize = 2 ^ 64 := by
    rw [hserves.1, Option.any_some] at hlimit
    exact beq_iff_eq.1 hlimit
  obtain ⟨fam, -, -, -, hreplies⟩ := (sizes_agree_iff hs).2.2 0 f fh hserves
  have hempty : Value.isKey (.bytes []) f.config.maxKeySize = true := by
    rw [hmax]
    decide
  have hone : Value.isKey (.bytes [97]) f.config.maxKeySize = true := by
    rw [hmax]
    decide
  refine ⟨((hreplies _ (.bytes [1]) hempty rfl).1 hp).trans ?_,
    ((hreplies _ (.bytes [1]) hone rfl).1 hp).trans ?_⟩
  · rw [hmax]
    rfl
  · rw [hmax]
    rfl

/-- A key of one byte is refused for its length, far below the limit of its family. -/
theorem limit_above_field :
    (wide.families.get? 0).any (fun f =>
      f.config.maxKeySize == 2 ^ 64 && f.config.record.maxKeySize == 0) = true ∧
    Value.isKey (.bytes [97]) (2 ^ 64) = true ∧
    ((Run.insert 0 (.bytes [97]) (.bytes [1])).run wide).1 =
      .error (.store (.engine .insert Status.invalid)) := by
  decide +kernel

end Store

end FamilyStore
