import FamilyStore.Proofs.Failing

/-!
What a point call does to records, whatever is set up and whatever comes of it.

A call that replies has done to the records of its family what the call says, in their order; no
other records change. A call that fails has changed no records at all.
-/

namespace FamilyStore

/-- A merge that succeeds leaves what the data functions gave, and may change lengths. -/
theorem Engine.merged_of_success {funcs : DataFuncs} {R : Engine.Records} {key delta : Bytes}
    {refuse : Bool} {o : MergeOutcome} (ho : Run.mergeOutcome funcs R key ⟨delta⟩ refuse = o)
    (hs : o.status = Status.success) :
    funcs.merged (R.get? key) key delta = .ok o.accumulator.contents := by
  subst ho
  rcases mergeOutcome_fault_or funcs R key delta refuse with hfault | ⟨-, hmerged⟩
  · exact absurd hs hfault.fits.1
  · exact hmerged

namespace Store

/-- What a call that succeeds makes of the records of its family. -/
def PointCall.onRecords (f : DataFuncs) (R : Engine.Records) : PointCall → Engine.Records
  | .insert key value => R.set key.contents value.contents
  | .update key delta =>
    match f.merged (R.get? key.contents) key.contents delta.contents with
    | .ok bs => R.set key.contents bs
    | .error _ => R
  | .delete key => R.erase key.contents
  | .lookup _ | .get _ _ | .contains _ => R

/-- No records change. -/
def SameRecords (s t : Store) : Prop := ∀ σ, t.engine.recordsOf σ = s.engine.recordsOf σ

/-- What a point call does to records. -/
inductive Wrote (s : Store) (id : FamilyId) (call : PointCall) :
    Except Failure Reply × Store → Prop
  | failed {failure : Failure} {t : Store} (h : SameRecords s t) :
      Wrote s id call (.error failure, t)
  | looked {reply : Reply} {t : Store} (h : SameRecords s t)
      (hcall : ∀ f R, call.onRecords f R = R) : Wrote s id call (.ok reply, t)
  | wrote {f : Family} {fam : Engine.Family} {t : Store} (hf : s.families.get? id = some f)
      (hfam : s.engineFamily? id = some fam)
      (h : Engine.Replaces fam.store
        (call.onRecords f.config.funcs (s.engine.recordsOf fam.store)) s.engine t.engine) :
      Wrote s id call (.ok .done, t)

theorem SameRecords.refl (s : Store) : SameRecords s s := fun _ => rfl

theorem SameRecords.of_sameCursors {s t : Store} (h : Engine.SameCursors [] s.engine t.engine) :
    SameRecords s t := by
  have hrecords : t.engine.records = s.engine.records := h.same .records (by decide)
  intro σ
  unfold Engine.recordsOf
  rw [hrecords]

namespace Run

variable {s : Store} {id : FamilyId} {call : PointCall}

/-- A call on a family reaches the engine with a good key, or changes nothing. -/
theorem wrote_keyed (hf : Founded s) (key : Value)
    (rest : Family × Engine.FamilyHandle → Span → Run Unit)
    (h : ∀ f fh fam span, Reaches s id key f fh fam span →
      Wrote s id call (((fun _ => Reply.done) <$> rest (f, fh) span).run s)) :
    Wrote s id call (((fun _ => Reply.done) <$>
      (openFamily id >>= fun r => keySpan r.1 key >>= rest r)).run s) := by
  rw [run_map]
  rcases keyed_cases hf id key rest with ⟨failure, hrun⟩ | ⟨f, fh, fam, span, hreach, hrun⟩
  · rw [hrun]
    exact .failed (.refl s)
  · rw [hrun, ← run_map]
    exact h f fh fam span hreach

theorem wrote_valued (value : Value) (rest : Span → Run Unit)
    (h : ∀ span, span.read = value.contents →
      Wrote s id call (((fun _ => Reply.done) <$> rest span).run s)) :
    Wrote s id call (((fun _ => Reply.done) <$> (valueSpan value >>= rest)).run s) := by
  rw [run_map]
  rcases valued_cases s value rest with ⟨failure, hrun⟩ | ⟨span, hread, hrun⟩
  · rw [hrun]
    exact .failed (.refl s)
  · rw [hrun, ← run_map]
    exact h span hread

theorem wrote_insert (hf : Founded s) (id : FamilyId) (key value : Value) :
    Wrote s id (.insert key value) ((PointCall.run id (.insert key value)).run s) := by
  refine wrote_keyed hf key _ fun f fh fam k hreach => wrote_valued value _ fun v hv => ?_
  rw [run_map, run_bind, run_engine]
  have hreply := Engine.Run.insert_reply hreach.engine k v
  obtain ⟨status, e', hcall, hset, hcursors⟩ := Engine.Run.run_insert hreach.engine k v
  rw [hcall] at hreply ⊢
  dsimp only
  by_cases hgo : Engine.Run.pendingStatus s.engine .insert = Status.success ∧
      Engine.Run.isTooLong fam k.length = false
  · obtain ⟨rfl, hwrites⟩ := hset hgo
    have hreplaces := hwrites.replaces hreach.engine
    rw [hreach.read, hv] at hreplaces
    exact .wrote hreach.serves.1 hreach.stands hreplaces
  · have hne : status ≠ Status.success := by
      rw [Except.ok.inj hreply]
      split
      · assumption
      · split
        · decide
        · rename_i hp hlong
          exact absurd ⟨not_not.1 hp, by simpa using hlong⟩ hgo
    rw [run_checkStatus_of_ne hne]
    exact .failed (.of_sameCursors (hcursors hgo))

theorem wrote_delete (hf : Founded s) (id : FamilyId) (key : Value) :
    Wrote s id (.delete key) ((PointCall.run id (.delete key)).run s) := by
  refine wrote_keyed hf key _ fun f fh fam k hreach => ?_
  rw [run_map, run_bind, run_engine]
  by_cases hp : Engine.Run.pendingStatus s.engine .delete = Status.success
  · obtain ⟨status, e', hcall, herase, -⟩ := Engine.Run.run_delete hreach.engine k
    obtain ⟨rfl, hwrites⟩ := herase hp
    have hreplaces := hwrites.replaces hreach.engine
    rw [hreach.read] at hreplaces
    rw [hcall]
    exact .wrote hreach.serves.1 hreach.stands hreplaces
  · rw [Engine.Run.delete_of_pending hreach.engine hp k]
    dsimp only
    rw [run_checkStatus_of_ne hp]
    exact .failed (.of_sameCursors (Engine.Run.sameCursors_asked s.engine .delete (by decide) fh))

/-- An update that succeeds writes what the data functions gave. -/
theorem wrote_update (hf : Founded s) (id : FamilyId) (key delta : Value) :
    Wrote s id (.update key delta) ((PointCall.run id (.update key delta)).run s) := by
  refine wrote_keyed hf key _ fun f fh fam k hreach => wrote_valued delta _ fun d hd => ?_
  rw [run_map, run_bind, run_engine]
  obtain ⟨o, ho⟩ : ∃ o, Engine.Run.mergeOutcome fam.config.funcs
      (s.engine.recordsOf fam.store) k.read ⟨d.read⟩ s.engine.refuseResize = o := ⟨_, rfl⟩
  have hreply := Engine.Run.update_reply hreach.engine k d ho
  obtain ⟨result, e', hcall, hgo, hcursors⟩ := Engine.Run.run_update hreach.engine k d ho
  rw [hcall] at hreply ⊢
  dsimp only
  by_cases hlet : (Engine.Run.pendingStatus s.engine .update = Status.success ∧
      Engine.Run.isTooLong fam k.read.length = false) ∧ o.status = Status.success
  · obtain ⟨rfl, hset, -⟩ := hgo hlet.1
    have hreplaces := (hset hlet.2).replaces hreach.engine
    have hmerged := Engine.merged_of_success ho hlet.2
    have hfuncs : fam.config.funcs = f.config.funcs := congrArg DataRecord.funcs hreach.config
    rw [hreach.read, hd, hfuncs] at hmerged
    have hrecords : PointCall.onRecords f.config.funcs (s.engine.recordsOf fam.store)
        (.update key delta) =
        (s.engine.recordsOf fam.store).set k.read o.accumulator.contents := by
      unfold PointCall.onRecords
      dsimp only
      rw [hmerged, hreach.read]
    rw [← hrecords] at hreplaces
    dsimp only
    rw [run_bind, run_note, hlet.2]
    exact .wrote hreach.serves.1 hreach.stands hreplaces
  · have hne : result.1 ≠ Status.success := by
      rw [Except.ok.inj hreply]
      split
      · assumption
      · split
        · exact fun h => absurd h (by decide)
        · rename_i hp hlong
          exact fun h => hlet ⟨⟨not_not.1 hp, by simpa using hlong⟩, h⟩
    have hsame : Engine.SameCursors [] s.engine e' := by
      by_cases hletin : Engine.Run.pendingStatus s.engine .update = Status.success ∧
          Engine.Run.isTooLong fam k.read.length = false
      · exact (hgo hletin).2.2 fun h => hlet ⟨hletin, h⟩
      · exact hcursors hletin
    rw [run_bind, run_note]
    dsimp only
    rw [run_checkStatus_of_ne hne]
    exact .failed (.of_sameCursors hsame)

/-- A call that only reads leaves all records. -/
theorem wrote_of_sameHandles (hs : Within (SameHandles []) (call.run id))
    (hcall : ∀ f R, call.onRecords f R = R) : Wrote s id call ((call.run id).run s) := by
  have hsame : SameRecords s ((call.run id).run s).2 := .of_sameCursors (hs s).engine
  generalize (call.run id).run s = answer at hsame ⊢
  obtain ⟨r, t⟩ := answer
  cases r with
  | error failure => exact .failed hsame
  | ok reply => exact .looked hsame hcall

theorem wrote_point (hf : Founded s) (id : FamilyId) (call : PointCall) :
    Wrote s id call ((call.run id).run s) := by
  cases call with
  | insert key value => exact wrote_insert hf id key value
  | update key delta => exact wrote_update hf id key delta
  | delete key => exact wrote_delete hf id key
  | lookup key =>
    exact wrote_of_sameHandles (Within.map (sameHandles_lookup id key) _) fun _ _ => rfl
  | get key default =>
    exact wrote_of_sameHandles (Within.map (sameHandles_getOr id key default) _) fun _ _ => rfl
  | contains key =>
    exact wrote_of_sameHandles (Within.map (sameHandles_contains id key) _) fun _ _ => rfl

end Run

end Store

end FamilyStore
