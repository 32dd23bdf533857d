import FamilyStore.DataFuncs.Recipe
import FamilyStore.Proofs.Engine.Points
import FamilyStore.Proofs.Points.Maps

/-!
How merging a delta can fail, and what an update leaves behind.

A merge goes wrong in four ways: its callback fails, what the callback gives does not convert to
bytes, either of them escapes, or the accumulator may not change its length. An update writes last,
so it writes nothing then; either way it gives its accumulator back.
-/

namespace FamilyStore

namespace DataFuncs

/-- A merge fails, with a status. -/
inductive MergeFault (f : DataFuncs) (old : Option Bytes) (key delta : Bytes) (refuse : Bool) :
    Status → Prop
  /-- The callback fails. -/
  | callback {cause : Failure} (h : f.combine old key delta = .error (.failure cause)) :
      MergeFault f old key delta refuse Status.invalid
  /-- What the callback gives fails to convert to bytes. -/
  | conversion {given : Returned} {cause : Failure} (h : f.combine old key delta = .ok given)
      (hg : given.toBytes = .error (.failure cause)) :
      MergeFault f old key delta refuse Status.invalid
  /-- The callback or the conversion of what it gives escapes; the status is a stray one. -/
  | escape {e : Escape StrayStatus} (h : f.merged old key delta = .error (.escape e)) :
      MergeFault f old key delta refuse e.stray.1.toInt
  /-- The accumulator may not get the length of the result. -/
  | resize {given : Returned} {bs : Bytes} (h : f.combine old key delta = .ok given)
      (hg : given.toBytes = .ok bs) (hr : refuse = true) :
      MergeFault f old key delta refuse Status.outOfMemory

variable {f : DataFuncs} {old : Option Bytes} {key delta : Bytes} {refuse : Bool} {status : Status}

theorem MergeFault.fits (h : MergeFault f old key delta refuse status) :
    status ≠ Status.success ∧ Status.fits status = true := by
  cases h with
  | callback | conversion | resize => decide
  | @escape e h => exact ⟨(Raised.escape e).status_ne_success, (Raised.escape e).fits_status⟩

/-- What an accumulator cannot take is lost. -/
theorem MergeFault.of_merged {bs : Bytes} (h : f.merged old key delta = .ok bs) :
    MergeFault f old key delta true Status.outOfMemory := by
  obtain ⟨given, hgiven, hbs⟩ := exists_of_bind_ok h
  exact .resize hgiven hbs rfl

/-- What a merge raises is a fault, with the status that the engine receives. -/
theorem MergeFault.of_raised {raised : Raised StrayStatus}
    (h : f.merged old key delta = .error raised) :
    MergeFault f old key delta refuse raised.status := by
  cases raised with
  | escape e => exact .escape h
  | failure cause =>
    rcases bind_eq_error_iff.1 h with hcombine | ⟨given, hcombine, hgiven⟩
    · exact .callback hcombine
    · exact .conversion hcombine hgiven

/-- A merge with a fault raises something, or its accumulator may not change its length. -/
theorem MergeFault.raised_or_refused (h : MergeFault f old key delta refuse status) :
    (∃ raised, f.merged old key delta = .error raised ∧ status = raised.status) ∨
    ∃ bs, f.merged old key delta = .ok bs ∧ refuse = true ∧ status = Status.outOfMemory := by
  cases h with
  | @callback cause h => exact .inl ⟨.failure cause, bind_eq_error_iff.2 (.inl h), rfl⟩
  | @conversion given cause h hg =>
    exact .inl ⟨.failure cause, bind_eq_error_iff.2 (.inr ⟨given, h, hg⟩), rfl⟩
  | @escape e h => exact .inl ⟨.escape e, h, rfl⟩
  | @resize given bs h hg hr =>
    have hmerged : f.merged old key delta = .ok bs := by
      unfold merged
      rw [h]
      exact hg
    exact .inr ⟨bs, hmerged, hr, rfl⟩

/-- A fault gives a merge its status. -/
theorem MergeFault.finishMerge {a : Accumulator}
    (h : MergeFault f old key a.contents refuse status) (failed : Failure → Event) :
    (DataFuncs.finishMerge a refuse failed (f.combine old key a.contents)).status = status := by
  rcases h.raised_or_refused with ⟨raised, hmerged, rfl⟩ | ⟨bs, hmerged, rfl, rfl⟩
  · rw [finishMerge_of_error hmerged]
  · rw [finishMerge_of_ok hmerged]
    rfl

/-- A merge fails in one of these ways, or it leaves the bytes that its callback gave. -/
theorem finishMerge_cases (f : DataFuncs) (old : Option Bytes) (key : Bytes) (a : Accumulator)
    (refuse : Bool) (failed : Failure → Event) :
    MergeFault f old key a.contents refuse
        (finishMerge a refuse failed (f.combine old key a.contents)).status ∨
      (finishMerge a refuse failed (f.combine old key a.contents)).status = Status.success ∧
      f.merged old key a.contents =
        .ok (finishMerge a refuse failed (f.combine old key a.contents)).accumulator.contents := by
  cases hmerged : f.merged old key a.contents with
  | error raised =>
    rw [finishMerge_of_error hmerged]
    exact .inl (.of_raised hmerged)
  | ok bs =>
    rw [finishMerge_of_ok hmerged]
    cases refuse with
    | true => exact .inl (.of_merged hmerged)
    | false =>
      rw [writeResult_accumulator]
      exact .inr ⟨rfl, rfl⟩

end DataFuncs

namespace Engine

theorem status_mergeOutcome {f : DataFuncs} {R : Records} {key delta : Bytes} {refuse : Bool}
    {status : Status} (h : f.MergeFault (R.get? key) key delta refuse status) :
    (Run.mergeOutcome f R key ⟨delta⟩ refuse).status = status := by
  unfold Run.mergeOutcome
  cases hold : R.get? key with
  | none =>
    rw [hold] at h
    exact DataFuncs.MergeFault.finishMerge (a := ⟨delta⟩) h .finalMergeFailed
  | some old =>
    rw [hold] at h
    exact DataFuncs.MergeFault.finishMerge (a := ⟨delta⟩) h .mergeFailed

/-- A merge into some records fails in one of these ways, or it leaves what its callback gave. -/
theorem mergeOutcome_fault_or (f : DataFuncs) (R : Records) (key delta : Bytes) (refuse : Bool) :
    f.MergeFault (R.get? key) key delta refuse (Run.mergeOutcome f R key ⟨delta⟩ refuse).status ∨
      (Run.mergeOutcome f R key ⟨delta⟩ refuse).status = Status.success ∧
      f.merged (R.get? key) key delta =
        .ok (Run.mergeOutcome f R key ⟨delta⟩ refuse).accumulator.contents := by
  unfold Run.mergeOutcome
  cases R.get? key with
  | none => exact DataFuncs.finishMerge_cases f none key ⟨delta⟩ refuse .finalMergeFailed
  | some old => exact DataFuncs.finishMerge_cases f (some old) key ⟨delta⟩ refuse .mergeFailed

/-! ## What an update leaves -/

/-- The engine after an update: it has noted calls, taken the status that was set up and used up a
handle. -/
def afterUpdate (e : Engine) (calls : List Call) : Engine :=
  { e with
    calls := calls ++ e.calls
    pending := e.pending.erase .update
    nextHandle := e.nextHandle + handleStep }

namespace Run

variable {e : Engine} {f : FamilyHandle} {fam : Family}

end Run

end Engine

end FamilyStore
