import FamilyStore.Proofs.Handles
import FamilyStore.Proofs.Slices

/-!
What fails before the engine is asked.

Arguments are looked at first. What is wrong with them is told as a failure of an argument or of the
store, and so is a status of the engine. Neither is a failure of the file system or a misuse of the
engine.
-/

namespace FamilyStore

/-- Whether a failure is about an argument or about the store itself. -/
def Failure.isPlain : Failure → Bool
  | .argument _ | .store _ => true
  | _ => false

/-- A result is no failure, or one about an argument or about the store itself. -/
def Plain {α : Type} (r : Except Failure α) : Prop :=
  ∀ failure, r = .error failure → failure.isPlain = true

namespace Plain

variable {α β : Type} {r : Except Failure α}

theorem ok (a : α) : Plain (.ok a) := fun _ h => nomatch h

theorem error {failure : Failure} (h : failure.isPlain = true) :
    Plain (.error failure : Except Failure α) := fun _ heq => Except.error.inj heq ▸ h

theorem bind {f : α → Except Failure β} (hr : Plain r) (hf : ∀ a, Plain (f a)) :
    Plain (r >>= f) := by
  cases r with
  | error failure => exact fun _ heq => hr _ (congrArg Except.error (Except.error.inj heq))
  | ok a => exact hf a

theorem map (hr : Plain r) (f : α → β) : Plain (r.map f) := by
  cases r with
  | error failure => exact fun _ heq => hr _ (congrArg Except.error (Except.error.inj heq))
  | ok a => exact .ok _

end Plain

theorem Settings.plain_validate (settings : Settings) : Plain settings.validate := by
  have hsize : ∀ field, Plain (settings.sizeOf field) := by
    intro field
    unfold Settings.sizeOf Settings.sizeFailure
    split
    · exact .ok _
    · split
      · exact .error rfl
      · exact .error rfl
  refine .bind (hsize _) fun a => .bind (hsize _) fun b => ?_
  exact .bind (hsize _) fun c => .bind (hsize _) fun d => .ok _

theorem FuncsArgument.plain_resolve (funcs : FuncsArgument) : Plain funcs.resolve := by
  have hrefusal : ∀ shown?, (FuncsArgument.refusal shown?).isPlain = true := by
    intro shown?
    cases shown? with
    | none => rfl
    | some shown => rfl
  cases funcs with
  | ofClass funcs => exact .ok _
  | ofInstance funcs => exact .ok _
  | abstractClass name methods => exact .error rfl
  | otherClass name => exact .error (hrefusal _)
  | value v => exact .error (hrefusal _)

theorem DataConfig.plain_make (funcs : DataFuncs) (size limit : Value) :
    Plain (DataConfig.make funcs size limit) := by
  unfold DataConfig.make
  split
  · refine .bind ?_ fun above => ?_
    · unfold DataConfig.exceeds
      split
      · exact .ok _
      · split
        · exact .ok _
        · exact .error rfl
    · unfold DataConfig.aboveLimit
      split
      · refine .bind (.error ?_) fun _ => .ok _
        split
        · rfl
        · rfl
      · exact .ok _
  · unfold DataConfig.shown
    split
    · exact .error rfl
    · exact .error rfl

theorem Slice.plain_ofValue (v : Value) : Plain (Slice.ofValue v) := by
  intro failure h
  obtain ⟨fault, rfl⟩ := exists_argument h
  rfl

theorem Value.plain_size (v : Value) : Plain v.size := by
  cases v with
  | buffer b => exact .ok _
  | null | bool | int | float | str | list => exact .error rfl

namespace Store

theorem Family.plain_span (f : Family) (key : Value) : Plain (f.span key) := by
  have hslice := Slice.plain_ofValue key
  unfold Family.span
  split
  · exact .error rfl
  · split
    · rename_i failure heq
      exact .error (hslice failure heq)
    · split
      · exact .error rfl
      · exact .ok _

theorem Family.plain_startSpan (f : Family) (start : Value) : Plain (f.startSpan start) := by
  unfold Family.startSpan
  split
  · exact .ok _
  · exact f.plain_span start

theorem PathArgument.plain_ofValue (v : Value) : Plain (PathArgument.ofValue v) := by
  unfold PathArgument.ofValue
  split
  · exact .ok _
  · exact .ok _
  · exact .error rfl

namespace Run

theorem plain_engineText (path : PathArgument) : Plain (engineText path) := by
  unfold engineText
  split
  · exact .error rfl
  · exact .ok _

theorem isPlain_statusFailure (task : EngineTask) (status : Status) :
    (statusFailure task status).isPlain = true := by
  unfold statusFailure
  split
  · rfl
  · rfl

end Run

end Store

end FamilyStore
