import FamilyStore.Proofs.Accounts.Closing
import FamilyStore.Proofs.Reopening.Upkeep

/-!
What stays between the opening of a database and its next opening.

A handle that has been opened keeps its path, and the ledger counts its indices. The mark of a
database stays in its file as long as the file is left alone from outside: a database that is
created writes the same mark, and nothing else writes files.
-/

namespace FamilyStore

/-- The file at a path has the mark of a database. -/
def Files.IsMarked (files : Files) (path : String) : Prop :=
  files.read path = .ok Engine.Run.databaseMark

/-- The files that a request leaves behind have the mark at its path, and all marks that were there
before. -/
theorem Engine.marked_of_answer {e : Engine} {existing : Bool} {path : String} {files : Files}
    (h : e.answer existing path = .ok (.ok files)) :
    files.IsMarked path ∧ files.home = e.files.home ∧
      ∀ p, e.files.IsMarked p → files.IsMarked p := by
  have hv : verdict e.files existing path = .ok (.ok files) := by
    unfold Engine.answer at h
    dsimp only at h
    split at h
    · exact absurd (Except.ok.inj h) (by simp)
    · exact h
  unfold verdict at hv
  cases existing with
  | false =>
    rw [if_neg Bool.false_ne_true] at hv
    cases hw : e.files.write path Run.databaseMark with
    | error fault =>
      rw [hw] at hv
      exact absurd hv (by simp)
    | ok files' =>
      rw [hw] at hv
      obtain rfl := Except.ok.inj (Except.ok.inj hv)
      refine ⟨Files.read_of_write hw, ?_, fun p hp => Files.read_stays hp hw⟩
      obtain ⟨_, -, -, rfl⟩ := Files.exists_place_of_write hw
      rfl
  | true =>
    rw [if_pos rfl] at hv
    split at hv
    · cases hr : e.files.read path with
      | error fault =>
        rw [hr] at hv
        exact absurd hv (by simp)
      | ok content =>
        rw [hr] at hv
        dsimp only at hv
        split at hv
        · rename_i hmark
          obtain rfl := Except.ok.inj (Except.ok.inj hv)
          rw [hmark] at hr
          exact ⟨hr, rfl, fun p hp => hp⟩
        · exact absurd (Except.ok.inj hv) (by simp)
    · exact absurd (Except.ok.inj hv) (by simp)

namespace Store

variable {s : Store} {b : DatabaseId} {L : Ledger}

/-! ## Handles -/

/-- A handle is there, and has been opened or closed. -/
def IsUsed (s : Store) (b : DatabaseId) : Prop :=
  ∃ d, s.databases.get? b = some d ∧ d.phase ≠ .fresh

theorem isUsed_perform (hf : Founded s) (h : s.IsUsed b) (op : Operation) :
    (s.perform op).2.IsUsed b := by
  obtain ⟨d, hd, hp⟩ := h
  rcases database_stays hf hd hp op with hstays | hclosed
  · exact ⟨d, hstays, hp⟩
  · exact ⟨_, hclosed, by simp⟩

/-- Making a family uses up an index of its handle. -/
theorem Ledger.used_make (L : Ledger) (b c : DatabaseId) (f : FamilyId) :
    (L.make c f).used b = L.used b + (c == b).toNat := by
  show Function.update L.used c (L.used c + 1) b = _
  by_cases h : c = b
  · rw [h, Function.update_self, beq_self_eq_true]
    rfl
  · rw [Function.update_of_ne (Ne.symm h), beq_false_of_ne h]
    rfl

theorem handle_createFamily (c : DatabaseId) (funcs : FuncsArgument) (maxKeySize : Value) :
    (L.step (s.transition (.createFamily c funcs maxKeySize))).path b = L.path b ∧
    (L.step (s.transition (.createFamily c funcs maxKeySize))).used b =
      L.used b + ((s.transition (.createFamily c funcs maxKeySize)).makesFamily b).toNat := by
  have hrun : s.perform (.createFamily c funcs maxKeySize) = _ := run_map _ _ s
  unfold transition
  rw [hrun]
  generalize (Run.createFamily c funcs maxKeySize).run s = answer
  obtain ⟨reply, t⟩ := answer
  cases reply with
  | ok f => exact ⟨rfl, L.used_make b c f⟩
  | error failure => exact ⟨rfl, rfl⟩

/-- A used handle is not opened again: its path stays, and its indices are counted. -/
theorem handle_step (hf : Founded s) (h : s.IsUsed b) (op : Operation) :
    (L.step (s.transition op)).path b = L.path b ∧
    (L.step (s.transition op)).used b = L.used b + ((s.transition op).makesFamily b).toNat := by
  by_cases hop : op.asksDatabase = true
  · have hnone : (s.transition op).makesFamily b = false := by
      cases op with
      | start | connect => rfl
      | _ => exact absurd hop Bool.false_ne_true
    rw [hnone]
    cases answered_of_asksDatabase hf hop with
    | failed _ _ _ hL =>
      rw [hL]
      exact ⟨rfl, rfl⟩
    | @opened c _ _ _ ho hL =>
      have hne : b ≠ c := by
        rintro rfl
        obtain ⟨d, hd, hp⟩ := h
        exact hp (ho.fresh d hd)
      rw [hL]
      exact ⟨Function.update_of_ne hne _ _, Function.update_of_ne hne _ _⟩
  · cases op with
    | start | connect => exact absurd rfl hop
    | createFamily c funcs maxKeySize => exact handle_createFamily c funcs maxKeySize
    | point f call =>
      unfold transition
      cases (s.perform (.point f call)).1 with
      | error failure => exact ⟨rfl, rfl⟩
      | ok reply =>
        rw [L.step_point]
        cases s.config? f with
        | none => exact ⟨rfl, rfl⟩
        | some config => exact ⟨rfl, rfl⟩
    | _ => exact ⟨rfl, rfl⟩

/-- Over a run the path of a used handle stays, and its indices add up. -/
theorem handle_run (hs : Reachable s) (h : s.IsUsed b) (ops : List Operation) :
    ((s.trace ops).foldl Ledger.step L).path b = L.path b ∧
    ((s.trace ops).foldl Ledger.step L).used b =
      L.used b + (s.trace ops).countP (·.makesFamily b) := by
  induction ops generalizing s L with
  | nil => exact ⟨rfl, rfl⟩
  | cons op ops ih =>
    obtain ⟨hpath, hused⟩ := handle_step (L := L) hs.founded h op
    obtain ⟨hpaths, huseds⟩ := ih (L := L.step (s.transition op)) (hs.step op)
      (isUsed_perform hs.founded h op)
    refine ⟨hpaths.trans hpath, ?_⟩
    rw [countP_trace_cons, ← Nat.add_assoc, ← hused]
    exact huseds

/-! ## Files -/

/-- Whether a change from outside leaves the file at a path as it is. -/
def Transition.Spares (path : String) (t : Transition) : Prop :=
  ∀ nodes, t.operation = .changeFiles nodes →
    t.after.engine.files.read path = t.before.engine.files.read path

theorem home_perform (hf : Founded s) (op : Operation) :
    (s.perform op).2.engine.files.home = s.engine.files.home := by
  by_cases hask : op.asksDatabase = true
  · cases answered_of_asksDatabase hf hask with
    | failed _ _ hs _ => exact congrArg Files.home hs
    | opened _ ho _ =>
      obtain ⟨files, hanswer, he⟩ := ho.engine
      rw [he]
      exact (Engine.marked_of_answer hanswer).2.1
  · by_cases hfiling : op.isFiling = false
    · exact congrArg Files.home (sameFiles_of_not_isFiling hfiling s)
    · cases op with
      | changeFiles nodes => rfl
      | start | connect => exact absurd rfl hask
      | _ => exact absurd rfl hfiling

theorem home_after (hs : Reachable s) (ops : List Operation) :
    (s.after ops).engine.files.home = s.engine.files.home := by
  induction ops generalizing s with
  | nil => rfl
  | cons op ops ih => exact (ih (hs.step op)).trans (home_perform hs.founded op)

/-- A mark stays, unless it is taken away from outside. -/
theorem marked_perform (hf : Founded s) {path : String} (h : s.engine.files.IsMarked path)
    {op : Operation} (hop : (s.transition op).Spares path) :
    (s.perform op).2.engine.files.IsMarked path := by
  by_cases hask : op.asksDatabase = true
  · cases answered_of_asksDatabase hf hask with
    | failed _ _ hs _ =>
      rw [hs]
      exact h
    | opened _ ho _ =>
      obtain ⟨files, hanswer, he⟩ := ho.engine
      rw [he]
      exact (Engine.marked_of_answer hanswer).2.2 path h
  · by_cases hfiling : op.isFiling = false
    · have hsame : (s.perform op).2.engine.files = s.engine.files :=
        sameFiles_of_not_isFiling hfiling s
      rw [hsame]
      exact h
    · cases op with
      | changeFiles nodes => exact (hop nodes rfl).trans h
      | start | connect => exact absurd rfl hask
      | _ => exact absurd rfl hfiling

theorem marked_after (hs : Reachable s) {path : String} (h : s.engine.files.IsMarked path)
    {ops : List Operation} (hops : ∀ t ∈ s.trace ops, t.Spares path) :
    (s.after ops).engine.files.IsMarked path := by
  induction ops generalizing s with
  | nil => exact h
  | cons op ops ih =>
    have hmark := marked_perform hs.founded h (hops _ List.mem_cons_self)
    exact ih (hs.step op) hmark fun t ht => hops t (List.mem_cons_of_mem _ ht)

end Store

end FamilyStore
