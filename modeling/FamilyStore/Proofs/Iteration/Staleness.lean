import FamilyStore.Proofs.Iteration.Snapshot

/-!
No stale memory is read.

A record that an iterator gave out holds until the iterator leaves it: until it goes on, be it to a
record, to the end or to a failure of the engine, or is closed. While the record holds, it and its
views read as the record of the snapshot, from memory that the engine has lent and not taken back.
Afterwards it is stale for ever, and all its views are released.
-/

namespace FamilyStore.Store

/-- Whether a reply tells of a step: to a record, to the end, or to a failure of the engine. -/
def isStep : Except Failure Reply → Bool
  | .ok _ => true
  | .error (.store (.engine .iterate _)) => true
  | _ => false

/-- Whether an iterator steps, or is closed. -/
def Transition.leaves (i : IteratorId) (t : Transition) : Bool :=
  (t.operation.stepsOn i && isStep t.reply) || (t.before.isOpen i && !t.after.isOpen i)

/-- The memory at an address is lent by a cursor. -/
def lends (s : Store) (a : Engine.Address) : Prop :=
  ∃ h c, s.engine.cursors.get? h = some c ∧ c.Lends a

/-- A record of an iterator holds, and is a record of the snapshot. -/
def Holds (s : Store) (ρ : RecordId) (i : IteratorId) (kv : Engine.Record) : Prop :=
  ∃ r it κ, s.records.get? ρ = some r ∧ r.iterator = i ∧ s.iterators.get? i = some it ∧
    it.generation = r.generation ∧ s.course? i = some κ ∧ κ.generation = it.generation ∧
    κ.positioned = true ∧ κ.records[κ.position]? = some kv

/-- A record of an iterator is stale. -/
def Stale (s : Store) (ρ : RecordId) (i : IteratorId) : Prop :=
  ∃ r it, s.records.get? ρ = some r ∧ r.iterator = i ∧ s.iterators.get? i = some it ∧
    r.generation < it.generation

/-- What is stale stays stale. -/
theorem Stale.later {s s' : Store} {ρ : RecordId} {i : IteratorId} (h : Stale s ρ i)
    (hl : Later s s') : Stale s' ρ i := by
  obtain ⟨r, it, hr, hri, hi, hlt⟩ := h
  obtain ⟨it', hi', ha⟩ := hl.iterators hi
  have hle := ha.generation
  exact ⟨r, it', hl.records hr, hri, hi', by omega⟩

theorem isOpen_of_course? {s : Store} {i : IteratorId} {κ : Course} (hκ : s.course? i = some κ) :
    s.isOpen i = true := by
  obtain ⟨it, h, c, hi, hh, -, -⟩ := exists_of_course? hκ
  refine (Option.any_eq_true _ _).2 ⟨it, hi, ?_⟩
  rw [Iterator.isClosed, hh]
  rfl

theorem isOpen_eq_false {s : Store} (hs : Sound s) {i : IteratorId} (hκ : s.course? i = none) :
    s.isOpen i = false := by
  cases ho : s.isOpen i with
  | false => rfl
  | true =>
    obtain ⟨κ, hκ'⟩ := exists_course_of_isOpen hs ho
    rw [hκ] at hκ'
    exact absurd hκ' (by simp)

/-! ## One transition -/

/-- Going on from a record makes a new generation. -/
theorem Course.generation_step {κ : Course} (hp : κ.positioned = true)
    (hr : κ.progress = .running) : κ.step.1.generation = κ.generation + 1 := by
  have hleave : κ.leave = { κ with
      position := κ.position + 1, positioned := false, generation := κ.generation + 1 } := if_pos hp
  have hsettle : κ.leave.settle.1.generation = κ.leave.generation := by
    unfold settle
    split
    · rfl
    · split <;> rfl
  unfold step
  rw [hr]
  dsimp only
  rw [hsettle, hleave]

/-- Going on from a course that runs is a step, if it is not held up. -/
theorem isStep_of_running {κ : Course} (hr : κ.progress = .running) {s : Store}
    {reply : Except Failure Reply} (h : shown s reply = κ.step.2) : isStep reply = true := by
  cases reply with
  | ok r => rfl
  | error failure =>
    have hsettle : κ.step.2 = κ.leave.settle.2 := by
      unfold Course.step
      rw [hr]
    have herror : κ.leave.settle.2 = .error failure := hsettle.symm.trans h.symm
    cases hf : κ.leave.fails with
    | true =>
      rw [Course.settle_of_fails hf] at herror
      rw [← Except.error.inj herror]
      rfl
    | false =>
      cases hkv : κ.leave.records[κ.leave.position]? with
      | some kv => simp [Course.settle_of_some hf hkv] at herror
      | none => simp [Course.settle_of_none hf hkv] at herror

theorem Holds.running {s : Store} (hs : Sound s) {i : IteratorId} {κ : Course}
    (hκ : s.course? i = some κ) (hp : κ.positioned = true) : κ.progress = .running := by
  obtain ⟨it, h, c, hi, hh, hc, rfl⟩ := exists_of_course? hκ
  refine Decidable.byContradiction fun hn => ?_
  exact absurd ((hs.inStep hi hh hc).stopped hn |>.symm.trans hp) Bool.false_ne_true

theorem generation_of_course? {s : Store} {i : IteratorId} {it : Iterator} {κ : Course}
    (hi : s.iterators.get? i = some it) (hκ : s.course? i = some κ) :
    κ.generation = it.generation := by
  obtain ⟨jt, h, c, hj, -, -, rfl⟩ := exists_of_course? hκ
  obtain rfl := Option.some.inj (hi.symm.trans hj)
  rfl

/-- An iterator at a record stays there until it leaves it, to go on or because it is closed. -/
theorem course?_perform {s : Store} (hs : Sound s) {i : IteratorId} {κ : Course}
    (hκ : s.course? i = some κ) (hp : κ.positioned = true) (op : Operation) :
    if Transition.leaves i ⟨s, op, (s.perform op).1, (s.perform op).2⟩ = true then
      (s.perform op).2.course? i = some κ.step.1 ∨ (s.perform op).2.course? i = none
    else (s.perform op).2.course? i = some κ := by
  obtain ⟨hmove, hpasses⟩ := perform_spec hs op
  have hpass := hpasses hκ
  have hopen := isOpen_of_course? hκ
  unfold Transition.leaves
  cases hon : op.stepsOn i with
  | true =>
    rcases hpass.goes hon with ⟨hheld, hsame⟩ | ⟨hstep, hshown⟩
    · rw [if_neg (by rw [hheld, isOpen_of_course? hsame]; simp [isStep, heldUp])]
      exact hsame
    · rw [if_pos (by rw [isStep_of_running (Holds.running hs hκ hp) hshown]; rfl)]
      exact .inl hstep
  | false =>
    rcases hpass.stays hon with hsame | hnone
    · rw [if_neg (by rw [isOpen_of_course? hsame]; simp)]
      exact hsame
    · rw [if_pos (by rw [hopen, isOpen_eq_false hmove.sound hnone]; rfl)]
      exact .inr hnone

/-- A record holds after an operation unless its iterator left it; then it is stale. -/
theorem Holds.perform {s : Store} (hs : Sound s) {ρ : RecordId} {i : IteratorId}
    {kv : Engine.Record} (h : Holds s ρ i kv) (op : Operation) :
    if Transition.leaves i ⟨s, op, (s.perform op).1, (s.perform op).2⟩ = true then
      Stale (s.perform op).2 ρ i else Holds (s.perform op).2 ρ i kv := by
  obtain ⟨r, it, κ, hr, hri, hi, hg, hκ, hκg, hp, hkv⟩ := h
  have hmove := (perform_spec hs op).1
  have hcourse := course?_perform hs hκ hp op
  obtain ⟨it', hi', ha⟩ := hmove.later.iterators hi
  have hr' := hmove.later.records hr
  cases hleaves : Transition.leaves i ⟨s, op, (s.perform op).1, (s.perform op).2⟩ with
  | true =>
    rw [hleaves, if_pos rfl] at hcourse
    rw [if_pos rfl]
    -- Both to go on and to be closed make a new generation.
    have hne : it'.generation ≠ it.generation := by
      intro hgen
      rcases hcourse with hstep | hnone
      · have hnext := generation_of_course? hi' hstep
        rw [Course.generation_step hp (Holds.running hs hκ hp), hgen, hκg] at hnext
        exact absurd hnext (Nat.succ_ne_self _)
      · obtain ⟨jt, h, c, hj, hh, hc, rfl⟩ := exists_of_course? hκ
        obtain rfl := Option.some.inj (hi.symm.trans hj)
        obtain ⟨-, hcur, hsame⟩ := ha.same hgen hp
        rw [course?_eq hi' (hcur.trans hh) (hsame h c hh hc)] at hnone
        exact absurd hnone (by simp)
    exact ⟨r, it', hr', hri, hi', by have := ha.generation; omega⟩
  | false =>
    rw [hleaves, if_neg Bool.false_ne_true] at hcourse
    rw [if_neg Bool.false_ne_true]
    have hgen : it'.generation = it.generation :=
      (generation_of_course? hi' hcourse).symm.trans hκg
    exact ⟨r, it', κ, hr', hri, hi', hgen.trans hg, hcourse, hκg.trans hgen.symm, hp, hkv⟩

/-- A record holds at the end of a run unless its iterator left it on the way. -/
theorem Holds.after {s : Store} (hs : Sound s) {ρ : RecordId} {i : IteratorId}
    {kv : Engine.Record} (h : Holds s ρ i kv) (ops : List Operation) :
    ((∀ t ∈ s.trace ops, t.leaves i = false) → Holds (s.after ops) ρ i kv) ∧
    ((∃ t ∈ s.trace ops, t.leaves i = true) → Stale (s.after ops) ρ i) := by
  induction ops generalizing s with
  | nil =>
    refine ⟨fun _ => h, ?_⟩
    rintro ⟨t, ht, -⟩
    exact absurd ht List.not_mem_nil
  | cons op ops ih =>
    have hsound := (perform_spec hs op).1.sound
    have hnow := h.perform hs op
    rw [after_cons, trace]
    by_cases hl : Transition.leaves i ⟨s, op, (s.perform op).1, (s.perform op).2⟩ = true
    · rw [if_pos hl] at hnow
      refine ⟨fun hall => ?_, fun _ => hnow.later (move_after hsound ops).later⟩
      exact absurd ((hall _ List.mem_cons_self).symm.trans hl) Bool.false_ne_true
    · rw [if_neg hl] at hnow
      obtain ⟨hkeep, hlose⟩ := ih hsound hnow
      refine ⟨fun hall => hkeep fun t ht => hall t (List.mem_cons_of_mem _ ht), ?_⟩
      rintro ⟨t, ht, htl⟩
      rcases List.mem_cons.1 ht with rfl | ht
      · exact absurd htl hl
      · exact hlose ⟨t, ht, htl⟩

/-! ## Which record it is -/

namespace Course

/-- How many records have been given out. -/
def given (κ : Course) : Nat := κ.position + if κ.positioned then 1 else 0

theorem given_leave (κ : Course) :
    κ.leave.given = κ.given ∧ κ.leave.position = κ.given ∧ κ.leave.positioned = false ∧
      κ.leave.records = κ.records := by
  unfold leave given
  cases hp : κ.positioned with
  | true => exact ⟨rfl, rfl, rfl, rfl⟩
  | false => exact ⟨by simp [hp], by simp, by simp [hp], rfl⟩

/-- A step either gives out the next record, or none. -/
theorem step_cases (κ : Course) :
    (∃ kv, κ.step.2 = .ok (some kv) ∧ κ.records[κ.given]? = some kv ∧
      κ.step.1.given = κ.given + 1 ∧ κ.step.1.records = κ.records ∧ κ.step.1.positioned = true ∧
      κ.step.1.records[κ.step.1.position]? = some kv) ∨
    ((∀ kv, κ.step.2 ≠ .ok (some kv)) ∧ κ.step.1.given = κ.given ∧
      κ.step.1.records = κ.records) := by
  obtain ⟨hgiven, hpos, hnot, hrec⟩ := κ.given_leave
  unfold step
  cases κ.progress with
  | failed status => exact .inr ⟨by simp, rfl, rfl⟩
  | exhausted => exact .inr ⟨by simp, rfl, rfl⟩
  | running =>
    dsimp only
    cases hf : κ.leave.fails with
    | true =>
      rw [settle_of_fails hf]
      exact .inr ⟨by simp, hgiven, hrec⟩
    | false =>
      cases hkv : κ.leave.records[κ.leave.position]? with
      | some kv =>
        rw [settle_of_some hf hkv]
        refine .inl ⟨kv, rfl, ?_, ?_, hrec, rfl, hkv⟩
        · rw [← hrec, ← hpos]
          exact hkv
        · show κ.leave.position + 1 = κ.given + 1
          rw [hpos]
      | none =>
        rw [settle_of_none hf hkv]
        exact .inr ⟨by simp, hgiven, hrec⟩

/-- Over a run as many records have been given out as transitions gave one out. -/
theorem given_walked {κ : Course} {l : List Transition}
    (h : ∀ k t, l[k]? = some t → t.shows = (κ.walked k).step.2) :
    (κ.walked l.length).given = κ.given + l.countP Transition.gives ∧
      (κ.walked l.length).records = κ.records := by
  induction l generalizing κ with
  | nil => exact ⟨rfl, rfl⟩
  | cons t l ih =>
    have hhead : t.shows = κ.step.2 := h 0 t rfl
    obtain ⟨hgiven, hrec⟩ := ih (κ := κ.step.1) fun k u hu => h (k + 1) u hu
    rw [List.length_cons, walked, hgiven, hrec]
    rcases κ.step_cases with ⟨kv, hkv, -, hg, hr, -, -⟩ | ⟨hno, hg, hr⟩
    · have hgives : t.gives = true := by
        unfold Transition.gives
        rw [hhead, hkv]
      rw [List.countP_cons_of_pos hgives, hg]
      exact ⟨by omega, hr⟩
    · have hgives : ¬ t.gives = true := by
        unfold Transition.gives
        rw [hhead]
        split
        · rename_i kv hkv
          exact absurd hkv (hno kv)
        · exact Bool.false_ne_true
      rw [List.countP_cons_of_neg hgives, hg]
      exact ⟨rfl, hr⟩

end Course

/-- A record that is given out holds, and is the next one of the snapshot. -/
theorem holds_of_advance {s₀ s₁ s₃ : Store} (h₀ : Reachable s₀) {id : FamilyId} {start : Value}
    {i : IteratorId} (hrange : (Run.range id start).run s₀ = (.ok i, s₁))
    (ops : List Operation) {ρ : RecordId}
    (hadv : (Run.advance i).run (s₁.after ops) = (.ok (some ρ), s₃)) :
    Sound s₃ ∧ ∃ kv, (s₀.selection id start)[(s₁.stepsOf i ops).countP Transition.gives]? =
      some kv ∧ Holds s₃ ρ i kv := by
  obtain ⟨hi, hmove, -, hfresh, -⟩ := started_range h₀.sound hrange
  rw [← hi] at hfresh
  have hsound := (move_after hmove.sound ops).sound
  cases hκ : (s₁.after ops).course? i with
  | none =>
    obtain ⟨f, hrun⟩ := Run.advance_of_closed hsound hκ
    rw [hrun] at hadv
    exact absurd hadv error_ne_ok
  | some κ =>
    have hopen : (s₁.after ops).course? i ≠ none := by
      rw [hκ]
      exact Option.some_ne_none κ
    obtain ⟨hcourse, hshows⟩ := walk hmove.sound hfresh hopen
    obtain ⟨hgiven, hrecords⟩ := Course.given_walked fun k t ht => (hshows k t ht).1
    obtain rfl := Option.some.inj (hκ.symm.trans hcourse)
    obtain ⟨r, s', hrun, hmove', -, -, hr⟩ := Run.advance_spec hsound hκ
    rw [hrun] at hadv
    obtain ⟨rfl, rfl⟩ := Prod.mk.inj hadv
    refine ⟨hmove'.sound, ?_⟩
    rcases hr with ⟨hheld, -⟩ | ⟨hstep, hgives, -⟩
    · exact absurd hheld (by simp)
    · rcases Course.step_cases _ with ⟨kv, hkv, hnext, -, hrec, hpos, hat⟩ | ⟨hno, -, -⟩
      · rw [hkv] at hgives
        obtain ⟨rec, it, hrec', hri, hi, hg, -⟩ := hgives
        refine ⟨kv, ?_, rec, it, _, hrec', hri, hi, hg, hstep,
          generation_of_course? hi hstep, hpos, hat⟩
        rw [hgiven, hrecords, Course.given] at hnext
        simpa [Course.fresh] using hnext
      · exfalso
        revert hgives
        cases hout : (Course.step _).2 with
        | error f => exact fun h => h
        | ok kv? =>
          cases kv? with
          | none => exact fun h => h
          | some kv => exact absurd hout (hno kv)

/-! ## What can be read -/

/-- A valid record: it and new views of it read as a record of the snapshot, from lent memory. -/
structure Reads (s : Store) (ρ : RecordId) (kv : Engine.Record) : Prop where
  valid : (Run.record ρ >>= Run.isValid).run s = (.ok true, s)
  copy : (Run.copyRecord ρ).run s = (.ok kv, s)
  key : ∃ v s', (Run.viewKey ρ).run s = (.ok v, s') ∧ (Run.readView v).run s' = (.ok kv.1, s')
  value : ∃ v s', (Run.viewValue ρ).run s = (.ok v, s') ∧ (Run.readView v).run s' = (.ok kv.2, s')
  lent : ∃ r, s.records.get? ρ = some r ∧ s.lends r.key.address ∧ s.lends r.value.address

/-- A record that is not valid: nothing can be read of it. -/
structure Refuses (s : Store) (ρ : RecordId) : Prop where
  invalid : (Run.record ρ >>= Run.isValid).run s = (.ok false, s)
  copy : (Run.copyRecord ρ).run s = (.error (.store .staleResult), s)
  key : (Run.viewKey ρ).run s = (.error (.store .staleResult), s)
  value : (Run.viewValue ρ).run s = (.error (.store .staleResult), s)

/-- A view shows bytes, from lent memory, until it is released; then it cannot be read. -/
def Shows (s : Store) (v : ViewId) (bs : Bytes) : Prop :=
  ∃ vw, s.views.get? v = some vw ∧
    (vw.released = false → (Run.readView v).run s = (.ok bs, s) ∧
      ∀ x, vw.extent = some x → s.lends x.address) ∧
    (vw.released = true → (Run.readView v).run s = (.error (.argument .viewReleased), s))

/-- Whether a view is released. -/
def isReleased (s : Store) (v : ViewId) : Bool := (s.views.get? v).any View.released

namespace Run

theorem run_readView {s : Store} {v : ViewId} {vw : View} (hv : s.views.get? v = some vw)
    (hr : vw.released = false) :
    (readView v).run s = (.ok (match vw.extent with
      | some x => s.engine.memory.read x
      | none => []), s) := by
  unfold readView checkReadable
  rw [run_bind, run_view hv]
  dsimp only
  rw [run_bind, run_ite, if_neg (by rw [hr]; exact Bool.false_ne_true), run_pure]
  dsimp only
  unfold bytesOf
  rw [run_bind, run_get]
  dsimp only
  cases vw.extent <;> rfl

theorem run_readView_of_released {s : Store} {v : ViewId} {vw : View}
    (hv : s.views.get? v = some vw) (hr : vw.released = true) :
    (readView v).run s = (.error (.argument .viewReleased), s) := by
  unfold readView checkReadable
  rw [run_bind, run_view hv]
  dsimp only
  rw [run_bind, run_ite, if_pos hr]
  rfl

end Run

/-- A view that is made of an extent shows what is read there. -/
theorem read_freshView {s : Store} {x : Engine.Extent} {bs : Bytes}
    (hlen : x.length = bs.length) (hread : s.engine.memory.read x = bs) :
    (match (Run.freshView x).extent with
      | some x => s.engine.memory.read x
      | none => []) = bs := by
  unfold Run.freshView
  by_cases hx : x.length = 0
  · rw [if_pos hx]
    exact (List.length_eq_zero_iff.1 (hlen.symm.trans hx)).symm
  · rw [if_neg hx]
    exact hread

/-- What lies where a record that holds has its bytes. -/
theorem Holds.read {s : Store} (hs : Sound s) {ρ : RecordId} {i : IteratorId} {kv : Engine.Record}
    (h : Holds s ρ i kv) : ∃ r it, s.records.get? ρ = some r ∧ r.iterator = i ∧
      s.iterators.get? i = some it ∧ it.generation = r.generation ∧
      s.lends r.key.address ∧ s.lends r.value.address ∧
      r.key.length = kv.1.length ∧ r.value.length = kv.2.length ∧
      s.engine.memory.read r.key = kv.1 ∧ s.engine.memory.read r.value = kv.2 := by
  obtain ⟨r, it, κ, hr, hri, hi, hg, hκ, -, -, hkv⟩ := h
  obtain ⟨jt, hj, -, hlends⟩ := hs.placed ρ r hr
  rw [hri, hi] at hj
  obtain rfl := Option.some.inj hj
  obtain ⟨h, c, kv', hh, hc, hkv', hk, hv, hkl, hvl, hkr, hvr⟩ := hs.read_lent (hlends hg.symm)
  have hkappa := Option.some.inj (hκ.symm.trans (course?_eq hi hh hc))
  rw [hkappa] at hkv
  obtain rfl := Option.some.inj (hkv'.symm.trans hkv)
  exact ⟨r, it, hr, hri, hi, hg, ⟨h, c, hc, hk⟩, ⟨h, c, hc, hv⟩, hkl, hvl, hkr, hvr⟩

/-- A new view of a part of a record that holds reads as that part. -/
theorem Holds.viewPart {s : Store} (hs : Sound s) {ρ : RecordId} {i : IteratorId}
    {kv : Engine.Record} (h : Holds s ρ i kv) (part : Record → Engine.Extent) {bs : Bytes}
    (hpart : ∀ r, s.records.get? ρ = some r → (part r).length = bs.length ∧
      s.engine.memory.read (part r) = bs) :
    ∃ v s', (Run.viewPart part ρ).run s = (.ok v, s') ∧ (Run.readView v).run s' = (.ok bs, s') := by
  obtain ⟨r, it, hr, rfl, hi, hg, -⟩ := h.read hs
  refine ⟨_, _, Run.run_viewPart part hr hi hg, ?_⟩
  have hv : (Sound.viewed s r.iterator it (Run.freshView (part r))).views.get? s.views.size =
      some (Run.freshView (part r)) := Table.get?_set_self _ _ _
  obtain ⟨hlen, hread⟩ := hpart r hr
  rw [Run.run_readView hv rfl, read_freshView hlen (by exact hread)]

theorem Holds.reads {s : Store} (hs : Sound s) {ρ : RecordId} {i : IteratorId}
    {kv : Engine.Record} (h : Holds s ρ i kv) : Reads s ρ kv := by
  obtain ⟨r, it, hr, hri, hi, hg, hk, hv, hkl, hvl, hkr, hvr⟩ := h.read hs
  have hi' : s.iterators.get? r.iterator = some it := by rw [hri]; exact hi
  refine ⟨?_, ?_, ?_, ?_, r, hr, hk, hv⟩
  · rw [run_bind, Run.run_record hr]
    dsimp only
    rw [Run.run_isValid hi', hg, beq_self_eq_true]
  · rw [Run.run_copyRecord hr hi' hg, hkr, hvr]
  · refine h.viewPart hs Record.key fun r' hr' => ?_
    obtain rfl := Option.some.inj (hr.symm.trans hr')
    exact ⟨hkl, hkr⟩
  · refine h.viewPart hs Record.value fun r' hr' => ?_
    obtain rfl := Option.some.inj (hr.symm.trans hr')
    exact ⟨hvl, hvr⟩

theorem Stale.refuses {s : Store} {ρ : RecordId} {i : IteratorId} (h : Stale s ρ i) :
    Refuses s ρ := by
  obtain ⟨r, it, hr, rfl, hi, hlt⟩ := h
  have hne : it.generation ≠ r.generation := Nat.ne_of_gt hlt
  obtain ⟨hcopy, hkey, hvalue⟩ := Run.run_stale hr hi hne
  refine ⟨?_, hcopy, hkey, hvalue⟩
  rw [run_bind, Run.run_record hr]
  dsimp only
  rw [Run.run_isValid hi, beq_false_of_ne hne]

/-! ## Views that were made of a record -/

/-- A view that was made of a part of a record and is not released is still one of the record's. -/
theorem exists_of_not_released {s s' : Store} (hs : Sound s) {part : Record → Engine.Extent}
    {ρ : RecordId} {v : ViewId} (hview : (Run.viewPart part ρ).run s = (.ok v, s'))
    {s'' : Store} (hl : Later s' s'') : ∃ r vw, s.records.get? ρ = some r ∧
      s''.views.get? v = some vw ∧ vw.extent = (Run.freshView (part r)).extent ∧
      (vw.released = false →
        ∃ it, s''.iterators.get? r.iterator = some it ∧ it.generation = r.generation) := by
  rcases Run.viewPart_cases hs part ρ with ⟨failure, hrun⟩ | ⟨r, it, hr, hi, hg, hrun⟩
  · rw [hrun] at hview
    exact absurd hview error_ne_ok
  · rw [hrun] at hview
    obtain ⟨hv, rfl⟩ := Prod.mk.inj hview
    obtain rfl := Except.ok.inj hv
    have hv' : (Sound.viewed s r.iterator it (Run.freshView (part r))).views.get? s.views.size =
        some (Run.freshView (part r)) := Table.get?_set_self _ _ _
    have hi' : (Sound.viewed s r.iterator it (Run.freshView (part r))).iterators.get?
        r.iterator = some { it with views := s.views.size :: it.views } :=
      Table.get?_set_self _ _ _
    obtain ⟨vw, hvw, hx, hlisted⟩ := hl.views hv'
    refine ⟨r, vw, hr, hvw, hx, fun hn => ?_⟩
    obtain ⟨it', hit', hgen, -⟩ := (hlisted hn).2 hi' List.mem_cons_self
    exact ⟨it', hit', hgen.trans hg⟩

theorem Holds.read_key {s : Store} {ρ : RecordId} {i : IteratorId} {kv : Engine.Record}
    {r : Record} (hs : Sound s) (h : Holds s ρ i kv) (hr : s.records.get? ρ = some r) :
    s.lends r.key.address ∧ r.key.length = kv.1.length ∧ s.engine.memory.read r.key = kv.1 := by
  obtain ⟨r', -, hr', -, -, -, hlent, -, hlen, -, hread, -⟩ := h.read hs
  obtain rfl := Option.some.inj (hr.symm.trans hr')
  exact ⟨hlent, hlen, hread⟩

theorem Holds.read_value {s : Store} {ρ : RecordId} {i : IteratorId} {kv : Engine.Record}
    {r : Record} (hs : Sound s) (h : Holds s ρ i kv) (hr : s.records.get? ρ = some r) :
    s.lends r.value.address ∧ r.value.length = kv.2.length ∧
      s.engine.memory.read r.value = kv.2 := by
  obtain ⟨r', -, hr', -, -, -, -, hlent, -, hlen, -, hread⟩ := h.read hs
  obtain rfl := Option.some.inj (hr.symm.trans hr')
  exact ⟨hlent, hlen, hread⟩

/-- A view that was made of a record shows its part of the record, and is released when the
iterator has left the record. -/
theorem Holds.shows {s : Store} (hs : Sound s) {ρ : RecordId} {i : IteratorId}
    {kv : Engine.Record} (h : Holds s ρ i kv) (part : Record → Engine.Extent) {bs : Bytes}
    (hpart : ∀ {s' : Store} {r : Record}, Sound s' → Holds s' ρ i kv →
      s'.records.get? ρ = some r → s'.lends (part r).address ∧ (part r).length = bs.length ∧
        s'.engine.memory.read (part r) = bs)
    {ops : List Operation} {t : Transition} (ht : t ∈ s.trace ops) {v : ViewId}
    (hview : (Run.viewPart part ρ).run t.before = (.ok v, t.after)) :
    Shows (s.after ops) v bs ∧
      ((∃ u ∈ s.trace ops, u.leaves i = true) → (s.after ops).isReleased v = true) := by
  obtain ⟨earlier, later, -, hbefore, hperform, hafter⟩ := exists_of_mem_trace ht
  have hmove := move_after hs earlier
  rw [hbefore] at hmove
  have hsound : Sound t.after := by
    have hnow := (perform_spec hmove.sound t.operation).1.sound
    rwa [hperform] at hnow
  have hrest := move_after hsound later
  rw [hafter] at hrest
  obtain ⟨r, vw, hr, hvw, hx, hlisted⟩ := exists_of_not_released hmove.sound hview hrest.later
  obtain ⟨r', it, κ, hr', hri, -⟩ := id h
  obtain rfl := Option.some.inj (hr.symm.trans (hmove.later.records hr'))
  obtain ⟨hkeep, hlose⟩ := h.after hs ops
  have hreleased : (∃ u ∈ s.trace ops, u.leaves i = true) → vw.released = true := by
    intro hleft
    obtain ⟨r', it', hρ, -, hit', hlt⟩ := hlose hleft
    obtain rfl := Option.some.inj (((move_after hs ops).later.records hr').symm.trans hρ)
    cases hn : vw.released with
    | true => rfl
    | false =>
      obtain ⟨jt, hjt, hg⟩ := hlisted hn
      rw [hri, hit'] at hjt
      obtain rfl := Option.some.inj hjt
      exact absurd hg (Nat.ne_of_gt hlt)
  refine ⟨⟨vw, hvw, fun hn => ?_, Run.run_readView_of_released hvw⟩, fun hleft =>
    (Option.any_eq_true _ _).2 ⟨vw, hvw, hreleased hleft⟩⟩
  have hhandles : ∀ u ∈ s.trace ops, u.leaves i = false := fun u hu => by
    cases hl : u.leaves i with
    | false => rfl
    | true => exact absurd ((hreleased ⟨u, hu, hl⟩).symm.trans hn) (Ne.symm Bool.false_ne_true)
  obtain ⟨hlent, hlen, hread⟩ := hpart hrest.sound (hkeep hhandles)
    ((move_after hs ops).later.records hr')
  refine ⟨?_, fun x hxv => ?_⟩
  · rw [Run.run_readView hvw hn, hx, read_freshView hlen hread]
  · rw [hx, Run.freshView] at hxv
    split at hxv
    · exact absurd hxv (by simp)
    · obtain rfl := Option.some.inj hxv
      exact hlent

/-- What lies at an address is poisoned as soon as no cursor lends it. -/
theorem poisoned_of_not_lends {s : Store} (hs : Sound s) {a : Engine.Address}
    (ha : a < s.engine.memory.next) (hn : ¬ s.lends a) :
    Engine.Poisoned (s.engine.memory.block a) :=
  hs.lent.poisoned ha fun h c hc hl => hn ⟨h, c, hc, hl⟩

/-- No stale memory is read. A record that an iterator gives out is the next one of the snapshot.
Until the iterator leaves it, the record is valid, and it and new views of it read as that record
of the snapshot, from memory that the engine lends. From then on nothing is read of it any more. A
view that was made of it in between shows its bytes, from lent memory too, until it is released, and
it is released when the iterator has left the record. Memory that is not lent is poisoned. -/
theorem no_stale_memory {s₀ s₁ s₃ : Store} (h₀ : Reachable s₀) {id : FamilyId} {start : Value}
    {i : IteratorId} (hrange : (Run.range id start).run s₀ = (.ok i, s₁)) (ops : List Operation)
    {ρ : RecordId} (hadv : (Run.advance i).run (s₁.after ops) = (.ok (some ρ), s₃)) :
    ∃ kv, (s₀.selection id start)[(s₁.stepsOf i ops).countP Transition.gives]? = some kv ∧
      ∀ later,
        ((∀ t ∈ s₃.trace later, t.leaves i = false) → Reads (s₃.after later) ρ kv) ∧
        ((∃ t ∈ s₃.trace later, t.leaves i = true) → Refuses (s₃.after later) ρ) ∧
        (∀ t ∈ s₃.trace later, ∀ v, t.reply = .ok (.view v) →
          (t.operation = .viewKey ρ → Shows (s₃.after later) v kv.1) ∧
          (t.operation = .viewValue ρ → Shows (s₃.after later) v kv.2) ∧
          (t.operation = .viewKey ρ ∨ t.operation = .viewValue ρ →
            (∃ u ∈ s₃.trace later, u.leaves i = true) →
            (s₃.after later).isReleased v = true)) ∧
        ∀ a < (s₃.after later).engine.memory.next, ¬ (s₃.after later).lends a →
          Engine.Poisoned ((s₃.after later).engine.memory.block a) := by
  obtain ⟨hs, kv, hkv, hholds⟩ := holds_of_advance h₀ hrange ops hadv
  refine ⟨kv, hkv, fun later => ?_⟩
  have hsound := (move_after hs later).sound
  obtain ⟨hkeep, hlose⟩ := hholds.after hs later
  refine ⟨fun hall => (hkeep hall).reads hsound, fun hleft => (hlose hleft).refuses, ?_,
    fun a ha hn => poisoned_of_not_lends hsound ha hn⟩
  intro t ht v hreply
  obtain ⟨-, -, -, -, hperform, -⟩ := exists_of_mem_trace ht
  rw [hreply] at hperform
  have hrun : ∀ part, t.operation.run = .view <$> Run.viewPart part ρ →
      (Run.viewPart part ρ).run t.before = (.ok v, t.after) := fun part hop =>
    run_of_perform (fun _ _ => Reply.view.inj) hop hperform
  have hkey := fun hop : t.operation = .viewKey ρ =>
    hholds.shows hs Record.key Holds.read_key ht (hrun _ (by rw [hop]; rfl))
  have hvalue := fun hop : t.operation = .viewValue ρ =>
    hholds.shows hs Record.value Holds.read_value ht (hrun _ (by rw [hop]; rfl))
  refine ⟨fun hop => (hkey hop).1, fun hop => (hvalue hop).1, fun hop hleft => ?_⟩
  rcases hop with hop | hop
  · exact (hkey hop).2 hleft
  · exact (hvalue hop).2 hleft

/-- A store in which an iteration over two records has given out the second one. -/
def secondGiven : Store := ((Run.advance 0).run (twoBegun.after [.next 0])).2

theorem advance_secondGiven :
    (Run.advance 0).run (twoBegun.after [.next 0]) = (.ok (some 1), secondGiven) := by
  have h : ((Run.advance 0).run (twoBegun.after [.next 0])).1.toOption = some (some 1) := by
    decide +kernel
  rw [secondGiven]
  exact run_eq_of_toOption h

/-- The second of two records can be read until the iterator goes on to the end; a view that was
made of it in between is released then. -/
theorem second_record_read : Reads secondGiven 1 ([98], [2]) ∧
    Refuses (secondGiven.after [.viewKey 1, .advance 0]) 1 ∧
    Shows (secondGiven.after [.viewKey 1, .advance 0]) 0 [98] ∧
    (secondGiven.after [.viewKey 1, .advance 0]).isReleased 0 = true := by
  obtain ⟨kv, hkv, hlater⟩ :=
    no_stale_memory reachable_twoRecords range_twoRecords [.next 0] advance_secondGiven
  have hcount : (twoBegun.stepsOf 0 [.next 0]).countP Transition.gives = 1 := by decide +kernel
  have hsecond : (twoRecords.selection 0 .null)[1]? = some ([98], [2]) := by decide +kernel
  rw [hcount, hsecond] at hkv
  obtain rfl := Option.some.inj hkv
  obtain ⟨hreads, -, -, -⟩ := hlater []
  rw [after_nil] at hreads
  obtain ⟨-, hrefuses, hviews, -⟩ := hlater [.viewKey 1, .advance 0]
  have hleft : ∃ t ∈ secondGiven.trace [.viewKey 1, .advance 0], t.leaves 0 = true := by
    have h : (secondGiven.trace [.viewKey 1, .advance 0]).any (Transition.leaves 0) = true := by
      decide +kernel
    exact List.any_eq_true.1 h
  have hrun : ((Run.viewKey 1).run secondGiven).1.toOption = some 0 := by decide +kernel
  have hperform : secondGiven.perform (.viewKey 1) = (.ok (.view 0), _) :=
    perform_eq rfl (run_eq_of_toOption hrun)
  have hmem : (⟨secondGiven, .viewKey 1, .ok (.view 0), (secondGiven.perform (.viewKey 1)).2⟩ :
      Transition) ∈ secondGiven.trace [.viewKey 1, .advance 0] := by
    rw [trace, hperform]
    exact List.mem_cons_self
  obtain ⟨hkey, -, hreleased⟩ := hviews _ hmem 0 rfl
  exact ⟨hreads fun t ht => absurd ht List.not_mem_nil, hrefuses hleft, hkey rfl,
    hreleased (.inl rfl) hleft⟩

end FamilyStore.Store
