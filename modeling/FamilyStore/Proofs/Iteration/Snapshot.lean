import FamilyStore.DataFuncs.Builtin
import FamilyStore.Proofs.Iteration.Course
import FamilyStore.Proofs.Iteration.Stopping

/-!
Iterators walk a snapshot.

What an iterator gives out is fixed when it is made: step by step the records that were selected
then, and nothing after the last one, whatever else happens to the store in between. The calls that
the engine notes tell that the cursor went on once for each step but the first, and never behind the
position after the last record.
-/

namespace FamilyStore.Store

/-- Whether a reply says that going on was held up. -/
def isHeldUp : Except Failure Reply → Bool
  | .error (.store .viewExported) => true
  | _ => false

theorem eq_of_isHeldUp {reply : Except Failure Reply} (h : isHeldUp reply = true) :
    reply = .error heldUp := by
  unfold isHeldUp at h
  split at h
  · rfl
  · exact absurd h Bool.false_ne_true

/-- Whether a transition went on with an iterator. -/
def Transition.goesOn (i : IteratorId) (t : Transition) : Bool :=
  t.operation.stepsOn i && !isHeldUp t.reply

/-- What a transition gave out, read in the store after it. -/
def Transition.shows (t : Transition) : Except Failure (Option Engine.Record) :=
  shown t.after t.reply

/-- The transitions that go on with an iterator. -/
def stepsOf (s : Store) (i : IteratorId) (ops : List Operation) : List Transition :=
  (s.trace ops).filter (Transition.goesOn i)

/-- Whether an iterator is open. -/
def isOpen (s : Store) (i : IteratorId) : Bool :=
  (s.iterators.get? i).any fun it => !it.isClosed

theorem move_after {s : Store} (hs : Sound s) (ops : List Operation) : Move s (s.after ops) := by
  induction ops generalizing s with
  | nil => exact hs.stay
  | cons op ops ih =>
    have hmove := (perform_spec hs op).1
    exact hmove.trans (ih hmove.sound)

theorem exists_course_of_isOpen {s : Store} (hs : Sound s) {i : IteratorId}
    (h : s.isOpen i = true) : ∃ κ, s.course? i = some κ := by
  obtain ⟨it, hi, ho⟩ := (Option.any_eq_true _ _).1 h
  cases hh : it.cursor with
  | none =>
    rw [Iterator.isClosed, hh] at ho
    exact absurd ho Bool.false_ne_true
  | some h =>
    obtain ⟨c, hc, -, -⟩ := hs.exists_cursor hi hh
    exact ⟨_, course?_eq hi hh hc⟩

/-- An iterator that is open at the end of a run has been so since it was made. -/
theorem course?_ne_none_of_after {s : Store} (hs : Sound s) {i : IteratorId} {it : Iterator}
    (hi : s.iterators.get? i = some it) {ops : List Operation}
    (h : (s.after ops).course? i ≠ none) : s.course? i ≠ none :=
  fun hn => h ((move_after hs ops).later.course?_none hs hi hn)

namespace Course

/-- The course after some steps. -/
def walked (κ : Course) : Nat → Course
  | 0 => κ
  | k + 1 => κ.step.1.walked k

theorem walked_succ (κ : Course) (k : Nat) : κ.walked (k + 1) = (κ.walked k).step.1 := by
  induction k generalizing κ with
  | zero => rfl
  | succ k ih => exact ih κ.step.1

theorem settle_ne_heldUp (κ : Course) : κ.settle.2 ≠ .error heldUp := by
  cases hf : κ.fails with
  | true =>
    rw [settle_of_fails hf]
    intro h
    have hne : Run.statusFailure .iterate Status.ioError ≠ heldUp := by decide
    exact hne (Except.error.inj h)
  | false =>
    cases hkv : κ.records[κ.position]? with
    | some kv => simp [settle_of_some hf hkv]
    | none => simp [settle_of_none hf hkv]

/-- The course itself never holds anything up. -/
theorem step_ne_heldUp (κ : Course) : κ.step.2 ≠ .error heldUp := by
  unfold step
  cases κ.progress with
  | failed status => simp [heldUp]
  | exhausted => simp
  | running => exact settle_ne_heldUp _

end Course

/-- An iterator that stays open takes the steps of its course, one for each transition that goes on
with it. -/
theorem walk {s : Store} (hs : Sound s) {i : IteratorId} {κ : Course} (hκ : s.course? i = some κ)
    {ops : List Operation} (hopen : (s.after ops).course? i ≠ none) :
    (s.after ops).course? i = some (κ.walked (s.stepsOf i ops).length) ∧
    ∀ k t, (s.stepsOf i ops)[k]? = some t → t.shows = (κ.walked k).step.2 ∧
      ((κ.walked k).progress ≠ .running → t.after = t.before) := by
  induction ops generalizing s κ with
  | nil => exact ⟨hκ, fun k t ht => absurd ht (by simp [stepsOf, trace])⟩
  | cons op ops ih =>
    obtain ⟨hmove, hpasses⟩ := perform_spec hs op
    have hpass := hpasses hκ
    obtain ⟨it, h, c, hi, -, -, -⟩ := exists_of_course? hκ
    obtain ⟨it', hi', -⟩ := hmove.later.iterators hi
    have hopen' := course?_ne_none_of_after hmove.sound hi' hopen
    rw [after_cons]
    unfold stepsOf
    rw [trace]
    by_cases hgo : Transition.goesOn i ⟨s, op, (s.perform op).1, (s.perform op).2⟩ = true
    · rw [List.filter_cons_of_pos hgo]
      have hgo' := Bool.and_eq_true_iff.1 hgo
      have hstep : (s.perform op).2.course? i = some κ.step.1 ∧
          shown (s.perform op).2 (s.perform op).1 = κ.step.2 := by
        rcases hpass.goes hgo'.1 with ⟨hheld, -⟩ | hstep
        · have hnot := hgo'.2
          rw [hheld] at hnot
          exact absurd hnot Bool.false_ne_true
        · exact hstep
      obtain ⟨hcourse, hshows⟩ := ih hmove.sound hstep.1 hopen
      refine ⟨hcourse, fun k t ht => ?_⟩
      cases k with
      | zero =>
        obtain rfl := Option.some.inj ht
        exact ⟨hstep.2, fun hn => hpass.rests hgo'.1 hn⟩
      | succ k => exact hshows k t ht
    · rw [List.filter_cons_of_neg hgo]
      have hsame : (s.perform op).2.course? i = some κ := by
        cases hon : op.stepsOn i with
        | false => exact (hpass.stays hon).resolve_right hopen'
        | true =>
          have hheld : isHeldUp (s.perform op).1 = true := by
            simpa [Transition.goesOn, hon] using hgo
          rcases hpass.goes hon with ⟨-, hsame⟩ | ⟨-, hshown⟩
          · exact hsame
          · rw [eq_of_isHeldUp hheld] at hshown
            exact absurd hshown.symm κ.step_ne_heldUp
      exact ih hmove.sound hsame hopen

/-! ## The walk over a snapshot -/

namespace Course

/-- What a new iteration does step by step. -/
theorem walked_stepped (records : List Engine.Record) (failAt : Option Int) (k : Nat) :
    (fresh records failAt).walked k = stepped records failAt k := by
  induction k with
  | zero => exact (stepped_zero records failAt).symm
  | succ k ih => rw [walked_succ, ih, step_stepped]

/-- The course over a snapshot after some steps. -/
def atStep (records : List Engine.Record) (k : Nat) : Course where
  records := records
  failAt := none
  position := min (k - 1) records.length
  positioned := decide (1 ≤ k ∧ k ≤ records.length)
  progress := if records.length < k then .exhausted else .running
  generation := min (k - 1) records.length

theorem atStep_eq (records : List Engine.Record) (k : Nat) :
    atStep records k = stepped records none k := rfl

theorem outcome_none (records : List Engine.Record) (k : Nat) :
    outcome records none k = .ok records[k]? := by
  show (if k < records.length then .ok records[k]? else .ok none) = Except.ok records[k]?
  by_cases hk : k < records.length
  · rw [if_pos hk]
  · rw [if_neg hk, List.getElem?_eq_none (Nat.le_of_not_lt hk)]

/-- Each step gives out the record that is next in the snapshot, if there is one. -/
theorem step_atStep (records : List Engine.Record) (k : Nat) :
    (atStep records k).step = (atStep records (k + 1), .ok records[k]?) := by
  rw [atStep_eq, step_stepped, outcome_none, atStep_eq]

theorem walked_fresh (records : List Engine.Record) (k : Nat) :
    (fresh records none).walked k = atStep records k := walked_stepped records none k

end Course

/-- The records that an iteration from a start key on selects. -/
def selection (s : Store) (id : FamilyId) (start : Value) : List Engine.Record :=
  match s.families.get? id, s.engineFamily? id with
  | some f, some fam =>
    match f.startSpan start with
    | .ok span => Engine.selected fam.config.funcs (s.stored id) span
    | .error _ => []
  | _, _ => []

/-- A new iterator walks what is selected when it is made. -/
theorem started_range {s s' : Store} (hs : Sound s) {id : FamilyId} {start : Value}
    {i : IteratorId} (h : (Run.range id start).run s = (.ok i, s')) :
    i = s.iterators.size ∧ Run.Started s s' (s.selection id start) := by
  rcases Run.range_spec hs id start with ⟨failure, s'', hrun, -⟩ |
      ⟨f, fh, fam, span, s'', hserves, hspan, hfam, hrun, hstarted⟩
  · rw [hrun] at h
    exact absurd h error_ne_ok
  · have hselected : s.selection id start =
        Engine.selected fam.config.funcs (s.engine.recordsOf fam.store) span := by
      have hef : s.engineFamily? id = some fam := by
        unfold engineFamily?
        rw [hserves.1, Option.bind_some, hserves.2.1, Option.bind_some]
        exact hfam.1
      unfold selection stored
      rw [hserves.1, hef]
      dsimp only
      rw [hspan]
      rfl
    rw [hrun] at h
    obtain ⟨hi, rfl⟩ := Prod.mk.inj h
    rw [hselected]
    exact ⟨(Except.ok.inj hi).symm, hstarted⟩

open Course in
/-- An iterator that stays open is where its steps have led it, and each step came to what its
number says. Those that come after it has stopped do nothing. -/
theorem walk_of_range {s₀ s₁ : Store} (hs : Sound s₀) {id : FamilyId} {start : Value}
    {i : IteratorId} (hrange : (Run.range id start).run s₀ = (.ok i, s₁)) {ops : List Operation}
    (hopen : (s₁.after ops).isOpen i = true) :
    let records := s₀.selection id start
    let failAt := s₀.engine.failIterationAt
    let steps := s₁.stepsOf i ops
    (s₁.after ops).course? i = some (stepped records failAt steps.length) ∧
    ∀ k t, steps[k]? = some t → t.shows = outcome records failAt k ∧
      (reach records failAt < k → t.after = t.before) := by
  intro records failAt steps
  obtain ⟨hi, hmove, -, hfresh, -⟩ := started_range hs hrange
  rw [← hi] at hfresh
  obtain ⟨κ, hκ⟩ := exists_course_of_isOpen (move_after hmove.sound ops).sound hopen
  obtain ⟨hcourse, hshows⟩ := walk hmove.sound hfresh (by rw [hκ]; simp)
  rw [walked_stepped] at hcourse
  refine ⟨hcourse, fun k t ht => ?_⟩
  obtain ⟨hshown, hrest⟩ := hshows k t ht
  rw [walked_stepped] at hshown hrest
  rw [step_stepped] at hshown
  refine ⟨hshown, fun hk => hrest ?_⟩
  have hprogress : (stepped records failAt k).progress = stop records failAt := if_pos hk
  rw [hprogress]
  exact stop_ne_running _ _

/-- Whether a transition gave out a record. -/
def Transition.gives (t : Transition) : Bool :=
  match t.shows with
  | .ok (some _) => true
  | _ => false

theorem countP_of_lt {α : Type} {p : α → Bool} {l : List α} {n : Nat}
    (h : ∀ k a, l[k]? = some a → p a = decide (k < n)) : l.countP p = min l.length n := by
  induction l generalizing n with
  | nil => simp
  | cons a l ih =>
    have hhead := h 0 a rfl
    cases n with
    | zero =>
      have htail := ih (n := 0) fun k b hb => (h (k + 1) b hb).trans (by simp)
      rw [List.countP_cons_of_neg (by rw [hhead]; simp), htail]
      simp
    | succ n =>
      have htail := ih (n := n) fun k b hb => (h (k + 1) b hb).trans (by simp)
      rw [List.countP_cons_of_pos (by rw [hhead]; simp), htail, List.length_cons]
      omega

/-- An iterator that stays open walks the records that were selected when it was made. The step
with number `k`, counted from zero and without those that were held up, gives out the record with
that number, and nothing when there is none; behind the first step without a record no step does
anything. The cursor is told to go on once for each step but the first, up to the end of the
records, and is asked for its record only where there is one. So a loop gets no more records than
were selected, whatever it does to the store. -/
theorem range_walks_snapshot {s₀ s₁ : Store} (h₀ : Reachable s₀)
    (hfail : s₀.engine.failIterationAt = none) {id : FamilyId} {start : Value} {i : IteratorId}
    (hrange : (Run.range id start).run s₀ = (.ok i, s₁)) (ops : List Operation)
    (hopen : (s₁.after ops).isOpen i = true) :
    (∀ k t, (s₁.stepsOf i ops)[k]? = some t →
      t.shows = .ok (s₀.selection id start)[k]? ∧
      ((s₀.selection id start).length < k → t.after = t.before)) ∧
    (s₁.stepsOf i ops).countP Transition.gives =
      min (s₁.stepsOf i ops).length (s₀.selection id start).length ∧
    ∃ it h, (s₁.after ops).iterators.get? i = some it ∧ it.cursor = some h ∧
      Engine.stepsOf (s₁.after ops).engine.calls h =
        min ((s₁.stepsOf i ops).length - 1) (s₀.selection id start).length ∧
      ∀ earlier, Engine.asking h :: earlier <:+ (s₁.after ops).engine.calls →
        Engine.stepsOf earlier h < (s₀.selection id start).length := by
  obtain ⟨-, hmove, -⟩ := started_range h₀.sound hrange
  obtain ⟨hcourse, hsteps⟩ := walk_of_range h₀.sound hrange hopen
  rw [hfail] at hcourse hsteps
  have hstep : ∀ k t, (s₁.stepsOf i ops)[k]? = some t →
      t.shows = .ok (s₀.selection id start)[k]? ∧
      ((s₀.selection id start).length < k → t.after = t.before) := by
    intro k t ht
    obtain ⟨hshown, hrest⟩ := hsteps k t ht
    exact ⟨hshown.trans (Course.outcome_none _ k), hrest⟩
  refine ⟨hstep, countP_of_lt fun k t ht => ?_, ?_⟩
  · have hshown := (hstep k t ht).1
    unfold Transition.gives
    rw [hshown]
    cases hkv : (s₀.selection id start)[k]? with
    | some kv => exact (decide_eq_true (List.getElem?_eq_some_iff.1 hkv).1).symm
    | none => exact (decide_eq_false (Nat.not_lt.2 (List.getElem?_eq_none_iff.1 hkv))).symm
  · obtain ⟨it, h, c, hi, hh, hc, hkappa⟩ := exists_of_course? hcourse
    have htold := (move_after hmove.sound ops).sound.told hi hh hc
    have hposition : c.position = min ((s₁.stepsOf i ops).length - 1)
        (s₀.selection id start).length := (congrArg Course.position hkappa).symm
    have hrecords : c.records = s₀.selection id start := (congrArg Course.records hkappa).symm
    refine ⟨it, h, hi, hh, htold.steps.trans hposition, fun earlier hs => ?_⟩
    rw [← hrecords]
    exact htold.asked earlier hs

/-! ## A store with two records -/

/-- The beginning of a run: a family with two records, the later key written first. -/
def writeTwo : List Operation :=
  [.connect (.str "db") .defaults false,
    .createFamily 0 (.ofInstance (DataFuncs.Builtin.funcs .default)) .null,
    .point 0 (.insert (.bytes [98]) (.bytes [2])), .point 0 (.insert (.bytes [97]) (.bytes []))]

/-- A store with a family of two records. -/
def twoRecords : Store := (Store.initial (.empty "/")).after writeTwo

/-- The same store when an iteration over the family has started. -/
def twoBegun : Store := ((Run.range 0 .null).run twoRecords).2

/-- Going on with the iterator until after the end, with a write in between. -/
def walkTwo : List Operation :=
  [.next 0, .point 0 (.insert (.bytes [99]) (.bytes [3])), .advance 0, .next 0, .next 0]

theorem reachable_twoRecords : Reachable twoRecords := (Reachable.initial _).after writeTwo

theorem range_twoRecords : (Run.range 0 .null).run twoRecords = (.ok 0, twoBegun) := by
  have h : ((Run.range 0 .null).run twoRecords).1.toOption = some 0 := by decide +kernel
  exact run_eq_of_toOption h

/-- Four steps over two records tell the cursor twice to go on. -/
theorem two_records_walked :
    twoRecords.engine.failIterationAt = none ∧ (twoBegun.after walkTwo).isOpen 0 = true ∧
    (twoBegun.stepsOf 0 walkTwo).countP Transition.gives = 2 ∧
    ∃ it h, (twoBegun.after walkTwo).iterators.get? 0 = some it ∧ it.cursor = some h ∧
      Engine.stepsOf (twoBegun.after walkTwo).engine.calls h = 2 := by
  have hfail : twoRecords.engine.failIterationAt = none := by decide +kernel
  have hopen : (twoBegun.after walkTwo).isOpen 0 = true := by decide +kernel
  have hsteps : (twoBegun.stepsOf 0 walkTwo).length = 4 := by decide +kernel
  have hselected : (twoRecords.selection 0 .null).length = 2 := by decide +kernel
  obtain ⟨-, hcount, it, h, hi, hh, htold, -⟩ :=
    range_walks_snapshot reachable_twoRecords hfail range_twoRecords walkTwo hopen
  rw [hsteps, hselected] at hcount htold
  exact ⟨hfail, hopen, hcount, it, h, hi, hh, htold⟩

end FamilyStore.Store
