import FamilyStore.Proofs.Iteration.Ending

/-!
Views that other objects hold on to keep an iterator where it is.

While one of them is held, the iterator can neither go on nor be closed, and an attempt changes
nothing but views that nobody holds. Once none is held, the iterator goes on to the record that
follows, or is closed, as if there had been no attempt.
-/

namespace FamilyStore.Store

variable {s s' : Store} {i : IteratorId} {it : Iterator} {h : Engine.Handle} {c : Engine.Cursor}
  {κ : Course}

/-- Whether an operation asks an iterator to leave its record: to go on, or to be closed. -/
def Operation.leavesOff (op : Operation) (i : IteratorId) : Bool :=
  match op with
  | .advance j | .next j | .closeIterator j => j == i
  | _ => false

/-- What follows the record that an iterator is at, unless the iteration is to fail there. -/
def Course.following (κ : Course) : Except Failure (Option Engine.Record) :=
  if κ.failAt.any (· ≤ ((κ.position + 1 : Nat) : Int)) then
    .error (Run.statusFailure .iterate Status.ioError)
  else .ok κ.records[κ.position + 1]?

/-- From a record an iteration goes on to what follows it. -/
theorem Course.step_of_positioned (hp : κ.positioned = true) (hr : κ.progress = .running) :
    κ.step.2 = κ.following := by
  have hleave : κ.leave = { κ with
      position := κ.position + 1, positioned := false, generation := κ.generation + 1 } := if_pos hp
  have hfails : κ.leave.fails = κ.failAt.any (· ≤ ((κ.position + 1 : Nat) : Int)) := by
    rw [hleave]
    unfold fails
    cases κ.failAt <;> rfl
  unfold step following
  rw [hr]
  dsimp only
  rw [← hfails]
  cases hf : κ.leave.fails with
  | true =>
    rw [settle_of_fails hf]
    rfl
  | false =>
    rw [if_neg Bool.false_ne_true]
    have hrecords : κ.leave.records[κ.leave.position]? = κ.records[κ.position + 1]? := by
      rw [hleave]
    cases hkv : κ.records[κ.position + 1]? with
    | some kv => rw [settle_of_some hf (hrecords.trans hkv)]
    | none => rw [settle_of_none hf (hrecords.trans hkv)]

/-- A view was made of a record of an iterator. -/
def Transition.handsOut (t : Transition) (i : IteratorId) (v : ViewId) : Prop :=
  ∃ ρ r, t.before.records.get? ρ = some r ∧ r.iterator = i ∧
    (t.operation = .viewKey ρ ∨ t.operation = .viewValue ρ) ∧ t.reply = .ok (.view v)

/-! ## Attempts that are held up -/

/-- Nothing has changed but views of an iterator that nobody held: some of them are released, and
the iterator keeps track of fewer. -/
structure Blocked (i : IteratorId) (it : Iterator) (s s' : Store) : Prop where
  engine : s'.engine = s.engine
  databases : s'.databases = s.databases
  families : s'.families = s.families
  records : s'.records = s.records
  log : s'.log = s.log
  iterators : ∃ vs, vs <:+ it.views ∧ s'.iterators = s.iterators.set i { it with views := vs }
  exported : ∀ v, s'.isExported v = s.isExported v
  views : ∀ v, s'.views.get? v = s.views.get? v ∨ v ∈ it.views ∧ s.isExported v = false ∧
    ∃ vw, s.views.get? v = some vw ∧ s'.views.get? v = some vw.release

theorem isExported_of_holdsUp {v : ViewId} (hv : s.holdsUp v = false) :
    s.isExported v = false := by
  unfold holdsUp at hv
  unfold isExported
  cases hw : s.views.get? v with
  | none => rfl
  | some vw =>
    rw [hw] at hv
    exact hv

theorem isExported_loosened (s : Store) (i : IteratorId) (it : Iterator) (v : ViewId) :
    (s.loosened i it).isExported v = s.isExported v := by
  have hview : (s.loosened i it).views.get? v = _ := get?_releasing s.views _ v
  by_cases hm : v ∈ s.loose it.views
  · rw [isExported_of_holdsUp (holdsUp_of_mem_loose hm)]
    unfold isExported
    rw [hview]
    cases s.views.get? v with
    | none => rfl
    | some vw =>
      rw [Option.map_some, if_pos hm]
      rfl
  · unfold isExported
    rw [hview]
    simp [hm]

namespace Blocked

theorem refl (hi : s.iterators.get? i = some it) : Blocked i it s s where
  engine := rfl
  databases := rfl
  families := rfl
  records := rfl
  log := rfl
  iterators := ⟨it.views, List.suffix_refl _, (Table.set_of_get? hi).symm⟩
  exported _ := rfl
  views _ := .inl rfl

/-- Further attempts come after a first one. -/
theorem of_loosened
    (h : Blocked i { it with views := s.fast it.views } (s.loosened i it) s') :
    Blocked i it s s' where
  engine := h.engine
  databases := h.databases
  families := h.families
  records := h.records
  log := h.log
  iterators := by
    obtain ⟨vs, hvs, hits⟩ := h.iterators
    refine ⟨vs, hvs.trans ?_, hits.trans (Table.set_set _ _ _ _)⟩
    exact List.dropWhile_suffix _
  exported v := (h.exported v).trans (isExported_loosened s i it v)
  views v := by
    have hview : (s.loosened i it).views.get? v = _ := get?_releasing s.views _ v
    have hnot := isExported_loosened s i it v
    by_cases hm : v ∈ s.loose it.views
    · have hfree := isExported_of_holdsUp (holdsUp_of_mem_loose hm)
      cases hw : s.views.get? v with
      | none =>
        rw [hw] at hview
        rcases h.views v with hsame | ⟨-, -, vw, hw', -⟩
        · exact .inl (hsame.trans hview)
        · exact absurd (hw'.symm.trans hview) (by simp)
      | some vw =>
        rw [hw, Option.map_some, if_pos hm] at hview
        refine .inr ⟨(List.takeWhile_prefix _).subset hm, hfree, vw, rfl, ?_⟩
        rcases h.views v with hsame | ⟨-, -, vw', hw', hrel⟩
        · exact hsame.trans hview
        · obtain rfl := Option.some.inj (hview.symm.trans hw')
          exact hrel
    · have hsame : (s.loosened i it).views.get? v = s.views.get? v := by
        rw [hview]
        simp [hm]
      rcases h.views v with hnone | ⟨hv, hx, vw, hw, hrel⟩
      · exact .inl (hnone.trans hsame)
      · exact .inr ⟨(List.dropWhile_suffix _).subset hv, hnot.symm.trans hx, vw,
          hsame.symm.trans hw, hrel⟩

/-- No iterator has moved. -/
theorem course? (hb : Blocked i it s s') (hi : s.iterators.get? i = some it) (j : IteratorId) :
    s'.course? j = s.course? j := by
  obtain ⟨vs, -, hits⟩ := hb.iterators
  refine Eq.trans ?_ (course?_views hi s.views vs j)
  unfold Store.course?
  rw [hits, hb.engine]

end Blocked

/-- An attempt that is held up. -/
theorem perform_of_stuck (hs : Sound s) (hi : s.iterators.get? i = some it)
    (hh : it.cursor = some h) (hp : it.positioned = true) (hstuck : s.isStuck it = true)
    {op : Operation} (hop : op.leavesOff i = true) :
    s.perform op = (.error heldUp, s.loosened i it) := by
  obtain ⟨c, hc, -, -⟩ := hs.exists_cursor hi hh
  have hrun : (Run.advance i).run s = (.error heldUp, s.loosened i it) := by
    have hprogress : it.progress = .running := Holds.running hs (course?_eq hi hh hc) hp
    rw [Run.run_advance hs hi hh, hprogress]
    dsimp only
    rw [if_pos hp, run_bind, Run.run_leaveRecord hi hc, hstuck, if_pos rfl]
  have hstep : op.stepsOn i = true → s.perform op = (.error heldUp, s.loosened i it) := by
    intro hon
    obtain ⟨hstore, herror, -⟩ := perform_of_stepsOn hon s
    rw [hrun] at hstore herror
    exact Prod.ext (herror _ rfl) hstore
  cases op with
  | advance j => exact hstep hop
  | next j => exact hstep hop
  | closeIterator j =>
    obtain rfl : j = i := by simpa [Operation.leavesOff] using hop
    have hclose := Run.run_closeIterator hi hh hc
    rw [hstuck, if_pos rfl] at hclose
    exact perform_eq (f := fun _ => .done) rfl hclose
  | _ => exact absurd hop Bool.false_ne_true

/-- While a view is held, each attempt is held up, and the view stays held. -/
theorem attempts_blocked (hs : Reachable s) (hi : s.iterators.get? i = some it)
    (hh : it.cursor = some h) (hp : it.positioned = true) (hheld : s.isHeld i = true)
    {attempts : List Operation} (hall : ∀ op ∈ attempts, op.leavesOff i = true) :
    (∀ t ∈ s.trace attempts, t.reply = .error heldUp ∧ t.leaves i = false) ∧
      Blocked i it s (s.after attempts) ∧ (s.after attempts).isHeld i = true := by
  induction attempts generalizing s it with
  | nil => exact ⟨fun t ht => absurd ht List.not_mem_nil, .refl hi, hheld⟩
  | cons op attempts ih =>
    have hstuck : s.isStuck it = true := (hs.tracked.isHeld hi).symm.trans hheld
    have hperform := perform_of_stuck hs.sound hi hh hp hstuck (hall op List.mem_cons_self)
    have hnext : Reachable (s.loosened i it) := by
      have hstep := hs.step op
      rw [hperform] at hstep
      exact hstep
    have hnow := Run.iterators_loosened s i it
    have hhandles : (s.loosened i it).isHeld i = true := by
      rw [hnext.tracked.isHeld hnow]
      unfold isStuck
      rw [funext (holdsUp_loosened s i it)]
      exact any_fast_of_stuck hstuck
    obtain ⟨hreplies, hblocked, hlast⟩ := ih hnext hnow hh hp hhandles
      fun op' hm => hall op' (List.mem_cons_of_mem _ hm)
    rw [trace, after_cons, hperform]
    refine ⟨fun t ht => ?_, .of_loosened hblocked, hlast⟩
    rcases List.mem_cons.1 ht with rfl | ht
    · have hopen : (s.loosened i it).isOpen i = true :=
        (Option.any_eq_true _ _).2 ⟨_, hnow, by rw [Iterator.isClosed, hh]; rfl⟩
      refine ⟨rfl, ?_⟩
      unfold Transition.leaves
      dsimp only
      rw [hopen]
      simp [isStep, heldUp]
    · exact hreplies t ht

/-! ## What stays readable -/

/-- A record that can be read is one that holds. -/
theorem Reads.holds (hs : Sound s) {ρ : RecordId} {kv : Engine.Record} (hr : Reads s ρ kv) :
    ∃ i, Holds s ρ i kv := by
  obtain ⟨r, hρ, -⟩ := hr.lent
  obtain ⟨it, hi, -, -⟩ := hs.placed ρ r hρ
  have hvalid := hr.valid
  rw [run_bind, Run.run_record hρ] at hvalid
  dsimp only at hvalid
  rw [Run.run_isValid hi] at hvalid
  have hg : it.generation = r.generation := by
    simpa using congrArg Prod.fst hvalid
  obtain ⟨κ, kv', hκ, hp, hκg, hkv, hcopy⟩ := hs.copy_present hρ hi hg
  have hsame := congrArg Prod.fst (hcopy.symm.trans hr.copy)
  obtain rfl := Except.ok.inj hsame
  exact ⟨r.iterator, r, it, κ, hρ, rfl, hi, hg, hκ, hκg.trans hg.symm, hp, hkv⟩

/-- Attempts that are held up leave every record as readable as it was. -/
theorem Blocked.reads (hb : Blocked i it s s') (hs : Sound s) (hs' : Sound s')
    (hi : s.iterators.get? i = some it) {ρ : RecordId} {kv : Engine.Record} (hr : Reads s ρ kv) :
    Reads s' ρ kv := by
  obtain ⟨j, r, jt, κ, hρ, hrj, hj, hg, hκ, hκg, hp, hkv⟩ := hr.holds hs
  have hκ' : s'.course? j = some κ := (hb.course? hi j).trans hκ
  have hρ' : s'.records.get? ρ = some r := by rw [hb.records]; exact hρ
  obtain ⟨jt', h, c, hj', -⟩ := exists_of_course? hκ'
  have hg' : jt'.generation = jt.generation := (generation_of_course? hj' hκ').symm.trans hκg
  have hholds : Holds s' ρ j kv :=
    ⟨r, jt', κ, hρ', hrj, hj', hg'.trans hg, hκ', hκg.trans hg'.symm, hp, hkv⟩
  exact hholds.reads hs'

/-! ## Going on -/

theorem course?_after (hs : Sound s) (hκ : s.course? i = some κ) (hp : κ.positioned = true)
    {ops : List Operation} (hstay : ∀ t ∈ s.trace ops, t.leaves i = false) :
    (s.after ops).course? i = some κ := by
  induction ops generalizing s with
  | nil => exact hκ
  | cons op ops ih =>
    rw [trace] at hstay
    have hnow := course?_perform hs hκ hp op
    rw [if_neg (Bool.eq_false_iff.1 (hstay _ List.mem_cons_self))] at hnow
    exact ih (perform_spec hs op).1.sound hnow fun t ht => hstay t (List.mem_cons_of_mem _ ht)

/-- An iterator goes on from its record as soon as no view is held. -/
theorem course?_advance (hs : Sound s) (hi : s.iterators.get? i = some it)
    (hh : it.cursor = some h) (hc : s.engine.cursors.get? h = some c)
    (hp : it.positioned = true) (hfree : s.isStuck it = false) :
    ((Run.advance i).run s).2.course? i = some (courseOf it c).step.1 := by
  have hprogress : it.progress = .running := Holds.running hs (course?_eq hi hh hc) hp
  have hloose := hs.loosened hi hh
  have hnow := Run.iterators_loosened s i it
  rw [fast_of_not_stuck hfree] at hnow
  have hleave := hloose.sound.leave hnow hh hc rfl
  obtain ⟨r, t, hgo, -, -, hcourse, -⟩ := Run.goOn_spec hleave.sound
    (Table.get?_set_self _ _ _) hh (Table.get?_set_self _ _ _) rfl hprogress
  have hkappa : (courseOf it c).leave = courseOf
      { it with generation := it.generation + 1, positioned := false, views := [] }
      { c with current := none, position := c.position + 1 } := if_pos hp
  have hstep : (courseOf it c).step = (courseOf it c).leave.settle := by
    unfold Course.step
    rw [show (courseOf it c).progress = .running from hprogress]
  rw [Run.run_advance hs hi hh, hprogress]
  dsimp only
  rw [if_pos hp, run_bind, Run.run_leaveRecord hi hc, hfree, if_neg Bool.false_ne_true]
  dsimp only
  rw [hgo, hstep, hkappa]
  exact hcourse

theorem shown_of_free (hs : Sound s) (hi : s.iterators.get? i = some it)
    (hh : it.cursor = some h) (hκ : s.course? i = some κ) (hp : κ.positioned = true)
    (hfree : s.isStuck it = false) {op : Operation} (hop : op.stepsOn i = true) :
    shown (s.perform op).2 (s.perform op).1 = κ.following := by
  obtain ⟨c, hc, -, -⟩ := hs.exists_cursor hi hh
  obtain rfl := Option.some.inj (hκ.symm.trans (course?_eq hi hh hc))
  have hrun := Holds.running hs hκ hp
  have hgoes := course?_advance hs hi hh hc hp hfree
  obtain ⟨hstore, -, -⟩ := perform_of_stepsOn hop s
  rw [← hstore] at hgoes
  rcases ((perform_spec hs op).2 hκ).goes hop with ⟨-, hsame⟩ | ⟨-, hshown⟩
  · have hgen := Course.generation_step hp hrun
    rw [← Option.some.inj (hsame.symm.trans hgoes)] at hgen
    exact absurd hgen.symm (Nat.succ_ne_self _)
  · exact hshown.trans (Course.step_of_positioned hp hrun)

/-- A view that was made of a record of an iterator is released, or kept track of. -/
theorem mem_views_of_handsOut (hs : Sound s) {ops : List Operation} {t : Transition}
    (ht : t ∈ s.trace ops) {v : ViewId} (hout : t.handsOut i v) (hl : Later (s.after ops) s') :
    ∃ vw, s'.views.get? v = some vw ∧ (vw.released = false →
      ∃ it, s'.iterators.get? i = some it ∧ v ∈ it.views) := by
  obtain ⟨earlier, later, -, hbefore, hperform, hafter⟩ := exists_of_mem_trace ht
  have hmove := move_after hs earlier
  rw [hbefore] at hmove
  obtain ⟨ρ, r, hr, hri, hop, hreply⟩ := hout
  rw [hreply] at hperform
  have hview : ∃ part, (Run.viewPart part ρ).run t.before = (.ok v, t.after) := by
    rcases hop with hop | hop
    · exact ⟨Record.key, run_of_perform (fun _ _ => Reply.view.inj) (by rw [hop]; rfl) hperform⟩
    · exact ⟨Record.value, run_of_perform (fun _ _ => Reply.view.inj) (by rw [hop]; rfl) hperform⟩
  obtain ⟨part, hview⟩ := hview
  have hsound : Sound t.after := by
    have hnow := (perform_spec hmove.sound t.operation).1.sound
    rwa [hperform] at hnow
  have hrest := (move_after hsound later).later
  rw [hafter] at hrest
  rcases Run.viewPart_cases hmove.sound part ρ with ⟨failure, hrun⟩ | ⟨r', it, hr', hi, -, hrun⟩
  · rw [hrun] at hview
    exact absurd hview error_ne_ok
  · obtain rfl := Option.some.inj (hr.symm.trans hr')
    rw [hrun] at hview
    obtain ⟨hv, hstore⟩ := Prod.mk.inj hview
    obtain rfl := Except.ok.inj hv
    have hlast : Later t.after s' := Frame.trans hrest hl
    rw [← hstore] at hlast
    obtain ⟨vw, hvw, -, hlisted⟩ := hlast.views (Table.get?_set_self _ _ _)
    refine ⟨vw, hvw, fun hnot => ?_⟩
    obtain ⟨it', hi', -, hm⟩ := (hlisted hnot).2 (Table.get?_set_self _ _ _) List.mem_cons_self
    rw [hri] at hi'
    exact ⟨it', hi', hm⟩

/-- A view that was made of a record of an iterator is kept track of as long as it is exported. -/
theorem isHeld_of_handsOut (hs : Sound s) {ops : List Operation} {t : Transition}
    (ht : t ∈ s.trace ops) {v : ViewId} (hout : t.handsOut i v)
    (hx : (s.after ops).isExported v = true) : (s.after ops).isHeld i = true := by
  obtain ⟨vw, hvw, hlisted⟩ := mem_views_of_handsOut hs ht hout (Frame.refl _)
  have hexported := hx
  rw [isExported, hvw, Option.any_some] at hexported
  have hnot : vw.released = false := by
    simpa using (Bool.and_eq_true_iff.1 hexported).1
  obtain ⟨it, hi, hm⟩ := hlisted hnot
  exact (Option.any_eq_true _ _).2 ⟨it, hi, List.any_eq_true.2 ⟨v, hm, hx⟩⟩

/-- Views that are exported block an iterator. As long as the iterator has not left its record, it
keeps track of every view of it that is exported, and all views that it keeps track of are of that
record. While one of them is exported, no attempt to go on or to close comes through, however often
it is made: it makes no call, the iterator stays where it is, its record can be read as before, and
at most some views of the record that nobody holds are released. Once none is exported, to go on
gives what follows the record, and to close gives the cursor back, once. -/
theorem exported_views_block (hs : Reachable s) (hκ : s.course? i = some κ)
    (hp : κ.positioned = true) (ops : List Operation)
    (hstay : ∀ t ∈ s.trace ops, t.leaves i = false) :
    let t := s.after ops
    t.course? i = some κ ∧
    (∀ u ∈ s.trace ops, ∀ v, u.handsOut i v → t.isExported v = true → t.isHeld i = true) ∧
    ∃ it h, t.iterators.get? i = some it ∧ it.cursor = some h ∧
      (∀ v ∈ it.views, ∃ vw, t.views.get? v = some vw ∧ ShowsPart t it vw) ∧
      (t.isHeld i = true → ∀ attempts : List Operation,
        (∀ op ∈ attempts, op.leavesOff i = true) →
        (∀ u ∈ t.trace attempts, u.reply = .error heldUp ∧ u.leaves i = false) ∧
        Blocked i it t (t.after attempts) ∧ (t.after attempts).course? i = some κ ∧
        (t.after attempts).isHeld i = true ∧
        ∀ ρ kv, Reads t ρ kv → Reads (t.after attempts) ρ kv) ∧
      (t.isHeld i = false →
        (∀ op : Operation, op.stepsOn i = true →
          shown (t.perform op).2 (t.perform op).1 = κ.following) ∧
        ClosesOnce t i h) := by
  intro t
  have ht : Reachable t := hs.after ops
  have hcourse : t.course? i = some κ := course?_after hs.sound hκ hp hstay
  obtain ⟨it, h, c, hi, hh, hc, hkappa⟩ := exists_of_course? hcourse
  have hpos : it.positioned = true := (congrArg Course.positioned hkappa).symm.trans hp
  have hstuck := ht.tracked.isHeld hi
  refine ⟨hcourse, fun u hu v hout hx => isHeld_of_handsOut hs.sound hu hout hx, it, h, hi, hh,
    fun v hv => ht.tracked.views hi hv, fun hheld attempts hall => ?_, fun hfree => ⟨?_, ?_⟩⟩
  · obtain ⟨hreplies, hblocked, hlast⟩ := attempts_blocked ht hi hh hpos hheld hall
    exact ⟨hreplies, hblocked, (hblocked.course? hi i).trans hcourse, hlast,
      fun ρ kv hr => hblocked.reads ht.sound (ht.after attempts).sound hi hr⟩
  · exact fun op hop => shown_of_free ht.sound hi hh hcourse hp (hstuck.symm.trans hfree) hop
  · exact closesOnce_of_free ht hi hh (hstuck.symm.trans hfree)

/-- A store in which an iteration over two records has given out the first one. -/
def firstGiven : Store := twoRecords.after [.range 0 .null, .advance 0]

/-- Views of the key and of the value are made, and the older one is held. -/
def holdKey : List Operation := [.viewKey 0, .viewValue 0, .holdView 0]

/-- While the view of the key is held nothing comes through; then the second record is next. -/
theorem second_record_after_blocked :
    (∀ u ∈ (firstGiven.after holdKey).trace [.advance 0, .next 0, .closeIterator 0],
      u.reply = .error heldUp) ∧
    let t := firstGiven.after (holdKey ++ [.advance 0, .unholdView 0])
    shown (t.perform (.next 0)).2 (t.perform (.next 0)).1 = .ok (some ([98], [2])) ∧
    ∃ h, ClosesOnce t 0 h := by
  have hs : Reachable firstGiven := reachable_twoRecords.after _
  have hfollowing : (firstGiven.course? 0).map (fun κ => (κ.positioned, κ.following.toOption)) =
      some (true, some (some ([98], [2]))) := by decide +kernel
  obtain ⟨κ, hκ, hpair⟩ := Option.map_eq_some_iff.1 hfollowing
  obtain ⟨hp, hnext⟩ := Prod.mk.inj hpair
  have hstay : ∀ ops : List Operation, (firstGiven.trace ops).all (fun t => !t.leaves 0) = true →
      ∀ t ∈ firstGiven.trace ops, t.leaves 0 = false := fun ops hall t ht => by
    simpa using List.all_eq_true.1 hall t ht
  have hheld : (firstGiven.after holdKey).isHeld 0 = true := by decide +kernel
  have hfree : (firstGiven.after (holdKey ++ [.advance 0, .unholdView 0])).isHeld 0 = false := by
    decide +kernel
  obtain ⟨-, -, it, g, -, -, -, hblocks, -⟩ :=
    exported_views_block hs hκ hp holdKey (hstay _ (by decide +kernel))
  obtain ⟨-, -, it', h, -, -, -, -, hgoes⟩ :=
    exported_views_block hs hκ hp (holdKey ++ [.advance 0, .unholdView 0])
      (hstay _ (by decide +kernel))
  obtain ⟨hshows, hcloses⟩ := hgoes hfree
  refine ⟨fun u hu => ((hblocks hheld _ ?_).1 u hu).1, ?_, h, hcloses⟩
  · intro op hop
    simp only [List.mem_cons, List.not_mem_nil, or_false] at hop
    rcases hop with rfl | rfl | rfl <;> rfl
  · exact (hshows (.next 0) rfl).trans (eq_ok_of_toOption hnext)

end FamilyStore.Store
