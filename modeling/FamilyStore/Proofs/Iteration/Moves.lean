import FamilyStore.Proofs.Iteration.Sound

/-!
The moves that work on iterators consists of. Each keeps the store sound, and makes it a later one.
-/

namespace FamilyStore.Store

variable {s : Store} {i : IteratorId} {it it' : Iterator} {h : Engine.Handle}
  {c c' : Engine.Cursor}

theorem later_turned (hl : Linked s) (hi : s.iterators.get? i = some it)
    (hh : it.cursor = some h) (hc : s.engine.cursors.get? h = some c) (hcur : it'.cursor = some h)
    (hgen : it.generation ≤ it'.generation)
    (hsame : it'.generation = it.generation → it.positioned = true →
      it'.positioned = true ∧ c' = c)
    (hviews : ∀ v ∈ it.views, it'.generation = it.generation ∧ v ∈ it'.views)
    (new : List Engine.Call) (m : Engine.Memory) : Later s (s.turned i it' h c' new m) where
  iterators {j jt} hj := by
    by_cases hji : j = i
    · rw [hji, hi] at hj
      obtain rfl := Option.some.inj hj
      refine ⟨it', by rw [hji]; exact Table.get?_set_self _ _ _, hgen, ?_, fun hg hp => ?_⟩
      · intro hn
        rw [hh] at hn
        exact absurd hn (by simp)
      · obtain ⟨hpos, rfl⟩ := hsame hg hp
        refine ⟨hpos, hcur.trans hh.symm, fun g d hg' hd => ?_⟩
        obtain rfl := Option.some.inj (hh.symm.trans hg')
        obtain rfl := Option.some.inj (hc.symm.trans hd)
        exact Table.get?_set_self _ _ _
    · refine ⟨jt, by rw [turned, Table.get?_set_ne _ hji]; exact hj, Nat.le_refl _, id,
        fun _ hp => ⟨hp, rfl, fun g d hg hd => ?_⟩⟩
      have hgh : g ≠ h := by
        rintro rfl
        exact hji (hl.apart hj hi hg hh)
      rw [turned, Engine.onCursor, Table.get?_set_ne _ hgh]
      exact hd
  records := id
  views {v vw} hv := by
    refine ⟨vw, hv, rfl, fun hr => ⟨hr, fun {j jt} hj hm => ?_⟩⟩
    by_cases hji : j = i
    · rw [hji, hi] at hj
      obtain rfl := Option.some.inj hj
      exact ⟨it', by rw [hji]; exact Table.get?_set_self _ _ _, hviews v hm⟩
    · exact ⟨jt, by rw [turned, Table.get?_set_ne _ hji]; exact hj, rfl, hm⟩

/-- Records may be added. -/
theorem Later.withRecords {s' : Store} (hl : Later s s') {t : Table RecordId Record}
    (ht : ∀ {ρ r}, s.records.get? ρ = some r → t.get? ρ = some r) :
    Later s { s' with records := t } where
  iterators hi := by
    obtain ⟨it', hi', ha⟩ := hl.iterators hi
    exact ⟨it', hi', ha.generation, ha.closed, ha.same⟩
  records := ht
  views := hl.views

/-- A move: the store stays sound, and is a later one. -/
structure Move (s s' : Store) : Prop where
  sound : Sound s'
  later : Later s s'

theorem Move.trans {s'' s' : Store} (h : Move s s') (h' : Move s' s'') : Move s s'' :=
  ⟨h'.sound, Frame.trans h.later h'.later⟩

theorem Sound.stay (hs : Sound s) : Move s s := ⟨hs, Frame.refl s⟩

namespace Sound

/-- The cursor of an open iterator. -/
theorem exists_cursor (hs : Sound s) (hi : s.iterators.get? i = some it)
    (hh : it.cursor = some h) : ∃ c, s.engine.cursors.get? h = some c ∧ InStep it c ∧
      Engine.Told s.engine.calls h c :=
  hs.linked.cursor hi hh

theorem inStep (hs : Sound s) (hi : s.iterators.get? i = some it) (hh : it.cursor = some h)
    (hc : s.engine.cursors.get? h = some c) : InStep it c := by
  obtain ⟨d, hd, hstep, -⟩ := hs.linked.cursor hi hh
  obtain rfl := Option.some.inj (hc.symm.trans hd)
  exact hstep

theorem told (hs : Sound s) (hi : s.iterators.get? i = some it) (hh : it.cursor = some h)
    (hc : s.engine.cursors.get? h = some c) : Engine.Told s.engine.calls h c := by
  obtain ⟨d, hd, -, htold⟩ := hs.linked.cursor hi hh
  obtain rfl := Option.some.inj (hc.symm.trans hd)
  exact htold

/-- An open iterator that has given out no record of its generation has no views and no memory. -/
theorem not_positioned (hs : Sound s) (hi : s.iterators.get? i = some it)
    (hh : it.cursor = some h) (hc : s.engine.cursors.get? h = some c)
    (hn : it.positioned = false) : it.views = [] ∧ c.current = none := by
  have hstep := hs.inStep hi hh hc
  refine ⟨hstep.views hn, ?_⟩
  have hcur := hstep.lent
  rw [hn] at hcur
  exact Option.not_isSome_iff_eq_none.1 (by rw [hcur]; exact Bool.false_ne_true)

/-- The store when an iterator has left its record. -/
def leftRecord (s : Store) (i : IteratorId) (it : Iterator) (h : Engine.Handle)
    (c : Engine.Cursor) : Store :=
  s.turned i { it with generation := it.generation + 1, positioned := false } h
    { c with current := none, position := c.position + 1 } [⟨.iteratorNext, .handle h⟩]
    (c.takeBack s.engine.memory)

theorem leave (hs : Sound s) (hi : s.iterators.get? i = some it) (hh : it.cursor = some h)
    (hc : s.engine.cursors.get? h = some c) (hv : it.views = []) :
    Move s (leftRecord s i it h c) := by
  have hstep := hs.inStep hi hh hc
  have htold := hs.told hi hh hc
  have hlater : Later s (leftRecord s i it h c) := by
    refine later_turned hs.linked hi hh hc (by exact hh) (by exact Nat.le_succ _) (fun hg => ?_)
      (fun v hm => ?_) _ _
    · exact absurd hg (Nat.succ_ne_self _)
    · rw [hv] at hm
      exact absurd hm List.not_mem_nil
  refine ⟨⟨?_, hs.lent.step hc (by rfl) _, hs.placed.later hlater rfl⟩, hlater⟩
  refine hs.linked.turn hi hh hc (by exact hh) (by rfl) ?_ ?_ ?_ _
  · exact ⟨rfl, hstep.running, fun _ => rfl, fun _ => hv⟩
  · constructor
    case steps =>
      show Engine.stepsOf (⟨.iteratorNext, .handle h⟩ :: s.engine.calls) h = c.position + 1
      rw [Engine.stepsOf, List.count_cons_self, ← htold.steps]
      rfl
    case asked =>
      intro earlier hsuf
      have hold : Engine.asking h :: earlier <:+ s.engine.calls :=
        Engine.asked_append (List.not_mem_cons_of_ne_of_not_mem (Engine.next_ne_asking h h).symm
          List.not_mem_nil) hsuf
      exact htold.asked earlier hold
  · intro call hm
    rw [List.mem_singleton.1 hm]

/-- The store when an iterator without a record to leave has come to its end. -/
def stopped (s : Store) (i : IteratorId) (it : Iterator) (h : Engine.Handle) (c : Engine.Cursor)
    (p : Progress) (st : Status) : Store :=
  s.turned i { it with progress := p } h { c with status := st }
    [⟨.iteratorStatus, .handle h⟩, ⟨.iteratorValid, .handle h⟩] s.engine.memory

theorem stop (hs : Sound s) (hi : s.iterators.get? i = some it) (hh : it.cursor = some h)
    (hc : s.engine.cursors.get? h = some c) (hn : it.positioned = false) {p : Progress}
    {st : Status} (hp : p ≠ .running) :
    Move s (stopped s i it h c p st) := by
  have hstep := hs.inStep hi hh hc
  have hlater : Later s (stopped s i it h c p st) :=
    later_turned hs.linked hi hh hc (by exact hh) (by exact Nat.le_refl _)
      (fun _ hpos => absurd (hn.symm.trans hpos) Bool.false_ne_true)
      (fun v hm => ⟨by rfl, by exact hm⟩) _ _
  refine ⟨⟨?_, hs.lent.keep hc (by rfl) (by rfl) (by rfl) _, hs.placed.later hlater rfl⟩, hlater⟩
  refine hs.linked.turn hi hh hc (by exact hh) (by rfl) ?_ ?_ ?_ _
  · exact ⟨hstep.lent, fun hr => absurd hr hp, fun _ => hn, hstep.views⟩
  · exact (hs.told hi hh hc).append (by rfl) (by rfl) (by simp) (by simp [Engine.asking])
  · intro call hm
    rcases List.mem_cons.1 hm with rfl | hm
    · rfl
    · rw [List.mem_singleton.1 hm]

/-- The record that an iterator gives out next. -/
def newRecord (s : Store) (i : IteratorId) (it : Iterator) (kv : Engine.Record) : Record :=
  ⟨i, it.generation, ⟨s.engine.memory.next, kv.1.length⟩, ⟨s.engine.memory.next + 1, kv.2.length⟩⟩

/-- The store when the cursor of an iterator has put its record into memory. -/
def lending (s : Store) (i : IteratorId) (it : Iterator) (h : Engine.Handle) (c : Engine.Cursor)
    (kv : Engine.Record) : Store :=
  s.turned i { it with positioned := true } h
    { c with current := some (s.engine.memory.next, s.engine.memory.next + 1) }
    [⟨.iteratorGetCurrent, .handle h⟩, ⟨.iteratorValid, .handle h⟩]
    ((s.engine.memory.alloc kv.1).alloc kv.2)

/-- The store when an iterator has given out a record. -/
def gaveOut (s : Store) (i : IteratorId) (it : Iterator) (h : Engine.Handle) (c : Engine.Cursor)
    (kv : Engine.Record) : Store :=
  { lending s i it h c kv with
    records := s.records.set s.records.size (newRecord s i it kv) }

theorem give (hs : Sound s) (hi : s.iterators.get? i = some it) (hh : it.cursor = some h)
    (hc : s.engine.cursors.get? h = some c) (hn : it.positioned = false)
    (hrun : it.progress = .running) {kv : Engine.Record}
    (hkv : c.records[c.position]? = some kv) : Move s (gaveOut s i it h c kv) := by
  have hstep := hs.inStep hi hh hc
  have htold := hs.told hi hh hc
  obtain ⟨hv, hcur⟩ := hs.not_positioned hi hh hc hn
  have hlt : c.position < c.records.length := (List.getElem?_eq_some_iff.1 hkv).1
  have hlending : Later s (lending s i it h c kv) :=
    later_turned hs.linked hi hh hc (by exact hh) (by exact Nat.le_refl _)
      (fun _ hpos => absurd (hn.symm.trans hpos) Bool.false_ne_true)
      (fun v hm => ⟨by rfl, by exact hm⟩) _ _
  have hlinked : Linked (gaveOut s i it h c kv) := by
    refine Linked.withRecords ?_ (hs.linked.records.set_size _)
    refine hs.linked.turn hi hh hc (by exact hh) (by rfl) ?_ ?_ ?_ _
    · exact ⟨rfl, hstep.running, fun hr => absurd hrun hr,
        fun hp => absurd hp (Ne.symm Bool.false_ne_true)⟩
    · have hvalid : Engine.Told ([⟨.iteratorValid, .handle h⟩] ++ s.engine.calls) h c :=
        htold.append rfl rfl (by simp) (by simp [Engine.asking])
      constructor
      case steps =>
        have hskip := Engine.stepsOf_append ([⟨.iteratorValid, .handle h⟩] ++ s.engine.calls)
          (List.not_mem_cons_of_ne_of_not_mem (Engine.next_ne_asking h h) List.not_mem_nil)
        exact hskip.trans hvalid.steps
      case asked =>
        intro earlier hsuf
        rcases List.suffix_cons_iff.1 hsuf with heq | hsuf
        · rw [(List.cons.inj heq).2]
          have := hvalid.steps
          show Engine.stepsOf ([⟨.iteratorValid, .handle h⟩] ++ s.engine.calls) h < _
          rw [this]
          exact hlt
        · exact hvalid.asked earlier hsuf
    · intro call hm
      rcases List.mem_cons.1 hm with rfl | hm
      · rfl
      · rw [List.mem_singleton.1 hm]
  have hlater : Later s (gaveOut s i it h c kv) := by
    refine hlending.withRecords fun {ρ r} hr => ?_
    rw [Table.get?_set_ne _ (hs.linked.records.ne_size hr)]
    exact hr
  have hplaced := hs.placed.later hlending rfl
  refine ⟨⟨hlinked, hs.lent.lend hc hcur hkv (by rfl) (by rfl) (by rfl) _, ?_⟩, hlater⟩
  intro ρ r hr
  rcases Table.of_get?_set hr with ⟨-, rfl⟩ | ⟨-, hr⟩
  · refine ⟨_, Table.get?_set_self _ _ _, Nat.le_refl _, fun _ => ⟨rfl, h, _, _, _, kv, hh,
      Table.get?_set_self _ _ _, rfl, hkv, rfl, rfl⟩⟩
  · exact hplaced ρ r hr

/-! ## Views -/

/-- An iterator changes while its cursor rests. -/
theorem turned_rest (hc : s.engine.cursors.get? h = some c) :
    s.turned i it' h c [] s.engine.memory = { s with iterators := s.iterators.set i it' } := by
  unfold turned
  rw [Engine.onCursor_self hc]

/-- The list of views of an open iterator changes. It stays empty without a record. -/
theorem withViewList (hs : Sound s) (hi : s.iterators.get? i = some it) (hh : it.cursor = some h)
    {vs : List ViewId} (hvs : it.positioned = false → vs = []) :
    Sound { s with iterators := s.iterators.set i { it with views := vs } } := by
  obtain ⟨c, hc, hstep, htold⟩ := hs.exists_cursor hi hh
  have hlinked : Linked (s.turned i { it with views := vs } h c [] s.engine.memory) := by
    refine hs.linked.turn hi hh hc (by exact hh) (by rfl) ?_ ?_ ?_ _
    · exact ⟨hstep.lent, hstep.running, hstep.stopped, hvs⟩
    · exact htold
    · exact fun call hm => absurd hm List.not_mem_nil
  rw [turned_rest hc] at hlinked
  refine ⟨hlinked, hs.lent, fun ρ r hr => ?_⟩
  obtain ⟨jt, hj, hle, hlends⟩ := hs.placed ρ r hr
  by_cases hji : r.iterator = i
  · rw [hji, hi] at hj
    obtain rfl := Option.some.inj hj
    exact ⟨{ it with views := vs }, by rw [hji]; exact Table.get?_set_self _ _ _, hle, hlends⟩
  · exact ⟨jt, (Table.get?_set_ne _ hji _).trans hj, hle, hlends⟩

/-- Only the list of views of one iterator changes. Some views stay in it. -/
theorem exists_withViewList (hi : s.iterators.get? i = some it) {vs : List ViewId}
    {P : ViewId → Prop} (hkeep : ∀ w ∈ it.views, P w → w ∈ vs) {j : IteratorId} {jt : Iterator}
    (hj : s.iterators.get? j = some jt) :
    ∃ jt', (s.iterators.set i { it with views := vs }).get? j = some jt' ∧
      jt'.generation = jt.generation ∧ jt'.positioned = jt.positioned ∧ jt'.cursor = jt.cursor ∧
      ∀ w ∈ jt.views, P w → w ∈ jt'.views := by
  by_cases hji : j = i
  · rw [hji, hi] at hj
    obtain rfl := Option.some.inj hj
    exact ⟨{ it with views := vs }, by rw [hji]; exact Table.get?_set_self _ _ _, rfl, rfl, rfl,
      hkeep⟩
  · exact ⟨jt, (Table.get?_set_ne _ hji _).trans hj, rfl, rfl, rfl, fun w hm _ => hm⟩

/-- The store when an iterator has released the newest of its views. -/
def dropped (s : Store) (i : IteratorId) (it : Iterator) (v : ViewId) (vw : View)
    (rest : List ViewId) : Store :=
  { s with
    views := s.views.set v { vw with released := true }
    iterators := s.iterators.set i { it with views := rest } }

theorem drop (hs : Sound s) (hi : s.iterators.get? i = some it) (hh : it.cursor = some h)
    {v : ViewId} {vw : View} (hv : s.views.get? v = some vw) {rest : List ViewId}
    (hlist : it.views = v :: rest) : Move s (dropped s i it v vw rest) := by
  obtain ⟨c, hc, hstep, -⟩ := hs.exists_cursor hi hh
  have hrest : it.positioned = false → rest = [] := fun hp => by
    have hnil := hstep.views hp
    rw [hlist] at hnil
    exact absurd hnil (List.cons_ne_nil _ _)
  have hsound := hs.withViewList hi hh hrest
  refine ⟨⟨hsound.linked.withViews (hs.linked.views.set_old hv _), hs.lent, hsound.placed⟩, ?_⟩
  have hkeep : ∀ w ∈ it.views, w ≠ v → w ∈ rest := fun w hm hne => by
    rw [hlist] at hm
    exact (List.mem_cons.1 hm).resolve_left hne
  constructor
  case iterators =>
    intro j jt hj
    obtain ⟨jt', hj', hg, hp, hcur, -⟩ := exists_withViewList hi hkeep hj
    exact ⟨jt', hj', Nat.le_of_eq hg.symm, fun hn => hcur.trans hn,
      fun _ hpos => ⟨hp.trans hpos, hcur, fun _ _ _ hd => hd⟩⟩
  case records => exact id
  case views =>
    intro w ww hw
    by_cases hwv : w = v
    · rw [hwv, hv] at hw
      obtain rfl := Option.some.inj hw
      exact ⟨{ vw with released := true }, by rw [hwv]; exact Table.get?_set_self _ _ _, rfl,
        fun hr => absurd hr (Ne.symm Bool.false_ne_true)⟩
    · refine ⟨ww, (Table.get?_set_ne _ hwv _).trans hw, rfl, fun hr => ⟨hr, fun hj hm => ?_⟩⟩
      obtain ⟨jt', hj', hg, -, -, hmem⟩ := exists_withViewList hi hkeep hj
      exact ⟨jt', hj', hg, hmem w hm hwv⟩

/-- The store with a new view, which its iterator keeps track of. -/
def viewed (s : Store) (i : IteratorId) (it : Iterator) (vw : View) : Store :=
  { s with
    views := s.views.set s.views.size vw
    iterators := s.iterators.set i { it with views := s.views.size :: it.views } }

theorem addView (hs : Sound s) (hi : s.iterators.get? i = some it) (hh : it.cursor = some h)
    (hp : it.positioned = true) (vw : View) : Move s (viewed s i it vw) := by
  have hvs : it.positioned = false → s.views.size :: it.views = [] := fun hn =>
    absurd (hp.symm.trans hn) (Ne.symm Bool.false_ne_true)
  have hsound := hs.withViewList hi hh hvs
  refine ⟨⟨hsound.linked.withViews (hs.linked.views.set_size vw), hs.lent, hsound.placed⟩, ?_⟩
  have hkeep : ∀ w ∈ it.views, True → w ∈ s.views.size :: it.views := fun w hm _ =>
    List.mem_cons_of_mem _ hm
  constructor
  case iterators =>
    intro j jt hj
    obtain ⟨jt', hj', hg, hpos, hcur, -⟩ := exists_withViewList hi hkeep hj
    exact ⟨jt', hj', Nat.le_of_eq hg.symm, fun hn => hcur.trans hn,
      fun _ hq => ⟨hpos.trans hq, hcur, fun _ _ _ hd => hd⟩⟩
  case records => exact id
  case views =>
    intro w ww hw
    refine ⟨ww, (Table.get?_set_ne _ (hs.linked.views.ne_size hw) _).trans hw, rfl,
      fun hr => ⟨hr, fun hj hm => ?_⟩⟩
    obtain ⟨jt', hj', hg, -, -, hmem⟩ := exists_withViewList hi hkeep hj
    exact ⟨jt', hj', hg, hmem w hm trivial⟩

/-- A view changes, but does not show anything else and does not become readable again. -/
theorem changeView (hs : Sound s) {v : ViewId} {vw vw' : View} (hv : s.views.get? v = some vw)
    (hx : vw'.extent = vw.extent) (hr : vw'.released = false → vw.released = false) :
    Move s { s with views := s.views.set v vw' } := by
  refine ⟨⟨hs.linked.withViews (hs.linked.views.set_old hv vw'), hs.lent, hs.placed⟩, ?_⟩
  constructor
  case iterators =>
    intro j jt hj
    exact ⟨jt, hj, Nat.le_refl _, id, fun _ hp => ⟨hp, rfl, fun _ _ _ hd => hd⟩⟩
  case records => exact id
  case views =>
    intro w ww hw
    by_cases hwv : w = v
    · rw [hwv, hv] at hw
      obtain rfl := Option.some.inj hw
      exact ⟨vw', by rw [hwv]; exact Table.get?_set_self _ _ _, hx, fun hn =>
        ⟨hr hn, fun {_ jt} hj hm => ⟨jt, hj, rfl, hm⟩⟩⟩
    · exact ⟨ww, (Table.get?_set_ne _ hwv _).trans hw, rfl, fun hn =>
        ⟨hn, fun {_ jt} hj hm => ⟨jt, hj, rfl, hm⟩⟩⟩

/-! ## The beginning and the end of iterators -/

/-- The store when an iterator without views has been closed. -/
def shut (s : Store) (i : IteratorId) (it : Iterator) (h : Engine.Handle) (c : Engine.Cursor) :
    Store :=
  { s with
    engine := s.engine.withoutCursor h c
    iterators := s.iterators.set i
      { it with cursor := none, generation := it.generation + 1, positioned := false } }

theorem linked_shut (hl : Linked s) (hi : s.iterators.get? i = some it) (hh : it.cursor = some h)
    (hc : s.engine.cursors.get? h = some c) (hv : it.views = []) : Linked (shut s i it h c) := by
  have hother : ∀ {j jt}, (shut s i it h c).iterators.get? j = some jt → jt.isClosed = false →
      j ≠ i ∧ s.iterators.get? j = some jt := by
    intro j jt hj ho
    rcases Table.of_get?_set hj with ⟨-, rfl⟩ | ⟨hji, hj⟩
    · exact absurd ho (Ne.symm Bool.false_ne_true)
    · exact ⟨hji, hj⟩
  have hopen : ∀ {jt : Iterator} {g}, jt.cursor = some g → jt.isClosed = false := fun hg => by
    rw [Iterator.isClosed, hg]
    rfl
  constructor
  case iterators => exact hl.iterators.set_old hi _
  case records => exact hl.records
  case views => exact hl.views
  case families => exact hl.families
  case handles =>
    intro g d hd
    rw [shut, Engine.withoutCursor, Table.get?_erase] at hd
    split at hd
    · exact absurd hd (by simp)
    · exact hl.handles hd
  case cursor =>
    intro j jt g hj hg
    obtain ⟨hji, hj'⟩ := hother hj (hopen hg)
    have hgh : g ≠ h := by
      rintro rfl
      exact hji (hl.apart hj' hi hg hh)
    obtain ⟨d, hd, hstep, htold⟩ := hl.cursor hj' hg
    refine ⟨d, ?_, hstep, htold.cons (by decide) (by decide) _⟩
    rw [shut, Engine.withoutCursor, Table.get?_erase, if_neg hgh]
    exact hd
  case apart =>
    intro j k jt kt g hj hk hjg hkg
    exact hl.apart (hother hj (hopen hjg)).2 (hother hk (hopen hkg)).2 hjg hkg
  case closed =>
    intro j jt hj hn
    rcases Table.of_get?_set hj with ⟨-, rfl⟩ | ⟨-, hj⟩
    · exact hv
    · exact hl.closed hj hn
  case listed =>
    intro j jt hj ho
    exact hl.listed (hother hj ho).2 ho
  case unused =>
    intro g hg
    obtain ⟨hsteps, hasked⟩ := hl.unused g hg
    exact ⟨(Engine.stepsOf_cons (by decide) _ _ g).trans hsteps,
      fun earlier hs => hasked earlier (Engine.asked_cons (by decide) hs)⟩

theorem close (hs : Sound s) (hi : s.iterators.get? i = some it) (hh : it.cursor = some h)
    (hc : s.engine.cursors.get? h = some c) (hv : it.views = []) : Move s (shut s i it h c) := by
  have hlater : Later s (shut s i it h c) := by
    constructor
    case iterators =>
      intro j jt hj
      by_cases hji : j = i
      · rw [hji, hi] at hj
        obtain rfl := Option.some.inj hj
        refine ⟨_, by rw [shut, hji]; exact Table.get?_set_self _ _ _, Nat.le_succ _,
          fun _ => rfl, fun hg => absurd hg (Nat.succ_ne_self _)⟩
      · refine ⟨jt, (Table.get?_set_ne _ hji _).trans hj, Nat.le_refl _, id,
          fun _ hp => ⟨hp, rfl, fun g d hg hd => ?_⟩⟩
        have hgh : g ≠ h := by
          rintro rfl
          exact hji (hs.linked.apart hj hi hg hh)
        rw [shut, Engine.withoutCursor, Table.get?_erase, if_neg hgh]
        exact hd
    case records => exact id
    case views =>
      intro w ww hw
      refine ⟨ww, hw, rfl, fun hr => ⟨hr, fun {j jt} hj hm => ?_⟩⟩
      have hji : j ≠ i := by
        rintro rfl
        rw [hi] at hj
        rw [← Option.some.inj hj, hv] at hm
        exact absurd hm List.not_mem_nil
      exact ⟨jt, (Table.get?_set_ne _ hji _).trans hj, rfl, hm⟩
  exact ⟨⟨linked_shut hs.linked hi hh hc hv, hs.lent.without hc,
    hs.placed.later hlater rfl⟩, hlater⟩

/-- The store with a new iterator over a family, with a new cursor. -/
def begun (s : Store) (id : FamilyId) (f : Family) (fh : Engine.FamilyHandle)
    (c : Engine.Cursor) : Store :=
  { s with
    engine := s.engine.withCursor fh c
    iterators := s.iterators.set s.iterators.size
      ⟨id, some s.engine.nextHandle, .running, false, 0, []⟩
    families := s.families.set id { f with iterators := f.iterators ++ [s.iterators.size] } }

theorem linked_begun (hl : Linked s) {id : FamilyId} {f : Family}
    (hf : s.families.get? id = some f) (ho : f.isClosed = false) (fh : Engine.FamilyHandle)
    (hpos : c.position = 0) (hcur : c.current = none) (hst : c.status = Status.success) :
    Linked (begun s id f fh c) := by
  have hnext : ∀ {g}, Engine.stepsOf (⟨.iteratorInit, .family fh⟩ :: s.engine.calls) g =
      Engine.stepsOf s.engine.calls g := Engine.stepsOf_cons (by decide) _ _ _
  have hask : ∀ {g earlier}, Engine.asking g :: earlier <:+
      ⟨.iteratorInit, .family fh⟩ :: s.engine.calls →
      Engine.asking g :: earlier <:+ s.engine.calls := Engine.asked_cons (by decide)
  have hlt : ∀ {j jt g}, s.iterators.get? j = some jt → jt.cursor = some g →
      g < s.engine.nextHandle := fun hj hg => by
    obtain ⟨d, hd, -, -⟩ := hl.cursor hj hg
    exact hl.handles hd
  constructor
  case iterators => exact hl.iterators.set_size _
  case records => exact hl.records
  case views => exact hl.views
  case families => exact hl.families.set_old hf _
  case handles =>
    intro g d hd
    show g < s.engine.nextHandle + Engine.handleStep
    rcases Table.of_get?_set hd with ⟨rfl, -⟩ | ⟨-, hd⟩
    · exact Nat.lt_add_of_pos_right (by decide)
    · exact Nat.lt_add_right _ (hl.handles hd)
  case cursor =>
    intro j jt g hj hg
    rcases Table.of_get?_set hj with ⟨-, rfl⟩ | ⟨-, hj'⟩
    · obtain rfl := Option.some.inj hg
      obtain ⟨hsteps, hasked⟩ := hl.unused s.engine.nextHandle (Nat.le_refl _)
      refine ⟨c, Table.get?_set_self _ _ _, ⟨by rw [hcur]; rfl, fun _ => hst,
        fun hr => absurd rfl hr, fun _ => rfl⟩, hnext.trans (hsteps.trans hpos.symm), ?_⟩
      exact fun earlier hs => absurd (hask hs) (hasked earlier)
    · obtain ⟨d, hd, hstep, htold⟩ := hl.cursor hj' hg
      refine ⟨d, ?_, hstep, hnext.trans htold.steps, fun earlier hs => htold.asked _ (hask hs)⟩
      exact (Table.get?_set_ne _ (Nat.ne_of_lt (hlt hj' hg)) _).trans hd
  case apart =>
    intro j k jt kt g hj hk hjg hkg
    rcases Table.of_get?_set hj with ⟨rfl, rfl⟩ | ⟨-, hj'⟩
    · rcases Table.of_get?_set hk with ⟨rfl, -⟩ | ⟨-, hk'⟩
      · rfl
      · obtain rfl := Option.some.inj hjg
        exact absurd (hlt hk' hkg) (Nat.lt_irrefl _)
    · rcases Table.of_get?_set hk with ⟨rfl, rfl⟩ | ⟨-, hk'⟩
      · obtain rfl := Option.some.inj hkg
        exact absurd (hlt hj' hjg) (Nat.lt_irrefl _)
      · exact hl.apart hj' hk' hjg hkg
  case closed =>
    intro j jt hj hn
    rcases Table.of_get?_set hj with ⟨-, rfl⟩ | ⟨-, hj'⟩
    · rfl
    · exact hl.closed hj' hn
  case listed =>
    intro j jt hj hjo
    rcases Table.of_get?_set hj with ⟨rfl, rfl⟩ | ⟨-, hj'⟩
    · exact ⟨_, Table.get?_set_self _ _ _, ho, List.mem_append_right _ List.mem_cons_self⟩
    · obtain ⟨g, hg, hgo, hm⟩ := hl.listed hj' hjo
      by_cases hid : jt.family = id
      · rw [hid, hf] at hg
        obtain rfl := Option.some.inj hg
        exact ⟨{ f with iterators := f.iterators ++ [s.iterators.size] },
          by rw [begun, hid]; exact Table.get?_set_self _ _ _, ho, List.mem_append_left _ hm⟩
      · exact ⟨g, (Table.get?_set_ne _ hid _).trans hg, hgo, hm⟩
  case unused =>
    intro g hg
    obtain ⟨hsteps, hasked⟩ := hl.unused g (Nat.le_trans (Nat.le_add_right _ _) hg)
    exact ⟨hnext.trans hsteps, fun earlier hs => hasked earlier (hask hs)⟩

theorem begin (hs : Sound s) {id : FamilyId} {f : Family} (hf : s.families.get? id = some f)
    (ho : f.isClosed = false) (fh : Engine.FamilyHandle) (hpos : c.position = 0)
    (hcur : c.current = none) (hst : c.status = Status.success) : Move s (begun s id f fh c) := by
  have hfree : s.engine.cursors.get? s.engine.nextHandle = none := by
    cases hd : s.engine.cursors.get? s.engine.nextHandle with
    | none => rfl
    | some d => exact absurd (hs.linked.handles hd) (Nat.lt_irrefl _)
  have hlater : Later s (begun s id f fh c) := by
    have hkeep : ∀ {j jt}, s.iterators.get? j = some jt →
        (begun s id f fh c).iterators.get? j = some jt := fun hj =>
      (Table.get?_set_ne _ (hs.linked.iterators.ne_size hj) _).trans hj
    constructor
    case iterators =>
      intro j jt hj
      refine ⟨jt, hkeep hj, Nat.le_refl _, fun h => h, fun _ hp => ⟨hp, rfl, fun g d hg hd => ?_⟩⟩
      exact (Table.get?_set_ne _ (Nat.ne_of_lt (hs.linked.handles hd)) _).trans hd
    case records => exact fun hr => hr
    case views =>
      intro w ww hw
      exact ⟨ww, hw, rfl, fun hr => ⟨hr, fun {j jt} hj hm => ⟨jt, hkeep hj, rfl, hm⟩⟩⟩
  exact ⟨⟨linked_begun hs.linked hf ho fh hpos hcur hst, hs.lent.begin hfree fh hcur,
    hs.placed.later hlater rfl⟩, hlater⟩

/-- The store when a family handle has been closed. -/
def ended (s : Store) (id : FamilyId) (f : Family) : Store :=
  { s with families := s.families.set id { f with handle := none } }

/-- A family handle may be closed when its iterators are. -/
theorem endFamily (hs : Sound s) {id : FamilyId} {f : Family} (hf : s.families.get? id = some f)
    (hclosed : ∀ i ∈ f.iterators, ∀ it, s.iterators.get? i = some it → it.isClosed = true) :
    Move s (ended s id f) := by
  have hlater : Later s (ended s id f) :=
    { iterators := fun {j jt} hj => ⟨jt, hj, Nat.le_refl _, fun h => h, fun _ hp =>
        ⟨hp, rfl, fun _ _ _ hd => hd⟩⟩
      records := fun hr => hr
      views := fun {_ vw} hv => ⟨vw, hv, rfl, fun hr => ⟨hr, fun {_ jt} hj hm =>
        ⟨jt, hj, rfl, hm⟩⟩⟩ }
  refine ⟨⟨?_, hs.lent, hs.placed.later hlater rfl⟩, hlater⟩
  exact { hs.linked with
    families := hs.linked.families.set_old hf _
    listed := fun {j jt} hj ho => by
      obtain ⟨g, hg, hgo, hm⟩ := hs.linked.listed hj ho
      have hne : jt.family ≠ id := by
        rintro rfl
        rw [hf] at hg
        obtain rfl := Option.some.inj hg
        exact absurd (ho.symm.trans (hclosed j hm jt hj)) Bool.false_ne_true
      exact ⟨g, (Table.get?_set_ne _ hne _).trans hg, hgo, hm⟩ }

end Sound

end FamilyStore.Store
