import FamilyStore.Proofs.Iteration.Linked

/-!
What is sound about iterators, the records that they gave out, and the views of these.

A record belongs to a generation of its iterator. While that generation lasts, the record is the one
that the iterator's cursor lends. As time goes on generations only grow, and a view that is not
released is one of its iterator's views, in the generation in which it was made.
-/

namespace FamilyStore.Store

/-- How far the walk of an open iterator has come. -/
structure Course where
  /-- The records to visit. -/
  records : List Engine.Record
  failAt : Option Int
  position : Nat
  positioned : Bool
  progress : Progress
  generation : Nat

/-- The walk of an iterator and its cursor. -/
def courseOf (it : Iterator) (c : Engine.Cursor) : Course :=
  ⟨c.records, c.failAt, c.position, it.positioned, it.progress, it.generation⟩

/-- The walk of a new iterator. -/
def Course.fresh (records : List Engine.Record) (failAt : Option Int) : Course :=
  ⟨records, failAt, 0, false, .running, 0⟩

/-- The walk of an iterator, while it is open. -/
def course? (s : Store) (i : IteratorId) : Option Course :=
  (s.iterators.get? i).bind fun it => it.cursor.bind fun h =>
    (s.engine.cursors.get? h).map (courseOf it)

/-- An iterator lends the memory of a record. -/
def Lends (s : Store) (it : Iterator) (r : Record) : Prop :=
  it.positioned = true ∧ ∃ h c k v kv, it.cursor = some h ∧ s.engine.cursors.get? h = some c ∧
    c.current = some (k, v) ∧ c.records[c.position]? = some kv ∧
    r.key = ⟨k, kv.1.length⟩ ∧ r.value = ⟨v, kv.2.length⟩

/-- Records are no newer than their iterators, and those of the present generation are lent. -/
def Placed (s : Store) : Prop :=
  ∀ ρ r, s.records.get? ρ = some r → ∃ it, s.iterators.get? r.iterator = some it ∧
    r.generation ≤ it.generation ∧ (r.generation = it.generation → Lends s it r)

/-- What holds in every store that operations lead to. -/
structure Sound (s : Store) : Prop where
  linked : Linked s
  lent : Engine.Lent s.engine
  placed : Placed s

theorem sound_initial (files : Files) : Sound (Store.initial files) where
  linked := linked_initial files
  lent := Engine.lent_initial files
  placed _ _ hr := absurd hr (by simp [Store.initial, Table.get?_empty])

/-! ## As time goes on -/

/-- What becomes of an iterator. -/
structure Ages (s s' : Store) (it it' : Iterator) : Prop where
  generation : it.generation ≤ it'.generation
  closed : it.cursor = none → it'.cursor = none
  /-- Within a generation the record that was given out stays. -/
  same : it'.generation = it.generation → it.positioned = true →
    it'.positioned = true ∧ it'.cursor = it.cursor ∧
    ∀ h c, it.cursor = some h → s.engine.cursors.get? h = some c →
      s'.engine.cursors.get? h = some c

theorem Ages.refl (s : Store) (it : Iterator) : Ages s s it it :=
  ⟨Nat.le_refl _, id, fun _ hp => ⟨hp, rfl, fun _ _ _ hc => hc⟩⟩

theorem Ages.trans {s s' s'' : Store} {it it' it'' : Iterator} (h : Ages s s' it it')
    (h' : Ages s' s'' it' it'') : Ages s s'' it it'' where
  generation := Nat.le_trans h.generation h'.generation
  closed hn := h'.closed (h.closed hn)
  same hg hp := by
    have hg' : it'.generation = it.generation :=
      Nat.le_antisymm (hg ▸ h'.generation) h.generation
    obtain ⟨hp', hcur, hc⟩ := h.same hg' hp
    obtain ⟨hp'', hcur', hc'⟩ := h'.same (hg.trans hg'.symm) hp'
    exact ⟨hp'', hcur'.trans hcur, fun g c hg hgc => hc' g c (hcur.trans hg) (hc g c hg hgc)⟩

/-- A later store: iterators age, records stay, and views are released at some time. -/
structure Later (s s' : Store) : Prop where
  iterators : ∀ {i it}, s.iterators.get? i = some it →
    ∃ it', s'.iterators.get? i = some it' ∧ Ages s s' it it'
  records : ∀ {ρ r}, s.records.get? ρ = some r → s'.records.get? ρ = some r
  views : ∀ {v vw}, s.views.get? v = some vw → ∃ vw', s'.views.get? v = some vw' ∧
    vw'.extent = vw.extent ∧ (vw'.released = false → vw.released = false ∧
      ∀ {i it}, s.iterators.get? i = some it → v ∈ it.views →
        ∃ it', s'.iterators.get? i = some it' ∧ it'.generation = it.generation ∧ v ∈ it'.views)

instance : Frame Later where
  refl s :=
    { iterators := fun {_ it} hi => ⟨it, hi, Ages.refl s it⟩
      records := id
      views := fun {_ vw} hv =>
        ⟨vw, hv, rfl, fun hr => ⟨hr, fun {_ it} hi hm => ⟨it, hi, rfl, hm⟩⟩⟩ }
  trans h h' :=
    { iterators := fun hi => by
        obtain ⟨it', hi', ha⟩ := h.iterators hi
        obtain ⟨it'', hi'', ha'⟩ := h'.iterators hi'
        exact ⟨it'', hi'', ha.trans ha'⟩
      records := fun hr => h'.records (h.records hr)
      views := fun hv => by
        obtain ⟨vw', hv', hx, hr⟩ := h.views hv
        obtain ⟨vw'', hv'', hx', hr'⟩ := h'.views hv'
        refine ⟨vw'', hv'', hx'.trans hx, fun hn => ⟨(hr (hr' hn).1).1, fun hi hm => ?_⟩⟩
        obtain ⟨it', hi', hg, hm'⟩ := (hr (hr' hn).1).2 hi hm
        obtain ⟨it'', hi'', hg', hm''⟩ := (hr' hn).2 hi' hm'
        exact ⟨it'', hi'', hg'.trans hg, hm''⟩ }

theorem SameIterators.later {parts : List Engine.Part} {s s' : Store}
    (hq : SameIterators parts s s') : Later s s' where
  iterators {i it} hi := ⟨it, by rw [hq.iterators]; exact hi, Nat.le_refl _, id, fun _ hp =>
    ⟨hp, rfl, fun _ _ _ hc => by rw [hq.engine.cursors]; exact hc⟩⟩
  records hr := by rw [hq.records]; exact hr
  views {v vw} hv := ⟨vw, by rw [hq.views]; exact hv, rfl, fun hr => ⟨hr, fun {i it} hi hm =>
    ⟨it, by rw [hq.iterators]; exact hi, rfl, hm⟩⟩⟩

/-- Records stay placed when time goes on. -/
theorem Placed.later {s s' : Store} (hp : Placed s) (hl : Later s s')
    (hr : s'.records = s.records) : Placed s' := by
  intro ρ r hρ
  rw [hr] at hρ
  obtain ⟨it, hi, hle, hlends⟩ := hp ρ r hρ
  obtain ⟨it', hi', ha⟩ := hl.iterators hi
  have hgrows := ha.generation
  refine ⟨it', hi', by omega, fun hg => ?_⟩
  have hgen : r.generation = it.generation := by omega
  obtain ⟨hpos, h, c, k, v, kv, hh, hc, hcur, hkv, hkey, hval⟩ := hlends hgen
  obtain ⟨hpos', hcur', hsame⟩ := ha.same (hg.symm.trans hgen) hpos
  exact ⟨hpos', h, c, k, v, kv, hcur'.trans hh, hsame h c hh hc, hcur, hkv, hkey, hval⟩

theorem Sound.sameIterators {parts : List Engine.Part} {s s' : Store} (hs : Sound s)
    (hq : SameIterators parts s s') : Sound s' where
  linked := hs.linked.sameIterators hq
  lent := hs.lent.sameCursors hq.engine
  placed := hs.placed.later hq.later hq.records

theorem SameIterators.course? {parts : List Engine.Part} {s s' : Store}
    (hq : SameIterators parts s s') (i : IteratorId) : s'.course? i = s.course? i := by
  unfold Store.course?
  rw [hq.iterators, hq.engine.cursors]

/-! ## The course of iterators -/

section

variable {s : Store} {i j : IteratorId} {it it' : Iterator} {h : Engine.Handle}
  {c c' : Engine.Cursor}

theorem course?_eq (hi : s.iterators.get? i = some it) (hh : it.cursor = some h)
    (hc : s.engine.cursors.get? h = some c) : s.course? i = some (courseOf it c) := by
  unfold course?
  rw [hi, Option.bind_some, hh, Option.bind_some, hc]
  rfl

theorem course?_of_closed (hi : s.iterators.get? i = some it) (hh : it.cursor = none) :
    s.course? i = none := by
  unfold course?
  rw [hi, Option.bind_some, hh]
  rfl

/-- An iterator with a course is open. -/
theorem exists_of_course? {κ : Course} (hκ : s.course? i = some κ) :
    ∃ it h c, s.iterators.get? i = some it ∧ it.cursor = some h ∧
      s.engine.cursors.get? h = some c ∧ κ = courseOf it c := by
  unfold course? at hκ
  obtain ⟨it, hi, hκ⟩ := Option.bind_eq_some_iff.1 hκ
  obtain ⟨h, hh, hκ⟩ := Option.bind_eq_some_iff.1 hκ
  obtain ⟨c, hc, hκ⟩ := Option.map_eq_some_iff.1 hκ
  exact ⟨it, h, c, hi, hh, hc, hκ.symm⟩

theorem course?_turned_self (new : List Engine.Call) (m : Engine.Memory)
    (hh : it'.cursor = some h) : (s.turned i it' h c' new m).course? i = some (courseOf it' c') :=
  course?_eq (Table.get?_set_self _ _ _) hh (Table.get?_set_self _ _ _)

/-- Work on an iterator and its cursor is no matter for the others. -/
theorem course?_turned_ne (hl : Linked s) (hi : s.iterators.get? i = some it)
    (hh : it.cursor = some h) (hj : j ≠ i) (new : List Engine.Call) (m : Engine.Memory) :
    (s.turned i it' h c' new m).course? j = s.course? j := by
  unfold course?
  rw [turned, Table.get?_set_ne _ hj]
  cases hjt : s.iterators.get? j with
  | none => rfl
  | some jt =>
    rw [Option.bind_some, Option.bind_some]
    cases hg : jt.cursor with
    | none => rfl
    | some g =>
      have hgh : g ≠ h := by
        rintro rfl
        exact hj (hl.apart hjt hi hg hh)
      rw [Option.bind_some, Option.bind_some, Engine.onCursor, Table.get?_set_ne _ hgh]

end

end FamilyStore.Store
