import FamilyStore.Proofs.Engine.Lent
import FamilyStore.Proofs.SameHandles

/-!
Iterators and their cursors.

An open iterator has a cursor of its own, and the two are in step: the cursor lends its present
record exactly when the iterator has given that record out. The calls that the engine noted tell the
position of the cursor.
-/

namespace FamilyStore

namespace Engine

/-- What the calls tell of a cursor. -/
structure Told (calls : List Call) (h : Handle) (c : Cursor) : Prop where
  steps : stepsOf calls h = c.position
  /-- The present record is only asked for where there is one. -/
  asked : ∀ earlier, asking h :: earlier <:+ calls → stepsOf earlier h < c.records.length

theorem Told.append {calls : List Call} {h : Handle} {c c' : Cursor} (ht : Told calls h c)
    (hrec : c'.records = c.records) (hpos : c'.position = c.position) {new : List Call}
    (hnext : Call.mk .iteratorNext (.handle h) ∉ new) (hask : asking h ∉ new) :
    Told (new ++ calls) h c' where
  steps := by rw [stepsOf_append _ hnext, hpos]; exact ht.steps
  asked earlier hs := by rw [hrec]; exact ht.asked earlier (asked_append hask hs)

theorem Told.cons {calls : List Call} {h : Handle} {c : Cursor} (ht : Told calls h c)
    {entry : EntryPoint} (hnext : entry ≠ .iteratorNext) (hask : entry ≠ .iteratorGetCurrent)
    (subject : Subject) : Told (⟨entry, subject⟩ :: calls) h c where
  steps := (stepsOf_cons hnext subject calls h).trans ht.steps
  asked earlier hs := ht.asked earlier (asked_cons hask hs)

/-- Calls about one handle tell nothing of another. -/
theorem Told.of_ne {calls : List Call} {h g : Handle} {c : Cursor} (ht : Told calls h c)
    {new : List Call} (hnew : ∀ call ∈ new, call.subject = .handle g) (hg : h ≠ g) :
    Told (new ++ calls) h c :=
  ht.append rfl rfl (fun hm => hg (Subject.handle.inj (hnew _ hm)))
    (fun hm => hg (Subject.handle.inj (hnew _ hm)))

end Engine

namespace Store

/-- An iterator and its cursor are in step. -/
structure InStep (it : Iterator) (c : Engine.Cursor) : Prop where
  lent : c.current.isSome = it.positioned
  running : it.progress = .running → c.status = Status.success
  stopped : it.progress ≠ .running → it.positioned = false
  views : it.positioned = false → it.views = []

/-- Every open iterator has a cursor of its own, in step with it. -/
structure Linked (s : Store) : Prop where
  iterators : s.iterators.Numbered
  records : s.records.Numbered
  views : s.views.Numbered
  families : s.families.Numbered
  handles : ∀ {h c}, s.engine.cursors.get? h = some c → h < s.engine.nextHandle
  cursor : ∀ {i it h}, s.iterators.get? i = some it → it.cursor = some h →
    ∃ c, s.engine.cursors.get? h = some c ∧ InStep it c ∧ Engine.Told s.engine.calls h c
  apart : ∀ {i j it jt h}, s.iterators.get? i = some it → s.iterators.get? j = some jt →
    it.cursor = some h → jt.cursor = some h → i = j
  closed : ∀ {i it}, s.iterators.get? i = some it → it.cursor = none → it.views = []
  listed : ∀ {i it}, s.iterators.get? i = some it → it.isClosed = false →
    ∃ f, s.families.get? it.family = some f ∧ f.isClosed = false ∧ i ∈ f.iterators
  unused : ∀ h, s.engine.nextHandle ≤ h → Engine.stepsOf s.engine.calls h = 0 ∧
    ∀ earlier, ¬ Engine.asking h :: earlier <:+ s.engine.calls

theorem linked_initial (files : Files) : Linked (Store.initial files) where
  iterators := Table.numbered_empty
  records := Table.numbered_empty
  views := Table.numbered_empty
  families := Table.numbered_empty
  handles hc := absurd hc (by simp [Store.initial, Engine.initial, Table.get?_empty])
  cursor hi := absurd hi (by simp [Store.initial, Table.get?_empty])
  apart hi := absurd hi (by simp [Store.initial, Table.get?_empty])
  closed hi := absurd hi (by simp [Store.initial, Table.get?_empty])
  listed hi := absurd hi (by simp [Store.initial, Table.get?_empty])
  unused _ _ := ⟨rfl, fun _ hs => absurd (List.suffix_nil.1 hs) (List.cons_ne_nil _ _)⟩

/-- The store after work on an iterator and its cursor. -/
def turned (s : Store) (i : IteratorId) (it : Iterator) (h : Engine.Handle) (c : Engine.Cursor)
    (new : List Engine.Call) (m : Engine.Memory) : Store :=
  { s with engine := s.engine.onCursor h c new m, iterators := s.iterators.set i it }

namespace Linked

variable {s s' : Store} {i : IteratorId} {it it' : Iterator} {h : Engine.Handle}
  {c c' : Engine.Cursor}

/-- While iterators are the same, so are all links. -/
theorem sameIterators {parts : List Engine.Part} (hl : Linked s) (hq : SameIterators parts s s') :
    Linked s' where
  iterators := by rw [hq.iterators]; exact hl.iterators
  records := by rw [hq.records]; exact hl.records
  views := by rw [hq.views]; exact hl.views
  families := (hq.families hl.families).1
  handles hc := by
    rw [hq.engine.cursors] at hc
    exact Nat.lt_of_lt_of_le (hl.handles hc) hq.engine.nextHandle
  cursor hi hh := by
    rw [hq.iterators] at hi
    obtain ⟨c, hc, hstep, htold⟩ := hl.cursor hi hh
    refine ⟨c, by rw [hq.engine.cursors]; exact hc, hstep, ?_, ?_⟩
    · rw [hq.engine.steps]
      exact htold.steps
    · exact fun earlier hs => htold.asked earlier (hq.engine.asked _ _ hs)
  apart hi hj := by
    rw [hq.iterators] at hi hj
    exact hl.apart hi hj
  closed hi := by
    rw [hq.iterators] at hi
    exact hl.closed hi
  listed hi ho := by
    rw [hq.iterators] at hi
    obtain ⟨f, hf, hfo, hm⟩ := hl.listed hi ho
    exact ⟨f, (hq.families hl.families).2 _ _ hf, hfo, hm⟩
  unused g hg := by
    obtain ⟨hsteps, hasked⟩ := hl.unused g (Nat.le_trans hq.engine.nextHandle hg)
    rw [hq.engine.steps]
    exact ⟨hsteps, fun earlier hs => hasked earlier (hq.engine.asked _ _ hs)⟩

/-- Views may change as long as they stay numbered. -/
theorem withViews (hl : Linked s) {t : Table ViewId View} (ht : t.Numbered) :
    Linked { s with views := t } :=
  { hl with views := ht }

/-- Records may be added. -/
theorem withRecords (hl : Linked s) {t : Table RecordId Record} (ht : t.Numbered) :
    Linked { s with records := t } :=
  { hl with records := ht }

/-- An iterator and its cursor change together. -/
theorem turn (hl : Linked s) (hi : s.iterators.get? i = some it) (hh : it.cursor = some h)
    (hc : s.engine.cursors.get? h = some c) (hcur : it'.cursor = some h)
    (hfam : it'.family = it.family) (hstep : InStep it' c') {new : List Engine.Call}
    (htold : Engine.Told (new ++ s.engine.calls) h c')
    (hnew : ∀ call ∈ new, call.subject = .handle h) (m : Engine.Memory) :
    Linked (s.turned i it' h c' new m) where
  iterators := hl.iterators.set_old hi it'
  records := hl.records
  views := hl.views
  families := hl.families
  handles {g d} hd := by
    rcases Table.of_get?_set hd with ⟨rfl, -⟩ | ⟨-, hd⟩
    · exact hl.handles hc
    · exact hl.handles hd
  cursor {j jt g} hj hg := by
    rcases Table.of_get?_set hj with ⟨-, rfl⟩ | ⟨hji, hold⟩
    · obtain rfl := Option.some.inj (hcur.symm.trans hg)
      exact ⟨c', Table.get?_set_self _ _ _, hstep, htold⟩
    · have hgh : g ≠ h := by
        rintro rfl
        exact hji (hl.apart hold hi hg hh)
      obtain ⟨d, hd, hstep', htold'⟩ := hl.cursor hold hg
      exact ⟨d, by rw [turned, Engine.onCursor, Table.get?_set_ne _ hgh]; exact hd, hstep',
        htold'.of_ne hnew hgh⟩
  apart {j k jt kt g} hj hk hjg hkg := by
    have hold : ∀ {j jt}, (s.turned i it' h c' new m).iterators.get? j = some jt →
        jt.cursor = some g → ∃ jt', s.iterators.get? j = some jt' ∧ jt'.cursor = some g := by
      intro j jt hj hjg
      rcases Table.of_get?_set hj with ⟨rfl, rfl⟩ | ⟨-, hj⟩
      · exact ⟨it, hi, hh.trans (hcur.symm.trans hjg)⟩
      · exact ⟨jt, hj, hjg⟩
    obtain ⟨jt', hj', hjg'⟩ := hold hj hjg
    obtain ⟨kt', hk', hkg'⟩ := hold hk hkg
    exact hl.apart hj' hk' hjg' hkg'
  closed {j jt} hj hn := by
    rcases Table.of_get?_set hj with ⟨-, rfl⟩ | ⟨-, hj⟩
    · rw [hcur] at hn
      exact absurd hn (by simp)
    · exact hl.closed hj hn
  listed {j jt} hj ho := by
    rcases Table.of_get?_set hj with ⟨hji, rfl⟩ | ⟨-, hj⟩
    · rw [hfam, hji]
      exact hl.listed hi (by rw [Iterator.isClosed, hh]; rfl)
    · exact hl.listed hj ho
  unused g hg := by
    have hgh : g ≠ h := Nat.ne_of_gt (Nat.lt_of_lt_of_le (hl.handles hc) hg)
    obtain ⟨hsteps, hasked⟩ := hl.unused g hg
    refine ⟨?_, fun earlier hs => hasked earlier (Engine.asked_append ?_ hs)⟩
    · exact (Engine.stepsOf_append _ fun hm =>
        hgh (Engine.Subject.handle.inj (hnew _ hm))).trans hsteps
    · exact fun hm => hgh (Engine.Subject.handle.inj (hnew _ hm))

end Linked

end Store

end FamilyStore
