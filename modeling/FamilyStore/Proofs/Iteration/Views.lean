import FamilyStore.Proofs.Handles
import FamilyStore.Proofs.Iteration.Moves

/-!
What reading and releasing views and records does to the store.

Reading changes nothing. A record of the present generation reads as the record that its iterator's
cursor is at. Releasing the views of an iterator stops at a view that is held.
-/

namespace FamilyStore.Store

variable {s : Store} {i : IteratorId} {it : Iterator} {h : Engine.Handle} {c : Engine.Cursor}

namespace Run

theorem run_iterator (hi : s.iterators.get? i = some it) : (iterator i).run s = (.ok it, s) := by
  unfold iterator
  rw [run_bind, run_get]
  dsimp only
  rw [hi]
  rfl

theorem run_record {ρ : RecordId} {r : Record} (hr : s.records.get? ρ = some r) :
    (record ρ).run s = (.ok r, s) := by
  unfold record
  rw [run_bind, run_get]
  dsimp only
  rw [hr]
  rfl

theorem run_view {v : ViewId} {vw : View} (hv : s.views.get? v = some vw) :
    (view v).run s = (.ok vw, s) := by
  unfold view
  rw [run_bind, run_get]
  dsimp only
  rw [hv]
  rfl

theorem run_view_none {v : ViewId} (hv : s.views.get? v = none) :
    (view v).run s = (.error (.misuse .unknownHandle), s) := by
  unfold view
  rw [run_bind, run_get]
  dsimp only
  rw [hv]
  rfl

theorem run_iterator_none (hi : s.iterators.get? i = none) :
    (iterator i).run s = (.error (.misuse .unknownHandle), s) := by
  unfold iterator
  rw [run_bind, run_get]
  dsimp only
  rw [hi]
  rfl

/-! ## Records -/

theorem run_isValid {r : Record} (hi : s.iterators.get? r.iterator = some it) :
    (isValid r).run s = (.ok (it.generation == r.generation), s) := by
  unfold isValid
  rw [run_bind, run_iterator hi]
  rfl

theorem run_checkValid {r : Record} (hi : s.iterators.get? r.iterator = some it)
    (hg : it.generation = r.generation) : (checkValid r).run s = (.ok (), s) := by
  unfold checkValid
  rw [run_bind, run_isValid hi]
  dsimp only
  rw [run_ite, if_neg (by simp [hg])]
  rfl

theorem run_checkValid_of_stale {r : Record} (hi : s.iterators.get? r.iterator = some it)
    (hg : it.generation ≠ r.generation) :
    (checkValid r).run s = (.error (.store .staleResult), s) := by
  unfold checkValid
  rw [run_bind, run_isValid hi]
  dsimp only
  rw [run_ite, if_pos (by simp [hg])]
  rfl

/-- A stale record can neither be copied nor viewed. -/
theorem run_stale {ρ : RecordId} {r : Record} (hr : s.records.get? ρ = some r)
    (hi : s.iterators.get? r.iterator = some it) (hg : it.generation ≠ r.generation) :
    (copyRecord ρ).run s = (.error (.store .staleResult), s) ∧
    (viewKey ρ).run s = (.error (.store .staleResult), s) ∧
    (viewValue ρ).run s = (.error (.store .staleResult), s) := by
  unfold copyRecord viewKey viewValue
  refine ⟨?_, ?_, ?_⟩ <;> rw [run_bind, run_record hr] <;> dsimp only <;>
    rw [run_bind, run_checkValid_of_stale hi hg]

theorem run_copyRecord {ρ : RecordId} {r : Record} (hr : s.records.get? ρ = some r)
    (hi : s.iterators.get? r.iterator = some it) (hg : it.generation = r.generation) :
    (copyRecord ρ).run s =
      (.ok (s.engine.memory.read r.key, s.engine.memory.read r.value), s) := by
  unfold copyRecord
  rw [run_bind, run_record hr]
  dsimp only
  rw [run_bind, run_checkValid hi hg]
  rfl

end Run

/-- What is lent reads as the record that the cursor is at. -/
theorem Sound.read_lent (hs : Sound s) {r : Record} (hl : Lends s it r) :
    ∃ h c kv, it.cursor = some h ∧ s.engine.cursors.get? h = some c ∧
      c.records[c.position]? = some kv ∧ c.Lends r.key.address ∧ c.Lends r.value.address ∧
      r.key.length = kv.1.length ∧ r.value.length = kv.2.length ∧
      s.engine.memory.read r.key = kv.1 ∧ s.engine.memory.read r.value = kv.2 := by
  obtain ⟨-, h, c, k, v, kv, hh, hc, hcur, hkv, hkey, hval⟩ := hl
  obtain ⟨-, kv', hkv', hbk, hbv⟩ := hs.lent.holds hc hcur
  obtain rfl := Option.some.inj (hkv.symm.trans hkv')
  refine ⟨h, c, kv, hh, hc, hkv, ?_, ?_, ?_, ?_, ?_, ?_⟩
  · exact ⟨k, v, hcur, .inl (by rw [hkey])⟩
  · exact ⟨k, v, hcur, .inr (by rw [hval])⟩
  · rw [hkey]
  · rw [hval]
  · rw [hkey, Engine.Memory.read, hbk, List.take_length]
  · rw [hval, Engine.Memory.read, hbv, List.take_length]

/-- A record of the present generation reads as the record that the iterator is at. -/
theorem Sound.copy_present (hs : Sound s) {ρ : RecordId} {r : Record}
    (hr : s.records.get? ρ = some r) (hi : s.iterators.get? r.iterator = some it)
    (hg : it.generation = r.generation) :
    ∃ κ kv, s.course? r.iterator = some κ ∧ κ.positioned = true ∧ κ.generation = r.generation ∧
      κ.records[κ.position]? = some kv ∧ (Run.copyRecord ρ).run s = (.ok kv, s) := by
  obtain ⟨jt, hj, -, hlends⟩ := hs.placed ρ r hr
  obtain rfl := Option.some.inj (hi.symm.trans hj)
  obtain ⟨h, c, kv, hh, hc, hkv, -, -, -, -, hk, hv⟩ := hs.read_lent (hlends hg.symm)
  refine ⟨courseOf it c, kv, course?_eq hi hh hc, (hlends hg.symm).1, hg, hkv, ?_⟩
  rw [Run.run_copyRecord hr hi hg, hk, hv]

namespace Run

/-! ## Releasing views -/

theorem releaseView_cases (v : ViewId) (s : Store) :
    (∃ f, (releaseView v).run s = (.error f, s)) ∨
    ∃ vw, s.views.get? v = some vw ∧ (releaseView v).run s =
      (.ok (), { s with views := s.views.set v { vw with released := true } }) := by
  unfold releaseView
  cases hv : s.views.get? v with
  | none =>
    rw [run_bind, run_view_none hv]
    exact .inl ⟨_, rfl⟩
  | some vw =>
    rw [run_bind, run_view hv]
    dsimp only
    rw [run_ite]
    split
    · have hsame : ({ vw with released := true } : View) = vw := by
        cases vw
        simp_all
      refine .inr ⟨vw, rfl, ?_⟩
      rw [hsame, Table.set_of_get? hv]
      rfl
    · rw [run_ite]
      split
      · exact .inl ⟨_, rfl⟩
      · exact .inr ⟨vw, rfl, rfl⟩

/-- Releasing the views of an iterator is a move. It succeeds with none left, or it stops. -/
theorem releaseViews_spec (vs : List ViewId) : ∀ {s : Store} {it : Iterator}, Sound s →
    s.iterators.get? i = some it → it.cursor = some h → it.views = vs →
    ∃ r t rest, (releaseViews i vs).run s =
        (r, { s with views := t, iterators := s.iterators.set i { it with views := rest } }) ∧
      Move s { s with views := t, iterators := s.iterators.set i { it with views := rest } } ∧
      (r = .ok () ∧ rest = [] ∨ r = .error (.store .viewExported) ∧ vs ≠ []) := by
  induction vs with
  | nil =>
    intro s it hs hi hh hvs
    have hsame : s.iterators.set i { it with views := [] } = s.iterators := by
      rw [← hvs]
      exact Table.set_of_get? hi
    refine ⟨.ok (), s.views, [], ?_, ?_, .inl ⟨rfl, rfl⟩⟩
    · rw [hsame]
      rfl
    · rw [hsame]
      exact hs.stay
  | cons v rest ih =>
    intro s it hs hi hh hvs
    unfold releaseViews
    rw [run_bind, run_outcome]
    dsimp only
    rcases releaseView_cases v s with ⟨f, hrun⟩ | ⟨vw, hv, hrun⟩
    · have hsame : s.iterators.set i { it with views := v :: rest } = s.iterators := by
        rw [← hvs]
        exact Table.set_of_get? hi
      refine ⟨.error (.store .viewExported), s.views, v :: rest, ?_, ?_,
        .inr ⟨rfl, List.cons_ne_nil v rest⟩⟩
      · rw [hrun, hsame]
        rfl
      · rw [hsame]
        exact hs.stay
    · have hmove := hs.drop hi hh hv hvs
      have hnow : (Sound.dropped s i it v vw rest).iterators.get? i =
          some { it with views := rest } := Table.get?_set_self _ _ _
      obtain ⟨r, t, left, hrest, hmove', hr⟩ := ih hmove.sound hnow hh rfl
      refine ⟨r, t, left, ?_, ?_, hr.imp id fun hheld => ⟨hheld.1, List.cons_ne_nil v rest⟩⟩
      · rw [hrun]
        dsimp only
        rw [run_bind, run_iterator (s := { s with
          views := s.views.set v { vw with released := true } }) hi]
        dsimp only
        rw [run_bind]
        refine Eq.trans hrest ?_
        rw [Sound.dropped, Table.set_set]
      · have hboth := hmove.trans hmove'
        rw [Sound.dropped, Table.set_set] at hboth
        exact hboth

end Run

end FamilyStore.Store
