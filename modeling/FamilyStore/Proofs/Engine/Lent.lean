import FamilyStore.Proofs.Engine.Cursor

/-!
Memory that cursors lend.

A cursor that was asked for its present record lends two blocks, which hold the key and the value of
that record. No two cursors lend one block. Every block that no cursor lends has been taken back,
and holds nothing but poison.
-/

namespace FamilyStore.Engine

/-- Nothing but poison. -/
def Poisoned (bs : Bytes) : Prop := ∀ b ∈ bs, b = poisonByte

namespace Memory

theorem block_poison_self (m : Memory) {a : Nat} (h : a < m.next) :
    (m.poison a).block a = List.replicate (m.block a).length poisonByte := by
  have hidx : m.indexOf a < m.blocks.length := by
    have : a < m.blocks.length := h
    unfold indexOf
    omega
  have hidx' : (m.poison a).indexOf a = m.indexOf a := by
    simp only [indexOf, poison, List.length_modify]
  unfold block
  rw [hidx']
  simp only [poison, List.getD_eq_getElem?_getD, List.getElem?_modify, if_true]
  rw [List.getElem?_eq_getElem hidx]
  rfl

theorem poisoned_poison_self (m : Memory) {a : Nat} (h : a < m.next) :
    Poisoned ((m.poison a).block a) := by
  rw [block_poison_self m h]
  exact fun b hb => List.eq_of_mem_replicate hb

/-- Poisoning a block does not undo the poisoning of another. -/
theorem poisoned_poison (m : Memory) {a b : Nat} (ha : a < m.next) (hb : b < m.next)
    (h : Poisoned (m.block b)) : Poisoned ((m.poison a).block b) := by
  by_cases hba : b = a
  · rw [hba]
    exact poisoned_poison_self m ha
  · rw [block_poison_ne m ha hb hba]
    exact h

end Memory

/-- A cursor lends the block at an address. -/
def Cursor.Lends (c : Cursor) (a : Address) : Prop :=
  ∃ k v, c.current = some (k, v) ∧ (a = k ∨ a = v)

theorem Cursor.not_lends {c : Cursor} (h : c.current = none) (a : Address) : ¬ c.Lends a := by
  rintro ⟨k, v, hc, -⟩
  rw [h] at hc
  exact absurd hc (by simp)

theorem Cursor.next_takeBack (c : Cursor) (m : Memory) : (c.takeBack m).next = m.next := by
  unfold takeBack
  cases c.current with
  | none => rfl
  | some p => exact (Memory.next_poison _ _).trans (Memory.next_poison _ _)

/-- What belongs to others stays when a cursor takes back what it lent. -/
theorem Cursor.block_takeBack {c : Cursor} {m : Memory} (hm : ∀ a, c.Lends a → a < m.next)
    {a : Address} (ha : a < m.next) (hn : ¬ c.Lends a) : (c.takeBack m).block a = m.block a := by
  unfold takeBack
  cases hc : c.current with
  | none => rfl
  | some p =>
    obtain ⟨k, v⟩ := p
    have hk := hm k ⟨k, v, hc, .inl rfl⟩
    have hv := hm v ⟨k, v, hc, .inr rfl⟩
    have hak : a ≠ k := fun h => hn ⟨k, v, hc, .inl h⟩
    have hav : a ≠ v := fun h => hn ⟨k, v, hc, .inr h⟩
    show ((m.poison k).poison v).block a = m.block a
    rw [Memory.block_poison_ne _ (by rwa [Memory.next_poison]) (by rwa [Memory.next_poison]) hav,
      Memory.block_poison_ne _ hk ha hak]

/-- What a cursor takes back is poisoned. -/
theorem Cursor.poisoned_takeBack {c : Cursor} {m : Memory} (hm : ∀ a, c.Lends a → a < m.next)
    {a : Address} (ha : c.Lends a) : Poisoned ((c.takeBack m).block a) := by
  obtain ⟨k, v, hc, hakv⟩ := ha
  have hk := hm k ⟨k, v, hc, .inl rfl⟩
  have hv := hm v ⟨k, v, hc, .inr rfl⟩
  unfold takeBack
  rw [hc]
  have hv' : v < (m.poison k).next := by rwa [Memory.next_poison]
  have hk' : k < (m.poison k).next := by rwa [Memory.next_poison]
  rcases hakv with rfl | rfl
  · exact Memory.poisoned_poison _ hv' hk' (Memory.poisoned_poison_self m hk)
  · exact Memory.poisoned_poison_self _ hv'

/-- Who lends which memory, and what has become of the rest. -/
structure Lent (e : Engine) : Prop where
  given : ∀ {h c a}, e.cursors.get? h = some c → c.Lends a → a < e.memory.next
  holds : ∀ {h c k v}, e.cursors.get? h = some c → c.current = some (k, v) →
    k ≠ v ∧ ∃ r, c.records[c.position]? = some r ∧
      e.memory.block k = r.1 ∧ e.memory.block v = r.2
  apart : ∀ {h h' c c' a}, e.cursors.get? h = some c → e.cursors.get? h' = some c' →
    c.Lends a → c'.Lends a → h = h'
  poisoned : ∀ {a}, a < e.memory.next → (∀ h c, e.cursors.get? h = some c → ¬ c.Lends a) →
    Poisoned (e.memory.block a)

theorem lent_initial (files : Files) : Lent (Engine.initial files) where
  given hc := absurd hc (by simp [Engine.initial, Table.get?_empty])
  holds hc := absurd hc (by simp [Engine.initial, Table.get?_empty])
  apart hc := absurd hc (by simp [Engine.initial, Table.get?_empty])
  poisoned ha := absurd ha (Nat.not_lt_zero _)

namespace Lent

variable {e e' : Engine} {h : Handle} {c c' : Cursor}

/-- Nothing changes for memory as long as cursors and memory stay. -/
theorem of_eq (hl : Lent e) (hc : e'.cursors = e.cursors) (hm : e'.memory = e.memory) :
    Lent e' where
  given := by rw [hc, hm]; exact hl.given
  holds := by rw [hc, hm]; exact hl.holds
  apart := by rw [hc]; exact hl.apart
  poisoned := by rw [hc, hm]; exact hl.poisoned

theorem sameCursors {parts : List Part} (hl : Lent e) (hq : SameCursors parts e e') : Lent e' :=
  hl.of_eq hq.cursors hq.memory

theorem lent_addresses (hl : Lent e) (hc : e.cursors.get? h = some c) :
    ∀ a, c.Lends a → a < e.memory.next := fun _ ha => hl.given hc ha

/-- A cursor changes without touching what it lends. -/
theorem keep (hl : Lent e) (hc : e.cursors.get? h = some c) (hcur : c'.current = c.current)
    (hrec : c'.records = c.records) (hpos : c'.position = c.position) (new : List Call) :
    Lent (onCursor e h c' new e.memory) := by
  have hback : ∀ {g d}, (e.cursors.set h c').get? g = some d →
      ∃ d', e.cursors.get? g = some d' ∧ d.current = d'.current ∧ d.records = d'.records ∧
        d.position = d'.position := by
    intro g d hd
    rcases Table.of_get?_set hd with ⟨hg, rfl⟩ | ⟨-, hd⟩
    · exact ⟨c, by rw [hg]; exact hc, hcur, hrec, hpos⟩
    · exact ⟨d, hd, rfl, rfl, rfl⟩
  have hlends : ∀ {d d' : Cursor} {a}, d.current = d'.current → d.Lends a → d'.Lends a := by
    rintro d d' a hd ⟨k, v, hk, ha⟩
    exact ⟨k, v, by rw [← hd]; exact hk, ha⟩
  constructor
  case given =>
    intro g d a hd ha
    obtain ⟨d', hd', hcur', -, -⟩ := hback hd
    exact hl.given hd' (hlends hcur' ha)
  case holds =>
    intro g d k v hd hkv
    obtain ⟨d', hd', hcur', hrec', hpos'⟩ := hback hd
    rw [hrec', hpos']
    exact hl.holds hd' (by rw [← hcur']; exact hkv)
  case apart =>
    intro g g' d d' a hd hd' ha ha'
    obtain ⟨b, hb, hcur', -, -⟩ := hback hd
    obtain ⟨b', hb', hcur'', -, -⟩ := hback hd'
    exact hl.apart hb hb' (hlends hcur' ha) (hlends hcur'' ha')
  case poisoned =>
    intro a ha hn
    refine hl.poisoned ha fun g d hd hda => ?_
    by_cases hg : g = h
    · rw [hg, hc] at hd
      obtain rfl := Option.some.inj hd
      exact hn h c' (Table.get?_set_self _ _ _) (hlends hcur.symm hda)
    · exact hn g d (by rw [onCursor, Table.get?_set_ne _ hg]; exact hd) hda

/-- What one cursor lends is no other's. -/
theorem not_lends (hl : Lent e) (hc : e.cursors.get? h = some c) {g : Handle} {d : Cursor}
    (hd : e.cursors.get? g = some d) (hg : g ≠ h) {a : Address} (ha : d.Lends a) : ¬ c.Lends a :=
  fun hca => hg (hl.apart hd hc ha hca)

/-- A cursor takes back what it lent, and may then be gone. -/
theorem take (hl : Lent e) (hc : e.cursors.get? h = some c) {t : Table Handle Cursor}
    (hself : ∀ d, t.get? h = some d → d.current = none)
    (hother : ∀ g, g ≠ h → t.get? g = e.cursors.get? g) (calls : List Call) :
    Lent { e with calls := calls, cursors := t, memory := c.takeBack e.memory } := by
  have hgiven := hl.lent_addresses hc
  have hold : ∀ {g d a}, t.get? g = some d → d.Lends a → g ≠ h ∧ e.cursors.get? g = some d := by
    intro g d a hd ha
    have hg : g ≠ h := by
      rintro rfl
      exact Cursor.not_lends (hself d hd) a ha
    exact ⟨hg, by rw [← hother g hg]; exact hd⟩
  have hblock : ∀ {g d a}, t.get? g = some d → d.Lends a →
      (c.takeBack e.memory).block a = e.memory.block a := by
    intro g d a hd ha
    obtain ⟨hg, hd'⟩ := hold hd ha
    exact Cursor.block_takeBack hgiven (hl.given hd' ha) (hl.not_lends hc hd' hg ha)
  constructor
  case given =>
    intro g d a hd ha
    show a < (c.takeBack e.memory).next
    rw [Cursor.next_takeBack]
    exact hl.given (hold hd ha).2 ha
  case holds =>
    intro g d k v hd hkv
    have hk : d.Lends k := ⟨k, v, hkv, .inl rfl⟩
    have hv : d.Lends v := ⟨k, v, hkv, .inr rfl⟩
    obtain ⟨hne, r, hr, hbk, hbv⟩ := hl.holds (hold hd hk).2 hkv
    exact ⟨hne, r, hr, (hblock hd hk).trans hbk, (hblock hd hv).trans hbv⟩
  case apart =>
    intro g g' d d' a hd hd' ha ha'
    exact hl.apart (hold hd ha).2 (hold hd' ha').2 ha ha'
  case poisoned =>
    intro a ha hn
    have ha' : a < e.memory.next := by rwa [Cursor.next_takeBack] at ha
    show Poisoned ((c.takeBack e.memory).block a)
    by_cases hca : c.Lends a
    · exact Cursor.poisoned_takeBack hgiven hca
    · rw [Cursor.block_takeBack hgiven ha' hca]
      refine hl.poisoned ha' fun g d hd hda => ?_
      have hg : g ≠ h := by
        rintro rfl
        rw [hc] at hd
        obtain rfl := Option.some.inj hd
        exact hca hda
      exact hn g d (by rw [hother g hg]; exact hd) hda

/-- A cursor steps on. -/
theorem step (hl : Lent e) (hc : e.cursors.get? h = some c) (hn : c'.current = none)
    (new : List Call) : Lent (onCursor e h c' new (c.takeBack e.memory)) := by
  refine hl.take hc (fun d hd => ?_) (fun g hg => Table.get?_set_ne _ hg _) (new ++ e.calls)
  rw [Table.get?_set_self] at hd
  rw [← Option.some.inj hd]
  exact hn

/-- A cursor is given back. -/
theorem without (hl : Lent e) (hc : e.cursors.get? h = some c) : Lent (withoutCursor e h c) := by
  refine hl.take hc (fun d hd => ?_) (fun g hg => ?_) (⟨.iteratorDeinit, .handle h⟩ :: e.calls)
  · rw [Table.get?_erase, if_pos rfl] at hd
    exact absurd hd (by simp)
  · rw [Table.get?_erase, if_neg hg]

/-- A cursor puts the present record into new memory. -/
theorem lend (hl : Lent e) (hc : e.cursors.get? h = some c) (hn : c.current = none) {r : Record}
    (hr : c.records[c.position]? = some r) (hrec : c'.records = c.records)
    (hpos : c'.position = c.position)
    (hcur : c'.current = some (e.memory.next, e.memory.next + 1)) (new : List Call) :
    Lent (onCursor e h c' new ((e.memory.alloc r.1).alloc r.2)) := by
  have hnext : ((e.memory.alloc r.1).alloc r.2).next = e.memory.next + 2 := rfl
  have hself : ∀ {a : Nat}, c'.Lends a → e.memory.next ≤ a ∧ a < e.memory.next + 2 := by
    rintro a ⟨k, v, hkv, ha⟩
    rw [hcur] at hkv
    obtain ⟨rfl, rfl⟩ := Prod.mk.inj (Option.some.inj hkv)
    rcases ha with rfl | rfl
    · exact ⟨Nat.le_refl _, Nat.lt_add_of_pos_right (by decide)⟩
    · exact ⟨Nat.le_succ _, Nat.lt_succ_self _⟩
  have hlent : ∀ {a : Nat}, e.memory.next ≤ a → a < e.memory.next + 2 → c'.Lends a := by
    intro a hle hlt
    rcases Nat.eq_or_lt_of_le hle with heq | hgt
    · exact ⟨_, _, hcur, .inl heq.symm⟩
    · exact ⟨_, _, hcur, .inr (Nat.le_antisymm (Nat.le_of_lt_succ hlt) hgt)⟩
  have hold : ∀ {a : Nat}, a < e.memory.next →
      ((e.memory.alloc r.1).alloc r.2).block a = e.memory.block a := by
    intro a ha
    rw [Memory.block_alloc_of_lt _ _ (by rw [Memory.next_alloc]; omega),
      Memory.block_alloc_of_lt _ _ ha]
  constructor
  case given =>
    intro g d a hd ha
    show a < ((e.memory.alloc r.1).alloc r.2).next
    rw [hnext]
    rcases Table.of_get?_set hd with ⟨-, rfl⟩ | ⟨-, hd'⟩
    · exact (hself ha).2
    · exact Nat.lt_add_right 2 (hl.given hd' ha)
  case holds =>
    intro g d k v hd hkv
    rcases Table.of_get?_set hd with ⟨-, rfl⟩ | ⟨-, hd'⟩
    · rw [hcur] at hkv
      obtain ⟨rfl, rfl⟩ := Prod.mk.inj (Option.some.inj hkv)
      refine ⟨Nat.ne_of_lt (Nat.lt_succ_self _), r, by rw [hrec, hpos]; exact hr, ?_, ?_⟩
      · show ((e.memory.alloc r.1).alloc r.2).block e.memory.next = r.1
        rw [Memory.block_alloc_of_lt _ _ (by rw [Memory.next_alloc]; omega),
          Memory.block_alloc_self]
      · exact Memory.block_alloc_self _ _
    · obtain ⟨hne, r', hr', hbk, hbv⟩ := hl.holds hd' hkv
      exact ⟨hne, r', hr', (hold (hl.given hd' ⟨k, v, hkv, .inl rfl⟩)).trans hbk,
        (hold (hl.given hd' ⟨k, v, hkv, .inr rfl⟩)).trans hbv⟩
  case apart =>
    intro g g' d d' a hd hd' ha ha'
    rcases Table.of_get?_set hd with ⟨rfl, rfl⟩ | ⟨-, hb⟩
    · rcases Table.of_get?_set hd' with ⟨rfl, -⟩ | ⟨-, hb'⟩
      · rfl
      · exact absurd (hl.given hb' ha') (Nat.not_lt.2 (hself ha).1)
    · rcases Table.of_get?_set hd' with ⟨rfl, rfl⟩ | ⟨-, hb'⟩
      · exact absurd (hl.given hb ha) (Nat.not_lt.2 (hself ha').1)
      · exact hl.apart hb hb' ha ha'
  case poisoned =>
    intro a ha hnone
    have hlt : a < e.memory.next := Nat.lt_of_not_le fun hle =>
      hnone h c' (Table.get?_set_self _ _ _) (hlent hle ha)
    show Poisoned (((e.memory.alloc r.1).alloc r.2).block a)
    rw [hold hlt]
    refine hl.poisoned hlt fun g d hd hda => ?_
    by_cases hg : g = h
    · rw [hg, hc] at hd
      obtain rfl := Option.some.inj hd
      exact Cursor.not_lends hn a hda
    · exact hnone g d (by rw [onCursor, Table.get?_set_ne _ hg]; exact hd) hda

/-- A new cursor lends nothing. -/
theorem begin (hl : Lent e) (hfree : e.cursors.get? e.nextHandle = none) (f : FamilyHandle)
    (hn : c'.current = none) : Lent (withCursor e f c') := by
  have hold : ∀ {g d a}, (e.cursors.set e.nextHandle c').get? g = some d → d.Lends a →
      e.cursors.get? g = some d := by
    intro g d a hd ha
    rcases Table.of_get?_set hd with ⟨-, rfl⟩ | ⟨-, hd⟩
    · exact absurd ha (Cursor.not_lends hn a)
    · exact hd
  constructor
  case given =>
    intro g d a hd ha
    exact hl.given (hold hd ha) ha
  case holds =>
    intro g d k v hd hkv
    exact hl.holds (hold hd ⟨k, v, hkv, .inl rfl⟩) hkv
  case apart =>
    intro g g' d d' a hd hd' ha ha'
    exact hl.apart (hold hd ha) (hold hd' ha') ha ha'
  case poisoned =>
    intro a ha hnone
    refine hl.poisoned ha fun g d hd hda => ?_
    have hg : g ≠ e.nextHandle := by
      rintro rfl
      rw [hfree] at hd
      exact absurd hd (by simp)
    exact hnone g d (by rw [withCursor, Table.get?_set_ne _ hg]; exact hd) hda

end Lent

end FamilyStore.Engine
