import FamilyStore.Proofs.Engine.Growth
import FamilyStore.Proofs.Engine.Requests
import FamilyStore.Proofs.Points.Calls

/-!
The shelves of the engine: which records a path has for which index.

A database that is created empties the shelves of its path, and one that is opened finds them as
they are. A new family takes the next shelf of its database, with the records that lie there. Only
writing through a family changes what lies on a shelf.
-/

namespace FamilyStore.Engine

/-- The store that a path has for an index. -/
def slot? (e : Engine) (path : String) (index : Nat) : Option StoreId :=
  (e.stores.get? path).bind fun t => t.get? index

/-- The records that a path has for an index; none, if there is no store yet. -/
def shelf (e : Engine) (path : String) (index : Nat) : Records :=
  ((e.slot? path index).map e.recordsOf).getD .empty

/-- Every database finds stores at its path. -/
def Stocked (e : Engine) : Prop :=
  ∀ h d, e.databases.get? h = some d → ∃ t, e.stores.get? d.path = some t

variable {e e' : Engine} {path : String} {index : Nat} {σ : StoreId}

theorem owns_of_slot? (h : e.slot? path index = some σ) : e.Owns path index σ := by
  obtain ⟨t, ht, hi⟩ := Option.bind_eq_some_iff.1 h
  exact .inl ⟨t, ht, hi⟩

theorem shelf_of_slot? (h : e.slot? path index = some σ) :
    e.shelf path index = e.recordsOf σ := by
  simp [shelf, h]

theorem shelf_of_none (h : e.slot? path index = none) : e.shelf path index = .empty := by
  simp [shelf, h]

theorem slot?_congr (h : e'.stores = e.stores) (path : String) (index : Nat) :
    e'.slot? path index = e.slot? path index := by
  simp [slot?, h]

theorem shelf_congr (hs : e'.stores = e.stores) (hr : ∀ σ, e'.recordsOf σ = e.recordsOf σ)
    (path : String) (index : Nat) : e'.shelf path index = e.shelf path index := by
  have hrecords : e'.recordsOf = e.recordsOf := funext hr
  simp [shelf, slot?_congr hs, hrecords]

/-- What is written into a store lies on the shelf of the store. -/
theorem shelf_replaces (hs : e'.stores = e.stores) {R : Records} (hr : Replaces σ R e e')
    (path : String) (index : Nat) : e'.shelf path index =
      if e.slot? path index = some σ then R else e.shelf path index := by
  unfold shelf
  rw [slot?_congr hs]
  cases hslot : e.slot? path index with
  | none => simp
  | some τ => simp [hr τ]

/-! ## Databases -/

theorem slot?_opened (e : Engine) (existing : Bool) (path : String) (files : Files) (p : String)
    (i : Nat) : (withDatabase (settled e existing path files) path).slot? p i =
      if existing = false ∧ p = path then none else e.slot? p i := by
  unfold withDatabase settled slot?
  cases existing with
  | false =>
    have hthere : (e.stores.set path .empty).contains path = true := by
      simp [Table.contains, Table.get?_set_self]
    dsimp only
    rw [if_neg Bool.false_ne_true, if_pos hthere, Table.get?_set]
    by_cases hp : p = path
    · simp [hp, Table.get?_empty]
    · simp [hp]
  | true =>
    dsimp only
    rw [if_pos rfl]
    by_cases hc : e.stores.contains path = true
    · simp [hc]
    · rw [if_neg hc, Table.get?_set]
      by_cases hp : p = path
      · have hnone : e.stores.get? path = none := by simpa [Table.contains] using hc
        simp [hp, hnone, Table.get?_empty]
      · simp [hp]

/-- A database that is created empties the shelves of its path. -/
theorem shelf_opened (e : Engine) (existing : Bool) (path : String) (files : Files) (p : String)
    (i : Nat) : (withDatabase (settled e existing path files) path).shelf p i =
      if existing = false ∧ p = path then .empty else e.shelf p i := by
  unfold shelf
  rw [slot?_opened]
  split
  · rfl
  · rfl

theorem Stocked.opened (h : Stocked e) (existing : Bool) (path : String) (files : Files) :
    Stocked (withDatabase (settled e existing path files) path) := by
  have hthere : ∀ (t : Table String (Table Nat StoreId)) p, (p = path ∨ ∃ x, t.get? p = some x) →
      ∃ x, (if t.contains path then t else t.set path .empty).get? p = some x := by
    intro t p hp
    split
    · rename_i hc
      rcases hp with rfl | hx
      · exact Option.isSome_iff_exists.1 hc
      · exact hx
    · rw [Table.get?_set]
      split
      · exact ⟨_, rfl⟩
      · rename_i hne
        exact hp.resolve_left hne
  have hempty : ∀ (t : Table String (Table Nat StoreId)) p, (∃ x, t.get? p = some x) →
      ∃ x, (t.set path .empty).get? p = some x := by
    intro t p hx
    rw [Table.get?_set]
    split
    · exact ⟨_, rfl⟩
    · exact hx
  intro g d hd
  refine hthere _ _ ?_
  rcases Table.of_get?_set hd with ⟨-, rfl⟩ | ⟨-, hd⟩
  · exact .inl rfl
  · refine .inr ?_
    cases existing with
    | false => exact hempty _ _ (h g d hd)
    | true => exact h g d hd

/-! ## Families -/

/-- A family is made at the next index of its database, on the shelf that is there. -/
structure Shelves (h : Handle) (d : Database) (config : DataRecord) (σ : StoreId)
    (e e' : Engine) : Prop where
  databases : e'.databases = e.databases.set h { d with nextFamily := d.nextFamily + 1 }
  families : e'.families = e.families.set (h, d.nextFamily) ⟨h, config, σ, false⟩
  slot : e'.slot? d.path d.nextFamily = some σ
  others : ∀ p i, ¬ (p = d.path ∧ i = d.nextFamily) → e'.slot? p i = e.slot? p i
  /-- A store that is new was no one's. -/
  same : e.slot? d.path d.nextFamily = some σ ∨
    e.slot? d.path d.nextFamily = none ∧ e.records.size ≤ σ
  shelf : ∀ p i, e'.shelf p i = e.shelf p i
  stocked : Stocked e → Stocked e'

namespace Shelves

variable {h : Handle} {d : Database} {config : DataRecord} {t : Table Nat StoreId}

/-- The databases that are there keep their paths, and with them their stores. -/
theorem stocked_of (hd : e.databases.get? h = some d)
    (hdb : e'.databases = e.databases.set h { d with nextFamily := d.nextFamily + 1 })
    (hs : ∀ p t, e.stores.get? p = some t → ∃ t', e'.stores.get? p = some t') (he : Stocked e) :
    Stocked e' := by
  intro g c hc
  rw [hdb] at hc
  rcases Table.of_get?_set hc with ⟨-, rfl⟩ | ⟨-, hc⟩
  · obtain ⟨t, ht⟩ := he h d hd
    exact hs _ t ht
  · obtain ⟨t, ht⟩ := he g c hc
    exact hs _ t ht

/-- The shelf has been used before. -/
theorem found (hd : e.databases.get? h = some d)
    (hslot : e.slot? d.path d.nextFamily = some σ)
    (hdb : e'.databases = e.databases.set h { d with nextFamily := d.nextFamily + 1 })
    (hf : e'.families = e.families.set (h, d.nextFamily) ⟨h, config, σ, false⟩)
    (hs : e'.stores = e.stores) (hr : e'.records = e.records) : Shelves h d config σ e e' where
  databases := hdb
  families := hf
  slot := by rw [slot?_congr hs, hslot]
  others p i _ := slot?_congr hs p i
  same := .inl hslot
  shelf := shelf_congr hs fun σ => by simp [recordsOf, hr]
  stocked := stocked_of hd hdb fun p t ht => ⟨t, by rw [hs, ht]⟩

/-- The shelf is a new one, without records. -/
theorem fresh (he : Housed e) (hd : e.databases.get? h = some d)
    (ht : e.stores.get? d.path = some t) (hi : t.get? d.nextFamily = none)
    (hdb : e'.databases = e.databases.set h { d with nextFamily := d.nextFamily + 1 })
    (hf : e'.families = e.families.set (h, d.nextFamily) ⟨h, config, e.records.size, false⟩)
    (hs : e'.stores = e.stores.set d.path (t.set d.nextFamily e.records.size))
    (hr : e'.records = e.records.set e.records.size .empty) :
    Shelves h d config e.records.size e e' := by
  have hnone : e.slot? d.path d.nextFamily = none := by simp [slot?, ht, hi]
  have hslot : e'.slot? d.path d.nextFamily = some e.records.size := by
    simp [slot?, hs, Table.get?_set_self]
  have hothers : ∀ p i, ¬ (p = d.path ∧ i = d.nextFamily) → e'.slot? p i = e.slot? p i := by
    intro p i hne
    unfold slot?
    rw [hs, Table.get?_set]
    by_cases hp : p = d.path
    · have hin : i ≠ d.nextFamily := fun hi => hne ⟨hp, hi⟩
      simp [hp, ht, Table.get?_set_ne _ hin]
    · rw [if_neg hp]
  refine ⟨hdb, hf, hslot, hothers, .inr ⟨hnone, Nat.le_refl _⟩, fun p i => ?_, ?_⟩
  · by_cases hpi : p = d.path ∧ i = d.nextFamily
    · obtain ⟨rfl, rfl⟩ := hpi
      rw [shelf_of_slot? hslot, shelf_of_none hnone]
      simp [recordsOf, hr, Table.get?_set_self]
    · cases hslot' : e.slot? p i with
      | none => rw [shelf_of_none hslot', shelf_of_none ((hothers p i hpi).trans hslot')]
      | some τ =>
        have hlt := he.owned (owns_of_slot? hslot')
        rw [shelf_of_slot? hslot', shelf_of_slot? ((hothers p i hpi).trans hslot')]
        unfold recordsOf
        rw [hr, Table.get?_set_ne _ (Nat.ne_of_lt hlt)]
  · refine stocked_of hd hdb fun p t' ht' => ?_
    rw [hs, Table.get?_set]
    split
    · exact ⟨_, rfl⟩
    · exact ⟨t', ht'⟩

end Shelves

namespace Run

variable {h : Handle} {d : Database}

/-- The next family of a database is made, on the next shelf of its path. -/
theorem run_familyCreate (he : Housed e) (hst : Stocked e) (hd : e.databases.get? h = some d)
    (config : DataRecord) : ∃ σ e', (familyCreate h config).run e = (.ok (h, d.nextFamily), e') ∧
      Shelves h d config σ e e' := by
  obtain ⟨t, ht⟩ := hst h d hd
  unfold familyCreate storeFor
  rw [run_bind, run_note]
  dsimp only
  rw [run_bind, run_get]
  dsimp only
  rw [hd, run_bind, run_require_some]
  dsimp only
  rw [run_bind, run_set]
  dsimp only
  rw [run_bind, run_bind, run_get]
  dsimp only
  rw [ht, run_bind, run_require_some]
  dsimp only
  cases hi : t.get? d.nextFamily with
  | none => exact ⟨_, _, rfl, .fresh he hd ht hi rfl rfl rfl rfl⟩
  | some σ =>
    have hslot : e.slot? d.path d.nextFamily = some σ := by simp [slot?, ht, hi]
    exact ⟨σ, _, rfl, .found hd hslot rfl rfl rfl rfl⟩

end Run

end FamilyStore.Engine
