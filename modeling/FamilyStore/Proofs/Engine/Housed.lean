import FamilyStore.Proofs.Engine.SameCursors
import FamilyStore.Proofs.Table

/-!
Where the records of families lie.

A store belongs to one place: a path and the index of a family there. The stores of a path know it,
and a family that was made at the place holds on to it, even after the path has got new stores. That
no store belongs to two places is what keeps families apart.
-/

namespace FamilyStore.Engine

/-- All parts but some are the same; cursors and what else there is may change. -/
structure SameParts (parts : List Part) (e e' : Engine) : Prop where
  nextHandle : e.nextHandle ≤ e'.nextHandle
  same : ∀ p, p ∉ parts → p.Same e e'

instance {parts : List Part} : Frame (SameParts parts) where
  refl e := ⟨Nat.le_refl _, fun p _ => Part.Same.refl p e⟩
  trans h h' :=
    { nextHandle := Nat.le_trans h.nextHandle h'.nextHandle
      same := fun p hp => (h.same p hp).trans (h'.same p hp) }

theorem SameCursors.sameParts {parts : List Part} {e e' : Engine} (h : SameCursors parts e e') :
    SameParts parts e e' :=
  ⟨h.nextHandle, h.same⟩

theorem SameParts.mono {parts more : List Part} {e e' : Engine} (h : SameParts parts e e')
    (hp : parts ⊆ more) : SameParts more e e' :=
  ⟨h.nextHandle, fun p hn => h.same p fun hm => hn (hp hm)⟩

/-- A store belongs to a place: the stores of the path have it, or a family of the place does. -/
def Owns (e : Engine) (path : String) (index : Nat) (σ : StoreId) : Prop :=
  (∃ t, e.stores.get? path = some t ∧ t.get? index = some σ) ∨
  ∃ h d fam, e.databases.get? h = some d ∧ d.path = path ∧
    e.families.get? (h, index) = some fam ∧ fam.store = σ

/-- A database is open. -/
def IsOpen (e : Engine) (h : Handle) : Prop :=
  ∃ d, e.databases.get? h = some d ∧ d.isOpen = true

/-- Families stand on databases, and each store belongs to one place. -/
structure Housed (e : Engine) : Prop where
  databases : ∀ {h d}, e.databases.get? h = some d → h < e.nextHandle
  families : ∀ {f fam}, e.families.get? f = some fam → fam.database = f.1 ∧
    ∃ d, e.databases.get? f.1 = some d ∧ f.2 < d.nextFamily
  owned : ∀ {p i σ}, e.Owns p i σ → σ < e.records.size
  apart : ∀ {p i p' i' σ}, e.Owns p i σ → e.Owns p' i' σ → p = p' ∧ i = i'
  numbered : e.records.Numbered
  /-- No key has two records. -/
  nodup : ∀ {σ R}, e.records.get? σ = some R → R.keys.Nodup

theorem housed_initial (files : Files) : Housed (Engine.initial files) where
  databases h := absurd h (by simp [Engine.initial, Table.get?_empty])
  families h := absurd h (by simp [Engine.initial, Table.get?_empty])
  owned h := by
    rcases h with ⟨t, ht, -⟩ | ⟨h, d, fam, hd, -⟩
    · exact absurd ht (by simp [Engine.initial, Table.get?_empty])
    · exact absurd hd (by simp [Engine.initial, Table.get?_empty])
  apart h := by
    rcases h with ⟨t, ht, -⟩ | ⟨h, d, fam, hd, -⟩
    · exact absurd ht (by simp [Engine.initial, Table.get?_empty])
    · exact absurd hd (by simp [Engine.initial, Table.get?_empty])
  numbered := Table.numbered_empty
  nodup h := absurd h (by simp [Engine.initial, Table.get?_empty])

namespace Housed

variable {e e' : Engine} {h : Handle} {f : FamilyHandle} {fam : Family} {d : Database}

/-- The place of a family owns its store. -/
theorem owns (hd : e.databases.get? f.1 = some d) (hf : e.families.get? f = some fam) :
    e.Owns d.path f.2 fam.store :=
  .inr ⟨f.1, d, fam, hd, rfl, hf, rfl⟩

/-- The next index of a database is free. -/
theorem next_free (he : Housed e) (hd : e.databases.get? h = some d) :
    e.families.get? (h, d.nextFamily) = none := by
  cases hf : e.families.get? (h, d.nextFamily) with
  | none => rfl
  | some fam =>
    obtain ⟨-, c, hc, hlt⟩ := he.families hf
    rw [← Option.some.inj (hd.symm.trans hc)] at hlt
    exact absurd hlt (Nat.lt_irrefl _)

/-- Nothing happens to stores as long as no place gets another one. -/
theorem of_owns (he : Housed e) (hd : ∀ h d, e'.databases.get? h = some d → h < e'.nextHandle)
    (hf : ∀ f fam, e'.families.get? f = some fam → fam.database = f.1 ∧
      ∃ d, e'.databases.get? f.1 = some d ∧ f.2 < d.nextFamily)
    (ho : ∀ p i σ, e'.Owns p i σ → e.Owns p i σ) (hr : e'.records = e.records) : Housed e' where
  databases := hd _ _
  families := hf _ _
  owned h := by rw [hr]; exact he.owned (ho _ _ _ h)
  apart h h' := he.apart (ho _ _ _ h) (ho _ _ _ h')
  numbered := by rw [hr]; exact he.numbered
  nodup := by rw [hr]; exact he.nodup

/-- Nothing happens as long as databases, families, stores and records stay. -/
theorem sameParts (he : Housed e) (h : SameParts [.settings] e e') : Housed e' := by
  have hd : e'.databases = e.databases := h.same .databases (by decide)
  have hf : e'.families = e.families := h.same .families (by decide)
  have hs : e'.stores = e.stores := h.same .stores (by decide)
  refine he.of_owns ?_ ?_ ?_ (h.same .records (by decide))
  · rw [hd]
    intro g c hg
    exact Nat.lt_of_lt_of_le (he.databases hg) h.nextHandle
  · rw [hd, hf]
    exact fun _ _ => he.families
  · unfold Owns
    rw [hd, hf, hs]
    exact fun _ _ _ => id

/-- New records in a store that belongs to a place. -/
theorem edit (he : Housed e) (h : SameParts [.records] e e') {σ : StoreId} {R : Records}
    (hσ : σ < e.records.size) (hR : R.keys.Nodup) (hr : e'.records = e.records.set σ R) :
    Housed e' := by
  have hd : e'.databases = e.databases := h.same .databases (by decide)
  have hf : e'.families = e.families := h.same .families (by decide)
  have hs : e'.stores = e.stores := h.same .stores (by decide)
  have hmem : σ ∈ e.records.keys := by
    rw [he.numbered]
    exact List.mem_range.2 hσ
  obtain ⟨R₀, hR₀⟩ := Table.exists_get?_of_mem_keys hmem
  have hsize : e'.records.size = e.records.size := by
    rw [hr, ← Table.length_keys, Table.keys_set_of_mem hmem, Table.length_keys]
  have howns : ∀ p i τ, e'.Owns p i τ → e.Owns p i τ := by
    unfold Owns
    rw [hd, hf, hs]
    exact fun _ _ _ => id
  constructor
  case databases =>
    rw [hd]
    intro g c hg
    exact Nat.lt_of_lt_of_le (he.databases hg) h.nextHandle
  case families =>
    rw [hd, hf]
    exact he.families
  case owned =>
    rw [hsize]
    exact fun ho => he.owned (howns _ _ _ ho)
  case apart => exact fun ho ho' => he.apart (howns _ _ _ ho) (howns _ _ _ ho')
  case numbered =>
    rw [hr]
    exact he.numbered.set_old hR₀ R
  case nodup =>
    intro τ S hS
    rw [hr] at hS
    rcases Table.of_get?_set hS with ⟨-, rfl⟩ | ⟨-, hS⟩
    · exact hR
    · exact he.nodup hS

/-- A database gets on: more families were made there, or it was closed. -/
theorem setDatabase (he : Housed e) (hd : e.databases.get? h = some d) {d' : Database}
    (hp : d'.path = d.path) (hn : d.nextFamily ≤ d'.nextFamily) :
    Housed { e with databases := e.databases.set h d' } := by
  have hback : ∀ g c', (e.databases.set h d').get? g = some c' →
      ∃ c, e.databases.get? g = some c ∧ c'.path = c.path := by
    intro g c' hg
    rcases Table.of_get?_set hg with ⟨heq, rfl⟩ | ⟨-, hg⟩
    · exact ⟨d, by rw [heq]; exact hd, hp⟩
    · exact ⟨c', hg, rfl⟩
  refine he.of_owns ?_ ?_ ?_ rfl
  · intro g c' hg
    obtain ⟨c, hc, -⟩ := hback g c' hg
    exact he.databases hc
  · intro f fam hf
    obtain ⟨hfam, c, hc, hlt⟩ := he.families hf
    refine ⟨hfam, ?_⟩
    by_cases hfh : f.1 = h
    · rw [hfh] at hc ⊢
      obtain rfl := Option.some.inj (hd.symm.trans hc)
      exact ⟨d', Table.get?_set_self _ _ _, by omega⟩
    · exact ⟨c, (Table.get?_set_ne _ hfh _).trans hc, hlt⟩
  · rintro p i σ (ho | ⟨g, c', fam, hg, hpath, hf, hσ⟩)
    · exact .inl ho
    · obtain ⟨c, hc, hcp⟩ := hback g c' hg
      exact .inr ⟨g, c, fam, hc, hcp.symm.trans hpath, hf, hσ⟩

/-- A new database, which may find the stores of its path again. -/
theorem newDatabase (he : Housed e) (hn : e.nextHandle ≤ h) (hn' : h < e'.nextHandle)
    (hd : e'.databases = e.databases.set h d) (hf : e'.families = e.families)
    (hs : ∀ p t i σ, e'.stores.get? p = some t → t.get? i = some σ →
      ∃ t', e.stores.get? p = some t' ∧ t'.get? i = some σ)
    (hr : e'.records = e.records) : Housed e' := by
  have hold : ∀ g c, e.databases.get? g = some c → g ≠ h := by
    intro g c hg
    exact Nat.ne_of_lt (Nat.lt_of_lt_of_le (he.databases hg) hn)
  refine he.of_owns ?_ ?_ ?_ hr
  · intro g c hg
    rw [hd] at hg
    rcases Table.of_get?_set hg with ⟨heq, -⟩ | ⟨-, hg⟩
    · rw [heq]
      exact hn'
    · exact Nat.lt_trans (Nat.lt_of_lt_of_le (he.databases hg) hn) hn'
  · intro f fam hfam
    rw [hf] at hfam
    obtain ⟨hdb, c, hc, hlt⟩ := he.families hfam
    exact ⟨hdb, c, by rw [hd, Table.get?_set_ne _ (hold _ _ hc)]; exact hc, hlt⟩
  · rintro p i σ (⟨t, ht, hi⟩ | ⟨g, c, fam, hg, hpath, hfam, hσ⟩)
    · exact .inl (hs p t i σ ht hi)
    · rw [hf] at hfam
      obtain ⟨-, c', hc', -⟩ := he.families hfam
      rw [hd, Table.get?_set_ne _ (hold _ _ hc')] at hg
      exact .inr ⟨g, c, fam, hg, hpath, hfam, hσ⟩

/-- A family at a place, with the store of the place. -/
theorem setFamily (he : Housed e) (hd : e.databases.get? f.1 = some d)
    (hi : f.2 < d.nextFamily) (hfam : fam.database = f.1)
    (ho : e.Owns d.path f.2 fam.store) :
    Housed { e with families := e.families.set f fam } := by
  refine he.of_owns (fun _ _ => he.databases) ?_ ?_ rfl
  · intro g other hg
    rcases Table.of_get?_set hg with ⟨heq, rfl⟩ | ⟨-, hg⟩
    · rw [heq]
      exact ⟨hfam, d, hd, hi⟩
    · exact he.families hg
  · rintro p i σ (hσ | ⟨g, c, other, hg, hpath, hother, hσ⟩)
    · exact .inl hσ
    · rcases Table.of_get?_set hother with ⟨heq, rfl⟩ | ⟨-, hother⟩
      · have hgf : g = f.1 := congrArg Prod.fst heq
        have hif : i = f.2 := congrArg Prod.snd heq
        rw [hgf] at hg
        obtain rfl := Option.some.inj (hd.symm.trans hg)
        rw [← hpath, hif, ← hσ]
        exact ho
      · exact .inr ⟨g, c, other, hg, hpath, hother, hσ⟩

/-- A new store, for a place that has none. -/
theorem newStore (he : Housed e) {path : String} {t : Table Nat StoreId}
    (ht : e.stores.get? path = some t) (index : Nat) :
    Housed { e with
      records := e.records.set e.records.size .empty
      stores := e.stores.set path (t.set index e.records.size) } := by
  have hback : ∀ p i σ, ({ e with
      records := e.records.set e.records.size .empty
      stores := e.stores.set path (t.set index e.records.size) } : Engine).Owns p i σ →
      e.Owns p i σ ∨ p = path ∧ i = index ∧ σ = e.records.size := by
    rintro p i σ (⟨t', ht', hi⟩ | ho)
    · rcases Table.of_get?_set ht' with ⟨heq, rfl⟩ | ⟨-, ht'⟩
      · rcases Table.of_get?_set hi with ⟨heqi, hσ⟩ | ⟨-, hi⟩
        · exact .inr ⟨heq, heqi, hσ.symm⟩
        · exact .inl (.inl ⟨t, by rw [heq]; exact ht, hi⟩)
      · exact .inl (.inl ⟨t', ht', hi⟩)
    · exact .inl (.inr ho)
  constructor
  case databases => exact he.databases
  case families => exact he.families
  case owned =>
    intro p i σ ho
    show σ < (e.records.set e.records.size .empty).size
    rw [he.numbered.size_set]
    rcases hback p i σ ho with ho | ⟨-, -, rfl⟩
    · exact Nat.lt_succ_of_lt (he.owned ho)
    · exact Nat.lt_succ_self _
  case apart =>
    intro p i p' i' σ ho ho'
    rcases hback p i σ ho with ho | ⟨hp, hi, hσ⟩
    · rcases hback p' i' σ ho' with ho' | ⟨-, -, hσ'⟩
      · exact he.apart ho ho'
      · exact absurd (he.owned ho) (hσ' ▸ Nat.lt_irrefl _)
    · rcases hback p' i' σ ho' with ho' | ⟨hp', hi', -⟩
      · exact absurd (he.owned ho') (hσ ▸ Nat.lt_irrefl _)
      · exact ⟨hp.trans hp'.symm, hi.trans hi'.symm⟩
  case numbered => exact he.numbered.set_size _
  case nodup =>
    intro σ R hR
    rcases Table.of_get?_set hR with ⟨-, rfl⟩ | ⟨-, hR⟩
    · exact List.nodup_nil
    · exact he.nodup hR

end Housed

end FamilyStore.Engine
