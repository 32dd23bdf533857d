import FamilyStore.Proofs.Engine.Housed

/-!
How databases and families come and go.

Making databases and families takes nothing away from those that are there. Closing a database and
deleting a family are about that one only. None of this touches a record.
-/

namespace FamilyStore.Engine

/-- What is there stays, and no record changes. -/
structure Grows (e e' : Engine) : Prop where
  nextHandle : e.nextHandle ≤ e'.nextHandle
  housed : Housed e → Housed e'
  isOpen : ∀ {h}, e.IsOpen h → e'.IsOpen h
  families : Housed e → ∀ {f fam}, e.families.get? f = some fam → e'.families.get? f = some fam
  records : Housed e → ∀ σ, e'.recordsOf σ = e.recordsOf σ

instance : Frame Grows where
  refl _ := ⟨Nat.le_refl _, id, id, fun _ _ _ h => h, fun _ _ => rfl⟩
  trans h h' :=
    { nextHandle := Nat.le_trans h.nextHandle h'.nextHandle
      housed := fun he => h'.housed (h.housed he)
      isOpen := fun ho => h'.isOpen (h.isOpen ho)
      families := fun he _ _ hf => h'.families (h.housed he) (h.families he hf)
      records := fun he σ => (h'.records (h.housed he) σ).trans (h.records he σ) }

theorem SameParts.grows {e e' : Engine} (h : SameParts [.settings] e e') : Grows e e' where
  nextHandle := h.nextHandle
  housed he := he.sameParts h
  isOpen ho := by
    unfold IsOpen
    rw [h.same .databases (by decide)]
    exact ho
  families _ _ _ hf := by
    rw [h.same .families (by decide)]
    exact hf
  records _ σ := by
    unfold recordsOf
    rw [h.same .records (by decide)]

theorem SameCursors.grows {e e' : Engine} (h : SameCursors [] e e') : Grows e e' :=
  (h.sameParts.mono (by simp)).grows

theorem isOpen_set {e : Engine} {h g : Handle} {d : Database} (ho : e.IsOpen g)
    (hd : g = h → d.isOpen = true) : ∃ c, (e.databases.set h d).get? g = some c ∧
      c.isOpen = true := by
  by_cases hg : g = h
  · exact ⟨d, by rw [hg]; exact Table.get?_set_self _ _ _, hd hg⟩
  · obtain ⟨c, hc, hopen⟩ := ho
    exact ⟨c, (Table.get?_set_ne _ hg _).trans hc, hopen⟩

namespace Run

/-! ## Databases -/

theorem run_newDatabase (path : String) (e : Engine) : (newDatabase path).run e =
    (.ok e.nextHandle, { e with
      nextHandle := e.nextHandle + handleStep
      databases := e.databases.set e.nextHandle ⟨path, true, 1⟩
      stores := if e.stores.contains path then e.stores else e.stores.set path .empty }) := rfl

theorem grows_newDatabase (path : String) : Within Grows (newDatabase path) := by
  intro e
  rw [run_newDatabase]
  have hnext : e.nextHandle < e.nextHandle + handleStep := Nat.lt_add_of_pos_right (by decide)
  refine ⟨Nat.le_of_lt hnext, fun he => ?_, fun ho => isOpen_set ho fun _ => rfl,
    fun _ _ _ hf => hf, fun _ _ => rfl⟩
  refine he.newDatabase (Nat.le_refl _) hnext rfl rfl (fun p t i σ ht hi => ?_) rfl
  dsimp only at ht
  by_cases hc : e.stores.contains path
  · rw [if_pos hc] at ht
    exact ⟨t, ht, hi⟩
  · rw [if_neg hc] at ht
    rcases Table.of_get?_set ht with ⟨-, rfl⟩ | ⟨-, ht⟩
    · exact absurd hi (by simp [Table.get?_empty])
    · exact ⟨t, ht, hi⟩

/-- The path gets new stores; families that are there hold on to the old ones. -/
theorem grows_emptyPath (e : Engine) (files : Files) (path : String) :
    Grows e { e with files := files, stores := e.stores.set path .empty } where
  nextHandle := Nat.le_refl _
  housed he := by
    refine he.of_owns (fun _ _ => he.databases) (fun _ _ => he.families) ?_ rfl
    rintro p i σ (⟨t, ht, hi⟩ | ho)
    · rcases Table.of_get?_set ht with ⟨-, rfl⟩ | ⟨-, ht⟩
      · exact absurd hi (by simp [Table.get?_empty])
      · exact .inl ⟨t, ht, hi⟩
    · exact .inr ho
  isOpen := id
  families _ _ _ hf := hf
  records _ _ := rfl

theorem grows_create (config : DatabaseRecord) : Within Grows (create config) := by
  have hcursors : ∀ {α : Type} {work : Engine.Run α}, Within (SameCursors []) work →
      Within Grows work := fun hw => hw.mono fun _ _ h => h.grows
  refine Within.bind (hcursors (sameCursors_note (by decide) _)) fun _ =>
    Within.bind (hcursors (sameCursors_takePending _)) fun status => ?_
  refine Within.ite (Within.pure _)
    (Within.bind (hcursors (sameCursors_checkConfigBlock _)) fun _ => ?_)
  refine Within.get_bind fun e => ?_
  cases hr : e.files.write config.path databaseMark with
  | error fault => exact Frame.refl e
  | ok files =>
    refine Frame.trans (grows_emptyPath e files config.path) ?_
    exact Within.bind (grows_newDatabase config.path) (fun h => Within.pure (Except.ok h)) _

theorem grows_openExisting (config : DatabaseRecord) : Within Grows (openExisting config) := by
  have hcursors : ∀ {α : Type} {work : Engine.Run α}, Within (SameCursors []) work →
      Within Grows work := fun hw => hw.mono fun _ _ h => h.grows
  refine Within.bind (hcursors (sameCursors_note (by decide) _)) fun _ =>
    Within.bind (hcursors (sameCursors_takePending _)) fun status => ?_
  refine Within.ite (Within.pure _)
    (Within.bind (hcursors (sameCursors_checkConfigBlock _)) fun _ => ?_)
  refine Within.bind Within.get fun e => Within.ite (Within.pure _) ?_
  refine Within.bind (hcursors (sameCursors_ofFiles _)) fun content => Within.ite (Within.pure _) ?_
  exact Within.bind (grows_newDatabase _) fun h => Within.pure _

/-- A database that is created is new, and open. -/
theorem create_isOpen {config : DatabaseRecord} {e e' : Engine} {h : Handle}
    (hrun : (create config).run e = (.ok (.ok h), e')) : e.nextHandle ≤ h ∧ e'.IsOpen h := by
  obtain ⟨_, e₁, hnote, hrun⟩ := exists_of_run_bind hrun
  obtain ⟨status, e₂, hpending, hrun⟩ := exists_of_run_bind hrun
  have h₁ : SameCursors [] e e₁ := (sameCursors_note (by decide) _).of_run hnote
  have h₂ : SameCursors [] e₁ e₂ := (sameCursors_takePending _).of_run hpending
  rw [run_ite] at hrun
  split at hrun
  · exact absurd (congrArg Prod.fst hrun) (by simp [run_pure])
  · obtain ⟨_, e₃, hcheck, hrun⟩ := exists_of_run_bind hrun
    have h₃ : SameCursors [] e₂ e₃ := (sameCursors_checkConfigBlock _).of_run hcheck
    rw [run_bind, run_get] at hrun
    dsimp only at hrun
    obtain ⟨files, e₄, -, hrun⟩ := exists_of_run_bind hrun
    rw [run_bind, run_set] at hrun
    dsimp only at hrun
    rw [run_bind, run_newDatabase] at hrun
    obtain ⟨hr, rfl⟩ := Prod.mk.inj hrun
    obtain rfl := Except.ok.inj (Except.ok.inj hr)
    exact ⟨(Frame.trans h₁ (Frame.trans h₂ h₃)).nextHandle,
      ⟨config.path, true, 1⟩, Table.get?_set_self _ _ _, rfl⟩

/-- A database that is opened is new to the callers, and open. -/
theorem openExisting_isOpen {config : DatabaseRecord} {e e' : Engine} {h : Handle}
    (hrun : (openExisting config).run e = (.ok (.ok h), e')) :
    e.nextHandle ≤ h ∧ e'.IsOpen h := by
  obtain ⟨_, e₁, hnote, hrun⟩ := exists_of_run_bind hrun
  obtain ⟨status, e₂, hpending, hrun⟩ := exists_of_run_bind hrun
  have h₁ : SameCursors [] e e₁ := (sameCursors_note (by decide) _).of_run hnote
  have h₂ : SameCursors [] e₁ e₂ := (sameCursors_takePending _).of_run hpending
  rw [run_ite] at hrun
  split at hrun
  · exact absurd (congrArg Prod.fst hrun) (by simp [run_pure])
  · obtain ⟨_, e₃, hcheck, hrun⟩ := exists_of_run_bind hrun
    have h₃ : SameCursors [] e₂ e₃ := (sameCursors_checkConfigBlock _).of_run hcheck
    rw [run_bind, run_get] at hrun
    dsimp only at hrun
    rw [run_ite] at hrun
    split at hrun
    · exact absurd (congrArg Prod.fst hrun) (by simp [run_pure])
    · obtain ⟨content, e₄, hfiles, hrun⟩ := exists_of_run_bind hrun
      have h₄ : SameCursors [] e₃ e₄ := (sameCursors_ofFiles _).of_run hfiles
      rw [run_ite] at hrun
      split at hrun
      · exact absurd (congrArg Prod.fst hrun) (by simp [run_pure])
      · rw [run_bind, run_newDatabase] at hrun
        obtain ⟨hr, rfl⟩ := Prod.mk.inj hrun
        obtain rfl := Except.ok.inj (Except.ok.inj hr)
        exact ⟨(Frame.trans h₁ (Frame.trans h₂ (Frame.trans h₃ h₄))).nextHandle,
          ⟨config.path, true, 1⟩, Table.get?_set_self _ _ _, rfl⟩

/-! ## Families -/

/-- A place has a store afterwards: the one that it had, or a new one without records. -/
theorem storeFor_cases (path : String) (index : Nat) (e : Engine) :
    (∃ failure, (storeFor path index).run e = (.error failure, e)) ∨
    ∃ σ e', (storeFor path index).run e = (.ok σ, e') ∧ Grows e e' ∧ e'.Owns path index σ ∧
      e'.databases = e.databases ∧ e'.families = e.families := by
  unfold storeFor
  rw [run_bind, run_get]
  dsimp only
  cases ht : e.stores.get? path with
  | none => exact .inl ⟨_, rfl⟩
  | some t =>
    rw [run_bind, run_require_some]
    dsimp only
    cases hσ : t.get? index with
    | some σ => exact .inr ⟨σ, e, rfl, Frame.refl e, .inl ⟨t, ht, hσ⟩, rfl, rfl⟩
    | none =>
      refine .inr ⟨_, _, rfl, ⟨Nat.le_refl _, fun he => he.newStore ht index, id,
        fun _ _ _ hf => hf, fun he σ => ?_⟩, .inl ⟨_, Table.get?_set_self _ _ _,
        Table.get?_set_self _ _ _⟩, rfl, rfl⟩
      unfold recordsOf
      dsimp only
      by_cases hnew : σ = e.records.size
      · rw [hnew, Table.get?_set_self, he.numbered.get?_size]
        rfl
      · rw [Table.get?_set_ne _ hnew]

/-- The number of the next family is used up, whatever comes of it. -/
theorem grows_setDatabase {e : Engine} {h : Handle} {d : Database}
    (hd : e.databases.get? h = some d) : Grows e { e with
      databases := e.databases.set h { d with nextFamily := d.nextFamily + 1 } } where
  nextHandle := Nat.le_refl _
  housed he := he.setDatabase hd rfl (Nat.le_succ _)
  isOpen {g} ho := by
    refine isOpen_set ho fun hg => ?_
    obtain ⟨c, hc, hopen⟩ := ho
    rw [hg] at hc
    rw [← Option.some.inj (hd.symm.trans hc)] at hopen
    exact hopen
  families _ _ _ hf := hf
  records _ _ := rfl

/-- A family that is made is a new one of its database. -/
theorem familyCreate_cases (h : Handle) (config : DataRecord) (e : Engine) :
    (∃ failure e', (familyCreate h config).run e = (.error failure, e') ∧ Grows e e') ∨
    ∃ f e' σ, (familyCreate h config).run e = (.ok f, e') ∧ Grows e e' ∧ f.1 = h ∧
      (Housed e → e.families.get? f = none) ∧
      e'.families.get? f = some ⟨h, config, σ, false⟩ := by
  have hnote : Grows e { e with calls := ⟨.familyCreate, .handle h⟩ :: e.calls } :=
    (SameCursors.of_calls [⟨.familyCreate, .handle h⟩] (by simp)).grows
  unfold familyCreate
  rw [run_bind, run_note]
  dsimp only
  rw [run_bind, run_get]
  dsimp only
  cases hd : e.databases.get? h with
  | none => exact .inl ⟨_, _, rfl, hnote⟩
  | some d =>
    rw [run_bind, run_require_some]
    dsimp only
    rw [run_bind, run_set]
    dsimp only
    have hset := Frame.trans hnote (grows_setDatabase (by exact hd))
    rw [run_bind]
    rcases storeFor_cases d.path d.nextFamily _ with ⟨failure, hrun⟩ |
        ⟨σ, e₃, hrun, hgrows, howns, hdb, hfam⟩
    · rw [hrun]
      exact .inl ⟨failure, _, rfl, hset⟩
    · rw [hrun]
      have hd₃ : e₃.databases.get? h = some { d with nextFamily := d.nextFamily + 1 } := by
        rw [hdb]
        exact Table.get?_set_self _ _ _
      have hfree : Housed e → e.families.get? (h, d.nextFamily) = none := fun he => he.next_free hd
      have hgrown := Frame.trans hset hgrows
      have hlast : Housed e → Housed { e₃ with
          families := e₃.families.set (h, d.nextFamily) ⟨h, config, σ, false⟩ } := fun he =>
        (hgrown.housed he).setFamily hd₃ (Nat.lt_succ_self _) rfl howns
      refine .inr ⟨(h, d.nextFamily), _, σ, rfl, ?_, rfl, hfree, Table.get?_set_self _ _ _⟩
      refine ⟨hgrown.nextHandle, hlast, fun ho => hgrown.isOpen ho, fun he f fam hf => ?_,
        fun he σ => hgrown.records he σ⟩
      have hne : f ≠ (h, d.nextFamily) := by
        rintro rfl
        rw [hfree he] at hf
        exact absurd hf (by simp)
      exact (Table.get?_set_ne _ hne _).trans (hgrown.families he hf)

end Run

/-! ## The end of databases and families -/

/-- No other database is closed, and nothing else happens. -/
structure Closes (h : Handle) (e e' : Engine) : Prop where
  nextHandle : e.nextHandle ≤ e'.nextHandle
  housed : Housed e → Housed e'
  isOpen : ∀ {g}, g ≠ h → e.IsOpen g → e'.IsOpen g
  families : e'.families = e.families
  records : e'.records = e.records

instance {h : Handle} : Frame (Closes h) where
  refl _ := ⟨Nat.le_refl _, id, fun _ ho => ho, rfl, rfl⟩
  trans c c' :=
    { nextHandle := Nat.le_trans c.nextHandle c'.nextHandle
      housed := fun he => c'.housed (c.housed he)
      isOpen := fun hg ho => c'.isOpen hg (c.isOpen hg ho)
      families := c'.families.trans c.families
      records := c'.records.trans c.records }

theorem SameParts.closes {e e' : Engine} (hr : SameParts [.settings] e e') (h : Handle) :
    Closes h e e' :=
  ⟨hr.nextHandle, fun he => he.sameParts hr, fun _ ho => hr.grows.isOpen ho,
    hr.same .families (by decide), hr.same .records (by decide)⟩

/-- No other family is deleted, and nothing else happens. -/
structure Deletes (f : FamilyHandle) (e e' : Engine) : Prop where
  nextHandle : e.nextHandle ≤ e'.nextHandle
  housed : Housed e → Housed e'
  isOpen : ∀ {h}, e.IsOpen h → e'.IsOpen h
  families : ∀ {g}, g ≠ f → e'.families.get? g = e.families.get? g
  records : e'.records = e.records

instance {f : FamilyHandle} : Frame (Deletes f) where
  refl _ := ⟨Nat.le_refl _, id, id, fun _ => rfl, rfl⟩
  trans d d' :=
    { nextHandle := Nat.le_trans d.nextHandle d'.nextHandle
      housed := fun he => d'.housed (d.housed he)
      isOpen := fun ho => d'.isOpen (d.isOpen ho)
      families := fun hg => (d'.families hg).trans (d.families hg)
      records := d'.records.trans d.records }

theorem SameParts.deletes {e e' : Engine} (hr : SameParts [.settings] e e') (f : FamilyHandle) :
    Deletes f e e' :=
  ⟨hr.nextHandle, fun he => he.sameParts hr, fun ho => hr.grows.isOpen ho,
    fun _ => by rw [hr.same .families (by decide)], hr.same .records (by decide)⟩

namespace Run

theorem closes_close (h : Handle) : Within (Closes h) (close h) := by
  have hnote : Within (SameCursors []) (note .close (.handle h)) := sameCursors_note (by decide) _
  refine Within.bind (hnote.mono fun _ _ hq => (hq.sameParts.mono (by simp)).closes h) fun _ =>
    Within.get_bind fun e => ?_
  cases hd : e.databases.get? h with
  | none => exact Frame.refl e
  | some d =>
    rw [run_bind, run_require_some]
    dsimp only
    rw [run_ite]
    split
    · exact Frame.refl e
    · refine ⟨Nat.le_refl _, fun he => he.setDatabase hd rfl (Nat.le_refl _), fun hg ho => ?_,
        rfl, rfl⟩
      exact isOpen_set ho fun hgh => absurd hgh hg

theorem deletes_familyDelete (f : FamilyHandle) : Within (Deletes f) (familyDelete f) := by
  have hnote : Within (SameCursors []) (note .familyDelete (.family f)) :=
    sameCursors_note (by decide) _
  refine Within.bind (hnote.mono fun _ _ hq => (hq.sameParts.mono (by simp)).deletes f) fun _ =>
    Within.get_bind fun e => ?_
  cases hf : e.families.get? f with
  | none => exact Frame.refl e
  | some fam =>
    rw [run_bind, run_require_some]
    dsimp only
    rw [run_ite]
    split
    · exact Frame.refl e
    · refine ⟨Nat.le_refl _, fun he => ?_, id, fun hg => Table.get?_set_ne _ hg _, rfl⟩
      obtain ⟨hdb, d, hd, hlt⟩ := he.families hf
      have howns := Housed.owns hd hf
      exact he.setFamily hd hlt hdb howns

end Run

end FamilyStore.Engine
