import FamilyStore.DataFuncs.Builtin
import FamilyStore.Proofs.Founded
import FamilyStore.Proofs.Points.Calls

/-!
Families are independent finite maps.

Point calls on open families that lie at different places come to what the same calls come to on one
finite map for each family. The step lemma says so for one call, and that the call leaves the
families as independent as they were; runs follow by induction.
-/

namespace FamilyStore.Store

/-- The map of a family. -/
def content (s : Store) (id : FamilyId) : Content := Engine.contentOf (s.stored id)

/-- The place of a family: the path of its database, as the engine reads it, and the index there. -/
def place? (s : Store) (id : FamilyId) : Option (String × Nat) :=
  ((s.families.get? id).bind Family.handle).bind fun fh =>
    (s.engine.databases.get? fh.1).map fun d => (d.path, fh.2)

/-- Open families at different places, with limits that the engine's 64 bits hold. -/
structure Independent (s : Store) (ids : Set FamilyId) : Prop where
  isOpen : ∀ id ∈ ids, s.isOpenFamily id = true
  limit : ∀ id ∈ ids, ∀ config, s.config? id = some config → config.maxKeySize < 2 ^ 64
  apart : ∀ id ∈ ids, ∀ id' ∈ ids, s.place? id = s.place? id' → id = id'

/-- The store after point calls on some families. -/
def afterPoints (s : Store) (calls : List (FamilyId × PointCall)) : Store :=
  s.after (calls.map fun c => .point c.1 c.2)

theorem SameHandles.config?_eq {parts : List Engine.Part} {s t : Store}
    (h : SameHandles parts s t) : t.config? = s.config? := by
  funext id
  unfold config?
  rw [h.families]

/-- Point calls leave the configurations of families alone. -/
theorem config?_afterPoints (s : Store) (calls : List (FamilyId × PointCall)) :
    (s.afterPoints calls).config? = s.config? := by
  induction calls generalizing s with
  | nil => rfl
  | cons c calls ih =>
    have hhandles : SameHandles [.records] s (s.perform (.point c.1 c.2)).2 :=
      Run.sameHandles_point (by simp) c.1 c.2 s
    exact (ih _).trans hhandles.config?_eq

/-- An open family handle is ready, and its place owns the records that the handle stands for. -/
theorem Founded.ready {s : Store} (hf : Founded s) (hu : Engine.Undisturbed s.engine)
    {id : FamilyId} {f : Family} {fh : Engine.FamilyHandle} (h : Serves s id f fh)
    (hlimit : f.config.maxKeySize < 2 ^ 64) :
    ∃ fam place, Ready s id f fh fam ∧ s.engineFamily? id = some fam ∧
      s.place? id = some place ∧ s.engine.Owns place.1 place.2 fam.store := by
  obtain ⟨fam, hfam, hconfig, hengine⟩ := hf.exists_inUse h
  obtain ⟨hin, hdel, d, hd, ho⟩ := hfam
  have hd' : s.engine.databases.get? fh.1 = some d := by
    rw [← (hf.housed.families hin).1]
    exact hd
  refine ⟨fam, (d.path, fh.2), ⟨h, ⟨hin, hdel, d, hd, ho⟩, hconfig, hlimit, hu⟩, hengine, ?_,
    Engine.Housed.owns hd' hin⟩
  unfold place?
  rw [h.1, Option.bind_some, h.2.1, Option.bind_some, hd']
  rfl

/-! ## One call -/

/-- What point calls rely on: no failure is set up, and the families are independent. -/
structure Orderly (s : Store) (ids : Set FamilyId) : Prop where
  founded : Founded s
  undisturbed : Engine.Undisturbed s.engine
  independent : Independent s ids

namespace Orderly

variable {s : Store} {ids : Set FamilyId}

/-- Families at different places have different records. -/
theorem exists_ready (h : Orderly s ids) {id : FamilyId} (hid : id ∈ ids) :
    ∃ f fh fam, Ready s id f fh fam ∧ s.engineFamily? id = some fam ∧
      ∀ j ∈ ids, j ≠ id → ∃ fam', s.engineFamily? j = some fam' ∧ fam'.store ≠ fam.store := by
  have hready : ∀ j ∈ ids, ∃ f fh fam place, Ready s j f fh fam ∧ s.engineFamily? j = some fam ∧
      s.place? j = some place ∧ s.engine.Owns place.1 place.2 fam.store := by
    intro j hj
    obtain ⟨f, fh, hserves⟩ := exists_serves (h.independent.isOpen j hj)
    have hlimit : f.config.maxKeySize < 2 ^ 64 :=
      h.independent.limit j hj _ (config?_of_get? hserves.1)
    obtain ⟨fam, place, hready⟩ := h.founded.ready h.undisturbed hserves hlimit
    exact ⟨f, fh, fam, place, hready⟩
  obtain ⟨f, fh, fam, place, hr, hfam, hplace, howns⟩ := hready id hid
  refine ⟨f, fh, fam, hr, hfam, fun j hj hne => ?_⟩
  obtain ⟨f', fh', fam', place', -, hfam', hplace', howns'⟩ := hready j hj
  refine ⟨fam', hfam', fun heq => hne ?_⟩
  rw [heq] at howns'
  refine h.independent.apart j hj id hid ?_
  rw [hplace', hplace, Prod.ext_iff.2 (h.founded.housed.apart howns' howns)]

variable {id : FamilyId} {call : PointCall}

/-- Families stay as independent as they were while nothing but records changes. -/
theorem of_sameHandles (h : Orderly s ids) {t : Store} (hfounded : Founded t)
    (hhandles : SameHandles [.records] s t) :
    Orderly t ids ∧ t.config? = s.config? ∧ t.engineFamily? = s.engineFamily? := by
  have hdatabases : t.engine.databases = s.engine.databases :=
    hhandles.engine.same .databases (by decide)
  have hfamilies : t.engine.families = s.engine.families :=
    hhandles.engine.same .families (by decide)
  have hconfig : t.config? = s.config? := hhandles.config?_eq
  refine ⟨⟨hfounded, h.undisturbed.sameCursors (by decide) hhandles.engine, ?_, ?_, ?_⟩,
    hconfig, ?_⟩
  · unfold isOpenFamily
    rw [hhandles.families, hhandles.databases]
    exact h.independent.isOpen
  · rw [hconfig]
    exact h.independent.limit
  · unfold place?
    rw [hhandles.families, hdatabases]
    exact h.independent.apart
  · funext j
    unfold engineFamily?
    rw [hhandles.families, hfamilies]

/-- A point call leaves families as independent as they were. -/
theorem perform (h : Orderly s ids) (id : FamilyId) (call : PointCall) :
    Orderly (s.perform (.point id call)).2 ids ∧
      (s.perform (.point id call)).2.config? = s.config? ∧
      (s.perform (.point id call)).2.engineFamily? = s.engineFamily? :=
  h.of_sameHandles (perform_keeps h.founded (.point id call)).founded
    (Run.sameHandles_point (by simp) id call s)

/-- One call does to the maps of the families what it does to one map for each family. -/
theorem point_refines (h : Orderly s ids) (hid : id ∈ ids) (call : PointCall) :
    (∀ j ∈ ids, (s.perform (.point id call)).2.content j =
      onMaps s.config? s.content (id, call) j) ∧
    ∃ config, s.config? id = some config ∧ (call.fits config.maxKeySize = true →
      (s.perform (.point id call)).1 = (call.onMap config.funcs (s.content id)).1) := by
  obtain ⟨f, fh, fam, hr, hfam, hothers⟩ := h.exists_ready hid
  obtain ⟨-, -, hfamilies⟩ := h.perform id call
  have hconfig : s.config? id = some f.config := config?_of_get? hr.serves.1
  have hcontent : s.content id = Engine.contentOf (s.engine.recordsOf fam.store) := by
    unfold content
    rw [stored_eq hfam]
  have hmaps : ∀ R, Engine.Replaces fam.store R s.engine (s.perform (.point id call)).2.engine →
      ∀ j ∈ ids, (s.perform (.point id call)).2.content j =
        Function.update s.content id (Engine.contentOf R) j := by
    intro R hR j hj
    by_cases hne : j = id
    · have hfam' : (s.perform (.point id call)).2.engineFamily? j = some fam := by
        rw [hfamilies, hne, hfam]
      unfold content
      rw [stored_eq hfam', hR fam.store, if_pos rfl, hne, Function.update_self]
    · obtain ⟨fam', hold, hstore⟩ := hothers j hj hne
      have hfam' : (s.perform (.point id call)).2.engineFamily? j = some fam' := by
        rw [hfamilies, hold]
      rw [Function.update_of_ne hne]
      unfold content
      rw [stored_eq hfam', hR fam'.store, if_neg hstore, stored_eq hold]
  refine ⟨fun j hj => ?_, f.config, hconfig, fun hfits => ?_⟩
  · cases hfits : call.fits f.config.maxKeySize with
    | true =>
      obtain ⟨-, R, hR, hmap⟩ := point_of_fits hr call hfits
      rw [hmaps R hR j hj, onMaps_of_fits hconfig hfits, hcontent, hmap]
    | false =>
      have hR := point_of_not hr call hfits
      rw [hmaps _ hR j hj, onMaps_of_not hconfig hfits, ← hcontent, Function.update_eq_self]
  · rw [hcontent]
    exact (point_of_fits hr call hfits).1

/-! ## Runs -/

/-- Calls keep maps that agree with the families in agreement with them. -/
theorem afterPoints (h : Orderly s ids) {calls : List (FamilyId × PointCall)}
    (hcalls : ∀ c ∈ calls, c.1 ∈ ids) {maps : FamilyId → Content}
    (hmaps : ∀ id ∈ ids, s.content id = maps id) :
    Orderly (s.afterPoints calls) ids ∧ (s.afterPoints calls).config? = s.config? ∧
      ∀ id ∈ ids, (s.afterPoints calls).content id = calls.foldl (onMaps s.config?) maps id := by
  induction calls generalizing s maps with
  | nil => exact ⟨h, rfl, hmaps⟩
  | cons c calls ih =>
    obtain ⟨id, call⟩ := c
    have hid : id ∈ ids := hcalls (id, call) List.mem_cons_self
    obtain ⟨hnext, hconfig, -⟩ := h.perform id call
    obtain ⟨hstep, -⟩ := h.point_refines hid call
    have hagree : ∀ j ∈ ids, (s.perform (.point id call)).2.content j =
        onMaps s.config? maps (id, call) j := fun j hj =>
      (hstep j hj).trans (onMaps_congr hmaps hid j hj)
    have hrest := ih hnext (fun c hc => hcalls c (List.mem_cons_of_mem _ hc)) hagree
    rw [hconfig] at hrest
    exact hrest

end Orderly

theorem funcs_of_make {funcs : DataFuncs} {size limit : Value} {config : DataConfig}
    (h : DataConfig.make funcs size limit = .ok config) : config.funcs = funcs := by
  unfold DataConfig.make at h
  split at h
  · obtain ⟨above, -, h⟩ := exists_of_bind_ok h
    split at h
    · exact nomatch h
    · obtain rfl := Except.ok.inj h
      rfl
  · exact nomatch h

/-- A family has the data functions that it is made with. -/
theorem Run.config?_of_createFamily {s t : Store} {b : DatabaseId} {funcs : FuncsArgument}
    {maxKeySize : Value} {id : FamilyId}
    (h : (createFamily b funcs maxKeySize).run s = (.ok id, t)) :
    ∃ config, t.config? id = some config ∧ funcs.resolve = .ok config.funcs := by
  unfold createFamily at h
  obtain ⟨⟨handle, sizes⟩, s₁, -, h⟩ := exists_of_run_bind h
  obtain ⟨fs, s₂, hfs, h⟩ := exists_of_run_bind h
  obtain ⟨config, s₃, hmake, h⟩ := exists_of_run_bind h
  obtain ⟨fh, s₄, -, h⟩ := exists_of_run_bind h
  rw [run_ofExcept] at hfs hmake
  obtain ⟨-, s₅, -, h⟩ := exists_of_run_bind h
  obtain ⟨hid, rfl⟩ := Prod.mk.inj h
  obtain rfl := Except.ok.inj hid
  refine ⟨config, ?_, ?_⟩
  · exact congrArg (Option.map Family.config) (Table.get?_set_self _ _ _)
  · rw [funcs_of_make (Prod.mk.inj hmake).1]
    exact (Prod.mk.inj hfs).1

/-- A store with a database. -/
def single : Store := (Store.initial (.empty "/")).after [.connect (.str "db") .defaults false]

/-- A store with a family. -/
def withFamily (funcs : DataFuncs) : Store :=
  (single.perform (.createFamily 0 (.ofClass funcs) .null)).2

theorem reachable_withFamily (funcs : DataFuncs) (calls : List (FamilyId × PointCall)) :
    Reachable ((withFamily funcs).afterPoints calls) :=
  (((Reachable.initial _).after _).step _).after _

/-- Writing to a family leaves it the data functions that it was made with. -/
theorem exists_config_withFamily {funcs : DataFuncs}
    (hid : ((Run.createFamily 0 (.ofClass funcs) .null).run single).1.toOption = some 0)
    (calls : List (FamilyId × PointCall)) :
    ∃ config, ((withFamily funcs).afterPoints calls).config? 0 = some config ∧
      config.funcs = funcs := by
  obtain ⟨config, hconfig, hfuncs⟩ := Run.config?_of_createFamily (run_eq_of_toOption hid)
  refine ⟨config, ?_, (Except.ok.inj hfuncs).symm⟩
  rw [config?_afterPoints, withFamily, perform, Operation.run, run_map]
  exact hconfig

/-! ## Two databases -/

/-- The beginning of a run: two databases with a family each. -/
def openTwo : List Operation :=
  [.connect (.str "a") .defaults false, .connect (.str "b") .defaults false,
    .createFamily 0 (.ofInstance (DataFuncs.Builtin.funcs .default)) (.int 8),
    .createFamily 1 (.ofInstance (DataFuncs.Builtin.funcs .reverse)) (.int 8)]

/-- A store with two databases that have a family each. -/
def twoFamilies : Store := (Store.initial (.empty "/")).after openTwo

theorem reachable_twoFamilies : Reachable twoFamilies := (Reachable.initial _).after openTwo

theorem undisturbed_twoFamilies : Engine.Undisturbed twoFamilies.engine := by
  have hpending : twoFamilies.engine.pending.entries = [] := by decide +kernel
  have hresize : twoFamilies.engine.refuseResize = false := by decide +kernel
  refine ⟨fun entry => ?_, hresize⟩
  unfold Table.get?
  rw [hpending]
  rfl

theorem independent_twoFamilies : Independent twoFamilies {0, 1} where
  isOpen := by
    have h₀ : twoFamilies.isOpenFamily 0 = true := by decide +kernel
    have h₁ : twoFamilies.isOpenFamily 1 = true := by decide +kernel
    rintro id (rfl | rfl)
    · exact h₀
    · exact h₁
  limit := by
    have h₀ : (twoFamilies.config? 0).all (fun c => c.maxKeySize < 2 ^ 64) = true := by
      decide +kernel
    have h₁ : (twoFamilies.config? 1).all (fun c => c.maxKeySize < 2 ^ 64) = true := by
      decide +kernel
    rintro id (rfl | rfl) config hc
    · rw [hc] at h₀
      exact of_decide_eq_true h₀
    · rw [hc] at h₁
      exact of_decide_eq_true h₁
  apart := by
    have hne : twoFamilies.place? 0 ≠ twoFamilies.place? 1 := by decide +kernel
    rintro id (rfl | rfl) id' (rfl | rfl) h
    · rfl
    · exact absurd h hne
    · exact absurd h.symm hne
    · rfl

end FamilyStore.Store
