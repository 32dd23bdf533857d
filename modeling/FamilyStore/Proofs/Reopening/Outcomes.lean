import FamilyStore.Proofs.Asking
import FamilyStore.Proofs.Reopening.Shelves
import FamilyStore.Proofs.SameFiles

/-!
What requests for databases and for families come to, in full.

A request for a database that fails leaves files, databases, families and records. One that
succeeds opens its handle where it aimed at. A family is made at the next index of its database; it
is left without a handle if its key size cannot be written. Any other request for a family that
fails has done nothing at all.
-/

namespace FamilyStore.Store

/-- A handle is opened on a new database of the engine, where a request aimed at. -/
structure Opened (s : Store) (b : DatabaseId) (path : String) (existing : Bool) (t : Store) :
    Prop where
  fresh : ∀ d, s.databases.get? b = some d → d.phase = .fresh
  engine : ∃ files, s.engine.answer existing path = .ok (.ok files) ∧ t.engine =
    Engine.withDatabase (Engine.settled (s.petitioned existing) existing path files) path
  databases : ∃ d, t.databases = s.databases.set b d ∧
    d.phase = .opened (s.petitioned existing).nextHandle s.engine.nextHandle
  families : t.families = s.families

/-- What a request for a database comes to, for a handle that is free or fresh. -/
inductive Requested {α : Type} (s : Store) (b : DatabaseId) (path : Value) (settings : Settings)
    (existing : Bool) : Except Failure α × Store → Prop
  | failed {failure : Failure} {t : Store} (he : Engine.SameParts [.settings] s.engine t.engine)
      (hs : SameFiles s t) (hd : t.databases = s.databases) (hf : t.families = s.families) :
      Requested s b path settings existing (.error failure, t)
  | opened {a : α} {text : String} {sizes : Sizes} {t : Store}
      (ha : aim s.engine.files path settings existing = .ok (text, sizes))
      (h : Opened s b (Files.upToZero text) existing t) :
      Requested s b path settings existing (.ok a, t)

section

variable {s : Store} {b : DatabaseId} {path : Value} {settings : Settings} {existing : Bool}

theorem sameParts_petitioned (s : Store) (existing : Bool) :
    Engine.SameParts [.settings] s.engine (s.petitioned existing) := by
  refine ⟨Nat.le_add_right _ _, fun part hp => ?_⟩
  cases part with
  | settings => exact absurd List.mem_cons_self hp
  | databases | families | stores | records => rfl

theorem sameParts_withoutBlock (e : Engine) (block : Engine.Handle) :
    Engine.SameParts [.settings] e (e.withoutBlock block) := by
  refine ⟨Nat.le_refl _, fun part hp => ?_⟩
  cases part with
  | settings => exact absurd List.mem_cons_self hp
  | databases | families | stores | records => rfl

theorem start_requested (b : DatabaseId) (path : Value) (settings : Settings) (existing : Bool)
    (s : Store) :
    Requested s b path settings existing ((Run.start b path settings existing).run s) := by
  cases hd : s.databases.get? b with
  | none =>
    unfold Run.start
    rw [run_bind, Run.run_database_none hd]
    exact .failed (Frame.refl _) rfl rfl rfl
  | some d =>
    by_cases hp : d.phase = .fresh
    · rw [Run.run_start hd hp]
      cases ha : aim s.engine.files path settings existing with
      | error failure => exact .failed (Frame.refl _) rfl rfl rfl
      | ok target =>
        dsimp only
        rw [Run.run_ask]
        cases hv : s.engine.answer existing (Files.upToZero target.1) with
        | error failure => exact .failed (sameParts_petitioned s existing) rfl rfl rfl
        | ok result =>
          cases result with
          | error status =>
            exact .failed (Frame.trans (sameParts_petitioned s existing)
              (sameParts_withoutBlock _ _)) rfl rfl rfl
          | ok files =>
            refine .opened ha ⟨fun c hc => ?_, ⟨files, hv, rfl⟩, ⟨_, rfl, rfl⟩, rfl⟩
            rw [← Option.some.inj (hd.symm.trans hc)]
            exact hp
    · unfold Run.start
      rw [run_bind, Run.run_database hd]
      dsimp only
      rw [run_ite, if_pos hp]
      exact .failed (Frame.refl _) rfl rfl rfl

/-- A new handle gets the next number. -/
theorem connect_requested (hn : s.databases.get? s.databases.size = none) (path : Value)
    (settings : Settings) (existing : Bool) :
    Requested s s.databases.size path settings existing
      ((Run.connect path settings existing).run s) ∧
    ∀ a t, (Run.connect path settings existing).run s = (.ok a, t) → a = s.databases.size := by
  have h := start_requested s.databases.size path settings existing s.withFresh
  rw [Run.connect_eq]
  generalize (Run.start s.databases.size path settings existing).run s.withFresh = answer at h ⊢
  cases h with
  | @failed failure t he hs hd hf =>
    refine ⟨.failed he hs ?_ hf, fun a t h => absurd (congrArg Prod.fst h) (by simp)⟩
    dsimp only
    rw [hd]
    exact Table.erase_set_of_none hn _
  | opened ha h =>
    obtain ⟨d, hd, hp⟩ := h.databases
    refine ⟨.opened ha ⟨fun c hc => ?_, h.engine, ⟨d, ?_, hp⟩, h.families⟩, fun a t h => ?_⟩
    · rw [hn] at hc
      exact absurd hc (by simp)
    · rw [hd]
      exact Table.set_set _ _ _ _
    · exact (Except.ok.inj (congrArg Prod.fst h)).symm

end

/-! ## Families -/

/-- What a request for a family comes to. -/
inductive Furnished (s : Store) (b : DatabaseId) : Except Failure FamilyId × Store → Prop
  | refused (failure : Failure) : Furnished s b (.error failure, s)
  | made {d : Database} {h k : Engine.Handle} {c : Engine.Database} {config : DataConfig}
      {σ : Engine.StoreId} {e : Engine} {log : List Event} (hd : s.databases.get? b = some d)
      (hp : d.phase = .opened h k) (hc : s.engine.databases.get? h = some c)
      (he : Engine.Shelves h c config.record σ s.engine e) :
      Furnished s b (.ok s.families.size, { s with
        engine := e
        families := s.families.set s.families.size ⟨b, config, some (h, c.nextFamily), [], 0⟩
        log := log })

theorem createFamily_furnished {s : Store} (hf : Founded s) (hst : s.engine.Stocked)
    (b : DatabaseId) (funcs : FuncsArgument) (maxKeySize : Value) :
    Furnished s b ((Run.createFamily b funcs maxKeySize).run s) := by
  unfold Run.createFamily
  rcases Run.openDatabase_cases s b with ⟨failure, hrun⟩ | ⟨d, h, k, sizes, hd, hp, hrun⟩
  · rw [run_bind, hrun]
    exact .refused failure
  · rw [run_bind, hrun]
    dsimp only
    rw [run_bind, Run.run_ofExcept]
    cases funcs.resolve with
    | error failure => exact .refused failure
    | ok fs =>
      dsimp only
      rw [run_bind, Run.run_ofExcept]
      split
      · rename_i config t heq
        obtain ⟨-, rfl⟩ := Prod.mk.inj heq
        obtain ⟨c, hc, -⟩ := hf.opened hd hp
        obtain ⟨σ, e, hcall, hshelves⟩ :=
          Engine.Run.run_familyCreate hf.housed hst hc config.record
        rw [run_bind, Run.run_engine, hcall]
        exact .made hd hp hc hshelves
      · rename_i failure t heq
        obtain ⟨-, rfl⟩ := Prod.mk.inj heq
        exact .refused failure

end FamilyStore.Store
