import FamilyStore.Proofs.Iteration.Course
import FamilyStore.Proofs.Reopening.Ledger
import FamilyStore.Proofs.Reopening.Paths

/-!
The ledger stays right.

Each operation does to shelves, databases and families what its reply means for the ledger. A
request that fails means nothing, unless a family is left without a handle. By induction the ledger
of a run tells which records the engine has for each path and index when the run is over.
-/

namespace FamilyStore.Store

/-! ## What operations mean -/

theorem Ledger.step_sameFamilies (L : Ledger) {t : Transition}
    (h : t.operation.keepsFamilies = true) : L.step t = L := by
  obtain ⟨s, op, reply, s'⟩ := t
  cases op with
  | newDatabase | start | connect | createFamily | closeDatabase | point | closeFamily =>
    exact absurd h Bool.false_ne_true
  | _ => rfl

theorem Ledger.step_point (L : Ledger) (s t : Store) (f : FamilyId) (call : PointCall)
    (reply : Reply) : L.step ⟨s, .point f call, .ok reply, t⟩ =
      match s.config? f with
      | none => L
      | some config => L.write f fun R => call.onRecords config.funcs R := rfl

/-- A failure means nothing, if no family was asked for. -/
theorem Ledger.step_failed (L : Ledger) {s t : Store} {op : Operation} (failure : Failure)
    (h : ∀ b funcs size, op ≠ .createFamily b funcs size) :
    L.step ⟨s, op, .error failure, t⟩ = L := by
  cases op with
  | createFamily b funcs size => exact absurd rfl (h b funcs size)
  | start b path => cases path <;> rfl
  | connect path => cases path <;> rfl
  | _ => rfl

/-- Whether a database is asked for at a path. -/
def Operation.asksAt (p : String) : Operation → Bool
  | .connect (.str q) _ _ | .start _ (.str q) _ _ => q == p
  | _ => false

/-- What an operation that asks for a database comes to, and what it means. -/
inductive Answered (s : Store) (op : Operation) : Prop
  | failed {failure : Failure} (hr : (s.perform op).1 = .error failure)
      (hc : SameFamilies s (s.perform op).2) (hs : SameFiles s (s.perform op).2)
      (hL : ∀ L : Ledger, L.step (s.transition op) = L)
  | opened {b : DatabaseId} {p : String} {existing : Bool} (hp : op.asksAt p = true)
      (h : Opened s b (Files.upToZero (Files.absolutePath s.engine.files.home p)) existing
        (s.perform op).2)
      (hL : ∀ L : Ledger, L.step (s.transition op) =
        L.connect b (Files.upToZero (Files.absolutePath s.engine.files.home p)) existing)

theorem answered_of_requested {s : Store} {α : Type} {work : Run α} {f : α → Reply} {op : Operation}
    {b : DatabaseId} {path : Value} {settings : Settings} {existing : Bool}
    (hop : op.run = f <$> work) (hne : ∀ c funcs size, op ≠ .createFamily c funcs size)
    (h : Requested s b path settings existing (work.run s))
    (hok : ∀ a t p, work.run s = (.ok a, t) → path = .str p → op.asksAt p = true ∧
      ∀ L : Ledger, L.step ⟨s, op, .ok (f a), t⟩ =
        L.connect b (Files.upToZero (Files.absolutePath s.engine.files.home p)) existing) :
    Answered s op := by
  have hrun : s.perform op = ((work.run s).1.map f, (work.run s).2) := by
    unfold perform
    rw [hop, run_map]
  generalize work.run s = answer at h hok hrun
  cases h with
  | failed he hs hd hfam =>
    refine .failed (by rw [hrun]; rfl) (by rw [hrun]; exact ⟨he, hd, fun f => by rw [hfam]⟩)
      (by rw [hrun]; exact hs) fun L => ?_
    unfold transition
    rw [hrun]
    exact L.step_failed _ hne
  | opened ha ho =>
    obtain ⟨p, rfl, rfl, -⟩ := aim_eq_ok ha
    obtain ⟨hp, hL⟩ := hok _ _ p rfl rfl
    refine .opened hp (by rw [hrun]; exact ho) fun L => ?_
    unfold transition
    rw [hrun]
    exact hL L

theorem answered_of_asksDatabase {s : Store} (hf : Founded s) {op : Operation}
    (h : op.asksDatabase = true) : Answered s op := by
  cases op with
  | start b path settings existing =>
    refine answered_of_requested rfl (by simp) (start_requested b path settings existing s) ?_
    rintro _ t p - rfl
    exact ⟨beq_self_eq_true p, fun L => rfl⟩
  | connect path settings existing =>
    obtain ⟨hrequest, hid⟩ := connect_requested hf.databases.get?_size path settings existing
    refine answered_of_requested rfl (by simp) hrequest ?_
    rintro b t p hrun rfl
    obtain rfl := hid b t hrun
    exact ⟨beq_self_eq_true p, fun L => rfl⟩
  | _ => exact absurd h Bool.false_ne_true

/-- Changing no records means nothing. -/
theorem Ledger.write_self (L : Ledger) (f : FamilyId) {change : Engine.Records → Engine.Records}
    (h : ∀ R, change R = R) : L.write f change = L := by
  unfold Ledger.write
  simp only [h, ite_self]

/-- The family behind a handle depends on what the handle stands for. -/
theorem engineFamily?_congr {s t : Store} (he : t.engine.families = s.engine.families)
    {f : FamilyId}
    (hf : (t.families.get? f).map Family.front = (s.families.get? f).map Family.front) :
    t.engineFamily? f = s.engineFamily? f := by
  have hhandle : ∀ x : Option Family, x.bind Family.handle = (x.map Family.front).bind (·.2.2) := by
    intro x
    cases x with
    | none => rfl
    | some f => rfl
  unfold engineFamily?
  rw [hhandle, hhandle, hf, he]

theorem exists_of_engineFamily? {s : Store} {f : FamilyId} {fam : Engine.Family}
    (h : s.engineFamily? f = some fam) : ∃ fm fh, s.families.get? f = some fm ∧
      fm.handle = some fh ∧ s.engine.families.get? fh = some fam := by
  obtain ⟨fh, hfh, hfam⟩ := Option.bind_eq_some_iff.1 h
  obtain ⟨fm, hfm, hh⟩ := Option.bind_eq_some_iff.1 hfh
  exact ⟨fm, fh, hfm, hh, hfam⟩

namespace Kept

variable {s t : Store} {L : Ledger}

/-! ## Operations that mean nothing -/

theorem sameFamilies (hk : Kept s L) (h : SameFamilies s t) : Kept t L := by
  have hdb : t.engine.databases = s.engine.databases := h.engine.same .databases (by decide)
  have hrecords : t.engine.records = s.engine.records := h.engine.same .records (by decide)
  refine hk.rest (h.engine.same .stores (by decide)) (fun σ => ?_) (fun g c hc => ?_)
    (fun b d g k hd _ => ?_) (fun f fam hfam => ?_) fun f hn => ?_
  · unfold Engine.recordsOf
    rw [hrecords]
  · rw [hdb] at hc
    exact ⟨c, hc, rfl⟩
  · rw [h.databases] at hd
    exact ⟨hd, by rw [hdb]⟩
  · rw [engineFamily?_congr (h.engine.same .families (by decide)) (h.families f)] at hfam
    exact ⟨fam, hfam, rfl⟩
  · have hfront := h.families f
    rw [hn, Option.map_none] at hfront
    exact Option.map_eq_none_iff.1 hfront.symm

/-- A handle that is not open is put in the place of another one that is not open. -/
theorem idle (hk : Kept s L) {b : DatabaseId} {d : Database}
    (hd : ∀ h k, d.phase ≠ .opened h k) :
    Kept { s with databases := s.databases.set b d } L := by
  refine hk.rest rfl (fun _ => rfl) (fun g c hc => ⟨c, hc, rfl⟩) (fun c e h k he hp => ?_)
    (fun f fam hfam => ⟨fam, hfam, rfl⟩) fun f hn => hn
  rcases Table.of_get?_set he with ⟨-, rfl⟩ | ⟨-, he⟩
  · exact absurd hp (hd h k)
  · exact ⟨he, rfl⟩

/-- The end of a database takes no records away, and leaves the other handles. -/
theorem closeDatabase (hk : Kept s L) (hs : Reachable s) (b : DatabaseId) :
    Kept ((Run.closeDatabase b).run s).2 L := by
  cases hd : s.databases.get? b with
  | none =>
    unfold Run.closeDatabase
    rw [run_bind, Run.run_database_none hd]
    exact hk
  | some d =>
    by_cases hp : ∃ h k, d.phase = .opened h k
    · obtain ⟨h, k, hp⟩ := hp
      obtain ⟨c, hc, ho⟩ := hs.founded.opened hd hp
      obtain ⟨lost, -, hblocks⟩ := hs.exists_balanced
      obtain ⟨log, hrun⟩ := Run.run_closeDatabase hd hp hc ho (hblocks.holds hd hp)
      rw [hrun]
      refine hk.rest rfl (fun _ => rfl) (fun g c' hc' => ?_) (fun b' d' h' k' hd' hp' => ?_)
        (fun f fam hfam => ⟨fam, hfam, rfl⟩) fun f hn => hn
      · rcases Table.of_get?_set hc' with ⟨rfl, rfl⟩ | ⟨-, hc'⟩
        · exact ⟨c, hc, rfl⟩
        · exact ⟨c', hc', rfl⟩
      · rcases Table.of_get?_set hd' with ⟨-, rfl⟩ | ⟨hne, hold⟩
        · exact absurd hp' (by simp)
        · have hother : h' ≠ h := by
            rintro rfl
            exact hne (hs.founded.apart hold hd hp' hp)
          exact ⟨hold, Table.get?_set_ne _ hother _⟩
    · rw [Run.run_closeDatabase_of_ne hd fun h k heq => hp ⟨h, k, heq⟩]
      exact hk.idle fun _ _ => by simp

/-- The end of a family takes no records away, and leaves the other families. -/
theorem closeFamily (hk : Kept s L) (hf : Founded s) (f : FamilyId) :
    Kept ((Run.closeFamily f).run s).2 L := by
  have hend := Run.closeFamily_end s f
  generalize (Run.closeFamily f).run s = answer at hend ⊢
  cases hend with
  | unknown | already => exact hk
  | heldUp _ _ hrun => exact hk.sameFamilies ((Run.sameFamilies_closeIterators _).of_run hrun)
  | @reached fm g fh t r e log _ _ hrun hg hgh hdelete =>
    have hfronts : SameFamilies s t := (Run.sameFamilies_closeIterators fm.iterators).of_run hrun
    have hft : Founded t := (hf.sameFamilies hfronts).founded
    obtain ⟨⟨fam, hfam, hdel, -⟩, -⟩ := hft.stands hg hgh
    rw [Engine.Run.run_familyDelete hfam hdel] at hdelete
    obtain ⟨-, rfl⟩ := Prod.mk.inj hdelete
    refine (hk.sameFamilies hfronts).rest rfl (fun _ => rfl) (fun g c hc => ⟨c, hc, rfl⟩)
      (fun b d h k hd _ => ⟨hd, rfl⟩) (fun f' fam' hfam' => ?_) fun f' hn => ?_
    · obtain ⟨fm', fh', hfm', hh', hfam'⟩ := exists_of_engineFamily? hfam'
      rcases Table.of_get?_set hfm' with ⟨-, rfl⟩ | ⟨hne, hold⟩
      · exact absurd hh' (by simp)
      · have hother : fh' ≠ fh := by
          rintro rfl
          exact hne (hft.single hold hg hh' hgh)
        refine ⟨fam', ?_, rfl⟩
        unfold engineFamily?
        rw [hold, Option.bind_some, hh', Option.bind_some]
        exact (Table.get?_set_ne _ hother _).symm.trans hfam'
    · dsimp only at hn
      rw [Table.get?_set] at hn
      split at hn
      · exact absurd hn (by simp)
      · exact hn

/-! ## Databases -/

/-- A handle is opened: a database that is created takes the records of its path away. -/
theorem connected (hk : Kept s L) (hf : Founded s) {b : DatabaseId} {path : String}
    {existing : Bool} (ho : Opened s b path existing t) : Kept t (L.connect b path existing) := by
  obtain ⟨files, -, he⟩ := ho.engine
  obtain ⟨d, hd, hp⟩ := ho.databases
  have hfam := ho.families
  constructor
  case stocked =>
    rw [he]
    exact Engine.Stocked.opened (e := s.petitioned existing) hk.stocked existing path files
  case opened =>
    intro b' d' h' k' hd' hp'
    rw [hd] at hd'
    rw [he]
    rcases Table.of_get?_set hd' with ⟨rfl, rfl⟩ | ⟨hne, hold⟩
    · obtain ⟨rfl, -⟩ := Phase.opened.inj (hp.symm.trans hp')
      refine ⟨⟨path, true, 1⟩, Table.get?_set_self _ _ _, ?_, ?_⟩
      · exact (Function.update_self b' path L.path).symm
      · exact congrArg (· + 1) (Function.update_self b' 0 L.used).symm
    · obtain ⟨c, hc, hpath, hnext⟩ := hk.opened hold hp'
      have hlt : h' < (s.petitioned existing).nextHandle :=
        Nat.lt_of_lt_of_le (hf.housed.databases hc) (sameParts_petitioned s existing).nextHandle
      refine ⟨c, (Table.get?_set_ne _ (Nat.ne_of_lt hlt) _).trans hc, ?_, ?_⟩
      · exact hpath.trans (Function.update_of_ne hne _ _).symm
      · exact hnext.trans (congrArg (· + 1) (Function.update_of_ne hne _ _).symm)
  case shelf =>
    intro p i
    rw [he, Engine.shelf_opened]
    exact if_congr Iff.rfl rfl (hk.shelf p i)
  case place =>
    intro f fam hfam' p i
    have hold : s.engineFamily? f = some fam := by
      rw [← hfam']
      exact engineFamily?_congr (by rw [he]; rfl) (by rw [hfam])
    have hslot : (s.petitioned existing).slot? p i = some fam.store ↔ L.place f = some (p, i) :=
      hk.place hold p i
    rw [he, Engine.slot?_opened]
    show _ ↔ (L.place f).filter _ = some (p, i)
    rw [Option.filter_eq_some_iff, ← hslot]
    cases existing with
    | false => by_cases hpath : p = path <;> simp [hpath]
    | true => simp
  case fresh =>
    intro f hn
    rw [hfam] at hn
    show (L.place f).filter _ = none
    rw [hk.fresh f hn]
    rfl
  case plain =>
    intro p i hno
    show (if _ then _ else _) = _
    split
    · rfl
    · rename_i hold
      refine hk.plain p i fun f hplace => hno f ?_
      refine Option.filter_eq_some_iff.2 ⟨hplace, ?_⟩
      cases existing with
      | false => simpa using hold
      | true => rfl

/-! ## Families -/

section

variable {b : DatabaseId} {d : Database} {h k : Engine.Handle} {c : Engine.Database}
  {config : DataRecord} {σ : Engine.StoreId} {e : Engine}

/-- The families that have handles stay when one is made. -/
theorem families_shelves (hf : Founded s) (hc : s.engine.databases.get? h = some c)
    (he : Engine.Shelves h c config σ s.engine e) {f : FamilyId} {fm : Family}
    {fh : Engine.FamilyHandle} (hfm : s.families.get? f = some fm) (hh : fm.handle = some fh) :
    e.families.get? fh = s.engine.families.get? fh := by
  obtain ⟨⟨fam, hfam, -⟩, -⟩ := hf.stands hfm hh
  rw [he.families]
  refine Table.get?_set_ne _ ?_ _
  rintro rfl
  exact absurd ((hf.housed.next_free hc).symm.trans hfam) (by simp)

/-- A shelf that is new is no shelf of a family that is there. -/
theorem place_shelves (hk : Kept s L) (hf : Founded s)
    (he : Engine.Shelves h c config σ s.engine e) {f : FamilyId} {fam : Engine.Family}
    (hfam : s.engineFamily? f = some fam) (p : String) (i : Nat) :
    e.slot? p i = some fam.store ↔ L.place f = some (p, i) := by
  rw [← hk.place hfam]
  by_cases hpi : p = c.path ∧ i = c.nextFamily
  · obtain ⟨rfl, rfl⟩ := hpi
    rw [he.slot]
    rcases he.same with hslot | ⟨hnone, hle⟩
    · rw [hslot]
    · obtain ⟨fm, fh, hfm, hh, hget⟩ := exists_of_engineFamily? hfam
      obtain ⟨-, c', hc', -⟩ := hf.housed.families hget
      have hlt := hf.housed.owned (Engine.Housed.owns hc' hget)
      rw [hnone]
      refine iff_of_false (fun heq => ?_) (by simp)
      obtain rfl := Option.some.inj heq
      exact Nat.not_lt.2 hle hlt
  · rw [he.others p i hpi]

/-- The next index of a handle is used up. -/
theorem opened_shelves (hk : Kept s L) (hf : Founded s) (hd : s.databases.get? b = some d)
    (hp : d.phase = .opened h k) (hc : s.engine.databases.get? h = some c)
    (he : Engine.Shelves h c config σ s.engine e) {b' : DatabaseId} {d' : Database}
    {h' k' : Engine.Handle} (hd' : s.databases.get? b' = some d')
    (hp' : d'.phase = .opened h' k') : ∃ c', e.databases.get? h' = some c' ∧
      c'.path = L.path b' ∧
      c'.nextFamily = Function.update L.used b (L.used b + 1) b' + 1 := by
  rw [he.databases]
  obtain ⟨c', hc', hpath, hnext⟩ := hk.opened hd' hp'
  by_cases hb : b' = b
  · subst hb
    obtain rfl := Option.some.inj (hd.symm.trans hd')
    obtain ⟨rfl, rfl⟩ := Phase.opened.inj (hp.symm.trans hp')
    obtain rfl := Option.some.inj (hc.symm.trans hc')
    refine ⟨_, Table.get?_set_self _ _ _, hpath, ?_⟩
    show c.nextFamily + 1 = Function.update L.used b' (L.used b' + 1) b' + 1
    rw [Function.update_self, hnext]
  · have hne : h' ≠ h := by
      rintro rfl
      exact hb (hf.apart hd' hd hp' hp)
    refine ⟨c', (Table.get?_set_ne _ hne _).trans hc', hpath, ?_⟩
    show _ = Function.update L.used b (L.used b + 1) b' + 1
    rw [Function.update_of_ne hb, hnext]

/-- A new family is at the next index of its handle. -/
theorem made (hk : Kept s L) (hf : Founded s) (hn : s.families.Numbered) (ht : Founded t)
    (hd : s.databases.get? b = some d) (hp : d.phase = .opened h k)
    (hc : s.engine.databases.get? h = some c) (he : Engine.Shelves h c config σ s.engine t.engine)
    (hdb : t.databases = s.databases) {fm : Family} (hh : fm.handle = some (h, c.nextFamily))
    (hfam : t.families = s.families.set s.families.size fm) :
    Kept t (L.make b s.families.size) where
  stocked := he.stocked hk.stocked
  opened hd' hp' := by
    rw [hdb] at hd'
    exact hk.opened_shelves hf hd hp hc he hd' hp'
  shelf p i := (he.shelf p i).trans (hk.shelf p i)
  place {f fam} hfam' p i := by
    obtain ⟨fm', fh, hfm, hh', hget⟩ := exists_of_engineFamily? hfam'
    show _ ↔ Function.update L.place s.families.size _ f = some (p, i)
    rw [hfam] at hfm
    rcases Table.of_get?_set hfm with ⟨rfl, rfl⟩ | ⟨hne, hold⟩
    · obtain ⟨c', hc', hpath, hnext⟩ := hk.opened hd hp
      obtain rfl := Option.some.inj (hc.symm.trans hc')
      obtain rfl := Option.some.inj (hh.symm.trans hh')
      rw [he.families, Table.get?_set_self] at hget
      obtain rfl := Option.some.inj hget
      rw [Function.update_self, ← hpath, ← hnext, Option.some_inj, Prod.mk.injEq]
      refine ⟨fun hslot => ?_, ?_⟩
      · exact ht.housed.apart (Engine.owns_of_slot? he.slot) (Engine.owns_of_slot? hslot)
      · rintro ⟨rfl, rfl⟩
        exact he.slot
    · rw [Function.update_of_ne hne]
      refine hk.place_shelves hf he ?_ p i
      unfold engineFamily?
      rw [hold, Option.bind_some, hh', Option.bind_some, ← families_shelves hf hc he hold hh']
      exact hget
  fresh f hnone := by
    rw [hfam, Table.get?_set] at hnone
    split at hnone
    · exact absurd hnone (by simp)
    · rename_i hne
      exact (Function.update_of_ne hne _ _).trans (hk.fresh f hnone)
  plain p i hno := by
    refine hk.plain p i fun f hplace => ?_
    by_cases hne : f = s.families.size
    · rw [hne, hk.fresh _ hn.get?_size] at hplace
      exact absurd hplace (by simp)
    · exact hno f ((Function.update_of_ne hne _ _).trans hplace)

end

/-! ## Records -/

/-- What is written through a family comes to the place of the family. -/
theorem wrote (hk : Kept s L) (hs : SameHandles [.records] s t) {f : FamilyId} {fam : Engine.Family}
    (hfam : s.engineFamily? f = some fam) (change : Engine.Records → Engine.Records)
    (hr : Engine.Replaces fam.store (change (s.engine.recordsOf fam.store)) s.engine t.engine) :
    Kept t (L.write f change) := by
  have hparts := hs.engine.sameParts
  have hdb : t.engine.databases = s.engine.databases := hparts.same .databases (by decide)
  have hst : t.engine.stores = s.engine.stores := hparts.same .stores (by decide)
  have hback : ∀ f, t.engineFamily? f = s.engineFamily? f := fun f =>
    engineFamily?_congr (hparts.same .families (by decide)) (by rw [hs.families])
  constructor
  case stocked =>
    unfold Engine.Stocked
    rw [hdb, hst]
    exact hk.stocked
  case opened =>
    rw [hs.databases, hdb]
    exact hk.opened
  case shelf =>
    intro p i
    rw [Engine.shelf_replaces hst hr]
    have hplace := hk.place hfam p i
    show _ = if L.place f = some (p, i) then change (L.records p i) else L.records p i
    rw [← hk.shelf p i]
    by_cases hslot : s.engine.slot? p i = some fam.store
    · rw [if_pos hslot, if_pos (hplace.1 hslot), Engine.shelf_of_slot? hslot]
    · rw [if_neg hslot, if_neg fun h => hslot (hplace.2 h)]
  case place =>
    intro f' fam' hfam' p i
    rw [hback] at hfam'
    rw [Engine.slot?_congr hst]
    exact hk.place hfam' p i
  case fresh =>
    rw [hs.families]
    exact hk.fresh
  case plain =>
    intro p i hno
    show (if L.place f = some (p, i) then change (L.records p i) else L.records p i) = .empty
    rw [if_neg (show L.place f ≠ some (p, i) from hno f)]
    exact hk.plain p i hno

/-- Records have stayed, and so has all that lies on them. -/
theorem sameHandles (hk : Kept s L) (hs : SameHandles [.records] s t) (hr : SameRecords s t) :
    Kept t L := by
  have hparts := hs.engine.sameParts
  have hdb : t.engine.databases = s.engine.databases := hparts.same .databases (by decide)
  refine hk.rest (hparts.same .stores (by decide)) hr (fun g c hc => ⟨c, by rw [← hdb, hc], rfl⟩)
    (fun b d h k hd _ => ⟨by rw [← hs.databases, hd], by rw [hdb]⟩) (fun f fam hfam => ?_)
    fun f hn => by rw [← hs.families, hn]
  rw [engineFamily?_congr (hparts.same .families (by decide)) (by rw [hs.families])] at hfam
  exact ⟨fam, hfam, rfl⟩

end Kept

/-! ## All operations -/

section

variable {s : Store} {L : Ledger}

theorem kept_point (hk : Kept s L) (hf : Founded s) (f : FamilyId) (call : PointCall) :
    Kept (s.perform (.point f call)).2 (L.step (s.transition (.point f call))) := by
  have hhandles : SameHandles [.records] s ((call.run f).run s).2 :=
    Run.sameHandles_point (by simp) f call s
  have hwrote := Run.wrote_point hf f call
  unfold transition
  show Kept ((call.run f).run s).2
    (L.step ⟨s, .point f call, ((call.run f).run s).1, ((call.run f).run s).2⟩)
  generalize (call.run f).run s = answer at hhandles hwrote ⊢
  cases hwrote with
  | failed h => exact hk.sameHandles hhandles h
  | looked h hcall =>
    rw [L.step_point]
    cases s.config? f with
    | none => exact hk.sameHandles hhandles h
    | some config =>
      dsimp only
      rw [L.write_self f (hcall config.funcs)]
      exact hk.sameHandles hhandles h
  | @wrote fm fam t hfm hfam h =>
    rw [L.step_point, config?_of_get? hfm]
    exact hk.wrote hhandles hfam (fun R => call.onRecords fm.config.funcs R) h

theorem kept_asked (hk : Kept s L) (hf : Founded s) {op : Operation}
    (h : op.asksDatabase = true) : Kept (s.perform op).2 (L.step (s.transition op)) := by
  cases answered_of_asksDatabase hf h with
  | failed _ hc _ hL =>
    rw [hL]
    exact hk.sameFamilies hc
  | opened _ ho hL =>
    rw [hL]
    exact hk.connected hf ho

/-- A family is made, or nothing happens at all. -/
theorem kept_createFamily (hk : Kept s L) (hs : Reachable s) (b : DatabaseId)
    (funcs : FuncsArgument) (maxKeySize : Value) :
    Kept (s.perform (.createFamily b funcs maxKeySize)).2
      (L.step (s.transition (.createFamily b funcs maxKeySize))) := by
  have hf := hs.founded
  have hft : Founded (s.perform (.createFamily b funcs maxKeySize)).2 :=
    (perform_keeps hf (.createFamily b funcs maxKeySize)).founded
  have h := createFamily_furnished hf hk.stocked b funcs maxKeySize
  have hrun : s.perform (.createFamily b funcs maxKeySize) = _ := run_map _ _ s
  unfold transition
  rw [hrun] at hft ⊢
  generalize (Run.createFamily b funcs maxKeySize).run s = answer at h hft ⊢
  cases h with
  | refused failure => exact hk
  | made hd hp hc he =>
    exact hk.made hf hs.sound.linked.families hft hd hp hc he rfl rfl rfl

/-- An operation does what its reply means. -/
theorem kept_perform (hk : Kept s L) (hs : Reachable s) (op : Operation) :
    Kept (s.perform op).2 (L.step (s.transition op)) := by
  by_cases hc : op.keepsFamilies = true
  · rw [L.step_sameFamilies (t := s.transition op) hc]
    exact hk.sameFamilies (sameFamilies_of_keepsFamilies hc s)
  · cases op with
    | newDatabase => exact hk.idle fun _ _ => by simp
    | start | connect => exact kept_asked hk hs.founded rfl
    | createFamily b funcs maxKeySize => exact kept_createFamily hk hs b funcs maxKeySize
    | point f call => exact kept_point hk hs.founded f call
    | closeDatabase b =>
      have hrun : s.perform (.closeDatabase b) = _ := run_map _ _ s
      have hkept := hk.closeDatabase hs b
      unfold transition
      rw [hrun]
      exact hkept
    | closeFamily f =>
      have hrun : s.perform (.closeFamily f) = _ := run_map _ _ s
      have hkept := hk.closeFamily hs.founded f
      unfold transition
      rw [hrun]
      exact hkept
    | _ => exact absurd rfl hc

/-- The ledger is right after any operations. -/
theorem kept_after (hk : Kept s L) (hs : Reachable s) (ops : List Operation) :
    Kept (s.after ops) ((s.trace ops).foldl Ledger.step L) := by
  induction ops generalizing s L with
  | nil => exact hk
  | cons op ops ih => exact ih (kept_perform hk hs op) (hs.step op)

end

theorem kept_ledger (files : Files) (ops : List Operation) :
    Kept ((Store.initial files).after ops) (ledger files ops) :=
  kept_after (kept_initial files) (.initial files) ops

end FamilyStore.Store
