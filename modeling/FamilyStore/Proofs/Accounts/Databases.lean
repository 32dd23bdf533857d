import FamilyStore.Proofs.Opening

/-!
The accounts of databases and of configuration blocks.

The engine has as many open databases as there are open handles on databases, and it was told to
close a database once for each handle that was open and is closed now. Each open handle has a
configuration block of its own. There are no other blocks, but for those that were lost when the
file system failed.
-/

namespace FamilyStore.Store

/-- Whether a database handle has been open and is closed now. -/
def Database.isOver (d : Database) : Bool := decide (d.phase = .closed) && d.site.isSome

/-- How many database handles are open. -/
def openDatabases (s : Store) : Nat := s.databases.count fun d => !d.isClosed

/-- How many database handles have been open and are closed now. -/
def closedDatabases (s : Store) : Nat := s.databases.count Database.isOver

/-- A handle knows its site from the opening on. -/
def Database.IsSited (d : Database) : Prop :=
  (d.phase = .fresh → d.site = none) ∧ ∀ h k, d.phase = .opened h k → d.site.isSome = true

/-- Databases of the engine and handles on them. -/
structure DatabasesBalanced (s : Store) : Prop where
  live : s.engine.liveDatabases = s.openDatabases
  calls : s.engine.callCount .close = s.closedDatabases
  once : (s.engine.subjects .close).Nodup
  gone : ∀ x ∈ s.engine.subjects .close, ∃ h d, x = .handle h ∧
    s.engine.databases.get? h = some d ∧ d.isOpen = false
  sited : ∀ {b d}, s.databases.get? b = some d → d.IsSited

/-- Configuration blocks and the handles that have them, when some blocks have been lost. -/
structure BlocksBalanced (s : Store) (lost : Nat) : Prop where
  live : s.engine.liveConfigBlocks = s.openDatabases + lost
  distinct : s.engine.configBlocks.Nodup
  used : ∀ k ∈ s.engine.configBlocks, k < s.engine.nextHandle
  holds : ∀ {b d h k}, s.databases.get? b = some d → d.phase = .opened h k →
    k ∈ s.engine.configBlocks
  own : ∀ {b b' d d' h h' k}, s.databases.get? b = some d → s.databases.get? b' = some d' →
    d.phase = .opened h k → d'.phase = .opened h' k → b = b'

theorem databasesBalanced_initial (files : Files) : DatabasesBalanced (Store.initial files) where
  live := rfl
  calls := rfl
  once := List.nodup_nil
  gone x hx := absurd hx List.not_mem_nil
  sited h := absurd h (by simp [Store.initial, Table.get?_empty])

theorem blocksBalanced_initial (files : Files) : BlocksBalanced (Store.initial files) 0 where
  live := rfl
  distinct := List.nodup_nil
  used k hk := absurd hk List.not_mem_nil
  holds h := absurd h (by simp [Store.initial, Table.get?_empty])
  own h := absurd h (by simp [Store.initial, Table.get?_empty])

section

variable {s s' : Store} {parts : List Engine.Resource} {n : Nat} {b : DatabaseId}
  {d d' : Database} {h k : Engine.Handle}

theorem openDatabases_set (hd : s.databases.get? b = some d)
    (hdb : s'.databases = s.databases.set b d') :
    s'.openDatabases + (!d.isClosed).toNat = s.openDatabases + (!d'.isClosed).toNat := by
  unfold openDatabases
  rw [hdb]
  exact Table.count_set_of_get? (fun d => !d.isClosed) hd d'

theorem closedDatabases_set (hd : s.databases.get? b = some d)
    (hdb : s'.databases = s.databases.set b d') :
    s'.closedDatabases + d.isOver.toNat = s.closedDatabases + d'.isOver.toNat := by
  unfold closedDatabases
  rw [hdb]
  exact Table.count_set_of_get? Database.isOver hd d'

theorem isClosed_of_opened (hp : d.phase = .opened h k) : d.isClosed = false := by
  unfold Database.isClosed
  rw [hp]

theorem isClosed_of_ne (hp : ∀ h k, d.phase ≠ .opened h k) : d.isClosed = true := by
  unfold Database.isClosed
  split
  · rename_i h k heq
    exact absurd heq (hp h k)
  · rfl

theorem isOver_of_ne (hp : d.phase ≠ .closed) : d.isOver = false := by
  simp [Database.isOver, hp]

namespace DatabasesBalanced

/-- What happens to handles in use is all that matters in the engine. -/
theorem of_same (hb : DatabasesBalanced s) (he : Engine.Resource.Same .databases s.engine s'.engine)
    (hopen : s'.openDatabases = s.openDatabases) (hover : s'.closedDatabases = s.closedDatabases)
    (hsited : ∀ {b d}, s'.databases.get? b = some d → d.IsSited) : DatabasesBalanced s' := by
  have hcalls : s'.engine.subjects .close = s.engine.subjects .close :=
    he.calls .close (by simp [Engine.Resource.entries])
  refine ⟨?_, ?_, ?_, ?_, hsited⟩
  · rw [hopen, he.use.1]
    exact hb.live
  · rw [hover, Engine.callCount_eq hcalls]
    exact hb.calls
  · rw [hcalls]
    exact hb.once
  · rw [hcalls]
    intro x hx
    obtain ⟨h, d, hxh, hd, ho⟩ := hb.gone x hx
    obtain ⟨d', hd', ho'⟩ := he.use.2 h d hd
    exact ⟨h, d', hxh, hd', ho'.trans ho⟩

theorem sameCounts (hb : DatabasesBalanced s) (hl : SameCounts parts s s')
    (hn : .databases ∉ parts) : DatabasesBalanced s' := by
  have hdb := hl.databases hn
  refine hb.of_same (hl.engine.same .databases hn) ?_ ?_ ?_
  · unfold openDatabases
    rw [hdb]
  · unfold closedDatabases
    rw [hdb]
  · rw [hdb]
    exact hb.sited

/-- A new handle is fresh, so it counts for nothing. -/
theorem withFresh (hb : DatabasesBalanced s) (hn : s.databases.Numbered) :
    DatabasesBalanced s.withFresh := by
  have hcount : ∀ p : Database → Bool, p ⟨.fresh, none, 0⟩ = false →
      s.withFresh.databases.count p = s.databases.count p := by
    intro p hp
    have hset := Table.count_set_of_none p hn.get?_size ⟨.fresh, none, 0⟩
    rw [hp] at hset
    exact hset
  refine hb.of_same (.refl _ _) (hcount _ rfl) (hcount _ rfl) fun hd => ?_
  rcases Table.of_get?_set hd with ⟨-, rfl⟩ | ⟨-, hd⟩
  · exact ⟨fun _ => rfl, fun h k hp => absurd hp (by simp)⟩
  · exact hb.sited hd

/-- A fresh handle is opened, on a new database. -/
theorem opened (hb : DatabasesBalanced s) (hf : Founded s) (hd : s.databases.get? b = some d)
    (hp : d.phase = .fresh) (ho : Engine.Opens h s.engine.withBlock s'.engine)
    (hdb : s'.databases = s.databases.set b d') (hp' : d'.phase = .opened h k)
    (hs : d'.site.isSome = true) : DatabasesBalanced s' := by
  obtain ⟨path, hset⟩ := ho.databases
  have hle : s.engine.nextHandle ≤ h := Nat.le_trans (Nat.le_add_right _ _) ho.handle.1
  have hnone : s.engine.databases.get? h = none := by
    cases hg : s.engine.databases.get? h with
    | none => rfl
    | some c => exact absurd (hf.housed.databases hg) (Nat.not_lt.2 hle)
  have hclosed : d.isClosed = true := isClosed_of_ne fun h k heq => by
    rw [hp] at heq
    exact absurd heq (by simp)
  refine ⟨?_, ?_, ?_, ?_, ?_⟩
  · have hcount := Table.count_set_of_none (fun d => d.isOpen) hnone ⟨path, true, 1⟩
    have hopen := openDatabases_set hd hdb
    rw [hclosed, isClosed_of_opened hp'] at hopen
    have hlive : s'.engine.liveDatabases = s.engine.liveDatabases + 1 := by
      unfold Engine.liveDatabases
      rw [hset]
      exact hcount
    have := hb.live
    simp only [Bool.not_true, Bool.not_false, Bool.toNat_false, Bool.toNat_true] at hopen
    omega
  · have hover := closedDatabases_set hd hdb
    rw [isOver_of_ne (by rw [hp]; simp), isOver_of_ne (by rw [hp']; simp)] at hover
    rw [Nat.add_right_cancel hover, Engine.callCount_eq ho.calls]
    exact hb.calls
  · rw [ho.calls]
    exact hb.once
  · rw [ho.calls, hset]
    intro x hx
    obtain ⟨g, c, hxg, hg, hc⟩ := hb.gone x hx
    have hgh : g ≠ h := by
      rintro rfl
      exact absurd (hnone.symm.trans hg) (by simp)
    exact ⟨g, c, hxg, (Table.get?_set_ne _ hgh _).trans hg, hc⟩
  · rw [hdb]
    intro c e hc
    rcases Table.of_get?_set hc with ⟨-, rfl⟩ | ⟨-, hc⟩
    · exact ⟨fun hfresh => absurd (hp'.symm.trans hfresh) (by simp), fun _ _ _ => hs⟩
    · exact hb.sited hc

/-- A database that was open is closed by one call more. -/
theorem ends (hb : DatabasesBalanced s) {c : Engine.Database}
    (hc : s.engine.databases.get? h = some c) (ho : c.isOpen = true)
    (he : s'.engine.databases = s.engine.databases.set h { c with isOpen := false })
    (hcalls : s'.engine.subjects .close = .handle h :: s.engine.subjects .close) :
    (s'.engine.subjects .close).Nodup ∧ ∀ x ∈ s'.engine.subjects .close, ∃ g e, x = .handle g ∧
      s'.engine.databases.get? g = some e ∧ e.isOpen = false := by
  rw [he]
  refine Engine.ends_cons hcalls hb.once hb.gone ?_ ⟨h, _, rfl, Table.get?_set_self _ _ _, rfl⟩ ?_
  · rintro ⟨g, e, hg, hget, hclosed⟩
    obtain rfl := Engine.Subject.handle.inj hg
    obtain rfl := Option.some.inj (hc.symm.trans hget)
    exact absurd (ho.symm.trans hclosed) (by simp)
  · rintro _ hne ⟨g, e, rfl, hg, hclosed⟩
    exact ⟨g, e, rfl, (Table.get?_set_ne _ (fun heq => hne (congrArg _ heq)) _).trans hg, hclosed⟩

/-- An open handle is closed together with its database. -/
theorem shut (hb : DatabasesBalanced s) (hd : s.databases.get? b = some d)
    (hp : d.phase = .opened h k) {c : Engine.Database} (hc : s.engine.databases.get? h = some c)
    (ho : c.isOpen = true)
    (he : s'.engine.databases = s.engine.databases.set h { c with isOpen := false })
    (hcalls : s'.engine.subjects .close = .handle h :: s.engine.subjects .close)
    (hdb : s'.databases = s.databases.set b { d with phase := .closed }) :
    DatabasesBalanced s' := by
  have hsite : d.site.isSome = true := (hb.sited hd).2 h k hp
  have hisOver : ({ d with phase := .closed } : Database).isOver = true := by
    simp [Database.isOver, hsite]
  have hopen := openDatabases_set hd hdb
  have hover := closedDatabases_set hd hdb
  rw [isClosed_of_opened hp, isClosed_of_ne (d := { d with phase := .closed }) (by simp)] at hopen
  rw [isOver_of_ne (by rw [hp]; simp), hisOver] at hover
  simp only [Bool.not_true, Bool.not_false, Bool.toNat_false, Bool.toNat_true] at hopen hover
  obtain ⟨honce, hgone⟩ := hb.ends hc ho he hcalls
  refine ⟨?_, ?_, honce, hgone, ?_⟩
  · have hcount := Table.count_set_of_get? (fun d => d.isOpen) hc { c with isOpen := false }
    have hlive : s'.engine.liveDatabases + 1 = s.engine.liveDatabases := by
      unfold Engine.liveDatabases
      rw [he]
      rw [ho] at hcount
      exact hcount
    have := hb.live
    omega
  · have := hb.calls
    have := Engine.callCount_cons hcalls
    omega
  · rw [hdb]
    intro c e hget
    rcases Table.of_get?_set hget with ⟨-, rfl⟩ | ⟨-, hget⟩
    · exact ⟨fun hfresh => absurd hfresh (by simp), fun _ _ heq => absurd heq (by simp)⟩
    · exact hb.sited hget

/-- Closing a handle that is not open only means that it cannot be opened any more. -/
theorem retire (hb : DatabasesBalanced s) (hd : s.databases.get? b = some d)
    (hp : ∀ h k, d.phase ≠ .opened h k) (he : s'.engine = s.engine)
    (hdb : s'.databases = s.databases.set b { d with phase := .closed }) :
    DatabasesBalanced s' := by
  have hopen := openDatabases_set hd hdb
  have hover := closedDatabases_set hd hdb
  rw [isClosed_of_ne hp, isClosed_of_ne (d := { d with phase := .closed }) (by simp)] at hopen
  have hsame : ({ d with phase := .closed } : Database).isOver = d.isOver := by
    unfold Database.isOver
    cases hphase : d.phase with
    | fresh => rw [(hb.sited hd).1 hphase]; simp
    | opened h k => exact absurd hphase (hp h k)
    | closed => rfl
  rw [hsame] at hover
  refine hb.of_same (by rw [he]; exact .refl _ _) (Nat.add_right_cancel hopen)
    (Nat.add_right_cancel hover) fun hget => ?_
  rw [hdb] at hget
  rcases Table.of_get?_set hget with ⟨-, rfl⟩ | ⟨-, hget⟩
  · exact ⟨fun hfresh => absurd hfresh (by simp), fun _ _ heq => absurd heq (by simp)⟩
  · exact hb.sited hget

end DatabasesBalanced

namespace BlocksBalanced

theorem fresh (hk : BlocksBalanced s n) : s.engine.nextHandle ∉ s.engine.configBlocks :=
  fun hm => Nat.lt_irrefl _ (hk.used _ hm)

/-- Handles that are not open have no block. -/
theorem of_same (hk : BlocksBalanced s n) (hnext : s.engine.nextHandle ≤ s'.engine.nextHandle)
    (hblocks : s'.engine.configBlocks = s.engine.configBlocks)
    (hopen : s'.openDatabases = s.openDatabases)
    (hback : ∀ {b d h k}, s'.databases.get? b = some d → d.phase = .opened h k →
      s.databases.get? b = some d) : BlocksBalanced s' n where
  live := by
    unfold Engine.liveConfigBlocks
    rw [hopen, hblocks]
    exact hk.live
  distinct := by rw [hblocks]; exact hk.distinct
  used := by
    rw [hblocks]
    exact fun k hm => Nat.lt_of_lt_of_le (hk.used k hm) hnext
  holds hd hp := by
    rw [hblocks]
    exact hk.holds (hback hd hp) hp
  own hd hd' hp hp' := hk.own (hback hd hp) (hback hd' hp') hp hp'

theorem sameCounts (hk : BlocksBalanced s n) (hl : SameCounts parts s s') (hn : .databases ∉ parts)
    (hn' : .blocks ∉ parts) : BlocksBalanced s' n := by
  have hdb := hl.databases hn
  refine hk.of_same hl.engine.nextHandle (hl.engine.same .blocks hn').use ?_ fun hd _ => ?_
  · unfold openDatabases
    rw [hdb]
  · rw [← hdb]
    exact hd

theorem withFresh (hk : BlocksBalanced s n) (hn : s.databases.Numbered) :
    BlocksBalanced s.withFresh n := by
  refine hk.of_same (Nat.le_refl _) rfl ?_ fun hd hp => ?_
  · exact Table.count_set_of_none (fun d => !d.isClosed) hn.get?_size ⟨.fresh, none, 0⟩
  · rcases Table.of_get?_set hd with ⟨-, rfl⟩ | ⟨-, hd⟩
    · exact absurd hp (by simp)
    · exact hd

/-- A new block is another one than those before. -/
theorem appended (hk : BlocksBalanced s n)
    (hb : s'.engine.configBlocks = s.engine.configBlocks ++ [s.engine.nextHandle])
    (hnext : s.engine.nextHandle < s'.engine.nextHandle) :
    s'.engine.configBlocks.Nodup ∧ ∀ k ∈ s'.engine.configBlocks, k < s'.engine.nextHandle := by
  rw [hb]
  refine ⟨List.nodup_append.2 ⟨hk.distinct, by simp, fun k hm k' hm' => ?_⟩, fun k hm => ?_⟩
  · rw [List.mem_singleton.1 hm']
    exact Nat.ne_of_lt (hk.used k hm)
  · rcases List.mem_append.1 hm with hm | hm
    · exact Nat.lt_trans (hk.used k hm) hnext
    · rw [List.mem_singleton.1 hm]
      exact hnext

/-- A block that no handle has is lost. -/
theorem lose (hk : BlocksBalanced s n) (hl : SameCounts [.blocks] s s')
    (hb : s'.engine.configBlocks = s.engine.configBlocks ++ [s.engine.nextHandle])
    (hnext : s.engine.nextHandle < s'.engine.nextHandle) : BlocksBalanced s' (n + 1) := by
  have hdb : s'.databases = s.databases := hl.databases (by simp)
  obtain ⟨hdistinct, hused⟩ := hk.appended hb hnext
  refine ⟨?_, hdistinct, hused, ?_, ?_⟩
  · have := hk.live
    unfold Engine.liveConfigBlocks openDatabases at *
    rw [hdb, hb, List.length_append, this]
    rfl
  · rw [hdb, hb]
    exact fun hd hp => List.mem_append_left _ (hk.holds hd hp)
  · rw [hdb]
    exact hk.own

/-- A fresh handle is opened, with a new block. -/
theorem opened (hk : BlocksBalanced s n) (hd : s.databases.get? b = some d)
    (hp : d.phase = .fresh) (ho : Engine.Opens h s.engine.withBlock s'.engine)
    (hdb : s'.databases = s.databases.set b d')
    (hp' : d'.phase = .opened h s.engine.nextHandle) : BlocksBalanced s' n := by
  have hb : s'.engine.configBlocks = s.engine.configBlocks ++ [s.engine.nextHandle] :=
    (ho.sameResources.same .blocks (by simp)).use
  have hnext : s.engine.nextHandle < s'.engine.nextHandle :=
    Nat.lt_of_lt_of_le (Nat.lt_add_of_pos_right (by decide)) ho.sameResources.nextHandle
  have hclosed : d.isClosed = true := isClosed_of_ne fun h k heq => by
    rw [hp] at heq
    exact absurd heq (by simp)
  obtain ⟨hdistinct, hused⟩ := hk.appended hb hnext
  refine ⟨?_, hdistinct, hused, ?_, ?_⟩
  · have hopen := openDatabases_set hd hdb
    rw [hclosed, isClosed_of_opened hp'] at hopen
    have := hk.live
    unfold Engine.liveConfigBlocks at *
    rw [hb, List.length_append, this]
    simp only [Bool.not_true, Bool.not_false, Bool.toNat_false, Bool.toNat_true,
      List.length_singleton] at hopen ⊢
    omega
  · rw [hdb, hb]
    intro c e g k hc hpc
    rcases Table.of_get?_set hc with ⟨-, rfl⟩ | ⟨-, hc⟩
    · obtain ⟨-, rfl⟩ := Phase.opened.inj (hp'.symm.trans hpc)
      exact List.mem_append_right _ (List.mem_singleton.2 rfl)
    · exact List.mem_append_left _ (hk.holds hc hpc)
  · rw [hdb]
    intro c c' e e' g g' k hc hc' hpc hpc'
    -- Nobody had the new block before, so no other handle has it now.
    have hnew : ∀ {c e g}, s.databases.get? c = some e →
        e.phase ≠ .opened g s.engine.nextHandle := fun hc hpc =>
      Nat.lt_irrefl _ (hk.used _ (hk.holds hc hpc))
    rcases Table.of_get?_set hc with ⟨heq, rfl⟩ | ⟨-, hc⟩
    · obtain ⟨-, rfl⟩ := Phase.opened.inj (hp'.symm.trans hpc)
      rcases Table.of_get?_set hc' with ⟨heq', -⟩ | ⟨-, hc'⟩
      · exact heq.trans heq'.symm
      · exact absurd hpc' (hnew hc')
    · rcases Table.of_get?_set hc' with ⟨-, rfl⟩ | ⟨-, hc'⟩
      · obtain ⟨-, rfl⟩ := Phase.opened.inj (hp'.symm.trans hpc')
        exact absurd hpc (hnew hc)
      · exact hk.own hc hc' hpc hpc'

/-- Without the block of an open handle there is one block less. -/
theorem length_without (hk : BlocksBalanced s n) (hd : s.databases.get? b = some d)
    (hp : d.phase = .opened h k) :
    (s.engine.configBlocks.filter (· ≠ k)).length + 1 = s.engine.configBlocks.length := by
  have herase : s.engine.configBlocks.filter (· ≠ k) = s.engine.configBlocks.erase k := by
    rw [hk.distinct.erase_eq_filter]
    congr 1
    funext a
    by_cases ha : a = k <;> simp [ha]
  have hpos := List.length_pos_of_mem (hk.holds hd hp)
  rw [herase, List.length_erase_of_mem (hk.holds hd hp)]
  omega

/-- An open handle is closed, and its block is given back. -/
theorem shut (hk : BlocksBalanced s n) (hd : s.databases.get? b = some d)
    (hp : d.phase = .opened h k)
    (hb : s'.engine.configBlocks = s.engine.configBlocks.filter (· ≠ k))
    (hnext : s.engine.nextHandle ≤ s'.engine.nextHandle)
    (hdb : s'.databases = s.databases.set b { d with phase := .closed }) :
    BlocksBalanced s' n := by
  have hold : ∀ {c e g j}, s'.databases.get? c = some e → e.phase = .opened g j →
      s.databases.get? c = some e ∧ j ≠ k := by
    intro c e g j hc hpc
    rw [hdb] at hc
    rcases Table.of_get?_set hc with ⟨-, rfl⟩ | ⟨hne, hc⟩
    · exact absurd hpc (by simp)
    · refine ⟨hc, ?_⟩
      rintro rfl
      exact hne (hk.own hc hd hpc hp)
  refine ⟨?_, ?_, ?_, ?_, ?_⟩
  · have hopen := openDatabases_set hd hdb
    rw [isClosed_of_opened hp, isClosed_of_ne (d := { d with phase := .closed }) (by simp)] at hopen
    have hlength := hk.length_without hd hp
    have := hk.live
    unfold Engine.liveConfigBlocks at *
    rw [hb]
    simp only [Bool.not_true, Bool.not_false, Bool.toNat_false, Bool.toNat_true] at hopen
    omega
  · rw [hb]
    exact hk.distinct.filter _
  · rw [hb]
    exact fun j hm => Nat.lt_of_lt_of_le (hk.used j (List.mem_filter.1 hm).1) hnext
  · intro c e g j hc hpc
    obtain ⟨hc', hne⟩ := hold hc hpc
    rw [hb]
    exact List.mem_filter.2 ⟨hk.holds hc' hpc, decide_eq_true hne⟩
  · exact fun hc hc' hpc hpc' => hk.own (hold hc hpc).1 (hold hc' hpc').1 hpc hpc'

end BlocksBalanced

end

/-! ## Closing -/

namespace Run

variable {s : Store} {b : DatabaseId} {d : Database}

/-- Closing a handle that is not open does not reach the engine. -/
theorem run_closeDatabase_of_ne (hd : s.databases.get? b = some d)
    (hp : ∀ h k, d.phase ≠ .opened h k) : (closeDatabase b).run s =
      (.ok (), { s with databases := s.databases.set b { d with phase := .closed } }) := by
  unfold closeDatabase setDatabase
  rw [run_bind, run_database hd]
  dsimp only
  rw [run_bind, run_modify]
  dsimp only
  split
  · rename_i h k heq
    exact absurd heq (hp h k)
  · rfl

/-- Closing an open handle closes its database and gives its block back. -/
theorem run_closeDatabase (hd : s.databases.get? b = some d) {h k : Engine.Handle}
    (hp : d.phase = .opened h k) {c : Engine.Database} (hc : s.engine.databases.get? h = some c)
    (ho : c.isOpen = true) (hk : k ∈ s.engine.configBlocks) :
    ∃ log, (closeDatabase b).run s = (.ok (), { s with
      engine := (s.engine.closed h c).withoutBlock k
      databases := s.databases.set b { d with phase := .closed }
      log := log }) := by
  unfold closeDatabase setDatabase
  rw [run_bind, run_database hd]
  dsimp only
  rw [run_bind, run_modify]
  dsimp only
  rw [hp]
  dsimp only
  rw [run_bind, run_engine, Engine.Run.run_close hc ho]
  dsimp only
  rw [run_bind, run_engine, Engine.Run.run_configDeinit (by exact hk)]
  dsimp only
  cases d.site with
  | none => exact ⟨_, rfl⟩
  | some site => exact ⟨_, rfl⟩

end Run

/-! ## Operations -/

/-- Whether an operation asks the engine for a database. -/
def Operation.asksDatabase : Operation → Bool
  | .start _ _ _ _ | .connect _ _ _ => true
  | _ => false

/-- Whether a configuration block is lost: a database was asked for, and the file system failed. -/
def Transition.losesBlock (t : Transition) : Bool :=
  match t.reply with
  | .error failure => t.operation.asksDatabase && failure.isFault
  | .ok _ => false

section

variable {s t : Store} {n : Nat}

/-- How many blocks a reply to a request for a database means to be lost. -/
def lostBy {α : Type} : Except Failure α → Nat
  | .error failure => failure.isFault.toNat
  | .ok _ => 0

theorem losesBlock_eq {α : Type} {op : Operation} {work : Run α} {f : α → Reply}
    (hop : op.run = f <$> work) (ha : op.asksDatabase = true) :
    (s.transition op).losesBlock.toNat = lostBy (work.run s).1 := by
  have hreply : (s.transition op).reply = (work.run s).1.map f := by
    show (op.run.run s).1 = _
    rw [hop, run_map]
  have hasks : (s.transition op).operation.asksDatabase = true := ha
  unfold Transition.losesBlock
  rw [hreply]
  cases (work.run s).1 with
  | error failure => simp [Except.map, lostBy, hasks]
  | ok a => rfl

/-- What asking for a database comes to is entered into both accounts. -/
theorem balanced_of_asked (hf : Founded s) (hb : DatabasesBalanced s) (hk : BlocksBalanced s n)
    {b : DatabaseId} {r : Except Failure Unit} (h : Asked b s (r, t)) :
    DatabasesBalanced t ∧ BlocksBalanced t (n + lostBy r) := by
  cases h with
  | refused hn hl =>
    refine ⟨hb.sameCounts hl List.not_mem_nil, ?_⟩
    rw [lostBy, hn]
    exact hk.sameCounts hl List.not_mem_nil List.not_mem_nil
  | faulted fault hl hblocks hnext =>
    exact ⟨hb.sameCounts hl (by simp), hk.lose hl hblocks hnext⟩
  | opened hd hp ho hd' hp' hs =>
    exact ⟨hb.opened hf hd hp ho hd' hp' hs, hk.opened hd hp ho hd' hp'⟩

theorem balanced_of_connected (hf : Founded s) (hb : DatabasesBalanced s)
    (hk : BlocksBalanced s n) {r : Except Failure DatabaseId} (h : Connected s (r, t)) :
    DatabasesBalanced t ∧ BlocksBalanced t (n + lostBy r) := by
  cases h with
  | refused hn hl =>
    refine ⟨hb.sameCounts hl List.not_mem_nil, ?_⟩
    rw [lostBy, hn]
    exact hk.sameCounts hl List.not_mem_nil List.not_mem_nil
  | faulted fault hl hblocks hnext =>
    exact ⟨hb.sameCounts hl (by simp), hk.lose hl hblocks hnext⟩
  | opened h =>
    exact balanced_of_asked hf.withFresh (hb.withFresh hf.databases) (hk.withFresh hf.databases) h

theorem balanced_closeDatabase (hf : Founded s) (hb : DatabasesBalanced s)
    (hk : BlocksBalanced s n) (b : DatabaseId) :
    DatabasesBalanced ((Run.closeDatabase b).run s).2 ∧
      BlocksBalanced ((Run.closeDatabase b).run s).2 n := by
  cases hd : s.databases.get? b with
  | none =>
    unfold Run.closeDatabase
    rw [run_bind, Run.run_database_none hd]
    exact ⟨hb, hk⟩
  | some d =>
    by_cases hp : ∃ h k, d.phase = .opened h k
    · obtain ⟨h, k, hp⟩ := hp
      obtain ⟨c, hc, ho⟩ := hf.opened hd hp
      obtain ⟨log, hrun⟩ := Run.run_closeDatabase hd hp hc ho (hk.holds hd hp)
      rw [hrun]
      exact ⟨hb.shut hd hp hc ho rfl rfl rfl, hk.shut hd hp rfl (Nat.le_refl _) rfl⟩
    · have hne : ∀ h k, d.phase ≠ .opened h k := fun h k heq => hp ⟨h, k, heq⟩
      rw [Run.run_closeDatabase_of_ne hd hne]
      refine ⟨hb.retire hd hne rfl rfl, hk.of_same (Nat.le_refl _) rfl ?_ fun hc hpc => ?_⟩
      · have hopen := openDatabases_set hd
          (rfl : (⟨s.engine, s.databases.set b { d with phase := .closed }, s.families,
            s.iterators, s.records, s.views, s.log⟩ : Store).databases = _)
        have hnow : ({ d with phase := .closed } : Database).isClosed = true :=
          isClosed_of_ne (by simp)
        rw [isClosed_of_ne hne, hnow] at hopen
        exact Nat.add_right_cancel hopen
      · rcases Table.of_get?_set hc with ⟨-, rfl⟩ | ⟨-, hc⟩
        · exact absurd hpc (by simp)
        · exact hc

/-- What is left of a request for a database that failed: a block, if the file system failed. -/
theorem blocks_of_failed (hf : Founded s) (hk : BlocksBalanced s n) {op : Operation}
    (ha : op.asksDatabase = true) {failure : Failure} (hr : (s.perform op).1 = .error failure) :
    (s.perform op).2.engine.configBlocks =
      s.engine.configBlocks ++ if failure.isFault then [s.engine.nextHandle] else [] := by
  have hrefused : ∀ {t : Store}, SameCounts [] s t → failure.isFault = false →
      t.engine.configBlocks =
        s.engine.configBlocks ++ if failure.isFault then [s.engine.nextHandle] else [] := by
    intro t hl hn
    rw [hn, if_neg Bool.false_ne_true, List.append_nil]
    exact (hl.engine.same .blocks List.not_mem_nil).use
  cases op with
  | start b path settings existing =>
    have hrun : s.perform (.start b path settings existing) = _ := run_map _ _ s
    have hasked := Run.start_asked hk.fresh b path settings existing
    rw [hrun] at hr ⊢
    generalize (Run.start b path settings existing).run s = answer at hasked hr ⊢
    cases hasked with
    | refused hn hl =>
      obtain rfl := Except.error.inj hr
      exact hrefused hl hn
    | faulted fault hl hblocks hnext =>
      obtain rfl := Except.error.inj hr
      exact hblocks
    | opened => exact absurd hr (by simp [Except.map])
  | connect path settings existing =>
    have hrun : s.perform (.connect path settings existing) = _ := run_map _ _ s
    have hconnected := Run.connect_connected hf.databases hk.fresh path settings existing
    rw [hrun] at hr ⊢
    generalize (Run.connect path settings existing).run s = answer at hconnected hr ⊢
    cases hconnected with
    | refused hn hl =>
      obtain rfl := Except.error.inj hr
      exact hrefused hl hn
    | faulted fault hl hblocks hnext =>
      obtain rfl := Except.error.inj hr
      exact hblocks
    | opened => exact absurd hr (by simp [Except.map])
  | _ => exact absurd ha Bool.false_ne_true

/-- Closing an open handle gives its own block back, and no other. -/
theorem block_of_closed (hf : Founded s) (hk : BlocksBalanced s n) {b : DatabaseId} {d : Database}
    {h k : Engine.Handle} (hd : s.databases.get? b = some d) (hp : d.phase = .opened h k) :
    (s.perform (.closeDatabase b)).1 = .ok .done ∧
    (s.perform (.closeDatabase b)).2.engine.configBlocks =
      s.engine.configBlocks.filter (· ≠ k) ∧
    (s.perform (.closeDatabase b)).2.engine.liveConfigBlocks + 1 = s.engine.liveConfigBlocks := by
  obtain ⟨c, hc, ho⟩ := hf.opened hd hp
  obtain ⟨log, hclose⟩ := Run.run_closeDatabase hd hp hc ho (hk.holds hd hp)
  have hrun : s.perform (.closeDatabase b) = _ := run_map _ _ s
  rw [hrun, hclose]
  exact ⟨rfl, rfl, hk.length_without hd hp⟩

/-- Every operation keeps the accounts of databases and blocks, and says when a block is lost. -/
theorem databases_perform (hf : Founded s) (hb : DatabasesBalanced s) (hk : BlocksBalanced s n)
    (op : Operation) : DatabasesBalanced (s.perform op).2 ∧
      BlocksBalanced (s.perform op).2 (n + (s.transition op).losesBlock.toNat) := by
  have hother : Engine.Resource.databases ∉ op.resources → Engine.Resource.blocks ∉ op.resources →
      op.asksDatabase = false → DatabasesBalanced (s.perform op).2 ∧
        BlocksBalanced (s.perform op).2 (n + (s.transition op).losesBlock.toNat) := by
    intro hd hblocks ha
    have hnone : (s.transition op).losesBlock = false := by
      have hasks : (s.transition op).operation.asksDatabase = false := ha
      unfold Transition.losesBlock
      split
      · rw [hasks]
        rfl
      · rfl
    rw [hnone]
    exact ⟨hb.sameCounts (op.sameCounts s) hd, hk.sameCounts (op.sameCounts s) hd hblocks⟩
  cases op with
  | newDatabase => exact ⟨hb.withFresh hf.databases, hk.withFresh hf.databases⟩
  | start b path settings existing =>
    rw [losesBlock_eq rfl rfl]
    have hrun : s.perform (.start b path settings existing) = _ := run_map _ _ s
    rw [hrun]
    exact balanced_of_asked hf hb hk (Run.start_asked hk.fresh b path settings existing)
  | connect path settings existing =>
    rw [losesBlock_eq rfl rfl]
    have hrun : s.perform (.connect path settings existing) = _ := run_map _ _ s
    rw [hrun]
    exact balanced_of_connected hf hb hk
      (Run.connect_connected hf.databases hk.fresh path settings existing)
  | closeDatabase b =>
    have hrun : s.perform (.closeDatabase b) = _ := run_map _ _ s
    have hnone : (s.transition (.closeDatabase b)).losesBlock = false := by
      unfold Transition.losesBlock
      split
      · rfl
      · rfl
    rw [hnone, hrun]
    exact balanced_closeDatabase hf hb hk b
  | _ => exact hother (by simp [Operation.resources]) (by simp [Operation.resources]) rfl

end

end FamilyStore.Store
