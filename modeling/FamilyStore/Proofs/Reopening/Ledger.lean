import FamilyStore.Proofs.Accounts.Families
import FamilyStore.Proofs.Reopening.Outcomes
import FamilyStore.Proofs.Reopening.Writing

/-!
A ledger of records, kept by what operations say and reply.

The ledger knows the path of each database handle, how many families were made on it, the path and
the index at which each family was made, and for each path and index the records that were written
there since a database was last created at the path. It never looks into the engine.
-/

namespace FamilyStore.Store

/-- What is known of records by the operations so far. -/
structure Ledger where
  path : DatabaseId → String
  /-- How many families were made on a handle. -/
  used : DatabaseId → Nat
  /-- Where a family was made, unless the path has got new records since. -/
  place : FamilyId → Option (String × Nat)
  records : String → Nat → Engine.Records

namespace Ledger

/-- The ledger before the first operation. -/
def empty : Ledger := ⟨fun _ => "", fun _ => 0, fun _ => none, fun _ _ => .empty⟩

/-- A handle is opened at a path. A database that is created has no records yet, and the families
that were made at its path before are not at it any more. -/
def connect (L : Ledger) (b : DatabaseId) (path : String) (existing : Bool) : Ledger where
  path := Function.update L.path b path
  used := Function.update L.used b 0
  place f := (L.place f).filter fun p => existing || decide (p.1 ≠ path)
  records p i := if existing = false ∧ p = path then .empty else L.records p i

/-- A family is made at the next index of a handle. -/
def make (L : Ledger) (b : DatabaseId) (f : FamilyId) : Ledger :=
  { L with
    used := Function.update L.used b (L.used b + 1)
    place := Function.update L.place f (some (L.path b, L.used b + 1)) }

/-- The records at the place of a family change. -/
def write (L : Ledger) (f : FamilyId) (change : Engine.Records → Engine.Records) : Ledger :=
  { L with records := fun p i =>
      if L.place f = some (p, i) then change (L.records p i) else L.records p i }

/-- What an operation means for the ledger. -/
def step (L : Ledger) (t : Transition) : Ledger :=
  match t.operation, t.reply with
  | .connect (.str p) _ existing, .ok (.database b) =>
    L.connect b (Files.upToZero (Files.absolutePath t.before.engine.files.home p)) existing
  | .start b (.str p) _ existing, .ok _ =>
    L.connect b (Files.upToZero (Files.absolutePath t.before.engine.files.home p)) existing
  | .createFamily b _ _, .ok (.family f) => L.make b f
  | .point f call, .ok _ =>
    match t.before.config? f with
    | none => L
    | some config => L.write f fun R => call.onRecords config.funcs R
  | _, _ => L

end Ledger

/-- The ledger of operations from the store before the first one. -/
def ledger (files : Files) (ops : List Operation) : Ledger :=
  ((Store.initial files).trace ops).foldl Ledger.step .empty

/-- Whether a transition makes a family on a handle. -/
def Transition.makesFamily (t : Transition) (b : DatabaseId) : Bool :=
  match t.operation, t.reply with
  | .createFamily b' _ _, .ok _ => b' == b
  | _, _ => false

/-- The engine has the records that the ledger tells of, and makes families where it says. -/
structure Kept (s : Store) (L : Ledger) : Prop where
  stocked : s.engine.Stocked
  opened : ∀ {b d h k}, s.databases.get? b = some d → d.phase = .opened h k →
    ∃ c, s.engine.databases.get? h = some c ∧ c.path = L.path b ∧ c.nextFamily = L.used b + 1
  shelf : ∀ path index, s.engine.shelf path index = L.records path index
  place : ∀ {f fam}, s.engineFamily? f = some fam → ∀ path index,
    s.engine.slot? path index = some fam.store ↔ L.place f = some (path, index)
  /-- Families that are not made yet are at no place. -/
  fresh : ∀ f, s.families.get? f = none → L.place f = none
  /-- Where no family was made there are no records. -/
  plain : ∀ path index, (∀ f, L.place f ≠ some (path, index)) → L.records path index = .empty

theorem kept_initial (files : Files) : Kept (Store.initial files) .empty where
  stocked h d hd := absurd hd (by simp [Store.initial, Engine.initial, Table.get?_empty])
  opened hd := absurd hd (by simp [Store.initial, Table.get?_empty])
  shelf _ _ := rfl
  place hf := absurd hf (by simp [engineFamily?, Store.initial, Table.get?_empty])
  fresh _ _ := rfl
  plain _ _ _ := rfl

namespace Kept

variable {s t : Store} {L : Ledger}

/-- Nothing that the ledger tells of has changed. -/
theorem rest (hk : Kept s L) (hs : t.engine.stores = s.engine.stores) (hr : SameRecords s t)
    (hst : ∀ g c', t.engine.databases.get? g = some c' →
      ∃ c, s.engine.databases.get? g = some c ∧ c.path = c'.path)
    (ho : ∀ b d h k, t.databases.get? b = some d → d.phase = .opened h k →
      s.databases.get? b = some d ∧ t.engine.databases.get? h = s.engine.databases.get? h)
    (hf : ∀ f fam, t.engineFamily? f = some fam →
      ∃ fam', s.engineFamily? f = some fam' ∧ fam'.store = fam.store)
    (hnone : ∀ f, t.families.get? f = none → s.families.get? f = none) : Kept t L where
  stocked g c' hc' := by
    obtain ⟨c, hc, hpath⟩ := hst g c' hc'
    rw [hs, ← hpath]
    exact hk.stocked g c hc
  opened hd hp := by
    obtain ⟨hd', hsame⟩ := ho _ _ _ _ hd hp
    rw [hsame]
    exact hk.opened hd' hp
  shelf path index := by
    rw [← hk.shelf path index]
    exact Engine.shelf_congr hs hr path index
  place hfam path index := by
    obtain ⟨fam', hfam', hstore⟩ := hf _ _ hfam
    rw [Engine.slot?_congr hs, ← hstore]
    exact hk.place hfam' path index
  fresh f hget := hk.fresh f (hnone f hget)
  plain := hk.plain

end Kept

end FamilyStore.Store
