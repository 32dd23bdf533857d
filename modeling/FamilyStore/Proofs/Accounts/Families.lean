import FamilyStore.Proofs.Accounts.SameCounts
import FamilyStore.Proofs.Founded

/-!
The account of families.

The engine has one family in use for each open handle on a family, and it was told to delete a
family once for each handle that is closed. There are no other families in use.
-/

namespace FamilyStore

namespace Store

/-- How many family handles are open. -/
def openFamilies (s : Store) : Nat := s.families.count fun f => !f.isClosed

/-- How many family handles are closed. -/
def closedFamilies (s : Store) : Nat := s.families.count Family.isClosed

/-- Families of the engine and handles on them. -/
structure FamiliesBalanced (s : Store) : Prop where
  live : s.engine.liveFamilies = s.openFamilies
  calls : s.engine.callCount .familyDelete = s.closedFamilies
  once : (s.engine.subjects .familyDelete).Nodup
  gone : ∀ x ∈ s.engine.subjects .familyDelete, ∃ f fam, x = .family f ∧
    s.engine.families.get? f = some fam ∧ fam.deleted = true

theorem familiesBalanced_initial (files : Files) : FamiliesBalanced (Store.initial files) where
  live := rfl
  calls := rfl
  once := List.nodup_nil
  gone _ hx := absurd hx List.not_mem_nil

section

variable {s s' : Store} {parts : List Engine.Resource} {id : FamilyId}
  {fh : Engine.FamilyHandle}

theorem openFamilies_set {f f' : Family} (hf : s.families.get? id = some f)
    (hfams : s'.families = s.families.set id f') :
    s'.openFamilies + (!f.isClosed).toNat = s.openFamilies + (!f'.isClosed).toNat := by
  unfold openFamilies
  rw [hfams]
  exact Table.count_set_of_get? (fun f => !f.isClosed) hf f'

theorem closedFamilies_set {f f' : Family} (hf : s.families.get? id = some f)
    (hfams : s'.families = s.families.set id f') :
    s'.closedFamilies + f.isClosed.toNat = s.closedFamilies + f'.isClosed.toNat := by
  unfold closedFamilies
  rw [hfams]
  exact Table.count_set_of_get? Family.isClosed hf f'

theorem isClosed_of_handle {f : Family} (hh : f.handle = some fh) : f.isClosed = false := by
  rw [Family.isClosed, hh]
  rfl

namespace FamiliesBalanced

theorem sameCounts (hb : FamiliesBalanced s) (hl : SameCounts parts s s') (hn : .families ∉ parts) :
    FamiliesBalanced s' := by
  have hsame := hl.engine.same .families hn
  have hfam : s'.engine.families = s.engine.families := hsame.use
  have hcalls : s'.engine.subjects .familyDelete = s.engine.subjects .familyDelete :=
    hsame.calls .familyDelete (by simp [Engine.Resource.entries])
  refine ⟨?_, ?_, ?_, ?_⟩
  · have hopen : s'.openFamilies = s.openFamilies := hl.families hn not
    rw [hopen, Engine.liveFamilies, hfam]
    exact hb.live
  · have hclosed : s'.closedFamilies = s.closedFamilies := hl.families hn id
    rw [hclosed, Engine.callCount_eq hcalls]
    exact hb.calls
  · rw [hcalls]
    exact hb.once
  · rw [hcalls, hfam]
    exact hb.gone

/-- One family more is in use. -/
theorem live_makes (hm : Engine.Makes fh s.engine s'.engine)
    (hfree : s.engine.families.get? fh = none) :
    s'.engine.liveFamilies = s.engine.liveFamilies + 1 := by
  obtain ⟨fam, hdel, hset⟩ := hm.families
  have hcount := Table.count_set_of_none (fun f => !f.deleted) hfree fam
  unfold Engine.liveFamilies
  rw [hset]
  rw [hdel] at hcount
  exact hcount

/-- A new family is in use, and there is a handle on it. -/
theorem made (hb : FamiliesBalanced s) (hm : Engine.Makes fh s.engine s'.engine)
    (hfree : s.engine.families.get? fh = none) (hopen : s'.openFamilies = s.openFamilies + 1)
    (hclosed : s'.closedFamilies = s.closedFamilies) : FamiliesBalanced s' := by
  refine ⟨?_, ?_, ?_, ?_⟩
  · rw [live_makes hm hfree, hb.live, hopen]
  · rw [hclosed, Engine.callCount_eq hm.calls]
    exact hb.calls
  · rw [hm.calls]
    exact hb.once
  · obtain ⟨fam, -, hset⟩ := hm.families
    rw [hm.calls, hset]
    intro x hx
    obtain ⟨g, gam, hxg, hg, hdel⟩ := hb.gone x hx
    have hne : g ≠ fh := by
      rintro rfl
      exact absurd (hfree.symm.trans hg) (by simp)
    exact ⟨g, gam, hxg, (Table.get?_set_ne _ hne _).trans hg, hdel⟩

/-- A family that was in use is deleted by one call more. -/
theorem ends (hb : FamiliesBalanced s) {fam : Engine.Family}
    (hfam : s.engine.families.get? fh = some fam) (hdel : fam.deleted = false)
    (he : s'.engine.families = s.engine.families.set fh { fam with deleted := true })
    (hcalls : s'.engine.subjects .familyDelete =
      .family fh :: s.engine.subjects .familyDelete) :
    (s'.engine.subjects .familyDelete).Nodup ∧ ∀ x ∈ s'.engine.subjects .familyDelete,
      ∃ g gam, x = .family g ∧ s'.engine.families.get? g = some gam ∧ gam.deleted = true := by
  rw [he]
  refine Engine.ends_cons hcalls hb.once hb.gone ?_ ⟨fh, _, rfl, Table.get?_set_self _ _ _, rfl⟩ ?_
  · rintro ⟨g, gam, hg, hget, hdeleted⟩
    obtain rfl := Engine.Subject.family.inj hg
    obtain rfl := Option.some.inj (hfam.symm.trans hget)
    exact absurd (hdel.symm.trans hdeleted) (by simp)
  · rintro _ hne ⟨g, gam, rfl, hg, hdeleted⟩
    exact ⟨g, gam, rfl, (Table.get?_set_ne _ (fun heq => hne (congrArg _ heq)) _).trans hg,
      hdeleted⟩

/-- A family handle is closed together with its family. -/
theorem ended (hb : FamiliesBalanced s) {f : Family} (hf : s.families.get? id = some f)
    (hh : f.handle = some fh) {fam : Engine.Family} (hfam : s.engine.families.get? fh = some fam)
    (hdel : fam.deleted = false)
    (he : s'.engine.families = s.engine.families.set fh { fam with deleted := true })
    (hcalls : s'.engine.subjects .familyDelete =
      .family fh :: s.engine.subjects .familyDelete)
    (hfams : s'.families = s.families.set id { f with handle := none }) :
    FamiliesBalanced s' := by
  have hopen := openFamilies_set hf hfams
  have hclosed := closedFamilies_set hf hfams
  have hnow : ({ f with handle := none } : Family).isClosed = true := rfl
  simp only [isClosed_of_handle hh, hnow, Bool.not_true, Bool.not_false, Bool.toNat_false,
    Bool.toNat_true] at hopen hclosed
  obtain ⟨honce, hgone⟩ := hb.ends hfam hdel he hcalls
  refine ⟨?_, ?_, honce, hgone⟩
  · have hcount := Table.count_set_of_get? (fun f => !f.deleted) hfam { fam with deleted := true }
    have hlive : s'.engine.liveFamilies + 1 = s.engine.liveFamilies := by
      unfold Engine.liveFamilies
      rw [he]
      rw [hdel] at hcount
      exact hcount
    have := hb.live
    omega
  · have := hb.calls
    have := Engine.callCount_cons hcalls
    omega

end FamiliesBalanced

end

/-! ## Making families -/

/-- What asking for a family of a database comes to. -/
inductive FamilyAsked (b : DatabaseId) (s : Store) : Except Failure FamilyId × Store → Prop
  | refused {t : Store} (failure : Failure) (hl : SameCounts [] s t) :
      FamilyAsked b s (.error failure, t)
  | made {t : Store} {fh : Engine.FamilyHandle} {f : Family}
      (hm : Engine.Makes fh s.engine t.engine) (hfree : s.engine.families.get? fh = none)
      (hfams : t.families = s.families.set s.families.size f) (hh : f.handle = some fh) :
      FamilyAsked b s (.ok s.families.size, t)

namespace Run

variable {s : Store}

theorem createFamily_asked (he : Engine.Housed s.engine) (b : DatabaseId) (funcs : FuncsArgument)
    (maxKeySize : Value) : FamilyAsked b s ((createFamily b funcs maxKeySize).run s) := by
  unfold createFamily
  rcases openDatabase_cases s b with ⟨failure, hrun⟩ | ⟨d, h, k, sizes, hd, hp, hrun⟩
  · rw [run_bind, hrun]
    exact .refused failure (Frame.refl s)
  · rw [run_bind, hrun]
    dsimp only
    rw [run_bind, run_ofExcept]
    cases funcs.resolve with
    | error failure => exact .refused failure (Frame.refl s)
    | ok fs =>
      dsimp only
      rw [run_bind, run_ofExcept]
      split
      · rename_i config t heq
        obtain ⟨-, rfl⟩ := Prod.mk.inj heq
        rw [run_bind, run_engine]
        rcases Engine.Run.familyCreate_makes h config.record s.engine with
          ⟨failure, e', hcall, hresources⟩ | ⟨fh, e', hcall, hm⟩
        · rw [hcall]
          exact .refused failure (SameCounts.of_engine hresources rfl rfl rfl)
        · have hfree := Engine.Run.familyCreate_fresh hcall he
          rw [hcall]
          exact .made hm hfree rfl rfl
      · rename_i failure t heq
        obtain ⟨-, rfl⟩ := Prod.mk.inj heq
        exact .refused failure (Frame.refl s)

end Run

section

variable {s : Store}

theorem balanced_createFamily (hf : Founded s) (hn : s.families.Numbered)
    (hb : FamiliesBalanced s) (b : DatabaseId) (funcs : FuncsArgument) (maxKeySize : Value) :
    FamiliesBalanced ((Run.createFamily b funcs maxKeySize).run s).2 := by
  have hasked := Run.createFamily_asked hf.housed b funcs maxKeySize
  generalize (Run.createFamily b funcs maxKeySize).run s = answer at hasked
  cases hasked with
  | refused failure hl => exact hb.sameCounts hl List.not_mem_nil
  | @made t fh f hm hfree hfams hh =>
    have hcount := fun p => Table.count_set_of_none p hn.get?_size f
    have hclosed : f.isClosed = false := isClosed_of_handle hh
    refine hb.made hm hfree ?_ ?_
    · have hopen := hcount fun f => !f.isClosed
      unfold openFamilies
      rw [hfams, hopen, hclosed]
      rfl
    · have hover := hcount Family.isClosed
      unfold closedFamilies
      rw [hfams, hover, hclosed]
      rfl

/-- The end of a family deletes it in the engine, once its iterators are closed. -/
theorem balanced_closeFamily (hf : Founded s) (hb : FamiliesBalanced s) (id : FamilyId) :
    FamiliesBalanced ((Run.closeFamily id).run s).2 := by
  have hcounts : ∀ {ids : List IteratorId} {r t}, (ids.forM Run.closeIterator).run s = (r, t) →
      FamiliesBalanced t := by
    intro ids r t hrun
    have hl : SameCounts [.cursors] s t :=
      (Run.sameCounts_closeIterators (List.mem_singleton.2 rfl) ids).of_run hrun
    exact hb.sameCounts hl (by simp)
  have hend := Run.closeFamily_end s id
  generalize (Run.closeFamily id).run s = answer at hend ⊢
  cases hend with
  | unknown | already => exact hb
  | heldUp _ _ hrun => exact hcounts hrun
  | @reached f g fh t r e log _ _ hrun hg hgh hdelete =>
    have hfronts : SameFamilies s t := (Run.sameFamilies_closeIterators f.iterators).of_run hrun
    obtain ⟨⟨fam, hfam, hdel, -⟩, -⟩ := (hf.sameFamilies hfronts).founded.stands hg hgh
    rw [Engine.Run.run_familyDelete hfam hdel] at hdelete
    obtain ⟨-, rfl⟩ := Prod.mk.inj hdelete
    exact (hcounts hrun).ended hg hgh hfam hdel rfl rfl rfl

/-- Every operation keeps the account of families. -/
theorem families_perform (hf : Founded s) (hn : s.families.Numbered) (hb : FamiliesBalanced s)
    (op : Operation) : FamiliesBalanced (s.perform op).2 := by
  cases op with
  | createFamily b funcs maxKeySize =>
    have hrun : s.perform (.createFamily b funcs maxKeySize) = _ := run_map _ _ s
    rw [hrun]
    exact balanced_createFamily hf hn hb b funcs maxKeySize
  | closeFamily id =>
    have hrun : s.perform (.closeFamily id) = _ := run_map _ _ s
    rw [hrun]
    exact balanced_closeFamily hf hb id
  | _ => exact hb.sameCounts (Operation.sameCounts _ s) (by simp [Operation.resources])

end

end Store

end FamilyStore
