import FamilyStore.Proofs.Engine.StrictOrder
import FamilyStore.Proofs.Iteration.Order
import FamilyStore.Proofs.Points.Refinement

/-!
Iterating does not tell how a family came to its map.

The records of a family lie in the order in which their keys arrived, so two runs that lead to the
same map may well leave them in different orders. Where only equal keys compare equal, an iteration
does not show it: it gives out one strictly ascending list, which the map alone determines.
-/

namespace FamilyStore

/-! ## Start keys -/

/-- Whether a family with a limit for its keys can be iterated from a value on: from nothing at all,
or from a key within the limit. -/
def Value.canStart : Value → Nat → Bool
  | .null, _ => true
  | start, limit => start.isKey limit

theorem Value.isAccepted_of_canStart {start : Value} {limit : Nat}
    (h : start.canStart limit = true) : start.isAccepted = true := by
  have hkey : ∀ v : Value, v.isKey limit = true → v.isAccepted = true := fun v hv => by
    unfold isKey at hv
    exact (Bool.and_eq_true_iff.1 (Bool.and_eq_true_iff.1 hv).1).2
  cases start with
  | null => rfl
  | _ => exact hkey _ h

namespace Store

variable {s s' : Store} {id id' : FamilyId} {config config' : DataConfig}

/-- What the engine receives for a start key does not depend on the family. -/
theorem Family.startSpan_of_canStart {f : Family} {start : Value} {slice : Slice}
    (h : start.canStart f.config.maxKeySize = true) (hslice : Slice.ofValue start = .ok slice) :
    f.startSpan start = .ok (slice.span start.contents) := by
  cases start with
  | null =>
    obtain rfl := Except.ok.inj hslice
    rfl
  | buffer b =>
    have hshort : ¬ f.config.maxKeySize < slice.length := by
      have hkey : (Value.buffer b).isKey f.config.maxKeySize = true := h
      rcases Slice.ofValue_cases (.buffer b) with ⟨-, slice', hslice', hlen, -⟩ | ⟨-, failure, hno⟩
      · obtain rfl := Except.ok.inj (hslice.symm.trans hslice')
        rw [hlen]
        exact Nat.not_lt.2 (of_decide_eq_true (Bool.and_eq_true_iff.1 hkey).2)
      · exact absurd (hslice.symm.trans hno) (by simp)
    rw [f.startSpan_of_ne (by simp)]
    unfold span
    dsimp only
    rw [hslice]
    exact if_neg hshort
  | bool | int | float | str | list => exact absurd h Bool.false_ne_true

/-! ## Families that can be iterated -/

/-- A family is open, in a store that some run leads to, and no failure of an iteration is set
up. -/
structure Iterable (s : Store) (id : FamilyId) (config : DataConfig) : Prop where
  reachable : Reachable s
  isOpen : s.isOpenFamily id = true
  untroubled : Untroubled s.engine
  configured : s.config? id = some config

namespace Iterable

/-- The family that the handle and the engine agree on. -/
theorem exists_serves (h : Iterable s id config) : ∃ f fh fam, Serves s id f fh ∧
    f.config = config ∧ s.engineFamily? id = some fam ∧ fam.config.funcs = config.funcs := by
  obtain ⟨f, fh, fam, hserves, hconfig, -, hrecord, hfam⟩ :=
    h.reachable.founded.exists_configured h.isOpen h.configured
  exact ⟨f, fh, fam, hserves, hconfig, hfam, congrArg DataRecord.funcs hrecord⟩

theorem nodup (h : Iterable s id config) : (s.stored id).keys.Nodup := by
  obtain ⟨f, fh, fam, -, -, hfam, -⟩ := h.exists_serves
  rw [stored_eq hfam]
  exact h.reachable.founded.housed.nodup_recordsOf fam.store

/-- Iterating from a start key on gives out what the comparison selects. -/
theorem yields (h : Iterable s id config) {start : Value} {slice : Slice}
    (hstart : start.canStart config.maxKeySize = true) (hslice : Slice.ofValue start = .ok slice) :
    s.Yields id start
      (Engine.selected config.funcs (s.stored id) (slice.span start.contents)) := by
  obtain ⟨f, fh, fam, hserves, hconfig, hfam, hfuncs⟩ := h.exists_serves
  rw [← hconfig] at hstart
  rw [← hfuncs]
  exact yields_selected h.reachable h.untroubled hserves hfam
    (Family.startSpan_of_canStart hstart hslice)

/-- A byte string above the limit is no start key. -/
theorem refuses (h : Iterable s id config) {bs : Bytes} (hlong : config.maxKeySize < bs.length) :
    s.perform (.range id (.bytes bs)) =
      (.error (.store (.keyTooLarge bs.length config.maxKeySize)), s) := by
  obtain ⟨f, fh, fam, hserves, hconfig, -, -⟩ := h.exists_serves
  have hspan : f.startSpan (.bytes bs) =
      .error (.store (.keyTooLarge bs.length config.maxKeySize)) := by
    rw [← hconfig] at hlong ⊢
    exact if_pos hlong
  have hrun : (Run.range id (.bytes bs)).run s =
      (.error (.store (.keyTooLarge bs.length config.maxKeySize)), s) := by
    rw [Run.run_range hserves, hspan]
  exact perform_eq rfl hrun

end Iterable

/-! ## One list for one map -/

/-- Families with the same map find the same values. -/
theorem get?_of_content (h : s.content id = s'.content id') (k : Bytes) :
    (s.stored id).get? k = (s'.stored id').get? k := by
  rw [← Engine.lookup_contentOf, ← Engine.lookup_contentOf]
  exact congrArg (fun m => m.lookup k) h

/-- The built-in comparisons are strict total orders. Whatever runs two families have behind them,
if they have the same data functions, with a strict total order, and the same map, then iterating
gives out one list for both: from the beginning and from each start key that both of them take. The
list is strictly ascending, no key is in it twice, and it holds what the map has from the start key
on. A start key above the limit of a family is refused. -/
theorem range_of_map :
    (∀ (b : DataFuncs.Builtin) (keys : List Bytes), Engine.StrictlyOrders b.funcs keys) ∧
    ∀ {s s' : Store} {id id' : FamilyId} {config config' : DataConfig},
      Iterable s id config → Iterable s' id' config' → config'.funcs = config.funcs →
      Engine.StrictlyOrders config.funcs (s.stored id).keys → s.content id = s'.content id' →
      (∀ start : Value, start.canStart config.maxKeySize = true →
        start.canStart config'.maxKeySize = true →
        ∃ rs, s.Yields id start rs ∧ s'.Yields id' start rs ∧
          rs.Pairwise (fun r r' => config.funcs.rank r.1 r'.1 = .lt) ∧ (rs.map Prod.fst).Nodup ∧
          ∀ k v, (k, v) ∈ rs ↔ (s.content id).lookup k = some v ∧
            (start.isStart = true → config.funcs.rank k start.contents ≠ .lt)) ∧
      ∀ bs : Bytes, config.maxKeySize < bs.length →
        s.perform (.range id (.bytes bs)) =
          (.error (.store (.keyTooLarge bs.length config.maxKeySize)), s) := by
  refine ⟨Engine.strictlyOrders_builtin, ?_⟩
  intro s s' id id' config config' h h' hfuncs hstrict hmap
  refine ⟨fun start hstart hstart' => ?_, fun bs hlong => h.refuses hlong⟩
  rcases Slice.ofValue_cases start with ⟨-, slice, hslice, -, -, hread⟩ | ⟨hnot, -⟩
  · have hyields := h.yields hstart hslice
    have hyields' := h'.yields hstart' hslice
    rw [hfuncs, ← Engine.selected_eq hstrict h.nodup h'.nodup (get?_of_content hmap)] at hyields'
    refine ⟨_, hyields, hyields', Engine.selected_ascending hstrict h.nodup _,
      Engine.nodup_selected _ h.nodup _, fun k v => ?_⟩
    have hstored : (s.content id).lookup k = (s.stored id).get? k := Engine.lookup_contentOf _ k
    rw [Engine.mem_selected_iff, hread, Slice.isNull_span hslice, Bool.not_eq_eq_eq_not,
      Bool.not_false, hstored, Table.get?_eq_some_iff h.nodup]
  · exact absurd ((Value.isAccepted_of_canStart hstart).symm.trans hnot) (by decide)

/-! ## Two ways to one map -/

/-- A store with a family in descending order. -/
def descending : Store := withFamily (DataFuncs.Builtin.funcs .reverse)

/-- Calls that write two keys, and then remove the first one and write it again. -/
def writeAgain : List (FamilyId × PointCall) :=
  [(0, .insert (.bytes [1]) (.bytes [7])), (0, .insert (.bytes [1, 0]) (.bytes [8])),
    (0, .delete (.bytes [1])), (0, .insert (.bytes [1]) (.bytes [9]))]

/-- Calls that write the two keys once, and then update the first one. -/
def writeOver : List (FamilyId × PointCall) :=
  [(0, .insert (.bytes [1]) (.bytes [7])), (0, .insert (.bytes [1, 0]) (.bytes [8])),
    (0, .update (.bytes [1]) (.bytes [9]))]

theorem iterable_withFamily (funcs : DataFuncs) (calls : List (FamilyId × PointCall))
    (start : Value)
    (hid : ((Run.createFamily 0 (.ofClass funcs) .null).run single).1.toOption = some 0)
    (hopen : ((withFamily funcs).afterPoints calls).isOpenFamily 0 = true)
    (hpending : Engine.Run.pendingStatus ((withFamily funcs).afterPoints calls).engine
      .iteratorInit = Status.success)
    (hposition : ((withFamily funcs).afterPoints calls).engine.failIterationAt = none)
    (hstart : (((withFamily funcs).afterPoints calls).config? 0).all
      (fun c => start.canStart c.maxKeySize) = true) :
    ∃ config, Iterable ((withFamily funcs).afterPoints calls) 0 config ∧ config.funcs = funcs ∧
      start.canStart config.maxKeySize = true := by
  obtain ⟨config, hconfig, hfuncs⟩ := exists_config_withFamily hid calls
  rw [hconfig] at hstart
  exact ⟨config, ⟨reachable_withFamily funcs calls, hopen, ⟨hpending, hposition⟩, hconfig⟩, hfuncs,
    hstart⟩

/-- The keys lie in different orders, and iterating does not show it. -/
theorem written_alike :
    ((descending.afterPoints writeAgain).stored 0).keys = [[1, 0], [1]] ∧
    ((descending.afterPoints writeOver).stored 0).keys = [[1], [1, 0]] ∧
    ∃ rs, (descending.afterPoints writeAgain).Yields 0 (.bytes [1, 0]) rs ∧
      (descending.afterPoints writeOver).Yields 0 (.bytes [1, 0]) rs ∧ ([1], [9]) ∈ rs := by
  have hid : ((Run.createFamily 0 (.ofClass (DataFuncs.Builtin.funcs .reverse)) .null).run
      single).1.toOption = some 0 := by decide +kernel
  obtain ⟨config, hagain, hfuncs, hstart⟩ : ∃ config,
      Iterable (descending.afterPoints writeAgain) 0 config ∧ _ :=
    iterable_withFamily _ _ (.bytes [1, 0]) hid (by decide +kernel) (by decide +kernel)
      (by decide +kernel) (by decide +kernel)
  obtain ⟨config', hover, hfuncs', hstart'⟩ : ∃ config,
      Iterable (descending.afterPoints writeOver) 0 config ∧ _ :=
    iterable_withFamily _ _ (.bytes [1, 0]) hid (by decide +kernel) (by decide +kernel)
      (by decide +kernel) (by decide +kernel)
  have hstrict : Engine.StrictlyOrders config.funcs
      ((descending.afterPoints writeAgain).stored 0).keys := by
    rw [hfuncs]
    exact Engine.strictlyOrders_builtin .reverse _
  have hreached : config.funcs.rank [1] [1, 0] ≠ .lt := by
    rw [hfuncs]
    decide
  have hmap : (descending.afterPoints writeAgain).content 0 =
      (descending.afterPoints writeOver).content 0 := by decide +kernel
  have hfirst : ((descending.afterPoints writeAgain).content 0).lookup [1] = some [9] := by
    decide +kernel
  refine ⟨by decide +kernel, by decide +kernel, ?_⟩
  obtain ⟨hyields, -⟩ :=
    range_of_map.2 hagain hover (hfuncs'.trans hfuncs.symm) hstrict hmap
  obtain ⟨rs, hrs, hrs', -, -, hmem⟩ := hyields (.bytes [1, 0]) hstart hstart'
  exact ⟨rs, hrs, hrs', (hmem _ _).2 ⟨hfirst, fun _ => hreached⟩⟩

end Store

end FamilyStore
