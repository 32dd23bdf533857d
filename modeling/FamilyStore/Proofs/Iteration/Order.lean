import FamilyStore.DataFuncs.Builtin
import FamilyStore.Proofs.Engine.Arrivals
import FamilyStore.Proofs.Engine.Selection
import FamilyStore.Proofs.Iteration.Exhaustion
import FamilyStore.Proofs.Points.Calls

/-!
The order in which an iteration gives out the records of a family.

The records of a family remember the order in which their keys arrived, over the whole run that led
to them. An iteration gives out all of them. Where the comparison is a total preorder, it gives them
out in that preorder, and those that compare equal in the order of arrival.
-/

namespace FamilyStore

/-- Whether a value is a start key with an address: a byte string, or a buffer that is not empty. -/
def Value.isStart : Value → Bool
  | .buffer b => b.kind = .bytes || b.size != 0
  | _ => false

/-- A slice has an address if it is one of a byte string or of a buffer that is not empty. -/
theorem Slice.isNull_span {start : Value} {slice : Slice} (h : ofValue start = .ok slice)
    (source : Bytes) : (slice.span source).isNull = !start.isStart := by
  cases start with
  | null =>
    obtain rfl := Except.ok.inj h
    rfl
  | buffer b =>
    rw [Bool.eq_iff_iff, (sliced_of_ofBuffer h).isNull_span source]
    simp [Value.isStart, and_comm]
  | bool | int | float | str | list => exact absurd h (by simp [ofValue])

namespace Store

variable {s : Store}

/-! ## Start keys -/

/-- A start key is handed to the engine with its address and all its bytes. -/
theorem Family.startSpan_of_isStart {f : Family} {start : Value}
    (hkey : start.isKey f.config.maxKeySize = true) (h : start.isStart = true) :
    ∃ span, f.startSpan start = .ok span ∧ span.isNull = false ∧ span.read = start.contents := by
  obtain ⟨span, hspan, -, hread⟩ := Family.span_of_isKey hkey
  cases start with
  | buffer b =>
    refine ⟨span, hspan, ?_, hread⟩
    unfold Family.span Slice.ofValue at hspan
    dsimp only at hspan
    cases hslice : Slice.ofBuffer b with
    | error failure =>
      rw [hslice] at hspan
      exact absurd hspan (by simp)
    | ok slice =>
      rw [hslice] at hspan
      dsimp only at hspan
      by_cases hlong : f.config.maxKeySize < slice.length
      · rw [if_pos hlong] at hspan
        exact absurd hspan (by simp)
      · rw [if_neg hlong] at hspan
        obtain rfl := Except.ok.inj hspan
        have hnull := Slice.isNull_span (show Slice.ofValue (.buffer b) = .ok slice from hslice)
        rw [hnull, h]
        rfl
  | _ => exact absurd h Bool.false_ne_true

/-! ## Histories -/

/-- The records of a store of the engine in the course of a run, by the number of operations. -/
def history (s : Store) (ops : List Operation) (σ : Engine.StoreId) (t : Nat) : Engine.Records :=
  (s.after (ops.take t)).engine.recordsOf σ

theorem history_length (s : Store) (ops : List Operation) (σ : Engine.StoreId) :
    s.history ops σ ops.length = (s.after ops).engine.recordsOf σ := by
  unfold history
  rw [List.take_length]

/-- Each operation changes the record under one key at the most. -/
theorem history_edit (hs : Reachable s) (ops : List Operation) (σ : Engine.StoreId) (t : Nat) :
    Engine.Edit (s.history ops σ t) (s.history ops σ (t + 1)) := by
  unfold history
  by_cases ht : t < ops.length
  · rw [List.take_succ_eq_append_getElem ht, after_append]
    exact (perform_keeps (hs.after _).founded _).edits σ
  · rw [List.take_of_length_le (by omega), List.take_of_length_le (by omega)]
    exact .same

/-- How many operations of a run there had been when a key was absent for the last time. -/
def arrival (files : Files) (ops : List Operation) (σ : Engine.StoreId) (k : Bytes) : Nat :=
  Engine.arrival ((Store.initial files).history ops σ) ops.length k

/-- The engine keeps records in the order in which their keys arrived. -/
theorem recordsOf_pairwise (files : Files) (ops : List Operation) (σ : Engine.StoreId) :
    (((Store.initial files).after ops).engine.recordsOf σ).keys.Pairwise fun a b =>
      arrival files ops σ a < arrival files ops σ b := by
  rw [← history_length]
  exact Engine.keys_pairwise_arrival rfl (history_edit (.initial files) ops σ) ops.length

/-! ## All records, in their order -/

/-- An open family gives out all its records, each of them once, whatever the comparison answers. If
the comparison is a total preorder on the stored keys, they come in its order, and those that
compare equal come in the order in which their keys arrived, which is when they were absent for the
last time. A start key, when the comparison is a total preorder on it too, leaves out the records at
the beginning that are below it. -/
theorem range_in_order {files : Files} {ops : List Operation}
    (hs : (Store.initial files).after ops = s) {id : FamilyId} (hopen : s.isOpenFamily id = true)
    (he : Untroubled s.engine) :
    ∃ config fam rs, s.config? id = some config ∧ s.engineFamily? id = some fam ∧
      s.Yields id .null rs ∧ (rs.map Prod.fst).Nodup ∧
      (∀ k v, (k, v) ∈ rs ↔ (s.stored id).get? k = some v) ∧
      (Engine.Orders config.funcs (s.stored id).keys →
        rs.Pairwise (Engine.Before config.funcs (arrival files ops fam.store))) ∧
      ∀ start : Value, start.isKey config.maxKeySize = true → start.isStart = true →
        Engine.Orders config.funcs (start.contents :: (s.stored id).keys) →
        s.Yields id start (rs.dropWhile fun r => config.funcs.rank r.1 start.contents == .lt) := by
  have hreach : Reachable s := hs ▸ (Reachable.initial files).after ops
  obtain ⟨f, fh, hserves⟩ := exists_serves hopen
  obtain ⟨fam, hin, hconfig, hfam⟩ := hreach.founded.exists_inUse hserves
  have hfuncs : fam.config.funcs = f.config.funcs := congrArg DataRecord.funcs hconfig
  have hconfig' : s.config? id = some f.config := by
    unfold config?
    rw [hserves.1]
    rfl
  have hnodup : (s.stored id).keys.Nodup := by
    rw [stored_eq hfam]
    exact hreach.founded.housed.nodup_recordsOf fam.store
  have harrival : (s.stored id).keys.Pairwise fun a b =>
      arrival files ops fam.store a < arrival files ops fam.store b := by
    rw [stored_eq hfam, ← hs]
    exact recordsOf_pairwise files ops fam.store
  have hperm := Engine.perm_sorted f.config.funcs (s.stored id)
  have hyields : ∀ {start span}, f.startSpan start = .ok span →
      s.Yields id start (Engine.selected f.config.funcs (s.stored id) span) := by
    intro start span hspan
    rw [← hfuncs]
    exact yields_selected hreach he hserves hfam hspan
  refine ⟨f.config, fam, Engine.Sort.sort (Engine.precedes f.config.funcs) (s.stored id).entries,
    hconfig', hfam, ?_, ?_, fun k v => ?_, fun horders => ?_, fun start hkey hstart horders => ?_⟩
  · have hspan : f.startSpan .null = .ok (Span.null 0) := rfl
    have hall := hyields hspan
    rw [Engine.selected_of_isNull rfl] at hall
    exact hall
  · exact (hperm.map Prod.fst).nodup_iff.2 hnodup
  · rw [hperm.mem_iff, Table.get?_eq_some_iff hnodup]
  · exact Engine.sorted_pairwise horders harrival
  · obtain ⟨span, hspan, hnull, hread⟩ := Family.startSpan_of_isStart hkey hstart
    have hpart := hyields hspan
    rw [← hread] at horders ⊢
    rw [Engine.selected_of_start hnull horders harrival] at hpart
    exact hpart

/-! ## Keys of the same length -/

/-- Data functions that compare keys by their lengths. -/
def byLength : DataFuncs :=
  { DataFuncs.Builtin.funcs .default with
    compare := fun a b => .ok (DataFuncs.rankValue (compare a.length b.length)) }

/-- A run with keys of two lengths, in which the first short key is removed and comes again. -/
def writeLengths : List Operation :=
  [.connect (.str "db") .defaults false, .createFamily 0 (.ofInstance byLength) .null,
    .point 0 (.insert (.bytes [1]) (.bytes [1])), .point 0 (.insert (.bytes [5, 5]) (.bytes [2])),
    .point 0 (.insert (.bytes [2]) (.bytes [3])), .point 0 (.delete (.bytes [1])),
    .point 0 (.insert (.bytes [1]) (.bytes [4])), .point 0 (.insert (.bytes [2]) (.bytes [5]))]

/-- The store after that run. -/
def lengths : Store := (Store.initial (.empty "/")).after writeLengths

/-- Of the two short keys, the one that came again is the last one. -/
theorem lengths_in_order : ∃ config fam rs, lengths.config? 0 = some config ∧
    lengths.engineFamily? 0 = some fam ∧ lengths.Yields 0 .null rs ∧
    ([1], [4]) ∈ rs ∧ ([2], [5]) ∈ rs ∧
    rs.Pairwise (Engine.Before config.funcs (arrival (.empty "/") writeLengths fam.store)) ∧
    arrival (.empty "/") writeLengths fam.store [2] = 4 ∧
    arrival (.empty "/") writeLengths fam.store [1] = 6 ∧
    lengths.Yields 0 (.bytes [0, 0])
      (rs.dropWhile fun r => config.funcs.rank r.1 [0, 0] == .lt) := by
  have hrun : (Store.initial (.empty "/")).after writeLengths = lengths := rfl
  have hopen : lengths.isOpenFamily 0 = true := by decide +kernel
  have hposition : lengths.engine.failIterationAt = none := by decide +kernel
  have hstart : Engine.Run.pendingStatus lengths.engine .iteratorInit = Status.success := by
    decide +kernel
  have hfirst : (lengths.stored 0).get? [1] = some [4] := by decide +kernel
  have hsecond : (lengths.stored 0).get? [2] = some [5] := by decide +kernel
  have horders : (lengths.config? 0).all (fun c =>
      (Value.bytes [0, 0]).isKey c.maxKeySize &&
        decide (Engine.Orders c.funcs ([0, 0] :: (lengths.stored 0).keys))) = true := by
    decide +kernel
  have harrivals : (lengths.engineFamily? 0).all (fun fam =>
      arrival (.empty "/") writeLengths fam.store [2] == 4 &&
        arrival (.empty "/") writeLengths fam.store [1] == 6) = true := by decide +kernel
  obtain ⟨config, fam, rs, hconfig, hfam, hall, -, hmem, horder, hpart⟩ :=
    range_in_order hrun hopen ⟨hstart, hposition⟩
  rw [hconfig, Option.all_some] at horders
  rw [hfam, Option.all_some] at harrivals
  obtain ⟨hkey, hpre⟩ := Bool.and_eq_true_iff.1 horders
  obtain ⟨htwo, hone⟩ := Bool.and_eq_true_iff.1 harrivals
  have hpre' := of_decide_eq_true hpre
  refine ⟨config, fam, rs, hconfig, hfam, hall, (hmem _ _).2 hfirst, (hmem _ _).2 hsecond,
    horder (hpre'.mono (List.subset_cons_self _ _)), beq_iff_eq.1 htwo, beq_iff_eq.1 hone, ?_⟩
  exact hpart (.bytes [0, 0]) hkey rfl hpre'

end Store

end FamilyStore
