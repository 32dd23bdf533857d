import FamilyStore.Proofs.Operation
import FamilyStore.Proofs.Table
import Mathlib.Data.Finmap

/-!
What families mean: finite maps from byte strings to byte strings.

A family owns a map of its own. A point call asks the map of its family, or changes it under one
key; whatever the arguments are made of, only the bytes that they cover count. A call whose key is
missing, too long or no buffer, or whose value is no buffer, is refused and changes no map.
-/

namespace FamilyStore

/-- The values of a family, by key. -/
abbrev Content := Finmap fun _ : Bytes => Bytes

/-! ## Records as a map -/

namespace Engine

/-- The map of some records. -/
def contentOf (R : Records) : Content := R.entries.foldr (fun e m => m.insert e.1 e.2) ∅

theorem lookup_contentOf (R : Records) (k : Bytes) : (contentOf R).lookup k = R.get? k := by
  obtain ⟨es⟩ := R
  induction es with
  | nil => exact Finmap.lookup_empty k
  | cons e es ih =>
    show ((contentOf ⟨es⟩).insert e.1 e.2).lookup k = if e.1 = k then some e.2 else Table.find? k es
    by_cases hk : e.1 = k
    · rw [if_pos hk, ← hk, Finmap.lookup_insert]
    · rw [if_neg hk, Finmap.lookup_insert_of_ne _ (Ne.symm hk)]
      exact ih

theorem contentOf_set (R : Records) (k v : Bytes) :
    contentOf (R.set k v) = (contentOf R).insert k v := by
  refine Finmap.ext_lookup fun j => ?_
  rw [lookup_contentOf, Table.get?_set]
  by_cases hj : j = k
  · rw [if_pos hj, hj, Finmap.lookup_insert]
  · rw [if_neg hj, Finmap.lookup_insert_of_ne _ hj, lookup_contentOf]

theorem contentOf_erase (R : Records) (k : Bytes) :
    contentOf (R.erase k) = (contentOf R).erase k := by
  refine Finmap.ext_lookup fun j => ?_
  rw [lookup_contentOf, Table.get?_erase]
  by_cases hj : j = k
  · rw [if_pos hj, hj, Finmap.lookup_erase]
  · rw [if_neg hj, Finmap.lookup_erase_ne hj, lookup_contentOf]

end Engine

/-! ## Calls on a map -/

/-- Whether a value is a buffer. -/
def Value.isBuffer : Value → Bool
  | .buffer _ => true
  | _ => false

/-- Whether a value can be handed to the engine: nothing at all, or a buffer of the right sort. -/
def Value.isAccepted (v : Value) : Bool := (Slice.ofValue v).isOk

/-- Whether a value is a key within a limit. -/
def Value.isKey (v : Value) (limit : Nat) : Bool :=
  v.isBuffer && v.isAccepted && decide (v.contents.length ≤ limit)

/-- What the callback for a delta gives: there is one for a key with a value, and one for a key
without. -/
def DataFuncs.combine (f : DataFuncs) (old : Option Bytes) (key delta : Bytes) :
    Attempt StrayStatus Returned :=
  match old with
  | some value => f.merge key (some value) delta
  | none => f.mergeFinal key delta

/-- What a delta makes of the value of a key, if there is one. -/
def DataFuncs.merged (f : DataFuncs) (old : Option Bytes) (key delta : Bytes) :
    Attempt StrayStatus Bytes :=
  f.combine old key delta >>= Returned.toBytes

namespace Store

namespace PointCall

/-- The key of a call. -/
def key : PointCall → Value
  | .insert key _ | .update key _ | .delete key | .lookup key | .get key _ | .contains key => key

/-- What a call hands over beside its key. -/
def argument : PointCall → Value
  | .insert _ value => value
  | .update _ delta => delta
  | _ => .null

/-- Whether a family with a limit for its keys takes a call. -/
def fits (call : PointCall) (limit : Nat) : Bool :=
  call.key.isKey limit && call.argument.isAccepted

/-- The end of an update: what the merge gave is written, unless it raised something. -/
def writeMerged (m : Content) (key : Bytes) :
    Attempt StrayStatus Bytes → Except Failure Reply × Content
  | .ok bs => (.ok .done, m.insert key bs)
  | .error raised => (.error (Run.statusFailure .update raised.status), m)

/-- What a call replies for a map, and the map after it. -/
def onMap (f : DataFuncs) (m : Content) : PointCall → Except Failure Reply × Content
  | .insert key value => (.ok .done, m.insert key.contents value.contents)
  | .update key delta =>
    writeMerged m key.contents (f.merged (m.lookup key.contents) key.contents delta.contents)
  | .delete key => (.ok .done, m.erase key.contents)
  | .lookup key => (.ok (.found (m.lookup key.contents)), m)
  | .get key default =>
    (.ok (.value (((m.lookup key.contents).map Value.bytes).getD default)), m)
  | .contains key => (.ok (.flag (m.lookup key.contents).isSome), m)

/-- A call leaves the map alone under all keys but its own. -/
theorem lookup_onMap (f : DataFuncs) (m : Content) (call : PointCall) {k : Bytes}
    (hk : k ≠ call.key.contents) : (call.onMap f m).2.lookup k = m.lookup k := by
  cases call with
  | insert key value => exact Finmap.lookup_insert_of_ne m hk
  | update key delta =>
    unfold onMap
    dsimp only
    cases f.merged (m.lookup key.contents) key.contents delta.contents with
    | ok bs => exact Finmap.lookup_insert_of_ne m hk
    | error failure => rfl
  | delete key => exact Finmap.lookup_erase_ne hk
  | lookup key | get key default | contains key => rfl

end PointCall

/-- The maps of all families after a call on one of them. -/
def onMaps (configs : FamilyId → Option DataConfig) (maps : FamilyId → Content)
    (call : FamilyId × PointCall) : FamilyId → Content :=
  match configs call.1 with
  | none => maps
  | some config =>
    if call.2.fits config.maxKeySize then
      Function.update maps call.1 (call.2.onMap config.funcs (maps call.1)).2
    else maps

section

variable {configs : FamilyId → Option DataConfig} {maps : FamilyId → Content} {id : FamilyId}
  {call : PointCall} {config : DataConfig}

theorem onMaps_of_fits (hc : configs id = some config) (hf : call.fits config.maxKeySize = true) :
    onMaps configs maps (id, call) =
      Function.update maps id (call.onMap config.funcs (maps id)).2 := by
  unfold onMaps
  dsimp only
  rw [hc]
  exact if_pos hf

theorem onMaps_of_not (hc : configs id = some config) (hf : call.fits config.maxKeySize = false) :
    onMaps configs maps (id, call) = maps := by
  unfold onMaps
  dsimp only
  rw [hc]
  exact if_neg (by rw [hf]; exact Bool.false_ne_true)

/-- A call leaves the maps of all other families alone, and its own under all other keys. -/
theorem lookup_onMaps (j : FamilyId) (k : Bytes) (h : j ≠ id ∨ k ≠ call.key.contents) :
    (onMaps configs maps (id, call) j).lookup k = (maps j).lookup k := by
  cases hc : configs id with
  | none =>
    unfold onMaps
    dsimp only
    rw [hc]
  | some config =>
    cases hf : call.fits config.maxKeySize with
    | false => rw [onMaps_of_not hc hf]
    | true =>
      rw [onMaps_of_fits hc hf]
      by_cases hj : j = id
      · rw [hj, Function.update_self]
        exact PointCall.lookup_onMap _ _ call (h.resolve_left (not_not_intro hj))
      · rw [Function.update_of_ne hj]

/-- Maps that agree on some families agree on them after a call on one of these. -/
theorem onMaps_congr {ids : Set FamilyId} {maps' : FamilyId → Content}
    (h : ∀ j ∈ ids, maps j = maps' j) (hid : id ∈ ids) :
    ∀ j ∈ ids, onMaps configs maps (id, call) j = onMaps configs maps' (id, call) j := by
  intro j hj
  cases hc : configs id with
  | none =>
    unfold onMaps
    dsimp only
    rw [hc]
    exact h j hj
  | some config =>
    cases hf : call.fits config.maxKeySize with
    | false =>
      rw [onMaps_of_not hc hf, onMaps_of_not hc hf]
      exact h j hj
    | true =>
      rw [onMaps_of_fits hc hf, onMaps_of_fits hc hf, h id hid]
      by_cases hne : j = id
      · rw [hne, Function.update_self, Function.update_self]
      · rw [Function.update_of_ne hne, Function.update_of_ne hne]
        exact h j hj

end

end Store

end FamilyStore
