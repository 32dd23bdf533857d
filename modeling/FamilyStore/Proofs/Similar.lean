import FamilyStore.Proofs.Engine.Twins
import Mathlib.Data.List.Forall2

/-!
Two pieces of work, side by side.

`Similar` is what `Agrees` says of one piece of work, for two that may get different values on the
way: from related states they come to related results and leave related states behind. Where they
have only looked at different values that they treat alike, the whole agrees again.
-/

namespace FamilyStore

section

variable {ε σ α α' β β' : Type}

/-- Results that are related, or the same failure. -/
inductive Matches (V : α → α' → Prop) : Except ε α → Except ε α' → Prop
  | ok {a : α} {a' : α'} (h : V a a') : Matches V (.ok a) (.ok a')
  | error (e : ε) : Matches V (.error e) (.error e)

/-- Results that are related by equality are equal. -/
theorem Matches.eq {r r' : Except ε α} (h : Matches Eq r r') : r = r' := by
  cases h with
  | ok h => exact congrArg Except.ok h
  | error e => rfl

/-- Work that comes to related results in related states, and leaves related states behind. -/
def Similar (R : σ → σ → Prop) (V : α → α' → Prop) (x : ExceptT ε (StateM σ) α)
    (y : ExceptT ε (StateM σ) α') : Prop :=
  ∀ s t, R s t → Matches V (x.run s).1 (y.run t).1 ∧ R (x.run s).2 (y.run t).2

namespace Similar

variable {R : σ → σ → Prop} {V : α → α' → Prop} {W : β → β' → Prop}

theorem pure {a : α} {a' : α'} (h : V a a') :
    Similar R V (pure a : ExceptT ε (StateM σ) α) (pure a' : ExceptT ε (StateM σ) α') :=
  fun _ _ hst => ⟨.ok h, hst⟩

theorem throw (e : ε) :
    Similar R V (throw e : ExceptT ε (StateM σ) α) (throw e : ExceptT ε (StateM σ) α') :=
  fun _ _ hst => ⟨.error e, hst⟩

theorem modify {f g : σ → σ} (h : ∀ s t, R s t → R (f s) (g t)) :
    Similar R Eq (modify f : ExceptT ε (StateM σ) PUnit)
      (modify g : ExceptT ε (StateM σ) PUnit) :=
  fun s t hst => ⟨.ok rfl, h s t hst⟩

theorem of_agrees {x : ExceptT ε (StateM σ) α} (h : Agrees R x) : Similar R Eq x x := by
  intro s t hst
  obtain ⟨hreply, hstate⟩ := h s t hst
  refine ⟨?_, hstate⟩
  rw [hreply]
  cases (x.run s).1 with
  | ok a => exact .ok rfl
  | error e => exact .error e

theorem of_eq {x y : ExceptT ε (StateM σ) α} (h : y = x) (hx : Agrees R x) : Similar R Eq x y := by
  rw [h]
  exact of_agrees hx

theorem agrees {x : ExceptT ε (StateM σ) α} (h : Similar R Eq x x) : Agrees R x := by
  intro s t hst
  obtain ⟨hreply, hstate⟩ := h s t hst
  exact ⟨hreply.eq.symm, hstate⟩

theorem bind {x : ExceptT ε (StateM σ) α} {y : ExceptT ε (StateM σ) α'}
    {f : α → ExceptT ε (StateM σ) β} {g : α' → ExceptT ε (StateM σ) β'} (hx : Similar R V x y)
    (hf : ∀ a a', V a a' → Similar R W (f a) (g a')) : Similar R W (x >>= f) (y >>= g) := by
  intro s t hst
  have hxs := hx s t hst
  rw [run_bind, run_bind]
  generalize x.run s = answer at hxs ⊢
  generalize y.run t = answer' at hxs ⊢
  obtain ⟨r, s'⟩ := answer
  obtain ⟨r', t'⟩ := answer'
  obtain ⟨hr, hst'⟩ := hxs
  dsimp only at hr
  cases hr with
  | ok h => exact hf _ _ h s' t' hst'
  | error e => exact ⟨.error e, hst'⟩

/-- The first part comes to the same. -/
theorem bind_agrees {x : ExceptT ε (StateM σ) α} {f : α → ExceptT ε (StateM σ) β}
    {g : α → ExceptT ε (StateM σ) β'} (hx : Agrees R x) (hf : ∀ a, Similar R W (f a) (g a)) :
    Similar R W (x >>= f) (x >>= g) :=
  bind (of_agrees hx) fun a _ h => h ▸ hf a

theorem get_bind {f : σ → ExceptT ε (StateM σ) α} {g : σ → ExceptT ε (StateM σ) α'}
    (h : ∀ s t, R s t → Matches V ((f s).run s).1 ((g t).run t).1 ∧
      R ((f s).run s).2 ((g t).run t).2) : Similar R V (get >>= f) (get >>= g) := by
  intro s t hst
  rw [run_bind, run_bind, run_get, run_get]
  exact h s t hst

theorem ite {c : Prop} [Decidable c] {x y : ExceptT ε (StateM σ) α}
    {x' y' : ExceptT ε (StateM σ) α'} (hx : Similar R V x x') (hy : Similar R V y y') :
    Similar R V (if c then x else y) (if c then x' else y') := by
  split
  · exact hx
  · exact hy

/-- A refusal in front of further work. -/
theorem guard {c : Prop} [Decidable c] {x : ExceptT ε (StateM σ) PUnit}
    {f : PUnit → ExceptT ε (StateM σ) β} {g : PUnit → ExceptT ε (StateM σ) β'} (hx : Agrees R x)
    (hf : Similar R W (f ⟨⟩) (g ⟨⟩)) :
    Similar R W (if c then x >>= f else f ⟨⟩) (if c then x >>= g else g ⟨⟩) :=
  ite (bind_agrees hx fun _ => hf) hf

end Similar

/-- What differs on the way is treated alike. -/
theorem Agrees.bind_similar {R : σ → σ → Prop} {V : α → α → Prop} {x : ExceptT ε (StateM σ) α}
    {f : α → ExceptT ε (StateM σ) β} (hx : Similar R V x x)
    (hf : ∀ a a', V a a' → Similar R Eq (f a) (f a')) : Agrees R (x >>= f) :=
  (Similar.bind hx hf).agrees

end

/-! ## Tables -/

namespace Table

variable {κ ν : Type} {V : ν → ν → Prop} {t t' : Table κ ν}

/-- Tables with the same keys in the same order, and related values. -/
def Related (V : ν → ν → Prop) (t t' : Table κ ν) : Prop :=
  List.Forall₂ (fun e e' => e.1 = e'.1 ∧ V e.2 e'.2) t.entries t'.entries

theorem Related.size (h : Related V t t') : t'.size = t.size :=
  (List.Forall₂.length_eq h).symm

variable [DecidableEq κ]

/-- Looking a key up finds related values, or none in either table. -/
theorem Related.get? (h : Related V t t') (k : κ) :
    (t.get? k = none ∧ t'.get? k = none) ∨
      ∃ v v', t.get? k = some v ∧ t'.get? k = some v' ∧ V v v' := by
  obtain ⟨es⟩ := t
  obtain ⟨es'⟩ := t'
  unfold Related at h
  unfold Table.get?
  dsimp only at h ⊢
  induction h with
  | nil => exact .inl ⟨rfl, rfl⟩
  | @cons e e' es es' he hes ih =>
    unfold find?
    rw [← he.1]
    by_cases hk : e.1 = k
    · rw [if_pos hk, if_pos hk]
      exact .inr ⟨_, _, rfl, rfl, he.2⟩
    · rw [if_neg hk, if_neg hk]
      exact ih

theorem Related.set (h : Related V t t') (k : κ) {v v' : ν} (hv : V v v') :
    Related V (t.set k v) (t'.set k v') := by
  obtain ⟨es⟩ := t
  obtain ⟨es'⟩ := t'
  unfold Related at h ⊢
  unfold Table.set
  dsimp only at h ⊢
  induction h with
  | nil => exact .cons ⟨rfl, hv⟩ .nil
  | @cons e e' es es' he hes ih =>
    unfold put
    rw [← he.1]
    by_cases hk : e.1 = k
    · rw [if_pos hk, if_pos hk]
      exact .cons ⟨rfl, hv⟩ hes
    · rw [if_neg hk, if_neg hk]
      exact .cons he ih

end Table

end FamilyStore
