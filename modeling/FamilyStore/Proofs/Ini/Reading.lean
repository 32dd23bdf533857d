import FamilyStore.Ini.Reader
import FamilyStore.Proofs.Ini.Options
import FamilyStore.Proofs.Text.Files

/-!
What lines do to a document.

No option comes twice in a section that was read: a line that would repeat an option ends the
reading, and lines that go on with an option change what it says but not which options there are.
Blank lines belong to the option before them but do not change its text.
-/

namespace FamilyStore.Ini

/-! ## Options that come once -/

theorem Document.Regular.setOptions {d : Document} (h : d.Regular) (heading : Line)
    {options : Options} (hn : options.keys.Nodup) : (d.setOptions heading options).Regular := by
  unfold Document.setOptions
  split
  · exact ⟨hn, h.sections⟩
  · refine ⟨h.defaults, fun hs => ?_⟩
    rcases Table.of_get?_set hs with ⟨-, rfl⟩ | ⟨-, hs⟩
    · exact hn
    · exact h.sections hs

theorem Document.regular_empty : Document.empty.Regular :=
  ⟨List.nodup_nil, fun h => absurd h (by simp [Document.empty, Table.get?_empty])⟩

namespace Reader

variable {r r' : Reader}

theorem regular_extend (h : r.document.Regular) (heading option value : Line) :
    (r.extend heading option value).document.Regular := by
  refine h.setOptions heading ?_
  unfold Table.modify
  split
  · exact Table.nodup_keys_set (h.optionsOf heading) _ _
  · exact h.optionsOf heading

theorem regular_skip (h : r.document.Regular) (comment : Bool) :
    (r.skip comment).document.Regular := by
  unfold skip
  split
  · split
    · exact h
    · exact regular_extend h _ _ _
  · exact h

theorem regular_openSection (h : r.document.Regular) {number : Nat} {name : Line}
    (hr : r.openSection number name = .ok r') : r'.document.Regular := by
  unfold openSection at hr
  split at hr
  · exact absurd hr (by simp)
  · cases hr
    dsimp only
    split
    · exact h
    · exact h.setOptions name List.nodup_nil

theorem regular_openOption (h : r.document.Regular) {number : Nat}
    {line heading name value : Line}
    (hr : r.openOption number line heading name value = .ok r') : r'.document.Regular := by
  have hreject : ∀ b : Bool, (if b then r.reject number line else r).document = r.document := by
    intro b
    cases b <;> rfl
  simp only [openOption, hreject] at hr
  split at hr
  · exact absurd hr (by simp)
  · cases hr
    exact h.setOptions heading (Table.nodup_keys_set (h.optionsOf heading) _ _)

theorem regular_begin (h : r.document.Regular) {number : Nat} {line stripped : Line}
    (hr : r.begin number line stripped = .ok r') : r'.document.Regular := by
  unfold begin at hr
  dsimp only at hr
  split at hr
  · refine regular_openSection ?_ hr
    exact h
  · exact absurd hr (by simp)
  · refine regular_openOption ?_ hr
    exact h
  · cases hr
    exact h

/-- A line leaves no option twice in a section. -/
theorem regular_step (h : r.document.Regular) {number : Nat} {line : Line}
    (hr : r.step number line = .ok r') : r'.document.Regular := by
  unfold step at hr
  dsimp only at hr
  split at hr
  · cases hr
    exact regular_skip h _
  · split at hr
    · split at hr
      · cases hr
        exact regular_extend h _ _ _
      · exact regular_begin h hr
    · exact regular_begin h hr

theorem regular_run (h : r.document.Regular) {number : Nat} {ls : List Line}
    (hr : r.run number ls = .ok r') : r'.document.Regular := by
  induction ls generalizing r number with
  | nil =>
    cases hr
    exact h
  | cons l ls ih =>
    simp only [run] at hr
    split at hr
    · rename_i next hstep
      exact ih (regular_step h hstep) hr
    · exact absurd hr (by simp)

theorem document_of_finish {d : Document} (h : r.finish = .ok d) : r.document = d := by
  unfold finish at h
  split at h
  · exact Except.ok.inj h
  · exact absurd h (by simp)

/-- No option comes twice in a section of a document that was read. -/
theorem regular_finish {source : String} {ls : List Line} {d : Document}
    (hr : (start source).run 1 ls = .ok r) (hf : r.finish = .ok d) : d.Regular :=
  document_of_finish hf ▸ regular_run Document.regular_empty hr

end Reader

/-! ## Blank lines -/

theorem intercalate_concat (sep l m : Line) (ls : List Line) :
    sep.intercalate (l :: ls ++ [m]) = sep.intercalate (l :: ls) ++ sep ++ m := by
  induction ls generalizing l with
  | nil => simp [List.intercalate_cons_cons, List.intercalate_singleton]
  | cons k ls ih =>
    have := ih k
    rw [List.cons_append] at this ⊢
    rw [List.cons_append, List.intercalate_cons_cons, List.intercalate_cons_cons, this]
    simp

/-- An empty line at the end of a value says nothing. -/
theorem joinLines_append_nil (ls : List Line) : joinLines (ls ++ [[]]) = joinLines ls := by
  cases ls with
  | nil => rfl
  | cons l ls =>
    rw [joinLines, intercalate_concat, List.append_nil,
      Text.stripRight_concat_blank _ (by decide), joinLines]

namespace Document

theorem optionsOf_defaultsName (d : Document) : d.optionsOf defaultsName = d.defaults :=
  if_pos rfl

theorem optionsOf_setOptions (d : Document) (heading other : Line) (options : Options) :
    (d.setOptions heading options).optionsOf other =
      if other = heading then options else d.optionsOf other := by
  unfold setOptions
  by_cases hd : heading = defaultsName
  · by_cases ho : other = heading
    · rw [if_pos hd, if_pos ho, ho, hd, optionsOf_defaultsName]
    · rw [if_pos hd, if_neg ho]
      have ho' : other ≠ defaultsName := fun h => ho (h.trans hd.symm)
      rw [optionsOf, optionsOf, if_neg ho', if_neg ho']
  · rw [if_neg hd]
    by_cases ho : other = heading
    · rw [if_pos ho, optionsOf, if_neg (ho ▸ hd), ho, Table.get?_set_self]
      rfl
    · rw [if_neg ho, optionsOf, optionsOf, Table.get?_set_ne _ ho]

theorem hasSection_setOptions {d : Document} {heading other : Line} {options : Options}
    (h : d.hasSection other = true) : (d.setOptions heading options).hasSection other = true := by
  unfold setOptions
  split
  · exact h
  · unfold hasSection Table.contains at h ⊢
    rw [Table.get?_set]
    split
    · rfl
    · exact h

theorem raw?_eq (d : Document) (heading name : Line) :
    d.raw? heading name = (((d.optionsOf heading).get? name).map joinLines).or
      (((d.optionsOf defaultsName).get? name).map joinLines) := by
  rw [raw?, Option.map_or, optionsOf_defaultsName]

end Document

namespace Reader

/-- A blank line behind the value of an option changes the text of no option. -/
theorem texts_extend_nil (r : Reader) (own option heading name : Line) :
    (((r.extend own option []).document.optionsOf heading).get? name).map joinLines =
      ((r.document.optionsOf heading).get? name).map joinLines := by
  rw [extend]
  dsimp only
  rw [Document.optionsOf_setOptions]
  split
  · rename_i hown
    rw [Table.get?_modify, hown]
    split
    · rename_i hname
      rw [hname, Option.map_map]
      exact Option.map_congr fun ls _ => joinLines_append_nil ls
    · rfl
  · rfl

/-- Blank lines and comments change the text of no option. -/
theorem raw?_skip (r : Reader) (comment : Bool) (heading name : Line) :
    (r.skip comment).document.raw? heading name = r.document.raw? heading name := by
  unfold skip
  split
  · split
    · rfl
    · rw [Document.raw?_eq, texts_extend_nil, texts_extend_nil, ← Document.raw?_eq]
  · rfl

theorem hasSection_skip {r : Reader} {heading : Line} (h : r.document.hasSection heading = true)
    (comment : Bool) : (r.skip comment).document.hasSection heading = true := by
  unfold skip
  split
  · split
    · exact h
    · exact Document.hasSection_setOptions h
  · exact h

end Reader

end FamilyStore.Ini
