import FamilyStore.Proofs.Creation

/-!
Paths without zero characters, and files that stay readable.

The absolute form of a path has no other characters than the path, the directory in which work is
done, and slashes. A file that can be read can be read after another one was written, since only a
place without a directory is written to; if the two are one file, the new bytes are read.
-/

namespace FamilyStore.Files

/-! ## Zero characters -/

theorem mem_of_mem_splitSlashes {cs name : List Char} (hn : name ∈ splitSlashes cs) {c : Char}
    (hc : c ∈ name) : c ∈ cs := by
  induction cs generalizing name with
  | nil =>
    simp only [splitSlashes, List.mem_singleton] at hn
    simp [hn] at hc
  | cons d cs ih =>
    unfold splitSlashes at hn
    split at hn
    · simp only [List.mem_singleton] at hn
      subst hn
      simp at hc
      simp [hc]
    · rename_i first rest heq
      split at hn
      · rcases List.mem_cons.1 hn with rfl | hn
        · simp at hc
        · exact List.mem_cons_of_mem _ (ih (heq ▸ hn) hc)
      · rcases List.mem_cons.1 hn with rfl | hn
        · rcases List.mem_cons.1 hc with rfl | hc
          · exact List.mem_cons_self
          · exact List.mem_cons_of_mem _ (ih (heq ▸ List.mem_cons_self) hc)
        · exact List.mem_cons_of_mem _ (ih (heq ▸ List.mem_cons_of_mem _ hn) hc)

/-- Normalising takes names away and puts none in. -/
theorem mem_of_mem_foldl_normaliseName {names kept : List String} {name : String}
    (h : name ∈ names.foldl normaliseName kept) : name ∈ kept ∨ name ∈ names := by
  induction names generalizing kept with
  | nil => exact .inl h
  | cons n names ih =>
    rcases ih h with hk | hn
    · unfold normaliseName at hk
      split at hk
      · exact .inl hk
      · split at hk
        · exact .inl (List.mem_of_mem_drop hk)
        · rcases List.mem_cons.1 hk with rfl | hk
          · exact .inr List.mem_cons_self
          · exact .inl hk
    · exact .inr (List.mem_cons_of_mem _ hn)

theorem mem_of_mem_intercalate {sep : List Char} {names : List (List Char)} {c : Char}
    (h : c ∈ sep.intercalate names) : c ∈ sep ∨ ∃ name ∈ names, c ∈ name := by
  induction names with
  | nil => simp [List.intercalate] at h
  | cons name names ih =>
    cases names with
    | nil => exact .inr ⟨name, by simp, by simpa [List.intercalate] using h⟩
    | cons next names =>
      rw [List.intercalate_cons_cons, List.append_assoc, List.mem_append, List.mem_append] at h
      rcases h with h | h | h
      · exact .inr ⟨name, by simp, h⟩
      · exact .inl h
      · refine (ih h).imp id ?_
        rintro ⟨other, hmem, hc⟩
        exact ⟨other, List.mem_cons_of_mem _ hmem, hc⟩

/-- A normalised path has no new characters but slashes. -/
theorem mem_of_mem_normalise {path : String} {c : Char} (h : c ∈ (normalise path).toList) :
    c = '/' ∨ c ∈ path.toList := by
  unfold normalise at h
  rw [String.toList_append, String.toList_intercalate] at h
  rcases List.mem_append.1 h with hlead | hnames
  · unfold leadingSlashes at hlead
    split at hlead
    · simp_all
    · split at hlead
      · simp_all
      · split at hlead
        · simp_all
        · simp at hlead
  · rcases mem_of_mem_intercalate hnames with hsep | ⟨_, hname, hc⟩
    · simp_all
    · obtain ⟨name, hmem, rfl⟩ := List.mem_map.1 hname
      rcases mem_of_mem_foldl_normaliseName (List.mem_reverse.1 hmem) with hnil | hmem
      · exact absurd hnil List.not_mem_nil
      · obtain ⟨cs, hcs, rfl⟩ := List.mem_map.1 hmem
        rw [String.toList_ofList] at hc
        exact .inr (mem_of_mem_splitSlashes hcs hc)

theorem hasZero_absolutePath {home path : String} (hh : hasZero home = false)
    (hp : hasZero path = false) : hasZero (absolutePath home path) = false := by
  have hzero : Char.ofNat 0 ≠ '/' := by decide
  unfold hasZero at hh hp ⊢
  rw [← Bool.not_eq_true, List.contains_iff_mem] at hh hp ⊢
  intro h
  rcases mem_of_mem_normalise h with hslash | hjoin
  · exact hzero hslash
  · unfold join at hjoin
    split at hjoin
    · exact hp hjoin
    · split at hjoin
      · simp_all [String.toList_append]
      · simp_all [String.toList_append]

/-! ## Files -/

variable {t t' : Files} {path other : String} {content : Bytes} {place : Place}

/-- Writing leaves all directories. -/
theorem directory_of_write (h : t.write other content = .ok t')
    (hd : t.node? place = some .directory) : t'.node? place = some .directory := by
  obtain ⟨p, hl, hnode, -⟩ := exists_place_of_write h
  rw [(node?_write h hl).2 place]
  · exact hd
  · rintro rfl
    exact hnode hd

/-- A path still leads where it led after a file was written. -/
theorem locate_of_write (h : t.write other content = .ok t') (hl : t.locate path = .ok place) :
    t'.locate path = .ok place := by
  have hhome : t'.home = t.home := by
    obtain ⟨_, -, -, rfl⟩ := exists_place_of_write h
    rfl
  have hstep : ∀ above name below, t.enter above name = .ok below →
      t'.enter above name = .ok below := by
    intro above name below henter
    unfold enter at henter ⊢
    split at henter
    · exact absurd henter (by simp)
    · exact absurd henter (by simp)
    · rename_i hdir
      rw [directory_of_write h hdir]
      exact henter
  have hwalk : ∀ (names : List String) above below, names.foldlM t.enter above = .ok below →
      names.foldlM t'.enter above = .ok below := by
    intro names
    induction names with
    | nil => exact fun _ _ hfold => hfold
    | cons name names ih =>
      intro above below hfold
      rw [List.foldlM_cons] at hfold ⊢
      obtain ⟨next, henter, hfold⟩ := exists_of_bind_ok hfold
      rw [hstep above name next henter]
      exact ih next below hfold
  unfold locate walk at hl ⊢
  split at hl
  · exact absurd hl (by simp)
  · split at hl
    · exact absurd hl (by simp)
    · rename_i hempty hlong
      rw [if_neg hempty, if_neg hlong, hhome]
      exact hwalk _ _ _ hl

theorem read_eq_ok_iff : t.read path = .ok content ↔
    ∃ place, t.locate path = .ok place ∧ t.node? place = some (.file content) := by
  unfold read find
  constructor
  · intro h
    cases hl : t.locate path with
    | error refusal =>
      rw [hl] at h
      exact absurd h (by simp)
    | ok place =>
      rw [hl] at h
      dsimp only at h
      cases hn : t.node? place with
      | none =>
        rw [hn] at h
        exact absurd h (by simp)
      | some node =>
        rw [hn] at h
        cases node with
        | directory => exact absurd h (by simp)
        | file bytes => exact ⟨place, rfl, by rw [hn, Except.ok.inj h]⟩
  · rintro ⟨place, hl, hn⟩
    rw [hl]
    dsimp only
    rw [hn]

/-- What was written is read. -/
theorem read_of_write (h : t.write path content = .ok t') : t'.read path = .ok content := by
  obtain ⟨place, hl, -, -⟩ := exists_place_of_write h
  exact read_eq_ok_iff.2 ⟨place, locate_of_write h hl, (node?_write h hl).1⟩

/-- A file with the same bytes as the one that is written stays, be it the same file or not. -/
theorem read_stays (hr : t.read path = .ok content) (h : t.write other content = .ok t') :
    t'.read path = .ok content := by
  obtain ⟨place, hl, hn⟩ := read_eq_ok_iff.1 hr
  obtain ⟨place', hl', -, -⟩ := exists_place_of_write h
  refine read_eq_ok_iff.2 ⟨place, locate_of_write h hl, ?_⟩
  by_cases heq : place = place'
  · rw [heq]
    exact (node?_write h hl').1
  · rw [(node?_write h hl').2 place heq]
    exact hn

theorem contains_of_read (hz : hasZero path = false) (hr : t.read path = .ok content) :
    t.contains path = true := by
  obtain ⟨place, hl, hn⟩ := read_eq_ok_iff.1 hr
  exact contains_of_node hz hl hn

end FamilyStore.Files
