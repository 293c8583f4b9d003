/-
  SatReplay/Proofs/CommandLine/Files.lean
  =======================================
  **A file that was written is read.**  A write puts its content where no
  directory is, so the places that its path leads through are others than the
  one it writes to.  They are still directories afterwards, and the same path
  leads to the new content (`FileStore.read_of_write`).  All other files are as
  they were (`FileStore.puts_of_write`).
-/
import SatReplay.CommandLine.Files
import SatReplay.Proofs.Results

namespace SatReplay.CommandLine

namespace FileStore

/-! ### Places after a write -/

theorem checkDirectory_eq_ok_iff {s : FileStore} {p : Place} :
    s.checkDirectory p = .ok () ↔ s.file? p = none ∧ s.isDirectory p = true := by
  rw [checkDirectory]
  cases s.file? p with
  | some content => simp
  | none =>
    cases s.isDirectory p with
    | false => simp
    | true => simp

section

variable {s : FileStore} {place : Place} (content : Bytes)

theorem file?_put : (s.put place content).file? place = some content := by
  simp [put, file?]

theorem file?_put_of_ne {p : Place} (h : p ≠ place) :
    (s.put place content).file? p = s.file? p := by
  have hfilter : ∀ files : List (Place × Bytes),
      (files.filter fun file => file.1 ≠ place).lookup p = files.lookup p := by
    intro files
    induction files with
    | nil => rfl
    | cons file files ih =>
      obtain ⟨q, held⟩ := file
      by_cases hq : q = place
      · have hother : (p == q) = false := by simpa [hq] using h
        rw [List.filter_cons_of_neg (by simp [hq]), List.lookup_cons, hother, ih]
      · rw [List.filter_cons_of_pos (by simp [hq]), List.lookup_cons, List.lookup_cons, ih]
  have hnew : (p == place) = false := by simpa using h
  rw [put, file?, List.lookup_cons, hnew]
  exact hfilter s.files

theorem isDirectory_put {p : Place} (h : s.isDirectory p = true) :
    (s.put place content).isDirectory p = true := by
  simp only [isDirectory, put, Bool.or_eq_true, List.any_cons, List.any_eq_true] at h ⊢
  rcases h with hlisted | ⟨⟨q, held⟩, hmem, habove⟩
  · exact Or.inl hlisted
  · -- a file that was there makes way for the new one, at the same place
    by_cases hq : q = place
    · exact Or.inr (Or.inl (hq ▸ habove))
    · exact Or.inr (Or.inr ⟨(q, held), List.mem_filter.2 ⟨hmem, by simp [hq]⟩, habove⟩)

variable (hplace : s.isDirectory place = false)

include hplace

theorem checkDirectory_put {p : Place} (h : s.checkDirectory p = .ok ()) :
    (s.put place content).checkDirectory p = .ok () := by
  obtain ⟨hfile, hdirectory⟩ := checkDirectory_eq_ok_iff.1 h
  have hne : p ≠ place := by
    rintro rfl
    rw [hdirectory] at hplace
    cases hplace
  rw [checkDirectory_eq_ok_iff, file?_put_of_ne content hne]
  exact ⟨hfile, isDirectory_put content hdirectory⟩

theorem step_put {p q : Place} {name : String} (h : s.step p name = .ok q) :
    (s.put place content).step p name = .ok q := by
  obtain ⟨_, hcheck, hrest⟩ := bind_eq_ok_iff.1 h
  rw [step, checkDirectory_put content hplace hcheck]
  exact hrest

theorem follow_put {names : List String} : ∀ {p q : Place}, s.follow p names = .ok q →
    (s.put place content).follow p names = .ok q := by
  induction names with
  | nil => exact fun h => h
  | cons name names ih =>
    intro p q h
    rw [follow, List.foldlM_cons] at h ⊢
    obtain ⟨next, hstep, hrest⟩ := bind_eq_ok_iff.1 h
    rw [step_put content hplace hstep]
    exact ih hrest

end

/-- A write that succeeds puts its content where its path leads from then on. -/
theorem exists_place_of_write {s after : FileStore} {text : String} {content : Bytes}
    (h : s.write text content = .ok after) :
    ∃ path place, FileStore.path text = .ok path ∧ path.endsInSlash = false ∧
      after = s.put place content ∧ after.follow path.start path.names = .ok place := by
  rw [write] at h
  obtain ⟨path, hpath, h⟩ := bind_eq_ok_iff.1 h
  rcases hname : path.names.getLast? with _ | name
  · simp only [hname] at h
    cases h
  · simp only [hname] at h
    obtain ⟨directory, hfollow, h⟩ := bind_eq_ok_iff.1 h
    obtain ⟨_, hcheck, h⟩ := bind_eq_ok_iff.1 h
    split at h
    next => cases h
    next hslash =>
      obtain ⟨place, hstep, h⟩ := bind_eq_ok_iff.1 h
      split at h
      next => cases h
      next hfree =>
        obtain rfl := Except.ok.inj h
        have hplace : s.isDirectory place = false := by simpa using hfree
        obtain ⟨front, hnames⟩ := List.getLast?_eq_some_iff.1 hname
        rw [hnames, List.dropLast_concat] at hfollow
        refine ⟨path, place, hpath, by simpa using hslash, rfl, ?_⟩
        have hfront := follow_put content hplace hfollow
        rw [follow] at hfront ⊢
        rw [hnames, List.foldlM_append, hfront]
        show ([name].foldlM (s.put place content).step directory) = _
        rw [List.foldlM_cons, step_put content hplace hstep]
        rfl

theorem read_of_write {s after : FileStore} {text : String} {content : Bytes}
    (h : s.write text content = .ok after) : after.read text = .ok content := by
  obtain ⟨path, place, hpath, hslash, rfl, hfollow⟩ := exists_place_of_write h
  simp only [read, hpath, bind, Except.bind, hfollow, file?_put, hslash]
  rfl

/-- One file has this content afterwards, and nothing else has changed. -/
structure Puts (before : FileStore) (text : String) (content : Bytes) (after : FileStore) :
    Prop where
  read_eq : after.read text = .ok content
  directories_eq : after.directories = before.directories
  others : ∃ place, after.file? place = some content ∧
    ∀ other, other ≠ place → after.file? other = before.file? other

theorem puts_of_write {s after : FileStore} {text : String} {content : Bytes}
    (h : s.write text content = .ok after) : s.Puts text content after := by
  obtain ⟨path, place, -, -, hput, -⟩ := exists_place_of_write h
  refine ⟨read_of_write h, ?_, place, ?_, ?_⟩
  · rw [hput]
    rfl
  · rw [hput]
    exact file?_put content
  · intro other hother
    rw [hput]
    exact file?_put_of_ne content hother

end FileStore

end SatReplay.CommandLine
