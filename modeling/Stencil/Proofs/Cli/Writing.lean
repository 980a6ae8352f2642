/-
A file that was written can be read. Putting a file where there was none, or in place of another,
leaves every directory a directory with the names it had (`Extends`), so whatever path could be
followed before can be followed after. The path of the file itself then leads to it.

`text_of_write`: when a text is written to a path without a fault, the path holds that text.
-/
import Stencil.Cli.FileSystem
import Stencil.Proofs.Element.Quoting

namespace Stencil.Cli

/-! ## Trees -/

namespace FileTree

theorem get?_dir_cons (entries : List (String × FileTree)) (name : String) (names : List String) :
    (dir entries).get? (name :: names) = (entries.lookup name).bind fun t => t.get? names := by
  rw [get?]
  cases entries.lookup name <;> rfl

theorem put_dir_cons {entries : List (String × FileTree)} {name : String} {t : FileTree}
    (h : entries.lookup name = some t) (names : List String) (new : FileTree) :
    (dir entries).put (name :: names) new = dir (assign name (t.put names new) entries) := by
  rw [put.eq_def]
  simp only [h]

theorem put_nil (t new : FileTree) : t.put [] new = new := by
  unfold put
  rfl

theorem put_dir_singleton (entries : List (String × FileTree)) (name : String) (new : FileTree) :
    (dir entries).put [name] new = dir (assign name new entries) := by
  cases h : entries.lookup name with
  | none =>
    unfold put
    simp only [h]
  | some t => rw [put_dir_cons h, put_nil]

theorem lookup_assign (name other : String) (t : FileTree) (entries : List (String × FileTree)) :
    (assign name t entries).lookup other =
      if other = name then some t else entries.lookup other := by
  induction entries with
  | nil =>
    by_cases h : other = name
    · simp [assign, h]
    · have hne : (other == name) = false := by simpa using h
      simp [assign, List.lookup_cons, hne, h]
  | cons entry entries ih =>
    obtain ⟨n, u⟩ := entry
    unfold assign
    by_cases hn : n = name
    · subst hn
      by_cases h : other = n
      · simp [h]
      · have hne : (other == n) = false := by simpa using h
        simp [List.lookup_cons, hne, h]
    · by_cases h : other = n
      · simp [hn, h]
      · have hne : (other == n) = false := by simpa using h
        simp [hn, List.lookup_cons, hne, ih]

/-- Every directory of the first tree is a directory of the second, with the same names and
maybe more. -/
def Extends (t u : FileTree) : Prop :=
  ∀ place entries, t.get? place = some (.dir entries) →
    ∃ entries', u.get? place = some (.dir entries') ∧
      ∀ name, (entries.lookup name).isSome → (entries'.lookup name).isSome

theorem extends_assign {entries : List (String × FileTree)} {name : String} {new : FileTree}
    (h : ∀ t, entries.lookup name = some t → t.Extends new) :
    (dir entries).Extends (dir (assign name new entries)) := by
  intro place inner hplace
  cases place with
  | nil =>
    cases hplace
    refine ⟨_, rfl, fun other hother => ?_⟩
    rw [lookup_assign]
    split
    · rfl
    · exact hother
  | cons first place =>
    rw [get?_dir_cons] at hplace ⊢
    obtain ⟨t, ht, hinner⟩ := Option.bind_eq_some_iff.mp hplace
    rw [lookup_assign]
    split
    · next hfirst => exact h t (hfirst ▸ ht) place inner hinner
    · rw [ht]
      exact ⟨inner, hinner, fun _ => id⟩

/-- A file holds no directory that could be lost. -/
theorem file_extends (content : ByteArray) (u : FileTree) : (file content).Extends u := by
  intro place entries hplace
  cases place with
  | nil => cases hplace
  | cons first place => cases hplace

variable {t : FileTree} {place : List String} {entries : List (String × FileTree)} {name : String}

/-- What is put into a directory can be found there. -/
theorem get?_put (h : t.get? place = some (.dir entries)) (name : String) (new : FileTree) :
    (t.put (place ++ [name]) new).get? (place ++ [name]) = some new := by
  induction place generalizing t with
  | nil =>
    cases h
    rw [List.nil_append, put_dir_singleton, get?_dir_cons, lookup_assign, if_pos rfl]
    rfl
  | cons first place ih =>
    cases t with
    | file content => cases h
    | dir top =>
      rw [get?_dir_cons] at h
      obtain ⟨u, hu, hplace⟩ := Option.bind_eq_some_iff.mp h
      rw [List.cons_append, put_dir_cons hu, get?_dir_cons, lookup_assign, if_pos rfl]
      exact ih hplace

/-- **Putting something in a directory, but not over another directory, loses no directory.** -/
theorem extends_put (h : t.get? place = some (.dir entries))
    (hname : ∀ u, entries.lookup name = some u → u.isDir = false) (new : FileTree) :
    t.Extends (t.put (place ++ [name]) new) := by
  induction place generalizing t with
  | nil =>
    cases h
    rw [List.nil_append, put_dir_singleton]
    refine extends_assign fun u hu => ?_
    cases u with
    | file content => exact file_extends content new
    | dir inner => cases hname _ hu
  | cons first place ih =>
    cases t with
    | file content => cases h
    | dir top =>
      rw [get?_dir_cons] at h
      obtain ⟨u, hu, hplace⟩ := Option.bind_eq_some_iff.mp h
      rw [List.cons_append, put_dir_cons hu]
      refine extends_assign fun v hv => ?_
      rw [hu] at hv
      cases hv
      exact ih hplace

end FileTree

/-! ## Following a path -/

namespace FileSystem

variable {fs fs' : FileSystem} {place found : List String} {s : List Char}

/-- A step leads on from a directory: it stays, goes up, or takes one of its names. -/
theorem step_eq_ok (h : fs.step place s = .ok found) :
    ∃ entries, fs.root.get? place = some (.dir entries) ∧
      (isIdle s = true ∧ found = place ∨
        s = ['.', '.'] ∧ found = place.dropLast ∨
        isIdle s = false ∧ s ≠ ['.', '.'] ∧ Text.byteLength s ≤ maxNameBytes ∧
          (entries.lookup (String.ofList s)).isSome ∧ found = place ++ [String.ofList s]) := by
  unfold step at h
  split at h
  · cases h
  · cases h
  · next entries hplace =>
    refine ⟨entries, hplace, ?_⟩
    split at h
    · next hidle =>
      cases h
      exact .inl ⟨hidle, rfl⟩
    next hidle =>
    have hidle : isIdle s = false := by simpa using hidle
    split at h
    · next hup =>
      cases h
      exact .inr (.inl ⟨by simpa using hup, rfl⟩)
    next hup =>
    split at h
    · cases h
    next hlong =>
    split at h
    · next hsome =>
      cases h
      exact .inr (.inr ⟨hidle, by simpa using hup, by omega, hsome, rfl⟩)
    · cases h

/-- In a directory, what is missing is the name. -/
theorem step_eq_missing {entries : List (String × FileTree)}
    (hplace : fs.root.get? place = some (.dir entries)) (h : fs.step place s = .error .missing) :
    Text.byteLength s ≤ maxNameBytes ∧ entries.lookup (String.ofList s) = none := by
  simp only [step, hplace] at h
  split at h
  · cases h
  split at h
  · cases h
  split at h
  · cases h
  next hlong =>
  split at h
  · cases h
  next hsome =>
  exact ⟨by omega, Option.not_isSome_iff_eq_none.mp hsome⟩

/-- A name that a directory has can be taken. -/
theorem step_name {entries : List (String × FileTree)}
    (hplace : fs.root.get? place = some (.dir entries)) (hidle : isIdle s = false)
    (hup : s ≠ ['.', '.']) (hlong : Text.byteLength s ≤ maxNameBytes)
    (hsome : (entries.lookup (String.ofList s)).isSome) :
    fs.step place s = .ok (place ++ [String.ofList s]) := by
  have hlong : ¬ maxNameBytes < Text.byteLength s := by omega
  simp only [step, hplace, hidle, Bool.false_eq_true, if_false, beq_iff_eq, hup, hlong, hsome,
    if_true]

theorem step_of_extends (hroot : fs.root.Extends fs'.root) (h : fs.step place s = .ok found) :
    fs'.step place s = .ok found := by
  obtain ⟨entries, hplace, hcases⟩ := step_eq_ok h
  obtain ⟨entries', hplace', hnames⟩ := hroot place entries hplace
  rcases hcases with ⟨hidle, rfl⟩ | ⟨rfl, rfl⟩ | ⟨hidle, hup, hlong, hsome, rfl⟩
  · simp [step, hplace', hidle]
  · simp [step, hplace', isIdle]
  · exact step_name hplace' hidle hup hlong (hnames _ hsome)

/-- **A path that could be followed before can be followed after.** -/
theorem walk_of_extends (hroot : fs.root.Extends fs'.root) {ss : List (List Char)}
    (h : fs.walk place ss = .ok found) : fs'.walk place ss = .ok found := by
  unfold walk at h ⊢
  induction ss generalizing place with
  | nil => exact h
  | cons s ss ih =>
    rw [List.foldlM_cons] at h ⊢
    obtain ⟨next, hnext, h⟩ := bind_eq_ok.mp h
    exact bind_eq_ok.mpr ⟨next, step_of_extends hroot hnext, ih h⟩

theorem walk_concat {ss : List (List Char)} {next : List String} (h : fs.walk place ss = .ok next) :
    fs.walk place (ss ++ [s]) = fs.step next s := by
  unfold walk at h ⊢
  rw [List.foldlM_append, h]
  show fs.step next s >>= pure = fs.step next s
  cases fs.step next s <;> rfl

theorem get?_concat {t : FileTree} {entries : List (String × FileTree)}
    (h : t.get? place = some (.dir entries)) (name : String) :
    t.get? (place ++ [name]) = entries.lookup name := by
  induction place generalizing t with
  | nil =>
    cases h
    rw [List.nil_append, FileTree.get?_dir_cons]
    cases entries.lookup name <;> rfl
  | cons first place ih =>
    cases t with
    | file content => cases h
    | dir top =>
      rw [FileTree.get?_dir_cons] at h
      obtain ⟨u, hu, hplace⟩ := Option.bind_eq_some_iff.mp h
      rw [List.cons_append, FileTree.get?_dir_cons, hu]
      exact ih hplace

/-! ## Writing -/

/-- A path that does not end in a slash has no empty segments at its end. -/
theorem reverse_dropWhile_isEmpty {ss : List (List Char)} (h : ss.getLast? ≠ some []) :
    (ss.reverse.dropWhile (·.isEmpty)).reverse = ss := by
  rw [← List.head?_reverse] at h
  have hkeep : ss.reverse.dropWhile (·.isEmpty) = ss.reverse := by
    cases hss : ss.reverse with
    | nil => rfl
    | cons last front =>
      rw [hss] at h
      have hlast : last ≠ [] := by simpa using h
      rw [List.dropWhile_cons_of_neg (by simpa using hlast)]
  rw [hkeep, List.reverse_reverse]

/-- Where a file can be made: a name in a directory, and no directory under that name. -/
structure Vacancy (fs : FileSystem) (place : List String) (s : List Char) : Prop where
  notIdle : isIdle s = false
  notUp : s ≠ ['.', '.']
  length : Text.byteLength s ≤ maxNameBytes
  directory : ∃ entries, fs.root.get? place = some (.dir entries) ∧
    ∀ u, entries.lookup (String.ofList s) = some u → u.isDir = false

/-- A file is made at the end of its path, in a directory that the rest of the path leads to. -/
theorem createFile_eq_ok {ss : List (List Char)} {content : ByteArray}
    (h : fs.createFile ss content = .ok fs') :
    checkPath ss = .ok () ∧ ∃ front last place, ss = front ++ [last] ∧
      fs.walk (fs.start ss) front = .ok place ∧ fs.Vacancy place last ∧
        fs' = fs.put (place ++ [String.ofList last]) (.file content) := by
  unfold createFile at h
  obtain ⟨_, hcheck, h⟩ := bind_eq_ok.mp h
  refine ⟨hcheck, ?_⟩
  obtain ⟨place, hwalk, h⟩ := bind_eq_ok.mp h
  obtain ⟨_, hdot, h⟩ := bind_eq_ok.mp h
  obtain ⟨entries, hplace, -⟩ := step_eq_ok hdot
  dsimp only at h
  split at h
  · cases h
  next hname =>
  simp only [Bool.or_eq_true, Bool.not_eq_true', Bool.and_eq_false_iff, not_or,
    Bool.not_eq_false, bne_eq_false_iff_eq, beq_iff_eq] at hname
  obtain ⟨⟨hidle, hup⟩, hslash⟩ := hname
  rw [reverse_dropWhile_isEmpty hslash] at hwalk h hidle hup
  -- The last segment is not idle, so there is one.
  obtain ⟨last, hlast⟩ : ∃ last, ss.getLast? = some last := by
    cases hss : ss.getLast? with
    | none => simp [hss, isIdle] at hidle
    | some last => exact ⟨last, rfl⟩
  obtain ⟨front, rfl⟩ := List.getLast?_eq_some_iff.mp hlast
  simp only [List.getLast?_concat, Option.getD_some, List.dropLast_concat] at hwalk h hidle hup
  refine ⟨front, last, place, rfl, hwalk, ?_⟩
  split at h
  · next found hstep =>
    obtain ⟨entries', hplace', hcases⟩ := step_eq_ok hstep
    rw [hplace] at hplace'
    cases hplace'
    rcases hcases with ⟨hidle', -⟩ | ⟨hup', -⟩ | ⟨-, -, hlength, -, rfl⟩
    · simp [hidle] at hidle'
    · simp [hup'] at hup
    rw [get?_concat hplace] at h
    split at h
    · cases h
    next hfile =>
    cases h
    refine ⟨⟨hidle, by simpa using hup, hlength, entries, hplace, fun u hu => ?_⟩, rfl⟩
    cases u with
    | file content => rfl
    | dir inner => exact absurd hu (hfile inner)
  · next hstep =>
    cases h
    obtain ⟨hlength, hnone⟩ := step_eq_missing hplace hstep
    refine ⟨⟨hidle, by simpa using hup, hlength, entries, hplace, fun u hu => ?_⟩, rfl⟩
    rw [hnone] at hu
    cases hu
  · cases h

/-- **A file that was made is where its path leads.** -/
theorem locate_of_createFile {ss : List (List Char)} {content : ByteArray}
    (h : fs.createFile ss content = .ok fs') :
    ∃ found, fs'.locate ss = .ok found ∧ fs'.root.get? found = some (.file content) := by
  obtain ⟨hcheck, front, last, place, rfl, hwalk, hvacancy, rfl⟩ := createFile_eq_ok h
  obtain ⟨entries, hplace, hfile⟩ := hvacancy.directory
  have hroot := FileTree.extends_put hplace hfile (.file content)
  have hfound := FileTree.get?_put hplace (String.ofList last) (.file content)
  refine ⟨place ++ [String.ofList last], ?_, hfound⟩
  refine bind_eq_ok.mpr ⟨(), hcheck, ?_⟩
  have hwalk' : (fs.put (place ++ [String.ofList last]) (.file content)).walk
      (fs.start (front ++ [last])) front = .ok place := walk_of_extends hroot hwalk
  rw [show (fs.put _ _).start (front ++ [last]) = fs.start (front ++ [last]) from rfl,
    walk_concat hwalk']
  -- The directory now has the name, whether or not it had it before.
  obtain ⟨entries', hplace', -⟩ := hroot place entries hplace
  refine step_name hplace' hvacancy.notIdle hvacancy.notUp hvacancy.length ?_
  rw [← get?_concat hplace']
  exact Option.isSome_iff_exists.mpr ⟨_, hfound⟩

theorem text?_eq_some {path text : String} :
    fs.text? path = some text ↔ fs.text path = .ok text := by
  cases h : fs.text path <;> simp [text?, h, Except.toOption]

theorem fromUTF8?_toUTF8 (s : String) : String.fromUTF8? s.toUTF8 = some s := by
  have hvalid : s.toUTF8.IsValidUTF8 := s.isValidUTF8
  rw [String.fromUTF8?, dif_pos hvalid]
  rfl

/-- **What was written to a path can be read there.** -/
theorem text_of_write {path content : String}
    (h : fs.write path content.toUTF8 = (fs', none)) : fs'.text path = .ok content := by
  unfold write at h
  split at h
  · cases h
  next hpath =>
  dsimp only at h
  split at h
  · next made _ =>
    split at h
    · next written hcreate =>
      cases h
      obtain ⟨found, hlocate, hfile⟩ := locate_of_createFile hcreate
      have hresolve : fs'.resolve path = .ok found := by
        rw [resolve, if_neg hpath, hlocate]
      refine bind_eq_ok.mpr ⟨found, hresolve, ?_⟩
      simp only [hfile, fromUTF8?_toUTF8]
    · cases h
  · next hfailed => exact absurd h (hfailed fs')

end FileSystem

end Stencil.Cli
