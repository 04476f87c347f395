import EdnLint.Files.Tree
import Mathlib.Data.Finset.Card

/-!
# Places of files

Several paths may lead to one file, so a file is its place from the root and not a
path. What is read through a path depends on the place alone, and there are no more
places of files than files. Reading a file is a fault only if its bytes are no text
or if the path is refused.

Asking what a path leads to is a fault only if the path or one of its names is too long,
or if a directory may not be entered (`FileTree.look_eq_error`).
-/

namespace EdnLint

theorem Text.join_prefix_append (separator : Text) (pieces more : List Text) :
    Text.join separator pieces <+: Text.join separator (pieces ++ more) := by
  induction pieces with
  | nil => exact List.nil_prefix
  | cons piece pieces ih =>
      cases pieces with
      | nil =>
          cases more with
          | nil => exact List.prefix_rfl
          | cons next more => simp [join]
      | cons next pieces =>
          simp only [List.cons_append, join]
          exact (List.prefix_append_right_inj _).mpr ih

namespace Path

theorem size_append (s t : Text) : size (s ++ t) = size s + size t := by
  induction s with
  | nil => simp [size]
  | cons c s ih =>
      rw [List.cons_append, size, size, ih, Nat.add_assoc]

theorem size_le_of_prefix {s t : Text} (h : s <+: t) : size s ≤ size t := by
  obtain ⟨rest, rfl⟩ := h
  rw [size_append]
  exact Nat.le_add_right _ _

/-- A path is no longer than the paths that go on from it. -/
theorem isLong_of_join {root relative : Path} (hrelative : relative.root = .relative)
    (h : (root.join relative).isLong = false) : root.isLong = false := by
  obtain ⟨kind, names⟩ := root
  have htext (hne : ¬ (kind = .relative ∧ names = [])) :
      (⟨kind, names⟩ : Path).text <+: ((⟨kind, names⟩ : Path).join relative).text := by
    have hprefix := (List.prefix_append_right_inj (rootText kind)).mpr
      (Text.join_prefix_append "/" names relative.names)
    cases kind with
    | relative =>
        cases names with
        | nil => exact absurd ⟨rfl, rfl⟩ hne
        | cons name names => simpa [join, hrelative, text] using hprefix
    | single => simpa [join, hrelative, text] using hprefix
    | double => simpa [join, hrelative, text] using hprefix
  by_cases hne : kind = .relative ∧ names = []
  · obtain ⟨rfl, rfl⟩ := hne
    decide
  · have hsize := size_le_of_prefix (htext hne)
    simp only [isLong, decide_eq_false_iff_not, not_le] at h ⊢
    exact hsize.trans_lt h

end Path

namespace FileTree

variable {t : FileTree}

/-- The place that a path leads to. -/
def place? (t : FileTree) (p : Path) : Option (List Text) := (t.find p).toOption.map (·.1)

theorem at?_of_walk {here names place : List Text} {entry : FileEntry}
    (h : t.walk here names = .ok (place, entry)) : t.at? place = some entry := by
  induction names generalizing here with
  | nil =>
      unfold walk at h
      split at h
      · cases h
        assumption
      · cases h
  | cons name names ih =>
      unfold walk at h
      split at h
      · cases h
      · cases h
      split at h
      · cases h
      split at h
      · exact ih h
      split at h
      · cases h
      · exact ih h

/-- Without two dots in it, a walk ends where its names say. -/
theorem place_of_walk {here names place : List Text} {entry : FileEntry}
    (hdots : (".." : Text) ∉ names) (h : t.walk here names = .ok (place, entry)) :
    place = here ++ names := by
  induction names generalizing here with
  | nil =>
      unfold walk at h
      split at h
      · cases h
        rw [List.append_nil]
      · cases h
  | cons name names ih =>
      rw [List.mem_cons, not_or] at hdots
      unfold walk at h
      rw [if_neg (Ne.symm hdots.1)] at h
      split at h
      · cases h
      · cases h
      split at h
      · cases h
      split at h
      · cases h
      · rw [ih hdots.2 h, List.append_assoc, List.singleton_append]

/-- A walk over more names goes on from where the first of them led. -/
theorem walk_append (t : FileTree) (here names more : List Text) :
    t.walk here (names ++ more) = (t.walk here names).bind fun found => t.walk found.1 more := by
  induction names generalizing here with
  | nil =>
      cases hat : t.at? here with
      | some entry =>
          simp only [List.nil_append, walk.eq_1, hat]
          rfl
      | none =>
          simp only [List.nil_append, walk.eq_1, hat]
          cases more <;> simp [walk, hat, Except.bind]
  | cons name names ih =>
      simp only [List.cons_append, walk]
      split
      · rfl
      · rfl
      split
      · rfl
      split
      · exact ih _
      split
      · rfl
      · exact ih _

/-- What keeps a walk from being followed is a name that is too long, or a directory that
may not be entered. -/
theorem exists_of_walk_eq_error {here names : List Text} {e : FileError} {fault : Fault}
    (h : t.walk here names = .error e) (hfault : e.fault? = some fault) :
    (fault = .nameTooLong ∧ ∃ name ∈ names, Path.maxNameSize < Path.size name) ∨
      (fault = .denied ∧ ∃ place ∈ t.locked, t.at? place = some .directory) := by
  induction names generalizing here with
  | nil =>
      unfold walk at h
      split at h
      · cases h
      · cases h
        cases hfault
  | cons name names ih =>
      have hrest {here : List Text} (h : t.walk here names = .error e) :
          (fault = .nameTooLong ∧ ∃ long ∈ name :: names, Path.maxNameSize < Path.size long) ∨
            (fault = .denied ∧ ∃ place ∈ t.locked, t.at? place = some .directory) :=
        (ih h).imp_left fun ⟨hlong, long, hmem, hsize⟩ =>
          ⟨hlong, long, List.mem_cons_of_mem name hmem, hsize⟩
      unfold walk at h
      split at h
      · cases h
        cases hfault
      · cases h
        cases hfault
      rename_i hdirectory
      split at h
      · rename_i hlocked
        cases h
        cases hfault
        exact Or.inr ⟨rfl, here, by simpa using hlocked, hdirectory⟩
      split at h
      · exact hrest h
      split at h
      · rename_i hsize
        cases h
        cases hfault
        exact Or.inl ⟨rfl, name, List.mem_cons_self, hsize⟩
      · exact hrest h

theorem find_eq_ok_iff {p : Path} {found : List Text × FileEntry} :
    t.find p = .ok found ↔ p.isLong = false ∧ t.walk (t.start p) p.names = .ok found := by
  unfold find
  split
  · rename_i hlong
    simp [hlong]
  · rename_i hshort
    simp [hshort]

theorem place?_eq_some_iff {p : Path} {place : List Text} :
    t.place? p = some place ↔
      ∃ entry, t.find p = .ok (place, entry) ∧ t.at? place = some entry := by
  constructor
  · intro h
    unfold place? at h
    cases hfind : t.find p with
    | error e => simp [hfind, Except.toOption] at h
    | ok found =>
        obtain ⟨place', entry⟩ := found
        obtain rfl : place' = place := by simpa [hfind, Except.toOption] using h
        exact ⟨entry, rfl, at?_of_walk (find_eq_ok_iff.mp hfind).2⟩
  · rintro ⟨entry, hfind, -⟩
    simp [place?, hfind, Except.toOption]

/-- Names below a path lead below the place of the path, as long as none of them leads
up. -/
theorem exists_place_of_join {root relative : Path} {place : List Text}
    (hrelative : relative.root = .relative) (hdots : (".." : Text) ∉ relative.names)
    (h : t.place? (root.join relative) = some place) :
    ∃ above, t.place? root = some above ∧ place = above ++ relative.names := by
  obtain ⟨entry, hfind, -⟩ := place?_eq_some_iff.mp h
  obtain ⟨hshort, hwalk⟩ := find_eq_ok_iff.mp hfind
  have hstart : t.start (root.join relative) = t.start root := by
    rw [Path.join, hrelative]
    rfl
  have hnames : (root.join relative).names = root.names ++ relative.names := by
    rw [Path.join, hrelative]
  rw [hstart, hnames, walk_append] at hwalk
  cases hroot : t.walk (t.start root) root.names with
  | error e => simp [hroot, Except.bind] at hwalk
  | ok found =>
      obtain ⟨above, kind⟩ := found
      rw [hroot] at hwalk
      have habove := find_eq_ok_iff.mpr ⟨Path.isLong_of_join hrelative hshort, hroot⟩
      refine ⟨above, place?_eq_some_iff.mpr ⟨kind, habove, at?_of_walk hroot⟩, ?_⟩
      exact place_of_walk hdots hwalk

theorem look_eq_ok_some_iff {p : Path} {found : List Text × FileEntry} :
    t.look p = .ok (some found) ↔ p.refusal? = none ∧ t.find p = .ok found := by
  unfold look
  cases p.refusal? with
  | some fault => simp
  | none =>
      cases t.find p with
      | ok found => simp
      | error e => cases he : e.fault? <;> simp [he]

theorem look_eq_error_iff {p : Path} {fault : Fault} :
    t.look p = .error fault ↔
      p.refusal? = none ∧ ∃ e, t.find p = .error e ∧ e.fault? = some fault := by
  unfold look
  cases p.refusal? with
  | some fault => simp
  | none =>
      cases t.find p with
      | ok found => simp
      | error e => cases he : e.fault? <;> simp [he]

/-- Asking what a path leads to fails only for what is too long or may not be entered. -/
theorem look_eq_error {p : Path} {fault : Fault} (h : t.look p = .error fault) :
    (fault = .nameTooLong ∧
        (p.isLong = true ∨ ∃ name ∈ p.names, Path.maxNameSize < Path.size name)) ∨
      (fault = .denied ∧ ∃ place ∈ t.locked, t.at? place = some .directory) := by
  obtain ⟨-, e, hfind, hfault⟩ := look_eq_error_iff.mp h
  unfold find at hfind
  split at hfind
  · rename_i hlong
    cases hfind
    cases hfault
    exact Or.inl ⟨rfl, Or.inl hlong⟩
  · exact (exists_of_walk_eq_error hfind hfault).imp_left fun ⟨hlong, hname⟩ =>
      ⟨hlong, Or.inr hname⟩

theorem isFile_eq_true_iff {p : Path} :
    t.isFile p = .ok true ↔ ∃ place bytes, t.look p = .ok (some (place, .file bytes)) := by
  unfold isFile
  cases t.look p with
  | error fault => simp [Except.map]
  | ok found =>
      rcases found with _ | ⟨place, _ | _⟩
      all_goals simp [Except.map]

theorem isFile_eq_error_iff {p : Path} {fault : Fault} :
    t.isFile p = .error fault ↔ t.look p = .error fault := by
  unfold isFile
  cases t.look p with
  | error fault => simp [Except.map]
  | ok found => simp [Except.map]

theorem isThere_eq_true_iff {p : Path} :
    t.isThere p = .ok true ↔ ∃ found, t.look p = .ok (some found) := by
  unfold isThere
  cases t.look p with
  | error fault => simp [Except.map]
  | ok found => cases found <;> simp [Except.map]

theorem isThere_eq_false_iff {p : Path} : t.isThere p = .ok false ↔ t.look p = .ok none := by
  unfold isThere
  cases t.look p with
  | error fault => simp [Except.map]
  | ok found => cases found <;> simp [Except.map]

theorem isThere_eq_error_iff {p : Path} {fault : Fault} :
    t.isThere p = .error fault ↔ t.look p = .error fault := by
  unfold isThere
  cases t.look p with
  | error fault => simp [Except.map]
  | ok found => simp [Except.map]

theorem exists_place_of_isFile {p : Path} (h : t.isFile p = .ok true) :
    p.refusal? = none ∧ ∃ place, t.place? p = some place := by
  obtain ⟨place, bytes, hlook⟩ := isFile_eq_true_iff.mp h
  obtain ⟨hrefusal, hfind⟩ := look_eq_ok_some_iff.mp hlook
  exact ⟨hrefusal, place, by simp [place?, hfind, Except.toOption]⟩

/-- What is read through a path depends on the place it leads to. -/
theorem readText_congr {p q : Path} {place : List Text} (hp : t.place? p = some place)
    (hq : t.place? q = some place) (hp' : p.refusal? = none) (hq' : q.refusal? = none) :
    t.readText p = t.readText q := by
  obtain ⟨entry, hfindp, hp⟩ := place?_eq_some_iff.mp hp
  obtain ⟨entry', hfindq, hq⟩ := place?_eq_some_iff.mp hq
  obtain rfl : entry = entry' := Option.some_inj.mp (hp.symm.trans hq)
  simp [readText, hp', hq', hfindp, hfindq]

/-- The places of the files. -/
def filePlaces (t : FileTree) : Finset (List Text) :=
  ((t.entries.filter fun (_, entry) =>
    match entry with
    | .file _ => true
    | .directory => false).map (·.1)).toFinset

theorem card_filePlaces_le (t : FileTree) : t.filePlaces.card ≤ t.fileCount :=
  (List.toFinset_card_le _).trans_eq (List.length_map _)

/-- A path that text is read through is not refused and leads to a file. -/
theorem mem_filePlaces_of_readText {p : Path} {text : Text} (h : t.readText p = .ok text) :
    p.refusal? = none ∧ ∃ place ∈ t.filePlaces, t.place? p = some place := by
  unfold readText at h
  split at h
  · cases h
  rename_i hrefusal
  refine ⟨hrefusal, ?_⟩
  split at h
  · cases h
  rename_i place entry hfind
  split at h
  · cases h
  split at h
  · cases h
  rename_i bytes
  refine ⟨place, ?_, by simp [place?, hfind, Except.toOption]⟩
  have hat := at?_of_walk (find_eq_ok_iff.mp hfind).2
  unfold at? at hat
  split at hat
  · rename_i known entry hfound
    cases hat
    obtain rfl : known = place := by simpa using List.find?_some hfound
    have hmem := List.mem_of_find?_eq_some hfound
    simp only [filePlaces, List.mem_toFinset, List.mem_map, List.mem_filter]
    exact ⟨_, ⟨hmem, rfl⟩, rfl⟩
  · split at hat
    · cases hat
    · cases hat

/-- Text is read only through a path that leads somewhere. -/
theorem exists_look_of_readText {p : Path} {text : Text} (h : t.readText p = .ok text) :
    ∃ found, t.look p = .ok (some found) := by
  obtain ⟨hrefusal, place, -, hplace⟩ := mem_filePlaces_of_readText h
  obtain ⟨entry, hfind, -⟩ := place?_eq_some_iff.mp hplace
  exact ⟨_, look_eq_ok_some_iff.mpr ⟨hrefusal, hfind⟩⟩

/-- A path leads to a file that may be read and whose bytes are no text. -/
def IsUndecodable (t : FileTree) (p : Path) : Prop :=
  p.refusal? = none ∧ ∃ place bytes, t.find p = .ok (place, .file bytes) ∧ place ∉ t.locked ∧
    Utf8.decode? bytes = none

theorem readText_eq_fault_iff {p : Path} {fault : Fault} :
    t.readText p = .error (.fault fault) ↔
      p.refusal? = some fault ∨ t.IsUndecodable p ∧ fault = .undecodable := by
  constructor
  · intro h
    unfold readText at h
    split at h
    · rename_i hrefusal
      cases h
      exact Or.inl hrefusal
    rename_i hrefusal
    split at h
    · cases h
    rename_i place entry hfind
    split at h
    · cases h
    rename_i hopen
    split at h
    · cases h
    rename_i bytes
    split at h
    · cases h
    · rename_i hdecode
      cases h
      exact Or.inr ⟨⟨hrefusal, place, bytes, hfind, by simpa using hopen, hdecode⟩, rfl⟩
  · rintro (hrefusal | ⟨⟨hrefusal, place, bytes, hfind, hopen, hdecode⟩, rfl⟩)
    · simp [readText, hrefusal]
    · simp [readText, hrefusal, hfind, hopen, hdecode]

theorem IsUndecodable.exists_look {p : Path} (h : t.IsUndecodable p) :
    ∃ found, t.look p = .ok (some found) := by
  obtain ⟨hrefusal, place, bytes, hfind, -⟩ := h
  exact ⟨_, look_eq_ok_some_iff.mpr ⟨hrefusal, hfind⟩⟩

theorem IsUndecodable.readText_eq {p : Path} (h : t.IsUndecodable p) :
    t.readText p = .error (.fault .undecodable) :=
  readText_eq_fault_iff.mpr (Or.inr ⟨h, rfl⟩)

end FileTree

end EdnLint
