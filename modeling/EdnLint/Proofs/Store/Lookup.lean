import EdnLint.Proofs.Files.Place
import EdnLint.Store.Loading

/-!
# Where a namespace is looked up

The name of a namespace is cut at its dots, and the pieces are the names of the file
from a directory down. A name that has an empty piece or holds a stroke is looked up
nowhere, so what is left of it is one name per piece and can be neither a dot, nor
two dots, nor a root (`relativePath?_eq_some_iff`). The pieces can be read back from
the path, which therefore tells the name, and a walk along them only goes down.

The directories are asked one after the other, up to the first that has the file. One
that cannot be asked stops the lookup, with no answer at all: the name makes a path that
is too long, or there is a directory that may not be entered.
-/

namespace EdnLint

section

variable {ε α : Type} {p : α → Except ε Bool} {items : List α}

theorem findM?_cons (p : α → Except ε Bool) (a : α) (items : List α) :
    (a :: items).findM? p =
      (p a).bind fun isFound => if isFound then .ok (some a) else items.findM? p := by
  rw [List.findM?]
  cases p a with
  | error e => rfl
  | ok isFound => cases isFound <;> rfl

theorem findM?_append {skipped : List α} (h : ∀ earlier ∈ skipped, p earlier = .ok false) :
    (skipped ++ items).findM? p = items.findM? p := by
  induction skipped with
  | nil => rfl
  | cons earlier skipped ih =>
      rw [List.forall_mem_cons] at h
      rw [List.cons_append, findM?_cons, h.1, ← ih h.2]
      rfl

/-- Either all items are passed over, or one of them ends the search. -/
theorem findM?_cases (p : α → Except ε Bool) (items : List α) :
    (items.findM? p = .ok none ∧ ∀ a ∈ items, p a = .ok false) ∨
      ∃ skipped a others, items = skipped ++ a :: others ∧
        (∀ earlier ∈ skipped, p earlier = .ok false) ∧
        ((p a = .ok true ∧ items.findM? p = .ok (some a)) ∨
          ∃ e, p a = .error e ∧ items.findM? p = .error e) := by
  induction items with
  | nil => exact Or.inl ⟨rfl, by simp⟩
  | cons b items ih =>
      rw [findM?_cons]
      cases hb : p b with
      | error e => exact Or.inr ⟨[], b, items, rfl, by simp, Or.inr ⟨e, hb, rfl⟩⟩
      | ok isFound =>
          cases isFound with
          | true => exact Or.inr ⟨[], b, items, rfl, by simp, Or.inl ⟨hb, rfl⟩⟩
          | false =>
              rcases ih with ⟨hnone, hall⟩ | ⟨skipped, a, others, hitems, hskipped, hends⟩
              · exact Or.inl ⟨hnone, List.forall_mem_cons.mpr ⟨hb, hall⟩⟩
              · refine Or.inr ⟨b :: skipped, a, others, ?_, ?_, hends⟩
                · rw [hitems, List.cons_append]
                · exact List.forall_mem_cons.mpr ⟨hb, hskipped⟩

theorem findM?_eq_some_iff {a : α} :
    items.findM? p = .ok (some a) ↔
      ∃ skipped others, items = skipped ++ a :: others ∧ p a = .ok true ∧
        ∀ earlier ∈ skipped, p earlier = .ok false := by
  constructor
  · intro h
    rcases findM?_cases p items with
      ⟨hnone, -⟩ | ⟨skipped, b, others, hitems, hskipped, ⟨hb, hfound⟩ | ⟨e, -, herror⟩⟩
    · cases h.symm.trans hnone
    · cases h.symm.trans hfound
      exact ⟨skipped, others, hitems, hb, hskipped⟩
    · cases h.symm.trans herror
  · rintro ⟨skipped, others, rfl, ha, hskipped⟩
    rw [findM?_append hskipped, findM?_cons, ha]
    rfl

theorem findM?_eq_none_iff : items.findM? p = .ok none ↔ ∀ a ∈ items, p a = .ok false := by
  constructor
  · intro h
    rcases findM?_cases p items with
      ⟨-, hall⟩ | ⟨_, _, _, _, _, ⟨-, hfound⟩ | ⟨e, -, herror⟩⟩
    · exact hall
    · cases h.symm.trans hfound
    · cases h.symm.trans herror
  · intro h
    rw [← List.append_nil items, findM?_append h]
    rfl

theorem findM?_eq_error_iff {e : ε} :
    items.findM? p = .error e ↔
      ∃ skipped a others, items = skipped ++ a :: others ∧ p a = .error e ∧
        ∀ earlier ∈ skipped, p earlier = .ok false := by
  constructor
  · intro h
    rcases findM?_cases p items with
      ⟨hnone, -⟩ | ⟨skipped, b, others, hitems, hskipped, ⟨-, hfound⟩ | ⟨e', hb, herror⟩⟩
    · cases h.symm.trans hnone
    · cases h.symm.trans hfound
    · cases h.symm.trans herror
      exact ⟨skipped, b, others, hitems, hb, hskipped⟩
  · rintro ⟨skipped, a, others, rfl, ha, hskipped⟩
    rw [findM?_append hskipped, findM?_cons, ha]
    rfl

end

theorem Text.not_mem_of_mem_splitOn {separator : CodePoint} {t piece : Text}
    (h : piece ∈ Text.splitOn separator t) : separator ∉ piece := by
  induction t generalizing piece with
  | nil => simp_all [Text.splitOn]
  | cons c t ih =>
      unfold Text.splitOn at h
      split at h
      · rename_i hnil
        exact absurd hnil (Text.splitOn_ne_nil separator t)
      · rename_i first rest hsplit
        rw [hsplit] at ih
        split at h
        · rcases List.mem_cons.mp h with rfl | h
          · exact List.not_mem_nil
          · exact ih h
        · rename_i hne
          rcases List.mem_cons.mp h with rfl | h
          · rw [List.mem_cons, not_or]
            exact ⟨Ne.symm hne, ih List.mem_cons_self⟩
          · exact ih (List.mem_cons_of_mem _ h)

/-- A code point other than the separator stands in the text exactly if it stands in a
piece. -/
theorem Text.mem_iff_mem_splitOn {separator c : CodePoint} (hc : c ≠ separator) {t : Text} :
    c ∈ t ↔ ∃ piece ∈ Text.splitOn separator t, c ∈ piece := by
  induction t with
  | nil => simp [Text.splitOn]
  | cons d t ih =>
      cases hsplit : Text.splitOn separator t with
      | nil => exact absurd hsplit (Text.splitOn_ne_nil separator t)
      | cons piece pieces =>
          rw [hsplit, List.exists_mem_cons_iff] at ih
          by_cases hd : d = separator
          · simp [Text.splitOn, hsplit, hd, hc, ih]
          · simp [Text.splitOn, hsplit, hd, ih, or_assoc]

namespace Store

variable {t : FileTree} {s : Store} {name : Text} {p : Path}

/-- A piece of a name that can be looked up: not empty, without dots and strokes. -/
def IsSegment (segment : Text) : Prop :=
  segment ≠ [] ∧ CodePoint.ofChar '.' ∉ segment ∧ CodePoint.ofChar '/' ∉ segment

/-- The file below a directory that segments lead to. -/
def fileBelow (root : Path) (before : List Text) (last : Text) : Path :=
  ⟨root.root, root.names ++ (before ++ [last ++ ".edn"])⟩

/-- The names of the path are the segments, and only the last of them is changed. -/
theorem relativePath?_eq_some_iff :
    relativePath? name = some p ↔
      ∃ before last, Text.splitOn '.' name = before ++ [last] ∧
        (∀ segment ∈ before ++ [last], IsSegment segment) ∧
        p = ⟨.relative, before ++ [last ++ ".edn"]⟩ := by
  obtain ⟨before, last, hsplit⟩ :=
    (List.eq_nil_or_concat' _).resolve_left (Text.splitOn_ne_nil (CodePoint.ofChar '.') name)
  have hsegments : ((before ++ [last]).any List.isEmpty ||
      name.contains (CodePoint.ofChar '/')) = false ↔
      ∀ segment ∈ before ++ [last], IsSegment segment := by
    have hstroke : CodePoint.ofChar '/' ∈ name ↔
        ∃ segment ∈ before ++ [last], CodePoint.ofChar '/' ∈ segment := by
      rw [← hsplit]
      exact Text.mem_iff_mem_splitOn (by decide)
    rw [Bool.or_eq_false_iff, List.any_eq_false, List.contains_eq_mem, decide_eq_false_iff_not,
      hstroke]
    constructor
    · rintro ⟨hempty, hstroke⟩ segment hsegment
      refine ⟨by simpa using hempty segment hsegment, ?_, fun h => hstroke ⟨segment, hsegment, h⟩⟩
      exact Text.not_mem_of_mem_splitOn (hsplit ▸ hsegment)
    · intro h
      refine ⟨fun segment hsegment => by simpa using (h segment hsegment).1, ?_⟩
      rintro ⟨segment, hsegment, hmem⟩
      exact (h segment hsegment).2.2 hmem
  have hpath : relativePath? name =
      if ((before ++ [last]).any List.isEmpty || name.contains (CodePoint.ofChar '/')) = true
      then none else some ⟨.relative, before ++ [last ++ ".edn"]⟩ := by
    simp only [relativePath?, hsplit, List.dropLast_concat, List.getLast?_concat, Option.getD_some]
  rw [hpath]
  constructor
  · intro h
    split at h
    · cases h
    · rename_i hgood
      cases h
      exact ⟨before, last, hsplit, hsegments.mp (Bool.eq_false_of_not_eq_true hgood), rfl⟩
  · rintro ⟨before', last', hsplit', hgood, rfl⟩
    obtain ⟨rfl, hlast⟩ := List.append_inj' (hsplit.symm.trans hsplit') rfl
    cases hlast
    rw [if_neg]
    rw [hsegments.mpr hgood]
    exact Bool.false_ne_true

/-- Two names have different paths. -/
theorem relativePath?_injective {other : Text} (h : relativePath? name = some p)
    (h' : relativePath? other = some p) : name = other := by
  obtain ⟨before, last, hsplit, -, rfl⟩ := relativePath?_eq_some_iff.mp h
  obtain ⟨before', last', hsplit', -, hp⟩ := relativePath?_eq_some_iff.mp h'
  obtain ⟨rfl, hlast⟩ := List.append_inj' (Path.mk.inj hp).2 rfl
  obtain rfl : last = last' := by simpa using hlast
  rw [← Text.join_splitOn (CodePoint.ofChar '.') name, hsplit, ← hsplit', Text.join_splitOn]

/-- The path of a name goes down only. -/
theorem relativePath?_goes_down (h : relativePath? name = some p) :
    p.root = .relative ∧ (".." : Text) ∉ p.names := by
  obtain ⟨before, last, -, hsegments, rfl⟩ := relativePath?_eq_some_iff.mp h
  refine ⟨rfl, fun hdots => ?_⟩
  rcases List.mem_append.mp hdots with hdots | hdots
  · exact (hsegments _ (List.mem_append_left _ hdots)).2.1 (by decide)
  · have hlast := congrArg List.getLast? (List.mem_singleton.mp hdots)
    rw [List.getLast?_append_of_ne_nil _ (by decide)] at hlast
    exact absurd hlast (by decide)

/-- The path of a name goes down only, and if it is a single name it tells the name. -/
theorem relativePath?_spec (h : relativePath? name = some p) :
    p.root = .relative ∧ (".." : Text) ∉ p.names ∧
      ∀ base : Text, p.names = [base ++ ".edn"] → name = base := by
  refine ⟨(relativePath?_goes_down h).1, (relativePath?_goes_down h).2, fun base hbase => ?_⟩
  obtain ⟨before, last, hsplit, -, rfl⟩ := relativePath?_eq_some_iff.mp h
  have hnames : before ++ [last ++ ".edn"] = [] ++ [base ++ ".edn"] := hbase
  obtain ⟨rfl, hlast⟩ := List.append_inj' hnames rfl
  obtain rfl : last = base := by simpa using hlast
  rw [← Text.join_splitOn (CodePoint.ofChar '.') name, hsplit]
  rfl

theorem join_eq_fileBelow (root : Path) (before : List Text) (last : Text) :
    root.join ⟨.relative, before ++ [last ++ ".edn"]⟩ = fileBelow root before last := rfl

/-- A name whose pieces are good is looked up in one directory after the other. -/
theorem findNamespace?_of_segments {before : List Text} {last : Text}
    (hsplit : Text.splitOn '.' name = before ++ [last])
    (hsegments : ∀ segment ∈ before ++ [last], IsSegment segment) :
    s.findNamespace? t name =
      (s.paths.map fun root => fileBelow root before last).findM? t.isFile := by
  have hrelative := relativePath?_eq_some_iff.mpr ⟨before, last, hsplit, hsegments, rfl⟩
  simp only [findNamespace?, hrelative]
  rfl

/-- A name that is looked up anywhere has good pieces. -/
theorem exists_segments_of_findNamespace? (h : s.findNamespace? t name ≠ .ok none) :
    ∃ before last, Text.splitOn '.' name = before ++ [last] ∧
      ∀ segment ∈ before ++ [last], IsSegment segment := by
  cases hrelative : relativePath? name with
  | none => simp [findNamespace?, hrelative] at h
  | some relative =>
      obtain ⟨before, last, hsplit, hsegments, -⟩ := relativePath?_eq_some_iff.mp hrelative
      exact ⟨before, last, hsplit, hsegments⟩

/-- What is asked for before and after one of the paths belongs to the directories before
and after one of them. -/
theorem exists_root_of_map_fileBelow {roots skipped others : List Path} {before : List Text}
    {last : Text}
    (h : roots.map (fun root => fileBelow root before last) = skipped ++ p :: others) :
    ∃ earlier root later, roots = earlier ++ root :: later ∧ p = fileBelow root before last ∧
      skipped = earlier.map fun root => fileBelow root before last := by
  obtain ⟨earlier, rest, hroots, rfl, hrest⟩ := List.map_eq_append_iff.mp h
  obtain ⟨root, later, rfl, rfl, -⟩ := List.map_eq_cons_iff.mp hrest
  exact ⟨earlier, root, later, hroots, rfl, rfl⟩

/-- The file of a name is found in the first directory that has it. -/
theorem findNamespace?_eq_some_iff :
    s.findNamespace? t name = .ok (some p) ↔
      ∃ before last skipped root others, Text.splitOn '.' name = before ++ [last] ∧
        (∀ segment ∈ before ++ [last], IsSegment segment) ∧
        s.paths = skipped ++ root :: others ∧ p = fileBelow root before last ∧
        t.isFile p = .ok true ∧
        ∀ earlier ∈ skipped, t.isFile (fileBelow earlier before last) = .ok false := by
  constructor
  · intro h
    have hne : s.findNamespace? t name ≠ .ok none := by simp [h]
    obtain ⟨before, last, hsplit, hsegments⟩ := exists_segments_of_findNamespace? hne
    rw [findNamespace?_of_segments hsplit hsegments, findM?_eq_some_iff] at h
    obtain ⟨_, _, hitems, hfile, hskipped⟩ := h
    obtain ⟨skipped, root, others, hpaths, rfl, rfl⟩ := exists_root_of_map_fileBelow hitems
    rw [List.forall_mem_map] at hskipped
    exact ⟨before, last, skipped, root, others, hsplit, hsegments, hpaths, rfl, hfile, hskipped⟩
  · rintro ⟨before, last, skipped, root, others, hsplit, hsegments, hpaths, rfl, hfile, hskipped⟩
    rw [findNamespace?_of_segments hsplit hsegments, hpaths, List.map_append, List.map_cons]
    exact findM?_eq_some_iff.mpr ⟨_, _, rfl, hfile, List.forall_mem_map.mpr hskipped⟩

/-- A lookup ends without an answer at the first directory that cannot be asked, unless an
earlier one has the file. -/
theorem findNamespace?_eq_error_iff {fault : Fault} :
    s.findNamespace? t name = .error fault ↔
      ∃ before last skipped root others, Text.splitOn '.' name = before ++ [last] ∧
        (∀ segment ∈ before ++ [last], IsSegment segment) ∧
        s.paths = skipped ++ root :: others ∧
        t.isFile (fileBelow root before last) = .error fault ∧
        ∀ earlier ∈ skipped, t.isFile (fileBelow earlier before last) = .ok false := by
  constructor
  · intro h
    have hne : s.findNamespace? t name ≠ .ok none := by simp [h]
    obtain ⟨before, last, hsplit, hsegments⟩ := exists_segments_of_findNamespace? hne
    rw [findNamespace?_of_segments hsplit hsegments, findM?_eq_error_iff] at h
    obtain ⟨_, _, _, hitems, hfile, hskipped⟩ := h
    obtain ⟨skipped, root, others, hpaths, rfl, rfl⟩ := exists_root_of_map_fileBelow hitems
    rw [List.forall_mem_map] at hskipped
    exact ⟨before, last, skipped, root, others, hsplit, hsegments, hpaths, hfile, hskipped⟩
  · rintro ⟨before, last, skipped, root, others, hsplit, hsegments, hpaths, hfile, hskipped⟩
    rw [findNamespace?_of_segments hsplit hsegments, hpaths, List.map_append, List.map_cons]
    exact findM?_eq_error_iff.mpr ⟨_, _, _, rfl, hfile, List.forall_mem_map.mpr hskipped⟩

/-- Nothing is found if a piece of the name is not good, or if no directory has the file. -/
theorem findNamespace?_eq_none_iff :
    s.findNamespace? t name = .ok none ↔
      ∀ before last, Text.splitOn '.' name = before ++ [last] →
        (∀ segment ∈ before ++ [last], IsSegment segment) →
        ∀ root ∈ s.paths, t.isFile (fileBelow root before last) = .ok false := by
  constructor
  · intro h before last hsplit hsegments
    rw [findNamespace?_of_segments hsplit hsegments, findM?_eq_none_iff, List.forall_mem_map] at h
    exact h
  · intro h
    by_contra hne
    obtain ⟨before, last, hsplit, hsegments⟩ := exists_segments_of_findNamespace? hne
    rw [findNamespace?_of_segments hsplit hsegments, findM?_eq_none_iff, List.forall_mem_map] at hne
    exact hne (h before last hsplit hsegments)

theorem isFile_of_findNamespace? (h : s.findNamespace? t name = .ok (some p)) :
    t.isFile p = .ok true := by
  obtain ⟨_, _, _, _, _, -, -, -, -, hfile, -⟩ := findNamespace?_eq_some_iff.mp h
  exact hfile

/-- The file of a namespace lies below the directory it was found in. -/
theorem exists_place_of_findNamespace? (h : s.findNamespace? t name = .ok (some p)) :
    ∃ root ∈ s.paths, ∃ above below, p = ⟨root.root, root.names ++ below⟩ ∧
      t.place? root = some above ∧ t.place? p = some (above ++ below) := by
  obtain ⟨before, last, skipped, root, others, hsplit, hsegments, hpaths, rfl, hfile, -⟩ :=
    findNamespace?_eq_some_iff.mp h
  have hdown := relativePath?_goes_down
    (relativePath?_eq_some_iff.mpr ⟨before, last, hsplit, hsegments, rfl⟩)
  obtain ⟨-, place, hplace⟩ := FileTree.exists_place_of_isFile hfile
  rw [← join_eq_fileBelow] at hplace
  obtain ⟨above, habove, rfl⟩ := FileTree.exists_place_of_join rfl hdown.2 hplace
  exact ⟨root, hpaths ▸ by simp, above, before ++ [last ++ ".edn"], rfl, habove, hplace⟩

/-- In the working directory alone, the place of a file is below that directory, and a
file that is right in it tells the name. -/
theorem place_of_findNamespace?_here
    (h : (empty [⟨.relative, []⟩]).findNamespace? t name = .ok (some p)) :
    p.root = .relative ∧ t.place? p = some (t.cwd.names ++ p.names) ∧
      ∀ base : Text, p.names = [base ++ ".edn"] → name = base := by
  obtain ⟨before, last, skipped, root, others, hsplit, hsegments, hpaths, rfl, hfile, -⟩ :=
    findNamespace?_eq_some_iff.mp h
  have hroot : root ∈ (empty [⟨.relative, []⟩]).paths := hpaths ▸ by simp
  obtain rfl : root = ⟨.relative, []⟩ := List.mem_singleton.mp hroot
  obtain ⟨-, hdots, hname⟩ := relativePath?_spec
    (relativePath?_eq_some_iff.mpr ⟨before, last, hsplit, hsegments, rfl⟩)
  obtain ⟨-, place, hplace⟩ := FileTree.exists_place_of_isFile hfile
  obtain ⟨entry, hfind, -⟩ := FileTree.place?_eq_some_iff.mp hplace
  obtain rfl := FileTree.place_of_walk hdots (FileTree.find_eq_ok_iff.mp hfind).2
  exact ⟨rfl, hplace, hname⟩

/-- Looking a namespace up stays below the directories it is looked up in and cannot take
one name for another. The file found is named by the segments of the name, none of
which is empty or holds a dot or a stroke, and lies in the first directory that has
it; its place is below the place of that directory; and no other name has the same
path. Nothing is found only if there is no such file.

The lookup does not always come to an answer. It is stopped by the first directory that
cannot be asked for the file, and that is because the path, or a name on it, is too long
or because some directory may not be entered. -/
theorem findNamespace?_confined (t : FileTree) (s : Store) (name : Text) :
    (∀ p, s.findNamespace? t name = .ok (some p) ↔
      ∃ before last skipped root others, Text.splitOn '.' name = before ++ [last] ∧
        (∀ segment ∈ before ++ [last], IsSegment segment) ∧
        s.paths = skipped ++ root :: others ∧ p = fileBelow root before last ∧
        t.isFile p = .ok true ∧
        ∀ earlier ∈ skipped, t.isFile (fileBelow earlier before last) = .ok false) ∧
      (∀ p, s.findNamespace? t name = .ok (some p) →
        ∃ root ∈ s.paths, ∃ above below, p = ⟨root.root, root.names ++ below⟩ ∧
          t.place? root = some above ∧ t.place? p = some (above ++ below)) ∧
      (s.findNamespace? t name = .ok none ↔
        ∀ before last, Text.splitOn '.' name = before ++ [last] →
          (∀ segment ∈ before ++ [last], IsSegment segment) →
          ∀ root ∈ s.paths, t.isFile (fileBelow root before last) = .ok false) ∧
      (∀ fault, s.findNamespace? t name = .error fault ↔
        ∃ before last skipped root others, Text.splitOn '.' name = before ++ [last] ∧
          (∀ segment ∈ before ++ [last], IsSegment segment) ∧
          s.paths = skipped ++ root :: others ∧
          t.isFile (fileBelow root before last) = .error fault ∧
          ∀ earlier ∈ skipped, t.isFile (fileBelow earlier before last) = .ok false) ∧
      (∀ p fault, t.isFile p = .error fault →
        (fault = .nameTooLong ∧
            (p.isLong = true ∨ ∃ part ∈ p.names, Path.maxNameSize < Path.size part)) ∨
          (fault = .denied ∧ ∃ place ∈ t.locked, t.at? place = some .directory)) ∧
      ∀ other p, relativePath? name = some p → relativePath? other = some p → name = other :=
  ⟨fun _ => findNamespace?_eq_some_iff, fun _ => exists_place_of_findNamespace?,
    findNamespace?_eq_none_iff, fun _ => findNamespace?_eq_error_iff,
    fun _ _ h => FileTree.look_eq_error (FileTree.isFile_eq_error_iff.mp h),
    fun _ _ => relativePath?_injective⟩

/-- The first directory has a directory where the file should be, so the file of the second
one is taken. A name that starts with two dots has empty segments and is looked up
nowhere, although the path that it seems to write leads to a file. -/
theorem findNamespace?_confined_second :
    let t : FileTree := ⟨⟨.single, ["ws"]⟩,
      [(["ws", "a", "x", "y.edn"], .directory), (["ws", "b", "x", "y.edn"], .file []),
        (["ws", "z.edn"], .file [])], []⟩
    let s : Store := .empty [⟨.relative, ["a"]⟩, ⟨.relative, ["b"]⟩]
    s.findNamespace? t "x.y" = .ok (some ⟨.relative, ["b", "x", "y.edn"]⟩) ∧
      (∃ root ∈ s.paths, ∃ above below,
        (⟨.relative, ["b", "x", "y.edn"]⟩ : Path) = ⟨root.root, root.names ++ below⟩ ∧
          t.place? root = some above ∧
          t.place? ⟨.relative, ["b", "x", "y.edn"]⟩ = some (above ++ below)) ∧
      s.findNamespace? t "../z" = .ok none := by
  intro t s
  obtain ⟨hfound, hplace, -⟩ := findNamespace?_confined t s "x.y"
  have hfile : s.findNamespace? t "x.y" = .ok (some ⟨.relative, ["b", "x", "y.edn"]⟩) := by
    refine (hfound _).mpr ⟨["x"], "y", [⟨.relative, ["a"]⟩], ⟨.relative, ["b"]⟩, [], ?_⟩
    simp only [IsSegment]
    decide +kernel
  refine ⟨hfile, hplace _ hfile, ?_⟩
  refine (findNamespace?_confined t s "../z").2.2.1.mpr fun before last hsplit hsegments => ?_
  rw [← hsplit] at hsegments
  exact absurd rfl (hsegments [] (by decide)).1

/-- A name of 252 code points makes the name of a file that is too long by one byte, and
looking it up gives no answer, not even that there is no such file. -/
theorem findNamespace?_stopped :
    let t : FileTree := ⟨⟨.single, ["ws"]⟩, [], []⟩
    let name : Text := List.replicate 252 (CodePoint.ofChar 'a')
    (Store.empty [⟨.relative, []⟩]).findNamespace? t name = .error .nameTooLong := by
  decide +kernel

end Store

end EdnLint
