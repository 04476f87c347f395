import EdnLint.Config
import EdnLint.Proofs.Datum.Display
import EdnLint.Proofs.Document.Faults
import EdnLint.Proofs.Files.Place
import EdnLint.Proofs.Toml.Faults

/-!
# How a configuration comes about

Two files in the root of a workspace hold its settings. What a file *says* is there only if the
file can be decoded and its text reads; otherwise the file is as good as absent, and `Layered`
tells which settings win.

Not every broken file is absent, though. Some end the loading in a fault, and then there is no
configuration at all. `Stops` lists them: bytes that are no text, a number that is too large to be
converted, a name that no path can be made of, and an integer that is too long to be written as a
pattern. It also ends if a file cannot even be asked for. Everything else is told by the layers.
-/

namespace EdnLint

namespace Setting

theorem string?_eq_some_iff {s : Setting} {name : Text} :
    s.string? = some name ↔ s = .string name := by
  cases s <;> simp [string?]

theorem array?_eq_some_iff {s : Setting} {items : List Setting} :
    s.array? = some items ↔ s = .array items := by
  cases s <;> simp [array?]

/-- The setting holds an integer that is too long to be written. -/
inductive IsTooLong : Setting → Prop
  | int {n : Int} : Number.maxDigits < Binary64.digitCount n.natAbs → IsTooLong (.int n)
  | item {items : List Setting} {s : Setting} :
      s ∈ items → IsTooLong s → IsTooLong (.array items)
  | member {members : List (Text × Setting)} {name : Text} {s : Setting} :
      (name, s) ∈ members → IsTooLong s → IsTooLong (.table members)

mutual

theorem fails_detailed_iff : ∀ s : Setting, Fails s.detailed ↔ s.IsTooLong
  | .null => iff_of_false (not_fails_ok _) nofun
  | .bool b => iff_of_false (not_fails_ok _) nofun
  | .int n => by
      rw [detailed, Number.fails_intText_iff]
      constructor
      · exact .int
      · intro h
        cases h with
        | int h => exact h
  | .float x => iff_of_false (not_fails_ok _) nofun
  | .string t => iff_of_false (not_fails_ok _) nofun
  | .moment m => iff_of_false (not_fails_ok _) nofun
  | .array items => by
      simp only [detailed, bind_pure_comp, fails_map_iff, fails_detailedItems_iff items]
      constructor
      · rintro ⟨s, hs, h⟩
        exact .item hs h
      · intro h
        cases h with
        | item hs h => exact ⟨_, hs, h⟩
  | .table members => by
      simp only [detailed, bind_pure_comp, fails_map_iff, fails_detailedMembers_iff members]
      constructor
      · rintro ⟨name, s, hs, h⟩
        exact .member hs h
      · intro h
        cases h with
        | member hs h => exact ⟨_, _, hs, h⟩

theorem fails_detailedItems_iff :
    ∀ items : List Setting, Fails (detailedItems items) ↔ ∃ s ∈ items, s.IsTooLong
  | [] => by simp [detailedItems]
  | s :: items => by
      have hrest : ∀ shown, Fails (do return shown :: (← detailedItems items)) ↔
          ∃ s ∈ items, s.IsTooLong := by
        intro shown
        simpa using fails_detailedItems_iff items
      rw [detailedItems, fails_bind_iff hrest, fails_detailed_iff s]
      simp

theorem fails_detailedMembers_iff :
    ∀ members : List (Text × Setting), Fails (detailedMembers members) ↔
      ∃ name s, (name, s) ∈ members ∧ s.IsTooLong
  | [] => by simp [detailedMembers]
  | (name, s) :: members => by
      have hrest : ∀ shown : Text, Fails (do
          return (name.quoted ++ ": " ++ shown) :: (← detailedMembers members)) ↔
          ∃ name s, (name, s) ∈ members ∧ s.IsTooLong := by
        intro shown
        simpa using fails_detailedMembers_iff members
      rw [detailedMembers, fails_bind_iff hrest, fails_detailed_iff s]
      constructor
      · rintro (h | ⟨name', s', hs, h⟩)
        · exact ⟨name, s, List.mem_cons_self, h⟩
        · exact ⟨name', s', List.mem_cons_of_mem _ hs, h⟩
      · rintro ⟨name', s', hs, h⟩
        rcases List.mem_cons.mp hs with heq | hs
        · cases heq
          exact Or.inl h
        · exact Or.inr ⟨name', s', hs, h⟩

end

theorem fails_plain_iff (s : Setting) : Fails s.plain ↔ s.IsTooLong := by
  rw [← fails_detailed_iff]
  cases s with
  | string t => exact iff_of_false (not_fails_ok _) (not_fails_ok _)
  | moment m => exact iff_of_false (not_fails_ok _) (not_fails_ok _)
  | _ => rfl

end Setting

/-- The fault among the failures of reading a document. -/
def ReadFailure.fault? : ReadFailure → Option Fault
  | .error _ => none
  | .fault f => some f

/-- The fault among the reasons to stop. -/
def Toml.Stop.fault? : Toml.Stop → Option Fault
  | .error _ _ => none
  | .fault f => some f

namespace Config

section Parts

variable {t : FileTree} {dir : Path}

/-- The path that a name listed in a directory stands for. -/
def resolved (t : FileTree) (dir : Path) (name : Text) : Path :=
  Path.resolve t.cwd (dir.join (Path.ofText name))

/-- No path can be made of a name. -/
def IsRefused (dir : Path) (name : Text) : Prop := (dir.join (Path.ofText name)).fault? ≠ none

theorem fails_resolveName_iff (name : Text) :
    Fails (match (dir.join (Path.ofText name)).fault? with
      | some fault => .error fault
      | none => .ok (Path.resolve t.cwd (dir.join (Path.ofText name)))) ↔ IsRefused dir name := by
  unfold IsRefused
  split
  · rename_i fault hfault
    exact iff_of_true (fails_error fault) (by simp [hfault])
  · rename_i hfault
    exact iff_of_false (not_fails_ok _) (by simp [hfault])

theorem fails_resolveNames_iff (names : List Text) :
    Fails (resolveNames t dir names) ↔ ∃ name ∈ names, IsRefused dir name := by
  rw [resolveNames, fails_mapM_iff]
  exact exists_congr fun name => and_congr_right fun _ => fails_resolveName_iff name

theorem resolveNames_eq_ok {names : List Text} {paths : List Path}
    (h : resolveNames t dir names = .ok paths) : paths = names.map (resolved t dir) := by
  have hpaths : List.Forall₂ (· = ·) (names.map (resolved t dir)) paths := by
    rw [List.forall₂_map_left_iff]
    refine (forall₂_of_mapM h).imp fun name path hpath => ?_
    dsimp only at hpath
    split at hpath
    · cases hpath
    · cases hpath
      rfl
  rw [List.forall₂_eq_eq_eq] at hpaths
  exact hpaths.symm

theorem mem_textsOf_iff {items : List Datum} {name : Text} :
    name ∈ textsOf items ↔ .atom (.string name) ∈ items := by
  unfold textsOf
  rw [List.mem_filterMap]
  constructor
  · rintro ⟨d, hd, h⟩
    split at h
    · cases h
      exact hd
    · cases h
  · exact fun h => ⟨_, h, rfl⟩

theorem mem_strings_iff {items : List Setting} {name : Text} :
    name ∈ items.filterMap Setting.string? ↔ .string name ∈ items := by
  simp [Setting.string?_eq_some_iff]

theorem fails_projectPaths_iff (listed : List Path) (members : List (Text × Setting)) :
    Fails (projectPaths t dir listed members) ↔ ∃ items name,
      Members.get? "paths" members = some (.array items) ∧ .string name ∈ items ∧
        IsRefused dir name := by
  unfold projectPaths
  split
  · rename_i items hmember
    rw [fails_resolveNames_iff]
    constructor
    · rintro ⟨name, hname, h⟩
      exact ⟨items, name, hmember, mem_strings_iff.mp hname, h⟩
    · rintro ⟨items', name, hmember', hname, h⟩
      cases hmember.symm.trans hmember'
      exact ⟨name, mem_strings_iff.mpr hname, h⟩
  · rename_i s hother hmember
    refine iff_of_false (not_fails_ok _) ?_
    rintro ⟨items, name, hmember', -⟩
    exact hother items (hmember'.symm.trans hmember |> Option.some.inj |>.symm)
  · rename_i hmember
    refine iff_of_false (not_fails_ok _) ?_
    rintro ⟨items, name, hmember', -⟩
    cases hmember.symm.trans hmember'

theorem fails_patterns_iff (known : List Text) (member : Option Setting) :
    Fails (patterns known member) ↔
      ∃ items s, member = some (.array items) ∧ s ∈ items ∧ s.IsTooLong := by
  unfold patterns
  split
  · rename_i items hitems
    obtain ⟨s, rfl, hs⟩ := Option.bind_eq_some_iff.mp hitems
    cases Setting.array?_eq_some_iff.mp hs
    rw [fails_mapM_iff]
    constructor
    · rintro ⟨s, hs, h⟩
      exact ⟨items, s, rfl, hs, (Setting.fails_plain_iff s).mp h⟩
    · rintro ⟨items, s, ⟨⟩, hs, h⟩
      exact ⟨s, hs, (Setting.fails_plain_iff s).mpr h⟩
  · rename_i hnone
    refine iff_of_false (not_fails_ok _) ?_
    rintro ⟨items, s, rfl, -⟩
    cases hnone

end Parts

/-- What a file says: what `read` makes of its text, if there is a text and it reads. -/
def content? {ε α : Type} (t : FileTree) (path : Path) (read : Text → Except ε α) : Option α :=
  (t.readText path).toOption.bind fun text => (read text).toOption

/-- What `zen.edn` says. -/
def listing? (t : FileTree) (dir : Path) : Option Datum :=
  content? t (dir.child "zen.edn") readDatum

/-- The members that `.zenlsp.toml` says, if it says anything. -/
def projectContent (t : FileTree) (dir : Path) : List (Text × Setting) :=
  (content? t (dir.child ".zenlsp.toml") Toml.parse).getD []

/-- What `.zenlsp.toml` says under a name. -/
def member? (t : FileTree) (dir : Path) (name : Text) : Option Setting :=
  Members.get? name (projectContent t dir)

/-- The settings of a configuration, by the files that say them. -/
structure Layered (t : FileTree) (dir : Path) (c : Config) : Prop where
  /-- The project's own file decides about the paths if it mentions them at all. -/
  project : ∀ s, member? t dir "paths" = some s →
    c.paths = ((s.array?.getD []).filterMap Setting.string?).map (resolved t dir)
  /-- Otherwise the paths are those that `zen.edn` lists. -/
  listed : member? t dir "paths" = none → ∀ entries items,
    listing? t dir = some (.map entries) →
    Key.lookup? (.keyword "paths") entries = some (.vector items) →
      c.paths = (textsOf items).map (resolved t dir)
  unlisted : member? t dir "paths" = none →
    (∀ entries items, listing? t dir = some (.map entries) →
      Key.lookup? (.keyword "paths") entries ≠ some (.vector items)) → c.paths = []
  /-- Each item of an array of patterns is written out. -/
  exclude : ∀ items, member? t dir "exclude" = some (.array items) →
    List.Forall₂ (fun s pattern => s.plain = .ok pattern) items c.exclude
  noExclude : (∀ items, member? t dir "exclude" ≠ some (.array items)) → c.exclude = []
  logLevel : ∀ level, c.logLevel = some level ↔ member? t dir "log_level" = some (.string level)

/-- What ends the loading of a configuration in a fault. -/
inductive Stops (t : FileTree) (dir : Path) : Prop
  | listingPlace {fault : Fault} : t.look (dir.child "zen.edn") = .error fault → Stops t dir
  | listingBytes : t.IsUndecodable (dir.child "zen.edn") → Stops t dir
  | listingNumber {text token : Text} {fault : Fault} :
      t.readText (dir.child "zen.edn") = .ok text → readDatum text = .error (.fault fault) →
      token <:+: text → Grammar.IsBare token → Scalar.Exceeds token fault → Stops t dir
  | listedName {entries : List (Key × Datum)} {items : List Datum} {name : Text} :
      listing? t dir = some (.map entries) →
      Key.lookup? (.keyword "paths") entries = some (.vector items) →
      .atom (.string name) ∈ items → IsRefused dir name → Stops t dir
  | projectPlace {fault : Fault} : t.look (dir.child ".zenlsp.toml") = .error fault → Stops t dir
  | projectBytes : t.IsUndecodable (dir.child ".zenlsp.toml") → Stops t dir
  | projectInteger {text : Text} :
      t.readText (dir.child ".zenlsp.toml") = .ok text →
      Toml.parse text = .error (.fault .digitLimit) → Toml.HasLongInteger text → Stops t dir
  | projectName {items : List Setting} {name : Text} :
      member? t dir "paths" = some (.array items) → .string name ∈ items →
      IsRefused dir name → Stops t dir
  | pattern {items : List Setting} {s : Setting} :
      member? t dir "exclude" = some (.array items) → s ∈ items → s.IsTooLong → Stops t dir

section Files

variable {ε α : Type} {t : FileTree} {dir path : Path} {read : Text → Except ε α}
  {fault? : ε → Option Fault}

/-- What becomes of a file that may hold settings: what it says, or a fault. -/
def outcome (t : FileTree) (path : Path) (read : Text → Except ε α) (fault? : ε → Option Fault) :
    Except Fault (Option α) :=
  match t.look path with
  | .error fault => .error fault
  | .ok none => .ok none
  | .ok (some _) =>
      match t.readText path with
      | .error (.error _) => .ok none
      | .error (.fault fault) => .error fault
      | .ok text =>
          match read text with
          | .ok a => .ok (some a)
          | .error e =>
              match fault? e with
              | some fault => .error fault
              | none => .ok none

theorem outcome_eq_ok {found : Option α} (h : outcome t path read fault? = .ok found) :
    found = content? t path read := by
  unfold outcome at h
  unfold content?
  split at h
  · cases h
  · rename_i hlook
    cases h
    cases hread : t.readText path with
    | error failure => rfl
    | ok text =>
        obtain ⟨place, hplace⟩ := FileTree.exists_look_of_readText hread
        cases hlook.symm.trans hplace
  split at h
  · rename_i hread
    cases h
    rw [hread]
    rfl
  · cases h
  · rename_i text hread
    rw [hread]
    change found = (read text).toOption
    split at h
    · rename_i hsaid
      cases h
      rw [hsaid]
      rfl
    · rename_i e hsaid
      rw [hsaid]
      split at h
      · cases h
      · cases h
        rfl

theorem fails_outcome_iff : Fails (outcome t path read fault?) ↔
    Fails (t.look path) ∨ t.IsUndecodable path ∨
      ∃ text e, t.readText path = .ok text ∧ read text = .error e ∧ (fault? e).isSome := by
  unfold outcome
  split
  · rename_i fault hlook
    exact iff_of_true (fails_error fault) (Or.inl ⟨fault, hlook⟩)
  · rename_i hlook
    refine iff_of_false (not_fails_ok _) ?_
    rintro (⟨fault, hfault⟩ | h | ⟨text, e, hread, -⟩)
    · cases hlook.symm.trans hfault
    · obtain ⟨found, hfound⟩ := h.exists_look
      cases hlook.symm.trans hfound
    · obtain ⟨found, hfound⟩ := FileTree.exists_look_of_readText hread
      cases hlook.symm.trans hfound
  rename_i found hlook
  have hasked : ¬ Fails (t.look path) := by
    rw [hlook]
    exact not_fails_ok _
  rw [or_iff_right hasked]
  split
  · rename_i e hread
    refine iff_of_false (not_fails_ok _) ?_
    rintro (h | ⟨text, e, hread', -⟩)
    · cases hread.symm.trans h.readText_eq
    · cases hread.symm.trans hread'
  · rename_i fault hread
    refine iff_of_true (fails_error fault) (Or.inl ?_)
    rcases FileTree.readText_eq_fault_iff.mp hread with hrefusal | ⟨h, -⟩
    · cases (FileTree.look_eq_ok_some_iff.mp hlook).1.symm.trans hrefusal
    · exact h
  · rename_i text hread
    have hdecodable : ¬ t.IsUndecodable path := by
      intro h
      cases hread.symm.trans h.readText_eq
    rw [or_iff_right hdecodable]
    split
    · rename_i hsaid
      refine iff_of_false (not_fails_ok _) ?_
      rintro ⟨text', e, hread', herror, -⟩
      cases hread.symm.trans hread'
      cases hsaid.symm.trans herror
    · rename_i e herror
      split
      · rename_i fault hfault
        exact iff_of_true (fails_error fault) ⟨text, e, hread, herror, by rw [hfault]; rfl⟩
      · rename_i hfault
        refine iff_of_false (not_fails_ok _) ?_
        rintro ⟨text', e', hread', herror', hfault'⟩
        cases hread.symm.trans hread'
        cases herror.symm.trans herror'
        simp [hfault] at hfault'

theorem outcome_of_not_isFile (h : t.isFile path = .ok false) :
    outcome t path read fault? = .ok none := by
  unfold outcome
  split
  · rename_i fault hlook
    cases h.symm.trans (FileTree.isFile_eq_error_iff.mpr hlook)
  · rfl
  rename_i found hlook
  obtain ⟨place, entry⟩ := found
  obtain ⟨hrefusal, hfind⟩ := FileTree.look_eq_ok_some_iff.mp hlook
  cases entry with
  | file bytes => cases h.symm.trans (FileTree.isFile_eq_true_iff.mpr ⟨place, bytes, hlook⟩)
  | directory =>
      have hread : ∃ e, t.readText path = .error (.error e) := by
        simp only [FileTree.readText, hrefusal, hfind]
        split
        · exact ⟨_, rfl⟩
        · exact ⟨_, rfl⟩
      obtain ⟨e, hread⟩ := hread
      rw [hread]

theorem outcome_bind {β : Type} (f : Option α → Except Fault β) :
    outcome t path read fault? >>= f =
      outcome t path read fault? >>= fun _ => f (content? t path read) := by
  cases h : outcome t path read fault? with
  | error fault => rfl
  | ok found =>
      rw [← outcome_eq_ok h]
      rfl

theorem listedPaths_eq (t : FileTree) (dir : Path) : (listedPaths t dir).2 =
    (outcome t (dir.child "zen.edn") readDatum ReadFailure.fault? >>= fun _ =>
      resolveNames t dir (((listing? t dir).map listedNames).getD [])) := by
  refine Eq.trans ?_ (outcome_bind fun found =>
    resolveNames t dir ((found.map listedNames).getD []))
  unfold listedPaths
  dsimp only
  split
  · rename_i fault hfile
    rw [outcome, FileTree.isFile_eq_error_iff.mp hfile]
    rfl
  · rename_i hfile
    rw [outcome_of_not_isFile hfile]
    rfl
  · rename_i hfile
    obtain ⟨place, bytes, hlook⟩ := FileTree.isFile_eq_true_iff.mp hfile
    rw [outcome, hlook]
    cases hread : t.readText (dir.child "zen.edn") with
    | error failure => cases failure <;> rfl
    | ok text =>
        cases hsaid : readDatum text with
        | error failure => cases failure <;> simp only [hsaid] <;> rfl
        | ok d =>
            simp only [hsaid]
            rfl

theorem projectMembers_eq (t : FileTree) (dir : Path) : (projectMembers t dir).2 =
    (outcome t (dir.child ".zenlsp.toml") Toml.parse Toml.Stop.fault? >>= fun _ =>
      .ok (projectContent t dir)) := by
  refine Eq.trans ?_ (outcome_bind fun found => .ok (found.getD []))
  unfold projectMembers
  dsimp only
  split
  · rename_i fault hthere
    rw [outcome, FileTree.isThere_eq_error_iff.mp hthere]
    rfl
  · rename_i hthere
    rw [outcome, FileTree.isThere_eq_false_iff.mp hthere]
    rfl
  · rename_i hthere
    obtain ⟨found, hlook⟩ := FileTree.isThere_eq_true_iff.mp hthere
    rw [outcome, hlook]
    cases hread : t.readText (dir.child ".zenlsp.toml") with
    | error failure => cases failure <;> rfl
    | ok text =>
        cases hsaid : Toml.parse text with
        | error failure => cases failure <;> simp only [hsaid] <;> rfl
        | ok members =>
            simp only [hsaid]
            rfl

/-- The loading of a configuration in terms of what the files say. Each file is read for its
faults alone. -/
theorem load_eq {name : Text} (hname : name ≠ []) : (load t (some name)).2 = do
    let _ ← outcome t ((Path.ofText name).child "zen.edn") readDatum ReadFailure.fault?
    let listed ← resolveNames t (Path.ofText name)
      (((listing? t (Path.ofText name)).map listedNames).getD [])
    let _ ← outcome t ((Path.ofText name).child ".zenlsp.toml") Toml.parse Toml.Stop.fault?
    let paths ← projectPaths t (Path.ofText name) listed (projectContent t (Path.ofText name))
    let exclude ← patterns [] (member? t (Path.ofText name) "exclude")
    return ⟨some name, paths, exclude,
      (member? t (Path.ofText name) "log_level").bind Setting.string?⟩ := by
  have hempty : name.isEmpty = false := by simpa using hname
  -- the first two steps are the listing, and its log does not matter here
  rw [← bind_assoc, ← listedPaths_eq]
  simp only [load, hempty, Bool.false_eq_true, if_false]
  obtain ⟨log, listed⟩ := listedPaths t (Path.ofText name)
  cases listed with
  | error fault => rfl
  | ok listed =>
      dsimp only
      rw [projectMembers_eq, bind_assoc]
      rfl

theorem mem_listedNames_iff {d : Datum} {name : Text} :
    name ∈ listedNames d ↔ ∃ entries items, d = .map entries ∧
      Key.lookup? (.keyword "paths") entries = some (.vector items) ∧
        .atom (.string name) ∈ items := by
  unfold listedNames
  split
  · rename_i entries
    split
    · rename_i items hitems
      rw [mem_textsOf_iff]
      constructor
      · exact fun h => ⟨entries, items, rfl, hitems, h⟩
      · rintro ⟨entries', items', ⟨⟩, hitems', h⟩
        cases hitems.symm.trans hitems'
        exact h
    · rename_i hother
      refine iff_of_false List.not_mem_nil ?_
      rintro ⟨entries', items', ⟨⟩, hitems', -⟩
      exact hother items' hitems'
  · rename_i hother
    refine iff_of_false List.not_mem_nil ?_
    rintro ⟨entries', items', rfl, -⟩
    exact hother entries' rfl

theorem exists_token_of_readDatum {text : Text} {fault : Fault}
    (h : readDatum text = .error (.fault fault)) :
    ∃ token, token <:+: text ∧ Grammar.IsBare token ∧ Scalar.Exceeds token fault := by
  have hparse : parse text = .error (.fault fault) := by
    unfold readDatum at h
    cases hparse : parse text with
    | error e =>
        rw [hparse] at h
        cases h
        rfl
    | ok n =>
        rw [hparse] at h
        cases h
  obtain ⟨u, rest, r, start, read, rfl, -, hr, hmode, htoken⟩ := exists_token_of_parse_fault hparse
  obtain ⟨v, s, rfl, -, hbare⟩ := Reader.exists_between_of_token hr hmode
  exact ⟨read.reverse, ⟨v, rest, rfl⟩, hbare, (Scalar.ofToken_eq_fault_iff _ _).mp htoken⟩

theorem fails_load_iff_parts {name : Text} (hname : name ≠ []) :
    let dir := Path.ofText name
    Fails (load t (some name)).2 ↔
      Fails (outcome t (dir.child "zen.edn") readDatum ReadFailure.fault?) ∨
      (∃ known ∈ ((listing? t dir).map listedNames).getD [], IsRefused dir known) ∨
      Fails (outcome t (dir.child ".zenlsp.toml") Toml.parse Toml.Stop.fault?) ∨
      (∃ items known, member? t dir "paths" = some (.array items) ∧ .string known ∈ items ∧
        IsRefused dir known) ∨
      ∃ items s, member? t dir "exclude" = some (.array items) ∧ s ∈ items ∧ s.IsTooLong := by
  intro dir
  rw [load_eq hname]
  refine fails_bind_iff fun _ => ?_
  refine (fails_bind_iff fun listed => ?_).trans (or_congr_left (fails_resolveNames_iff _))
  refine fails_bind_iff fun _ => ?_
  refine (fails_bind_iff fun paths => ?_).trans (or_congr_left (fails_projectPaths_iff _ _))
  rw [bind_pure_comp, fails_map_iff]
  exact fails_patterns_iff _ _

/-- Loading ends in a fault for the reasons listed, and for no other. -/
theorem fails_load_iff {name : Text} (hname : name ≠ []) :
    Fails (load t (some name)).2 ↔ Stops t (Path.ofText name) := by
  refine (fails_load_iff_parts hname).trans ?_
  rw [fails_outcome_iff, fails_outcome_iff]
  constructor
  · rintro ((⟨fault, hlook⟩ | hbytes | ⟨text, e, hread, hdatum, he⟩) |
      ⟨known, hknown, hrefused⟩ | (⟨fault, hlook⟩ | hbytes | ⟨text, e, hread, hparse, he⟩) |
      ⟨items, known, hmember, hknown, hrefused⟩ | ⟨items, s, hmember, hs, hlong⟩)
    · exact .listingPlace hlook
    · exact .listingBytes hbytes
    · -- of the failures only a fault gets through, and it comes from a number
      cases e with
      | error e => cases he
      | fault fault =>
          obtain ⟨token, htoken, hbare, hexceeds⟩ := exists_token_of_readDatum hdatum
          exact .listingNumber hread hdatum htoken hbare hexceeds
    · cases hlisting : listing? t (Path.ofText name) with
      | none =>
          rw [hlisting] at hknown
          cases hknown
      | some d =>
          rw [hlisting] at hknown
          obtain ⟨entries, items, rfl, hitems, hknown⟩ := mem_listedNames_iff.mp hknown
          exact .listedName hlisting hitems hknown hrefused
    · exact .projectPlace hlook
    · exact .projectBytes hbytes
    · cases e with
      | error cause rest => cases he
      | fault fault =>
          obtain ⟨rfl, hlong⟩ := Toml.hasLongInteger_of_parse hparse
          exact .projectInteger hread hparse hlong
    · exact .projectName hmember hknown hrefused
    · exact .pattern hmember hs hlong
  · intro h
    cases h with
    | listingPlace hlook => exact Or.inl (Or.inl ⟨_, hlook⟩)
    | listingBytes hbytes => exact Or.inl (Or.inr (Or.inl hbytes))
    | listingNumber hread hdatum => exact Or.inl (Or.inr (Or.inr ⟨_, _, hread, hdatum, rfl⟩))
    | listedName hlisting hitems hknown hrefused =>
        refine Or.inr (Or.inl ⟨_, ?_, hrefused⟩)
        rw [hlisting]
        exact mem_listedNames_iff.mpr ⟨_, _, rfl, hitems, hknown⟩
    | projectPlace hlook => exact Or.inr (Or.inr (Or.inl (Or.inl ⟨_, hlook⟩)))
    | projectBytes hbytes => exact Or.inr (Or.inr (Or.inl (Or.inr (Or.inl hbytes))))
    | projectInteger hread hparse =>
        exact Or.inr (Or.inr (Or.inl (Or.inr (Or.inr ⟨_, _, hread, hparse, rfl⟩))))
    | projectName hmember hknown hrefused =>
        exact Or.inr (Or.inr (Or.inr (Or.inl ⟨_, _, hmember, hknown, hrefused⟩)))
    | pattern hmember hs hlong =>
        exact Or.inr (Or.inr (Or.inr (Or.inr ⟨_, _, hmember, hs, hlong⟩)))

theorem projectPaths_eq_ok {listed paths : List Path} {members : List (Text × Setting)}
    (h : projectPaths t dir listed members = .ok paths) :
    (∀ s, Members.get? "paths" members = some s →
      paths = ((s.array?.getD []).filterMap Setting.string?).map (resolved t dir)) ∧
    (Members.get? "paths" members = none → paths = listed) := by
  unfold projectPaths at h
  split at h
  · rename_i items hmember
    rw [hmember]
    refine ⟨?_, nofun⟩
    rintro s ⟨⟩
    exact resolveNames_eq_ok h
  · rename_i s hother hmember
    cases h
    rw [hmember]
    refine ⟨?_, nofun⟩
    rintro s ⟨⟩
    cases s with
    | array items => exact absurd rfl (hother items)
    | _ => rfl
  · rename_i hmember
    cases h
    rw [hmember]
    exact ⟨nofun, fun _ => rfl⟩

theorem patterns_eq_ok {member : Option Setting} {found : List Text}
    (h : patterns [] member = .ok found) :
    (∀ items, member = some (.array items) →
      List.Forall₂ (fun s pattern => s.plain = .ok pattern) items found) ∧
    ((∀ items, member ≠ some (.array items)) → found = []) := by
  unfold patterns at h
  split at h
  · rename_i items hitems
    obtain ⟨s, rfl, hs⟩ := Option.bind_eq_some_iff.mp hitems
    cases Setting.array?_eq_some_iff.mp hs
    refine ⟨?_, fun hother => absurd rfl (hother items)⟩
    rintro items ⟨⟩
    exact forall₂_of_mapM h
  · rename_i hnone
    cases h
    refine ⟨?_, fun _ => rfl⟩
    rintro items rfl
    cases hnone

theorem layered_of_load {name : Text} {c : Config} (hname : name ≠ [])
    (h : (load t (some name)).2 = .ok c) :
    c.root = some name ∧ Layered t (Path.ofText name) c := by
  rw [load_eq hname] at h
  obtain ⟨-, -, h⟩ := exists_of_bind_eq_ok h
  obtain ⟨listed, hlisted, h⟩ := exists_of_bind_eq_ok h
  obtain ⟨-, -, h⟩ := exists_of_bind_eq_ok h
  obtain ⟨paths, hpaths, h⟩ := exists_of_bind_eq_ok h
  obtain ⟨exclude, hexclude, h⟩ := exists_of_bind_eq_ok h
  cases h
  obtain ⟨hproject, hother⟩ := projectPaths_eq_ok hpaths
  obtain ⟨hexclude, hnoExclude⟩ := patterns_eq_ok hexclude
  have hlisted := resolveNames_eq_ok hlisted
  refine ⟨rfl, hproject, ?_, ?_, hexclude, hnoExclude, ?_⟩
  · intro hmember entries items hlisting hitems
    have hnames : listedNames (.map entries) = textsOf items := by
      simp only [listedNames, hitems]
    rw [hlisting, Option.map_some, Option.getD_some, hnames] at hlisted
    exact (hother hmember).trans hlisted
  · intro hmember hunlisted
    rw [hother hmember, hlisted]
    cases hlisting : listing? t (Path.ofText name) with
    | none => rfl
    | some d =>
        have hnames : listedNames d = [] := by
          rw [List.eq_nil_iff_forall_not_mem]
          intro known hknown
          obtain ⟨entries, items, rfl, hitems, -⟩ := mem_listedNames_iff.mp hknown
          exact hunlisted entries items hlisting hitems
        rw [Option.map_some, Option.getD_some, hnames]
        rfl
  · intro level
    rw [Option.bind_eq_some_iff]
    constructor
    · rintro ⟨s, hs, hlevel⟩
      rw [hs, Setting.string?_eq_some_iff.mp hlevel]
    · exact fun hlevel => ⟨_, hlevel, rfl⟩

end Files

/-- What loading a configuration comes to. If one of the files stops it there is none; otherwise
there is one, and every setting of it is the one that the files say, a file that does not read
saying nothing. -/
theorem load_layers (t : FileTree) {name : Text} (hname : name ≠ []) :
    (Stops t (Path.ofText name) → Fails (load t (some name)).2) ∧
    (¬ Stops t (Path.ofText name) → ∃ c, (load t (some name)).2 = .ok c ∧
      c.root = some name ∧ Layered t (Path.ofText name) c) := by
  rw [← fails_load_iff hname]
  refine ⟨id, fun hnot => ?_⟩
  cases hload : (load t (some name)).2 with
  | error fault => exact absurd ⟨fault, hload⟩ hnot
  | ok c => exact ⟨c, rfl, layered_of_load hname hload⟩

/-- The project's file overrides the paths of `zen.edn`, and an item that is no string counts only
among the patterns. -/
theorem load_layers_overridden :
    let name : Text := "/ws"
    let t : FileTree := ⟨⟨.single, ["ws"]⟩,
      [(["ws", "zen.edn"], .file (Utf8.encode "\x7b:paths [\"zrc\"]\x7d")),
        (["ws", ".zenlsp.toml"],
          .file (Utf8.encode "paths = [\"lib\", 5]\nexclude = [\"*.tmp\", 7]\n"))], []⟩
    name ≠ [] ∧ ∃ c, (load t (some name)).2 = .ok c ∧ Layered t (Path.ofText name) c ∧
      c.paths = [⟨.single, ["ws", "lib"]⟩] ∧ c.exclude = ["*.tmp", "7"] := by
  intro name t
  have hname : name ≠ [] := by decide
  have hloads : (load t (some name)).2.toOption.map (fun c => (c.paths, c.exclude)) =
      some (([⟨.single, ["ws", "lib"]⟩] : List Path), (["*.tmp", "7"] : List Text)) := by
    decide +kernel
  obtain ⟨hstops, hlayers⟩ := load_layers t hname
  have hnot : ¬ Stops t (Path.ofText name) := by
    intro h
    obtain ⟨fault, hfault⟩ := hstops h
    rw [hfault] at hloads
    cases hloads
  obtain ⟨c, hc, -, hlayered⟩ := hlayers hnot
  rw [hc] at hloads
  obtain ⟨hpaths, hexclude⟩ := Prod.mk.inj (Option.some.inj hloads)
  exact ⟨hname, c, hc, hlayered, hpaths, hexclude⟩

/-- One byte that is no text in `zen.edn`. It is not skipped: there is no configuration. -/
theorem load_stopped_by_bytes :
    let t : FileTree := ⟨⟨.single, ["ws"]⟩, [(["ws", "zen.edn"], .file [0xff])], []⟩
    (load t (some "/ws")).1 = [] ∧ ¬ ∃ c, (load t (some "/ws")).2 = .ok c := by
  intro t
  have hload : (load t (some "/ws")).2.toOption.isNone = true := by decide +kernel
  refine ⟨by decide +kernel, ?_⟩
  rintro ⟨c, hc⟩
  rw [hc] at hload
  cases hload

end Config

end EdnLint
