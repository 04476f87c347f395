import EdnLint.Proofs.Document.Descent
import EdnLint.Proofs.Lint.ReadErrors
import EdnLint.Proofs.Text.Position

/-!
# The range of a location

A location is a node inside the document, so a part of the text derives it. The first code
point of that part is no blank, and it is an opening parenthesis exactly for a list
(`Grammar.Derives.exists_first`). The grid of lines has this code point at the start of the
node, and so a range is cut down to its first character where the node is a list, and is the
span of the node everywhere else. Neither is empty: a form ends behind its first code point,
on the same line or on a later one.
-/

namespace EdnLint

open Grammar

namespace Node

theorem Inside.trans {m k n : Node} (hm : m.Inside k) (hk : k.Inside n) : m.Inside n := by
  induction hk with
  | form hk => exact .deeper hk hm
  | deeper hk _ ih => exact .deeper hk ih

theorem unwrap_eq_or_inside (n : Node) : n.unwrap = n ∨ n.unwrap.Inside n := by
  refine unwrap_induction (P := fun n m => m = n ∨ m.Inside n) (fun _ _ => Or.inl rfl) ?_ n
  intro shape start stop forms n _ ih
  have hlast : n ∈ (mk shape start stop (forms ++ [n])).forms := by simp
  apply Or.inr
  rcases ih with heq | hinside
  · rw [heq]
    exact .form hlast
  · exact .deeper hlast hinside

theorem inside_of_follow? {n child : Node} {k : Key} (h : n.follow? k = some child) :
    child.Inside n := by
  rcases Option.map_eq_some_iff.mp h with ⟨e, he, rfl⟩
  have hform : e.2 ∈ n.unwrap.forms := mem_children (List.mem_of_find?_eq_some he)
  rcases unwrap_eq_or_inside n with heq | hinside
  · rw [heq] at hform
    exact .form hform
  · exact (Inside.form hform).trans hinside

theorem eq_or_inside_of_walk {n : Node} {matched path : List Key} {l : Location}
    (h : n.walk matched path = some l) : l.node = n ∨ l.node.Inside n := by
  induction path generalizing n matched with
  | nil =>
      cases h
      exact Or.inl rfl
  | cons k path ih =>
      rw [walk_cons] at h
      split at h
      · rename_i child hchild
        have hinside := inside_of_follow? hchild
        rcases ih h with heq | hdeeper
        · rw [heq]
          exact Or.inr hinside
        · exact Or.inr (hdeeper.trans hinside)
      · split at h
        · cases h
        · cases h
          exact Or.inl rfl

/-- A location in a document is never the document itself. -/
theorem inside_of_resolve {tree : Node} (htree : tree.shape = .document) {path : List Key}
    {unknownKey : Bool} {l : Location} (h : tree.resolve path unknownKey = some l) :
    l.node.Inside tree := by
  rcases Option.bind_eq_some_iff.mp h with ⟨top, htop, hwalk⟩
  rw [topForm?, if_pos htree] at htop
  have hform : top ∈ tree.forms := List.mem_of_head? htop
  rcases eq_or_inside_of_walk hwalk with heq | hinside
  · rw [heq]
    exact .form hform
  · exact .deeper hform hinside

end Node

/-- The first code point of a form is no blank, and tells the lists. -/
theorem Grammar.Derives.exists_first {p : Position} {s rest : Text} {n : Node}
    (h : Derives .form p s rest [n]) :
    ∃ c u, s = c :: u ∧ c.isBlank = false ∧ (c = '(' ↔ n.shape = .list) := by
  cases h with
  | collection hb _ =>
      cases hb with
      | list => exact ⟨'(', _, rfl, rfl, by simp [spanning]⟩
      | vector => exact ⟨'[', _, rfl, rfl, by simp [spanning]; decide⟩
      | map => exact ⟨'{', _, rfl, rfl, by simp [spanning]; decide⟩
      | set => exact ⟨'#', _, rfl, rfl, by simp [spanning]; decide⟩
  | @string pattern =>
      cases pattern with
      | false => exact ⟨'"', _, rfl, rfl, by simp [spanning]; decide⟩
      | true => exact ⟨'#', _, rfl, rfl, by simp [spanning]; decide⟩
  | character => exact ⟨'\\', _, rfl, rfl, by simp [spanning]; decide⟩
  | symbolic => exact ⟨'#', _, rfl, rfl, by simp [spanning]; decide⟩
  | tagged => exact ⟨'#', _, rfl, rfl, by simp [spanning]; decide⟩
  | metadata => exact ⟨'^', _, rfl, rfl, by simp [spanning]; decide⟩
  | quote => exact ⟨'\'', _, rfl, rfl, by simp [spanning]; decide⟩
  | atom hbare =>
      cases s with
      | nil => exact absurd rfl hbare.ne_nil
      | cons c u =>
          have hc : c.isTerminator = false := (isToken_cons.mp hbare.1).1
          have hparen : c ≠ '(' := by
            rintro rfl
            cases hc
          refine ⟨c, u, rfl, ?_, by simp [spanning, hparen]⟩
          simp only [CodePoint.isTerminator, Bool.or_eq_false_iff] at hc
          simp [hc]

namespace Position

/-- A walk goes on along the line or comes to a later one. -/
theorem line_lt_or_col_le_after (p : Position) (t : Text) :
    p.line < (p.after t).line ∨ (p.after t).line = p.line ∧ p.col ≤ (p.after t).col := by
  induction t generalizing p with
  | nil => exact Or.inr ⟨rfl, Nat.le_refl _⟩
  | cons c t ih =>
      have hnext := ih (p.next c)
      rw [after_cons]
      by_cases hc : c = '\n'
      · have hline : (p.next c).line = p.line + 1 := by simp [next, hc]
        omega
      · have hline : (p.next c).line = p.line := by simp [next, hc]
        have hcol : (p.next c).col = p.col + 1 := by simp [next, hc]
        omega

end Position

namespace Finding

/-- The range of the finding shows the node of `text`: of a list its first character, of
every other node its span. The range is not empty, and it starts at the code point that
the node starts with. -/
structure Shows (text : Text) (n : Node) (f : Finding) : Prop where
  start : n.start.line = f.startLine + 1 ∧ n.start.col = f.startCol + 1
  stop : if n.shape = .list then f.endLine = f.startLine ∧ f.endCol = f.startCol + 1
    else n.stop.line = f.endLine + 1 ∧ n.stop.col = f.endCol + 1
  first : ∃ c, text[n.start.offset]? = some c ∧
    Text.charAt? (Text.lines text) f.startLine f.startCol = some c
  before : f.startLine < f.endLine ∨ f.startLine = f.endLine ∧ f.startCol < f.endCol

/-- A range that is not empty is shown as it is. -/
theorem ofFinding_of_before {f : Finding}
    (h : f.startLine < f.endLine ∨ f.startLine = f.endLine ∧ f.startCol < f.endCol) :
    Diagnostic.ofFinding f =
      ⟨f.startLine, f.startCol, f.endLine, f.endCol, f.message, f.severity⟩ := by
  have hempty : ¬ (f.endLine = f.startLine ∧ f.endCol = f.startCol) := by omega
  simp [Diagnostic.ofFinding, hempty]

/-- The finding of a range that starts with a known character and does not end before it. -/
theorem ofRange_eq {lines : List Text} (message : Text) (severity : Severity)
    {line col endLine endCol : Nat} {c : CodePoint} (hc : Text.charAt? lines line col = some c) :
    ofRange lines message severity ((line + 1 : Nat) : Int) ((col + 1 : Nat) : Int)
        (some ((endLine + 1 : Nat) : Int)) (some ((endCol + 1 : Nat) : Int)) =
      if c = '(' then ⟨line, col, line, col + 1, message, severity⟩
      else ⟨line, col, endLine, endCol, message, severity⟩ := by
  simp only [ofRange, zeroBased_succ, hc, Option.some.injEq, Option.map_some, Option.getD_some]

theorem exists_shows {text : Text} {n : Node} (h : Occurs .first text n) (message : Text)
    (severity : Severity) :
    ∃ f : Finding,
      ofRange (Text.lines text) message severity n.start.line n.start.col (some n.stop.line)
        (some n.stop.col) = f ∧
      f.message = message ∧ f.severity = severity ∧ f.Shows text n := by
  rcases h with ⟨u, v, w, rfl, hn⟩
  rcases hn.exists_first with ⟨c, v, rfl, hblank, hlist⟩
  rcases Position.exists_charAt? u (v ++ w) hblank with ⟨line, col, hline, hcol, hchar⟩
  have hstart : n.start = Position.first.after u := hn.start_eq rfl n (by simp)
  have hstop : n.stop = (n.start.next c).after v := by
    rw [hn.stop_eq (.inl rfl) n (by simp), hstart, Position.after_cons]
  have hfeed : c ≠ '\n' := by
    rintro rfl
    cases hblank
  have hnext : (n.start.next c).line = n.start.line ∧ (n.start.next c).col = n.start.col + 1 := by
    simp [Position.next, hfeed]
  have hafter := (n.start.next c).line_lt_or_col_le_after v
  rw [← hstop, hnext.1, hnext.2] at hafter
  rw [← hstart] at hline hcol
  -- the walk has counted at least one line and one column where the node stops
  rcases Nat.exists_eq_add_of_lt (show 0 < n.stop.line by omega) with ⟨endLine, hendLine⟩
  have hcounted : 0 < n.stop.col := by
    have hcounted := (Position.first_after_isCounted (u ++ c :: v)).2
    rw [Position.after_append, ← hstart, Position.after_cons, ← hstop] at hcounted
    exact hcounted
  rcases Nat.exists_eq_add_of_lt hcounted with ⟨endCol, hendCol⟩
  rw [Nat.zero_add] at hendLine hendCol
  rw [List.cons_append]
  refine ⟨_, rfl, ?_⟩
  rw [hline, hcol, hendLine, hendCol, ofRange_eq message severity hchar]
  have hfirst : (u ++ c :: (v ++ w))[n.start.offset]? = some c := by
    rw [hstart]
    simp [Position.first]
  by_cases hc : c = '('
  · rw [if_pos hc]
    refine ⟨rfl, rfl, ⟨⟨hline, hcol⟩, ?_, ⟨c, hfirst, hchar⟩, ?_⟩⟩
    · rw [if_pos (hlist.mp hc)]
      exact ⟨rfl, rfl⟩
    · exact Or.inr ⟨rfl, Nat.lt_succ_self col⟩
  · rw [if_neg hc]
    refine ⟨rfl, rfl, ⟨⟨hline, hcol⟩, ?_, ⟨c, hfirst, hchar⟩, ?_⟩⟩
    · rw [if_neg fun hshape => hc (hlist.mpr hshape)]
      exact ⟨hendLine, hendCol⟩
    · dsimp only
      omega

/-- The finding at a location shows the node that was located, is not changed when an
editor shows it, and is printed with the line and the column that the node starts at. -/
theorem locate?_resolve {text : Text} {tree : Node} {path : List Key} {unknownKey : Bool}
    {l : Location} (hp : parse text = .ok tree) (hl : tree.resolve path unknownKey = some l)
    (message : Text) (severity : Severity) :
    ∃ f, locate? (some l) .none (Text.lines text) message severity = some f ∧
      f.message = message ∧ f.severity = severity ∧ f.Shows text l.node ∧
      Diagnostic.ofFinding f =
        ⟨f.startLine, f.startCol, f.endLine, f.endCol, f.message, f.severity⟩ ∧
      ∀ file : Text, f.line file =
        file ++ ":" ++ Text.ofNat l.node.start.line ++ ":" ++ Text.ofNat l.node.start.col ++ ": "
          ++ severity.name ++ ": " ++ message := by
  have hshape := (parse_form (Q := fun _ => True) (fun _ _ => trivial) hp).1
  have hoccurs := occurs_of_parse hp (Node.inside_of_resolve hshape hl)
  rcases exists_shows hoccurs message severity with ⟨f, hf, hmessage, hseverity, hshows⟩
  refine ⟨f, congrArg some hf, hmessage, hseverity, hshows, ofFinding_of_before hshows.before, ?_⟩
  intro file
  rw [Finding.line, hmessage, hseverity, ← hshows.start.1, ← hshows.start.2]

/-- A list over two lines, behind a carriage return, is shown as its parenthesis. -/
theorem locate?_resolve_list :
    let text : Text := "\x7b:a\r\n (b\n c)\x7d"
    let name : Node := .mk (.scalar (.keyword "a")) ⟨1, 2, 1⟩ ⟨1, 4, 3⟩ []
    let head : Node := .mk (.scalar (.symbol "b")) ⟨2, 3, 7⟩ ⟨2, 4, 8⟩ []
    let last : Node := .mk (.scalar (.symbol "c")) ⟨3, 2, 10⟩ ⟨3, 3, 11⟩ []
    let list : Node := .mk .list ⟨2, 2, 6⟩ ⟨3, 4, 12⟩ [head, last]
    let map : Node := .mk .map ⟨1, 1, 0⟩ ⟨3, 5, 13⟩ [name, list]
    let f : Finding := ⟨1, 1, 1, 2, "m", .warning⟩
    parse text = .ok (.mk .document ⟨1, 1, 0⟩ ⟨3, 5, 13⟩ [map]) ∧
      locate? (some ⟨list, true, [.keyword "a"]⟩) .none (Text.lines text) "m" .warning = some f ∧
      f.Shows text list ∧ f.line "x" = "x:2:2: warning: m" := by
  intro text name head last list map f
  have hp : parse text = .ok (.mk .document ⟨1, 1, 0⟩ ⟨3, 5, 13⟩ [map]) := by decide +kernel
  have hf : locate? (some ⟨list, true, [.keyword "a"]⟩) .none (Text.lines text) "m" .warning =
      some f := by
    decide +kernel
  have hl : (Node.mk .document ⟨1, 1, 0⟩ ⟨3, 5, 13⟩ [map]).resolve [.keyword "a"] false =
      some ⟨list, true, [.keyword "a"]⟩ :=
    rfl
  rcases locate?_resolve hp hl "m" .warning with ⟨g, hg, -, -, hshows, -⟩
  rw [hf, Option.some.injEq] at hg
  exact ⟨hp, hf, hg ▸ hshows, by decide +kernel⟩

end Finding

end EdnLint
