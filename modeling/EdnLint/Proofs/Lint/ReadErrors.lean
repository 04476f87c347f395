import EdnLint.Linter
import EdnLint.Proofs.Document.Places

/-!
# Documents that do not read

A document with a read error is one finding, of one character. The finding has no
end of its own: a parenthesis at its start makes it one character wide, and any
other range is empty and widened when it is shown, so both come to the same
diagnostic (`Finding.ofFinding_ofRange`). The character is there, because an error
is never at a blank and so never at the end of a line.
-/

namespace EdnLint

namespace Finding

theorem zeroBased_succ (n : Nat) : zeroBased ((n + 1 : Nat) : Int) = n := by
  simp [zeroBased]

/-- A finding without an end is shown as the character at its start. -/
theorem ofFinding_ofRange (lines : List Text) (message : Text) (severity : Severity)
    (line col : Nat) :
    Diagnostic.ofFinding
        (ofRange lines message severity ((line + 1 : Nat) : Int) ((col + 1 : Nat) : Int) none none) =
      ⟨line, col, line, col + 1, message, severity⟩ := by
  unfold ofRange
  rw [zeroBased_succ, zeroBased_succ]
  dsimp only
  split
  · simp [Diagnostic.ofFinding]
  · simp [Diagnostic.ofFinding]

end Finding

namespace Lint

/-- What `charAt?` finds at the place of a read error. -/
theorem exists_charAt?_of_parse_error {text : Text} {e : ReadError}
    (h : parse text = .error (.error e)) :
    ∃ line col c, e.position.line = line + 1 ∧ e.position.col = col + 1 ∧
      e.position = .ofOffset text e.position.offset ∧ text[e.position.offset]? = some c ∧
      Text.charAt? (Text.lines text) line col = some c := by
  rcases exists_mark_of_parse_error h with ⟨u, c, v, rfl, hc, hposition⟩
  rcases Position.exists_charAt? u v hc with ⟨line, col, hline, hcol, hchar⟩
  rw [← hposition] at hline hcol
  rw [Position.first_after_append u (c :: v)] at hposition
  refine ⟨line, col, c, hline, hcol, ?_, ?_, hchar⟩
  · rw [hposition]
    rfl
  · simp [hposition, Position.ofOffset]

/-- A read error is one finding, handed to the sink once, and shown as one character:
the one that the error is at. The validator is left alone; as this holds of every
validator, also of one that counts how often it is called, none of its operations is
used. -/
theorem run_of_read_error {σ : Type} (v : Validator σ) (sink : Sink) (s : σ)
    {exclude : List Text} {text uri : Text} {e : ReadError}
    (hexcluded : isExcluded exclude uri = false) (hp : parse text = .error (.error e)) :
    let result := run v sink exclude text uri s
    result.state = s ∧
      ∃ f, result.findings = [f] ∧ f.message = e.message ∧ f.severity = .error ∧
        result.published = (if sink = .absent then [] else [[f]]) ∧
        ∃ line col c, e.position.line = line + 1 ∧ e.position.col = col + 1 ∧
          Diagnostic.ofFinding f = ⟨line, col, line, col + 1, e.message, .error⟩ ∧
          Text.charAt? (Text.lines text) line col = some c ∧
          e.position = .ofOffset text e.position.offset ∧ text[e.position.offset]? = some c := by
  intro result
  have hresult : result.state = s ∧ result.findings = [readFinding (Text.lines text) e] ∧
      result.published =
        if sink = .absent then [] else [[readFinding (Text.lines text) e]] := by
    simp [result, run, hexcluded, cycle, hp]
  rcases hresult with ⟨hstate, hfindings, hpublished⟩
  rcases exists_charAt?_of_parse_error hp with ⟨line, col, c, hline, hcol, hposition, hc, hchar⟩
  have hshown : Diagnostic.ofFinding (readFinding (Text.lines text) e) =
      ⟨line, col, line, col + 1, e.message, .error⟩ := by
    unfold readFinding
    rw [hline, hcol]
    exact Finding.ofFinding_ofRange _ _ _ _ _
  refine ⟨hstate, readFinding (Text.lines text) e, hfindings, ?_, ?_, hpublished,
    line, col, c, hline, hcol, hshown, hchar, hposition, hc⟩
  · exact congrArg Diagnostic.message hshown
  · exact congrArg Diagnostic.severity hshown

/-- A list that is not closed, on the second line of a text with carriage returns. -/
theorem run_of_read_error_paren :
    let v : Validator Nat := ⟨fun _ _ n => (n + 1, [], none), fun n => (n + 1, .ok []), (· + 1)⟩
    let text : Text := "a\r\n (b"
    let e : ReadError := ⟨.unclosed ')', ⟨2, 2, 4⟩⟩
    parse text = .error (.error e) ∧
      let result := run v .working [] text "file:///a.edn" 0
      result.state = 0 ∧
        ∃ f, result.findings = [f] ∧ result.published = [[f]] ∧
          Diagnostic.ofFinding f = ⟨1, 1, 1, 2, e.message, .error⟩ ∧
          Text.charAt? (Text.lines text) 1 1 = some (CodePoint.ofChar '(') := by
  intro v text e
  have hp : parse text = .error (.error e) := by decide +kernel
  have hexcluded : isExcluded [] "file:///a.edn" = false := by decide +kernel
  obtain ⟨hstate, f, hf, -, -, hpublished, line, col, c, hline, hcol, hshown, hchar, -, hc⟩ :=
    run_of_read_error v .working 0 hexcluded hp
  obtain rfl : line = 1 := Nat.succ.inj hline.symm
  obtain rfl : col = 1 := Nat.succ.inj hcol.symm
  obtain rfl : c = CodePoint.ofChar '(' := by
    have hparen : text[4]? = some (CodePoint.ofChar '(') := by decide
    rw [hparen] at hc
    simpa using hc.symm
  exact ⟨hp, hstate, f, hf, hpublished, hshown, hchar⟩

end Lint

end EdnLint
