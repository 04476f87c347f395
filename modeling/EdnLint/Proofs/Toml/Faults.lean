import EdnLint.Proofs.Toml.Suffixes
import EdnLint.Toml.Reader

/-!
# Where reading TOML stops

A document of TOML is read, or refused for a cause, or a fault ends the reading. Only one thing
in it is a fault, an integer in base ten with more digits than are converted, and the text holds
that integer.

The readers are put together from smaller ones, so the statement is put together in the same way:
`Advances` says of a reader started at a text that it leaves an end of that text or stops at a
long integer in it, and holds of readers one after the other if it holds of each.
-/

namespace EdnLint

namespace Toml

/-- What a reader that starts at `t` may do: read on, so that what is left is an end of `t`, refuse
what it finds, or stop at an integer in `t` that is too long. -/
structure Advances {α : Type} (rest : α → Text) (t : Text) (x : Except Stop α) : Prop where
  suffix : ∀ {a}, x = .ok a → rest a <:+ t
  fault : ∀ {f}, x = .error (.fault f) → f = .digitLimit ∧ HasLongInteger t

namespace Advances

variable {α β : Type} {rest : α → Text} {rest' : β → Text} {t u : Text} {x : Except Stop α}

theorem ok {a : α} (h : rest a <:+ t) : Advances rest t (.ok a) := by
  constructor
  · rintro _ ⟨⟩
    exact h
  · rintro _ ⟨⟩

theorem pure {a : α} (h : rest a <:+ t) : Advances rest t (pure a) := ok h

theorem refuse {cause : Cause} : Advances rest t (refuse cause u) := by
  constructor
  · rintro _ ⟨⟩
  · rintro _ ⟨⟩

theorem of_suffix (h : Advances rest u x) (hu : u <:+ t) : Advances rest t x where
  suffix hx := (h.suffix hx).trans hu
  fault hx := (h.fault hx).imp_right fun hlong => hlong.of_suffix hu

theorem bind {f : α → Except Stop β} (h : Advances rest t x)
    (hf : ∀ a, Advances rest' (rest a) (f a)) : Advances rest' t (x >>= f) := by
  cases x with
  | error e =>
      constructor
      · rintro _ ⟨⟩
      · rintro fault ⟨⟩
        exact h.fault rfl
  | ok a => exact (hf a).of_suffix (h.suffix rfl)

theorem atRest (result : Except Cause α) : Advances (fun _ => t) t (atRest u result) := by
  cases result with
  | error cause => exact refuse
  | ok a => exact ok List.suffix_rfl

end Advances

section Words

variable {t : Text}

theorem allow_advances (allowed : CodePoint → Bool) (part after : Text) :
    Advances (fun _ => t) t (allow allowed part after) := by
  unfold allow
  split
  · exact .ok List.suffix_rfl
  · exact .refuse

theorem skipComment_advances (t : Text) : Advances id t (skipComment t) := by
  cases t with
  | nil => exact .ok List.suffix_rfl
  | cons c t =>
      simp only [skipComment]
      split
      · have hafter := (List.dropWhile_suffix (· != CodePoint.ofChar '\n')).trans
          (List.suffix_cons c t)
        exact (allow_advances ..).bind fun _ => .ok hafter
      · exact .ok List.suffix_rfl

theorem skipSpace_advances (fuel : Nat) (t : Text) : Advances id t (skipSpace fuel t) := by
  induction fuel generalizing t with
  | zero => exact .ok List.suffix_rfl
  | succ fuel ih =>
      have hspace : t.dropWhile isSpace <:+ t := List.dropWhile_suffix _
      simp only [skipSpace]
      split
      · exact ((skipComment_advances _).bind ih).of_suffix hspace
      · exact .ok hspace

theorem skipLines_advances (t : Text) : Advances id t (skipLines t) := skipSpace_advances _ t

theorem splitAtMark?_suffix {mark before after : Text}
    (h : splitAtMark? mark t = some (before, after)) : after <:+ t := by
  induction t generalizing before with
  | nil => cases h
  | cons c t ih =>
      simp only [splitAtMark?] at h
      split at h
      · cases h
        exact List.drop_suffix _ _
      · obtain ⟨⟨before', after'⟩, hsplit, h⟩ := Option.map_eq_some_iff.mp h
        cases h
        exact (ih hsplit).trans (List.suffix_cons c t)

theorem literal_advances (mark : Text) (allowed : CodePoint → Bool) (t : Text) :
    Advances Prod.snd t (literal mark allowed t) := by
  unfold literal
  split
  · exact .refuse
  · rename_i hsplit
    exact (allow_advances ..).bind fun _ => .ok (splitAtMark?_suffix hsplit)

theorem numbered_advances (width : Nat) (t : Text) : Advances Prod.snd t (numbered width t) := by
  unfold numbered
  split
  · exact .refuse
  split
  · exact .refuse
  dsimp only
  split
  · split
    · exact .refuse
    · exact .ok (List.drop_suffix width t)
  · exact .refuse

theorem escape_advances (block : Bool) (t : Text) : Advances Prod.snd t (escape block t) := by
  cases t with
  | nil => exact .refuse
  | cons c t =>
      have htail := List.suffix_cons c t
      simp only [escape]
      split
      · exact .ok ((List.dropWhile_suffix _).trans htail)
      split
      · have hblank := skipBlanks_suffix t
        split
        · exact .ok (List.nil_suffix)
        · rename_i d u hskip
          split
          · rw [hskip] at hblank
            exact .ok <| (List.dropWhile_suffix _).trans <| (List.suffix_cons d u).trans <|
              hblank.trans htail
          · exact .refuse
      split
      · exact (numbered_advances 4 t).of_suffix htail
      split
      · exact (numbered_advances 8 t).of_suffix htail
      split
      · exact .ok htail
      · exact .refuse

theorem basicFrom_advances (block : Bool) (fuel : Nat) (read t : Text) :
    Advances Prod.snd t (basicFrom block fuel read t) := by
  induction fuel generalizing read t with
  | zero => exact .refuse
  | succ fuel ih =>
      cases t with
      | nil => exact .refuse
      | cons c t =>
          have htail := List.suffix_cons c t
          simp only [basicFrom]
          split
          · split
            · exact .ok htail
            split
            · exact .ok ((List.drop_suffix 2 t).trans htail)
            · exact (ih _ _).of_suffix htail
          split
          · exact ((escape_advances block t).bind fun found => ih _ _).of_suffix htail
          generalize (if block = true then isBlockChar c else isLineChar c) = allowed
          cases allowed with
          | false => exact .refuse
          | true => exact (ih _ _).of_suffix htail

theorem basic_advances (block : Bool) (t : Text) : Advances Prod.snd t (basic block t) :=
  basicFrom_advances ..

theorem blockString_advances (quote : CodePoint) (t : Text) :
    Advances Prod.snd t (blockString quote t) := by
  have hstart : (if t.head? = some (CodePoint.ofChar '\n') then t.tail else t) <:+ t := by
    split
    · exact List.tail_suffix t
    · exact List.suffix_rfl
  refine Advances.of_suffix ?_ hstart
  unfold blockString
  generalize (if t.head? = some (CodePoint.ofChar '\n') then t.tail else t) = u
  dsimp only
  split
  · exact (literal_advances ..).bind fun found => .pure (List.drop_suffix _ found.2)
  · exact (basic_advances ..).bind fun found => .pure (List.drop_suffix _ found.2)

theorem string_advances (quote : CodePoint) (t : Text) :
    Advances Prod.snd t (string quote t) := by
  unfold string
  split
  · exact (blockString_advances ..).of_suffix (List.drop_suffix 2 t)
  split
  · exact literal_advances ..
  · exact basic_advances ..

theorem keyPart_advances (t : Text) : Advances Prod.snd t (keyPart t) := by
  cases t with
  | nil => exact .refuse
  | cons c t =>
      have htail := List.suffix_cons c t
      simp only [keyPart]
      split
      · exact .ok (List.dropWhile_suffix _)
      split
      · exact (literal_advances ..).of_suffix htail
      split
      · exact (basic_advances ..).of_suffix htail
      · exact .refuse

theorem keyFrom_advances (fuel : Nat) (t : Text) : Advances Prod.snd t (keyFrom fuel t) := by
  induction fuel generalizing t with
  | zero => exact .refuse
  | succ fuel ih =>
      refine (keyPart_advances t).bind fun ⟨part, u⟩ => ?_
      have hblank := skipBlanks_suffix u
      dsimp only
      split
      · exact .ok List.nil_suffix
      · rename_i c v hskip
        rw [hskip] at hblank
        split
        · have hv := (skipBlanks_suffix v).trans <| (List.suffix_cons c v).trans hblank
          refine Advances.of_suffix ?_ hv
          exact (ih _).bind fun found => .pure List.suffix_rfl
        · exact .pure hblank

theorem key_advances (t : Text) : Advances Prod.snd t (key t) := keyFrom_advances _ t

end Words

theorem scalar_advances (t : Text) : Advances Prod.snd t (scalar t) := by
  unfold scalar
  split
  · rename_i result rest hmoment
    exact (Advances.atRest result).bind fun _ => .pure (moment?_suffix hmoment)
  split
  · rename_i result rest hnumber
    cases result with
    | error fault => exact ⟨nofun, fun h => by cases h; exact hasLongInteger_of_number? hnumber⟩
    | ok n => exact .ok (number?_suffix hnumber)
  split
  · rename_i found hspecial
    exact .ok (special?_suffix hspecial)
  · exact .refuse

theorem equals_advances (t : Text) : Advances id t (equals t) := by
  unfold equals
  split
  · exact .refuse
  · rename_i c u
    split
    · exact .ok ((skipBlanks_suffix u).trans (List.suffix_cons c u))
    · exact .refuse

mutual

theorem value_advances : ∀ (fuel : Nat) (t : Text), Advances Prod.snd t (value fuel t)
  | 0, t => .refuse
  | _ + 1, [] => .refuse
  | fuel + 1, c :: t => by
      have htail := List.suffix_cons c t
      simp only [value]
      split
      · exact ((string_advances c t).of_suffix htail).bind fun _ => .pure List.suffix_rfl
      split
      · exact .ok ((List.drop_suffix 3 t).trans htail)
      split
      · exact .ok ((List.drop_suffix 4 t).trans htail)
      split
      · refine ((skipLines_advances t).of_suffix htail).bind fun u => ?_
        exact (arrayItems_advances fuel u).bind fun _ => .pure List.suffix_rfl
      split
      · have hblank := (skipBlanks_suffix t).trans htail
        split
        · exact .pure ((List.tail_suffix _).trans hblank)
        · refine ((inlinePairs_advances fuel .empty _).of_suffix hblank).bind fun _ => ?_
          exact .pure List.suffix_rfl
      · exact scalar_advances (c :: t)

theorem arrayItems_advances : ∀ (fuel : Nat) (t : Text), Advances Prod.snd t (arrayItems fuel t)
  | 0, t => .refuse
  | fuel + 1, t => by
      simp only [arrayItems]
      split
      · exact .ok (List.tail_suffix t)
      refine (value_advances fuel t).bind fun ⟨item, u⟩ => ?_
      refine (skipLines_advances u).bind fun v => ?_
      split
      · exact .refuse
      · rename_i c v
        have htail := List.suffix_cons c v
        split
        · exact .pure htail
        split
        · refine ((skipLines_advances v).of_suffix htail).bind fun w => ?_
          exact (arrayItems_advances fuel w).bind fun _ => .pure List.suffix_rfl
        · exact .refuse

theorem inlinePairs_advances :
    ∀ (fuel : Nat) (d : InlineDraft) (t : Text), Advances Prod.snd t (inlinePairs fuel d t)
  | 0, _, t => .refuse
  | fuel + 1, d, t => by
      simp only [inlinePairs]
      refine (key_advances t).bind fun ⟨name, t₁⟩ => ?_
      refine (equals_advances t₁).bind fun t₂ => ?_
      refine (value_advances fuel t₂).bind fun ⟨v, t₃⟩ => ?_
      refine (Advances.atRest _).bind fun d => ?_
      have hblank := skipBlanks_suffix t₃
      split
      · exact .refuse
      · rename_i c t₄ hskip
        rw [hskip] at hblank
        have htail := (List.suffix_cons c t₄).trans hblank
        split
        · exact .pure htail
        split
        · exact (inlinePairs_advances fuel d _).of_suffix ((skipBlanks_suffix t₄).trans htail)
        · exact .refuse

end

theorem pair_advances (d : Draft) (t : Text) : Advances Prod.snd t (pair d t) := by
  refine (key_advances t).bind fun ⟨name, t₁⟩ => ?_
  refine (equals_advances t₁).bind fun t₂ => ?_
  refine (value_advances _ t₂).bind fun ⟨v, t₃⟩ => ?_
  exact (Advances.atRest _).bind fun d => .pure (skipBlanks_suffix t₃)

theorem header_advances (d : Draft) (t : Text) : Advances Prod.snd t (header d t) := by
  have hstart : skipBlanks (if t.head? = some (CodePoint.ofChar '[') then t.tail else t) <:+ t := by
    refine (skipBlanks_suffix _).trans ?_
    split
    · exact List.tail_suffix t
    · exact List.suffix_rfl
  refine ((key_advances _).of_suffix hstart).bind fun ⟨name, u⟩ => ?_
  have hclose : ∀ (d : Draft) (close : Text) (cause : Cause), Advances Prod.snd u
      (if close.isPrefixOf u then pure (d, skipBlanks (u.drop close.length))
        else refuse cause u) := by
    intro d close cause
    split
    · exact .pure ((skipBlanks_suffix _).trans (List.drop_suffix _ u))
    · exact .refuse
  exact (Advances.atRest _).bind fun d => hclose d _ _

theorem statement_advances (d : Draft) (t : Text) : Advances Prod.snd t (statement d t) := by
  unfold statement
  split
  · exact .ok List.suffix_rfl
  · rename_i c u
    split
    · exact pair_advances d (c :: u)
    split
    · exact (header_advances d u).of_suffix (List.suffix_cons c u)
    split
    · exact .ok List.suffix_rfl
    · exact .refuse

/-- The draft that comes of all statements leaves nothing to be read. -/
theorem statements_advances (fuel : Nat) (d : Draft) (t : Text) :
    Advances (fun _ => []) t (statements fuel d t) := by
  induction fuel generalizing d t with
  | zero => exact .ok List.nil_suffix
  | succ fuel ih =>
      have hblank := skipBlanks_suffix t
      simp only [statements]
      split
      · exact .ok List.nil_suffix
      · rename_i c u hskip
        rw [hskip] at hblank
        split
        · exact (ih d u).of_suffix ((List.suffix_cons c u).trans hblank)
        refine ((statement_advances d (c :: u)).of_suffix hblank).bind fun ⟨d, v⟩ => ?_
        refine (skipComment_advances v).bind fun w => ?_
        split
        · exact .pure List.nil_suffix
        · rename_i c w
          split
          · exact (ih d w).of_suffix (List.suffix_cons c w)
          · exact .refuse

/-- Reading a document stops at nothing but an integer in it that is too long. -/
theorem hasLongInteger_of_parse {t : Text} {fault : Fault} (h : parse t = .error (.fault fault)) :
    fault = .digitLimit ∧ HasLongInteger t := by
  unfold parse at h
  cases hread : statements (t.length + 1) .empty t with
  | error stop =>
      rw [hread] at h
      cases h
      exact (statements_advances _ _ t).fault hread
  | ok d =>
      rw [hread] at h
      cases h

end Toml

end EdnLint
