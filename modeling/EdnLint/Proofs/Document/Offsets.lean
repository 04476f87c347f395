import EdnLint.Document.Reader
import Mathlib.Tactic.SplitIfs

/-!
# Reading without offsets

A position counts lines, columns and code points. The reader hands positions on and
never looks at one, so what it does cannot depend on them. Here this is said of the
offsets: `withoutOffsets` sets them to zero, and readers that are the same up to offsets
stay so (`Reader.feed_congr`) and end in trees that are the same up to offsets
(`Reader.finish_congr`).

Each function of the reader is compared with itself at an argument without offsets. As
a position that moves on counts its offset anew, results are compared without offsets
too, and errors, which hold a position, only as errors.
-/

namespace EdnLint

namespace Position

/-- The line and the column alone. -/
def withoutOffset (p : Position) : Position := ⟨p.line, p.col, 0⟩

@[simp] theorem withoutOffset_withoutOffset (p : Position) :
    p.withoutOffset.withoutOffset = p.withoutOffset := rfl

@[simp] theorem next_withoutOffset (p : Position) (c : CodePoint) :
    (p.withoutOffset.next c).withoutOffset = (p.next c).withoutOffset := by
  unfold next
  split <;> rfl

end Position

namespace Node

mutual

/-- The node with lines and columns alone. -/
def withoutOffsets : Node → Node
  | .mk shape start stop forms =>
      .mk shape start.withoutOffset stop.withoutOffset (allWithoutOffsets forms)

def allWithoutOffsets : List Node → List Node
  | [] => []
  | n :: ns => withoutOffsets n :: allWithoutOffsets ns

end

theorem allWithoutOffsets_eq_map (ns : List Node) :
    allWithoutOffsets ns = ns.map withoutOffsets := by
  induction ns with
  | nil => rfl
  | cons n ns ih => rw [allWithoutOffsets, ih, List.map_cons]

@[simp] theorem withoutOffsets_mk (shape : Shape) (start stop : Position) (forms : List Node) :
    (mk shape start stop forms).withoutOffsets =
      mk shape start.withoutOffset stop.withoutOffset (forms.map withoutOffsets) := by
  rw [withoutOffsets, allWithoutOffsets_eq_map]

mutual

@[simp] theorem withoutOffsets_withoutOffsets :
    (n : Node) → n.withoutOffsets.withoutOffsets = n.withoutOffsets
  | .mk shape start stop forms => by
      rw [withoutOffsets, withoutOffsets, allWithoutOffsets_allWithoutOffsets forms]
      rfl

theorem allWithoutOffsets_allWithoutOffsets :
    (ns : List Node) → allWithoutOffsets (allWithoutOffsets ns) = allWithoutOffsets ns
  | [] => rfl
  | n :: ns => by
      rw [allWithoutOffsets, allWithoutOffsets, withoutOffsets_withoutOffsets n,
        allWithoutOffsets_allWithoutOffsets ns]

end

@[simp] theorem withoutOffsets_comp : withoutOffsets ∘ withoutOffsets = withoutOffsets :=
  funext withoutOffsets_withoutOffsets

@[simp] theorem stop_withoutOffsets (n : Node) :
    n.withoutOffsets.stop = n.stop.withoutOffset := by
  cases n
  simp

end Node

namespace Frame

def withoutOffsets : Frame → Frame
  | .collection shape closer start forms =>
      .collection shape closer start.withoutOffset (forms.map Node.withoutOffsets)
  | .pending shape part later start forms =>
      .pending shape part later start.withoutOffset (forms.map Node.withoutOffsets)

@[simp] theorem withoutOffsets_collection (shape : Shape) (closer : CodePoint) (start : Position)
    (forms : List Node) : (collection shape closer start forms).withoutOffsets =
      .collection shape closer start.withoutOffset (forms.map Node.withoutOffsets) := rfl

@[simp] theorem withoutOffsets_pending (shape : Option Shape) (part : Part) (later : List Part)
    (start : Position) (forms : List Node) :
    (pending shape part later start forms).withoutOffsets =
      .pending shape part later start.withoutOffset (forms.map Node.withoutOffsets) := rfl

@[simp] theorem withoutOffsets_withoutOffsets (f : Frame) :
    f.withoutOffsets.withoutOffsets = f.withoutOffsets := by
  cases f <;> simp

@[simp] theorem withoutOffsets_comp : withoutOffsets ∘ withoutOffsets = withoutOffsets :=
  funext withoutOffsets_withoutOffsets

end Frame

namespace Stack

def withoutOffsets (s : Stack) : Stack :=
  ⟨s.frames.map Frame.withoutOffsets, s.forms.map Node.withoutOffsets⟩

@[simp] theorem withoutOffsets_mk (frames : List Frame) (forms : List Node) :
    (mk frames forms).withoutOffsets =
      ⟨frames.map Frame.withoutOffsets, forms.map Node.withoutOffsets⟩ := rfl

@[simp] theorem withoutOffsets_withoutOffsets (s : Stack) :
    s.withoutOffsets.withoutOffsets = s.withoutOffsets := by
  cases s
  simp

@[simp] theorem push_withoutOffsets (s : Stack) (f : Frame) :
    (s.push f).withoutOffsets = s.withoutOffsets.push f.withoutOffsets := rfl

@[simp] theorem deliverTo_withoutOffsets (document : List Node) (n : Node) (frames : List Frame) :
    (deliverTo document n frames).withoutOffsets =
      deliverTo (document.map Node.withoutOffsets) n.withoutOffsets
        (frames.map Frame.withoutOffsets) := by
  fun_induction deliverTo document n frames with
  | case4 n shape _ start forms frames ih =>
      rw [ih]
      simp [deliverTo]
  | _ => simp [deliverTo]

@[simp] theorem deliver_withoutOffsets (s : Stack) (n : Node) :
    (s.deliver n).withoutOffsets = s.withoutOffsets.deliver n.withoutOffsets :=
  deliverTo_withoutOffsets s.forms n s.frames

theorem close_withoutOffsets (s : Stack) (c : CodePoint) (p : Position) :
    (s.withoutOffsets.close c p.withoutOffset).toOption.map withoutOffsets =
      (s.close c p).toOption.map withoutOffsets := by
  obtain ⟨frames, forms⟩ := s
  rcases frames with - | ⟨⟨shape, closer, start, inner⟩ | ⟨shape, part, later, start, inner⟩, _⟩
  · rfl
  · by_cases hc : c = closer
    · simp [close, hc, Except.toOption]
    · simp [close, hc, Except.toOption]
  · rfl

theorem document_withoutOffsets (s : Stack) (stop : Position) :
    (s.withoutOffsets.document stop.withoutOffset).toOption =
      (s.document stop).toOption.map Node.withoutOffsets := by
  obtain ⟨frames, forms⟩ := s
  rcases frames with - | ⟨⟨shape, closer, start, inner⟩ | ⟨shape, part, later, start, inner⟩, _⟩
  · simp [document, Except.toOption, Position.first, Position.withoutOffset]
  · rfl
  · rfl

end Stack

namespace Mode

def withoutOffsets : Mode → Mode
  | .blank => .blank
  | .comment => .comment
  | .token start read => .token start.withoutOffset read
  | .dispatch start => .dispatch start.withoutOffset
  | .tag start read => .tag start.withoutOffset read
  | .symbolic start read => .symbolic start.withoutOffset read
  | .backslash start => .backslash start.withoutOffset
  | .character start read => .character start.withoutOffset read
  | .string pattern start read => .string pattern start.withoutOffset read
  | .escape pattern start read place =>
      .escape pattern start.withoutOffset read place.withoutOffset
  | .digits start read place hex => .digits start.withoutOffset read place.withoutOffset hex

@[simp] theorem withoutOffsets_withoutOffsets (m : Mode) :
    m.withoutOffsets.withoutOffsets = m.withoutOffsets := by
  cases m <;> rfl

/-- No text ends in the mode. -/
def isUnfinished : Mode → Bool
  | .dispatch _ | .backslash _ | .string _ _ _ | .escape _ _ _ _ | .digits _ _ _ _ => true
  | _ => false

theorem isUnfinished_withoutOffsets (m : Mode) :
    m.withoutOffsets.isUnfinished = m.isUnfinished := by
  cases m <;> rfl

end Mode

namespace Reader

def withoutOffsets (r : Reader) : Reader :=
  ⟨r.position.withoutOffset, r.mode.withoutOffsets, r.stack.withoutOffsets⟩

@[simp] theorem scalar_withoutOffsets (value : Atom) (start stop : Position) :
    (scalar value start stop).withoutOffsets =
      scalar value start.withoutOffset stop.withoutOffset := by
  simp [scalar]

/-- What a code point leads to, without offsets. -/
def outcome? (result : Except ReadFailure (Mode × Stack)) : Option (Mode × Stack) :=
  result.toOption.map (Prod.map Mode.withoutOffsets Stack.withoutOffsets)

@[simp] theorem outcome?_ok (m : Mode) (s : Stack) :
    outcome? (.ok (m, s)) = some (m.withoutOffsets, s.withoutOffsets) := rfl

@[simp] theorem outcome?_error (e : ReadFailure) : outcome? (.error e) = none := rfl

@[simp] theorem outcome?_failAt (cause : ReadError.Cause) (p : Position) :
    outcome? (failAt cause p) = none := rfl

theorem begin_withoutOffsets (s : Stack) (p : Position) (c : CodePoint) :
    outcome? (begin s.withoutOffsets p.withoutOffset c) = outcome? (begin s p c) := by
  unfold begin
  split
  · simp
  split
  · simp
  split
  · have hclose := s.close_withoutOffsets c p
    cases h : s.close c p <;> cases h' : s.withoutOffsets.close c p.withoutOffset <;>
      simp_all [Except.toOption]
  cases opening? c with
  | some found => simp
  | none =>
      dsimp only
      split_ifs <;> simp [Mode.withoutOffsets]

theorem begin_congr {s s' : Stack} {p p' : Position} (hs : s'.withoutOffsets = s.withoutOffsets)
    (hp : p'.withoutOffset = p.withoutOffset) (c : CodePoint) :
    outcome? (begin s' p' c) = outcome? (begin s p c) := by
  rw [← begin_withoutOffsets, hs, hp, begin_withoutOffsets]

theorem complete_withoutOffsets (s : Stack) (stop : Position) (m : Mode) :
    (complete s.withoutOffsets stop.withoutOffset m.withoutOffsets).toOption =
      (complete s stop m).toOption.map Stack.withoutOffsets := by
  cases m with
  | token start read =>
      simp only [Mode.withoutOffsets, complete]
      split <;> simp [Except.toOption, failAt]
  | tag start read => simp [Mode.withoutOffsets, complete, Except.toOption]
  | symbolic start read =>
      simp only [Mode.withoutOffsets, complete]
      split <;> simp [Except.toOption, failAt]
  | character start read =>
      simp only [Mode.withoutOffsets, complete]
      split <;> simp [Except.toOption, failAt]
  | _ => rfl

theorem extend_withoutOffsets (m longer : Mode) (s : Stack) (p : Position) (c : CodePoint) :
    outcome? (extend m.withoutOffsets longer.withoutOffsets s.withoutOffsets p.withoutOffset c) =
      outcome? (extend m longer s p c) := by
  unfold extend
  split
  · have hcomplete := complete_withoutOffsets s p m
    cases h : complete s p m with
    | error e =>
        rw [h] at hcomplete
        cases h' : complete s.withoutOffsets p.withoutOffset m.withoutOffsets with
        | error e' => rfl
        | ok s' => simp [h', Except.toOption] at hcomplete
    | ok s₁ =>
        rw [h] at hcomplete
        cases h' : complete s.withoutOffsets p.withoutOffset m.withoutOffsets with
        | error e' => simp [h', Except.toOption] at hcomplete
        | ok s' =>
            simp only [h', Except.toOption, Option.map_some, Option.some.injEq] at hcomplete
            exact begin_congr (by simp [hcomplete]) (by simp) c
  · simp

theorem dispatch_withoutOffsets (start : Position) (s : Stack) (c : CodePoint) :
    outcome? (dispatch start.withoutOffset s.withoutOffsets c) = outcome? (dispatch start s c) := by
  unfold dispatch
  split_ifs <;> simp [Mode.withoutOffsets]

theorem advance_withoutOffsets (s : Stack) (p : Position) (c : CodePoint) (m : Mode) :
    outcome? (advance s.withoutOffsets p.withoutOffset c m.withoutOffsets) =
      outcome? (advance s p c m) := by
  cases m with
  | blank => exact begin_withoutOffsets s p c
  | comment => simp [Mode.withoutOffsets, advance]
  | token start read =>
      exact extend_withoutOffsets (.token start read) (.token start (c :: read)) s p c
  | dispatch start => exact dispatch_withoutOffsets start s c
  | tag start read =>
      exact extend_withoutOffsets (.tag start read) (.tag start (c :: read)) s p c
  | symbolic start read =>
      exact extend_withoutOffsets (.symbolic start read) (.symbolic start (c :: read)) s p c
  | backslash start => simp [Mode.withoutOffsets, advance]
  | character start read =>
      exact extend_withoutOffsets (.character start read) (.character start (c :: read)) s p c
  | string pattern start read =>
      simp only [Mode.withoutOffsets, advance]
      split_ifs <;> simp [Mode.withoutOffsets]
  | escape pattern start read place =>
      simp only [Mode.withoutOffsets, advance, unescape]
      split
      · simp [Except.map, Mode.withoutOffsets]
      cases Scalar.escape? c with
      | some d => simp [Except.map, Mode.withoutOffsets]
      | none =>
          dsimp only
          split_ifs
          · simp [Except.map, Mode.withoutOffsets]
          · simp [Except.map, failAt]
  | digits start read place hex =>
      simp only [Mode.withoutOffsets, advance, addDigit]
      split
      · simp [Except.map, Mode.withoutOffsets]
      cases Scalar.fourHex? (hex ++ [c]) with
      | some d => simp [Except.map, Mode.withoutOffsets]
      | none => simp [Except.map, failAt]

theorem advance_congr {s s' : Stack} {p p' : Position} {m m' : Mode}
    (hs : s'.withoutOffsets = s.withoutOffsets) (hp : p'.withoutOffset = p.withoutOffset)
    (hm : m'.withoutOffsets = m.withoutOffsets) (c : CodePoint) :
    outcome? (advance s' p' c m') = outcome? (advance s p c m) := by
  rw [← advance_withoutOffsets, hs, hp, hm, advance_withoutOffsets]

/-- A result without offsets. -/
def state? (result : Except ReadFailure Reader) : Option Reader :=
  result.toOption.map withoutOffsets

theorem state?_step (r : Reader) (c : CodePoint) :
    state? (r.step c) = (outcome? (advance r.stack r.position c r.mode)).map fun found =>
      ⟨(r.position.next c).withoutOffset, found.1, found.2⟩ := by
  unfold step
  cases advance r.stack r.position c r.mode with
  | error e => rfl
  | ok found => rfl

variable {r r' : Reader}

theorem step_congr (h : r'.withoutOffsets = r.withoutOffsets) (c : CodePoint) :
    state? (r'.step c) = state? (r.step c) := by
  simp only [withoutOffsets, Reader.mk.injEq] at h
  obtain ⟨hp, hm, hs⟩ := h
  have hnext : (r'.position.next c).withoutOffset = (r.position.next c).withoutOffset := by
    rw [← Position.next_withoutOffset, hp, Position.next_withoutOffset]
  rw [state?_step, state?_step, advance_congr hs hp hm, hnext]

theorem state?_bind_congr {x y : Except ReadFailure Reader}
    {f g : Reader → Except ReadFailure Reader} (hxy : state? x = state? y)
    (hfg : ∀ r r', y = .ok r → r'.withoutOffsets = r.withoutOffsets →
      state? (f r') = state? (g r)) :
    state? (x.bind f) = state? (y.bind g) := by
  cases x with
  | error e =>
      cases y with
      | error e' => rfl
      | ok r => cases hxy
  | ok r' =>
      cases y with
      | error e => cases hxy
      | ok r => exact hfg r r' rfl (Option.some_inj.mp hxy)

theorem feed_cons (r : Reader) (c : CodePoint) (t : Text) :
    r.feed (c :: t) = (r.step c).bind fun r => r.feed t := by
  rw [feed]
  cases r.step c with
  | error e => rfl
  | ok r => rfl

/-- Readers that are the same up to offsets are so behind every text. -/
theorem feed_congr (h : r'.withoutOffsets = r.withoutOffsets) (t : Text) :
    state? (r'.feed t) = state? (r.feed t) := by
  induction t generalizing r r' with
  | nil => exact congrArg some h
  | cons c t ih =>
      rw [feed_cons, feed_cons]
      exact state?_bind_congr (step_congr h c) fun _ _ _ => ih

/-- Where a text may end, its end completes the lexeme and the document. -/
theorem finish_eq (r : Reader) (h : r.mode.isUnfinished = false) :
    r.finish = (complete r.stack r.position r.mode).bind fun s =>
      match s.document r.position with
      | .ok tree => .ok tree
      | .error e => .error (.error e) := by
  obtain ⟨p, m, s⟩ := r
  cases m with
  | dispatch _ => cases h
  | backslash _ => cases h
  | string _ _ _ => cases h
  | escape _ _ _ _ => cases h
  | digits _ _ _ _ => cases h
  | _ =>
      unfold finish
      dsimp only
      generalize complete s p _ = result
      cases result with
      | error e => rfl
      | ok s => rfl

theorem toOption_finish (r : Reader) (h : r.mode.isUnfinished = false) :
    r.finish.toOption = (complete r.stack r.position r.mode).toOption.bind fun s =>
      (s.document r.position).toOption := by
  rw [finish_eq r h]
  cases complete r.stack r.position r.mode with
  | error e => rfl
  | ok s =>
      simp only [Except.bind, Except.toOption, Option.bind_some]
      cases s.document r.position with
      | error e => rfl
      | ok n => rfl

theorem finish_withoutOffsets (r : Reader) :
    r.withoutOffsets.finish.toOption = r.finish.toOption.map Node.withoutOffsets := by
  cases h : r.mode.isUnfinished with
  | true =>
      obtain ⟨p, m, s⟩ := r
      cases m <;> first | rfl | cases h
  | false =>
      have h' : r.withoutOffsets.mode.isUnfinished = false :=
        r.mode.isUnfinished_withoutOffsets.trans h
      rw [toOption_finish r h, toOption_finish _ h', Option.map_bind]
      simp only [withoutOffsets]
      rw [complete_withoutOffsets, Option.bind_map]
      exact congrArg _ (funext fun s => s.document_withoutOffsets r.position)

/-- Readers that are the same up to offsets end in trees that are. -/
theorem finish_congr (h : r'.withoutOffsets = r.withoutOffsets) :
    r'.finish.toOption.map Node.withoutOffsets = r.finish.toOption.map Node.withoutOffsets := by
  rw [← finish_withoutOffsets, h, finish_withoutOffsets]

end Reader

end EdnLint
