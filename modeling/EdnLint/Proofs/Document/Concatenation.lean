import EdnLint.Proofs.Document.Decidable
import EdnLint.Proofs.Document.LineEnds
import EdnLint.Proofs.Text.Coordinates

/-!
# Reading one text beneath another

The reader knows where it is by a position that it moves on and hands out, and it never
looks at one. So a map of positions that agrees with moving on (`Position.Commutes`) goes
through every function of the reader, on success and on failure alike. What the document
has already does not matter either: the forms `base` stay in front of the new ones
(`Reader.feed_onto`).

A line feed behind a text that reads ends what the end of the text would have ended, a
token or a comment, and leaves nothing that has begun (`Reader.feed_lineFeed`). From there
on the reader goes through what follows as it would go through it alone, only further down
(`parse_beneath`).
-/

namespace EdnLint

namespace Position

/-- It makes no difference whether a position is mapped before or after it is moved on. -/
def Commutes (f : Position → Position) : Prop := ∀ p c, f (p.next c) = (f p).next c

/-- The place of `p` if the lines of the text `above` stand above its text: all of them
and the line feed behind them come first. -/
def beneath (above : Text) (p : Position) : Position where
  line := p.line + (1 + above.count (CodePoint.ofChar '\n'))
  col := p.col
  offset := p.offset + (above.length + 1)

theorem beneath_commutes (above : Text) : Commutes (beneath above) := by
  intro p c
  unfold next
  split
  · simp only [beneath, mk.injEq, true_and]
    omega
  · simp only [beneath, mk.injEq, true_and]
    omega

/-- Where a text starts that stands beneath another one. -/
theorem first_after_lineFeed (above : Text) :
    (first.after above).next '\n' = first.beneath above := by
  rw [first_after, next, if_pos rfl]
  simp only [ofOffset, List.take_length, beneath, first, mk.injEq, true_and]
  omega

end Position

namespace Node

mutual

/-- The node with all its places mapped. -/
def mapPositions (f : Position → Position) : Node → Node
  | .mk shape start stop forms => .mk shape (f start) (f stop) (mapAllPositions f forms)

def mapAllPositions (f : Position → Position) : List Node → List Node
  | [] => []
  | n :: ns => mapPositions f n :: mapAllPositions f ns

end

theorem mapAllPositions_eq_map (f : Position → Position) (ns : List Node) :
    mapAllPositions f ns = ns.map (mapPositions f) := by
  induction ns with
  | nil => rfl
  | cons n ns ih => rw [mapAllPositions, ih, List.map_cons]

@[simp] theorem mapPositions_mk (f : Position → Position) (shape : Shape) (start stop : Position)
    (forms : List Node) :
    (mk shape start stop forms).mapPositions f =
      mk shape (f start) (f stop) (forms.map (mapPositions f)) := by
  rw [mapPositions, mapAllPositions_eq_map]

@[simp] theorem stop_mapPositions (f : Position → Position) (n : Node) :
    (n.mapPositions f).stop = f n.stop := by
  cases n
  simp

end Node

/-- The failure at its place on the map. What is wrong is the same. -/
def ReadFailure.mapPositions (f : Position → Position) : ReadFailure → ReadFailure
  | .error e => .error ⟨e.cause, f e.position⟩
  | .fault cause => .fault cause

section

variable {f : Position → Position}

def Frame.mapPositions (f : Position → Position) : Frame → Frame
  | .collection shape closer start forms =>
      .collection shape closer (f start) (forms.map (Node.mapPositions f))
  | .pending shape part later start forms =>
      .pending shape part later (f start) (forms.map (Node.mapPositions f))

namespace Stack

/-- The stack with its places mapped and the forms `base`, last first, in front of its own. -/
def onto (f : Position → Position) (base : List Node) (s : Stack) : Stack :=
  ⟨s.frames.map (Frame.mapPositions f), s.forms.map (Node.mapPositions f) ++ base⟩

variable (base : List Node)

theorem deliverTo_onto (document : List Node) (n : Node) (frames : List Frame) :
    deliverTo (document.map (Node.mapPositions f) ++ base) (n.mapPositions f)
        (frames.map (Frame.mapPositions f)) =
      (deliverTo document n frames).onto f base := by
  fun_induction deliverTo document n frames with
  | case4 n shape part start forms frames ih =>
      rw [← ih]
      simp [deliverTo, Frame.mapPositions]
  | _ => simp [deliverTo, onto, Frame.mapPositions]

theorem deliver_onto (s : Stack) (n : Node) :
    (s.onto f base).deliver (n.mapPositions f) = (s.deliver n).onto f base :=
  deliverTo_onto base s.forms n s.frames

theorem close_onto (hf : Position.Commutes f) (s : Stack) (c : CodePoint) (p : Position) :
    (s.onto f base).close c (f p) =
      match s.close c p with
      | .ok s => .ok (s.onto f base)
      | .error e => .error ⟨e.cause, f e.position⟩ := by
  obtain ⟨frames, forms⟩ := s
  rcases frames with - | ⟨⟨shape, closer, start, inner⟩ | ⟨shape, part, later, start, inner⟩, rest⟩
  · rfl
  · by_cases hc : c = closer
    · have hdeliver := deliverTo_onto (f := f) base forms
        (.mk shape start (p.next c) inner.reverse) rest
      rw [Node.mapPositions_mk, hf, List.map_reverse] at hdeliver
      simp only [close, onto, List.map_cons, Frame.mapPositions, hc, if_true]
      rw [← hc, hdeliver]
      rfl
    · simp [close, onto, Frame.mapPositions, hc]
  · rfl

end Stack

def Mode.mapPositions (f : Position → Position) : Mode → Mode
  | .blank => .blank
  | .comment => .comment
  | .token start read => .token (f start) read
  | .dispatch start => .dispatch (f start)
  | .tag start read => .tag (f start) read
  | .symbolic start read => .symbolic (f start) read
  | .backslash start => .backslash (f start)
  | .character start read => .character (f start) read
  | .string pattern start read => .string pattern (f start) read
  | .escape pattern start read place => .escape pattern (f start) read (f place)
  | .digits start read place hex => .digits (f start) read (f place) hex

namespace Reader

/-- The reader with its places mapped, in a document that has the forms `base` already. -/
def onto (f : Position → Position) (base : List Node) (r : Reader) : Reader :=
  ⟨f r.position, r.mode.mapPositions f, r.stack.onto f base⟩

/-- A result with its places mapped, whether it is one or a failure. -/
def mapResult {α β : Type} (f : Position → Position) (g : α → β) :
    Except ReadFailure α → Except ReadFailure β
  | .ok a => .ok (g a)
  | .error e => .error (e.mapPositions f)

@[simp] theorem mapResult_ok {α β : Type} (g : α → β) (a : α) :
    mapResult f g (.ok a) = .ok (g a) := rfl

@[simp] theorem mapResult_error {α β : Type} (g : α → β) (e : ReadFailure) :
    mapResult f g (.error e) = .error (e.mapPositions f) := rfl

@[simp] theorem mapResult_failAt {α β : Type} (g : α → β) (cause : ReadError.Cause)
    (p : Position) : mapResult f g (failAt cause p) = failAt cause (f p) := rfl

@[simp] theorem scalar_mapPositions (value : Atom) (start stop : Position) :
    (scalar value start stop).mapPositions f = scalar value (f start) (f stop) := by
  simp [scalar]

/-- What a code point leads to, on the map. -/
abbrev mapNext (f : Position → Position) (base : List Node) :
    Except ReadFailure (Mode × Stack) → Except ReadFailure (Mode × Stack) :=
  mapResult f (Prod.map (Mode.mapPositions f) (Stack.onto f base))

variable (base : List Node)

theorem begin_onto (hf : Position.Commutes f) (s : Stack) (p : Position) (c : CodePoint) :
    begin (s.onto f base) (f p) c = mapNext f base (begin s p c) := by
  unfold begin
  split
  · rfl
  split
  · rfl
  split
  · rw [Stack.close_onto base hf]
    cases s.close c p with
    | ok s => rfl
    | error e => rfl
  cases opening? c with
  | some found => rfl
  | none =>
      dsimp only
      split_ifs <;> rfl

theorem complete_onto (s : Stack) (stop : Position) (m : Mode) :
    complete (s.onto f base) (f stop) (m.mapPositions f) =
      mapResult f (Stack.onto f base) (complete s stop m) := by
  cases m with
  | token start read =>
      simp only [Mode.mapPositions, complete]
      split <;> simp [← Stack.deliver_onto, ReadFailure.mapPositions]
  | symbolic start read =>
      simp only [Mode.mapPositions, complete]
      split <;> simp [← Stack.deliver_onto]
  | character start read =>
      simp only [Mode.mapPositions, complete]
      split <;> simp [← Stack.deliver_onto]
  | _ => rfl

theorem extend_onto (hf : Position.Commutes f) (m longer : Mode) (s : Stack) (p : Position)
    (c : CodePoint) :
    extend (m.mapPositions f) (longer.mapPositions f) (s.onto f base) (f p) c =
      mapNext f base (extend m longer s p c) := by
  unfold extend
  split
  · rw [complete_onto]
    cases complete s p m with
    | ok s => exact begin_onto base hf s p c
    | error e => rfl
  · rfl

theorem dispatch_onto (start : Position) (s : Stack) (c : CodePoint) :
    dispatch (f start) (s.onto f base) c = mapNext f base (dispatch start s c) := by
  unfold dispatch
  split_ifs <;> rfl

theorem advance_onto (hf : Position.Commutes f) (s : Stack) (p : Position) (c : CodePoint)
    (m : Mode) :
    advance (s.onto f base) (f p) c (m.mapPositions f) = mapNext f base (advance s p c m) := by
  cases m with
  | blank => exact begin_onto base hf s p c
  | comment =>
      simp only [Mode.mapPositions, advance]
      split <;> rfl
  | token start read =>
      exact extend_onto base hf (.token start read) (.token start (c :: read)) s p c
  | dispatch start => exact dispatch_onto base start s c
  | tag start read =>
      exact extend_onto base hf (.tag start read) (.tag start (c :: read)) s p c
  | symbolic start read =>
      exact extend_onto base hf (.symbolic start read) (.symbolic start (c :: read)) s p c
  | backslash start => rfl
  | character start read =>
      exact extend_onto base hf (.character start read) (.character start (c :: read)) s p c
  | string pattern start read =>
      simp only [Mode.mapPositions, advance]
      split_ifs
      · simp [Mode.mapPositions, ← Stack.deliver_onto, hf p c]
      · rfl
      · rfl
  | escape pattern start read place =>
      simp only [Mode.mapPositions, advance, unescape]
      split
      · rfl
      cases Scalar.escape? c with
      | some d => rfl
      | none =>
          dsimp only
          split_ifs <;> rfl
  | digits start read place hex =>
      simp only [Mode.mapPositions, advance, addDigit]
      split
      · rfl
      cases Scalar.fourHex? (hex ++ [c]) with
      | some d => rfl
      | none => rfl

theorem step_onto (hf : Position.Commutes f) (r : Reader) (c : CodePoint) :
    (r.onto f base).step c = mapResult f (onto f base) (r.step c) := by
  unfold step
  simp only [onto]
  rw [advance_onto base hf]
  cases advance r.stack r.position c r.mode with
  | ok next => simp [onto, hf r.position c]
  | error e => rfl

/-- A text is read in the same way wherever it stands and whatever stands above it. -/
theorem feed_onto (hf : Position.Commutes f) (r : Reader) (t : Text) :
    (r.onto f base).feed t = mapResult f (onto f base) (r.feed t) := by
  induction t generalizing r with
  | nil => rfl
  | cons c t ih =>
      rw [feed_cons, feed_cons, step_onto base hf]
      cases r.step c with
      | ok r => exact ih r
      | error e => rfl

end Reader

/-- The document with its places mapped and the forms `base`, last first, in front of its
own. -/
def Node.onto (f : Position → Position) (base : List Node) (tree : Node) : Node :=
  .mk .document .first (f tree.stop) (base.reverse ++ tree.forms.map (Node.mapPositions f))

theorem Stack.document_onto (base : List Node) (s : Stack) (stop : Position) :
    (s.onto f base).document (f stop) =
      match s.document stop with
      | .ok tree => .ok (tree.onto f base)
      | .error e => .error ⟨e.cause, f e.position⟩ := by
  obtain ⟨frames, forms⟩ := s
  rcases frames with - | ⟨⟨shape, closer, start, inner⟩ | ⟨shape, part, later, start, inner⟩, rest⟩
  · simp [document, onto, Node.onto]
  · rfl
  · rfl

/-- A document is complete if no form is left that has begun. -/
theorem Stack.eq_of_document {s : Stack} {stop : Position} {tree : Node}
    (h : s.document stop = .ok tree) : s = ⟨[], tree.forms.reverse⟩ := by
  obtain ⟨frames, forms⟩ := s
  rcases frames with - | ⟨⟨shape, closer, start, inner⟩ | ⟨shape, part, later, start, inner⟩, rest⟩
  · cases h
    simp
  · cases h
  · cases h

namespace Reader

theorem finish_onto (base : List Node) (r : Reader) :
    (r.onto f base).finish = mapResult f (Node.onto f base) r.finish := by
  have hunfinished : (r.onto f base).mode.isUnfinished = r.mode.isUnfinished := by
    simp only [onto]
    cases r.mode <;> rfl
  cases h : r.mode.isUnfinished with
  | true =>
      obtain ⟨p, m, s⟩ := r
      cases m <;> first | rfl | cases h
  | false =>
      rw [finish_eq r h, finish_eq _ (hunfinished.trans h)]
      simp only [onto]
      rw [complete_onto]
      cases complete r.stack r.position r.mode with
      | error e => rfl
      | ok s =>
          simp only [mapResult_ok, Except.bind, Stack.document_onto]
          cases s.document r.position with
          | ok tree => rfl
          | error e => rfl

/-- A line feed ends what the end of the text ends: where the text may end, it leaves the
forms of the document and nothing that has begun. -/
theorem step_lineFeed {r : Reader} {tree : Node} (h : r.finish = .ok tree) :
    r.step '\n' = .ok ⟨r.position.next '\n', .blank, ⟨[], tree.forms.reverse⟩⟩ := by
  have hfinished : r.mode.isUnfinished = false := by
    obtain ⟨p, m, s⟩ := r
    cases m <;> first | rfl | cases h
  have hadvance : advance r.stack r.position '\n' r.mode =
      (complete r.stack r.position r.mode).map fun s => (.blank, s) := by
    by_cases hcomment : r.mode = .comment
    · rw [hcomment]
      rfl
    · have hblank : (CodePoint.ofChar '\n').isBlank = true := rfl
      apply advance_of_isBlank hblank
      · cases hm : r.mode <;> first | rfl | simp [hm, Mode.isUnfinished] at hfinished
      · exact hcomment
      · intro start hm
        simp [hm, Mode.isUnfinished] at hfinished
  rw [finish_eq r hfinished] at h
  rw [step, hadvance]
  cases hcomplete : complete r.stack r.position r.mode with
  | error e => simp [hcomplete, Except.bind] at h
  | ok s =>
      simp only [hcomplete, Except.bind] at h
      cases hdocument : s.document r.position with
      | error e => simp [hdocument] at h
      | ok tree' =>
          have htree : tree' = tree := by simpa [hdocument] using h
          rw [Stack.eq_of_document hdocument, htree]
          rfl

end Reader

end

/-- The failure in a text beneath the lines of another. -/
def ReadFailure.beneath (above : Text) : ReadFailure → ReadFailure :=
  mapPositions (Position.beneath above)

/-- The node in a text beneath the lines of another. -/
def Node.beneath (above : Text) : Node → Node := mapPositions (Position.beneath above)

/-- Behind a text that reads and a line feed, the reader is as in front of a text, only
further down and with forms already read. -/
theorem Reader.feed_lineFeed {above : Text} {tree : Node} (h : parse above = .ok tree) :
    initial.feed (above ++ [CodePoint.ofChar '\n']) =
      .ok (initial.onto (Position.beneath above) tree.forms.reverse) := by
  cases hfeed : initial.feed above with
  | error e => simp [parse, hfeed] at h
  | ok r =>
      have hfinish : r.finish = .ok tree := by simpa [parse, hfeed] using h
      have hposition : r.position.next '\n' = Position.first.beneath above := by
        rw [feed_position hfeed]
        exact Position.first_after_lineFeed above
      rw [feed_append, hfeed]
      change r.feed ['\n'] = _
      rw [feed_cons, step_lineFeed hfinish, hposition]
      rfl

/-- Reading goes from text to text: beneath a text that reads, any text reads as it does
alone. Its forms come behind the forms above it, and its failure is the failure of the
whole. Both stand as many lines and code points further down as there are above them, and
in the same column. -/
theorem parse_beneath {above : Text} {tree : Node} (h : parse above = .ok tree) (t : Text) :
    parse (above ++ CodePoint.ofChar '\n' :: t) =
      match parse t with
      | .ok below => .ok (.mk .document .first (below.stop.beneath above)
          (tree.forms ++ below.forms.map (Node.beneath above)))
      | .error e => .error (e.beneath above) := by
  have hsplit : above ++ CodePoint.ofChar '\n' :: t = (above ++ [CodePoint.ofChar '\n']) ++ t := by
    simp
  have hfeed := Reader.feed_onto tree.forms.reverse (Position.beneath_commutes above)
    Reader.initial t
  rw [parse, parse, hsplit, Reader.feed_append, Reader.feed_lineFeed h, Except.bind, hfeed]
  cases Reader.initial.feed t with
  | error e => rfl
  | ok r =>
      simp only [Reader.mapResult_ok, Reader.finish_onto]
      cases r.finish with
      | error e => rfl
      | ok below => simp [Node.onto, Node.beneath]

/-- Beneath a token and a comment that go up to the end of their text, a string over two
lines is read, and a delimiter that was not opened is not. -/
theorem parse_beneath_comment :
    let above : Text := "'a ;b"
    let letter : Node := .mk (.scalar (.symbol "a")) ⟨1, 2, 1⟩ ⟨1, 3, 2⟩ []
    let quote : Node := .mk .quote ⟨1, 1, 0⟩ ⟨1, 3, 2⟩ [letter]
    let string : Node := .mk (.scalar (.string "c\nd")) ⟨2, 2, 7⟩ ⟨3, 3, 12⟩ []
    parse above = .ok (.mk .document ⟨1, 1, 0⟩ ⟨1, 6, 5⟩ [quote]) ∧
      parse (above ++ CodePoint.ofChar '\n' :: " \"c\nd\"") =
        .ok (.mk .document ⟨1, 1, 0⟩ ⟨3, 3, 12⟩ [quote, string]) ∧
      parse (above ++ CodePoint.ofChar '\n' :: "\n [)") =
        .error (.error ⟨.unmatched ')', ⟨3, 3, 9⟩⟩) := by
  intro above letter quote string
  have habove : parse above = .ok (.mk .document ⟨1, 1, 0⟩ ⟨1, 6, 5⟩ [quote]) := by
    decide +kernel
  refine ⟨habove, ?_, ?_⟩
  · rw [parse_beneath habove]
    decide +kernel
  · rw [parse_beneath habove]
    decide +kernel

end EdnLint
