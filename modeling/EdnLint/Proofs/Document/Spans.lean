import EdnLint.Proofs.Document.Decidable
import EdnLint.Proofs.Document.Parts

/-!
# How spans nest

The forms of a node lie inside its span, in the order of the text, and do not
overlap. A derivation lays its nodes out from the start of its text to the end
(`Derives.laid`), and the text of a node starts with at least one code point that
belongs to none of its forms. A collection ends with one as well.
-/

namespace EdnLint

open Grammar

namespace Node

/-- Nodes that are not empty, one behind the other between two offsets. -/
def Laid (lo hi : Nat) : List Node → Prop
  | [] => lo ≤ hi
  | n :: ns => lo ≤ n.start.offset ∧ n.start.offset < n.stop.offset ∧ Laid n.stop.offset hi ns

namespace Laid

variable {lo mid hi : Nat} {ms ns : List Node}

theorem le (h : Laid lo hi ns) : lo ≤ hi := by
  induction ns generalizing lo with
  | nil => exact h
  | cons n ns ih =>
      obtain ⟨hlo, hn, hns⟩ := h
      have hhi := ih hns
      omega

theorem mono (h : Laid lo hi ns) {lo' hi' : Nat} (hlo : lo' ≤ lo) (hhi : hi ≤ hi') :
    Laid lo' hi' ns := by
  induction ns generalizing lo lo' with
  | nil => exact Nat.le_trans (Nat.le_trans hlo h) hhi
  | cons n ns ih =>
      obtain ⟨hstart, hn, hns⟩ := h
      exact ⟨Nat.le_trans hlo hstart, hn, ih hns (Nat.le_refl _)⟩

theorem append (hm : Laid lo mid ms) (hn : Laid mid hi ns) : Laid lo hi (ms ++ ns) := by
  induction ms generalizing lo with
  | nil => exact hn.mono hm (Nat.le_refl hi)
  | cons m ms ih =>
      obtain ⟨hlo, hm, hms⟩ := hm
      exact ⟨hlo, hm, ih hms⟩

theorem bounds (h : Laid lo hi ns) : ∀ n ∈ ns, lo ≤ n.start.offset ∧ n.stop.offset ≤ hi := by
  induction ns generalizing lo with
  | nil => exact fun _ hn => absurd hn List.not_mem_nil
  | cons n ns ih =>
      obtain ⟨hlo, hn, hns⟩ := h
      refine List.forall_mem_cons.mpr ⟨⟨hlo, hns.le⟩, fun m hm => ?_⟩
      obtain ⟨hstart, hstop⟩ := ih hns m hm
      exact ⟨by omega, hstop⟩

theorem pairwise (h : Laid lo hi ns) :
    ns.Pairwise fun m n => m.stop.offset ≤ n.start.offset := by
  induction ns generalizing lo with
  | nil => exact .nil
  | cons n ns ih =>
      obtain ⟨-, -, hns⟩ := h
      exact List.pairwise_cons.mpr ⟨fun m hm => (hns.bounds m hm).1, ih hns⟩

end Laid

/-- The spans of the forms lie in the span of the node, in the order of the text, each
behind the one before it. -/
structure Nests (n : Node) : Prop where
  inside : ∀ f ∈ n.forms, n.start.offset ≤ f.start.offset ∧ f.stop.offset ≤ n.stop.offset
  ordered : n.forms.Pairwise fun f g => f.stop.offset ≤ g.start.offset

theorem Laid.nests {n : Node} (h : Laid n.start.offset n.stop.offset n.forms) : n.Nests :=
  ⟨h.bounds, h.pairwise⟩

end Node

open Node

namespace Grammar

variable {p : Position} {s rest : Text}

theorem laid_spanning (hs : s ≠ []) (shape : Shape) (p : Position) (forms : List Node) :
    Laid p.offset (p.offset + s.length) [spanning shape p s forms] := by
  have hlength : 0 < s.length := List.length_pos_iff.mpr hs
  simp [Laid, spanning, hlength]

/-- A derivation lays its nodes out along its text. -/
theorem Derives.laid {k : Category} {ns : List Node} (h : Derives k p s rest ns) :
    Laid p.offset (p.offset + s.length) ns := by
  induction h with
  | white => simp [Laid]
  | comment => simp [Laid]
  | discard => simp [Laid]
  | atom hbare => exact laid_spanning hbare.ne_nil _ _ _
  | required _ ih => exact ih
  | skip _ _ _ _ ih =>
      refine ih.mono (by simp) ?_
      simp [Nat.add_assoc]
  | nil => simp [Laid]
  | cons _ _ _ ihm ihn =>
      rw [Position.after_offset] at ihn
      rw [List.length_append, ← Nat.add_assoc]
      exact ihm.append ihn
  | _ => exact laid_spanning (by simp) _ _ _

/-- The forms of a form leave out its first code point, and those of a collection its
last one. -/
theorem Derives.laid_forms {n : Node} (h : Derives .form p s rest [n]) :
    ∃ hi, Laid (p.offset + 1) hi n.forms ∧ hi ≤ p.offset + s.length ∧
      (n.shape.isCollection = true → hi < p.offset + s.length) := by
  have hs : 0 < s.length := List.length_pos_iff.mpr (h.text_ne_nil (by simp))
  cases h with
  | @collection _ opening s _ shape closer forms hb hforms =>
      have hopening : 1 ≤ opening.length := by cases hb <;> simp
      have hlaid := hforms.laid
      rw [Position.after_offset] at hlaid
      refine ⟨p.offset + opening.length + s.length, hlaid.mono (by omega) (Nat.le_refl _), ?_⟩
      simp only [List.length_append, List.length_singleton]
      omega
  | @tagged _ tag s _ n _ _ hn =>
      have hlaid := hn.laid
      rw [Position.after_offset, List.length_cons] at hlaid
      refine ⟨_, hlaid.mono (by omega) (Nat.le_refl _), ?_, fun hshape => by cases hshape⟩
      simp only [List.length_cons, List.length_append]
      omega
  | @metadata _ s u _ m n hm hn =>
      -- the target is laid out from where the metadata stop
      have hmeta := hm.laid
      have htarget := hn.laid
      rw [Position.after_offset, List.length_singleton] at hmeta
      rw [Position.after_offset, List.length_cons] at htarget
      refine ⟨_, hmeta.append (htarget.mono (by omega) (Nat.le_refl _)), ?_,
        fun hshape => by cases hshape⟩
      simp only [List.length_cons, List.length_append]
      omega
  | @quote _ s _ n hn =>
      have hlaid := hn.laid
      rw [Position.after_offset, List.length_singleton] at hlaid
      refine ⟨_, hlaid, ?_, fun hshape => by cases hshape⟩
      simp only [List.length_cons]
      omega
  | _ => exact ⟨p.offset + 1, Nat.le_refl _, by omega, fun hshape => by cases hshape⟩

theorem Occurs.nests {t : Text} {n : Node} (h : Occurs p t n) :
    n.start.offset < n.stop.offset ∧ n.Nests ∧
      (∀ f ∈ n.forms, n.start.offset < f.start.offset) ∧
      (n.shape.isCollection = true → ∀ f ∈ n.forms, f.stop.offset < n.stop.offset) := by
  obtain ⟨u, v, w, rfl, hn⟩ := h
  have hlength : 0 < v.length := List.length_pos_iff.mpr (hn.text_ne_nil (by simp))
  obtain ⟨hi, hlaid, hle, hlt⟩ := hn.laid_forms
  have hstart := hn.start_eq rfl n (by simp)
  have hstop := hn.stop_eq (.inl rfl) n (by simp)
  rw [← hstart] at hlaid hle hlt hstop
  have hend : n.stop.offset = n.start.offset + v.length := by rw [hstop, Position.after_offset]
  rw [← hend] at hle hlt
  refine ⟨by omega, (hlaid.mono (Nat.le_succ _) hle).nests, ?_, ?_⟩
  · intro f hf
    exact (hlaid.bounds f hf).1
  · intro hshape f hf
    exact Nat.lt_of_le_of_lt (hlaid.bounds f hf).2 (hlt hshape)

end Grammar

/-- The spans of a document nest. The document spans the whole text, no other node is
empty, the forms of a node lie inside of it, in order and apart from each other,
behind its first code point and, in a collection, in front of its last. -/
theorem parse_spans_nest {t : Text} {tree : Node} (hp : parse t = .ok tree) :
    tree.start.offset = 0 ∧ tree.stop.offset = t.length ∧ tree.Nests ∧
      ∀ n : Node, n.Inside tree →
        n.start.offset < n.stop.offset ∧ n.Nests ∧
          (∀ f ∈ n.forms, n.start.offset < f.start.offset) ∧
          (n.shape.isCollection = true → ∀ f ∈ n.forms, f.stop.offset < n.stop.offset) := by
  obtain ⟨forms, hd, rfl⟩ := exists_derives_of_parse hp
  have hlaid : (spanning .document .first t forms).Nests := by
    refine Laid.nests ?_
    simpa [spanning] using hd.laid
  refine ⟨rfl, by simp [spanning, Position.first], hlaid, fun n hn => ?_⟩
  exact (occurs_of_parse hp hn).nests

/-- A tag stands in front of a list with a discarded form in the middle. -/
theorem parse_spans_nest_tagged :
    let first : Node := .mk (.scalar (.number (.int 1))) ⟨1, 5, 4⟩ ⟨1, 6, 5⟩ []
    let second : Node := .mk (.scalar (.number (.int 3))) ⟨1, 11, 10⟩ ⟨1, 12, 11⟩ []
    let list : Node := .mk .list ⟨1, 4, 3⟩ ⟨1, 13, 12⟩ [first, second]
    let tagged : Node := .mk (.tagged "t") ⟨1, 1, 0⟩ ⟨1, 13, 12⟩ [list]
    let tree : Node := .mk .document ⟨1, 1, 0⟩ ⟨1, 14, 13⟩ [tagged]
    parse "#t (1 #_2 3) " = .ok tree ∧
      list.Nests ∧ (∀ f ∈ list.forms, list.start.offset < f.start.offset) ∧
      ∀ f ∈ list.forms, f.stop.offset < list.stop.offset := by
  intro first second list tagged tree
  have hp : parse "#t (1 #_2 3) " = .ok tree := by decide +kernel
  have hlist : list.Inside tree := .deeper (.head _) (.form (.head _))
  obtain ⟨-, -, -, hinside⟩ := parse_spans_nest hp
  obtain ⟨-, hnests, hbehind, hbefore⟩ := hinside list hlist
  exact ⟨hp, hnests, hbehind, hbefore rfl⟩

end EdnLint
