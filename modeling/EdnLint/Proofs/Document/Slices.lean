import EdnLint.Proofs.Document.Decidable
import EdnLint.Proofs.Document.Parts
import EdnLint.Proofs.Text.Position

/-!
# Reading the span of a node by itself

The text that a node spans reads by itself, as a document with that node as its only
form. What stands around it has no influence: nothing that follows a derivation is
needed for it (`Derives.cut`), and where it stands moves the positions only.
-/

namespace EdnLint

open Grammar

namespace Node

mutual

/-- The node of the same text if that text starts at `origin`. -/
def relocate (origin : Position) : Node → Node
  | .mk shape start stop forms =>
      .mk shape (origin.relocate start) (origin.relocate stop) (relocateAll origin forms)

def relocateAll (origin : Position) : List Node → List Node
  | [] => []
  | n :: ns => relocate origin n :: relocateAll origin ns

end

theorem relocateAll_eq_map (origin : Position) (ns : List Node) :
    relocateAll origin ns = ns.map (relocate origin) := by
  induction ns with
  | nil => rfl
  | cons n ns ih => rw [relocateAll, ih, List.map_cons]

end Node

namespace Grammar

theorem relocate_spanning (origin : Position) {q : Position} (hq : q.IsCounted) (shape : Shape)
    (s : Text) (forms : List Node) :
    (spanning shape q s forms).relocate origin =
      spanning shape (origin.relocate q) s (forms.map (Node.relocate origin)) := by
  rw [spanning, Node.relocate, Node.relocateAll_eq_map, origin.relocate_after hq]
  rfl

/-- A text that is derived behind `origin` is derived by itself. -/
theorem Derives.exists_relocate {k : Category} {p : Position} {s rest : Text} {ns : List Node}
    (h : Derives k p s rest ns) {origin q : Position} (hq : q.IsCounted)
    (hp : origin.relocate q = p) :
    ∃ ms, ms.map (Node.relocate origin) = ns ∧ Derives k q s rest ms := by
  induction h generalizing q with
  | white hc => exact ⟨[], rfl, .white hc⟩
  | comment hs hends => exact ⟨[], rfl, .comment hs hends⟩
  | discard _ ih =>
      subst hp
      obtain ⟨ms, hms, hn⟩ := ih (hq.after _) (origin.relocate_after hq _)
      obtain ⟨m, rfl, rfl⟩ := List.map_eq_singleton_iff.mp hms
      exact ⟨[], rfl, .discard hn⟩
  | collection hb _ ih =>
      subst hp
      obtain ⟨ms, rfl, hms⟩ := ih (hq.after _) (origin.relocate_after hq _)
      exact ⟨_, by simp [relocate_spanning origin hq], .collection hb hms⟩
  | string hquoted =>
      subst hp
      exact ⟨_, by simp [relocate_spanning origin hq], .string hquoted⟩
  | character ht hends hv =>
      subst hp
      exact ⟨_, by simp [relocate_spanning origin hq], .character ht hends hv⟩
  | symbolic ht hends hv =>
      subst hp
      exact ⟨_, by simp [relocate_spanning origin hq], .symbolic ht hends hv⟩
  | tagged ht hends _ ih =>
      subst hp
      obtain ⟨ms, hms, hn⟩ := ih (hq.after _) (origin.relocate_after hq _)
      obtain ⟨m, rfl, rfl⟩ := List.map_eq_singleton_iff.mp hms
      exact ⟨_, by simp [relocate_spanning origin hq], .tagged ht hends hn⟩
  | metadata _ _ ihm ihn =>
      subst hp
      obtain ⟨ms, hms, hm⟩ := ihm (hq.after _) (origin.relocate_after hq _)
      obtain ⟨m, rfl, rfl⟩ := List.map_eq_singleton_iff.mp hms
      obtain ⟨ns, hns, hn⟩ := ihn (hq.after _) (origin.relocate_after hq _)
      obtain ⟨n, rfl, rfl⟩ := List.map_eq_singleton_iff.mp hns
      exact ⟨_, by simp [relocate_spanning origin hq], .metadata hm hn⟩
  | quote _ ih =>
      subst hp
      obtain ⟨ms, hms, hn⟩ := ih (hq.after _) (origin.relocate_after hq _)
      obtain ⟨m, rfl, rfl⟩ := List.map_eq_singleton_iff.mp hms
      exact ⟨_, by simp [relocate_spanning origin hq], .quote hn⟩
  | atom hbare hends ha =>
      subst hp
      exact ⟨_, by simp [relocate_spanning origin hq], .atom hbare hends ha⟩
  | required _ ih =>
      obtain ⟨ms, hms, hn⟩ := ih hq hp
      obtain ⟨m, rfl, rfl⟩ := List.map_eq_singleton_iff.mp hms
      exact ⟨[m], rfl, .required hn⟩
  | skip hk _ _ ihs ihn =>
      subst hp
      obtain ⟨ms, hms, hs⟩ := ihs hq rfl
      obtain rfl := List.map_eq_nil_iff.mp hms
      obtain ⟨ns, hns, hn⟩ := ihn (hq.after _) (origin.relocate_after hq _)
      obtain ⟨n, rfl, rfl⟩ := List.map_eq_singleton_iff.mp hns
      exact ⟨[n], rfl, .skip hk hs hn⟩
  | nil => exact ⟨[], rfl, .nil⟩
  | cons hk _ _ ihm ihn =>
      subst hp
      obtain ⟨ms, rfl, hm⟩ := ihm hq rfl
      obtain ⟨ns, rfl, hn⟩ := ihn (hq.after _) (origin.relocate_after hq _)
      exact ⟨ms ++ ns, List.map_append, .cons hk hm hn⟩

/-- The text of a node derives a node by itself, which is that node up to its place. -/
theorem Occurs.exists_form {t : Text} {n : Node} (h : Occurs .first t n) :
    ∃ m, Derives .form .first ((t.take n.stop.offset).drop n.start.offset) [] [m] ∧
      m.relocate n.start = n := by
  obtain ⟨u, v, w, rfl, hn⟩ := h
  have hstart := hn.start_eq rfl n (by simp)
  have hstop := hn.stop_eq (.inl rfl) n (by simp)
  have hslice : ((u ++ (v ++ w)).take n.stop.offset).drop n.start.offset = v := by
    have hlo : n.start.offset = u.length := by simp [hstart, Position.first]
    have hhi : n.stop.offset = u.length + v.length := by simp [hstop, Position.first]
    rw [hlo, hhi, List.take_length_add_append, List.take_left, List.drop_left]
  -- what follows the node is cut off, and its place becomes the origin
  obtain ⟨ms, hms, hm⟩ := (hn.cut List.nil_prefix).exists_relocate Position.first_isCounted
    (Position.relocate_first _)
  obtain ⟨m, rfl, hmn⟩ := List.map_eq_singleton_iff.mp hms
  rw [hslice]
  refine ⟨m, hm, ?_⟩
  rw [hstart]
  exact hmn

end Grammar

/-- The span of a node reads as a document with one form, which is the node at
another place. -/
theorem parse_slice {t : Text} {tree n : Node} (hp : parse t = .ok tree) (hn : n.Inside tree) :
    let slice := (t.take n.stop.offset).drop n.start.offset
    ∃ m, parse slice = .ok (.mk .document .first (Position.first.after slice) [m]) ∧
      m.relocate n.start = n := by
  intro slice
  obtain ⟨m, hm, hmn⟩ := (occurs_of_parse hp hn).exists_form
  have hdocument : Derives .sequence .first slice [] [m] := by
    have hcons := Derives.cons (u := []) rfl hm .nil
    rwa [List.append_nil] at hcons
  exact ⟨m, parse_of_derives hdocument, hmn⟩

/-- Metadata that start on the second line of a document and go on to the third. -/
theorem parse_slice_metadata :
    let t : Text := "[7\n ^m\n 'a]"
    let seven : Node := .mk (.scalar (.number (.int 7))) ⟨1, 2, 1⟩ ⟨1, 3, 2⟩ []
    let name : Node := .mk (.scalar (.symbol "m")) ⟨2, 3, 5⟩ ⟨2, 4, 6⟩ []
    let letter : Node := .mk (.scalar (.symbol "a")) ⟨3, 3, 9⟩ ⟨3, 4, 10⟩ []
    let quote : Node := .mk .quote ⟨3, 2, 8⟩ ⟨3, 4, 10⟩ [letter]
    let metadata : Node := .mk .metadata ⟨2, 2, 4⟩ ⟨3, 4, 10⟩ [name, quote]
    let vector : Node := .mk .vector ⟨1, 1, 0⟩ ⟨3, 5, 11⟩ [seven, metadata]
    parse t = .ok (.mk .document ⟨1, 1, 0⟩ ⟨3, 5, 11⟩ [vector]) ∧
      ∃ m, parse "^m\n 'a" = .ok (.mk .document ⟨1, 1, 0⟩ ⟨2, 4, 6⟩ [m]) ∧
        m.relocate ⟨2, 2, 4⟩ = metadata := by
  intro t seven name letter quote metadata vector
  have hp : parse t = .ok (.mk .document ⟨1, 1, 0⟩ ⟨3, 5, 11⟩ [vector]) := by decide +kernel
  have hn : metadata.Inside (.mk .document ⟨1, 1, 0⟩ ⟨3, 5, 11⟩ [vector]) :=
    .deeper (.head _) (.form (.tail _ (.head _)))
  exact ⟨hp, parse_slice hp hn⟩

end EdnLint
