import EdnLint.Proofs.Document.Recognition

/-!
# The part of the text a node is derived from

A node somewhere inside a tree is a form of its own: a part of the text derives it,
at the place where that part stands and in front of what follows it there.
-/

namespace EdnLint

open Grammar

/-- The first node is one of the forms of the second, or inside of one. -/
inductive Node.Inside : Node → Node → Prop
  | form {m n : Node} : m ∈ n.forms → Inside m n
  | deeper {m k n : Node} : k ∈ n.forms → Inside m k → Inside m n

namespace Grammar

/-- A part of the text `t`, which stands at `p`, derives the node. -/
def Occurs (p : Position) (t : Text) (n : Node) : Prop :=
  ∃ u v w, t = u ++ (v ++ w) ∧ Derives .form (p.after u) v w [n]

variable {p : Position} {s t rest : Text} {n : Node}

theorem Occurs.append (h : Occurs (p.after s) t n) : Occurs p (s ++ t) n := by
  obtain ⟨u, v, w, rfl, hn⟩ := h
  refine ⟨s ++ u, v, w, by simp, ?_⟩
  rw [Position.after_append]
  exact hn

namespace Derives

theorem occurs {k : Category} {ns : List Node} (h : Derives k p s rest ns) (hk : k ≠ .form) :
    ∀ n ∈ ns, Occurs p (s ++ rest) n := by
  induction h with
  | @required p s rest n hn =>
      intro m hm
      obtain rfl : m = n := by simpa using hm
      exact ⟨[], s, rest, rfl, hn⟩
  | @skip k p s u rest n _ _ _ _ ih =>
      intro m hm
      rw [List.append_assoc]
      exact (ih (by simp) m hm).append
  | @cons k p s u rest ms ns hpiece hms _ _ ih =>
      intro m hm
      rw [List.append_assoc]
      rcases List.mem_append.mp hm with hm | hm
      · by_cases hform : k = .form
        · subst hform
          obtain ⟨n, rfl⟩ := hms.exists_node (.inl rfl)
          obtain rfl : m = n := by simpa using hm
          exact ⟨[], s, u ++ rest, rfl, hms⟩
        · rw [hms.eq_nil_of_isSkipped (Category.isSkipped_of_isPiece hpiece hform)] at hm
          cases hm
      · exact (ih (by simp) m hm).append
  | _ => simp_all

theorem occurs_forms (h : Derives .form p s rest [n]) :
    ∀ f ∈ n.forms, Occurs p (s ++ rest) f := by
  intro f hf
  cases h with
  | collection _ hforms => simpa using (hforms.occurs (by simp) f hf).append
  | tagged _ _ hn => simpa using (hn.occurs (by simp) f hf).append
  | metadata hm hn =>
      rcases List.mem_cons.mp hf with rfl | hf
      · simpa using (hm.occurs (by simp) f (by simp)).append
      · simpa using (hn.occurs (by simp) f hf).append
  | quote hn => simpa using (hn.occurs (by simp) f hf).append
  | _ => cases hf

end Derives

/-- A node inside an occurring node occurs as well. -/
theorem Occurs.inside {m : Node} (hm : m.Inside n) (hn : Occurs p t n) : Occurs p t m := by
  induction hm with
  | form hm =>
      obtain ⟨u, v, w, rfl, hn⟩ := hn
      exact (hn.occurs_forms _ hm).append
  | deeper hk _ ih =>
      obtain ⟨u, v, w, rfl, hn⟩ := hn
      exact ih (hn.occurs_forms _ hk).append

end Grammar

/-- Every node of a document that reads is derived from a part of the text. -/
theorem occurs_of_parse {t : Text} {tree n : Node} (hp : parse t = .ok tree)
    (hn : n.Inside tree) : Occurs .first t n := by
  obtain ⟨forms, hd, rfl⟩ := exists_derives_of_parse hp
  have hforms : ∀ f ∈ forms, Occurs .first t f := by
    simpa using hd.occurs (by simp)
  cases hn with
  | form hn => exact hforms n hn
  | deeper hk hn => exact (hforms _ hk).inside hn

end EdnLint
