import EdnLint.Proofs.Document.Descent

/-!
# How far a path is followed

A walk takes the steps of a path one by one and ends where a step leads nowhere. So it
has taken the longest beginning of the path that leads anywhere, and the node it ends at
does not depend on what follows the failing step (`Node.walk_eq_partial_iff`). No
location at all means that the failing step is the first one, since the steps taken before
it count (`Node.walk_eq_none_iff`).

For the same reason a walk that goes on from a node differs from one that begins there: it
remembers the steps that led to the node, and keeps the node where the other has no
location (`Node.walk_behind`). This is the law by which `resolve` composes.
-/

namespace EdnLint

/-- The location as it is seen from where the steps `before` lead to it. -/
def Location.behind (before : List Key) (l : Location) : Location :=
  { l with matched := before ++ l.matched }

namespace Node

/-- A walk to the end of a path has taken all its steps. -/
theorem walk_exact_matched {n m : Node} {matched reached path : List Key}
    (h : n.walk matched path = some ⟨m, true, reached⟩) : reached = matched ++ path := by
  rw [← List.append_nil path] at h
  obtain ⟨k, hk, hend⟩ := exists_walk_of_append h
  cases hend
  rfl

/-- A walk stops short behind the longest beginning of the path that leads anywhere, and
what follows the failing step is of no consequence. -/
theorem walk_eq_partial_iff {n m : Node} {matched reached path : List Key} :
    n.walk matched path = some ⟨m, false, reached⟩ ↔
      reached ≠ [] ∧ ∃ p k q, path = p ++ k :: q ∧
        n.walk matched p = some ⟨m, true, reached⟩ ∧ m.follow? k = none := by
  induction path generalizing n matched with
  | nil => simp
  | cons step path ih =>
      rw [walk_cons]
      cases hstep : n.follow? step with
      | some child =>
          dsimp only
          rw [ih]
          refine and_congr_right fun hreached => ⟨?_, ?_⟩
          · rintro ⟨p, k, q, rfl, hwalk, hk⟩
            exact ⟨step :: p, k, q, rfl, by rw [walk_cons, hstep]; exact hwalk, hk⟩
          · rintro ⟨p, k, q, hpath, hwalk, hk⟩
            cases p with
            | nil =>
                -- the step that was taken is not the failing one
                cases hwalk
                obtain ⟨rfl, -⟩ := List.cons_eq_cons.mp hpath
                rw [hstep] at hk
                cases hk
            | cons first p =>
                obtain ⟨rfl, rfl⟩ := List.cons_eq_cons.mp hpath
                rw [walk_cons, hstep] at hwalk
                exact ⟨p, k, q, rfl, hwalk, hk⟩
      | none =>
          dsimp only
          constructor
          · intro h
            split at h
            · cases h
            · rename_i hmatched
              cases h
              refine ⟨by simpa using hmatched, [], step, path, rfl, rfl, hstep⟩
          · rintro ⟨hreached, p, k, q, hpath, hwalk, -⟩
            cases p with
            | nil =>
                cases hwalk
                simp [hreached]
            | cons first p =>
                obtain ⟨rfl, -⟩ := List.cons_eq_cons.mp hpath
                rw [walk_cons, hstep] at hwalk
                dsimp only at hwalk
                split at hwalk
                · cases hwalk
                · cases hwalk

theorem walk_eq_none_iff {n : Node} {matched path : List Key} :
    n.walk matched path = none ↔
      matched = [] ∧ ∃ k q, path = k :: q ∧ n.follow? k = none := by
  cases path with
  | nil => simp
  | cons step path =>
      rw [walk_cons]
      cases hstep : n.follow? step with
      | some child =>
          have hne : matched ++ [step] ≠ [] := by simp
          simp [Option.isSome_iff_ne_none.mp (walk_isSome hne child path), hstep]
      | none => simp [hstep]

/-- A walk with steps behind it goes where a walk without them goes, and stays where the
other has no location. -/
theorem walk_behind {before : List Key} (h : before ≠ []) (n : Node) (matched path : List Key) :
    n.walk (before ++ matched) path =
      some (((n.walk matched path).map (·.behind before)).getD ⟨n, false, before ++ matched⟩) := by
  induction path generalizing n matched with
  | nil => rfl
  | cons step path ih =>
      rw [walk_cons, walk_cons]
      cases hstep : n.follow? step with
      | some child =>
          dsimp only
          rw [List.append_assoc, ih]
          -- the child has a location, so the node that stands in for it is not used
          have hne : matched ++ [step] ≠ [] := by simp
          obtain ⟨l, hl⟩ := Option.isSome_iff_exists.mp (walk_isSome hne child path)
          simp [hl]
      | none =>
          by_cases hmatched : matched = []
          · simp [h, hmatched]
          · simp [h, hmatched, Location.behind]

/-- A walk that stops short has taken a beginning of the path that leads to its node, and
ends there for all longer beginnings of the path. -/
theorem walk_partial {top n : Node} {path matched : List Key}
    (h : top.walk [] path = some ⟨n, false, matched⟩) :
    matched ≠ [] ∧ matched <+: path ∧ matched ≠ path ∧
      top.walk [] matched = some ⟨n, true, matched⟩ ∧
      ∀ r, r <+: path → matched.length < r.length → top.walk [] r = some ⟨n, false, matched⟩ := by
  obtain ⟨hne, p, k, q, rfl, hwalk, hk⟩ := walk_eq_partial_iff.mp h
  obtain rfl : matched = p := walk_exact_matched hwalk
  refine ⟨hne, List.prefix_append _ _, by simp, hwalk, fun r hr hlength => ?_⟩
  -- a longer beginning has the failing step in it
  obtain ⟨s, rfl⟩ := List.prefix_of_prefix_length_le (List.prefix_append _ _) hr hlength.le
  rw [List.prefix_append_right_inj] at hr
  cases s with
  | nil => simp at hlength
  | cons step s =>
      obtain ⟨rfl, -⟩ := List.cons_prefix_cons.mp hr
      exact walk_eq_partial_iff.mpr ⟨hne, matched, step, s, rfl, hwalk, hk⟩

theorem resolve_of_topForm? {tree top : Node} (htop : tree.topForm? = some top) (path : List Key) :
    tree.resolve path false = top.walk [] path := by
  rw [resolve, htop]
  rfl

theorem Form.topForm? {Q : Position → Prop} {n : Node} (h : n.Form Q) : n.topForm? = some n := by
  cases h with
  | scalar => rfl
  | @compound shape _ _ _ hshape =>
      cases shape with
      | document => cases hshape
      | _ => rfl

end Node

open Node

/-- How the location of a path goes on with the path. (1) A path that is followed in part
has been followed along its longest beginning that has a location of its own, and every
longer one ends at the same node. (2) Behind a path that is followed to its end, the rest
leads where it leads from the node there; if it leads nowhere from there, the node itself
is the location, unless no step was taken. (3) There is no location exactly if there is no
form or the first step leads to no child of it. (4) A key that is not known is left out. -/
theorem resolve_composes {t : Text} {tree : Node} (hp : parse t = .ok tree) (p q : List Key) :
    (∀ n m, tree.resolve p false = some ⟨n, false, m⟩ →
      m ≠ [] ∧ m <+: p ∧ m ≠ p ∧ tree.resolve m false = some ⟨n, true, m⟩ ∧
        ∀ r, r <+: p → m.length < r.length → tree.resolve r false = some ⟨n, false, m⟩) ∧
    (∀ n m, tree.resolve p false = some ⟨n, true, m⟩ →
      m = p ∧ tree.resolve (p ++ q) false =
        match n.resolve q false with
        | some l => some (l.behind p)
        | none => if p = [] then none else some ⟨n, false, p⟩) ∧
    (tree.resolve p false = none ↔
      tree.forms = [] ∨ ∃ top k rest, tree.forms.head? = some top ∧ p = k :: rest ∧
        top.unwrap.child? k = none) ∧
    ∀ k, tree.resolve (p ++ [k]) true = tree.resolve p false := by
  have hunknown : ∀ k, tree.resolve (p ++ [k]) true = tree.resolve p false := by
    intro k
    simp [resolve]
  have hshape := (parse_form (Q := fun _ => True) (fun _ _ => trivial) hp).1
  by_cases hforms : tree.forms = []
  · have hnone : ∀ path, tree.resolve path false = none := by
      intro path
      simp [resolve, topForm?, hshape, hforms]
    refine ⟨?_, ?_, iff_of_true (hnone p) (Or.inl hforms), hunknown⟩
    · intro n m h
      rw [hnone] at h
      cases h
    · intro n m h
      rw [hnone] at h
      cases h
  obtain ⟨top, htop, hform, -⟩ :=
    parse_topForm (Q := fun _ => True) (fun _ _ => trivial) hp hforms
  have hresolve := resolve_of_topForm? htop
  refine ⟨fun n m h => ?_, fun n m h => ?_, ?_, hunknown⟩
  · simp only [hresolve] at h ⊢
    exact walk_partial h
  · rw [hresolve] at h
    obtain rfl : m = p := walk_exact_matched h
    refine ⟨rfl, ?_⟩
    rw [hresolve, walk_append h, resolve_of_topForm? (hform.walk h).topForm?]
    by_cases hm : m = []
    · subst hm
      cases n.walk [] q <;> rfl
    · have hbehind := walk_behind hm n [] q
      rw [List.append_nil] at hbehind
      rw [hbehind, if_neg hm]
      cases n.walk [] q <;> rfl
  · have hhead : tree.forms.head? = some top := by simpa [topForm?, hshape] using htop
    rw [hresolve, walk_eq_none_iff]
    simp [hforms, hhead, follow?]

/-- Through a tag to the item of a vector. A number has no children, so a path that goes on
stops there, and one that begins with another key has no location. -/
theorem resolve_composes_tagged :
    let one : Node := .mk (.scalar (.number (.int 1))) ⟨1, 8, 7⟩ ⟨1, 9, 8⟩ []
    let a : Node := .mk (.scalar (.symbol "a")) ⟨1, 2, 1⟩ ⟨1, 3, 2⟩ []
    let vector : Node := .mk .vector ⟨1, 7, 6⟩ ⟨1, 10, 9⟩ [one]
    let tree : Node := .mk .document ⟨1, 1, 0⟩ ⟨1, 11, 10⟩ [.mk .map ⟨1, 1, 0⟩ ⟨1, 11, 10⟩
      [a, .mk (.tagged "t") ⟨1, 4, 3⟩ ⟨1, 10, 9⟩ [vector]]]
    let p : List Key := [.symbol "a", .index 0]
    let k : Key := .keyword "k"
    parse "\x7ba #t [1]\x7d" = .ok tree ∧ tree.resolve p false = some ⟨one, true, p⟩ ∧
      tree.resolve (p ++ [k, k]) false = some ⟨one, false, p⟩ ∧
      tree.resolve (p ++ [k]) false = some ⟨one, false, p⟩ ∧ tree.resolve [k] false = none := by
  intro one a vector tree p k
  have hp : parse "\x7ba #t [1]\x7d" = .ok tree := by decide +kernel
  have hexact : tree.resolve p false = some ⟨one, true, p⟩ := rfl
  have hpartial : tree.resolve (p ++ [k, k]) false = some ⟨one, false, p⟩ :=
    ((resolve_composes hp p [k, k]).2.1 one p hexact).2
  obtain ⟨-, -, -, -, hshorter⟩ := (resolve_composes hp (p ++ [k, k]) []).1 one p hpartial
  refine ⟨hp, hexact, hpartial, hshorter (p ++ [k]) ?_ (by decide), ?_⟩
  · exact ⟨[k], rfl⟩
  · exact (resolve_composes hp [k] []).2.2.1.mpr (Or.inr ⟨_, k, [], rfl, rfl, rfl⟩)

end EdnLint
