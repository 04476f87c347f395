import EdnLint.Proofs.Config.Layers
import EdnLint.Proofs.Datum.Name
import EdnLint.Proofs.Text.Utf8
import EdnLint.Session

/-!
# The URI of a file, decoded

Two functions take the URI of a file apart. `Uri.path` drops everything around the
path and reads its escapes; the escaped path is ASCII without any delimiter, so it
comes out whole and its bytes are those of the path (`path_file`). `Uri.root?` drops
`file://` and nothing else, so it gives the path only where nothing was escaped
(`escape_eq_self_iff`). A session takes the directory of its configuration from the
second one.
-/

namespace EdnLint

namespace Uri

theorem unreserved_lt {c : CodePoint} (h : isUnreserved c = true) : c.val < 0x80 := by
  simp only [isUnreserved, CodePoint.isAsciiLetter, CodePoint.isAsciiDigit, CodePoint.within,
    Bool.or_eq_true, Bool.and_eq_true, decide_eq_true_eq] at h
  rcases h with ((((((h | h) | h) | rfl) | rfl) | rfl) | rfl) | rfl
  · omega
  · omega
  · omega
  all_goals decide

/-- The digits of an escape are unreserved. -/
theorem unreserved_digit : ∀ n < 16,
    isUnreserved (CodePoint.ofChar (Nat.digitChar n).toUpper) = true := by
  decide

theorem hexValue?_digit : ∀ n < 16,
    (CodePoint.ofChar (Nat.digitChar n).toUpper).hexValue? = some n := by
  decide

/-- The code points that an escaped text is written with. -/
def IsEscaped (c : CodePoint) : Prop := isUnreserved c = true ∨ c = '%'

theorem escapeByte_isEscaped (b : UInt8) : ∀ c ∈ escapeByte b, IsEscaped c := by
  have hb : b.toNat < 256 := b.toNat_lt
  simp only [escapeByte, List.forall_mem_cons]
  refine ⟨Or.inr rfl, Or.inl (unreserved_digit _ (by omega)),
    Or.inl (unreserved_digit _ (by omega)), ?_⟩
  simp

theorem escape_isEscaped (t : Text) : ∀ c ∈ escape t, IsEscaped c := by
  intro c hc
  obtain ⟨d, -, hc⟩ := List.mem_flatMap.mp hc
  split at hc
  · rename_i hd
    rw [List.mem_singleton.mp hc]
    exact Or.inl hd
  · obtain ⟨b, -, hc⟩ := List.mem_flatMap.mp hc
    exact escapeByte_isEscaped b c hc

theorem escape_cons (c : CodePoint) (t : Text) :
    escape (c :: t) =
      (if isUnreserved c then [c] else (Utf8.encodeOne c).flatMap escapeByte) ++ escape t :=
  List.flatMap_cons

/-! ### Reading the escapes -/

theorem unescapeBytes_cons_of_ne {c : CodePoint} (hc : c ≠ '%') (t : Text) :
    unescapeBytes (c :: t) = UInt8.ofNat c.val :: unescapeBytes t := by
  match t with
  | [] => rfl
  | [d] => rfl
  | d :: e :: t =>
      rw [unescapeBytes]
      split
      · rw [if_neg hc]
      · rfl

theorem unescapeBytes_escapeByte_append (b : UInt8) (t : Text) :
    unescapeBytes (escapeByte b ++ t) = b :: unescapeBytes t := by
  have hb : b.toNat < 256 := b.toNat_lt
  have hvalue : b.toNat / 16 * 16 + b.toNat % 16 = b.toNat := by omega
  simp only [escapeByte, List.cons_append, List.nil_append, unescapeBytes,
    hexValue?_digit _ (show b.toNat / 16 < 16 by omega),
    hexValue?_digit _ (show b.toNat % 16 < 16 by omega), if_true, hvalue, UInt8.ofNat_toNat]

theorem unescapeBytes_escapeBytes_append (bytes : List UInt8) (t : Text) :
    unescapeBytes (bytes.flatMap escapeByte ++ t) = bytes ++ unescapeBytes t := by
  induction bytes with
  | nil => rfl
  | cons b bytes ih =>
      rw [List.flatMap_cons, List.append_assoc, unescapeBytes_escapeByte_append, ih,
        List.cons_append]

/-- The escapes of a text are the bytes of the text. -/
theorem unescapeBytes_escape (t : Text) : unescapeBytes (escape t) = Utf8.encode t := by
  induction t with
  | nil => rfl
  | cons c t ih =>
      rw [escape_cons, Utf8.encode, List.flatMap_cons, ← Utf8.encode, ← ih]
      split
      · rename_i hc
        have hpercent : c ≠ '%' := by
          rintro rfl
          exact absurd hc (by decide)
        rw [List.singleton_append, unescapeBytes_cons_of_ne hpercent, Utf8.encodeOne]
        simp [unreserved_lt hc]
      · exact unescapeBytes_escapeBytes_append _ _

theorem unescapeFrom_ascii {t : Text} (h : ∀ c ∈ t, c.val < 0x80) (run : Text) :
    unescapeFrom run t = Utf8.decodeLossy (unescapeBytes (run.reverse ++ t)) := by
  induction t generalizing run with
  | nil => rw [unescapeFrom, List.append_nil]
  | cons c t ih =>
      rw [List.forall_mem_cons] at h
      rw [unescapeFrom, if_pos h.1, ih h.2, List.reverse_cons, List.append_assoc,
        List.singleton_append]

theorem IsEscaped.lt {c : CodePoint} (h : IsEscaped c) : c.val < 0x80 := by
  rcases h with h | rfl
  · exact unreserved_lt h
  · decide

theorem unescape_escape {t : Text} (h : ∀ c ∈ t, c.isSurrogate = false) :
    unescape (escape t) = t := by
  rw [unescape, unescapeFrom_ascii fun c hc => (escape_isEscaped t c hc).lt, List.reverse_nil,
    List.nil_append, unescapeBytes_escape, Utf8.decodeLossy_encode h]

/-! ### Taking the URI apart -/

theorem IsEscaped.ne {c d : CodePoint} (h : IsEscaped c) (hd : isUnreserved d = false)
    (hpercent : d ≠ '%') : c ≠ d := by
  rintro rfl
  rcases h with h | h
  · rw [hd] at h
    cases h
  · exact hpercent h

theorem IsEscaped.not_isIgnored {c : CodePoint} (h : IsEscaped c) : isIgnored c = false := by
  simp [isIgnored, h.ne (d := '\t') rfl (by decide), h.ne (d := '\r') rfl (by decide),
    h.ne (d := '\n') rfl (by decide)]

theorem trim_file (t : Text) :
    trim (("file://" : Text) ++ escape t) = ("file://" : Text) ++ escape t := by
  have hfile : ∀ c ∈ ("file://" : Text), (!isIgnored c) = true := by decide
  have hfirst : (("file://" : Text) ++ escape t).dropWhile isLeading =
      ("file://" : Text) ++ escape t := rfl
  rw [trim, hfirst]
  refine List.filter_eq_self.mpr fun c hc => ?_
  rcases List.mem_append.mp hc with hc | hc
  · exact hfile c hc
  · rw [(escape_isEscaped t c hc).not_isIgnored]
    rfl

theorem splitScheme_file (t : Text) :
    splitScheme (("file://" : Text) ++ t) = (some ("file" : Text), ("//" : Text) ++ t) := by
  have hcolon : CodePoint.ofChar ':' ∉ ("file" : Text) := by decide
  have hsplit := Text.splitFirst?_append hcolon (("//" : Text) ++ t)
  have htext : ("file://" : Text) ++ t =
      ("file" : Text) ++ CodePoint.ofChar ':' :: (("//" : Text) ++ t) := rfl
  rw [splitScheme, htext, hsplit]
  rfl

/-- Without an authority a path starts right behind the two strokes. -/
theorem splitAuthority_absolute {t : Text} (h : t.head? = some (CodePoint.ofChar '/')) :
    splitAuthority (("//" : Text) ++ t) = ([], t) := by
  cases t with
  | nil => cases h
  | cons c t =>
      obtain rfl : c = '/' := by simpa using h
      rfl

theorem head?_escape {t : Text} (h : t.head? = some (CodePoint.ofChar '/')) :
    (escape t).head? = some (CodePoint.ofChar '/') := by
  cases t with
  | nil => cases h
  | cons c t =>
      obtain rfl : c = '/' := by simpa using h
      rw [escape_cons]
      rfl

/-- No delimiter cuts an escaped text short. -/
theorem takeWhile_escape {d : CodePoint} (hd : isUnreserved d = false) (hpercent : d ≠ '%')
    (t : Text) : (escape t).takeWhile (· != d) = escape t := by
  rw [List.takeWhile_eq_self_iff]
  intro c hc
  simpa using (escape_isEscaped t c hc).ne hd hpercent

/-- Nothing but the escaped path is left of the URI of a file, and it is decoded. -/
theorem path_file {t : Text} (habsolute : t.head? = some (CodePoint.ofChar '/'))
    (hscalar : ∀ c ∈ t, c.isSurrogate = false) : path (("file://" : Text) ++ escape t) = .ok t := by
  have hparameters : parameterSchemes.contains ("file" : Text) = false := by decide
  have hauthority : isAuthority [] = true := by decide
  simp only [path, trim_file, splitScheme_file,
    splitAuthority_absolute (head?_escape habsolute), takeWhile_escape (d := '#') rfl (by decide),
    takeWhile_escape (d := '?') rfl (by decide), hparameters, hauthority, if_true,
    Bool.false_eq_true, if_false, unescape_escape hscalar]

theorem root?_file (t : Text) : root? (("file://" : Text) ++ escape t) = some (escape t) := by
  rfl

/-! ### Texts without escapes -/

theorem length_flatMap_escapeByte (bytes : List UInt8) :
    (bytes.flatMap escapeByte).length = 3 * bytes.length := by
  induction bytes with
  | nil => rfl
  | cons b bytes ih =>
      rw [List.flatMap_cons, List.length_append, ih, List.length_cons]
      simp only [escapeByte, List.length_cons, List.length_nil]
      omega

theorem length_encodeOne_pos (c : CodePoint) : 0 < (Utf8.encodeOne c).length := by
  unfold Utf8.encodeOne
  dsimp only
  split
  · simp
  split
  · simp
  split <;> simp

theorem length_escape_cons {c : CodePoint} (hc : isUnreserved c = false) (t : Text) :
    (escape t).length + 3 ≤ (escape (c :: t)).length := by
  have hbytes := length_encodeOne_pos c
  rw [escape_cons, hc, if_neg Bool.false_ne_true, List.length_append, length_flatMap_escapeByte]
  omega

theorem length_le_escape (t : Text) : t.length ≤ (escape t).length := by
  induction t with
  | nil => exact Nat.zero_le _
  | cons c t ih =>
      cases hc : isUnreserved c with
      | true =>
          rw [escape_cons, hc, if_pos rfl, List.singleton_append, List.length_cons,
            List.length_cons]
          omega
      | false =>
          have hlonger := length_escape_cons hc t
          rw [List.length_cons]
          omega

/-- Every escape makes the text longer, so only a text that needs none stays as it is. -/
theorem escape_eq_self_iff {t : Text} : escape t = t ↔ ∀ c ∈ t, isUnreserved c = true := by
  induction t with
  | nil => simp [escape]
  | cons c t ih =>
      rw [List.forall_mem_cons]
      cases hc : isUnreserved c with
      | true => simp [escape_cons, hc, ih]
      | false =>
          have hlonger := length_escape_cons hc t
          have hle := length_le_escape t
          simp only [Bool.false_eq_true, false_and, iff_false]
          intro h
          rw [h, List.length_cons] at hlonger
          omega

end Uri

theorem Config.root_of_applyClient {settings : Json} {c c' : Config}
    (h : c.applyClient settings = .ok c') : c'.root = c.root := by
  obtain ⟨exclude, -, h⟩ := exists_of_bind_eq_ok h
  cases h
  rfl

/-- A session that starts without a fault works in the directory that `Uri.root?` gives. -/
theorem Session.start_root [Pattern.Engine] {t : FileTree} {s : Session} {uri root : Text}
    {options : Json} (hroot : Uri.root? uri = some root) (hne : root ≠ [])
    (h : (s.start t (some uri) options).fault = none) :
    (s.start t (some uri) options).session.config.root = some root := by
  unfold start at h ⊢
  simp only [Option.bind_some, hroot] at h ⊢
  cases hload : (Config.load t (some root)).2 with
  | error fault => simp [hload] at h
  | ok loaded =>
      have hloaded := (Config.layered_of_load hne hload).1
      simp only [hload] at h ⊢
      cases hclient : loaded.applyClient options with
      | error fault => simp [hclient] at h
      | ok config =>
          have hconfig := (Config.root_of_applyClient hclient).trans hloaded
          simp only
          split
          · exact hconfig
          · exact hconfig

namespace Uri

/-- The two ways to decode the URI of a file. The path comes out as it is, whatever it is
written with. The root comes out with its escapes unread, so it is the path exactly if
nothing in the path had to be escaped, and a session that starts with the URI works in
the directory named by the escaped path. -/
theorem root?_eq_path_iff [Pattern.Engine] {t : Text}
    (habsolute : t.head? = some (CodePoint.ofChar '/')) (hscalar : ∀ c ∈ t, c.isSurrogate = false) :
    let uri := ("file://" : Text) ++ escape t
    path uri = .ok t ∧ root? uri = some (escape t) ∧
      (root? uri = some t ↔ ∀ c ∈ t, isUnreserved c = true) ∧
      ∀ (files : FileTree) (s : Session) (options : Json),
        (s.start files (some uri) options).fault = none →
        (s.start files (some uri) options).session.config.root = some (escape t) := by
  intro uri
  have hne : escape t ≠ [] := by
    intro h
    have hhead := head?_escape habsolute
    rw [h] at hhead
    cases hhead
  refine ⟨path_file habsolute hscalar, root?_file t, ?_, fun files s options hfault => ?_⟩
  · rw [root?_file, Option.some_inj, escape_eq_self_iff]
  · exact Session.start_root (root?_file t) hne hfault

/-- A path with a space, a percent sign, all the delimiters of a URI and code points of two
and of four bytes is decoded by the first function and not by the second. -/
theorem root?_eq_path_iff_delimiters :
    let t : Text := "/a b%20/c?#;é😀"
    path (("file://" : Text) ++ escape t) = .ok t ∧
      root? (("file://" : Text) ++ escape t) = some "/a%20b%2520/c%3F%23%3B%C3%A9%F0%9F%98%80" ∧
      ¬ ∀ c ∈ t, isUnreserved c = true := by
  intro t
  obtain ⟨hpath, hroot, hagree, -⟩ := root?_eq_path_iff (t := t) (by decide) (by decide)
  refine ⟨hpath, hroot.trans (by decide), fun h => ?_⟩
  have heq := hroot.symm.trans (hagree.mpr h)
  exact absurd heq (by decide)

/-- The files of a directory whose name holds a space are not found: the session works in a
directory that is not there, and lists no paths. -/
theorem start_outside_root :
    let files : FileTree := ⟨⟨.single, ["ws"]⟩,
      [(["ws", "a b", "zen.edn"], .file (Utf8.encode "\x7b:paths [\"z\"]\x7d"))], []⟩
    let started := (Session.fresh true).start files (some "file:///ws/a%20b") .null
    path "file:///ws/a%20b" = .ok "/ws/a b" ∧ root? "file:///ws/a%20b" = some "/ws/a%20b" ∧
      started.fault = none ∧ started.session.config.paths = [] := by
  intro files started
  refine ⟨?_, ?_, ?_, ?_⟩ <;> decide +kernel

end Uri

end EdnLint
