import HostBridge.Proofs.TemplateGrammar

/-!
# Templates in sequence, and where rendering fails

Rendering one template after another is rendering them joined, as long as the first can be rendered
(`Template.literal_append`); a fault of the second is then reported with its place moved by the
bytes of the first (`LogError.shift`).

A template that cannot be rendered has a fault after one of its opening braces (`Template.Fault`):
the placeholder is not closed, holds no number, or has no argument that can be displayed. The fault
that is reported is the leftmost, and all that stands before it can be rendered
(`Template.literal_eq_error_iff`).
-/

namespace HostBridge

/-- A fault as it is reported if `k` more bytes stand before the template. -/
def LogError.shift (k : Nat) : LogError → LogError
  | malformedPlaceholder position => malformedPlaceholder (k + position)
  | e => e

namespace Template

variable {args : List (Option (List Char))}

/-! ## Templates in sequence -/

/-- A brace is one byte. -/
theorem size_closed (l n rest : List Char) :
    size (l ++ '{' :: (n ++ '}' :: rest)) = size l + 1 + size n + 1 + size rest := by
  have hopen : '{'.utf8Size = 1 := by decide
  have hclose : '}'.utf8Size = 1 := by decide
  simp only [size_append, size_cons, hopen, hclose]
  omega

theorem fill_shift (k start : Nat) (n : List Char) :
    fill args (k + start) n = (fill args start n).mapError (LogError.shift k) := by
  unfold fill
  cases Unsigned.read? n with
  | none => rfl
  | some i => rcases hi : args[i]? with _ | _ | arg <;> simp only [hi] <;> rfl

/-- Where a template stands shows in the place of a fault only. -/
theorem literal_shift (k pos : Nat) (t : List Char) :
    literal args (k + pos) t = (literal args pos t).mapError (LogError.shift k) := by
  induction t using Template.ind generalizing pos with
  | plain l hl => rw [literal_of_plain hl, literal_of_plain hl]; rfl
  | unclosed l n hl hn =>
    rw [literal_of_unclosed hl hn, literal_of_unclosed hl hn, Nat.add_assoc]
    rfl
  | closed l n rest hl hn ih =>
    have hpos : k + pos + size l + 1 + size n + 1 = k + (pos + size l + 1 + size n + 1) := by omega
    rw [literal_of_closed hl hn, literal_of_closed hl hn, hpos, ih, Nat.add_assoc, fill_shift]
    cases fill args (pos + size l) n with
    | error e => rfl
    | ok arg =>
      simp only [Except.mapError, Except.bind]
      cases literal args (pos + size l + 1 + size n + 1) rest <;> rfl

/-- **Rendering goes on** after a template that can be rendered. -/
theorem literal_append {t₁ s₁ : List Char} {pos : Nat} (h : literal args pos t₁ = .ok s₁)
    (t₂ : List Char) :
    literal args pos (t₁ ++ t₂) = (literal args (pos + size t₁) t₂).map (s₁ ++ ·) := by
  induction t₁ using Template.ind generalizing pos s₁ with
  | plain l hl =>
    rw [literal_of_plain hl] at h
    cases h
    exact literal_append_of_plain hl t₂ pos
  | unclosed l n hl hn =>
    rw [literal_of_unclosed hl hn] at h
    cases h
  | closed l n rest hl hn ih =>
    obtain ⟨arg, tail, hfill, hrest, rfl⟩ := literal_of_closed_eq_ok hl hn h
    have hjoin : l ++ '{' :: (n ++ '}' :: rest) ++ t₂ = l ++ '{' :: (n ++ '}' :: (rest ++ t₂)) := by
      simp
    have hpos : pos + size (l ++ '{' :: (n ++ '}' :: rest)) =
        pos + size l + 1 + size n + 1 + size rest := by
      rw [size_closed]
      omega
    rw [hjoin, literal_of_closed hl hn, hfill, hpos, Except.bind, ih hrest]
    cases literal args (pos + size l + 1 + size n + 1 + size rest) t₂ <;> simp [Except.map]

/-! ## Faults -/

/-- What is at fault after a brace that opens at byte `start`, with these arguments. -/
inductive Fault (args : List (Option (List Char))) (start : Nat) : List Char → LogError → Prop
  /-- No brace closes. -/
  | unclosed {after : List Char} (h : '}' ∉ after) :
      Fault args start after (.malformedPlaceholder start)
  /-- No number stands before the first brace that closes. -/
  | noNumber {n rest : List Char} (h : '}' ∉ n) (hread : Unsigned.read? n = none) :
      Fault args start (n ++ '}' :: rest) (.malformedPlaceholder start)
  /-- The number has no argument. -/
  | noArgument {n rest : List Char} {index : Nat} (h : '}' ∉ n)
      (hread : Unsigned.read? n = some index) (hcount : args.length ≤ index) :
      Fault args start (n ++ '}' :: rest) (.missingArgument index args.length)
  /-- The argument fails to be displayed. -/
  | noText {n rest : List Char} {index : Nat} (h : '}' ∉ n)
      (hread : Unsigned.read? n = some index) (hfails : args[index]? = some none) :
      Fault args start (n ++ '}' :: rest) .undisplayed

theorem fault_of_fill {start : Nat} {n : List Char} {e : LogError} (hn : '}' ∉ n)
    (h : fill args start n = .error e) (rest : List Char) :
    Fault args start (n ++ '}' :: rest) e := by
  unfold fill at h
  split at h
  · next hread =>
    cases h
    exact .noNumber hn hread
  · next index hread =>
    split at h
    · next hnone =>
      cases h
      exact .noArgument hn hread (List.getElem?_eq_none_iff.1 hnone)
    · next hfails =>
      cases h
      exact .noText hn hread hfails
    · cases h

theorem literal_of_fault {start : Nat} {after : List Char} {e : LogError}
    (h : Fault args start after e) : literal args start ('{' :: after) = .error e := by
  rw [literal, if_pos rfl]
  cases h with
  | unclosed h => exact placeholder_of_unclosed h _ _ _
  | noNumber h hread =>
    rw [placeholder_of_closed h, List.reverse_nil, List.nil_append, fill, hread]
    rfl
  | noArgument h hread hcount =>
    have hnone := List.getElem?_eq_none_iff.2 hcount
    rw [placeholder_of_closed h, List.reverse_nil, List.nil_append, fill, hread]
    simp only [hnone]
    rfl
  | noText h hread hfails =>
    rw [placeholder_of_closed h, List.reverse_nil, List.nil_append, fill, hread]
    simp only [hfails]
    rfl

/-- A placeholder with a number and an argument with a text is not at fault. -/
theorem not_fault {start i : Nat} {n rest arg : List Char} {e : LogError} (hn : '}' ∉ n)
    (hread : Unsigned.read? n = some i) (hi : args[i]? = some (some arg)) :
    ¬Fault args start (n ++ '}' :: rest) e := by
  intro h
  generalize hafter : n ++ '}' :: rest = after at h
  cases h with
  | unclosed h => simp [← hafter] at h
  | noNumber h hnone =>
    obtain ⟨rfl, -⟩ := eq_of_append_cons_eq hn h hafter
    cases hread.symm.trans hnone
  | noArgument h hsome hcount =>
    obtain ⟨rfl, -⟩ := eq_of_append_cons_eq hn h hafter
    cases hread.symm.trans hsome
    cases hi.symm.trans (List.getElem?_eq_none_iff.2 hcount)
  | noText h hsome hfails =>
    obtain ⟨rfl, -⟩ := eq_of_append_cons_eq hn h hafter
    cases hread.symm.trans hsome
    cases hi.symm.trans hfails

/-- In a template that can be rendered every opening brace opens a placeholder with a number and an
argument with a text. -/
theorem exists_slot_of_literal {u w s : List Char} {pos : Nat}
    (h : literal args pos (u ++ '{' :: w) = .ok s) :
    ∃ n rest i arg, w = n ++ '}' :: rest ∧ '}' ∉ n ∧ Unsigned.read? n = some i ∧
      args[i]? = some (some arg) := by
  generalize ht : u ++ '{' :: w = t at h
  induction t using Template.ind generalizing u pos s with
  | plain l hl =>
    rw [← ht] at hl
    simp at hl
  | unclosed l n hl hn =>
    rw [literal_of_unclosed hl hn] at h
    cases h
  | closed l n rest hl hn ih =>
    obtain ⟨arg, tail, hfill, hrest, -⟩ := literal_of_closed_eq_ok hl hn h
    obtain ⟨i, hread, hi⟩ := fill_eq_ok_iff.1 hfill
    rcases append_cons_cases hl ht with ⟨-, -, rfl⟩ | ⟨u', -, hu'⟩
    · exact ⟨n, rest, i, arg, rfl, hn, hread, hi⟩
    · -- no brace opens inside a number, so the brace stands in what follows the placeholder
      have hopen : '{' ∉ n := Unsigned.not_mem_of_read? (by decide) (by decide) hread
      rcases append_cons_cases hopen hu'.symm with ⟨-, heq, -⟩ | ⟨u'', -, hrest'⟩
      · exact absurd heq (by decide)
      · exact ih hrest'.symm hrest

/-- No opening brace before the end of a template that can be rendered is at fault. -/
theorem prefix_of_fault {before after u v s : List Char} {pos start : Nat} {e : LogError}
    (hbefore : literal args pos before = .ok s) (hsplit : before ++ '{' :: after = u ++ '{' :: v)
    (hfault : Fault args start v e) : before <+: u := by
  rcases List.append_eq_append_iff.1 hsplit with ⟨w, rfl, -⟩ | ⟨w, rfl, hv⟩
  · exact List.prefix_append before w
  · cases w with
    | nil => simp
    | cons c w =>
      obtain ⟨rfl, rfl⟩ := List.cons.inj hv
      obtain ⟨n, rest, i, arg, rfl, hn, hread, hi⟩ := exists_slot_of_literal hbefore
      have hv' : (n ++ '}' :: rest).append ('{' :: after) = n ++ '}' :: (rest ++ '{' :: after) :=
        List.append_assoc n ('}' :: rest) ('{' :: after)
      exact absurd (hv' ▸ hfault) (not_fault hn hread hi)

/-- **Where rendering fails**: at an opening brace with a fault after it, if all that stands before
can be rendered. -/
theorem literal_eq_error_iff {t : List Char} {pos : Nat} {e : LogError} :
    literal args pos t = .error e ↔
      ∃ before after s, t = before ++ '{' :: after ∧ literal args pos before = .ok s ∧
        Fault args (pos + size before) after e := by
  constructor
  · intro h
    induction t using Template.ind generalizing pos with
    | plain l hl =>
      rw [literal_of_plain hl] at h
      cases h
    | unclosed l n hl hn =>
      rw [literal_of_unclosed hl hn] at h
      cases h
      exact ⟨l, n, l, rfl, literal_of_plain hl pos, .unclosed hn⟩
    | closed l n rest hl hn ih =>
      rw [literal_of_closed hl hn] at h
      cases hfill : fill args (pos + size l) n with
      | error e' =>
        rw [hfill] at h
        cases h
        exact ⟨l, n ++ '}' :: rest, l, rfl, literal_of_plain hl pos, fault_of_fill hn hfill rest⟩
      | ok arg =>
        cases hrest : literal args (pos + size l + 1 + size n + 1) rest with
        | ok tail =>
          rw [hfill, Except.bind, hrest] at h
          cases h
        | error e' =>
          rw [hfill, Except.bind, hrest] at h
          cases h
          obtain ⟨before, after, s, rfl, hs, hfault⟩ := ih hrest
          refine ⟨l ++ '{' :: (n ++ '}' :: before), after, l ++ arg ++ s, by simp, ?_, ?_⟩
          · rw [literal_of_closed hl hn, hfill, Except.bind, hs]
            rfl
          · rw [size_closed, ← Nat.add_assoc, ← Nat.add_assoc, ← Nat.add_assoc, ← Nat.add_assoc]
            exact hfault
  · rintro ⟨before, after, s, rfl, hs, hfault⟩
    rw [literal_append hs, literal_of_fault hfault]
    rfl

/-! ## Rendering -/

variable {α : Type} [Display α]

theorem render_eq_error_iff {template : String} {values : List α} {e : LogError} :
    render template values = .error e ↔
      literal (texts values) 0 template.toList = .error e := by
  rw [render]
  cases literal (texts values) 0 template.toList <;> simp [Except.map]

theorem size_toList (s : String) : size s.toList = s.utf8ByteSize := by
  rw [size, String.ofList_toList]

/-- Rendering two templates joined, if the first can be rendered. -/
theorem render_append {t₁ s₁ : String} {values : List α} (h : render t₁ values = .ok s₁)
    (t₂ : String) :
    render (t₁ ++ t₂) values =
      ((render t₂ values).map (s₁ ++ ·)).mapError (LogError.shift t₁.utf8ByteSize) := by
  have hjoin := literal_append (render_eq_ok_iff.1 h) t₂.toList
  have hmoved : literal (texts values) (t₁.utf8ByteSize + 0) t₂.toList =
      (literal (texts values) 0 t₂.toList).mapError (LogError.shift t₁.utf8ByteSize) :=
    literal_shift t₁.utf8ByteSize 0 t₂.toList
  rw [size_toList, Nat.add_comm, hmoved, ← String.toList_append] at hjoin
  cases ht₂ : literal (texts values) 0 t₂.toList with
  | error e =>
    rw [ht₂] at hjoin
    rw [render_eq_error_iff.2 ht₂]
    exact render_eq_error_iff.2 hjoin
  | ok cs =>
    have hs₂ : render t₂ values = .ok (String.ofList cs) := by
      rw [render_eq_ok_iff, ht₂, String.toList_ofList]
    rw [ht₂] at hjoin
    rw [hs₂]
    refine render_eq_ok_iff.2 ?_
    rw [hjoin, String.toList_append, String.toList_ofList]
    rfl

/-- The fault that is reported of a template: it stands after an opening brace, all before that
brace can be rendered, and no opening brace further left is at fault. -/
structure LeftmostFault (template : String) (values : List α) (e : LogError)
    (before after : String) : Prop where
  split : template = before ++ "\x7b" ++ after
  renders : ∃ s, render before values = .ok s
  fault : Fault (texts values) before.utf8ByteSize after.toList e
  leftmost : ∀ u v e', template = u ++ "\x7b" ++ v →
    Fault (texts values) u.utf8ByteSize v.toList e' → before.utf8ByteSize ≤ u.utf8ByteSize

theorem toList_split {template before after : String} :
    template = before ++ "\x7b" ++ after ↔
      template.toList = before.toList ++ '{' :: after.toList := by
  rw [← String.toList_inj, String.toList_append, String.toList_append, List.append_assoc]
  rfl

theorem utf8ByteSize_le_of_prefix {s t : String} (h : s.toList <+: t.toList) :
    s.utf8ByteSize ≤ t.utf8ByteSize := by
  obtain ⟨r, hr⟩ := h
  rw [← size_toList, ← size_toList, ← hr, size_append]
  omega

theorem render_eq_error_iff_leftmostFault {template : String} {values : List α}
    {e : LogError} :
    render template values = .error e ↔
      ∃ before after, LeftmostFault template values e before after := by
  rw [render_eq_error_iff, literal_eq_error_iff]
  constructor
  · rintro ⟨before, after, s, hsplit, hs, hfault⟩
    refine ⟨String.ofList before, String.ofList after, ?_, ⟨String.ofList s, ?_⟩, ?_, ?_⟩
    · rw [toList_split, String.toList_ofList, String.toList_ofList, hsplit]
    · rw [render_eq_ok_iff, String.toList_ofList, String.toList_ofList, hs]
    · rw [String.toList_ofList]
      rwa [Nat.zero_add] at hfault
    · intro u v e' huv hfault'
      rw [toList_split, hsplit] at huv
      have hprefix := prefix_of_fault hs huv hfault'
      exact utf8ByteSize_le_of_prefix (by rwa [String.toList_ofList])
  · rintro ⟨before, after, hsplit, ⟨s, hs⟩, hfault, -⟩
    refine ⟨before.toList, after.toList, s.toList, toList_split.1 hsplit, render_eq_ok_iff.1 hs, ?_⟩
    rwa [size_toList, Nat.zero_add]

/-- **Templates compose, and faults are located.** If a template can be rendered, what follows it is
rendered as it would be alone: its text is appended, an argument that is missing or fails to be
displayed is reported as it is, and a malformed placeholder with its place moved by the bytes of the
first template. A template cannot be
rendered exactly if one of its opening braces is at fault, with all before it rendered; that fault,
the leftmost of all, is the one reported, and the place of a malformed placeholder is the byte of
that brace. -/
theorem render_locates_faults :
    (∀ (t₁ t₂ : String) (values : List α) (s₁ : String), render t₁ values = .ok s₁ →
      (∀ s₂, render t₂ values = .ok s₂ → render (t₁ ++ t₂) values = .ok (s₁ ++ s₂)) ∧
      (∀ index count, render t₂ values = .error (.missingArgument index count) →
        render (t₁ ++ t₂) values = .error (.missingArgument index count)) ∧
      (∀ reason, render t₂ values = .error (.sink reason) →
        render (t₁ ++ t₂) values = .error (.sink reason)) ∧
      ∀ position, render t₂ values = .error (.malformedPlaceholder position) →
        render (t₁ ++ t₂) values =
          .error (.malformedPlaceholder (t₁.utf8ByteSize + position))) ∧
    ∀ (template : String) (values : List α) (e : LogError),
      render template values = .error e ↔
        ∃ before after, LeftmostFault template values e before after := by
  refine ⟨fun t₁ t₂ values s₁ h => ⟨?_, ?_, ?_, ?_⟩,
    fun _ _ _ => render_eq_error_iff_leftmostFault⟩
  · intro s₂ h₂
    rw [render_append h, h₂]
    rfl
  · intro index count h₂
    rw [render_append h, h₂]
    rfl
  · intro reason h₂
    rw [render_append h, h₂]
    rfl
  · intro position h₂
    rw [render_append h, h₂]
    rfl

/-- A placeholder and a letter of two bytes stand before the second template, whose first fault is
the brace inside a placeholder. In the joined template it is reported at the byte of the brace that
opens that placeholder; the missing argument further right is not. -/
theorem render_locates_faults_joined :
    render "é\x7b0\x7d" [Value.text "\x7b"] = .ok "é\x7b" ∧
    render "é\x7b0\x7d-\x7ba\x7b0\x7d\x7b5\x7d" [Value.text "\x7b"] =
      .error (.malformedPlaceholder 6) ∧
    ∃ before after, LeftmostFault "é\x7b0\x7d-\x7ba\x7b0\x7d\x7b5\x7d" [Value.text "\x7b"]
      (.malformedPlaceholder 6) before after := by
  have hfirst : render "é\x7b0\x7d" [Value.text "\x7b"] = .ok "é\x7b" := by decide
  have hsecond : render "-\x7ba\x7b0\x7d\x7b5\x7d" [Value.text "\x7b"] =
      .error (.malformedPlaceholder 1) := by decide
  have hjoined := (render_locates_faults.1 _ _ _ _ hfirst).2.2.2 1 hsecond
  exact ⟨hfirst, hjoined, (render_locates_faults.2 _ _ _).1 hjoined⟩

end Template

end HostBridge
