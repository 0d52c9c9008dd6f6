import HostBridge.Log.Template
import Mathlib.Data.List.Basic

/-!
# The grammar of templates

A template that can be rendered is text without an opening brace, then placeholders, each followed
by such text (`Template.Parts`). Rendering puts the texts of the arguments in the place of the
placeholders and looks at nothing twice. It fails on such a template only if an argument fails to be
displayed (`Parts.Displays`).

Every template falls into one of three forms: no brace opens in it, the first that opens is never
closed, or a placeholder ends at the first closing brace and another template follows
(`Template.ind`). `literal_of_plain`, `literal_of_unclosed` and `literal_of_closed` say what
rendering does with each, and all that is proved about rendering is proved from these.
-/

namespace HostBridge

/-! ## What cannot stand in a number -/

namespace Unsigned

theorem not_mem_of_readDigits {c : Char} (hc : digit? c = none) {cs : List Char} {acc n : Nat}
    (h : readDigits acc cs = some n) : c ∉ cs := by
  induction cs generalizing acc with
  | nil => exact List.not_mem_nil
  | cons d cs ih =>
    rw [readDigits] at h
    obtain ⟨v, hd, hcs⟩ := Option.bind_eq_some_iff.1 h
    have hne : c ≠ d := by
      rintro rfl
      cases hc.symm.trans hd
    exact fun hmem => (List.mem_cons.1 hmem).elim hne (ih hcs)

theorem not_mem_of_readNonempty {c : Char} (hc : digit? c = none) {cs : List Char} {n : Nat}
    (h : readNonempty cs = some n) : c ∉ cs := by
  cases cs with
  | nil => cases h
  | cons d cs => exact not_mem_of_readDigits hc h

/-- A number holds digits, and a plus sign at most. -/
theorem not_mem_of_read? {c : Char} (hc : digit? c = none) (hplus : c ≠ '+') {cs : List Char}
    {n : Nat} (h : read? cs = some n) : c ∉ cs := by
  unfold read? at h
  obtain ⟨hdigits, -⟩ := Option.filter_eq_some_iff.1 h
  split at hdigits
  · next rest =>
    have hrest := not_mem_of_readNonempty hc hdigits
    exact fun hmem => (List.mem_cons.1 hmem).elim hplus hrest
  · exact not_mem_of_readNonempty hc hdigits

end Unsigned

namespace Template

/-! ## Bytes -/

/-- The number of bytes of a text. -/
def size (cs : List Char) : Nat := (String.ofList cs).utf8ByteSize

@[simp] theorem size_nil : size [] = 0 := rfl

@[simp] theorem size_cons (c : Char) (cs : List Char) : size (c :: cs) = c.utf8Size + size cs := by
  rw [size, String.ofList_cons, String.utf8ByteSize_append, String.utf8ByteSize_singleton, size]

@[simp] theorem size_append (cs ds : List Char) : size (cs ++ ds) = size cs + size ds := by
  rw [size, String.ofList_append, String.utf8ByteSize_append, size, size]

/-! ## The three forms of a template -/

/-- **Induction over templates**, by what opens and closes first. -/
theorem ind {P : List Char → Prop} (plain : ∀ l, '{' ∉ l → P l)
    (unclosed : ∀ l n, '{' ∉ l → '}' ∉ n → P (l ++ '{' :: n))
    (closed : ∀ l n rest, '{' ∉ l → '}' ∉ n → P rest → P (l ++ '{' :: (n ++ '}' :: rest)))
    (t : List Char) : P t := by
  induction hk : t.length using Nat.strongRecOn generalizing t with
  | _ k ih =>
    by_cases hopen : '{' ∈ t
    · obtain ⟨l, after, rfl, hl⟩ := List.eq_append_cons_of_mem hopen
      by_cases hclose : '}' ∈ after
      · obtain ⟨n, rest, rfl, hn⟩ := List.eq_append_cons_of_mem hclose
        refine closed l n rest hl hn (ih rest.length ?_ rest rfl)
        simp only [List.length_append, List.length_cons] at hk
        omega
      · exact unclosed l after hl hclose
    · exact plain t hopen

/-- What a closed placeholder that opened at byte `start` stands for. -/
def fill (args : List (Option (List Char))) (start : Nat) (n : List Char) :
    Except LogError (List Char) :=
  match Unsigned.read? n with
  | none => .error (.malformedPlaceholder start)
  | some index =>
    match args[index]? with
    | none => .error (.missingArgument index args.length)
    | some none => .error .undisplayed
    | some (some arg) => .ok arg

variable {args : List (Option (List Char))}

theorem literal_append_of_plain {l : List Char} (hl : '{' ∉ l) (rest : List Char) (pos : Nat) :
    literal args pos (l ++ rest) = (literal args (pos + size l) rest).map (l ++ ·) := by
  induction l generalizing pos with
  | nil =>
    simp only [List.nil_append, size_nil, Nat.add_zero]
    cases literal args pos rest <;> rfl
  | cons c l ih =>
    have hc : c ≠ '{' := fun h => hl (h ▸ List.mem_cons_self)
    have hl' : '{' ∉ l := fun h => hl (List.mem_cons_of_mem _ h)
    rw [List.cons_append, literal, if_neg hc, ih hl', size_cons, ← Nat.add_assoc]
    cases literal args (pos + c.utf8Size + size l) rest <;> rfl

theorem placeholder_of_unclosed {n : List Char} (hn : '}' ∉ n) (start pos : Nat)
    (seen : List Char) :
    placeholder args start seen pos n = .error (.malformedPlaceholder start) := by
  induction n generalizing seen pos with
  | nil => rfl
  | cons c n ih =>
    have hc : c ≠ '}' := fun h => hn (h ▸ List.mem_cons_self)
    have hn' : '}' ∉ n := fun h => hn (List.mem_cons_of_mem _ h)
    rw [placeholder, if_neg hc, ih hn']

theorem placeholder_of_closed {n : List Char} (hn : '}' ∉ n) (rest : List Char) (start pos : Nat)
    (seen : List Char) :
    placeholder args start seen pos (n ++ '}' :: rest) =
      (fill args start (seen.reverse ++ n)).bind fun arg =>
        (literal args (pos + size n + 1) rest).map (arg ++ ·) := by
  induction n generalizing seen pos with
  | nil =>
    rw [List.nil_append, placeholder, if_pos rfl, List.append_nil, fill, size_nil, Nat.add_zero]
    cases Unsigned.read? seen.reverse with
    | none => rfl
    | some index =>
      rcases hindex : args[index]? with _ | _ | arg <;> simp only [hindex] <;> rfl
  | cons c n ih =>
    have hc : c ≠ '}' := fun h => hn (h ▸ List.mem_cons_self)
    have hn' : '}' ∉ n := fun h => hn (List.mem_cons_of_mem _ h)
    rw [List.cons_append, placeholder, if_neg hc, ih hn', size_cons, List.reverse_cons,
      List.append_assoc, List.singleton_append, ← Nat.add_assoc]

/-- Text without an opening brace is rendered as it is. -/
theorem literal_of_plain {l : List Char} (hl : '{' ∉ l) (pos : Nat) :
    literal args pos l = .ok l := by
  have h : literal args pos (l ++ []) = _ := literal_append_of_plain hl [] pos
  rw [List.append_nil] at h
  simpa [literal, Except.map] using h

theorem literal_of_unclosed {l n : List Char} (hl : '{' ∉ l) (hn : '}' ∉ n) (pos : Nat) :
    literal args pos (l ++ '{' :: n) = .error (.malformedPlaceholder (pos + size l)) := by
  rw [literal_append_of_plain hl, literal, if_pos rfl, placeholder_of_unclosed hn]
  rfl

theorem literal_of_closed {l n : List Char} (hl : '{' ∉ l) (hn : '}' ∉ n) (rest : List Char)
    (pos : Nat) :
    literal args pos (l ++ '{' :: (n ++ '}' :: rest)) =
      (fill args (pos + size l) n).bind fun arg =>
        (literal args (pos + size l + 1 + size n + 1) rest).map (l ++ arg ++ ·) := by
  rw [literal_append_of_plain hl, literal, if_pos rfl, placeholder_of_closed hn, List.reverse_nil,
    List.nil_append]
  cases fill args (pos + size l) n with
  | error e => rfl
  | ok arg =>
    cases literal args (pos + size l + 1 + size n + 1) rest <;> simp [Except.bind, Except.map]

theorem literal_of_closed_eq_ok {l n : List Char} (hl : '{' ∉ l) (hn : '}' ∉ n)
    {rest out : List Char} {pos : Nat}
    (h : literal args pos (l ++ '{' :: (n ++ '}' :: rest)) = .ok out) :
    ∃ arg tail, fill args (pos + size l) n = .ok arg ∧
      literal args (pos + size l + 1 + size n + 1) rest = .ok tail ∧ out = l ++ arg ++ tail := by
  rw [literal_of_closed hl hn] at h
  cases hfill : fill args (pos + size l) n with
  | error e =>
    rw [hfill] at h
    cases h
  | ok arg =>
    cases hrest : literal args (pos + size l + 1 + size n + 1) rest with
    | error e =>
      rw [hfill, Except.bind, hrest] at h
      cases h
    | ok tail =>
      rw [hfill, Except.bind, hrest] at h
      cases h
      exact ⟨arg, tail, rfl, rfl, rfl⟩

theorem fill_eq_ok_iff {start : Nat} {n arg : List Char} :
    fill args start n = .ok arg ↔ ∃ i, Unsigned.read? n = some i ∧ args[i]? = some (some arg) := by
  unfold fill
  cases Unsigned.read? n with
  | none => simp
  | some i => rcases hi : args[i]? with _ | _ | text <;> simp [hi]

/-! ## Parts of a template -/

/-- Text without an opening brace. -/
@[ext]
structure Literal where
  text : List Char
  plain : '{' ∉ text

/-- What stands between the braces of a placeholder: the text of a number. -/
structure Slot where
  text : List Char
  index : Nat
  denotes : Unsigned.read? text = some index

/-- A template in parts: text, and placeholders each with the text after it. -/
structure Parts where
  first : Literal
  rest : List (Slot × Literal)

theorem Slot.not_mem_text {c : Char} (hc : c = '{' ∨ c = '}') (s : Slot) : c ∉ s.text := by
  rcases hc with rfl | rfl
  · exact Unsigned.not_mem_of_read? (by decide) (by decide) s.denotes
  · exact Unsigned.not_mem_of_read? (by decide) (by decide) s.denotes

/-- The text of a number says which. -/
theorem Slot.eq_of_text_eq {s s' : Slot} (h : s.text = s'.text) : s = s' := by
  obtain ⟨text, index, denotes⟩ := s
  obtain ⟨text', index', denotes'⟩ := s'
  dsimp only at h
  subst h
  cases denotes.symm.trans denotes'
  rfl

namespace Parts

/-- The template as it is written. -/
def written (p : Parts) : List Char :=
  p.first.text ++ p.rest.flatMap fun e => '{' :: e.1.text ++ '}' :: e.2.text

/-- Every placeholder has an argument. -/
def Fits (p : Parts) (count : Nat) : Prop := ∀ e ∈ p.rest, e.1.index < count

instance (p : Parts) (count : Nat) : Decidable (p.Fits count) :=
  inferInstanceAs (Decidable (∀ e ∈ p.rest, e.1.index < count))

/-- No placeholder stands for an argument that fails to be displayed. -/
def Displays (p : Parts) (args : List (Option (List Char))) : Prop :=
  ∀ e ∈ p.rest, args[e.1.index]? ≠ some none

instance (p : Parts) (args : List (Option (List Char))) : Decidable (p.Displays args) :=
  inferInstanceAs (Decidable (∀ e ∈ p.rest, args[e.1.index]? ≠ some none))

/-- The template with the texts of the arguments in the place of its placeholders. -/
def filled (p : Parts) (args : List (Option (List Char))) : List Char :=
  p.first.text ++ p.rest.flatMap fun e => args[e.1.index]?.join.getD [] ++ e.2.text

/-- Text and a placeholder in front of a template in parts. -/
def cons (l : Literal) (s : Slot) (p : Parts) : Parts := ⟨l, (s, p.first) :: p.rest⟩

@[simp] theorem written_last (l : Literal) : written ⟨l, []⟩ = l.text := by
  simp [written]

@[simp] theorem filled_last (l : Literal) : filled ⟨l, []⟩ args = l.text := by
  simp [filled]

@[simp] theorem written_cons (l : Literal) (s : Slot) (p : Parts) :
    (cons l s p).written = l.text ++ '{' :: (s.text ++ '}' :: p.written) := by
  simp [written, cons]

@[simp] theorem filled_cons (l : Literal) (s : Slot) (p : Parts) :
    (cons l s p).filled args = l.text ++ args[s.index]?.join.getD [] ++ p.filled args := by
  simp [filled, cons]

@[simp] theorem fits_cons (l : Literal) (s : Slot) (p : Parts) (count : Nat) :
    (cons l s p).Fits count ↔ s.index < count ∧ p.Fits count := by
  simp [Fits, cons]

@[simp] theorem displays_cons (l : Literal) (s : Slot) (p : Parts) :
    (cons l s p).Displays args ↔ args[s.index]? ≠ some none ∧ p.Displays args := by
  simp [Displays, cons]

theorem ind {P : Parts → Prop} (last : ∀ l, P ⟨l, []⟩) (cons : ∀ l s p, P p → P (cons l s p))
    (p : Parts) : P p := by
  obtain ⟨l, rest⟩ := p
  induction rest generalizing l with
  | nil => exact last l
  | cons e rest ih => exact cons l e.1 ⟨e.2, rest⟩ (ih e.2)

end Parts

/-- A template in parts is rendered to the parts with the arguments filled in, unless one of these
fails to be displayed. -/
theorem literal_written {p : Parts} (h : p.Fits args.length) (pos : Nat) :
    literal args pos p.written =
      if p.Displays args then .ok (p.filled args) else .error .undisplayed := by
  induction p using Parts.ind generalizing pos with
  | last l =>
    have hdisplays : Parts.Displays ⟨l, []⟩ args := fun e he => absurd he List.not_mem_nil
    rw [Parts.written_last, Parts.filled_last, if_pos hdisplays]
    exact literal_of_plain l.plain pos
  | cons l s p ih =>
    obtain ⟨hs, hp⟩ := (Parts.fits_cons l s p args.length).1 h
    have hsome := List.getElem?_eq_getElem hs
    rw [Parts.written_cons, literal_of_closed l.plain (s.not_mem_text (.inr rfl)),
      Parts.filled_cons, ih hp, fill, s.denotes]
    simp only [Parts.displays_cons]
    cases harg : args[s.index] with
    | none => simp [hsome, harg, Except.bind]
    | some arg =>
      simp only [hsome, harg, Except.bind]
      by_cases hdisplays : p.Displays args <;> simp [hdisplays, Except.map]

/-- What can be rendered is a template in parts. -/
theorem exists_parts_of_literal {t out : List Char} {pos : Nat}
    (h : literal args pos t = .ok out) :
    ∃ p : Parts, p.written = t ∧ p.Fits args.length ∧ p.Displays args ∧ p.filled args = out := by
  induction t using Template.ind generalizing pos out with
  | plain l hl =>
    rw [literal_of_plain hl] at h
    cases h
    exact ⟨⟨⟨l, hl⟩, []⟩, by simp, nofun, nofun, by simp⟩
  | unclosed l n hl hn =>
    rw [literal_of_unclosed hl hn] at h
    cases h
  | closed l n rest hl hn ih =>
    obtain ⟨arg, tail, hfill, hrest, rfl⟩ := literal_of_closed_eq_ok hl hn h
    obtain ⟨i, hread, hi⟩ := fill_eq_ok_iff.1 hfill
    obtain ⟨hlt, -⟩ := List.getElem?_eq_some_iff.1 hi
    obtain ⟨p, rfl, hfits, hdisplays, rfl⟩ := ih hrest
    refine ⟨.cons ⟨l, hl⟩ ⟨n, i, hread⟩ p, by simp, by simp [hlt, hfits], ?_, ?_⟩
    · simp [hi, hdisplays]
    · simp [hi]

/-! ## One form for each template -/

/-- A character that does not stand in `l` stands, in a text that goes on after `l` with `d`, in the
place of `d` or after it. -/
theorem append_cons_cases {c d : Char} {u w l r : List Char} (hl : c ∉ l)
    (h : u ++ c :: w = l ++ d :: r) :
    (u = l ∧ c = d ∧ w = r) ∨ ∃ u', u = l ++ d :: u' ∧ r = u' ++ c :: w := by
  induction l generalizing u with
  | nil =>
    cases u with
    | nil =>
      obtain ⟨hc, hw⟩ := List.cons.inj h
      exact .inl ⟨rfl, hc, hw⟩
    | cons a u =>
      obtain ⟨rfl, hr⟩ := List.cons.inj h
      exact .inr ⟨u, rfl, hr.symm⟩
  | cons b l ih =>
    cases u with
    | nil => exact absurd ((List.cons.inj h).1 ▸ List.mem_cons_self) hl
    | cons a u =>
      obtain ⟨rfl, htail⟩ := List.cons.inj h
      have hl' : c ∉ l := fun hmem => hl (List.mem_cons_of_mem _ hmem)
      rcases ih hl' htail with ⟨rfl, hcd, hw⟩ | ⟨u', rfl, hr⟩
      · exact .inl ⟨rfl, hcd, hw⟩
      · exact .inr ⟨u', rfl, hr⟩

/-- A text is cut in one way at the first place of a character. -/
theorem eq_of_append_cons_eq {c : Char} {l₁ l₂ r₁ r₂ : List Char} (h₁ : c ∉ l₁) (h₂ : c ∉ l₂)
    (h : l₁ ++ c :: r₁ = l₂ ++ c :: r₂) : l₁ = l₂ ∧ r₁ = r₂ := by
  rcases append_cons_cases h₂ h with ⟨hl, -, hr⟩ | ⟨u, rfl, -⟩
  · exact ⟨hl, hr⟩
  · simp at h₁

namespace Parts

theorem not_mem_written_last (l : Literal) : '{' ∉ written ⟨l, []⟩ := by
  rw [written_last]
  exact l.plain

theorem mem_written_cons (l : Literal) (s : Slot) (p : Parts) : '{' ∈ (cons l s p).written := by
  simp

/-- Two templates in parts that are written alike are the same. -/
theorem eq_of_written_eq {p q : Parts} (h : p.written = q.written) : p = q := by
  induction p using Parts.ind generalizing q with
  | last l =>
    induction q using Parts.ind with
    | last l' =>
      obtain ⟨text, plain⟩ := l
      obtain ⟨text', plain'⟩ := l'
      rw [written_last, written_last] at h
      subst h
      rfl
    | cons l' s' q _ => exact absurd (h ▸ mem_written_cons l' s' q) (not_mem_written_last l)
  | cons l s p ih =>
    induction q using Parts.ind with
    | last l' => exact absurd (h ▸ mem_written_cons l s p) (not_mem_written_last l')
    | cons l' s' q _ =>
      rw [written_cons, written_cons] at h
      obtain ⟨hl, hafter⟩ := eq_of_append_cons_eq l.plain l'.plain h
      obtain ⟨hs, hrest⟩ := eq_of_append_cons_eq (s.not_mem_text (.inr rfl))
        (s'.not_mem_text (.inr rfl)) hafter
      rw [Literal.ext hl, Slot.eq_of_text_eq hs, ih hrest]

/-- What is filled in depends on the arguments through those that have a placeholder. -/
theorem filled_congr {p : Parts} {args args' : List (Option (List Char))}
    (h : ∀ e ∈ p.rest, args[e.1.index]? = args'[e.1.index]?) : p.filled args = p.filled args' := by
  rw [filled, filled]
  congr 1
  refine List.flatMap_congr fun e he => ?_
  rw [h e he]

theorem displays_congr {p : Parts} {args args' : List (Option (List Char))}
    (h : ∀ e ∈ p.rest, args[e.1.index]? = args'[e.1.index]?) :
    p.Displays args ↔ p.Displays args' :=
  forall₂_congr fun e he => by rw [h e he]

theorem fits_congr {p : Parts} {args args' : List (Option (List Char))} (hfits : p.Fits args.length)
    (h : ∀ e ∈ p.rest, args[e.1.index]? = args'[e.1.index]?) : p.Fits args'.length := by
  intro e he
  have hsome := List.getElem?_eq_getElem (hfits e he)
  rw [h e he] at hsome
  exact (List.getElem?_eq_some_iff.1 hsome).1

end Parts

/-! ## Rendering -/

variable {α : Type} [Display α]

@[simp] theorem length_texts (args : List α) : (texts args).length = args.length :=
  List.length_map _

theorem getElem?_texts (args : List α) (i : Nat) :
    (texts args)[i]? = (args[i]?.map Display.text?).map (Option.map String.toList) := by
  rw [texts, List.getElem?_map, Option.map_map]
  rfl

/-- No placeholder stands for an argument that fails if none fails. -/
theorem Parts.displays_texts {args : List α} (h : ∀ a ∈ args, (Display.text? a).isSome)
    (p : Parts) : p.Displays (texts args) := by
  intro e _ hnone
  obtain ⟨a, ha, hfails⟩ := List.mem_map.1 (List.mem_of_getElem? hnone)
  have hsome := h a ha
  rw [Option.map_eq_none_iff.1 hfails] at hsome
  cases hsome

theorem render_eq_ok_iff {template out : String} {args : List α} :
    render template args = .ok out ↔ literal (texts args) 0 template.toList = .ok out.toList := by
  rw [render]
  cases literal (texts args) 0 template.toList with
  | error e => simp [Except.map]
  | ok cs => simp [Except.map, ← String.toList_inj]

theorem render_written {p : Parts} {args : List α} (h : p.Fits args.length) :
    render (String.ofList p.written) args =
      if p.Displays (texts args) then .ok (String.ofList (p.filled (texts args)))
      else .error .undisplayed := by
  have hlength : p.Fits (texts args).length := by rwa [length_texts]
  rw [render, String.toList_ofList, literal_written hlength]
  split <;> rfl

/-- **Rendering is one-pass substitution.** A template is rendered exactly if it is text without an
opening brace and placeholders, each the text of a number between braces, with such text after it,
there is an argument for every number, and these can be displayed, which holds of all templates if
no argument fails; then the texts of the arguments stand in the place of the placeholders as they
are, whatever braces they hold. If nothing is wrong but that an argument with a placeholder fails to
be displayed, that is reported. No brace stands in the text of a number, and a template has one such
form at most, so the outcome depends on the arguments through the texts of those that have a
placeholder. -/
theorem render_substitutes :
    (∀ (template : String) (args : List α) (out : String),
      render template args = .ok out ↔
        ∃ p : Parts, p.written = template.toList ∧ p.Fits args.length ∧
          p.Displays (texts args) ∧ p.filled (texts args) = out.toList) ∧
    (∀ args : List α, (∀ a ∈ args, (Display.text? a).isSome) →
      ∀ p : Parts, p.Displays (texts args)) ∧
    (∀ (p : Parts) (args : List α), p.Fits args.length → ¬p.Displays (texts args) →
      render (String.ofList p.written) args = .error .undisplayed) ∧
    (∀ s : Slot, '{' ∉ s.text ∧ '}' ∉ s.text) ∧
    (∀ p q : Parts, p.written = q.written → p = q) ∧
    ∀ (p : Parts) (args args' : List α), p.Fits args.length →
      (∀ e ∈ p.rest,
        args[e.1.index]?.map Display.text? = args'[e.1.index]?.map Display.text?) →
      render (String.ofList p.written) args' = render (String.ofList p.written) args := by
  refine ⟨fun template args out => ⟨fun h => ?_, ?_⟩, fun args => Parts.displays_texts,
    fun p args hfits hfails => ?_, fun s => ?_, fun p q => Parts.eq_of_written_eq, ?_⟩
  · simpa using exists_parts_of_literal (render_eq_ok_iff.1 h)
  · rintro ⟨p, hwritten, hfits, hdisplays, hfilled⟩
    have hrender := render_written hfits
    rwa [hwritten, String.ofList_toList, if_pos hdisplays, hfilled, String.ofList_toList] at hrender
  · rw [render_written hfits, if_neg hfails]
  · exact ⟨s.not_mem_text (.inl rfl), s.not_mem_text (.inr rfl)⟩
  · intro p args args' hfits hsame
    have htexts : ∀ e ∈ p.rest, (texts args)[e.1.index]? = (texts args')[e.1.index]? := by
      intro e he
      rw [getElem?_texts, getElem?_texts, hsame e he]
    have hfits' : p.Fits args'.length := by
      have h := Parts.fits_congr (by rwa [length_texts]) htexts
      rwa [length_texts] at h
    rw [render_written hfits, render_written hfits', Parts.filled_congr htexts]
    exact if_congr (Parts.displays_congr htexts).symm rfl rfl

namespace Braces

/-- A template with a closing brace in its text, and two numbers out of order, one with a sign and a
zero in front. -/
def parts : Parts where
  first := ⟨['}'], by decide⟩
  rest :=
    [ (⟨['+', '0', '1'], 1, by decide⟩, ⟨['é'], by decide⟩),
      (⟨['0'], 0, by decide⟩, ⟨[], by decide⟩) ]

/-- Arguments, the first with braces in its text. No placeholder refers to the third. -/
def values : List Value := [.text "\x7b7\x7d", .bool true, .null]

/-- Arguments, the second of which fails to be displayed. -/
def failing : List Argument := [.of "7", ⟨none⟩]

end Braces

/-- The closing brace is text, the braces of the argument are not looked at, the argument that no
placeholder refers to does not matter, and one that fails to be displayed does. -/
theorem render_substitutes_braces :
    render "\x7d\x7b+01\x7dé\x7b0\x7d" Braces.values = .ok "\x7dtrueé\x7b7\x7d" ∧
    render (String.ofList Braces.parts.written) (Braces.values.take 2) =
      render (String.ofList Braces.parts.written) Braces.values ∧
    render (String.ofList Braces.parts.written) Braces.failing = .error .undisplayed :=
  ⟨(render_substitutes.1 _ _ _).2
      ⟨Braces.parts, by decide, by decide, render_substitutes.2.1 _ (by decide) _, by decide⟩,
    render_substitutes.2.2.2.2.2 Braces.parts _ _ (by decide) (by decide),
    render_substitutes.2.2.1 Braces.parts _ (by decide) (by decide)⟩

end Template

end HostBridge
