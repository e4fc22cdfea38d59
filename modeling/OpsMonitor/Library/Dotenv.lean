import Mathlib

/-! Files of variables, a line each. A text that is not quoted ends before an inline comment and loses
the blanks around it. What a quoted text and a `$` in a text stand for is up to the reader, as is what
counts as blank. -/

namespace OpsMonitor.Library.Dotenv

abbrev Vars := String → Option String

def isQuote (c : Char) : Bool := c = '"' || c = '\''

/-- A reader of such files. Of the blanks it only says that letters and digits are none. -/
structure Reader where
  leading : Char → Bool
  trailing : Char → Bool
  expand : Vars → List Char → Option (List Char)
  quoted : Vars → List Char → Option (List Char)
  leading_alphanum : ∀ c, c.isAlphanum → leading c = false
  trailing_alphanum : ∀ c, c.isAlphanum → trailing c = false
  expand_of_no_dollar : ∀ vars text, '$' ∉ text → expand vars text = some text
  quoted_length : ∀ vars quote text value, isQuote quote → '$' ∉ text →
    quoted vars (quote :: text) = some value → value.length ≤ text.length

/-- The text before the first ` #`. -/
def uncomment : List Char → List Char
  | ' ' :: '#' :: _ => []
  | c :: rest => c :: uncomment rest
  | [] => []

namespace Reader

def value (r : Reader) (vars : Vars) (text : List Char) : Option (List Char) :=
  let text := text.dropWhile r.leading
  if text.head?.any isQuote then r.quoted vars text
  else r.expand vars ((uncomment text).rdropWhile r.trailing)

/-- A variable can be used in the lines below it. -/
def load (r : Reader) (vars : Vars) : List (String × String) → Option Vars
  | [] => some vars
  | (name, text) :: rest => (r.value vars text.toList).bind fun value =>
    r.load (Function.update vars name (some (.ofList value))) rest

/-- Nothing is cut off the text, and it does not begin as a quoted one. -/
structure Plain (r : Reader) (text : List Char) : Prop where
  leading : ∀ c ∈ text.head?, r.leading c = false
  unquoted : ∀ c ∈ text.head?, isQuote c = false
  uncommented : ¬[' ', '#'] <:+: text
  trailing : ∀ c ∈ text.getLast?, r.trailing c = false

end Reader

variable {r : Reader} {vars mid final : Vars} {text l : List Char} {name shown : String}
  {before after file : List (String × String)}

theorem uncomment_prefix (l : List Char) : uncomment l <+: l := by
  fun_induction uncomment l with
  | case1 => exact List.nil_prefix
  | case2 c rest _ ih => exact List.cons_prefix_cons.mpr ⟨rfl, ih⟩
  | case3 => exact List.nil_prefix

theorem uncomment_eq_self : uncomment l = l ↔ ¬[' ', '#'] <:+: l := by
  fun_induction uncomment l with
  | case1 rest =>
    have hinfix : [' ', '#'] <:+: ' ' :: '#' :: rest := ⟨[], rest, rfl⟩
    exact iff_of_false (List.cons_ne_nil _ _).symm (not_not.mpr hinfix)
  | case2 c rest hnot ih =>
    have hfront : ¬[' ', '#'] <+: c :: rest := by
      rintro ⟨tail, htail⟩
      obtain ⟨rfl, rfl⟩ := List.cons_eq_cons.mp htail
      exact hnot tail rfl rfl
    rw [List.infix_cons_iff, or_iff_right hfront, ← ih, List.cons_inj_right]
  | case3 => exact iff_of_true rfl (by decide)

theorem dropWhile_eq_self_iff_head {p : Char → Bool} : l.dropWhile p = l ↔ ∀ c ∈ l.head?, p c = false := by
  cases l <;> simp [List.dropWhile_eq_self_iff]

namespace Reader

/-- What is read of a text without a `$` is the text exactly if it is plain. -/
theorem value_eq_self (hdollar : '$' ∉ text) : r.value vars text = some text ↔ r.Plain text := by
  have hdropped : '$' ∉ text.dropWhile r.leading := fun h => hdollar ((List.dropWhile_suffix _).subset h)
  have hshort := (List.dropWhile_suffix r.leading (l := text)).length_le
  unfold value
  by_cases hquote : (text.dropWhile r.leading).head?.any isQuote = true
  · rw [if_pos hquote]
    cases hchars : text.dropWhile r.leading with
    | nil =>
      rw [hchars] at hquote
      cases hquote
    | cons c rest =>
      rw [hchars] at hquote hdropped hshort
      have hrest : '$' ∉ rest := fun h => hdropped (List.mem_cons_of_mem _ h)
      refine iff_of_false (fun h => ?_) fun hplain => ?_
      · have hlength := r.quoted_length vars c rest text hquote hrest h
        rw [List.length_cons] at hshort
        omega
      · have hself := dropWhile_eq_self_iff_head.mpr hplain.leading
        rw [hself] at hchars
        have hfalse := hplain.unquoted c (by rw [hchars]; rfl)
        rw [show isQuote c = true from hquote] at hfalse
        cases hfalse
  · rw [if_neg hquote]
    have hcut := uncomment_prefix (text.dropWhile r.leading)
    have hend := List.rdropWhile_prefix r.trailing (l := uncomment (text.dropWhile r.leading))
    have hnone : '$' ∉ (uncomment (text.dropWhile r.leading)).rdropWhile r.trailing := fun h =>
      hdropped (hcut.subset (hend.subset h))
    rw [r.expand_of_no_dollar vars _ hnone, Option.some_inj]
    constructor
    · intro heq
      -- the three cuts take nothing away, so each of them changes nothing
      have hlength := congrArg List.length heq
      have hself : text.dropWhile r.leading = text :=
        (List.dropWhile_suffix r.leading).eq_of_length (by have := hcut.length_le; have := hend.length_le; omega)
      rw [hself] at heq hcut hend hquote hlength
      have huncomment : uncomment text = text :=
        hcut.eq_of_length (by have := hcut.length_le; have := hend.length_le; omega)
      rw [huncomment] at heq
      refine ⟨dropWhile_eq_self_iff_head.mp hself, fun c hc => ?_, uncomment_eq_self.mp huncomment, fun c hc => ?_⟩
      · rw [hc, Option.any_some, Bool.not_eq_true] at hquote
        exact hquote
      · have hne : text ≠ [] := by
          rintro rfl
          cases hc
        have hlast := List.rdropWhile_eq_self_iff.mp heq hne
        rw [List.getLast?_eq_getLast_of_ne_nil hne, Option.mem_some_iff] at hc
        rwa [hc, Bool.not_eq_true] at hlast
    · intro hplain
      rw [dropWhile_eq_self_iff_head.mpr hplain.leading, uncomment_eq_self.mpr hplain.uncommented,
        List.rdropWhile_eq_self_iff]
      intro hne
      rw [Bool.not_eq_true]
      exact hplain.trailing _ (List.getLast?_eq_getLast_of_ne_nil hne)

/-- A text between letters or digits without a comment. -/
theorem Plain.of_alphanum (hhead : ∀ c ∈ text.head?, c.isAlphanum) (hlast : ∀ c ∈ text.getLast?, c.isAlphanum)
    (huncommented : ¬[' ', '#'] <:+: text) : r.Plain text where
  leading c hc := r.leading_alphanum c (hhead c hc)
  unquoted c hc := by
    have halphanum := hhead c hc
    unfold isQuote
    by_contra hquote
    rw [Bool.not_eq_false, Bool.or_eq_true, decide_eq_true_eq, decide_eq_true_eq] at hquote
    rcases hquote with rfl | rfl
    · exact absurd halphanum (by decide)
    · exact absurd halphanum (by decide)
  uncommented := huncommented
  trailing c hc := r.trailing_alphanum c (hlast c hc)

/-! ## Whole files -/

theorem load_append : r.load vars (before ++ after) = (r.load vars before).bind fun mid => r.load mid after := by
  induction before generalizing vars with
  | nil => rfl
  | cons line before ih =>
    obtain ⟨name, text⟩ := line
    rw [List.cons_append, load, load]
    cases r.value vars text.toList with
    | none => rfl
    | some value =>
      rw [Option.bind_some, Option.bind_some]
      exact ih

theorem load_of_not_mem (hname : name ∉ file.map Prod.fst) (h : r.load vars file = some final) :
    final name = vars name := by
  induction file generalizing vars with
  | nil => rw [Option.some.inj h]
  | cons line file ih =>
    obtain ⟨other, text⟩ := line
    rw [List.map_cons, List.mem_cons, not_or] at hname
    obtain ⟨value, -, h⟩ := Option.bind_eq_some_iff.mp h
    rw [ih hname.2 h, Function.update_of_ne hname.1]

/-- A variable has what was read of its line. -/
theorem load_line (hname : name ∉ after.map Prod.fst)
    (h : r.load vars (before ++ (name, shown) :: after) = some final) :
    ∃ mid value, r.load vars before = some mid ∧ r.value mid shown.toList = some value ∧
      final name = some (.ofList value) := by
  rw [load_append] at h
  obtain ⟨mid, hmid, h⟩ := Option.bind_eq_some_iff.mp h
  obtain ⟨value, hvalue, h⟩ := Option.bind_eq_some_iff.mp h
  refine ⟨mid, value, hmid, hvalue, ?_⟩
  rw [load_of_not_mem hname h, Function.update_self]

end Reader

end OpsMonitor.Library.Dotenv
