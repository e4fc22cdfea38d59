import Mathlib

/-! Files of assignments whose values are built from texts and from the values of variables. Texts are
over any alphabet: a file can be run with marks in its texts, and the run with the marks filled in
follows. -/

namespace OpsMonitor.Library.Assignments

variable {α β : Type*}

/-- A part of a value: a text, `$name`, or `${name:-default}`. -/
inductive Piece (α : Type*)
  | text (s : List α)
  | ref (name : String)
  | refOr (name : String) (default : List α)

structure Assignment (α : Type*) where
  name : String
  value : List (Piece α)

abbrev Env (α : Type*) := String → Option (List α)

/-- The value of a variable that is not empty, or the default. -/
def orDefault (default : List α) : Option (List α) → List α
  | some (a :: l) => a :: l
  | _ => default

/-- A variable that is not set has no value. -/
def Piece.eval (env : Env α) : Piece α → Option (List α)
  | .text s => some s
  | .ref name => env name
  | .refOr name default => some (orDefault default (env name))

def evalValue (env : Env α) : List (Piece α) → Option (List α)
  | [] => some []
  | piece :: rest => (piece.eval env).bind fun s => (evalValue env rest).map (s ++ ·)

/-- The values in their order and the variables at the end. -/
def run (env : Env α) : List (Assignment α) → Option (List (List α) × Env α)
  | [] => some ([], env)
  | a :: rest => (evalValue env a.value).bind fun s =>
    (run (Function.update env a.name (some s)) rest).map fun (values, final) => (s :: values, final)

/-! ## Filling in -/

def Piece.fill (g : α → List β) : Piece α → Piece β
  | .text s => .text (s.flatMap g)
  | .ref name => .ref name
  | .refOr name default => .refOr name (default.flatMap g)

def Assignment.fill (g : α → List β) (a : Assignment α) : Assignment β := ⟨a.name, a.value.map (·.fill g)⟩

def fillEnv (g : α → List β) (env : Env α) : Env β := fun name => (env name).map (·.flatMap g)

section
variable {g : α → List β} (hg : ∀ a, g a ≠ []) (env : Env α)
include hg

theorem orDefault_fill (default : List α) (s : Option (List α)) :
    orDefault (default.flatMap g) (s.map (·.flatMap g)) = (orDefault default s).flatMap g := by
  rcases s with _ | _ | ⟨a, l⟩
  · rfl
  · rfl
  · obtain ⟨b, m, hb⟩ := List.exists_cons_of_ne_nil (hg a)
    rw [Option.map_some, List.flatMap_cons, hb]
    show b :: m ++ l.flatMap g = (a :: l).flatMap g
    rw [List.flatMap_cons, hb]

theorem Piece.eval_fill (piece : Piece α) : (piece.fill g).eval (fillEnv g env) = (piece.eval env).map (·.flatMap g) := by
  cases piece with
  | text s => rfl
  | ref name => rfl
  | refOr name default => exact congrArg some (orDefault_fill hg default (env name))

theorem evalValue_fill (value : List (Piece α)) :
    evalValue (fillEnv g env) (value.map (·.fill g)) = (evalValue env value).map (·.flatMap g) := by
  induction value with
  | nil => rfl
  | cons piece rest ih =>
    rw [List.map_cons, evalValue, evalValue, Piece.eval_fill hg, ih]
    cases piece.eval env with
    | none => rfl
    | some s =>
      cases evalValue env rest with
      | none => rfl
      | some t => exact congrArg some List.flatMap_append.symm

omit hg in
theorem fillEnv_update (name : String) (s : List α) :
    fillEnv g (Function.update env name (some s)) = Function.update (fillEnv g env) name (some (s.flatMap g)) := by
  funext other
  by_cases h : other = name
  · subst h
    simp [fillEnv]
  · simp [fillEnv, h]

/-- The run of a file that is filled in is the run with marks, filled in. -/
theorem run_fill (file : List (Assignment α)) :
    run (fillEnv g env) (file.map (·.fill g)) =
      (run env file).map fun (values, final) => (values.map (·.flatMap g), fillEnv g final) := by
  induction file generalizing env with
  | nil => rfl
  | cons a rest ih =>
    have hvalue : evalValue (fillEnv g env) (a.fill g).value = (evalValue env a.value).map (·.flatMap g) :=
      evalValue_fill hg env a.value
    rw [List.map_cons, run, run, hvalue]
    cases evalValue env a.value with
    | none => rfl
    | some s =>
      rw [Option.map_some, Option.bind_some, Option.bind_some]
      show (run (Function.update (fillEnv g env) a.name (some (s.flatMap g))) (rest.map (·.fill g))).map _ = _
      rw [← fillEnv_update, ih]
      cases run (Function.update env a.name (some s)) rest <;> rfl

end

/-! ## Marks -/

/-- What a value is with marks: the same, or something with a mark in it. -/
def Marked (s : List α) (t : List (α ⊕ β)) : Prop := t = s.map .inl ∨ ∃ b, .inr b ∈ t

def unmarked (a : α) : List (α ⊕ β) := [.inl a]

theorem flatMap_unmarked (s : List α) : s.flatMap (@unmarked α β) = s.map .inl := by
  induction s with
  | nil => rfl
  | cons a s ih => exact congrArg (Sum.inl a :: ·) ih

/-- A line of the file with marks: the line as it is, or the same variable with a mark for its value. -/
def MarkedLine (a : Assignment α) (m : Assignment (α ⊕ β)) : Prop :=
  m = a.fill unmarked ∨ ∃ b, m = ⟨a.name, [.text [.inr b]]⟩

inductive MarkedOption : Option (List α) → Option (List (α ⊕ β)) → Prop
  | none : MarkedOption none none
  | some {s t} (h : Marked s t) : MarkedOption (some s) (some t)

section
variable {env final : Env α} {menv : Env (α ⊕ β)} {s s' : List α} {t t' : List (α ⊕ β)}

theorem Marked.eq_of_not_mem (h : Marked s t) (hnot : ∀ b, .inr b ∉ t) : t = s.map .inl := by
  rcases h with h | ⟨b, hb⟩
  · exact h
  · exact absurd hb (hnot b)

theorem Marked.append (h : Marked s t) (h' : Marked s' t') : Marked (s ++ s') (t ++ t') := by
  rcases h with rfl | ⟨b, hb⟩
  · rcases h' with rfl | ⟨b, hb⟩
    · exact Or.inl List.map_append.symm
    · exact Or.inr ⟨b, List.mem_append_right _ hb⟩
  · exact Or.inr ⟨b, List.mem_append_left _ hb⟩

theorem Marked.of_text (s : List α) : Marked s (s.flatMap (@unmarked α β)) := Or.inl (flatMap_unmarked s)

theorem eval_marked (henv : ∀ name, MarkedOption (env name) (menv name)) {piece : Piece α}
    (h : piece.eval env = some s) : ∃ t, (piece.fill unmarked).eval menv = some t ∧ Marked s t := by
  cases piece with
  | text s' =>
    obtain rfl := Option.some.inj h
    exact ⟨_, rfl, .of_text s'⟩
  | ref name =>
    have hname := henv name
    rw [show env name = some s from h] at hname
    cases hvalue : menv name with
    | none =>
      rw [hvalue] at hname
      cases hname
    | some t =>
      rw [hvalue] at hname
      cases hname with
      | some hmarked => exact ⟨t, hvalue, hmarked⟩
  | refOr name default =>
    obtain rfl := Option.some.inj h
    refine ⟨_, rfl, ?_⟩
    have hname := henv name
    generalize env name = v at hname
    generalize menv name = w at hname
    cases hname with
    | none => exact .of_text default
    | @some s t hmarked =>
      cases s with
      | nil =>
        rcases hmarked with rfl | ⟨b, hb⟩
        · exact .of_text default
        · obtain ⟨x, l, rfl⟩ := List.exists_cons_of_ne_nil (List.ne_nil_of_mem hb)
          exact Or.inr ⟨b, hb⟩
      | cons a s =>
        rcases hmarked with rfl | ⟨b, hb⟩
        · exact Or.inl rfl
        · obtain ⟨x, l, rfl⟩ := List.exists_cons_of_ne_nil (List.ne_nil_of_mem hb)
          exact Or.inr ⟨b, hb⟩

theorem evalValue_marked (henv : ∀ name, MarkedOption (env name) (menv name)) {value : List (Piece α)}
    (h : evalValue env value = some s) : ∃ t, evalValue menv (value.map (·.fill unmarked)) = some t ∧ Marked s t := by
  induction value generalizing s with
  | nil =>
    obtain rfl := Option.some.inj h
    exact ⟨[], rfl, Or.inl rfl⟩
  | cons piece rest ih =>
    obtain ⟨first, hfirst, h⟩ := Option.bind_eq_some_iff.mp h
    obtain ⟨others, hothers, rfl⟩ := Option.map_eq_some_iff.mp h
    obtain ⟨t, ht, hmarked⟩ := eval_marked henv hfirst
    obtain ⟨t', ht', hmarked'⟩ := ih hothers
    refine ⟨t ++ t', ?_, hmarked.append hmarked'⟩
    rw [List.map_cons, evalValue, ht, Option.bind_some, ht']
    rfl

theorem markedOption_update (henv : ∀ name, MarkedOption (env name) (menv name)) (h : Marked s t) (name other : String) :
    MarkedOption (Function.update env name (some s) other) (Function.update menv name (some t) other) := by
  by_cases heq : other = name
  · subst heq
    rw [Function.update_self, Function.update_self]
    exact .some h
  · rw [Function.update_of_ne heq, Function.update_of_ne heq]
    exact henv other

/-- A file that runs also runs with marks. What a variable holds at the end it held before, or one of
the lines gave it. -/
theorem run_marked {file : List (Assignment α)} {marked : List (Assignment (α ⊕ β))}
    (hlines : List.Forall₂ MarkedLine file marked) (henv : ∀ name, MarkedOption (env name) (menv name))
    {values : List (List α)} (h : run env file = some (values, final)) :
    ∃ mvalues mfinal, run menv marked = some (mvalues, mfinal) ∧ List.Forall₂ Marked values mvalues ∧
      ∀ name, MarkedOption (final name) (mfinal name) ∧
        (final name = env name ∧ mfinal name = menv name ∨
          ∃ s t, (s, t) ∈ values.zip mvalues ∧ final name = some s ∧ mfinal name = some t) := by
  induction hlines generalizing env menv values final with
  | nil =>
    obtain ⟨rfl, rfl⟩ := Prod.mk.inj (Option.some.inj h)
    exact ⟨[], menv, rfl, .nil, fun name => ⟨henv name, Or.inl ⟨rfl, rfl⟩⟩⟩
  | @cons a m file marked hline _ ih =>
    obtain ⟨s, hs, h⟩ := Option.bind_eq_some_iff.mp h
    obtain ⟨⟨rest, final'⟩, hrest, heq⟩ := Option.map_eq_some_iff.mp h
    obtain ⟨rfl, rfl⟩ := Prod.mk.inj heq
    have hvalue : ∃ t, m.name = a.name ∧ evalValue menv m.value = some t ∧ Marked s t := by
      rcases hline with rfl | ⟨b, rfl⟩
      · obtain ⟨t, ht, hmarked⟩ := evalValue_marked henv hs
        exact ⟨t, rfl, ht, hmarked⟩
      · exact ⟨[.inr b], rfl, rfl, Or.inr ⟨b, List.mem_singleton_self _⟩⟩
    obtain ⟨t, hname, ht, hmarked⟩ := hvalue
    obtain ⟨mvalues, mfinal, hrun, hvalues, hfinal⟩ := ih (markedOption_update henv hmarked a.name) hrest
    refine ⟨t :: mvalues, mfinal, ?_, .cons hmarked hvalues, fun name => ⟨(hfinal name).1, ?_⟩⟩
    · rw [run, ht, Option.bind_some, hname, hrun]
      rfl
    · rcases (hfinal name).2 with ⟨hsame, hmsame⟩ | ⟨s', t', hmem, hs', ht'⟩
      · by_cases heq : name = a.name
        · subst heq
          rw [Function.update_self] at hsame hmsame
          exact Or.inr ⟨s, t, List.mem_cons_self, hsame, hmsame⟩
        · rw [Function.update_of_ne heq] at hsame hmsame
          exact Or.inl ⟨hsame, hmsame⟩
      · exact Or.inr ⟨s', t', List.mem_cons_of_mem _ hmem, hs', ht'⟩

end

/-! ## Telling marks apart -/

section
variable {g : α ⊕ β → List α} (hg : ∀ a, g (.inl a) = [a])
include hg

theorem flatMap_map_inl (s : List α) : (s.map .inl).flatMap g = s := by
  induction s with
  | nil => rfl
  | cons a s ih =>
    rw [List.map_cons, List.flatMap_cons, hg, ih]
    rfl

theorem flatMap_flatMap_unmarked (s : List α) : (s.flatMap unmarked).flatMap g = s := by
  rw [flatMap_unmarked, flatMap_map_inl hg]

theorem fill_fill_unmarked (a : Assignment α) : (a.fill unmarked).fill g = a := by
  have hpiece : ∀ piece : Piece α, (piece.fill unmarked).fill g = piece := by
    intro piece
    cases piece with
    | text s => exact congrArg Piece.text (flatMap_flatMap_unmarked hg s)
    | ref name => rfl
    | refOr name default => exact congrArg (Piece.refOr name) (flatMap_flatMap_unmarked hg default)
  cases a with
  | mk name value =>
    have hvalue : (value.map (·.fill unmarked)).map (·.fill g) = value.map id := by
      rw [List.map_map]
      exact List.map_congr_left fun piece _ => hpiece piece
    show Assignment.mk name ((value.map (·.fill unmarked)).map (·.fill g)) = _
    rw [hvalue, List.map_id]

theorem fillEnv_fillEnv_unmarked (env : Env α) : fillEnv g (fillEnv unmarked env) = env := by
  funext name
  cases h : env name with
  | none => simp [fillEnv, h]
  | some s => simp [fillEnv, h, flatMap_flatMap_unmarked hg]

end

theorem flatMap_congr_iff {g g' : α → List β} (hlength : ∀ a, (g a).length = (g' a).length) (l : List α) :
    l.flatMap g = l.flatMap g' ↔ ∀ a ∈ l, g a = g' a := by
  induction l with
  | nil => simp
  | cons a l ih =>
    rw [List.flatMap_cons, List.flatMap_cons, List.forall_mem_cons, ← ih]
    constructor
    · intro h
      exact List.append_inj h (hlength a)
    · rintro ⟨ha, hl⟩
      rw [ha, hl]

end OpsMonitor.Library.Assignments
