import Mathlib

/-! Reading the plain kind of YAML that scripts write: sections of keys with texts in double quotes,
numbers and lists of texts, one a line. What else YAML has is not read. -/

namespace OpsMonitor.Library.Yaml

/-! ## Texts in double quotes -/

def isBlank (c : Char) : Bool := c = ' ' || c = '\t'

/-- The separators of Unicode break a line but stay in the text. -/
def isSeparator (c : Char) : Bool := c = '\u2028' || c = '\u2029'

/-- The characters that a line may hold. -/
def isPrintable (c : Char) : Bool :=
  c = '\t' || (0x20 ≤ c.toNat && c.toNat ≤ 0x7E) || (0xA0 ≤ c.toNat && c.toNat ≤ 0xFFFD) || 0x10000 ≤ c.toNat

/-- A line that begins so ends the document. -/
def isMarker (l : List Char) : Bool :=
  (l.take 3 = ['-', '-', '-'] || l.take 3 = ['.', '.', '.']) &&
    (l.drop 3).head?.any fun c => isBlank c || isSeparator c

/-- Whether a separator between the two stays as it is: blanks around it would be dropped. -/
def staysBetween (before : Char) (after : List Char) : Bool :=
  !isBlank before && !after.head?.any isBlank && !isMarker after

def escapes : List (Char × Char) :=
  [('0', '\x00'), ('a', '\x07'), ('b', '\x08'), ('t', '\t'), ('n', '\n'), ('v', '\x0b'), ('f', '\x0c'),
    ('r', '\r'), ('e', '\x1b'), (' ', ' '), ('"', '"'), ('\\', '\\'), ('/', '/'), ('N', '\u0085'), ('_', '\u00a0'),
    ('L', '\u2028'), ('P', '\u2029')]

/-- A text up to its closing quote, and what follows the quote. -/
def quoted (before : Char) : List Char → Option (List Char × List Char)
  | [] => none
  | [c] => if c = '"' then some ([], []) else none
  | c :: d :: rest =>
    if c = '"' then some ([], d :: rest)
    else if c = '\\' then
      (escapes.lookup d).bind fun c => (quoted '\\' rest).map fun (text, rest) => (c :: text, rest)
    else if isPrintable c && (!isSeparator c || staysBetween before (d :: rest)) then
      (quoted c (d :: rest)).map fun (text, rest) => (c :: text, rest)
    else none

/-- A text that can stand between quotes as it is. -/
structure StandsForItself (s : String) : Prop where
  printable : ∀ c ∈ s.toList, isPrintable c = true
  unescaped : ∀ c ∈ s.toList, c ≠ '"' ∧ c ≠ '\\'
  separators : ∀ a c b, s.toList = a ++ c :: b → isSeparator c = true →
    staysBetween (a.getLast?.getD '"') (b ++ ['"']) = true

theorem isMarker_append_quote (l rest : List Char) : isMarker (l ++ '"' :: rest) = isMarker (l ++ ['"']) := by
  rcases l with _ | ⟨a, _ | ⟨b, _ | ⟨c, _ | ⟨d, l⟩⟩⟩⟩
  all_goals simp [isMarker]

theorem staysBetween_append_quote (before : Char) (l rest : List Char) :
    staysBetween before (l ++ '"' :: rest) = staysBetween before (l ++ ['"']) := by
  have hhead : (l ++ '"' :: rest).head? = (l ++ ['"']).head? := by
    cases l <;> rfl
  rw [staysBetween, staysBetween, hhead, isMarker_append_quote]

/-- The quotes give such a text back. -/
theorem quoted_append (l rest : List Char) (before : Char) (hprintable : ∀ c ∈ l, isPrintable c = true)
    (hunescaped : ∀ c ∈ l, c ≠ '"' ∧ c ≠ '\\')
    (hseparators : ∀ a c b, l = a ++ c :: b → isSeparator c = true →
      staysBetween (a.getLast?.getD before) (b ++ ['"']) = true) :
    quoted before (l ++ '"' :: rest) = some (l, rest) := by
  induction l generalizing before with
  | nil =>
    cases rest <;> rfl
  | cons c l ih =>
    obtain ⟨hquote, hbackslash⟩ := hunescaped c List.mem_cons_self
    have hrest : quoted c (l ++ '"' :: rest) = some (l, rest) := by
      refine ih c (fun d hd => hprintable d (List.mem_cons_of_mem _ hd))
        (fun d hd => hunescaped d (List.mem_cons_of_mem _ hd)) fun a d b hl hd => ?_
      have hstays := hseparators (c :: a) d b (by rw [hl, List.cons_append]) hd
      rwa [List.getLast?_cons, Option.getD_some] at hstays
    have hok : (isPrintable c && (!isSeparator c || staysBetween before (l ++ '"' :: rest))) = true := by
      rw [hprintable c List.mem_cons_self, Bool.true_and, Bool.or_eq_true, staysBetween_append_quote]
      cases hc : isSeparator c with
      | false => exact Or.inl rfl
      | true => exact Or.inr (hseparators [] c l rfl hc)
    obtain ⟨d, tail, htail⟩ := List.exists_cons_of_ne_nil (List.append_ne_nil_of_right_ne_nil l (List.cons_ne_nil '"' rest))
    rw [htail] at hrest hok
    rw [List.cons_append, htail, quoted, if_neg hquote, if_neg hbackslash, if_pos hok, hrest]
    rfl

theorem StandsForItself.quoted {s : String} (h : StandsForItself s) (rest : List Char) :
    quoted '"' (s.toList ++ '"' :: rest) = some (s.toList, rest) :=
  quoted_append _ _ _ h.printable h.unescaped h.separators

/-! ## Lines -/

inductive Value
  | text (s : String)
  | number (n : ℕ)
  | null
  | list (items : List String)
  deriving DecidableEq

/-- A value on the line of its key. -/
def scalar : List Char → Option Value
  | '"' :: rest =>
    match quoted '"' rest with
    | some (text, []) => some (.text (.ofList text))
    | _ => none
  | cs =>
    if cs ≠ [] ∧ cs.all Char.isDigit ∧ (cs.head? = some '0' → cs.length = 1) then
      some (.number (cs.foldl (fun n c => 10 * n + (c.toNat - 48)) 0))
    else none

inductive Line
  | empty
  | section (name : String)
  | entry (key : String) (value : Option Value)
  | item (text : String)
  deriving DecidableEq

def isKeyChar (c : Char) : Bool := c.isLower || c = '_'

def readEntry (cs : List Char) : Option Line :=
  match cs.span isKeyChar with
  | ([], _) => none
  | (key, [':']) => some (.entry (.ofList key) none)
  | (key, ':' :: ' ' :: value) => (scalar value).map fun value => .entry (.ofList key) (some value)
  | _ => none

def readSection (cs : List Char) : Option Line :=
  match cs.span isKeyChar with
  | ([], _) => none
  | (name, [':']) => some (.section (.ofList name))
  | _ => none

def readLine : List Char → Option Line
  | [] => some .empty
  | ' ' :: ' ' :: ' ' :: ' ' :: '-' :: ' ' :: rest =>
    match scalar rest with
    | some (.text s) => some (.item s)
    | _ => none
  | ' ' :: ' ' :: rest => readEntry rest
  | rest => readSection rest

/-! ## Documents -/

abbrev Section := List (String × Value)

/-- What the lines from some point on give: the sections, and the entries and items that belong to a
line before that point. -/
structure Parts where
  sections : List (String × Section)
  entries : Section
  items : List String
  deriving DecidableEq

def Parts.add (parts : Parts) : Line → Option Parts
  | .empty => some parts
  | .item s => some { parts with items := s :: parts.items }
  | .entry key none =>
    let value := if parts.items = [] then .null else .list parts.items
    some { parts with entries := (key, value) :: parts.entries, items := [] }
  | .entry key (some value) =>
    if parts.items = [] then some { parts with entries := (key, value) :: parts.entries } else none
  | .section name =>
    if parts.items = [] ∧ parts.entries ≠ [] then
      some { sections := (name, parts.entries) :: parts.sections, entries := [], items := [] }
    else none

def build : List Line → Option Parts
  | [] => some ⟨[], [], []⟩
  | line :: rest => (build rest).bind (·.add line)

abbrev Document := List (String × Section)

def parse (text : String) : Option Document :=
  ((text.toList.splitOn '\n').mapM readLine).bind fun lines => (build lines).bind fun parts =>
    if parts.items = [] ∧ parts.entries = [] ∧ (parts.sections.map Prod.fst).Nodup ∧
      ∀ entry ∈ parts.sections, (entry.2.map Prod.fst).Nodup then some parts.sections
    else none

def Document.find (document : Document) (name key : String) : Option Value :=
  ((document.lookup name).getD []).lookup key

/-! ## Reading what was written -/

/-- A text of lines, each with its end. -/
def unlines (lines : List String) : String := String.join (lines.map (· ++ "\n"))

theorem splitOn_unlines {lines : List String} (h : ∀ line ∈ lines, '\n' ∉ line.toList) :
    (unlines lines).toList.splitOn '\n' = lines.map String.toList ++ [[]] := by
  induction lines with
  | nil => rfl
  | cons line lines ih =>
    have htoList : (unlines (line :: lines)).toList = line.toList ++ '\n' :: (unlines lines).toList := by
      simp [unlines]
    rw [htoList, List.splitOn_append_cons_self_of_not_mem (h line List.mem_cons_self),
      ih fun other hother => h other (List.mem_cons_of_mem _ hother)]
    rfl

theorem StandsForItself.newline_notMem {s : String} (h : StandsForItself s) : '\n' ∉ s.toList :=
  fun hmem => absurd (h.printable _ hmem) (by decide)

theorem standsForItself_of_all {s : String}
    (h : (s.toList.all fun c => isPrintable c && c ≠ '"' && c ≠ '\\' && !isSeparator c) = true) : StandsForItself s := by
  have hall : ∀ c ∈ s.toList, isPrintable c = true ∧ (c ≠ '"' ∧ c ≠ '\\') ∧ isSeparator c = false := by
    intro c hc
    simpa [and_assoc] using List.all_eq_true.mp h c hc
  refine ⟨fun c hc => (hall c hc).1, fun c hc => (hall c hc).2.1, fun a c b hs hc => ?_⟩
  have hnot := (hall c (by rw [hs]; simp)).2.2
  rw [hc] at hnot
  cases hnot

def quote (s : String) : String := "\"" ++ s ++ "\""

theorem scalar_quote {s : String} (h : StandsForItself s) : scalar (quote s).toList = some (.text s) := by
  have htoList : (quote s).toList = '"' :: (s.toList ++ '"' :: []) := by
    simp [quote]
  rw [htoList, scalar, h.quoted]
  dsimp only
  rw [String.ofList_toList]

theorem span_key {key : List Char} (h : ∀ c ∈ key, isKeyChar c = true) (rest : List Char) :
    (key ++ ':' :: rest).span isKeyChar = (key, ':' :: rest) := by
  rw [List.span_eq_takeWhile_dropWhile, List.takeWhile_append_of_pos h, List.dropWhile_append_of_pos h,
    List.takeWhile_cons_of_neg (by decide), List.dropWhile_cons_of_neg (by decide), List.append_nil]

theorem readLine_of_ne {c : Char} (hc : c ≠ ' ') (rest : List Char) :
    readLine (' ' :: ' ' :: c :: rest) = readEntry (c :: rest) := by
  unfold readLine
  split
  · exact absurd ‹_› (List.cons_ne_nil _ _)
  · rename_i hcons
    exact absurd (List.cons.inj (List.cons.inj (List.cons.inj hcons).2).2).1 hc
  · rename_i hcons
    rw [(List.cons.inj (List.cons.inj hcons).2).2]
  · rename_i hother
    exact absurd rfl (hother (c :: rest))

theorem readLine_entry {key s : String} (hkey : ∀ c ∈ key.toList, isKeyChar c = true) (hne : key ≠ "")
    (h : StandsForItself s) :
    readLine ("  " ++ key ++ ": " ++ quote s).toList = some (.entry key (some (.text s))) := by
  have htoList : ("  " ++ key ++ ": " ++ quote s).toList = ' ' :: ' ' :: (key.toList ++ ':' :: ' ' :: (quote s).toList) := by
    simp
  have hspan := span_key hkey (' ' :: (quote s).toList)
  obtain ⟨c, rest, hcons⟩ := List.exists_cons_of_ne_nil (String.toList_eq_nil_iff.not.mpr hne)
  have hc : c ≠ ' ' := by
    rintro rfl
    exact absurd (hkey ' ' (hcons ▸ List.mem_cons_self)) (by decide)
  have hofList : String.ofList (c :: rest) = key := by
    rw [← hcons, String.ofList_toList]
  rw [hcons] at hspan
  rw [htoList, hcons, List.cons_append, readLine_of_ne hc, readEntry, ← List.cons_append, hspan]
  show (scalar (quote s).toList).map (fun value => Line.entry (.ofList (c :: rest)) (some value)) = _
  rw [scalar_quote h, hofList]
  rfl

theorem readLine_item {s : String} (h : StandsForItself s) :
    readLine ("    - " ++ quote s).toList = some (.item s) := by
  have htoList : ("    - " ++ quote s).toList = ' ' :: ' ' :: ' ' :: ' ' :: '-' :: ' ' :: (quote s).toList := by
    simp
  rw [htoList, readLine, scalar_quote h]

theorem build_items (items : List String) {rest : List Line} {parts : Parts} (h : build rest = some parts) :
    build (items.map .item ++ rest) = some { parts with items := items ++ parts.items } := by
  induction items with
  | nil => exact h
  | cons item items ih =>
    rw [List.map_cons, List.cons_append, build, ih]
    rfl

end OpsMonitor.Library.Yaml
