import OpsMonitor.Library.Percent
import OpsMonitor.Library.Text

/-! The URLs that carry the credentials of the database and of Redis (`core/config.py`,
`docker/compose.yml`), and what the libraries that get them read in them. -/

namespace OpsMonitor.ConnectionUrls
open Library (notMem_toString)
open Library.Percent (unquote hasEscape unquote_eq_self_iff length_unquote_le not_hasEscape)

structure HostName where
  text : String
  nonempty : text ≠ ""
  characters : ∀ c ∈ text.toList, c.isAlphanum ∨ c = '.' ∨ c = '-' ∨ c = '_'

/-- The settings of the connection. -/
structure Database where
  user : String
  password : String
  host : HostName
  port : ℕ
  name : String

def scheme : String := "mysql+pymysql://"

def hostPart (db : Database) : String := db.host.text ++ ":" ++ toString db.port ++ "/"

/-- `Settings.database_url`. -/
def databaseUrl (db : Database) : String :=
  scheme ++ db.user ++ ":" ++ db.password ++ "@" ++ hostPart db ++ db.name ++ "?charset=utf8mb4"

/-- `REDIS_URL`. -/
def redisUrl (password : String) : String :=
  "redis://:" ++ (if password = "" then "change-me" else password) ++ "@redis:6379/0"

/-! ## The database -/

/-- What `make_url` returns. -/
structure DbUrl where
  username : Option String
  password : Option String
  host : String
  port : ℕ
  database : String
  deriving DecidableEq

/-- How SQLAlchemy reads a URL: the user name ends at the first colon, the password at the first `@`,
both are decoded, and the database ends at the question mark. -/
structure SqlAlchemy (parse : String → Option DbUrl) : Prop where
  plain : ∀ db query, ':' ∉ db.user.toList → '/' ∉ db.user.toList → '@' ∉ db.password.toList →
    '?' ∉ db.name.toList → parse (scheme ++ db.user ++ ":" ++ db.password ++ "@" ++ hostPart db ++ db.name ++ "?" ++ query) =
      some ⟨some (unquote db.user), some (unquote db.password), db.host.text, db.port, db.name⟩
  first_at : ∀ user password rest url, ':' ∉ user.toList → '/' ∉ user.toList → '@' ∉ password.toList →
    parse (scheme ++ user ++ ":" ++ password ++ "@" ++ rest) = some url →
      url.username = some (unquote user) ∧ url.password = some (unquote password)
  slash : ∀ user rest url name, ':' ∉ user.toList → parse (scheme ++ user ++ "/" ++ rest) = some url →
    url.username = some name → name.length ≤ user.length

/-! ## Alembic -/

/-- `%(name)s`: the name, if it stands at the front. -/
def referenceName (l : List Char) : Option (List Char) :=
  let name := (l.drop 2).takeWhile (· ≠ ')')
  if l.take 2 = ['%', '('] ∧ name ≠ [] ∧ (l.drop (name.length + 2)).take 2 = [')', 's'] then some name else none

/-- `value.replace("%%", "")`. -/
def dropDoubles : List Char → List Char
  | a :: b :: rest => if a = '%' ∧ b = '%' then dropDoubles rest else a :: dropDoubles (b :: rest)
  | l => l

/-- `_KEYCRE.sub("", value)`, after the first `skip` characters. -/
def dropReferences : ℕ → List Char → List Char
  | _, [] => []
  | skip + 1, _ :: rest => dropReferences skip rest
  | 0, c :: rest =>
    match referenceName (c :: rest) with
    | some name => dropReferences (name.length + 3) rest
    | none => c :: dropReferences 0 rest

/-- `_interpolate_some`, after the first `skip` characters. -/
def interpolate (option : String → Option String) : ℕ → List Char → Option (List Char)
  | _, [] => some []
  | skip + 1, _ :: rest => interpolate option skip rest
  | 0, c :: rest =>
    if c ≠ '%' then (interpolate option 0 rest).map (c :: ·)
    else if rest.head? = some '%' then (interpolate option 1 rest).map ('%' :: ·)
    else
      match referenceName (c :: rest) with
      | some name => (option (.ofList name)).bind fun value =>
        (interpolate option (name.length + 3) rest).map (value.toList ++ ·)
      | none => none

/-- The other options of `alembic.ini` and the directory it is in, none with a percent sign. -/
structure AlembicOptions where
  option : String → Option String
  plain : ∀ name value, option name = some value → '%' ∉ value.toList

/-- `set_main_option` and the option as alembic reads it, unless one of them raises an error. -/
def setMainOption (options : AlembicOptions) (value : String) : Option String :=
  if '%' ∈ dropReferences 0 (dropDoubles value.toList) then none
  else (interpolate options.option 0 value.toList).map .ofList

/-! ## Redis -/

/-- `unicodedata.normalize("NFKC", text)`, and whether `ipaddress` reads a text as an IPv6 address. -/
structure Platform where
  nfkc : List Char → List Char
  isIpv6 : List Char → Bool

/-- `netloc` of `urlsplit`. -/
def netloc (url : List Char) : List Char :=
  let url := (url.dropWhile fun c => c.toNat ≤ 32).filter fun c => !(c = '\t' || c = '\r' || c = '\n')
  let name := url.takeWhile (· ≠ ':')
  let rest :=
    if ':' ∈ url ∧ name.head?.any Char.isAlpha ∧
        name.all (fun c => c.isAlphanum || c = '+' || c = '-' || c = '.') then url.drop (name.length + 1)
    else url
  if rest.take 2 = ['/', '/'] then (rest.drop 2).takeWhile fun c => !(c = '/' || c = '?' || c = '#') else []

def isHex (c : Char) : Bool := c.isDigit || ('a' ≤ c && c ≤ 'f') || ('A' ≤ c && c ≤ 'F')

/-- `_check_bracketed_host`. -/
def validBracketed (platform : Platform) (host : List Char) : Bool :=
  if host.head? = some 'v' then
    let digits := host.tail.takeWhile isHex
    let rest := host.tail.drop digits.length
    digits ≠ [] && rest.head? = some '.' && rest.tail ≠ []
  else platform.isIpv6 host

def checkBrackets (platform : Platform) (netloc : List Char) : Bool :=
  if '[' ∈ netloc then
    ']' ∈ netloc && validBracketed platform (((netloc.dropWhile (· ≠ '[')).drop 1).takeWhile (· ≠ ']'))
  else ']' ∉ netloc

/-- `_checknetloc`. -/
def checkNetloc (platform : Platform) (netloc : List Char) : Bool :=
  netloc.all (·.toNat < 128) ||
    (let n := netloc.filter fun c => !(c = '@' || c = ':' || c = '#' || c = '?')
     platform.nfkc n = n || (platform.nfkc n).all fun c => !(c = '/' || c = '?' || c = '#' || c = '@' || c = ':'))

/-- What stands before the last `@`. -/
def userinfo (netloc : List Char) : Option (List Char) :=
  if '@' ∈ netloc then some ((netloc.reverse.dropWhile (· ≠ '@')).drop 1).reverse else none

def passwordOf (netloc : List Char) : Option (List Char) :=
  (userinfo netloc).bind fun info => if ':' ∈ info then some ((info.dropWhile (· ≠ ':')).drop 1) else none

/-- The password that redis-py uses. -/
def redisPassword (platform : Platform) (url : String) : Option String :=
  let netloc := netloc url.toList
  if checkBrackets platform netloc && checkNetloc platform netloc then
    (passwordOf netloc).bind fun password => if password = [] then none else some (unquote (.ofList password))
  else none

/-! ## What survives -/

/-- The database URL is read back, also from alembic's options, and so is the password of Redis. -/
structure CredentialsSurvive (parse : String → Option DbUrl) (options : AlembicOptions) (platform : Platform)
    (db : Database) (redis : String) : Prop where
  database : parse (databaseUrl db) = some ⟨some db.user, some db.password, db.host.text, db.port, db.name⟩
  alembic : setMainOption options (databaseUrl db) = some (databaseUrl db)
  redis : redisPassword platform (redisUrl redis) = some redis

structure PlainDatabase (db : Database) : Prop where
  user : ∀ c ∈ db.user.toList, c ∉ [':', '/', '%']
  password : ∀ c ∈ db.password.toList, c ∉ ['@', '%']
  name : ∀ c ∈ db.name.toList, c ∉ ['?', '%']

/-- `netloc` of the URL, as long as the password does not end it. -/
def redisNetloc (password : String) : List Char := ':' :: (password.toList ++ "@redis:6379".toList)

structure PlainRedis (platform : Platform) (password : String) : Prop where
  nonempty : password ≠ ""
  characters : ∀ c ∈ password.toList, c ∉ ['/', '?', '#', '\t', '\r', '\n']
  no_escape : hasEscape password.toList = false
  brackets : checkBrackets platform (redisNetloc password) = true
  normal : checkNetloc platform (redisNetloc password) = true

/-! ### Interpolation -/

section
variable {option : String → Option String}

/-- Interpolation takes percent signs away. -/
theorem count_interpolate (hplain : ∀ name value, option name = some value → '%' ∉ value.toList) (skip : ℕ)
    {l r : List Char} (h : interpolate option skip l = some r) :
    r.count '%' ≤ (l.drop skip).count '%' ∧ ('%' ∈ l.drop skip → r.count '%' < (l.drop skip).count '%') := by
  induction l generalizing skip r with
  | nil =>
    have hr : r = [] := by
      cases skip <;> exact (Option.some.inj h).symm
    subst hr
    simp
  | cons c rest ih =>
    cases skip with
    | succ skip => exact ih skip h
    | zero =>
      rw [interpolate] at h
      rw [List.drop_zero]
      split_ifs at h with hc hdouble
      · obtain ⟨r', hr', rfl⟩ := Option.map_eq_some_iff.mp h
        have hrest := ih 0 hr'
        rw [List.drop_zero] at hrest
        rw [List.count_cons_of_ne hc, List.count_cons_of_ne hc]
        refine ⟨hrest.1, fun hmem => hrest.2 ?_⟩
        exact (List.mem_cons.mp hmem).resolve_left fun heq => hc heq.symm
      · obtain ⟨r', hr', rfl⟩ := Option.map_eq_some_iff.mp h
        rw [not_not] at hc
        subst hc
        obtain ⟨tail, rfl⟩ : ∃ tail, rest = '%' :: tail := by
          cases rest with
          | nil => cases hdouble
          | cons d tail => exact ⟨tail, congrArg (· :: tail) (Option.some.inj hdouble)⟩
        have hrest := ih 1 hr'
        simp only [List.drop_succ_cons, List.drop_zero] at hrest
        simp only [List.count_cons_self]
        omega
      · rw [not_not] at hc
        subst hc
        split at h
        · rename_i name _
          obtain ⟨value, hvalue, h⟩ := Option.bind_eq_some_iff.mp h
          obtain ⟨r', hr', rfl⟩ := Option.map_eq_some_iff.mp h
          have hrest := (ih _ hr').1
          have hdrop := List.Sublist.count_le '%' (List.drop_sublist (name.length + 3) rest)
          have hzero := List.count_eq_zero_of_not_mem (hplain _ _ hvalue)
          rw [List.count_append, hzero, List.count_cons_self]
          omega
        · cases h

theorem interpolate_eq_self {l : List Char} (h : '%' ∉ l) : interpolate option 0 l = some l := by
  induction l with
  | nil => rfl
  | cons c l ih =>
    have hc : c ≠ '%' := fun heq => h (heq ▸ List.mem_cons_self)
    rw [interpolate, if_pos hc, ih fun hmem => h (List.mem_cons_of_mem _ hmem)]
    rfl

theorem dropDoubles_subset (l : List Char) : ∀ c ∈ dropDoubles l, c ∈ l := by
  induction l using dropDoubles.induct with
  | case1 a b rest hdouble ih =>
    rw [dropDoubles, if_pos hdouble]
    exact fun c hc => List.mem_cons_of_mem _ (List.mem_cons_of_mem _ (ih c hc))
  | case2 a b rest hdouble ih =>
    rw [dropDoubles, if_neg hdouble]
    intro c hc
    rcases List.mem_cons.mp hc with rfl | hc
    · exact List.mem_cons_self
    · exact List.mem_cons_of_mem _ (ih c hc)
  | case3 l hother =>
    intro c hc
    unfold dropDoubles at hc
    split at hc
    · exact absurd rfl (hother _ _ _)
    · exact hc

theorem dropReferences_subset (skip : ℕ) (l : List Char) : ∀ c ∈ dropReferences skip l, c ∈ l := by
  induction l generalizing skip with
  | nil => cases skip <;> exact fun c hc => hc
  | cons d rest ih =>
    cases skip with
    | succ skip => exact fun c hc => List.mem_cons_of_mem _ (ih skip c hc)
    | zero =>
      rw [dropReferences]
      split
      · exact fun c hc => List.mem_cons_of_mem _ (ih _ c hc)
      · intro c hc
        rcases List.mem_cons.mp hc with rfl | hc
        · exact List.mem_cons_self
        · exact List.mem_cons_of_mem _ (ih 0 c hc)

/-- The option is read as it was set only if it has no percent sign. -/
theorem setMainOption_eq_self_iff (options : AlembicOptions) (value : String) :
    setMainOption options value = some value ↔ '%' ∉ value.toList := by
  constructor
  · intro h hmem
    unfold setMainOption at h
    split_ifs at h
    obtain ⟨r, hr, heq⟩ := Option.map_eq_some_iff.mp h
    have hlt := (count_interpolate options.plain 0 hr).2 hmem
    rw [← heq, String.toList_ofList, List.drop_zero] at hlt
    exact lt_irrefl _ hlt
  · intro h
    have hset : '%' ∉ dropReferences 0 (dropDoubles value.toList) := fun hmem =>
      h (dropDoubles_subset _ _ (dropReferences_subset _ _ _ hmem))
    rw [setMainOption, if_neg hset, interpolate_eq_self h, Option.map_some, String.ofList_toList]

end

/-! ### The database -/

section
variable {parse : String → Option DbUrl} {db : Database}

theorem percent_notMem_hostPart (db : Database) : '%' ∉ (hostPart db).toList := by
  intro h
  simp only [hostPart, String.toList_append, List.mem_append] at h
  rcases h with ((h | h) | h) | h
  · rcases db.host.characters _ h with h | h | h | h <;> exact absurd h (by decide)
  · exact absurd h (by decide)
  · exact notMem_toString (by decide) db.port h
  · exact absurd h (by decide)

theorem percent_mem_databaseUrl (db : Database) : '%' ∈ (databaseUrl db).toList ↔
    '%' ∈ db.user.toList ∨ '%' ∈ db.password.toList ∨ '%' ∈ db.name.toList := by
  have hhost := percent_notMem_hostPart db
  have hscheme : '%' ∉ scheme.toList := by decide
  have hcolon : '%' ∉ ":".toList := by decide
  have hat : '%' ∉ "@".toList := by decide
  have hquery : '%' ∉ "?charset=utf8mb4".toList := by decide
  simp only [databaseUrl, String.toList_append, List.mem_append, hhost, hscheme, hcolon, hat, hquery, false_or,
    or_false, or_assoc]

theorem unquote_of_notMem {s : String} (h : '%' ∉ s.toList) : unquote s = s :=
  (unquote_eq_self_iff s).mpr (not_hasEscape h)

/-- The first of two characters splits the text. -/
theorem split_at_first {p : Char → Bool} {s : String} {c : Char} (hc : c ∈ s.toList) (hp : p c = true) :
    ∃ front d back, s = front ++ String.singleton d ++ back ∧ p d = true ∧ (∀ e ∈ front.toList, p e = false) ∧
      front.length < s.length := by
  have hsplit : s.toList.takeWhile (fun e => !p e) ++ s.toList.dropWhile (fun e => !p e) = s.toList :=
    List.takeWhile_append_dropWhile
  have hne : s.toList.dropWhile (fun e => !p e) ≠ [] := by
    intro hnil
    have hall := List.dropWhile_eq_nil_iff.mp hnil c hc
    rw [hp] at hall
    cases hall
  obtain ⟨d, back, hdrop⟩ := List.exists_cons_of_ne_nil hne
  have hd : p d = true := by
    have hhead := List.head?_dropWhile_not (fun e => !p e) s.toList
    rw [hdrop] at hhead
    simpa using hhead
  rw [hdrop] at hsplit
  refine ⟨.ofList (s.toList.takeWhile fun e => !p e), d, .ofList back, ?_, hd, ?_, ?_⟩
  · rw [← String.toList_inj, String.toList_append, String.toList_append, String.toList_ofList, String.toList_ofList,
      String.toList_singleton, List.append_assoc]
    exact hsplit.symm
  · intro e he
    rw [String.toList_ofList] at he
    simpa using List.mem_takeWhile_imp he
  · have hlength := congrArg List.length hsplit
    rw [List.length_append, List.length_cons, String.length_toList] at hlength
    rw [String.length_ofList]
    omega

theorem length_lt_of_unquote {front s t : String} (h : t.length ≤ front.length) (hlt : front.length < s.length) : t ≠ s := by
  rintro rfl
  exact absurd (h.trans_lt hlt) (lt_irrefl _)

/-- A user name with a colon or a slash is cut there. -/
theorem user_of_parse (h : SqlAlchemy parse) {url : DbUrl} (hparse : parse (databaseUrl db) = some url)
    (huser : url.username = some db.user) : ∀ c ∈ db.user.toList, c ≠ ':' ∧ c ≠ '/' := by
  by_contra hnot
  push Not at hnot
  obtain ⟨c, hc, hcut⟩ := hnot
  have hp : (decide (c = ':') || decide (c = '/')) = true := by
    rw [Bool.or_eq_true, decide_eq_true_eq, decide_eq_true_eq]
    by_cases hcolon : c = ':'
    · exact Or.inl hcolon
    · exact Or.inr (hcut hcolon)
  obtain ⟨front, d, back, hsplit, hd, hfront, hlt⟩ :=
    @split_at_first (fun e => decide (e = ':') || decide (e = '/')) db.user c hc hp
  have hcolon : ':' ∉ front.toList := fun hmem => by cases hfront _ hmem
  have hslash : '/' ∉ front.toList := fun hmem => by cases hfront _ hmem
  rw [Bool.or_eq_true, decide_eq_true_eq, decide_eq_true_eq] at hd
  rcases hd with rfl | rfl
  · -- The first `@` ends whatever stands between the colon and it.
    have hat : '@' ∈ (back ++ ":" ++ db.password ++ "@" ++ hostPart db ++ db.name ++ "?charset=utf8mb4").toList := by
      simp
    obtain ⟨password, d, rest, hrest, hd, hpassword, -⟩ := @split_at_first (fun e => decide (e = '@')) _ _ hat (by decide)
    obtain rfl := of_decide_eq_true hd
    have hurl : databaseUrl db = scheme ++ front ++ ":" ++ password ++ "@" ++ rest := by
      have hcolon : String.singleton ':' = ":" := rfl
      have hat : String.singleton '@' = "@" := rfl
      rw [hcolon] at hsplit
      rw [hat] at hrest
      rw [databaseUrl, hsplit]
      simp only [String.append_assoc] at hrest ⊢
      rw [hrest]
    rw [hurl] at hparse
    have hread := h.first_at front password rest url hcolon hslash
      (fun hmem => absurd (hpassword _ hmem) (by decide)) hparse
    rw [hread.1] at huser
    exact length_lt_of_unquote (length_unquote_le front) hlt (Option.some.inj huser)
  · have hurl : databaseUrl db = scheme ++ front ++ "/" ++
        (back ++ ":" ++ db.password ++ "@" ++ hostPart db ++ db.name ++ "?charset=utf8mb4") := by
      have hslash : String.singleton '/' = "/" := rfl
      rw [hslash] at hsplit
      rw [databaseUrl, hsplit]
      simp only [String.append_assoc]
    rw [hurl] at hparse
    exact length_lt_of_unquote (h.slash front _ url db.user hcolon hparse huser) hlt rfl

/-- A password with an `@` is cut there. -/
theorem password_of_parse (h : SqlAlchemy parse) {url : DbUrl} (hparse : parse (databaseUrl db) = some url)
    (huser : ∀ c ∈ db.user.toList, c ≠ ':' ∧ c ≠ '/') (hpassword : url.password = some db.password) :
    '@' ∉ db.password.toList := by
  intro hat
  obtain ⟨front, d, back, hsplit, hd, hfront, hlt⟩ :=
    @split_at_first (fun e => decide (e = '@')) db.password _ hat (by decide)
  obtain rfl := of_decide_eq_true hd
  have hurl : databaseUrl db =
      scheme ++ db.user ++ ":" ++ front ++ "@" ++ (back ++ "@" ++ hostPart db ++ db.name ++ "?charset=utf8mb4") := by
    have hat : String.singleton '@' = "@" := rfl
    rw [hat] at hsplit
    rw [databaseUrl, hsplit]
    simp only [String.append_assoc]
  rw [hurl] at hparse
  have hread := h.first_at db.user front _ url (fun hmem => (huser _ hmem).1 rfl) (fun hmem => (huser _ hmem).2 rfl)
    (fun hmem => absurd (hfront _ hmem) (by decide)) hparse
  rw [hread.2] at hpassword
  exact length_lt_of_unquote (length_unquote_le front) hlt (Option.some.inj hpassword)

/-- A database name with a question mark is cut there. -/
theorem name_of_parse (h : SqlAlchemy parse) {url : DbUrl} (hparse : parse (databaseUrl db) = some url)
    (huser : ∀ c ∈ db.user.toList, c ≠ ':' ∧ c ≠ '/') (hpassword : '@' ∉ db.password.toList)
    (hname : url.database = db.name) : '?' ∉ db.name.toList := by
  intro hmark
  obtain ⟨front, d, back, hsplit, hd, hfront, hlt⟩ :=
    @split_at_first (fun e => decide (e = '?')) db.name _ hmark (by decide)
  obtain rfl := of_decide_eq_true hd
  have hurl : databaseUrl db = scheme ++ db.user ++ ":" ++ db.password ++ "@" ++ hostPart { db with name := front } ++
      front ++ "?" ++ (back ++ "?charset=utf8mb4") := by
    have hmark : String.singleton '?' = "?" := rfl
    rw [hmark] at hsplit
    rw [databaseUrl, hsplit]
    simp only [String.append_assoc]
    rfl
  have hread := h.plain { db with name := front } (back ++ "?charset=utf8mb4") (fun hmem => (huser _ hmem).1 rfl)
    (fun hmem => (huser _ hmem).2 rfl) hpassword (fun hmem => absurd (hfront _ hmem) (by decide))
  dsimp only at hread
  rw [hurl, hread] at hparse
  rw [← Option.some.inj hparse] at hname
  exact absurd (congrArg String.length hname) hlt.ne

theorem database_iff (h : SqlAlchemy parse) (options : AlembicOptions) :
    parse (databaseUrl db) = some ⟨some db.user, some db.password, db.host.text, db.port, db.name⟩ ∧
      setMainOption options (databaseUrl db) = some (databaseUrl db) ↔ PlainDatabase db := by
  rw [setMainOption_eq_self_iff, percent_mem_databaseUrl]
  constructor
  · rintro ⟨hparse, hpercent⟩
    push Not at hpercent
    have huser := user_of_parse h hparse rfl
    have hpassword := password_of_parse h hparse huser rfl
    have hname := name_of_parse h hparse huser hpassword rfl
    refine ⟨fun c hc hmem => ?_, fun c hc hmem => ?_, fun c hc hmem => ?_⟩
    · simp only [List.mem_cons, List.not_mem_nil, or_false] at hmem
      rcases hmem with rfl | rfl | rfl
      · exact (huser _ hc).1 rfl
      · exact (huser _ hc).2 rfl
      · exact hpercent.1 hc
    · rcases List.mem_pair.mp hmem with rfl | rfl
      · exact hpassword hc
      · exact hpercent.2.1 hc
    · rcases List.mem_pair.mp hmem with rfl | rfl
      · exact hname hc
      · exact hpercent.2.2 hc
  · intro hplain
    have huser : ∀ c ∈ [':', '/', '%'], c ∉ db.user.toList := fun c hc hmem => hplain.user c hmem hc
    have hpassword : ∀ c ∈ ['@', '%'], c ∉ db.password.toList := fun c hc hmem => hplain.password c hmem hc
    have hname : ∀ c ∈ ['?', '%'], c ∉ db.name.toList := fun c hc hmem => hplain.name c hmem hc
    have hread := h.plain db "charset=utf8mb4" (huser _ (by decide)) (huser _ (by decide)) (hpassword _ (by decide))
      (hname _ (by decide))
    rw [unquote_of_notMem (huser _ (by decide)), unquote_of_notMem (hpassword _ (by decide))] at hread
    have hurl : databaseUrl db =
        scheme ++ db.user ++ ":" ++ db.password ++ "@" ++ hostPart db ++ db.name ++ "?" ++ "charset=utf8mb4" := by
      have hquery : "?charset=utf8mb4" = "?" ++ "charset=utf8mb4" := by decide
      rw [databaseUrl, hquery]
      simp only [String.append_assoc]
    refine ⟨hurl ▸ hread, ?_⟩
    rintro (hmem | hmem | hmem)
    · exact huser _ (by decide) hmem
    · exact hpassword _ (by decide) hmem
    · exact hname _ (by decide) hmem

end

/-! ### Redis -/

def isSafe (c : Char) : Bool := !(c = '\t' || c = '\r' || c = '\n')

def staysInNetloc (c : Char) : Bool := !(c = '/' || c = '?' || c = '#')

section
variable {platform : Platform} {password : String}

theorem netloc_eq (l : List Char) : netloc ("redis://:".toList ++ l ++ "@redis:6379/0".toList) =
    ':' :: ((l.filter isSafe) ++ "@redis:6379/0".toList).takeWhile staysInNetloc := by
  have hurl : "redis://:".toList ++ l ++ "@redis:6379/0".toList =
      'r' :: 'e' :: 'd' :: 'i' :: 's' :: ':' :: '/' :: '/' :: ':' :: (l ++ "@redis:6379/0".toList) := rfl
  have hfilter : (l ++ "@redis:6379/0".toList).filter isSafe = l.filter isSafe ++ "@redis:6379/0".toList := by
    rw [List.filter_append]
    rfl
  have hstart : ('r' :: 'e' :: 'd' :: 'i' :: 's' :: ':' :: '/' :: '/' :: ':' :: (l ++ "@redis:6379/0".toList)).filter
      isSafe = 'r' :: 'e' :: 'd' :: 'i' :: 's' :: ':' :: '/' :: '/' :: ':' :: (l.filter isSafe ++ "@redis:6379/0".toList) := by
    rw [← hfilter]
    rfl
  unfold netloc
  rw [hurl, List.dropWhile_cons_of_neg (by decide)]
  have hsafe : (fun c => !(c = '\t' || c = '\r' || c = '\n')) = isSafe := rfl
  rw [hsafe, hstart]
  rfl

theorem takeWhile_stays {l : List Char} (h : ∀ c ∈ l, staysInNetloc c = true) :
    (l ++ "@redis:6379/0".toList).takeWhile staysInNetloc = l ++ "@redis:6379".toList := by
  rw [List.takeWhile_append_of_pos h]
  rfl

/-- A character that ends `netloc` leaves less than the password. -/
theorem length_takeWhile_lt {l : List Char} {c : Char} (hc : c ∈ l) (h : staysInNetloc c = false) :
    ((l ++ "@redis:6379/0".toList).takeWhile staysInNetloc).length < l.length := by
  induction l with
  | nil => cases hc
  | cons d l ih =>
    rw [List.cons_append, List.takeWhile_cons]
    split_ifs with hd
    · have hl : c ∈ l := (List.mem_cons.mp hc).resolve_left fun heq => by rw [heq, hd] at h; cases h
      exact Nat.succ_lt_succ (ih hl)
    · exact Nat.succ_pos _

theorem userinfo_eq (l : List Char) : userinfo (l ++ "@redis:6379".toList) = some l := by
  have hreverse : (l ++ "@redis:6379".toList).reverse =
      '9' :: '7' :: '3' :: '6' :: ':' :: 's' :: 'i' :: 'd' :: 'e' :: 'r' :: '@' :: l.reverse := by
    rw [List.reverse_append]
    rfl
  have hdrop : (l ++ "@redis:6379".toList).reverse.dropWhile (· ≠ '@') = '@' :: l.reverse := by
    rw [hreverse]
    rfl
  rw [userinfo, if_pos (by simp), hdrop, List.drop_one, List.tail_cons, List.reverse_reverse]

theorem passwordOf_redisNetloc (l : List Char) : passwordOf (':' :: (l ++ "@redis:6379".toList)) = some l := by
  rw [passwordOf, ← List.cons_append, userinfo_eq]
  simp

theorem length_passwordOf {l r : List Char} (h : passwordOf l = some r) : r.length < l.length := by
  obtain ⟨info, hinfo, h⟩ := Option.bind_eq_some_iff.mp h
  unfold userinfo at hinfo
  split_ifs at h hinfo with hcolon hat
  have hr := congrArg List.length (Option.some.inj h)
  have hi := congrArg List.length (Option.some.inj hinfo)
  have hlast := (@List.dropWhile_sublist _ l.reverse (· ≠ '@')).length_le
  have hfirst := (@List.dropWhile_sublist _ info (· ≠ ':')).length_le
  have hpos := List.length_pos_of_mem hat
  simp only [List.length_drop, List.length_reverse] at hr hi hlast hfirst
  omega

/-- A password that does not end `netloc` is read whole, if the checks pass. -/
theorem redisPassword_eq (hne : password ≠ "")
    (hcharacters : ∀ c ∈ password.toList, c ∉ ['/', '?', '#', '\t', '\r', '\n']) :
    redisPassword platform (redisUrl password) =
      if checkBrackets platform (redisNetloc password) && checkNetloc platform (redisNetloc password) then
        some (unquote password)
      else none := by
  have hkind : ∀ c ∈ password.toList, isSafe c = true ∧ staysInNetloc c = true := by
    intro c hc
    have hnot := hcharacters c hc
    simp only [List.mem_cons, List.not_mem_nil, or_false, not_or] at hnot
    simp [isSafe, staysInNetloc, hnot]
  have hnetloc : netloc (redisUrl password).toList = redisNetloc password := by
    have hurl : (redisUrl password).toList = "redis://:".toList ++ password.toList ++ "@redis:6379/0".toList := by
      rw [redisUrl, if_neg hne, String.toList_append, String.toList_append]
    rw [hurl, netloc_eq, List.filter_eq_self.mpr fun c hc => (hkind c hc).1,
      takeWhile_stays fun c hc => (hkind c hc).2]
    rfl
  have hlist : password.toList ≠ [] := by
    simpa using hne
  unfold redisPassword
  dsimp only
  rw [hnetloc, redisNetloc, passwordOf_redisNetloc, Option.bind_some, if_neg hlist, String.ofList_toList]

theorem length_of_redisPassword {l : List Char} {url read : String} (hnetloc : netloc url.toList = ':' :: l)
    (h : redisPassword platform url = some read) : read.length ≤ l.length := by
  unfold redisPassword at h
  dsimp only at h
  split_ifs at h
  obtain ⟨raw, hraw, h⟩ := Option.bind_eq_some_iff.mp h
  split_ifs at h
  have hlength := length_passwordOf hraw
  rw [hnetloc, List.length_cons] at hlength
  have hunquote := length_unquote_le (.ofList raw)
  rw [Option.some.inj h, String.length_ofList] at hunquote
  omega

/-- What is read is no longer than the safe characters, and shorter if one of them ends `netloc`. -/
theorem length_read {l : List Char} {url read : String}
    (hnetloc : netloc url.toList = ':' :: (l ++ "@redis:6379/0".toList).takeWhile staysInNetloc)
    (h : redisPassword platform url = some read) :
    read.length ≤ l.length ∧ ∀ c ∈ l, staysInNetloc c = false → read.length < l.length := by
  by_cases hends : ∃ c ∈ l, staysInNetloc c = false
  · obtain ⟨c, hc, hfalse⟩ := hends
    have hlt := (length_of_redisPassword hnetloc h).trans_lt (length_takeWhile_lt hc hfalse)
    exact ⟨hlt.le, fun _ _ _ => hlt⟩
  · have hstays : ∀ c ∈ l, staysInNetloc c = true := by
      intro c hc
      by_contra hfalse
      exact hends ⟨c, hc, Bool.eq_false_iff.mpr hfalse⟩
    rw [takeWhile_stays hstays] at hnetloc
    unfold redisPassword at h
    dsimp only at h
    rw [hnetloc, passwordOf_redisNetloc, Option.bind_some] at h
    split_ifs at h
    have hunquote := length_unquote_le (.ofList l)
    rw [Option.some.inj h, String.length_ofList] at hunquote
    exact ⟨hunquote, fun c hc hfalse => absurd ⟨c, hc, hfalse⟩ hends⟩

theorem characters_of_redisPassword (hne : password ≠ "")
    (h : redisPassword platform (redisUrl password) = some password) :
    ∀ c ∈ password.toList, c ∉ ['/', '?', '#', '\t', '\r', '\n'] := by
  intro c hc hmem
  have hurl : (redisUrl password).toList = "redis://:".toList ++ password.toList ++ "@redis:6379/0".toList := by
    rw [redisUrl, if_neg hne, String.toList_append, String.toList_append]
  have hnetloc := netloc_eq password.toList
  rw [← hurl] at hnetloc
  obtain ⟨hle, hlt⟩ := length_read hnetloc h
  have hfilter := (@List.filter_sublist _ isSafe password.toList).length_le
  rw [String.length_toList] at hfilter
  cases hsafe : isSafe c with
  | false =>
    have hshort : (password.toList.filter isSafe).length < password.toList.length :=
      List.length_filter_lt_length_iff_exists.mpr ⟨c, hc, by simp [hsafe]⟩
    rw [String.length_toList] at hshort
    omega
  | true =>
    have hends : staysInNetloc c = false := by
      simp only [List.mem_cons, List.not_mem_nil, or_false] at hmem
      rcases hmem with rfl | rfl | rfl | rfl | rfl | rfl
      all_goals first | rfl | exact absurd hsafe (by decide)
    have hshort := hlt c (List.mem_filter.mpr ⟨hc, hsafe⟩) hends
    omega

theorem redis_iff : redisPassword platform (redisUrl password) = some password ↔ PlainRedis platform password := by
  constructor
  · intro h
    have hne : password ≠ "" := by
      rintro rfl
      have hdefault : redisUrl "" = redisUrl "change-me" := rfl
      rw [hdefault, redisPassword_eq (by decide) (by simp)] at h
      split_ifs at h
      rw [unquote_of_notMem (by decide)] at h
      exact absurd (Option.some.inj h) (by decide)
    have hcharacters := characters_of_redisPassword hne h
    rw [redisPassword_eq hne hcharacters] at h
    split_ifs at h with hchecks
    rw [Bool.and_eq_true] at hchecks
    exact ⟨hne, hcharacters, (unquote_eq_self_iff password).mp (Option.some.inj h), hchecks.1, hchecks.2⟩
  · intro h
    rw [redisPassword_eq h.nonempty h.characters, h.brackets, h.normal, Bool.and_self, if_pos rfl,
      (unquote_eq_self_iff password).mpr h.no_escape]

end

/-- The credentials survive exactly if they are plain. -/
theorem credentialsSurvive_iff {parse : String → Option DbUrl} (h : SqlAlchemy parse) (options : AlembicOptions)
    (platform : Platform) (db : Database) (redis : String) :
    CredentialsSurvive parse options platform db redis ↔ PlainDatabase db ∧ PlainRedis platform redis := by
  rw [← database_iff h options, ← redis_iff]
  exact ⟨fun hs => ⟨⟨hs.database, hs.alembic⟩, hs.redis⟩, fun hs => ⟨hs.1.1, hs.1.2, hs.2⟩⟩

/-! ### Two settings -/

/-- The text before the first `c`, and the text after it. -/
def cut (c : Char) (l : List Char) : List Char × List Char := (l.takeWhile (· ≠ c), (l.dropWhile (· ≠ c)).drop 1)

/-- A parser of the URLs of `scheme`. -/
def readUrl (url : String) : Option DbUrl :=
  let (user, rest) := cut ':' (url.toList.drop scheme.length)
  let (password, rest) := cut '@' rest
  let (host, rest) := cut ':' rest
  let (port, rest) := cut '/' rest
  let (name, _) := cut '?' rest
  if '/' ∈ user then none
  else some ⟨some (unquote (.ofList user)), some (unquote (.ofList password)), .ofList host,
    Nat.ofDigitChars 10 port 0, .ofList name⟩

theorem cut_append {c : Char} {l : List Char} (h : c ∉ l) (r : List Char) : cut c (l ++ c :: r) = (l, r) := by
  have hall : ∀ d ∈ l, decide (d ≠ c) = true := fun d hd => decide_eq_true fun heq => h (heq ▸ hd)
  rw [cut, List.takeWhile_append_of_pos hall, List.dropWhile_append_of_pos hall,
    List.takeWhile_cons_of_neg (by simp), List.dropWhile_cons_of_neg (by simp), List.append_nil]
  rfl

theorem drop_scheme (l : List Char) : (scheme.toList ++ l).drop scheme.length = l := by
  rw [← String.length_toList, List.drop_left]

theorem sqlAlchemy_readUrl : SqlAlchemy readUrl where
  plain db query huser hslash hpassword hname := by
    have hhost : ':' ∉ db.host.text.toList := by
      intro hmem
      rcases db.host.characters _ hmem with h | h | h | h <;> exact absurd h (by decide)
    have hport : '/' ∉ (toString db.port).toList := notMem_toString (by decide) db.port
    have hdigits : (toString db.port).toList = Nat.toDigits 10 db.port := Nat.toList_repr
    have hurl : (scheme ++ db.user ++ ":" ++ db.password ++ "@" ++ hostPart db ++ db.name ++ "?" ++ query).toList =
        scheme.toList ++ (db.user.toList ++ ':' :: (db.password.toList ++ '@' :: (db.host.text.toList ++ ':' ::
          ((toString db.port).toList ++ '/' :: (db.name.toList ++ '?' :: query.toList))))) := by
      simp [hostPart]
    rw [readUrl, hurl, drop_scheme]
    simp only [cut_append huser, cut_append hpassword, cut_append hhost, cut_append hport, cut_append hname,
      if_neg hslash, String.ofList_toList]
    rw [hdigits, Nat.ofDigitChars_ten_toDigits]
  first_at user password rest url huser hslash hpassword h := by
    have hurl : (scheme ++ user ++ ":" ++ password ++ "@" ++ rest).toList =
        scheme.toList ++ (user.toList ++ ':' :: (password.toList ++ '@' :: rest.toList)) := by
      simp
    rw [readUrl, hurl, drop_scheme] at h
    simp only [cut_append huser, cut_append hpassword, if_neg hslash, String.ofList_toList] at h
    rw [← Option.some.inj h]
    exact ⟨rfl, rfl⟩
  slash user rest url name huser h _ := by
    have hurl : (scheme ++ user ++ "/" ++ rest).toList = scheme.toList ++ (user.toList ++ '/' :: rest.toList) := by
      simp
    have hall : ∀ d ∈ user.toList, decide (d ≠ ':') = true := fun d hd => decide_eq_true fun heq => huser (heq ▸ hd)
    have hslash : '/' ∈ (cut ':' (user.toList ++ '/' :: rest.toList)).1 := by
      rw [cut, List.takeWhile_append_of_pos hall, List.takeWhile_cons_of_pos (by decide)]
      exact List.mem_append_right _ List.mem_cons_self
    rw [readUrl, hurl, drop_scheme] at h
    simp only [if_pos hslash] at h
    cases h

def bareOptions : AlembicOptions := ⟨fun _ => none, fun _ _ h => by cases h⟩

def asciiPlatform : Platform := ⟨id, fun _ => false⟩

def mysqlHost : HostName := ⟨"mysql", by decide, by simp⟩

def opsDatabase (password : String) : Database := ⟨"ops", password, mysqlHost, 3306, "opsmonitor"⟩

theorem credentialsSurvive_plain :
    CredentialsSurvive readUrl bareOptions asciiPlatform (opsDatabase "p:a/s+s#") "secret@1" :=
  (credentialsSurvive_iff sqlAlchemy_readUrl bareOptions asciiPlatform (opsDatabase "p:a/s+s#") "secret@1").mpr
    ⟨⟨by simp [opsDatabase], by simp [opsDatabase], by simp [opsDatabase]⟩,
      ⟨by decide, by simp, by decide +kernel, by decide +kernel, by decide +kernel⟩⟩

/-- A password with an `@` is cut, one with a percent sign stops alembic, and one with a `#` leaves Redis
without a password. -/
theorem passwords_lost :
    (∃ url, readUrl (databaseUrl (opsDatabase "p@ss")) = some url ∧ url.password = some "p" ∧ url.host = "ss@mysql") ∧
    setMainOption bareOptions (databaseUrl (opsDatabase "100%")) = none ∧
    redisPassword asciiPlatform (redisUrl "a#b") = none ∧
    ¬ CredentialsSurvive readUrl bareOptions asciiPlatform (opsDatabase "p@ss") "a#b" := by
  have hread : readUrl (databaseUrl (opsDatabase "p@ss")) =
      some ⟨some "ops", some "p", "ss@mysql", 3306, "opsmonitor"⟩ := by
    decide +kernel
  refine ⟨⟨_, hread, rfl, rfl⟩, by decide +kernel, by decide +kernel, fun h => ?_⟩
  have hsame := hread.symm.trans h.database
  exact absurd hsame (by decide)

end OpsMonitor.ConnectionUrls
