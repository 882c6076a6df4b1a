import Mathlib.Data.List.Basic
import Mathlib.Data.Nat.Notation

/-!
# JSON texts

A recursive-descent reader of JSON texts, and the text a flat object of strings is written
as. A text is read into its syntax tree: the members of an object stay in their order, with
any name that comes twice. Containers nest up to a depth.

## Main definitions
* `Tree` : what a text says.
* `scan` : the value at the front of a text, and what follows it.
* `parse` : the value that is the whole of a text.
* `quote`, `dumpStrings` : the ASCII text of a string, and of an object of strings.
-/
namespace JsonText

/-- A number as it is written. -/
structure Numeral where
  int : List Char
  frac : List Char
  exp : List Char
deriving DecidableEq

/-- The value a text denotes; strings are lists of code points. -/
inductive Tree
  | null
  | bool (b : Bool)
  | number (n : Numeral)
  | str (s : List ℕ)
  | arr (items : List Tree)
  | obj (members : List (List ℕ × Tree))

def isSpace (c : Char) : Bool := c == ' ' || c == '\t' || c == '\n' || c == '\r'

def skipSpace (cs : List Char) : List Char := cs.dropWhile isSpace

/-! ## Strings -/

def hexValue (c : Char) : Option ℕ :=
  if '0' ≤ c && c ≤ '9' then some (c.toNat - '0'.toNat)
  else if 'a' ≤ c && c ≤ 'f' then some (c.toNat - 'a'.toNat + 10)
  else if 'A' ≤ c && c ≤ 'F' then some (c.toNat - 'A'.toNat + 10)
  else none

/-- The code unit of `\uXXXX`. -/
def hexUnit (a b c d : Char) : Option ℕ := do
  let a ← hexValue a
  let b ← hexValue b
  let c ← hexValue c
  let d ← hexValue d
  return ((a * 16 + b) * 16 + c) * 16 + d

/-- The character of a short escape. -/
def unescape : Char → Option ℕ
  | '"' => some '"'.toNat
  | '\\' => some '\\'.toNat
  | '/' => some '/'.toNat
  | 'b' => some 8
  | 'f' => some 12
  | 'n' => some '\n'.toNat
  | 'r' => some '\r'.toNat
  | 't' => some '\t'.toNat
  | _ => none

/-- The code units up to the closing quote; a control character must be escaped. -/
def scanUnits : List Char → Option (List ℕ × List Char)
  | [] => none
  | '"' :: cs => some ([], cs)
  | '\\' :: 'u' :: a :: b :: c :: d :: cs => do
      let n ← hexUnit a b c d
      let (s, rest) ← scanUnits cs
      return (n :: s, rest)
  | '\\' :: e :: cs => do
      let n ← unescape e
      let (s, rest) ← scanUnits cs
      return (n :: s, rest)
  | c :: cs =>
      if c.toNat < 0x20 then none
      else (scanUnits cs).map fun (s, rest) => (c.toNat :: s, rest)

def isHighSurrogate (n : ℕ) : Bool := 0xd800 ≤ n && n < 0xdc00
def isLowSurrogate (n : ℕ) : Bool := 0xdc00 ≤ n && n < 0xe000

/-- The code points of code units: pairs of surrogates are joined. -/
def joinSurrogates : List ℕ → List ℕ
  | [] => []
  | [n] => [n]
  | m :: n :: s =>
      if isHighSurrogate m && isLowSurrogate n then
        (0x10000 + (m - 0xd800) * 0x400 + (n - 0xdc00)) :: joinSurrogates s
      else m :: joinSurrogates (n :: s)

/-- The string behind an opening quote. -/
def scanString (cs : List Char) : Option (List ℕ × List Char) :=
  (scanUnits cs).map fun (s, rest) => (joinSurrogates s, rest)

/-! ## Numbers -/

def isDigit (c : Char) : Bool := '0' ≤ c && c ≤ '9'

def scanInt : List Char → Option (List Char × List Char)
  | [] => none
  | c :: cs =>
      if c = '0' then some (['0'], cs)
      else if isDigit c then some (c :: cs.takeWhile isDigit, cs.dropWhile isDigit)
      else none

def scanSigned : List Char → Option (List Char × List Char)
  | '-' :: cs => (scanInt cs).map fun (int, rest) => ('-' :: int, rest)
  | cs => scanInt cs

/-- A fraction, if a digit follows the point. -/
def scanFrac : List Char → List Char × List Char
  | '.' :: cs =>
      if (cs.takeWhile isDigit).isEmpty then ([], '.' :: cs)
      else ('.' :: cs.takeWhile isDigit, cs.dropWhile isDigit)
  | cs => ([], cs)

def scanSign : List Char → List Char × List Char
  | '+' :: cs => (['+'], cs)
  | '-' :: cs => (['-'], cs)
  | cs => ([], cs)

/-- An exponent, if it has a digit. -/
def scanExp : List Char → List Char × List Char
  | [] => ([], [])
  | e :: cs =>
      if (e == 'e' || e == 'E') && !((scanSign cs).2.takeWhile isDigit).isEmpty then
        (e :: (scanSign cs).1 ++ (scanSign cs).2.takeWhile isDigit,
          (scanSign cs).2.dropWhile isDigit)
      else ([], e :: cs)

def scanNumber (cs : List Char) : Option (Numeral × List Char) :=
  (scanSigned cs).map fun (int, cs) =>
    (⟨int, (scanFrac cs).1, (scanExp (scanFrac cs).2).1⟩, (scanExp (scanFrac cs).2).2)

/-! ## Values -/

/-- A value that is no container. -/
def scalar : List Char → Option (Tree × List Char)
  | '"' :: cs => (scanString cs).map fun (s, rest) => (.str s, rest)
  | 'n' :: 'u' :: 'l' :: 'l' :: cs => some (.null, cs)
  | 't' :: 'r' :: 'u' :: 'e' :: cs => some (.bool true, cs)
  | 'f' :: 'a' :: 'l' :: 's' :: 'e' :: cs => some (.bool false, cs)
  | cs => (scanNumber cs).map fun (n, rest) => (.number n, rest)

section Containers
variable {β : Type} (element : List Char → Option (β × List Char)) (close : Char)

/-- One element or more, up to the closing bracket. -/
def elements : ℕ → List Char → Option (List β × List Char)
  | 0, _ => none
  | n + 1, cs => do
      let (x, cs) ← element cs
      match skipSpace cs with
      | [] => none
      | c :: cs =>
          if c = close then return ([x], cs)
          else if c = ',' then do
            let (xs, cs) ← elements n (skipSpace cs)
            return (x :: xs, cs)
          else none

/-- The elements behind an opening bracket. An element takes a character at least. -/
def container (cs : List Char) : Option (List β × List Char) :=
  match skipSpace cs with
  | [] => none
  | c :: rest =>
      if c = close then some ([], rest) else elements element close cs.length (c :: rest)

end Containers

/-- A name, and the value behind the colon. -/
def member {β : Type} (value : List Char → Option (β × List Char)) :
    List Char → Option ((List ℕ × β) × List Char)
  | '"' :: cs => do
      let (name, cs) ← scanString cs
      match skipSpace cs with
      | ':' :: cs => do
          let (v, cs) ← value (skipSpace cs)
          return ((name, v), cs)
      | _ => none
  | _ => none

/-- The value at the front of a text, with containers nested to the depth. -/
def scan : ℕ → List Char → Option (Tree × List Char)
  | d + 1, '\x7b' :: cs =>
      (container (member (scan d)) '\x7d' cs).map fun (ms, rest) => (.obj ms, rest)
  | d + 1, '[' :: cs =>
      (container (scan d) ']' cs).map fun (items, rest) => (.arr items, rest)
  | _, cs => scalar cs

/-- The value a text is, with space around it and no byte order mark. -/
def parse (depth : ℕ) (cs : List Char) : Option Tree :=
  if cs.head? = some '\ufeff' then none
  else match scan depth (skipSpace cs) with
    | some (v, rest) => if skipSpace rest = [] then some v else none
    | none => none

/-! ## Writing -/

/-- The code units of a character. -/
def utf16 (c : Char) : List ℕ :=
  if c.toNat < 0x10000 then [c.toNat]
  else [0xd800 + (c.toNat - 0x10000) / 0x400, 0xdc00 + (c.toNat - 0x10000) % 0x400]

/-- `\uXXXX`. -/
def escapeUnit (n : ℕ) : List Char :=
  ['\\', 'u', (n / 4096 % 16).digitChar, (n / 256 % 16).digitChar, (n / 16 % 16).digitChar,
    (n % 16).digitChar]

def escapeChar (c : Char) : List Char :=
  if c = '"' then ['\\', '"']
  else if c = '\\' then ['\\', '\\']
  else if c = '\n' then ['\\', 'n']
  else if c = '\r' then ['\\', 'r']
  else if c = '\t' then ['\\', 't']
  else if c = '\x0c' then ['\\', 'f']
  else if c = '\x08' then ['\\', 'b']
  else if ' ' ≤ c && c ≤ '~' then [c]
  else (utf16 c).flatMap escapeUnit

/-- The ASCII text of a string. -/
def quote (s : String) : List Char := '"' :: s.toList.flatMap escapeChar ++ ['"']

/-- The text of members whose values are strings, without space. -/
def dumpMembers : List (String × String) → List Char
  | [] => []
  | [m] => quote m.1 ++ ':' :: quote m.2
  | m :: ms => quote m.1 ++ ':' :: quote m.2 ++ ',' :: dumpMembers ms

/-- The text of an object of strings, without space. -/
def dumpStrings (members : List (String × String)) : List Char :=
  '\x7b' :: dumpMembers members ++ ['\x7d']

def codePoints (s : String) : List ℕ := s.toList.map Char.toNat

/-! ## What follows a value

A value that is read at the front of a text is read as well where the text goes on, since a
string and a container end with their last character, and a number before a character that
is no part of one. -/

section Follow
variable {t u r x : List Char} {s : List ℕ} {n : Numeral} {v : Tree} {d d' : ℕ}

/-- A string ends with its quote, whatever follows. -/
theorem scanUnits_append (h : scanUnits t = some (s, r)) :
    scanUnits (t ++ u) = some (s, r ++ u) := by
  fun_induction scanUnits t generalizing s r with
  | case1 => cases h
  | case2 cs =>
      cases h
      rfl
  | case3 a b c d cs ih =>
      obtain ⟨n, hn, h⟩ := Option.bind_eq_some_iff.mp h
      obtain ⟨⟨s', rest⟩, hrest, h⟩ := Option.bind_eq_some_iff.mp h
      cases h
      simp [scanUnits, hn, ih hrest]
  | case4 e cs hlong ih =>
      obtain ⟨n, hn, h⟩ := Option.bind_eq_some_iff.mp h
      obtain ⟨⟨s', rest⟩, hrest, h⟩ := Option.bind_eq_some_iff.mp h
      cases h
      have hshort : e ≠ 'u' := by
        rintro rfl
        cases hn
      simp [scanUnits, hn, ih hrest, hshort]
  | case5 c cs hquote hlong hshort hcontrol => cases h
  | case6 c cs hquote hlong hshort hcontrol ih =>
      obtain ⟨⟨s', rest⟩, hrest, h⟩ := Option.map_eq_some_iff.mp h
      cases h
      have hbackslash : c ≠ '\\' := by
        rintro rfl
        cases cs with
        | nil => cases hrest
        | cons e cs => exact hshort e cs rfl rfl
      simp [scanUnits, hcontrol, ih hrest, hbackslash]

theorem scanString_append (h : scanString t = some (s, r)) :
    scanString (t ++ u) = some (s, r ++ u) := by
  obtain ⟨⟨units, rest⟩, hunits, h⟩ := Option.map_eq_some_iff.mp h
  cases h
  rw [scanString, scanUnits_append hunits]
  rfl

def isNumberChar (c : Char) : Bool :=
  isDigit c || c == '.' || c == 'e' || c == 'E' || c == '+' || c == '-'

/-- A character follows that no number goes on with. -/
def Stops (r : List Char) : Prop := ∃ c cs, r = c :: cs ∧ isNumberChar c = false

theorem takeWhile_append {p : Char → Bool} (h : t.dropWhile p ≠ []) :
    (t ++ u).takeWhile p = t.takeWhile p ∧ (t ++ u).dropWhile p = t.dropWhile p ++ u := by
  induction t with
  | nil => exact absurd rfl h
  | cons c t ih =>
      cases hc : p c with
      | false => simp [hc]
      | true =>
          have hrest : t.dropWhile p ≠ [] := by simpa [hc] using h
          simp [hc, ih hrest]

theorem scanInt_append (h : scanInt t = some (x, r)) (hr : r ≠ []) :
    scanInt (t ++ u) = some (x, r ++ u) := by
  cases t with
  | nil => cases h
  | cons c cs =>
      simp only [scanInt, List.cons_append] at h ⊢
      split_ifs at h ⊢
      · cases h
        rfl
      · cases h
        rw [(takeWhile_append hr).1, (takeWhile_append hr).2]

theorem scanSigned_append (h : scanSigned t = some (x, r)) (hr : r ≠ []) :
    scanSigned (t ++ u) = some (x, r ++ u) := by
  unfold scanSigned at h
  split at h
  · obtain ⟨⟨int, rest⟩, hint, h⟩ := Option.map_eq_some_iff.mp h
    cases h
    rw [List.cons_append, scanSigned, scanInt_append hint hr]
    rfl
  · rename_i hsign
    have hnil : t ≠ [] := by
      rintro rfl
      cases h
    obtain ⟨c, cs, rfl⟩ := List.exists_cons_of_ne_nil hnil
    rw [← scanInt_append h hr, List.cons_append]
    unfold scanSigned
    split
    · rename_i heq
      cases heq
      exact (hsign cs rfl).elim
    · rfl

theorem scanFrac_append (hr : (scanFrac t).2 ≠ []) (hpoint : (scanFrac t).2.head? ≠ some '.') :
    scanFrac (t ++ u) = ((scanFrac t).1, (scanFrac t).2 ++ u) := by
  cases t with
  | nil => exact absurd rfl hr
  | cons c cs =>
      by_cases hc : c = '.'
      · subst hc
        simp only [scanFrac, List.cons_append] at hr hpoint ⊢
        split_ifs at hr hpoint with hdigits
        · exact absurd rfl hpoint
        · rw [(takeWhile_append hr).1, (takeWhile_append hr).2, if_neg hdigits, if_neg hdigits]
      · simp [scanFrac, hc]

theorem scanSign_append (ht : t ≠ []) :
    scanSign (t ++ u) = ((scanSign t).1, (scanSign t).2 ++ u) := by
  obtain ⟨c, cs, rfl⟩ := List.exists_cons_of_ne_nil ht
  by_cases hplus : c = '+'
  · subst hplus
    rfl
  · by_cases hminus : c = '-'
    · subst hminus
      rfl
    · simp [scanSign, hplus, hminus]

theorem scanExp_append (hr : Stops (scanExp t).2) :
    scanExp (t ++ u) = ((scanExp t).1, (scanExp t).2 ++ u) := by
  cases t with
  | nil =>
      obtain ⟨c, cs, hc, -⟩ := hr
      cases hc
  | cons e cs =>
      simp only [scanExp, List.cons_append] at hr ⊢
      by_cases he : (e == 'e' || e == 'E') = true
      · by_cases hdigits : ((scanSign cs).2.takeWhile isDigit).isEmpty = true
        · -- the exponent character would have to stop the number
          simp only [he, hdigits, Bool.not_true, Bool.and_false, Bool.false_eq_true,
            if_false] at hr
          obtain ⟨c, cs', hc, hstop⟩ := hr
          cases hc
          simp only [isNumberChar] at hstop
          grind
        · simp only [he, hdigits, Bool.true_and, Bool.not_false, if_true] at hr ⊢
          obtain ⟨c, cs', hc, hstop⟩ := hr
          have hrest : (scanSign cs).2.dropWhile isDigit ≠ [] := by
            rw [hc]
            exact List.cons_ne_nil _ _
          have hcs : cs ≠ [] := by
            rintro rfl
            exact hrest rfl
          rw [scanSign_append hcs]
          simp only [(takeWhile_append hrest).1, (takeWhile_append hrest).2, hdigits,
            Bool.not_false, if_true]
      · simp [he]

theorem scanNumber_append (h : scanNumber t = some (n, r)) (hr : Stops r) :
    scanNumber (t ++ u) = some (n, r ++ u) := by
  obtain ⟨⟨int, rest⟩, hint, h⟩ := Option.map_eq_some_iff.mp h
  cases h
  have hexp := scanExp_append (u := u) hr
  obtain ⟨c, cs, hc, hstop⟩ := hr
  have hfrac : (scanFrac rest).2 ≠ [] := by
    intro hnil
    rw [hnil] at hc
    cases hc
  have hpoint : (scanFrac rest).2.head? ≠ some '.' := by
    intro hhead
    obtain ⟨tail, htail⟩ := List.head?_eq_some_iff.mp hhead
    rw [htail] at hc
    cases hc
    cases hstop
  have hrest : rest ≠ [] := by
    rintro rfl
    exact hfrac rfl
  simp only [scanNumber, scanSigned_append hint hrest, Option.map_some,
    scanFrac_append hfrac hpoint, hexp]

/-- What may follow a value for it to be read alike: nothing, or a character that stops a
number. -/
def Follows (r u : List Char) : Prop := u = [] ∨ Stops r

theorem scalar_number {c : Char} {cs : List Char} (hc : isNumberChar c = true) :
    scalar (c :: cs) = (scanNumber (c :: cs)).map fun (n, rest) => (.number n, rest) := by
  unfold scalar
  split
  · rename_i heq
    cases heq
    cases hc
  · rename_i heq
    cases heq
    cases hc
  · rename_i heq
    cases heq
    cases hc
  · rename_i heq
    cases heq
    cases hc
  · rfl

theorem scanInt_number {c : Char} {cs : List Char} (h : scanInt (c :: cs) = some (x, r)) :
    isNumberChar c = true := by
  simp only [scanInt] at h
  split_ifs at h with hzero hdigit
  · rw [hzero]
    rfl
  · simp [isNumberChar, hdigit]

theorem scanNumber_number {c : Char} {cs : List Char} (h : scanNumber (c :: cs) = some (n, r)) :
    isNumberChar c = true := by
  obtain ⟨⟨int, rest⟩, hint, -⟩ := Option.map_eq_some_iff.mp h
  unfold scanSigned at hint
  split at hint
  · rename_i heq
    cases heq
    rfl
  · exact scanInt_number hint

theorem scalar_append (h : scalar t = some (v, r)) (hr : Follows r u) :
    scalar (t ++ u) = some (v, r ++ u) := by
  rcases hr with rfl | hr
  · rw [List.append_nil, List.append_nil, h]
  · unfold scalar at h
    split at h
    · obtain ⟨⟨s, rest⟩, hs, h⟩ := Option.map_eq_some_iff.mp h
      cases h
      rw [List.cons_append, scalar, scanString_append hs]
      rfl
    · cases h
      rfl
    · cases h
      rfl
    · cases h
      rfl
    · obtain ⟨⟨n, rest⟩, hn, h⟩ := Option.map_eq_some_iff.mp h
      cases h
      cases t with
      | nil => cases hn
      | cons c cs =>
          rw [List.cons_append, scalar_number (scanNumber_number hn), ← List.cons_append,
            scanNumber_append hn hr]
          rfl

theorem skipSpace_append (h : skipSpace t ≠ []) : skipSpace (t ++ u) = skipSpace t ++ u :=
  (takeWhile_append h).2

/-- A bracket, a comma or a space stops a number. -/
theorem stops_of_skipSpace {c : Char} (h : skipSpace r = c :: x) (hc : isNumberChar c = false) :
    Stops r := by
  cases r with
  | nil => cases h
  | cons b r =>
      cases hb : isSpace b with
      | true =>
          refine ⟨b, r, rfl, ?_⟩
          simp only [isSpace, Bool.or_eq_true, beq_iff_eq] at hb
          rcases hb with ((rfl | rfl) | rfl) | rfl <;> rfl
      | false =>
          rw [skipSpace, List.dropWhile_cons, hb, if_neg Bool.false_ne_true] at h
          cases h
          exact ⟨_, _, rfl, hc⟩

theorem skipSpace_append_cons {c : Char} (h : skipSpace t = c :: x) :
    skipSpace (t ++ u) = c :: (x ++ u) := by
  rw [skipSpace_append (by rw [h]; exact List.cons_ne_nil c x), h, List.cons_append]

/-- A reader of what another one reads, also where the text goes on. -/
structure Extends {β : Type} (element element' : List Char → Option (β × List Char))
    (u : List Char) : Prop where
  nil : element [] = none
  append : ∀ {t y r}, element t = some (y, r) → Follows r u →
    element' (t ++ u) = some (y, r ++ u)

theorem Extends.skipSpace {β : Type} {element element' : List Char → Option (β × List Char)}
    {y : β} (h : Extends element element' u) (hr : Follows r u)
    (hy : element (skipSpace t) = some (y, r)) :
    element' (JsonText.skipSpace (t ++ u)) = some (y, r ++ u) := by
  have hne : JsonText.skipSpace t ≠ [] := by
    intro hnil
    rw [hnil, h.nil] at hy
    cases hy
  rw [skipSpace_append hne]
  exact h.append hy hr

section Readers
variable {β : Type} {element element' : List Char → Option (β × List Char)} {close : Char}
  {ys : List β} {m n : ℕ}

theorem elements_append (helement : Extends element element' u)
    (hclose : isNumberChar close = false) (hm : m ≤ n)
    (h : elements element close m t = some (ys, r)) :
    elements element' close n (t ++ u) = some (ys, r ++ u) := by
  induction m generalizing n t ys r with
  | zero => cases h
  | succ m ih =>
      cases n with
      | zero => cases hm
      | succ n =>
          obtain ⟨⟨y, rest⟩, hy, h⟩ := Option.bind_eq_some_iff.mp h
          dsimp only at h
          split at h
          · cases h
          · rename_i c cs hspace
            have hrest := skipSpace_append_cons (u := u) hspace
            split_ifs at h with hend hcomma
            · cases h
              have hy' := helement.append hy (.inr (stops_of_skipSpace hspace (hend ▸ hclose)))
              simp [elements, hy', hrest, hend]
            · obtain ⟨⟨ys', rest'⟩, hys, h⟩ := Option.bind_eq_some_iff.mp h
              cases h
              have hy' := helement.append hy
                (.inr (stops_of_skipSpace hspace (by rw [hcomma]; rfl)))
              have hne : JsonText.skipSpace cs ≠ [] := by
                intro hnil
                rw [hnil] at hys
                cases m with
                | zero => cases hys
                | succ m => simp [elements, helement.nil] at hys
              have hys' := ih (Nat.le_of_succ_le_succ hm) hys
              rw [← skipSpace_append hne] at hys'
              subst hcomma
              simp [elements, hy', hrest, hend, hys']

theorem container_append (helement : Extends element element' u)
    (hclose : isNumberChar close = false) (h : container element close t = some (ys, r)) :
    container element' close (t ++ u) = some (ys, r ++ u) := by
  unfold container at h ⊢
  split at h
  · cases h
  · rename_i c rest hspace
    rw [skipSpace_append_cons hspace]
    dsimp only
    split_ifs at h ⊢ with hc
    · cases h
      rfl
    · rw [← List.cons_append]
      exact elements_append helement hclose (by simp) h

theorem member_extends (hvalue : Extends element element' u) :
    Extends (member element) (member element') u := by
  refine ⟨rfl, fun {t y r} h hr => ?_⟩
  unfold member at h
  split at h
  · obtain ⟨⟨name, rest⟩, hname, h⟩ := Option.bind_eq_some_iff.mp h
    dsimp only at h
    split at h
    · rename_i cs hcolon
      obtain ⟨⟨v, rest'⟩, hv, h⟩ := Option.bind_eq_some_iff.mp h
      cases h
      simp [member, scanString_append hname, skipSpace_append_cons hcolon,
        hvalue.skipSpace hr hv]
    · cases h
  · cases h

end Readers

/-- A scalar begins with no bracket. -/
theorem scalar_spec (h : scalar t = some (v, r)) :
    (∀ cs, t ≠ '\x7b' :: cs) ∧ (∀ cs, t ≠ '[' :: cs) ∧ ∀ ms, v ≠ .obj ms := by
  unfold scalar at h
  split at h
  · obtain ⟨_, -, h⟩ := Option.map_eq_some_iff.mp h
    cases h
    exact ⟨nofun, nofun, nofun⟩
  · cases h
    exact ⟨nofun, nofun, nofun⟩
  · cases h
    exact ⟨nofun, nofun, nofun⟩
  · cases h
    exact ⟨nofun, nofun, nofun⟩
  · obtain ⟨⟨n, rest⟩, hn, h⟩ := Option.map_eq_some_iff.mp h
    cases h
    refine ⟨?_, ?_, nofun⟩
    · rintro cs rfl
      exact absurd (scanNumber_number hn) (by decide)
    · rintro cs rfl
      exact absurd (scanNumber_number hn) (by decide)

theorem scan_of_scalar (h : scalar t = some (v, r)) (d : ℕ) : scan d t = some (v, r) := by
  obtain ⟨hobject, harray, -⟩ := scalar_spec h
  unfold scan
  split
  · exact (hobject _ rfl).elim
  · exact (harray _ rfl).elim
  · exact h

/-- What a reader finds: an object, an array or a scalar. -/
theorem scan_cases (h : scan d t = some (v, r)) :
    (∃ e cs ms, d = e + 1 ∧ t = '\x7b' :: cs ∧ v = .obj ms ∧
      container (member (scan e)) '\x7d' cs = some (ms, r)) ∨
    (∃ e cs items, d = e + 1 ∧ t = '[' :: cs ∧ v = .arr items ∧
      container (scan e) ']' cs = some (items, r)) ∨
    scalar t = some (v, r) := by
  unfold scan at h
  split at h
  · obtain ⟨⟨ms, rest⟩, hms, h⟩ := Option.map_eq_some_iff.mp h
    cases h
    exact .inl ⟨_, _, _, rfl, rfl, rfl, hms⟩
  · obtain ⟨⟨items, rest⟩, hitems, h⟩ := Option.map_eq_some_iff.mp h
    cases h
    exact .inr (.inl ⟨_, _, _, rfl, rfl, rfl, hitems⟩)
  · exact .inr (.inr h)

/-- Deeper readers read the same, also where the text goes on. -/
theorem scan_extends (hd : d ≤ d') (u : List Char) : Extends (scan d) (scan d') u := by
  induction d generalizing d' with
  | zero =>
      refine ⟨rfl, fun {t v r} h hr => ?_⟩
      rcases scan_cases h with ⟨e, _, _, hzero, -⟩ | ⟨e, _, _, hzero, -⟩ | hscalar
      · cases hzero
      · cases hzero
      · exact scan_of_scalar (scalar_append hscalar hr) d'
  | succ d ih =>
      refine ⟨rfl, fun {t v r} h hr => ?_⟩
      obtain ⟨d', rfl⟩ := Nat.exists_eq_add_of_le' (Nat.le_trans (Nat.succ_le_succ d.zero_le) hd)
      have hinner := ih (Nat.le_of_succ_le_succ hd)
      rcases scan_cases h with ⟨e, cs, ms, hsucc, rfl, rfl, hms⟩ |
        ⟨e, cs, items, hsucc, rfl, rfl, hitems⟩ | hscalar
      · cases hsucc
        rw [List.cons_append, scan, container_append (member_extends hinner) rfl hms]
        rfl
      · cases hsucc
        rw [List.cons_append, scan, container_append hinner rfl hitems]
        rfl
      · exact scan_of_scalar (scalar_append hscalar hr) _

/-- An object ends with its last character, whatever follows. -/
theorem scan_object_append {ms : List (List ℕ × Tree)} (hd : d ≤ d')
    (h : scan d t = some (.obj ms, r)) : scan d' (t ++ u) = some (.obj ms, r ++ u) := by
  rcases scan_cases h with ⟨e, cs, ms, rfl, rfl, hobj, hms⟩ |
    ⟨e, cs, items, rfl, rfl, harr, hitems⟩ | hscalar
  · cases hobj
    obtain ⟨d', rfl⟩ := Nat.exists_eq_add_of_le' (Nat.le_trans (Nat.succ_le_succ e.zero_le) hd)
    rw [List.cons_append, scan, container_append
      (member_extends (scan_extends (Nat.le_of_succ_le_succ hd) u)) rfl hms]
    rfl
  · cases harr
  · exact ((scalar_spec hscalar).2.2 _ rfl).elim

end Follow

/-! ## Strings that were written -/

section Quote
variable {rest : List Char} {n : ℕ} {c : Char}

theorem hexValue_digitChar : ∀ n < 16, hexValue n.digitChar = some n := by decide

theorem hexUnit_digitChar (hn : n < 0x10000) :
    hexUnit (n / 4096 % 16).digitChar (n / 256 % 16).digitChar (n / 16 % 16).digitChar
      (n % 16).digitChar = some n := by
  have hdigit : ∀ m, hexValue (m % 16).digitChar = some (m % 16) :=
    fun m => hexValue_digitChar _ (Nat.mod_lt m (by decide))
  have hunit : (((n / 4096 % 16) * 16 + n / 256 % 16) * 16 + n / 16 % 16) * 16 + n % 16 = n := by
    omega
  simp [hexUnit, hdigit, hunit]

theorem scanUnits_escapeUnit (hn : n < 0x10000) : scanUnits (escapeUnit n ++ rest) =
    (scanUnits rest).map fun (s, rest) => (n :: s, rest) := by
  simp only [escapeUnit, List.cons_append, List.nil_append, scanUnits, hexUnit_digitChar hn]
  cases scanUnits rest <;> rfl

theorem scanUnits_escapeUnits {ns : List ℕ} (hns : ∀ n ∈ ns, n < 0x10000) :
    scanUnits (ns.flatMap escapeUnit ++ rest) =
      (scanUnits rest).map fun (s, rest) => (ns ++ s, rest) := by
  induction ns with
  | nil => simp
  | cons n ns ih =>
      rw [List.flatMap_cons, List.append_assoc, scanUnits_escapeUnit (hns n (by simp)),
        ih fun m hm => hns m (by simp [hm]), Option.map_map]
      rfl

/-- A character is no surrogate. -/
theorem toNat_valid (c : Char) : c.toNat < 0xd800 ∨ 0xdfff < c.toNat ∧ c.toNat < 0x110000 :=
  c.valid

theorem utf16_lt : ∀ n ∈ utf16 c, n < 0x10000 := by
  intro n hn
  have hvalid := toNat_valid c
  unfold utf16 at hn
  split_ifs at hn with hc
  · simp only [List.mem_singleton] at hn
    omega
  · simp only [List.mem_cons, List.not_mem_nil, or_false] at hn
    omega

/-- A printable character other than the quote and the backslash stands for itself. -/
theorem scanUnits_printable (hc : ¬ c.toNat < 0x20) (hquote : c ≠ '"') (hbackslash : c ≠ '\\') :
    scanUnits (c :: rest) = (scanUnits rest).map fun (s, rest) => (c.toNat :: s, rest) := by
  rw [scanUnits]
  · exact if_neg hc
  · exact hquote
  · exact fun _ _ _ _ _ h _ => hbackslash h
  · exact fun _ _ h _ => hbackslash h

theorem scanUnits_escapeChar : scanUnits (escapeChar c ++ rest) =
    (scanUnits rest).map fun (s, rest) => (utf16 c ++ s, rest) := by
  have hshort : ∀ e, unescape e = some c.toNat → utf16 c = [c.toNat] →
      scanUnits (['\\', e] ++ rest) =
        (scanUnits rest).map fun (s, rest) => (utf16 c ++ s, rest) := by
    intro e he hunits
    have hlong : e ≠ 'u' := by
      rintro rfl
      cases he
    simp only [List.cons_append, List.nil_append, hunits]
    rw [scanUnits]
    · rw [he]
      cases scanUnits rest <;> rfl
    · exact fun _ _ _ _ _ h _ => hlong h
  unfold escapeChar
  split_ifs with hquote hbackslash hnewline hreturn htab hform hback hprint
  · exact hshort '"' (by rw [hquote]; rfl) (by rw [hquote]; rfl)
  · exact hshort '\\' (by rw [hbackslash]; rfl) (by rw [hbackslash]; rfl)
  · exact hshort 'n' (by rw [hnewline]; rfl) (by rw [hnewline]; rfl)
  · exact hshort 'r' (by rw [hreturn]; rfl) (by rw [hreturn]; rfl)
  · exact hshort 't' (by rw [htab]; rfl) (by rw [htab]; rfl)
  · exact hshort 'f' (by rw [hform]; rfl) (by rw [hform]; rfl)
  · exact hshort 'b' (by rw [hback]; rfl) (by rw [hback]; rfl)
  · simp only [Bool.and_eq_true, decide_eq_true_eq] at hprint
    have hlow : (0x20 : ℕ) ≤ c.toNat := hprint.1
    have hhigh : c.toNat ≤ 0x7e := hprint.2
    have hunits : utf16 c = [c.toNat] := if_pos (by omega)
    rw [hunits, List.cons_append, List.nil_append,
      scanUnits_printable (by omega) hquote hbackslash]
    rfl
  · exact scanUnits_escapeUnits utf16_lt

/-- The code units of characters are joined to their code points. -/
theorem joinSurrogates_utf16 (cs : List Char) :
    joinSurrogates (cs.flatMap utf16) = cs.map Char.toNat := by
  induction cs with
  | nil => rfl
  | cons c cs ih =>
      have hvalid := toNat_valid c
      rw [List.flatMap_cons, List.map_cons, ← ih]
      generalize cs.flatMap utf16 = ns
      unfold utf16
      split_ifs with hc
      · have hhigh : isHighSurrogate c.toNat = false := by
          simp only [isHighSurrogate, Bool.and_eq_false_iff, decide_eq_false_iff_not]
          omega
        cases ns with
        | nil => rfl
        | cons n ns => simp [joinSurrogates, hhigh]
      · have hhigh : isHighSurrogate (0xd800 + (c.toNat - 0x10000) / 0x400) = true := by
          simp only [isHighSurrogate, Bool.and_eq_true, decide_eq_true_eq]
          omega
        have hlow : isLowSurrogate (0xdc00 + (c.toNat - 0x10000) % 0x400) = true := by
          simp only [isLowSurrogate, Bool.and_eq_true, decide_eq_true_eq]
          omega
        have hjoined : 0x10000 + (0xd800 + (c.toNat - 0x10000) / 0x400 - 0xd800) * 0x400 +
            (0xdc00 + (c.toNat - 0x10000) % 0x400 - 0xdc00) = c.toNat := by
          omega
        simp only [List.cons_append, List.nil_append, joinSurrogates, hhigh, hlow, Bool.and_self,
          if_true, hjoined]

/-- A quoted string is read as its code points. -/
theorem scanString_quote (s : String) :
    scanString (s.toList.flatMap escapeChar ++ '"' :: rest) = some (codePoints s, rest) := by
  have hunits : ∀ cs : List Char, scanUnits (cs.flatMap escapeChar ++ '"' :: rest) =
      some (cs.flatMap utf16, rest) := by
    intro cs
    induction cs with
    | nil => rfl
    | cons c cs ih =>
        rw [List.flatMap_cons, List.append_assoc, scanUnits_escapeChar, ih, List.flatMap_cons]
        rfl
  simp only [scanString, hunits, Option.map_some, joinSurrogates_utf16, codePoints]

end Quote

/-! ## Fuel

Every reader takes a character at least, so the number of characters is fuel enough. -/

/-- What a reader leaves is shorter than what it was given. -/
def Consumes {β : Type} (element : List Char → Option (β × List Char)) : Prop :=
  ∀ {t y r}, element t = some (y, r) → r.length < t.length

section Fuel
variable {β : Type} {element : List Char → Option (β × List Char)} {close : Char} {t : List Char}

theorem length_dropWhile_le (p : Char → Bool) (cs : List Char) :
    (cs.dropWhile p).length ≤ cs.length := (List.dropWhile_sublist p).length_le

theorem length_skipSpace_le (cs : List Char) : (skipSpace cs).length ≤ cs.length :=
  length_dropWhile_le isSpace cs

theorem scanUnits_consumes : Consumes scanUnits := by
  intro t s r h
  fun_induction scanUnits t generalizing s r with
  | case1 => cases h
  | case2 cs =>
      cases h
      exact Nat.lt_succ_self _
  | case3 a b c d cs ih =>
      obtain ⟨n, -, h⟩ := Option.bind_eq_some_iff.mp h
      obtain ⟨⟨s', rest⟩, hrest, h⟩ := Option.bind_eq_some_iff.mp h
      cases h
      have := ih hrest
      simp only [List.length_cons]
      omega
  | case4 e cs hlong ih =>
      obtain ⟨n, -, h⟩ := Option.bind_eq_some_iff.mp h
      obtain ⟨⟨s', rest⟩, hrest, h⟩ := Option.bind_eq_some_iff.mp h
      cases h
      have := ih hrest
      simp only [List.length_cons]
      omega
  | case5 c cs hquote hlong hshort hcontrol => cases h
  | case6 c cs hquote hlong hshort hcontrol ih =>
      obtain ⟨⟨s', rest⟩, hrest, h⟩ := Option.map_eq_some_iff.mp h
      cases h
      exact Nat.lt_succ_of_lt (ih hrest)

theorem scanString_consumes : Consumes scanString := by
  intro t s r h
  obtain ⟨⟨units, rest⟩, hunits, h⟩ := Option.map_eq_some_iff.mp h
  cases h
  exact scanUnits_consumes hunits

theorem scanSigned_consumes : Consumes scanSigned := by
  have hint : Consumes scanInt := by
    intro t x r h
    unfold scanInt at h
    split at h
    · cases h
    · split_ifs at h
      · cases h
        exact Nat.lt_succ_self _
      · cases h
        exact Nat.lt_succ_of_le (length_dropWhile_le ..)
  intro t x r h
  unfold scanSigned at h
  split at h
  · obtain ⟨⟨int, rest⟩, hrest, h⟩ := Option.map_eq_some_iff.mp h
    cases h
    exact Nat.lt_succ_of_lt (hint hrest)
  · exact hint h

theorem length_scanFrac_le (t : List Char) : (scanFrac t).2.length ≤ t.length := by
  unfold scanFrac
  split
  · split
    · exact Nat.le_refl _
    · exact Nat.le_succ_of_le (length_dropWhile_le ..)
  · exact Nat.le_refl _

theorem length_scanExp_le (t : List Char) : (scanExp t).2.length ≤ t.length := by
  have hsign : ∀ cs, (scanSign cs).2.length ≤ cs.length := by
    intro cs
    unfold scanSign
    split <;> simp
  cases t with
  | nil => exact Nat.le_refl _
  | cons e cs =>
      rw [scanExp]
      split
      · exact Nat.le_succ_of_le (Nat.le_trans (length_dropWhile_le ..) (hsign cs))
      · exact Nat.le_refl _

theorem scalar_consumes : Consumes scalar := by
  intro t v r h
  unfold scalar at h
  split at h
  · obtain ⟨⟨s, rest⟩, hs, h⟩ := Option.map_eq_some_iff.mp h
    cases h
    exact Nat.lt_succ_of_lt (scanString_consumes hs)
  · cases h
    simp only [List.length_cons]
    omega
  · cases h
    simp only [List.length_cons]
    omega
  · cases h
    simp only [List.length_cons]
    omega
  · obtain ⟨⟨n, rest⟩, hn, h⟩ := Option.map_eq_some_iff.mp h
    cases h
    obtain ⟨⟨int, rest'⟩, hint, h⟩ := Option.map_eq_some_iff.mp hn
    cases h
    exact Nat.lt_of_le_of_lt (Nat.le_trans (length_scanExp_le _) (length_scanFrac_le _))
      (scanSigned_consumes hint)

theorem elements_consumes {n : ℕ} (helement : Consumes element) :
    Consumes (elements element close n) := by
  induction n with
  | zero => exact nofun
  | succ n ih =>
      intro t ys r h
      obtain ⟨⟨y, rest⟩, hy, h⟩ := Option.bind_eq_some_iff.mp h
      have hrest := helement hy
      have hspace := length_skipSpace_le rest
      dsimp only at h
      split at h
      · cases h
      · rename_i c cs hcs
        rw [hcs, List.length_cons] at hspace
        split_ifs at h
        · cases h
          omega
        · obtain ⟨⟨ys', rest'⟩, hys, h⟩ := Option.bind_eq_some_iff.mp h
          cases h
          have := ih hys
          have := length_skipSpace_le cs
          dsimp only at this ⊢
          omega

theorem container_consumes (helement : Consumes element) :
    Consumes (container element close) := by
  intro t ys r h
  have hspace := length_skipSpace_le t
  unfold container at h
  split at h
  · cases h
  · rename_i c rest hrest
    rw [hrest] at hspace
    split_ifs at h
    · cases h
      exact Nat.lt_of_succ_le hspace
    · exact Nat.lt_of_lt_of_le (elements_consumes helement h) hspace

theorem member_consumes (hvalue : Consumes element) : Consumes (member element) := by
  intro t y r h
  unfold member at h
  split at h
  · rename_i cs
    obtain ⟨⟨name, rest⟩, hname, h⟩ := Option.bind_eq_some_iff.mp h
    have hrest := scanString_consumes hname
    have hspace := length_skipSpace_le rest
    dsimp only at h
    split at h
    · rename_i cs' hcolon
      rw [hcolon, List.length_cons] at hspace
      obtain ⟨⟨v, rest'⟩, hv, h⟩ := Option.bind_eq_some_iff.mp h
      cases h
      have := hvalue hv
      have := length_skipSpace_le cs'
      simp only [List.length_cons]
      omega
    · cases h
  · cases h

theorem scan_consumes (d : ℕ) : Consumes (scan d) := by
  induction d with
  | zero =>
      intro t v r h
      rcases scan_cases h with ⟨_, _, _, hzero, -⟩ | ⟨_, _, _, hzero, -⟩ | hscalar
      · cases hzero
      · cases hzero
      · exact scalar_consumes hscalar
  | succ d ih =>
      intro t v r h
      rcases scan_cases h with ⟨e, cs, ms, hsucc, rfl, -, hms⟩ |
        ⟨e, cs, items, hsucc, rfl, -, hitems⟩ | hscalar
      · cases hsucc
        exact Nat.lt_succ_of_lt (container_consumes (member_consumes ih) hms)
      · cases hsucc
        exact Nat.lt_succ_of_lt (container_consumes ih hitems)
      · exact scalar_consumes hscalar

/-- More fuel than the characters of the text makes no difference. -/
theorem elements_fuel (helement : Consumes element) {n : ℕ} (hn : t.length ≤ n) :
    elements element close n t = elements element close t.length t := by
  have hstep : ∀ n (t : List Char), t.length ≤ n →
      elements element close (n + 1) t = elements element close n t := by
    intro n
    induction n with
    | zero =>
        intro t ht
        obtain rfl := List.length_eq_zero_iff.mp (Nat.le_zero.mp ht)
        cases hnil : element [] with
        | none => simp [elements, hnil]
        | some found => exact absurd (helement hnil) (Nat.not_lt_zero _)
    | succ n ih =>
        intro t ht
        rw [elements, elements]
        cases hy : element t with
        | none => rfl
        | some found =>
            obtain ⟨y, rest⟩ := found
            have hrest := helement hy
            have hspace := length_skipSpace_le rest
            simp only [Option.bind_eq_bind, Option.bind_some]
            cases hcs : skipSpace rest with
            | nil => rfl
            | cons c cs =>
                rw [hcs, List.length_cons] at hspace
                have := length_skipSpace_le cs
                simp only [ih (skipSpace cs) (by omega)]
  induction hn with
  | refl => rfl
  | step hle ih => rw [hstep _ t hle, ih]

/-- So a container is read alike with any fuel that suffices. -/
theorem container_fuel (helement : Consumes element) {n : ℕ} (hn : t.length ≤ n) :
    container element close t = match skipSpace t with
      | [] => none
      | c :: rest =>
          if c = close then some ([], rest) else elements element close n (c :: rest) := by
  unfold container
  have hspace := length_skipSpace_le t
  cases hrest : skipSpace t with
  | nil => rfl
  | cons c rest =>
      rw [hrest] at hspace
      dsimp only
      rw [elements_fuel helement hspace, elements_fuel helement (Nat.le_trans hspace hn)]

end Fuel

/-! ## Whole texts -/

section Parse
variable {cs t r : List Char} {v v' : Tree} {d d' n : ℕ} {ms : List (List ℕ × Tree)}

theorem parse_eq_some : parse d cs = some v ↔ cs.head? ≠ some '\ufeff' ∧
    ∃ r, scan d (skipSpace cs) = some (v, r) ∧ skipSpace r = [] := by
  unfold parse
  by_cases hmark : cs.head? = some '\ufeff'
  · simp [hmark]
  · rw [if_neg hmark]
    cases hscan : scan d (skipSpace cs) with
    | none => simp
    | some found =>
        obtain ⟨v', rest⟩ := found
        simp only [Option.some.injEq, Prod.mk.injEq, ne_eq, hmark, not_false_eq_true, true_and]
        constructor
        · intro h
          split at h
          · cases h
            exact ⟨rest, ⟨rfl, rfl⟩, ‹_›⟩
          · cases h
        · rintro ⟨_, ⟨rfl, rfl⟩, hrest⟩
          rw [if_pos hrest]

theorem scan_mono (hd : d ≤ d') (h : scan d t = some (v, r)) : scan d' t = some (v, r) := by
  simpa using (scan_extends hd []).append h (.inl rfl)

/-- A deeper reader reads the same value. -/
theorem parse_mono (hd : d ≤ d') (h : parse d cs = some v) : parse d' cs = some v := by
  obtain ⟨hmark, r, hscan, hr⟩ := parse_eq_some.mp h
  exact parse_eq_some.mpr ⟨hmark, r, scan_mono hd hscan, hr⟩

/-- Two readers of a text do not read different values. -/
theorem parse_unique (h : parse d cs = some v) (h' : parse d' cs = some v') : v = v' := by
  have hmax := parse_mono (Nat.le_max_left d d') h
  rw [parse_mono (Nat.le_max_right d d') h'] at hmax
  exact (Option.some.inj hmax).symm

/-! ## Objects with a spliced member -/

/-- The text of an object of strings, with a last member whose value is a text. -/
def splice (members : List (String × String)) (name : String) (raw : List Char) : List Char :=
  (dumpStrings members).dropLast ++ ',' :: quote name ++ ':' :: raw ++ ['\x7d']

/-- The members of an object of strings. -/
def stringMembers (members : List (String × String)) : List (List ℕ × Tree) :=
  members.map fun m => (codePoints m.1, .str (codePoints m.2))

theorem member_quote {β : Type} {value : List Char → Option (β × List Char)} {name : String}
    {y : β} (h : value (skipSpace t) = some (y, r)) :
    member value (quote name ++ ':' :: t) = some ((codePoints name, y), r) := by
  have hname : scanString (name.toList.flatMap escapeChar ++ '"' :: ':' :: t) =
      some (codePoints name, ':' :: t) := scanString_quote name
  have hcolon : skipSpace (':' :: t) = ':' :: t := rfl
  simp [quote, member, hname, hcolon, h]

theorem scan_quote {s : String} : scan d (quote s ++ r) = some (.str (codePoints s), r) := by
  refine scan_of_scalar ?_ d
  simp [quote, scalar, scanString_quote s]

theorem dumpMembers_cons (m : String × String) (members : List (String × String)) :
    ∃ t, dumpMembers (m :: members) = '"' :: t := by
  cases members <;> exact ⟨_, rfl⟩

/-- A member that is a string comes before those of the text that follows it. -/
theorem elements_quote {m : String × String} :
    elements (member (scan d)) '\x7d' (n + 1)
        (quote m.1 ++ ':' :: quote m.2 ++ ',' :: '"' :: t) =
      (elements (member (scan d)) '\x7d' n ('"' :: t)).map
        fun (ms, r) => ((codePoints m.1, .str (codePoints m.2)) :: ms, r) := by
  have hvalue : scan d (skipSpace (quote m.2 ++ ',' :: '"' :: t)) =
      some (.str (codePoints m.2), ',' :: '"' :: t) := scan_quote
  have hmember : member (scan d) (quote m.1 ++ ':' :: (quote m.2 ++ ',' :: '"' :: t)) =
      some ((codePoints m.1, .str (codePoints m.2)), ',' :: '"' :: t) := member_quote hvalue
  have hcomma : skipSpace (',' :: '"' :: t) = ',' :: '"' :: t := rfl
  have hquote : skipSpace ('"' :: t) = '"' :: t := rfl
  rw [List.append_assoc, List.cons_append, elements, hmember]
  simp only [Option.bind_eq_bind, Option.bind_some, hcomma, hquote]
  rw [if_neg (by decide), if_pos trivial]
  cases elements (member (scan d)) '\x7d' n ('"' :: t) <;> rfl

theorem elements_dumpMembers {members : List (String × String)} (hne : members ≠ []) :
    elements (member (scan d)) '\x7d' (n + members.length)
        (dumpMembers members ++ ',' :: '"' :: t) =
      (elements (member (scan d)) '\x7d' n ('"' :: t)).map
        fun (ms, r) => (stringMembers members ++ ms, r) := by
  induction members with
  | nil => exact absurd rfl hne
  | cons m members ih =>
      cases members with
      | nil => exact elements_quote
      | cons m' members =>
          obtain ⟨t', ht'⟩ := dumpMembers_cons m' members
          have htail := ih (List.cons_ne_nil _ _)
          rw [ht'] at htail
          have hstep := elements_quote (d := d) (n := n + (m' :: members).length) (m := m)
            (t := t' ++ ',' :: '"' :: t)
          rw [List.cons_append] at htail
          rw [htail, Option.map_map] at hstep
          have hdump : dumpMembers (m :: m' :: members) =
              quote m.1 ++ ':' :: quote m.2 ++ ',' :: dumpMembers (m' :: members) := rfl
          rw [hdump, ht']
          simpa [stringMembers, Function.comp_def, Nat.add_assoc] using hstep

/-- Behind the last member stands the closing bracket, and space at most before it. -/
theorem skipSpace_close (h : skipSpace r = []) : skipSpace (r ++ ['\x7d']) = ['\x7d'] := by
  unfold skipSpace at h ⊢
  rw [List.dropWhile_append, h]
  rfl

/-- An object text spliced into an object of strings is the value of one member more, and
changes none of the others. -/
theorem parse_splice {members : List (String × String)} {name : String} (hne : members ≠ [])
    (hd : d < d') (h : parse d cs = some (.obj ms)) :
    parse d' (splice members name cs) =
      some (.obj (stringMembers members ++ [(codePoints name, .obj ms)])) := by
  obtain ⟨-, r, hscan, hr⟩ := parse_eq_some.mp h
  obtain ⟨e, rfl⟩ := Nat.exists_eq_add_of_lt hd
  -- the last member
  have hspace : skipSpace (cs ++ ['\x7d']) = skipSpace cs ++ ['\x7d'] := by
    refine skipSpace_append fun hnil => ?_
    rw [hnil, (scan_extends (Nat.le_refl d) []).nil] at hscan
    cases hscan
  have hlast : member (scan (d + e)) (quote name ++ ':' :: (cs ++ ['\x7d'])) =
      some ((codePoints name, .obj ms), r ++ ['\x7d']) := by
    refine member_quote ?_
    rw [hspace]
    exact scan_object_append (Nat.le_add_right d e) hscan
  obtain ⟨t, ht⟩ : ∃ t, quote name ++ ':' :: (cs ++ ['\x7d']) = '"' :: t := ⟨_, rfl⟩
  rw [ht] at hlast
  have hend : ∀ n, elements (member (scan (d + e))) '\x7d' (n + 1) ('"' :: t) =
      some ([(codePoints name, .obj ms)], []) := fun n => by
    simp [elements, hlast, skipSpace_close hr]
  -- all members, with enough fuel
  have htext : splice members name cs = '\x7b' :: (dumpMembers members ++ ',' :: '"' :: t) := by
    have hdrop : (dumpStrings members).dropLast = '\x7b' :: dumpMembers members := by
      rw [dumpStrings]
      exact List.dropLast_concat
    rw [splice, hdrop, ← ht]
    simp
  have hcontainer : container (member (scan (d + e))) '\x7d'
      (dumpMembers members ++ ',' :: '"' :: t) =
        some (stringMembers members ++ [(codePoints name, .obj ms)], []) := by
    have hall := elements_dumpMembers (d := d + e)
      (n := (dumpMembers members ++ ',' :: '"' :: t).length + 1) (t := t) hne
    rw [hend, Option.map_some] at hall
    rw [container_fuel (member_consumes (scan_consumes (d + e)))
      (Nat.le_trans (Nat.le_succ _) (Nat.le_add_right _ members.length))]
    obtain ⟨m, members', rfl⟩ := List.exists_cons_of_ne_nil hne
    obtain ⟨t', ht'⟩ := dumpMembers_cons m members'
    rw [ht', List.cons_append] at hall ⊢
    exact hall
  refine parse_eq_some.mpr ⟨by rw [htext]; exact nofun, [], ?_, rfl⟩
  have hbrace : skipSpace (splice members name cs) = splice members name cs := by
    rw [htext]
    rfl
  rw [hbrace, htext, scan, hcontainer]
  rfl

end Parse

section Front
variable {cs t x : List Char} {d : ℕ} {ms : List (List ℕ × Tree)}

/-- A space, a bracket of an object, or a quote. -/
def isFront (c : Char) : Bool := isSpace c || c == '\x7b' || c == '\x7d' || c == '"'

theorem front_of_skipSpace {c : Char} (h : skipSpace t = c :: x) (hc : isFront c = true) :
    ∃ b t', t = b :: t' ∧ isFront b = true := by
  cases t with
  | nil => cases h
  | cons b t =>
      cases hb : isSpace b with
      | true => exact ⟨b, t, rfl, by simp [isFront, hb]⟩
      | false =>
          rw [skipSpace, List.dropWhile_cons, hb, if_neg Bool.false_ne_true] at h
          cases h
          exact ⟨_, _, rfl, hc⟩

theorem container_front {value : List Char → Option (Tree × List Char)}
    (h : container (member value) '\x7d' t = some (ms, x)) :
    ∃ b t', t = b :: t' ∧ isFront b = true := by
  unfold container at h
  split at h
  · cases h
  · rename_i c rest hspace
    refine front_of_skipSpace hspace ?_
    split_ifs at h with hclose
    · rw [hclose]
      rfl
    · cases hlength : t.length with
      | zero =>
          rw [hlength] at h
          cases h
      | succ n =>
          rw [hlength] at h
          obtain ⟨⟨y, rest'⟩, hy, -⟩ := Option.bind_eq_some_iff.mp h
          unfold member at hy
          split at hy
          · rename_i heq
            cases heq
            rfl
          · cases hy

/-- An object text begins with two characters of its front. -/
theorem parse_front (h : parse d cs = some (.obj ms)) :
    ∃ a b rest, cs = a :: b :: rest ∧ isFront a = true ∧ isFront b = true := by
  obtain ⟨-, r, hscan, -⟩ := parse_eq_some.mp h
  rcases scan_cases hscan with ⟨e, t, ms, -, ht, -, hms⟩ | ⟨e, t, items, -, -, harr, -⟩ | hscalar
  · cases cs with
    | nil => cases ht
    | cons a cs =>
        cases ha : isSpace a with
        | true =>
            rw [skipSpace, List.dropWhile_cons, ha, if_pos rfl] at ht
            obtain ⟨b, rest, rfl, hb⟩ := front_of_skipSpace ht rfl
            exact ⟨a, b, rest, rfl, by simp [isFront, ha], hb⟩
        | false =>
            rw [skipSpace, List.dropWhile_cons, ha, if_neg Bool.false_ne_true] at ht
            cases ht
            obtain ⟨b, rest, rfl, hb⟩ := container_front hms
            exact ⟨_, b, rest, rfl, rfl, hb⟩
  · cases harr
  · exact absurd rfl ((scalar_spec hscalar).2.2 ms)

end Front

end JsonText
