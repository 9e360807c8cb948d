/-
The grammar of an environment file, as systemd reads it.

# The grammar

A file is a sequence of assignments `KEY=value`, one a line; a line that
starts with `#` or `;` is a comment and a line without `=` is nothing.
A value is made of unquoted, single-quoted and double-quoted parts. In an
unquoted part a backslash takes the next character as it is and blanks at
the end fall away; in a double-quoted part a backslash is taken away only
before the characters a shell would ask to escape, and stays where it was
before any other; a backslash before a line break joins two lines. `step`
is the reader's automaton, one character at a time.

# What holds

A line that gives a plain key and a value in double quotes, with the quote
and the backslash escaped, is read as that key and that value, whatever
the value is (`read_lines`).
-/
import Mathlib.Data.List.Basic

namespace Lib.EnvironmentFile

-- ====== characters

def isNewline (c : Char) : Bool := c == '\n' || c == '\r'

def isBlank (c : Char) : Bool := c == ' ' || c == '\t' || isNewline c

def isComment (c : Char) : Bool := c == '#' || c == ';'

/-- What a backslash is taken away from inside double quotes. -/
def needsEscape (c : Char) : Bool :=
  c == '"' || c == '\\' || c == '\x60' || c == '$'

-- ====== reading

/-- Where the reader is, and what it has of the assignment at hand. The
number in `key` and `value` is where blanks at the end of it begin. -/
inductive State where
  | preKey
  | key (k : List Char) (blanks : Option Nat)
  | preValue (k v : List Char)
  | value (k v : List Char) (blanks : Option Nat)
  | valueEscape (k v : List Char)
  | singleQuote (k v : List Char)
  | doubleQuote (k v : List Char)
  | doubleQuoteEscape (k v : List Char)
  | comment
  | commentEscape
  deriving DecidableEq

abbrev Assignment := List Char × List Char

structure Reader where
  state : State
  found : List Assignment
  deriving DecidableEq

/-- A text without the blanks at its end. -/
def chomp (cs : List Char) : Option Nat → List Char
  | none => cs
  | some n => cs.take n

/-- Where the blanks at the end begin once `c` has been added. -/
def trailing (cs : List Char) (blanks : Option Nat) (c : Char) :
    Option Nat :=
  if isBlank c then some (blanks.getD cs.length) else none

def step (r : Reader) (c : Char) : Reader :=
  match r.state with
  | .preKey =>
      if isComment c then { r with state := .comment }
      else if isBlank c then r
      else { r with state := .key [c] none }
  | .key k blanks =>
      if isNewline c then { r with state := .preKey }
      else if c = '=' then { r with state := .preValue (chomp k blanks) [] }
      else { r with state := .key (k ++ [c]) (trailing k blanks c) }
  | .preValue k v =>
      if isNewline c then ⟨.preKey, r.found ++ [(k, v)]⟩
      else if c = '\'' then { r with state := .singleQuote k v }
      else if c = '"' then { r with state := .doubleQuote k v }
      else if c = '\\' then { r with state := .valueEscape k v }
      else if isBlank c then r
      else { r with state := .value k (v ++ [c]) none }
  | .value k v blanks =>
      if isNewline c then ⟨.preKey, r.found ++ [(k, chomp v blanks)]⟩
      else if c = '\\' then { r with state := .valueEscape k v }
      else { r with state := .value k (v ++ [c]) (trailing v blanks c) }
  | .valueEscape k v =>
      { r with
        state := .value k (if isNewline c then v else v ++ [c]) none }
  | .singleQuote k v =>
      if c = '\'' then { r with state := .preValue k v }
      else { r with state := .singleQuote k (v ++ [c]) }
  | .doubleQuote k v =>
      if c = '"' then { r with state := .preValue k v }
      else if c = '\\' then { r with state := .doubleQuoteEscape k v }
      else { r with state := .doubleQuote k (v ++ [c]) }
  | .doubleQuoteEscape k v =>
      { r with
        state := .doubleQuote k
          (if needsEscape c then v ++ [c]
          else if c = '\n' then v
          else v ++ ['\\', c]) }
  | .comment =>
      if c = '\\' then { r with state := .commentEscape }
      else if isNewline c then { r with state := .preKey }
      else r
  | .commentEscape =>
      { r with state := if isNewline c then .preKey else .comment }

/-- What is left at the end of the file. -/
def finish (r : Reader) : List Assignment :=
  match r.state with
  | .preValue k v | .valueEscape k v | .singleQuote k v
  | .doubleQuote k v | .doubleQuoteEscape k v => r.found ++ [(k, v)]
  | .value k v blanks => r.found ++ [(k, chomp v blanks)]
  | .preKey | .key _ _ | .comment | .commentEscape => r.found

/-- The assignments of a file, in their order. -/
def read (text : List Char) : List Assignment :=
  finish (text.foldl step ⟨.preKey, []⟩)

-- ====== writing

/-- A value inside double quotes. -/
def escape (v : List Char) : List Char :=
  v.flatMap fun c => if c = '\\' ∨ c = '"' then ['\\', c] else [c]

def quote (v : List Char) : List Char := '"' :: (escape v ++ ['"'])

def line (a : Assignment) : List Char := a.1 ++ '=' :: quote a.2 ++ ['\n']

/-- A key that is read as it stands: it starts no comment, and nothing in
it is a blank or the sign of an assignment. -/
structure Plain (k : List Char) : Prop where
  nonempty : k ≠ []
  head : ∀ c ∈ k.head?, isComment c = false
  all : ∀ c ∈ k, isBlank c = false ∧ c ≠ '='

theorem isNewline_of_isBlank {c : Char} (h : isBlank c = false) :
    isNewline c = false := by
  unfold isBlank at h
  simp_all

/-- The rest of a key is taken over. -/
theorem foldl_key {cs : List Char}
    (h : ∀ c ∈ cs, isBlank c = false ∧ c ≠ '=') :
    ∀ (k : List Char) (found : List Assignment),
      cs.foldl step ⟨.key k none, found⟩ = ⟨.key (k ++ cs) none, found⟩ := by
  induction cs with
  | nil => simp
  | cons c cs ih =>
      intro k found
      rw [List.forall_mem_cons] at h
      obtain ⟨⟨hblank, heq⟩, hrest⟩ := h
      have hstep : step ⟨.key k none, found⟩ c
          = ⟨.key (k ++ [c]) none, found⟩ := by
        simp [step, isNewline_of_isBlank hblank, heq, trailing, hblank]
      rw [List.foldl_cons, hstep, ih hrest]
      simp

/-- A value in double quotes is read back, escapes and all. -/
theorem foldl_escape (cs : List Char) :
    ∀ (k v : List Char) (found : List Assignment),
      (escape cs).foldl step ⟨.doubleQuote k v, found⟩
        = ⟨.doubleQuote k (v ++ cs), found⟩ := by
  induction cs with
  | nil => simp [escape]
  | cons c cs ih =>
      intro k v found
      have hcons : escape (c :: cs)
          = (if c = '\\' ∨ c = '"' then ['\\', c] else [c])
            ++ escape cs := rfl
      have hhead : ((if c = '\\' ∨ c = '"' then ['\\', c]
            else [c]).foldl step ⟨.doubleQuote k v, found⟩)
          = ⟨.doubleQuote k (v ++ [c]), found⟩ := by
        by_cases hc : c = '\\' ∨ c = '"'
        · rw [if_pos hc]
          rcases hc with rfl | rfl
          · rfl
          · rfl
        · rw [if_neg hc]
          obtain ⟨hback, hquote⟩ := not_or.mp hc
          simp [step, hback, hquote]
      rw [hcons, List.foldl_append, hhead, ih]
      simp

theorem foldl_line {a : Assignment} (h : Plain a.1)
    (found : List Assignment) :
    (line a).foldl step ⟨.preKey, found⟩ = ⟨.preKey, found ++ [a]⟩ := by
  obtain ⟨k, v⟩ := a
  cases hk : k with
  | nil => exact absurd hk h.nonempty
  | cons c cs =>
      have hcomment : isComment c = false := h.head c (by simp [hk])
      have hall : ∀ d ∈ c :: cs, isBlank d = false ∧ d ≠ '=' := hk ▸ h.all
      rw [List.forall_mem_cons] at hall
      obtain ⟨⟨hblank, -⟩, hrest⟩ := hall
      have hfirst : step ⟨.preKey, found⟩ c = ⟨.key [c] none, found⟩ := by
        simp [step, hcomment, hblank]
      have hsplit : line (c :: cs, v)
          = c :: (cs ++ '=' :: '"' :: (escape v ++ ['"', '\n'])) := by
        simp [line, quote]
      rw [hsplit, List.foldl_cons, hfirst, List.foldl_append,
        foldl_key hrest, List.foldl_cons, List.foldl_cons,
        List.foldl_append]
      have hopen : step (step ⟨.key ([c] ++ cs) none, found⟩ '=') '"'
          = ⟨.doubleQuote (c :: cs) [], found⟩ := rfl
      rw [hopen, foldl_escape]
      rfl

/-- A file of such lines is read as what was written. -/
theorem read_lines {as : List Assignment} (h : ∀ a ∈ as, Plain a.1) :
    read (as.flatMap line) = as := by
  have hfold : ∀ (as found : List Assignment), (∀ a ∈ as, Plain a.1) →
      (as.flatMap line).foldl step ⟨.preKey, found⟩
        = ⟨.preKey, found ++ as⟩ := by
    intro as
    induction as with
    | nil => simp
    | cons a as ih =>
        intro found h
        rw [List.forall_mem_cons] at h
        rw [List.flatMap_cons, List.foldl_append, foldl_line h.1, ih _ h.2]
        simp
  unfold read
  rw [hfold as [] h]
  rfl

end Lib.EnvironmentFile
