/-
The format of a system crontab, as cron reads it.

# Lines

A file is its terminated lines. One that is blank or starts with `#` is
nothing; one that is a word, blanks at most and an equals sign sets a
variable; any other has five fields, a user and a command, with blanks
between them (`readLine`).

# Commands

A command ends at the first `%` that no backslash stands before, one that is
not itself behind a backslash: what is behind it is given to the command to
read. A backslash before a `%` is taken off, and stays before anything else
(`readCommand`).
-/
import Mathlib.Data.List.Basic
import Mathlib.Algebra.Group.Nat.Even
import Mathlib.Tactic.Cases

namespace Lib.Crontab

-- ====== commands

def cons (c : Char) (r : List Char × Option (List Char)) :
    List Char × Option (List Char) :=
  (c :: r.1, r.2)

/-- The command that is run, and what it is given to read. -/
def readCommand : List Char → List Char × Option (List Char)
  | [] => ([], none)
  | '%' :: cs => ([], some cs)
  | '\\' :: '%' :: cs => cons '%' (readCommand cs)
  | '\\' :: c :: cs => cons '\\' (cons c (readCommand cs))
  | c :: cs => cons c (readCommand cs)

/-- A command with each `%` behind a backslash, where it was not. -/
def escape : List Char → List Char
  | [] => []
  | '%' :: cs => '\\' :: '%' :: escape cs
  | '\\' :: c :: cs => '\\' :: c :: escape cs
  | c :: cs => c :: escape cs

/-- A command without the backslashes that stand before a `%`. -/
def unescape : List Char → List Char
  | [] => []
  | '\\' :: '%' :: cs => '%' :: unescape cs
  | '\\' :: c :: cs => '\\' :: c :: unescape cs
  | c :: cs => c :: unescape cs

/-- How many backslashes a text ends with. -/
def trailing (cs : List Char) : Nat :=
  (cs.reverse.takeWhile (· == '\\')).length

/-- Some `%` comes after an odd number of backslashes. -/
def HasEscaped (cs : List Char) : Prop :=
  ∃ before after, cs = before ++ '%' :: after ∧ trailing before % 2 = 1

/-- A command from its end: a backslash takes the character behind it
along. -/
@[elab_as_elim]
theorem command_induction {P : List Char → Prop} (nil : P [])
    (percent : ∀ cs, P cs → P ('%' :: cs))
    (pair : ∀ c cs, P cs → P ('\\' :: c :: cs)) (last : P ['\\'])
    (other : ∀ c cs, c ≠ '%' → c ≠ '\\' → P cs → P (c :: cs)) :
    ∀ cs, P cs
  | [] => nil
  | c :: cs => by
      by_cases hpercent : c = '%'
      · subst hpercent
        exact percent cs (command_induction nil percent pair last other cs)
      · by_cases hslash : c = '\\'
        · subst hslash
          cases cs with
          | nil => exact last
          | cons d cs =>
              exact pair d cs
                (command_induction nil percent pair last other cs)
        · exact other c cs hpercent hslash
            (command_induction nil percent pair last other cs)

section other

variable {c : Char} (hpercent : c ≠ '%') (hslash : c ≠ '\\') (cs : List Char)
include hpercent hslash

theorem readCommand_cons : readCommand (c :: cs) = cons c (readCommand cs) := by
  rw [readCommand]
  · exact hpercent
  · exact fun _ h => absurd h hslash
  · exact fun _ _ h => absurd h hslash

theorem escape_cons : escape (c :: cs) = c :: escape cs := by
  rw [escape]
  · exact hpercent
  · exact fun _ _ h => absurd h hslash

omit hpercent in
theorem unescape_cons : unescape (c :: cs) = c :: unescape cs := by
  rw [unescape]
  · exact fun _ h => absurd h hslash
  · exact fun _ _ h => absurd h hslash

end other

theorem escape_escape (cs : List Char) : escape (escape cs) = escape cs := by
  induction cs using command_induction with
  | nil => rfl
  | percent cs ih => rw [escape, escape, ih]
  | pair c cs ih => rw [escape, escape, ih]
  | last => rfl
  | other c cs hpercent hslash ih =>
      rw [escape_cons hpercent hslash, escape_cons hpercent hslash, ih]

/-- What runs of an escaped command, and that nothing ends it. -/
theorem readCommand_escape (cs : List Char) :
    readCommand (escape cs) = (unescape cs, none) := by
  induction cs using command_induction with
  | nil => rfl
  | percent cs ih =>
      rw [escape, readCommand, ih, unescape_cons (by decide)]
      rfl
  | pair c cs ih =>
      rw [escape]
      by_cases hpercent : c = '%'
      · subst hpercent
        rw [readCommand, ih, unescape]
        rfl
      · rw [readCommand, ih, unescape]
        · rfl
        · exact hpercent
        · exact hpercent
  | last => rfl
  | other c cs hpercent hslash ih =>
      rw [escape_cons hpercent hslash, readCommand_cons hpercent hslash, ih,
        unescape_cons hslash]
      rfl

theorem length_unescape_le (cs : List Char) :
    (unescape cs).length ≤ cs.length := by
  induction cs using command_induction with
  | nil => exact le_refl _
  | percent cs ih =>
      rw [unescape_cons (by decide)]
      simpa using ih
  | pair c cs ih =>
      by_cases hpercent : c = '%'
      · subst hpercent
        simp only [unescape, List.length_cons]
        omega
      · rw [unescape]
        · simpa using ih
        · exact hpercent
  | last => exact le_refl _
  | other c cs _ hslash ih =>
      rw [unescape_cons hslash]
      simpa using ih

theorem trailing_cons (c : Char) (cs : List Char) :
    trailing (c :: cs)
      = if trailing cs = cs.length ∧ c = '\\' then cs.length + 1
        else trailing cs := by
  unfold trailing
  rw [List.reverse_cons, List.takeWhile_append, List.length_reverse]
  by_cases hall : (cs.reverse.takeWhile (· == '\\')).length = cs.length
  · rw [if_pos hall, List.length_append, List.length_reverse]
    by_cases hslash : c = '\\'
    · simp [hall, hslash]
    · simp [hall, hslash]
  · rw [if_neg hall, if_neg (by simp [hall])]

theorem trailing_le (cs : List Char) : trailing cs ≤ cs.length := by
  unfold trailing
  have hle := (List.takeWhile_sublist (· == '\\') (l := cs.reverse)).length_le
  rwa [List.length_reverse] at hle

/-- A backslash and what it takes along change no parity. -/
theorem trailing_pair (c : Char) (cs : List Char) :
    trailing ('\\' :: c :: cs) % 2 = trailing cs % 2 := by
  have hle := trailing_le cs
  rw [trailing_cons, trailing_cons, List.length_cons]
  by_cases hall : trailing cs = cs.length
  · by_cases hslash : c = '\\'
    · simp only [hall, hslash, and_self, if_true]
      omega
    · have hshort : trailing cs ≠ cs.length + 1 := by omega
      simp [hslash, hshort]
  · have hshort : trailing cs ≠ cs.length + 1 := by omega
    simp [hall, hshort]

theorem hasEscaped_cons {c : Char} (hslash : c ≠ '\\') (cs : List Char) :
    HasEscaped (c :: cs) ↔ HasEscaped cs := by
  constructor
  · rintro ⟨before, after, hsplit, hodd⟩
    cases before with
    | nil => cases hodd
    | cons d before =>
        obtain ⟨rfl, rfl⟩ := List.cons.inj hsplit
        rw [trailing_cons, if_neg (fun h => hslash h.2)] at hodd
        exact ⟨before, after, rfl, hodd⟩
  · rintro ⟨before, after, rfl, hodd⟩
    refine ⟨c :: before, after, rfl, ?_⟩
    rw [trailing_cons, if_neg (fun h => hslash h.2)]
    exact hodd

theorem hasEscaped_pair (c : Char) (cs : List Char) :
    HasEscaped ('\\' :: c :: cs) ↔ c = '%' ∨ HasEscaped cs := by
  constructor
  · rintro ⟨before, after, hsplit, hodd⟩
    rcases before with _ | ⟨d, _ | ⟨e, before⟩⟩
    · cases hodd
    · obtain ⟨-, hrest⟩ := List.cons.inj hsplit
      exact .inl (List.cons.inj hrest).1
    · obtain ⟨rfl, hrest⟩ := List.cons.inj hsplit
      obtain ⟨rfl, rfl⟩ := List.cons.inj hrest
      rw [trailing_pair] at hodd
      exact .inr ⟨before, after, rfl, hodd⟩
  · rintro (rfl | ⟨before, after, rfl, hodd⟩)
    · exact ⟨['\\'], cs, rfl, rfl⟩
    · refine ⟨'\\' :: c :: before, after, rfl, ?_⟩
      rw [trailing_pair]
      exact hodd

/-- A command comes back as it was where no backslash of its own stood before
a `%`. -/
theorem unescape_eq_iff (cs : List Char) :
    unescape cs = cs ↔ ¬HasEscaped cs := by
  induction cs using command_induction with
  | nil =>
      refine ⟨fun _ => ?_, fun _ => rfl⟩
      rintro ⟨before, after, hsplit, -⟩
      simp at hsplit
  | percent cs ih =>
      rw [unescape_cons (by decide), hasEscaped_cons (by decide), ← ih]
      simp
  | pair c cs ih =>
      rw [hasEscaped_pair]
      by_cases hpercent : c = '%'
      · subst hpercent
        have hle := length_unescape_le cs
        refine ⟨fun h => ?_, fun h => absurd (.inl rfl) h⟩
        have hlength := congrArg List.length h
        simp only [unescape, List.length_cons] at hlength
        omega
      · rw [unescape]
        · simpa [hpercent] using ih
        · exact hpercent
  | last =>
      refine ⟨fun _ => ?_, fun _ => rfl⟩
      rintro ⟨before, after, hsplit, -⟩
      rcases before with _ | ⟨d, before⟩ <;> simp at hsplit
  | other c cs _ hslash ih =>
      rw [unescape_cons hslash, hasEscaped_cons hslash, ← ih]
      simp

-- ====== lines

def isBlank (c : Char) : Bool := c == ' ' || c == '\t'

def skipBlanks (cs : List Char) : List Char := cs.dropWhile isBlank

/-- The words a line starts with, and what comes behind them. -/
def readWords : Nat → List Char → Option (List (List Char) × List Char)
  | 0, cs => some ([], cs)
  | n + 1, cs =>
      let word := (skipBlanks cs).takeWhile fun c => !isBlank c
      if word = [] then none
      else
        (readWords n ((skipBlanks cs).dropWhile fun c => !isBlank c)).map
          fun r => (word :: r.1, r.2)

/-- An entry: when it runs, as whom, and what. -/
structure Entry where
  fields : List (List Char)
  user : List Char
  command : List Char
  input : Option (List Char)
  deriving DecidableEq, Repr

def readEntry (line : List Char) : Option Entry := do
  let (fields, rest) ← readWords 5 line
  let (user, rest) ← readWords 1 rest
  let (command, input) := readCommand (skipBlanks rest)
  return ⟨fields, user.flatten, command, input⟩

/-- A variable and what stands behind its equals sign. -/
def readAssignment (line : List Char) : Option (List Char × List Char) :=
  let name := line.takeWhile fun c => !isBlank c && c != '='
  match skipBlanks (line.dropWhile fun c => !isBlank c && c != '=') with
  | '=' :: value => if name = [] then none else some (name, value)
  | _ => none

inductive Line where
  | nothing
  | variable (name value : List Char)
  | entry (entry : Entry)
  | malformed
  deriving DecidableEq, Repr

def readLine (cs : List Char) : Line :=
  match skipBlanks cs with
  | [] => .nothing
  | '#' :: _ => .nothing
  | line =>
      match readAssignment line with
      | some (name, value) => .variable name value
      | none => (readEntry line).elim .malformed .entry

/-- The lines of a file; what stands behind the last line break is none. -/
def readFile (cs : List Char) : List Line :=
  ((cs.splitOn '\n').dropLast).map readLine

/-- A word of a line. -/
def IsWord (cs : List Char) : Prop := cs ≠ [] ∧ ∀ c ∈ cs, isBlank c = false

variable {word user second : List Char}

theorem IsWord.skip (h : IsWord word) (rest : List Char) :
    skipBlanks (word ++ rest) = word ++ rest := by
  obtain ⟨c, cs, rfl⟩ := List.exists_cons_of_ne_nil h.1
  exact List.dropWhile_cons_of_neg (by simp [h.2 c (by simp)])

theorem IsWord.takeWhile (h : IsWord word) (rest : List Char) :
    (word ++ ' ' :: rest).takeWhile (fun c => !isBlank c) = word := by
  rw [List.takeWhile_append_of_pos (by simpa using h.2)]
  simp [isBlank]

theorem IsWord.dropWhile (h : IsWord word) (rest : List Char) :
    (word ++ ' ' :: rest).dropWhile (fun c => !isBlank c) = ' ' :: rest := by
  rw [List.dropWhile_append_of_pos (by simpa using h.2)]
  simp [isBlank]

theorem readWords_blank {n : Nat} (hn : n ≠ 0) (cs : List Char) :
    readWords n (' ' :: cs) = readWords n cs := by
  obtain ⟨n, rfl⟩ := Nat.exists_eq_succ_of_ne_zero hn
  rfl

/-- Words with a blank between them are read one by one. -/
theorem readWords_intercalate {words : List (List Char)}
    (hwords : ∀ word ∈ words, IsWord word) (hne : words ≠ [])
    (rest : List Char) :
    readWords words.length ([' '].intercalate words ++ ' ' :: rest)
      = some (words, ' ' :: rest) := by
  induction words with
  | nil => exact absurd rfl hne
  | cons word words ih =>
      have hword := hwords word (by simp)
      have hread : ∀ rest', readWords (words.length + 1) (word ++ ' ' :: rest')
          = (readWords words.length (' ' :: rest')).map
            fun r => (word :: r.1, r.2) := by
        intro rest'
        rw [readWords, hword.skip, hword.takeWhile, hword.dropWhile,
          if_neg hword.1]
      by_cases hlast : words = []
      · subst hlast
        rw [List.intercalate_singleton]
        exact hread rest
      · rw [List.intercalate_cons_of_ne_nil hlast, List.length_cons,
          List.append_assoc, List.append_assoc]
        show readWords _ (word ++ ' ' ::
          ([' '].intercalate words ++ ' ' :: rest)) = _
        rw [hread, readWords_blank (by simpa using hlast),
          ih (fun w hw => hwords w (by simp [hw])) hlast]
        rfl

-- ====== entries

/-- A line of words and a command is read as they are. -/
theorem readEntry_line {fields : List (List Char)}
    (hfive : fields.length = 5) (hfields : ∀ field ∈ fields, IsWord field)
    (huser : IsWord user) (command : List Char)
    (hstart : ∀ c ∈ command.head?, isBlank c = false) :
    readEntry ([' '].intercalate fields ++ ' ' :: (user ++ ' ' :: command))
      = some ⟨fields, user, (readCommand command).1,
          (readCommand command).2⟩ := by
  have hne : fields ≠ [] := by
    rintro rfl
    cases hfive
  have hskip : skipBlanks (' ' :: command) = command := by
    cases command with
    | nil => rfl
    | cons c cs =>
        have hc := hstart c rfl
        show skipBlanks (c :: cs) = c :: cs
        exact List.dropWhile_cons_of_neg (by simp [hc])
  have hcalendar := readWords_intercalate hfields hne (user ++ ' ' :: command)
  rw [hfive] at hcalendar
  have hwho : readWords 1 (user ++ ' ' :: command)
      = some ([user], ' ' :: command) := by
    have hone := readWords_intercalate (List.forall_mem_singleton.mpr huser)
      (List.cons_ne_nil _ _) command
    rwa [List.intercalate_singleton] at hone
  unfold readEntry
  rw [hcalendar]
  show ((readWords 1 (' ' :: (user ++ ' ' :: command))).bind _) = _
  rw [readWords_blank (by decide), hwho]
  simp [hskip]

/-- A line that starts with a word without an equals sign, and with another
that does not start with one, sets no variable. -/
theorem readAssignment_eq_none {rest : List Char} (hword : IsWord word)
    (hplain : '=' ∉ word) (hsecond : IsWord second)
    (hhead : second.head? ≠ some '=') :
    readAssignment (word ++ ' ' :: (second ++ rest)) = none := by
  have hname : ∀ c ∈ word, (!isBlank c && c != '=') = true := by
    intro c hc
    have hne : c ≠ '=' := fun h => hplain (h ▸ hc)
    simp [hword.2 c hc, hne]
  have hdrop : (word ++ ' ' :: (second ++ rest)).dropWhile
      (fun c => !isBlank c && c != '=') = ' ' :: (second ++ rest) := by
    rw [List.dropWhile_append_of_pos hname]
    rfl
  have hskip : skipBlanks (' ' :: (second ++ rest)) = second ++ rest :=
    hsecond.skip rest
  unfold readAssignment
  rw [hdrop, hskip]
  obtain ⟨c, cs, rfl⟩ := List.exists_cons_of_ne_nil hsecond.1
  have hc : c ≠ '=' := fun h => hhead (by rw [h]; rfl)
  show (match c :: (cs ++ rest) with
    | '=' :: value => _
    | _ => _) = none
  split
  · rename_i heq
    exact absurd (List.cons.inj heq).1 hc
  · rfl

/-- An entry is one line, and is read as what it is made of. -/
theorem readLine_entry {first : List Char} {others : List (List Char)}
    {command : List Char} (hfive : others.length = 3)
    (hfields : ∀ field ∈ first :: second :: others, IsWord field)
    (hcomment : first.head? ≠ some '#') (hplain : '=' ∉ first)
    (hhead : second.head? ≠ some '=') (huser : IsWord user)
    (hstart : ∀ c ∈ command.head?, isBlank c = false) :
    readLine ([' '].intercalate (first :: second :: others)
        ++ ' ' :: (user ++ ' ' :: command))
      = .entry ⟨first :: second :: others, user, (readCommand command).1,
          (readCommand command).2⟩ := by
  have hfirst := hfields first (by simp)
  have hothers : others ≠ [] := by
    rintro rfl
    cases hfive
  have hentry : readEntry ([' '].intercalate (first :: second :: others)
      ++ ' ' :: (user ++ ' ' :: command))
      = some ⟨first :: second :: others, user, (readCommand command).1,
          (readCommand command).2⟩ :=
    readEntry_line (by simp [hfive]) hfields huser command hstart
  have hassign : readAssignment ([' '].intercalate (first :: second :: others)
      ++ ' ' :: (user ++ ' ' :: command)) = none := by
    rw [List.intercalate_cons_cons, List.intercalate_cons_of_ne_nil hothers]
    simp only [List.append_assoc]
    show readAssignment (first ++ ' ' :: (second ++ _)) = none
    exact readAssignment_eq_none hfirst hplain (hfields second (by simp)) hhead
  have hskip : skipBlanks ([' '].intercalate (first :: second :: others)
      ++ ' ' :: (user ++ ' ' :: command))
      = [' '].intercalate (first :: second :: others)
        ++ ' ' :: (user ++ ' ' :: command) := by
    rw [List.intercalate_cons_cons]
    simp only [List.append_assoc]
    exact hfirst.skip _
  obtain ⟨c, cs, hc⟩ := List.exists_cons_of_ne_nil hfirst.1
  have hstart : ∃ rest, [' '].intercalate (first :: second :: others)
      ++ ' ' :: (user ++ ' ' :: command) = c :: rest := by
    rw [List.intercalate_cons_cons, hc]
    exact ⟨_, rfl⟩
  obtain ⟨rest, hrest⟩ := hstart
  unfold readLine
  rw [hskip]
  split
  · rename_i heq
    rw [hrest] at heq
    cases heq
  · rename_i heq
    rw [hrest] at heq
    refine absurd ?_ hcomment
    rw [hc, (List.cons.inj heq).1]
    rfl
  · rw [hassign, hentry]
    rfl

/-- The lines of a file that ends with a line break. -/
theorem readFile_intercalate {ls : List (List Char)}
    (hls : ∀ l ∈ ls, '\n' ∉ l) :
    readFile (['\n'].intercalate (ls ++ [[]])) = ls.map readLine := by
  unfold readFile
  rw [List.splitOn_intercalate]
  · rw [List.dropLast_concat]
  · intro l hl
    rcases List.mem_append.mp hl with hl | hl
    · exact hls l hl
    · rw [List.mem_singleton.mp hl]
      exact List.not_mem_nil
  · simp

end Lib.Crontab
