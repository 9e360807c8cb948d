/-
Strings as the source reads them.

JavaScript counts a string in UTF-16 units and matches it against regular
expressions. The patterns of this program are all either a length range
over one character class (`Text.inClass`) or a fixed sequence of classes
(`Text.shape`), so those two are what is defined here. Everything works on
the list of characters, which the kernel can compute with.
-/
import Mathlib.Algebra.GroupWithZero.Nat
import Mathlib.Data.List.DropRight

namespace Yunpanel

namespace Text

variable {cs : List Char}

/-- What a test says of every character of a list. -/
theorem forall_mem_of_all {P : Char → Prop} [DecidablePred P]
    (h : (cs.all fun c => decide (P c)) = true) :
    ∀ c ∈ cs, P c := fun c hc =>
  of_decide_eq_true (List.all_eq_true.mp h c hc)

-- ====== lengths

/-- UTF-16 units of one character. -/
def units (c : Char) : Nat := if c.val < 0x10000 then 1 else 2

/-- `s.length` of JavaScript. -/
def length (s : String) : Nat := (s.toList.map units).sum

-- ====== classes

def isDigit (c : Char) : Bool := '0' ≤ c && c ≤ '9'

def isLower (c : Char) : Bool := 'a' ≤ c && c ≤ 'z'

def isUpper (c : Char) : Bool := 'A' ≤ c && c ≤ 'Z'

/-- `[a-f0-9]` -/
def isHex (c : Char) : Bool := isDigit c || ('a' ≤ c && c ≤ 'f')

/-- `[A-Za-z0-9._:-]` -/
def isKeyChar (c : Char) : Bool :=
  isDigit c || isLower c || isUpper c
    || c == '.' || c == '_' || c == ':' || c == '-'

-- ====== patterns

/-- `/^[class]{lo,hi}$/` -/
def inClass (p : Char → Bool) (lo hi : Nat) (s : String) : Bool :=
  s.toList.all p && lo ≤ s.toList.length && s.toList.length ≤ hi

/-- A pattern that names the class of each character in turn. -/
def shape : List (Char → Bool) → List Char → Bool
  | [], [] => true
  | p :: ps, c :: cs => p c && shape ps cs
  | _, _ => false

-- ====== rewriting

/-- What `trim` takes off. -/
def isSpace (c : Char) : Bool :=
  [0x09, 0x0a, 0x0b, 0x0c, 0x0d, 0x20, 0xa0, 0x1680, 0x2028, 0x2029,
    0x202f, 0x205f, 0x3000, 0xfeff].contains c.toNat
    || (0x2000 ≤ c.toNat && c.toNat ≤ 0x200a)

/-- `/[\u0000-\u001f\u007f]/` -/
def isControl (c : Char) : Bool := c.toNat < 0x20 || c.toNat == 0x7f

/-- `s.trim()` -/
def trim (cs : List Char) : List Char :=
  ((cs.dropWhile isSpace).reverse.dropWhile isSpace).reverse

/-- `s.toLowerCase()` of an ASCII string. -/
def lower (cs : List Char) : List Char := cs.map Char.toLower

/-- `s.replace(/\.$/, '')` -/
def stripDot (cs : List Char) : List Char :=
  if cs.getLast? = some '.' then cs.dropLast else cs

/-- `s.split('.')` -/
def splitDots : List Char → List (List Char)
  | [] => [[]]
  | c :: cs =>
      if c = '.' then [] :: splitDots cs
      else
        match splitDots cs with
        | [] => [[c]]
        | l :: ls => (c :: l) :: ls

theorem splitDots_ne_nil (cs : List Char) : splitDots cs ≠ [] := by
  cases cs with
  | nil => simp [splitDots]
  | cons c cs =>
      unfold splitDots
      split
      · simp
      · split <;> simp

/-- A character of a dotted string is a dot or in one of its parts. -/
theorem mem_splitDots {c : Char} (h : c ∈ cs) :
    c = '.' ∨ ∃ l ∈ splitDots cs, c ∈ l := by
  induction cs with
  | nil => simp at h
  | cons d ds ih =>
      unfold splitDots
      split
      · rename_i hdot
        rcases List.mem_cons.mp h with rfl | h
        · exact .inl hdot
        · rcases ih h with h | ⟨l, hl, hc⟩
          · exact .inl h
          · exact .inr ⟨l, List.mem_cons_of_mem _ hl, hc⟩
      · split
        · rename_i hnil
          exact absurd hnil (splitDots_ne_nil ds)
        · rename_i l ls hcons
          rcases List.mem_cons.mp h with rfl | h
          · exact .inr ⟨c :: l, by simp, by simp⟩
          · rcases ih h with h | ⟨m, hm, hc⟩
            · exact .inl h
            · rw [hcons] at hm
              rcases List.mem_cons.mp hm with rfl | hm
              · exact .inr ⟨d :: m, by simp, List.mem_cons_of_mem d hc⟩
              · exact .inr ⟨m, List.mem_cons_of_mem _ hm, hc⟩

/-- A string that ends in a dot has an empty last part. -/
theorem splitDots_of_getLast? (h : cs.getLast? = some '.') :
    ∃ l ls, splitDots cs = l :: (ls ++ [[]]) := by
  induction cs with
  | nil => simp at h
  | cons d ds ih =>
      cases ds with
      | nil =>
          obtain rfl : d = '.' := by simpa using h
          exact ⟨[], [], rfl⟩
      | cons e es =>
          rw [List.getLast?_cons_cons] at h
          obtain ⟨l, ls, hsplit⟩ := ih h
          rw [splitDots, hsplit]
          by_cases hd : d = '.'
          · rw [if_pos hd]
            exact ⟨[], l :: ls, rfl⟩
          · rw [if_neg hd]
            exact ⟨d :: l, ls, rfl⟩

theorem trim_of_forall (h : ∀ c ∈ cs, isSpace c = false) :
    trim cs = cs := by
  have hdrop : ∀ ds : List Char, (∀ c ∈ ds, isSpace c = false) →
      ds.dropWhile isSpace = ds := by
    intro ds hds
    cases ds with
    | nil => rfl
    | cons d ds => rw [List.dropWhile_cons, hds d (by simp)]; rfl
  rw [trim, hdrop cs h, hdrop cs.reverse, List.reverse_reverse]
  intro c hc
  exact h c (List.mem_reverse.mp hc)

theorem trim_eq (cs : List Char) :
    trim cs = (cs.dropWhile isSpace).rdropWhile isSpace := rfl

/-- Trimming a second time takes nothing off. -/
theorem trim_trim (cs : List Char) : trim (trim cs) = trim cs := by
  have hkeep : (trim cs).dropWhile isSpace = trim cs := by
    cases htrim : trim cs with
    | nil => rfl
    | cons d ds =>
        obtain ⟨es, hes⟩ :=
          List.rdropWhile_prefix isSpace (cs.dropWhile isSpace)
        rw [← trim_eq, htrim] at hes
        have hhead : ¬isSpace d = true := by
          have hnil : cs.dropWhile isSpace ≠ [] := by simp [← hes]
          have hd : (cs.dropWhile isSpace).head hnil = d := by simp [← hes]
          rw [← hd, Bool.not_eq_true]
          exact List.head_dropWhile_not isSpace hnil
        rw [List.dropWhile_cons_of_neg hhead]
  rw [trim_eq, hkeep, trim_eq, List.rdropWhile_idempotent]

theorem lower_of_forall (h : ∀ c ∈ cs, isUpper c = false) :
    lower cs = cs := by
  unfold lower
  refine (List.map_congr_left fun c hc => ?_).trans (List.map_id cs)
  have hc' := h c hc
  unfold isUpper at hc'
  have hnot : ¬(c.val ≥ 'A'.val ∧ c.val ≤ 'Z'.val) := by
    intro hup
    have hge : 'A' ≤ c := hup.1
    have hle : c ≤ 'Z' := hup.2
    simp [hge, hle] at hc'
  delta Char.toLower
  rw [dif_neg hnot]
  rfl

variable {ps : List (Char → Bool)}

/-- Every character a fixed shape accepts is in one of its classes. -/
theorem exists_class_of_shape (h : shape ps cs = true) :
    ∀ c ∈ cs, ∃ p ∈ ps, p c = true := by
  induction ps generalizing cs with
  | nil =>
      cases cs with
      | nil => simp
      | cons c cs => simp [shape] at h
  | cons p ps ih =>
      cases cs with
      | nil => simp
      | cons c cs =>
          rw [shape, Bool.and_eq_true] at h
          intro d hd
          rcases List.mem_cons.mp hd with rfl | hd
          · exact ⟨p, by simp, h.1⟩
          · obtain ⟨q, hq, hqd⟩ := ih h.2 d hd
            exact ⟨q, List.mem_cons_of_mem p hq, hqd⟩

theorem length_of_shape (h : shape ps cs = true) :
    cs.length = ps.length := by
  induction ps generalizing cs with
  | nil =>
      cases cs with
      | nil => rfl
      | cons c cs => simp [shape] at h
  | cons p ps ih =>
      cases cs with
      | nil => simp [shape] at h
      | cons c cs =>
          rw [shape, Bool.and_eq_true] at h
          simp [ih h.2]

theorem isKeyChar_of_isHex {c : Char} (h : isHex c = true) :
    isKeyChar c = true := by
  simp only [isHex, isKeyChar, isLower, Bool.or_eq_true, Bool.and_eq_true,
    decide_eq_true_eq] at h ⊢
  rcases h with h | ⟨hlo, hhi⟩
  · simp [h]
  · have hf : 'f' ≤ 'z' := by decide
    have hz : c ≤ 'z' := Char.le_trans hhi hf
    simp [hlo, hz]

end Text

-- ====== UUIDs

/-- `[1-5]` -/
def isVersion (c : Char) : Bool := ['1', '2', '3', '4', '5'].contains c

/-- `[89ab]` -/
def isVariant (c : Char) : Bool := ['8', '9', 'a', 'b'].contains c

/-- `UUID_PATTERN` with its letters in lower case. -/
def uuidShape : List (Char → Bool) :=
  List.replicate 8 Text.isHex ++ (· == '-')
    :: (List.replicate 4 Text.isHex ++ (· == '-')
    :: (isVersion :: List.replicate 3 Text.isHex ++ (· == '-')
    :: (isVariant :: List.replicate 3 Text.isHex ++ (· == '-')
    :: List.replicate 12 Text.isHex)))

theorem isHex_of_isVersion {c : Char} (h : isVersion c = true) :
    Text.isHex c = true := by
  simp only [isVersion, List.contains_eq_mem, List.mem_cons, List.not_mem_nil,
    or_false, decide_eq_true_eq] at h
  rcases h with rfl | rfl | rfl | rfl | rfl <;> rfl

theorem isHex_of_isVariant {c : Char} (h : isVariant c = true) :
    Text.isHex c = true := by
  simp only [isVariant, List.contains_eq_mem, List.mem_cons, List.not_mem_nil,
    or_false, decide_eq_true_eq] at h
  rcases h with rfl | rfl | rfl | rfl <;> rfl

variable {p : Char → Bool}

/-- The classes of the pattern: hexadecimal digits and dashes. -/
theorem class_of_mem_uuidShape (hp : p ∈ uuidShape) :
    ∀ c, p c = true → Text.isHex c = true ∨ c = '-' := by
  intro c hc
  simp only [uuidShape, List.mem_append, List.mem_cons, List.mem_replicate]
    at hp
  rcases hp with ⟨-, rfl⟩ | rfl | ⟨-, rfl⟩ | rfl | (rfl | ⟨-, rfl⟩) | rfl
    | (rfl | ⟨-, rfl⟩) | rfl | ⟨-, rfl⟩
  all_goals first
    | exact .inl hc
    | exact .inl (isHex_of_isVersion hc)
    | exact .inl (isHex_of_isVariant hc)
    | exact .inr (beq_iff_eq.mp hc)

/-- A lower-case UUID: what `randomUUID` returns and `normalizeUuid`
produces. -/
structure Uuid where
  text : String
  shaped : Text.shape uuidShape text.toList = true
  deriving DecidableEq

namespace Uuid

instance neZero_ten : NeZero 10 := ⟨by decide⟩

theorem shaped_zeros : ∀ last : Fin 10,
    Text.shape uuidShape ("00000000-0000-4000-8000-00000000000"
      ++ toString last.val).toList = true := by decide

theorem text_length (u : Uuid) : u.text.toList.length = 36 :=
  Text.length_of_shape u.shaped

/-- Every character of a UUID is a hexadecimal digit or a dash. -/
theorem mem_text (u : Uuid) {c : Char} (hc : c ∈ u.text.toList) :
    Text.isHex c = true ∨ c = '-' := by
  obtain ⟨p, hp, hpc⟩ := Text.exists_class_of_shape u.shaped c hc
  exact class_of_mem_uuidShape hp c hpc

/-- A UUID is at home in any class with the hexadecimal digits and the
dash. -/
theorem inClass_text (u : Uuid) {lo hi : Nat}
    (hhex : ∀ c, Text.isHex c = true → p c = true) (hdash : p '-' = true)
    (hlo : lo ≤ 36) (hhi : 36 ≤ hi) :
    Text.inClass p lo hi u.text = true := by
  have hall : u.text.toList.all p = true := by
    rw [List.all_eq_true]
    intro c hc
    rcases u.mem_text hc with h | rfl
    · exact hhex c h
    · exact hdash
  simp [Text.inClass, hall, u.text_length, hlo, hhi]

theorem text_ne_empty (u : Uuid) : u.text ≠ "" := by
  intro hempty
  have hlen := u.text_length
  rw [hempty] at hlen
  revert hlen
  decide

end Uuid

end Yunpanel
