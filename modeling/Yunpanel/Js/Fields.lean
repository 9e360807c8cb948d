/-
Reading a JSON object field by field.

A loader of this program names the keys an object must have, reads each of
them with a test of its type, and refuses the object where a test fails.
`exactObject` is the first half; the readers below are the tests, and what
they return carries what was tested: a value of a pattern (`Matching`), a
count no larger than the safe integers (`SafeNat`), a UUID. Each reader
comes with the way its value is written, and reads that back.
-/
import Yunpanel.Js.Value

namespace Yunpanel

/-- The fields of an object. -/
abbrev Json.Fields := List (String × Json)

namespace Json

-- ====== objects

/-- `exactObject`: the fields of an object that has as many keys as are
named, and no other. -/
def exactObject (keys : List String) : Json → Option Fields
  | obj fields =>
      if fields.length = keys.length
          ∧ fields.all (fun field => keys.contains field.1) then
        some fields
      else none
  | _ => none

/-- The fields of an object, whatever they are. -/
def object? : Json → Option Fields
  | obj fields => some fields
  | _ => none

/-- `value[key]`, through a test. -/
def Fields.read {α : Type} (fields : Fields) (key : String)
    (test : Json → Option α) : Option α :=
  (fields.lookup key).bind test

@[simp] theorem Fields.read_cons_self {α : Type} (key : String) (value : Json)
    (rest : Fields) (test : Json → Option α) :
    Fields.read ((key, value) :: rest) key test = test value := by
  simp [Fields.read]

variable {key other : String}

@[simp] theorem Fields.read_cons_of_ne {α : Type} (h : key ≠ other)
    (value : Json) (rest : Fields) (test : Json → Option α) :
    Fields.read ((other, value) :: rest) key test
      = Fields.read rest key test := by
  have hkey : (key == other) = false := beq_eq_false_iff_ne.mpr h
  simp [Fields.read, List.lookup_cons, hkey]

/-- `value[key]`, `null` where there is none. -/
def Fields.get (fields : Fields) (key : String) : Json :=
  (fields.lookup key).getD null

@[simp] theorem Fields.get_cons_self (key : String) (value : Json)
    (rest : Fields) : Fields.get ((key, value) :: rest) key = value := by
  simp [Fields.get]

@[simp] theorem Fields.get_cons_of_ne (h : key ≠ other) (value : Json)
    (rest : Fields) :
    Fields.get ((other, value) :: rest) key = Fields.get rest key := by
  have hkey : (key == other) = false := beq_eq_false_iff_ne.mpr h
  simp [Fields.get, List.lookup_cons, hkey]

theorem lookup_assign_self (key : String) (value : Json)
    (fields : Fields) : (assign key value fields).lookup key = some value := by
  induction fields with
  | nil => simp [assign]
  | cons field fields ih =>
      obtain ⟨k, v⟩ := field
      unfold assign
      by_cases h : k = key
      · simp [h]
      · have hkey : (key == k) = false := beq_eq_false_iff_ne.mpr (Ne.symm h)
        rw [if_neg h, List.lookup_cons, hkey]
        exact ih

theorem lookup_assign_of_ne (h : other ≠ key) (value : Json)
    (fields : Fields) :
    (assign key value fields).lookup other = fields.lookup other := by
  have hother : (other == key) = false := beq_eq_false_iff_ne.mpr h
  induction fields with
  | nil => simp [assign, List.lookup_cons, hother]
  | cons field fields ih =>
      obtain ⟨k, v⟩ := field
      unfold assign
      by_cases hk : k = key
      · rw [if_pos hk, List.lookup_cons, List.lookup_cons, hk, hother]
      · rw [if_neg hk, List.lookup_cons, List.lookup_cons, ih]

-- ====== readers

/-- `typeof value === 'string'` -/
def str? : Json → Option String
  | str s => some s
  | _ => none

/-- `typeof value === 'boolean'` -/
def bool? : Json → Option Bool
  | bool b => some b
  | _ => none

/-- `Array.isArray(value)` -/
def arr? : Json → Option (List Json)
  | arr items => some items
  | _ => none

@[simp] theorem str?_str (s : String) : str? (str s) = some s := rfl

@[simp] theorem bool?_bool (b : Bool) : bool? (bool b) = some b := rfl

@[simp] theorem arr?_arr (items : List Json) :
    arr? (arr items) = some items := rfl

/-- A value that may be `null`. -/
def nullable? {α : Type} (test : Json → Option α) :
    Json → Option (Option α)
  | null => some none
  | value => (test value).map some

def ofOption {α : Type} (write : α → Json) : Option α → Json
  | none => null
  | some a => write a

theorem nullable?_ofOption {α : Type} {test : Json → Option α}
    {write : α → Json} (hnull : ∀ a, write a ≠ null)
    (h : ∀ a, test (write a) = some a) (x : Option α) :
    nullable? test (ofOption write x) = some x := by
  cases x with
  | none => rfl
  | some a =>
      show nullable? test (write a) = some (some a)
      unfold nullable?
      split
      · rename_i hnull'
        exact absurd hnull' (hnull a)
      · rw [h]
        rfl

/-- `value ?? fallback` -/
def orElse (fallback : Json) : Json → Json
  | null => fallback
  | value => value

@[simp] theorem orElse_str (fallback : Json) (s : String) :
    orElse fallback (str s) = str s := rfl

@[simp] theorem orElse_num (fallback : Json) (n : Int) :
    orElse fallback (num n) = num n := rfl

end Json

-- ====== counts

/-- A number `Number.isSafeInteger` accepts that is not negative. -/
structure SafeNat where
  val : Nat
  le : val ≤ 9007199254740991
  deriving DecidableEq

namespace SafeNat

def json (n : SafeNat) : Json := .num n.val

def read? : Json → Option SafeNat
  | .num n =>
      if h : 0 ≤ n ∧ n.toNat ≤ 9007199254740991 then some ⟨n.toNat, h.2⟩
      else none
  | _ => none

@[simp] theorem read?_json (n : SafeNat) : read? n.json = some n := by
  have h : (0 : Int) ≤ (n.val : Int)
      ∧ ((n.val : Int).toNat ≤ 9007199254740991) := ⟨by omega, n.le⟩
  show (if h : _ then _ else _) = _
  rw [dif_pos h]
  rfl

@[simp] theorem nullable?_json (n : Option SafeNat) :
    Json.nullable? read? (Json.ofOption json n) = some n :=
  Json.nullable?_ofOption (fun _ h => Json.noConfusion h) read?_json n

end SafeNat

-- ====== ranges

/-- An integer of a range. -/
structure Ranged (lo hi : Int) where
  val : Int
  ok : lo ≤ val ∧ val ≤ hi
  deriving DecidableEq

namespace Ranged

variable {lo hi : Int}

theorem ext_val {a b : Ranged lo hi} (h : a.val = b.val) : a = b := by
  cases a
  cases b
  cases h
  rfl

theorem one_ok : (1 : Int) ≤ 1 ∧ (1 : Int) ≤ 9007199254740991 := by decide

theorem two_ok : (1 : Int) ≤ 2 ∧ (2 : Int) ≤ 9007199254740991 := by decide

theorem four_ok : (1 : Int) ≤ 4 ∧ (4 : Int) ≤ 9007199254740991 := by decide

def json (n : Ranged lo hi) : Json := .num n.val

/-- `Number.isInteger(value) && value >= lo && value <= hi` -/
def read? : Json → Option (Ranged lo hi)
  | .num n => if h : lo ≤ n ∧ n ≤ hi then some ⟨n, h⟩ else none
  | _ => none

@[simp] theorem read?_json (n : Ranged lo hi) : read? n.json = some n :=
  dif_pos n.ok

/-- A number read as one of a range is that number. -/
theorem val_of_read? {n : Int} {r : Ranged lo hi}
    (h : read? (.num n) = some r) : r.val = n := by
  by_cases hn : lo ≤ n ∧ n ≤ hi
  · have hread : read? (.num n) = some (⟨n, hn⟩ : Ranged lo hi) := dif_pos hn
    rw [hread] at h
    rw [← Option.some.inj h]
  · have hread : read? (.num n) = (none : Option (Ranged lo hi)) := dif_neg hn
    rw [hread] at h
    cases h

end Ranged

-- ====== patterns

/-- A text that a pattern accepts. -/
structure Matching (p : String → Bool) where
  text : String
  ok : p text = true
  deriving DecidableEq

namespace Matching

variable {p : String → Bool}

theorem ext_text {a b : Matching p} (h : a.text = b.text) : a = b := by
  cases a
  cases b
  cases h
  rfl

def ofText? (s : String) : Option (Matching p) :=
  if h : p s = true then some ⟨s, h⟩ else none

@[simp] theorem ofText?_text (m : Matching p) :
    ofText? m.text = some m := dif_pos m.ok

def json (m : Matching p) : Json := .str m.text

def read? (value : Json) : Option (Matching p) := value.str?.bind ofText?

@[simp] theorem read?_json (m : Matching p) : read? m.json = some m :=
  ofText?_text m

/-- A text read through a pattern is the text. -/
theorem text_of_ofText? {s : String} {m : Matching p}
    (h : ofText? s = some m) : m.text = s := by
  unfold ofText? at h
  split at h
  · rw [← Option.some.inj h]
  · cases h

end Matching

namespace Text

/-- `/^[first][rest]{0,n}$/` -/
def headed (first rest : Char → Bool) (n : Nat) (s : String) : Bool :=
  match s.toList with
  | [] => false
  | c :: cs => first c && cs.all rest && cs.length ≤ n

/-- `[A-Za-z0-9]` -/
def isAlnum (c : Char) : Bool := isDigit c || isLower c || isUpper c

/-- `/^[a-f0-9]{64}$/` -/
def isSha256 (s : String) : Bool := inClass isHex 64 64 s

/-- `/^[a-f0-9]{40}$/`, after `toLowerCase` -/
def isCommit (s : String) : Bool := inClass isHex 40 40 s

end Text

abbrev Sha256 := Matching Text.isSha256

abbrev Commit := Matching Text.isCommit

/-- `COMMIT_PATTERN` and `toLowerCase` -/
def Commit.read? (value : Json) : Option Commit :=
  value.str?.bind fun s =>
    Matching.ofText? (String.ofList (Text.lower s.toList))

-- ====== UUIDs

namespace Uuid

/-- `UUID_PATTERN` and `toLowerCase` -/
def ofText? (s : String) : Option Uuid :=
  if h : Text.shape uuidShape (Text.lower s.toList) = true then
    some ⟨String.ofList (Text.lower s.toList),
      by rw [String.toList_ofList]; exact h⟩
  else none

def json (u : Uuid) : Json := .str u.text

def read? (value : Json) : Option Uuid := value.str?.bind ofText?

theorem ext_text {a b : Uuid} (h : a.text = b.text) : a = b := by
  cases a
  cases b
  cases h
  rfl

end Uuid

theorem Text.isUpper_of_isHex {c : Char} (h : Text.isHex c = true) :
    Text.isUpper c = false := by
  by_cases hup : Text.isUpper c = true
  · exfalso
    simp only [Text.isHex, Text.isDigit, Text.isUpper, Bool.or_eq_true,
      Bool.and_eq_true, decide_eq_true_eq] at h hup
    simp only [Char.le_def, UInt32.le_iff_toNat_le] at h hup
    have h9 : '9'.val.toNat = 57 := rfl
    have hA : 'A'.val.toNat = 65 := rfl
    have hZ : 'Z'.val.toNat = 90 := rfl
    have ha : 'a'.val.toNat = 97 := rfl
    omega
  · simpa using hup

/-- A UUID is in lower case already. -/
theorem Uuid.lower_text (u : Uuid) :
    Text.lower u.text.toList = u.text.toList := by
  refine Text.lower_of_forall fun c hc => ?_
  rcases u.mem_text hc with h | rfl
  · exact Text.isUpper_of_isHex h
  · rfl

@[simp] theorem Uuid.ofText?_text (u : Uuid) :
    Uuid.ofText? u.text = some u := by
  have h : Text.shape uuidShape (Text.lower u.text.toList) = true := by
    rw [u.lower_text]
    exact u.shaped
  unfold Uuid.ofText?
  rw [dif_pos h]
  refine congrArg some (Uuid.ext_text ?_)
  show String.ofList (Text.lower u.text.toList) = u.text
  rw [u.lower_text, String.ofList_toList]

@[simp] theorem Uuid.read?_json (u : Uuid) :
    Uuid.read? u.json = some u := Uuid.ofText?_text u

@[simp] theorem Uuid.nullable?_json (u : Option Uuid) :
    Json.nullable? Uuid.read? (Json.ofOption Uuid.json u) = some u :=
  Json.nullable?_ofOption (fun _ h => Json.noConfusion h) Uuid.read?_json u

/-- A commit is in lower case already. -/
@[simp] theorem Commit.read?_json (c : Commit) :
    Commit.read? (Matching.json c) = some c := by
  have hlower : Text.lower c.text.toList = c.text.toList := by
    refine Text.lower_of_forall fun d hd => Text.isUpper_of_isHex ?_
    have hok := c.ok
    simp only [Text.isCommit, Text.inClass, Bool.and_eq_true] at hok
    exact List.all_eq_true.mp hok.1.1 d hd
  show Matching.ofText? (String.ofList (Text.lower c.text.toList)) = some c
  rw [hlower, String.ofList_toList]
  exact Matching.ofText?_text c

@[simp] theorem Commit.nullable?_json (c : Option Commit) :
    Json.nullable? Commit.read? (Json.ofOption Matching.json c) = some c :=
  Json.nullable?_ofOption (fun _ h => Json.noConfusion h) Commit.read?_json c

end Yunpanel
