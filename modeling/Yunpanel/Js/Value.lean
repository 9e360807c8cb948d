/-
JSON values and points in time.

Payloads and results travel through the program as JSON objects that most
of it never looks into. The numbers it stores are integers.
-/
import Yunpanel.Js.Text

namespace Yunpanel

/-- A JSON value; the fields of an object are in insertion order. -/
inductive Json where
  | null
  | bool (b : Bool)
  | num (n : Int)
  | str (s : String)
  | arr (items : List Json)
  | obj (fields : List (String × Json))

namespace Json

mutual

/-- Whether two values have one text: the same fields in the same order. -/
def same : Json → Json → Bool
  | null, null => true
  | bool a, bool b => a == b
  | num a, num b => a == b
  | str a, str b => a == b
  | arr as, arr bs => sameItems as bs
  | obj as, obj bs => sameFields as bs
  | _, _ => false

def sameItems : List Json → List Json → Bool
  | [], [] => true
  | a :: as, b :: bs => same a b && sameItems as bs
  | _, _ => false

def sameFields : List (String × Json) → List (String × Json) → Bool
  | [], [] => true
  | (k, a) :: as, (l, b) :: bs => k == l && same a b && sameFields as bs
  | _, _ => false

end

mutual

theorem same_iff (a b : Json) : same a b = true ↔ a = b := by
  cases a with
  | null | bool _ | num _ | str _ => cases b <;> simp [same]
  | arr as =>
      cases b with
      | arr bs =>
          rw [same, sameItems_iff as bs]
          simp
      | null | bool _ | num _ | str _ | obj _ => simp [same]
  | obj as =>
      cases b with
      | obj bs =>
          rw [same, sameFields_iff as bs]
          simp
      | null | bool _ | num _ | str _ | arr _ => simp [same]

theorem sameItems_iff (as bs : List Json) :
    sameItems as bs = true ↔ as = bs := by
  cases as with
  | nil => cases bs <;> simp [sameItems]
  | cons a as =>
      cases bs with
      | nil => simp [sameItems]
      | cons b bs =>
          rw [sameItems, Bool.and_eq_true, same_iff a b, sameItems_iff as bs]
          simp

theorem sameFields_iff (as bs : List (String × Json)) :
    sameFields as bs = true ↔ as = bs := by
  match as, bs with
  | [], [] => simp [sameFields]
  | [], _ :: _ => simp [sameFields]
  | _ :: _, [] => simp [sameFields]
  | (k, a) :: as, (l, b) :: bs =>
      rw [sameFields, Bool.and_eq_true, Bool.and_eq_true, beq_iff_eq,
        same_iff a b, sameFields_iff as bs]
      simp

end

instance : DecidableEq Json := fun a b => decidable_of_iff _ (same_iff a b)

/-- `value && typeof value === 'object' && !Array.isArray(value)` -/
def isObject : Json → Bool
  | obj _ => true
  | _ => false

/-- Assign one key of an object: in place where it is there, at the end
otherwise. -/
def assign (key : String) (value : Json) :
    List (String × Json) → List (String × Json)
  | [] => [(key, value)]
  | (k, v) :: rest =>
      if k = key then (k, value) :: rest
      else (k, v) :: assign key value rest

/-- `{ ...object, [key]: value }` -/
def spread (key : String) (value : Json) : Json → Json
  | obj fields => obj (assign key value fields)
  | _ => obj [(key, value)]

end Json

/-- A point in time, in milliseconds: `new Date(ms).toISOString()` is its
one text. -/
structure Instant where
  ms : Int
  deriving DecidableEq, Repr

end Yunpanel
