/-
The lock of the certificate routes: one body for a domain at a time.

# The promises

Every call of `withDomainLock` makes one promise, `current`, which is
resolved when its body is over and is never rejected. It waits for the
promise it finds in the map under its domain, or for one that is resolved
already where it finds none. Calls are numbered in the order they are
made, and a promise goes by the number of its call.

# The steps

A call runs to its first `await` at once. Its body starts in a turn of its
own once the promise it waits for is resolved, and the `finally` is run in
a turn of its own once the body has resolved or thrown.
-/
import Yunpanel.Lib.Machine

namespace Yunpanel.Certificates

open Lib

/-- How far a call has come. -/
inductive Stage where
  | waiting
  | running
  | settled (ok : Bool)
  deriving DecidableEq, Repr

structure LockCall where
  domainId : String
  /-- The call whose promise is awaited, where one was found. -/
  previous : Option Nat
  /-- `current` is resolved. -/
  released : Bool
  stage : Stage
  deriving DecidableEq, Repr

/-- The map, and every call that was made. -/
structure Locks where
  calls : List LockCall
  domainLocks : List (String × Nat)
  deriving DecidableEq, Repr

inductive LockEvent where
  | call (domainId : String)
  | start (n : Nat)
  | settle (n : Nat) (ok : Bool)
  deriving DecidableEq, Repr

namespace Locks

/-- `new Map()`, and no call yet. -/
def fresh : Locks := ⟨[], []⟩

/-- `domainLocks.delete(domainId)` -/
def delete (domainLocks : List (String × Nat)) (domainId : String) :
    List (String × Nat) :=
  domainLocks.filter fun entry => entry.1 != domainId

/-- `domainLocks.set(domainId, current)` -/
def set (domainLocks : List (String × Nat)) (domainId : String) (n : Nat) :
    List (String × Nat) :=
  (domainId, n) :: delete domainLocks domainId

/-- The promise of a call is resolved. -/
def isReleased (s : Locks) (n : Nat) : Bool :=
  (s.calls[n]?).any (·.released)

/-- `withDomainLock(domainId, operation)`, to its first `await`. -/
def withDomainLock (s : Locks) (domainId : String) : Locks where
  calls := s.calls ++ [{
    domainId
    previous := s.domainLocks.lookup domainId
    released := false
    stage := .waiting }]
  domainLocks := set s.domainLocks domainId s.calls.length

/-- `await previous.catch(() => {})` is over, and `operation()` called. -/
def startBody (s : Locks) (n : Nat) : Locks × Option (String × Nat) :=
  match s.calls[n]? with
  | some c =>
      if c.stage = .waiting ∧ c.previous.all s.isReleased = true then
        ({ s with calls := s.calls.set n { c with stage := .running } },
          some (c.domainId, n))
      else (s, none)
  | none => (s, none)

/-- The body has resolved or thrown, and the `finally` is run. -/
def settleBody (s : Locks) (n : Nat) (ok : Bool) : Locks :=
  match s.calls[n]? with
  | some c =>
      if c.stage = .running then
        { calls := s.calls.set n
            { c with released := true, stage := .settled ok }
          domainLocks :=
            if s.domainLocks.lookup c.domainId = some n then
              delete s.domainLocks c.domainId
            else s.domainLocks }
      else s
  | none => s

def step (s : Locks) : LockEvent → Locks × Option (String × Nat)
  | .call domainId => (s.withDomainLock domainId, none)
  | .start n => s.startBody n
  | .settle n ok => (s.settleBody n ok, none)

end Locks

/-- The lock as a machine that answers which body a step starts. -/
def domainLock : Machine Locks LockEvent (Option (String × Nat)) :=
  ⟨Locks.step⟩

end Yunpanel.Certificates
