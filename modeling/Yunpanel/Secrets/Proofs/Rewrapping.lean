/-
What sealing anew leaves of a list of records, and of a table.

`rewrapAll` relates each record with the one it makes; updating a table
row by row amounts to giving every row its new secret, because the rows
have different users.
-/
import Mathlib.Data.List.Forall2
import Yunpanel.Lib.Result
import Yunpanel.Secrets.Rotation

namespace Yunpanel.Secrets

open Lib

-- ====== lists

/-- Record by record: what sealing anew made of each. -/
theorem forall₂_of_rewrapAll {α β : Type}
    {rewrap : Nonce → α → Except Failure β} {nonces : Nat → Nonce}
    {rs : List α} {rs' : List β}
    (h : rewrapAll rewrap nonces rs = .ok rs') :
    List.Forall₂ (fun r r' => ∃ nonce, rewrap nonce r = .ok r') rs rs' := by
  induction rs generalizing nonces rs' with
  | nil =>
      obtain rfl := Except.ok.inj h
      exact .nil
  | cons r rs ih =>
      obtain ⟨r', hr, h⟩ := Result.bind_eq_ok.mp h
      obtain ⟨rs'', hrs, h⟩ := Result.bind_eq_ok.mp h
      obtain rfl := Except.ok.inj h
      exact .cons ⟨nonces 0, hr⟩ (ih hrs)

variable {current next : Key} {row : MfaRow} {rows : List MfaRow}

/-- A rewrapped row comes with the row itself. -/
theorem fst_of_rewrapMfaRow {crypto : Crypto} {nonce : Nonce}
    {pair : MfaRow × Envelope}
    (h : rewrapMfaRow crypto current next nonce row = .ok pair) :
    pair.1 = row := by
  unfold rewrapMfaRow at h
  split at h
  · cases h
  · split at h
    · rw [← Except.ok.inj h]
    · cases h

theorem map_fst_of_rewrapMfaRows {c : Rotation} {t : TableName}
    {pairs : List (MfaRow × Envelope)}
    (h : c.rewrapMfaRows current next t rows = .ok pairs) :
    pairs.map Prod.fst = rows := by
  have hsame : List.Forall₂ (· = ·) rows (pairs.map Prod.fst) :=
    List.forall₂_map_right_iff.mpr ((forall₂_of_rewrapAll h).imp
      fun row pair ⟨nonce, hrow⟩ => (fst_of_rewrapMfaRow hrow).symm)
  rw [List.forall₂_eq_eq_eq] at hsame
  exact hsame.symm

-- ====== tables

namespace AuthDb

/-- A row with its new secret. -/
def resealed (pair : MfaRow × Envelope) : MfaRow :=
  { pair.1 with secret := some pair.2 }

/-- A row of another user stays as it is. -/
theorem map_reseal_of_ne (h : ∀ r ∈ rows, r.userId ≠ row.userId)
    (next : Envelope) :
    rows.map (reseal row.userId row.secret next) = rows := by
  refine (List.map_congr_left fun r hr => ?_).trans (List.map_id rows)
  unfold reseal
  rw [if_neg fun hsame => h r hr hsame.1]
  rfl

/-- Updating rows that come after some that are done updates each of
them. -/
theorem updateSecrets_eq {table : MfaTable} {done : List MfaRow}
    {todo : List (MfaRow × Envelope)}
    (h : table.rows = done ++ todo.map Prod.fst) :
    ∃ table', updateSecrets table todo = some table'
      ∧ table'.rows = done ++ todo.map resealed := by
  induction todo generalizing table done with
  | nil => exact ⟨table, rfl, h⟩
  | cons pair todo ih =>
      obtain ⟨row, next⟩ := pair
      have hkeyed := table.keyed
      rw [h, List.map_cons, List.map_append, List.map_cons,
        List.nodup_append] at hkeyed
      obtain ⟨-, hnodup, hapart⟩ := hkeyed
      have hdone : ∀ r ∈ done, r.userId ≠ row.userId := fun r hr =>
        hapart _ (List.mem_map_of_mem hr) _ (List.mem_cons_self ..)
      have hrest : ∀ r ∈ todo.map Prod.fst, r.userId ≠ row.userId := by
        intro r hr hsame
        refine (List.nodup_cons.mp hnodup).1 ?_
        rw [← hsame]
        exact List.mem_map_of_mem hr
      have hself : reseal row.userId row.secret next row
          = resealed (row, next) := if_pos ⟨rfl, rfl⟩
      have hrows : (updateSecret table row next).rows
          = (done ++ [resealed (row, next)]) ++ todo.map Prod.fst := by
        show table.rows.map (reseal row.userId row.secret next) = _
        rw [h, List.map_append, List.map_cons, List.map_cons,
          map_reseal_of_ne hdone, map_reseal_of_ne hrest, hself]
        simp
      have hchanges : changes table row = 1 := by
        have hnone : ∀ rows : List MfaRow,
            (∀ r ∈ rows, r.userId ≠ row.userId) →
            rows.countP (fun r => r.userId == row.userId
              && r.secret == row.secret) = 0 := by
          intro rows hrows
          rw [List.countP_eq_zero]
          intro r hr
          simp [hrows r hr]
        unfold changes
        rw [h, List.countP_append, List.map_cons, List.countP_cons,
          hnone done hdone, hnone _ hrest]
        simp
      obtain ⟨table', htable', hrows'⟩ := ih hrows
      refine ⟨table', ?_, ?_⟩
      · rw [updateSecrets, if_pos hchanges, htable']
      · rw [hrows']
        simp

end AuthDb

end Yunpanel.Secrets
