/-
What the revision of a runtime binding guards against.

As long as a binding stays, its revision only grows, so an activation that
names the revision it has read replaces the binding it has read
(`Seen.current`). A removal starts the count again: an actor that read a
binding at revision 1 finds, once it was removed and made anew, another one
at revision 1 and replaces it. `replaces_what_was_read` is the guarantee for
the runs in which this does not happen, and `recreated_is_replaced` the run
in which it does.
-/
import Yunpanel.Applications.RuntimeBinding

namespace Yunpanel.Applications.RuntimeBinding

open Lib Lib.Result Lib.Protocol

-- ====== one call

variable {b : Binding} {past : List (Nat × Note)} {read : Option Binding}

theorem record_of_normalized {value : Record} (h : normalized value = .ok b) :
    normalizeRecord value = .ok b.record := by
  unfold normalized at h
  split at h
  · cases h
  · rename_i record hrecord
    obtain rfl := Except.ok.inj h
    exact hrecord

/-- What `normalizeRecord` leaves as it is. -/
theorem normalizeRecord_fields {value record : Record}
    (h : normalizeRecord value = .ok record) :
    1 ≤ value.revision ∧ record.revision = value.revision
      ∧ record.applicationId = value.applicationId := by
  unfold normalizeRecord at h
  simp only [bind_eq_ok, pure_eq, Except.ok.injEq] at h
  obtain ⟨_, hrevision, _, -, sorted, -, _, -, _, -, _, -, rfl⟩ := h
  exact ⟨(revision_eq_ok.mp hrevision).1, rfl, rfl⟩

theorem Binding.one_le_revision (b : Binding) : 1 ≤ b.record.revision :=
  (normalizeRecord_fields b.normal).1

namespace Store

theorem getBinding_put (s : Store) (b : Binding) (applicationId : Uuid) :
    (s.put b).getBinding applicationId
      = if b.applicationId = applicationId then some b
        else s.getBinding applicationId :=
  Keyed.get_put s.bindings b applicationId

theorem getBinding_remove (s : Store) (removed applicationId : Uuid) :
    (s.remove removed).getBinding applicationId
      = if removed = applicationId then none
        else s.getBinding applicationId :=
  Keyed.get_drop s.bindings removed applicationId

/-- What an activation that is accepted does: nothing, where the binding is
there, or it takes the place of the one at the revision it names. -/
theorem activate_eq_ok {s s' : Store} {now : Instant} {input : Activation}
    {expectedRevision : Nat}
    (h : s.activate now input expectedRevision = .ok (s', b)) :
    b.applicationId = input.applicationId
      ∧ ((s' = s ∧ s.getBinding input.applicationId = some b)
        ∨ (s' = s.put b ∧ b.record.revision = expectedRevision + 1
          ∧ ((s.getBinding input.applicationId).elim 0
              fun b => b.record.revision) = expectedRevision)) := by
  unfold activate at h
  simp only [bind_eq_ok] at h
  obtain ⟨_, -, c, hc, h⟩ := h
  obtain ⟨-, hrevision, happ⟩ := normalizeRecord_fields (record_of_normalized hc)
  have hid : c.applicationId = input.applicationId := happ
  rw [hid] at h
  split at h
  · rename_i same hsame
    obtain ⟨rfl, rfl⟩ := Prod.mk.inj (Except.ok.inj h)
    have hget := (Option.filter_eq_some_iff.mp hsame).1
    exact ⟨Keyed.key_of_get hget, .inl ⟨rfl, hget⟩⟩
  · simp only [bind_eq_ok, ensure_eq_ok] at h
    obtain ⟨_, hexpected, _, -, h⟩ := h
    obtain ⟨rfl, rfl⟩ := Prod.mk.inj (Except.ok.inj h)
    refine ⟨hid, .inr ⟨rfl, ?_, beq_iff_eq.mp hexpected⟩⟩
    rw [hrevision]
    show max 1 (expectedRevision + 1) = _
    omega

theorem removeOwned_eq_ok {adapter : Adapter} {label : String} {s s' : Store}
    {applicationId sourceOperationId : Uuid} {expectedRevision : Nat}
    {b : Option Binding}
    (h : removeOwned adapter label s applicationId sourceOperationId
      expectedRevision = .ok (s', b)) :
    (s' = s ∧ b = none)
      ∨ ∃ removed, s' = s.remove applicationId ∧ b = some removed
          ∧ removed.applicationId = applicationId := by
  unfold removeOwned at h
  simp only [bind_eq_ok] at h
  obtain ⟨_, -, h⟩ := h
  split at h
  · obtain ⟨rfl, rfl⟩ := Prod.mk.inj (Except.ok.inj h)
    exact .inl ⟨rfl, rfl⟩
  · rename_i existing hget
    simp only [bind_eq_ok] at h
    obtain ⟨_, -, _, -, h⟩ := h
    obtain ⟨rfl, rfl⟩ := Prod.mk.inj (Except.ok.inj h)
    exact .inr ⟨existing, rfl, rfl, Keyed.key_of_get hget⟩

end Store

-- ====== the guard

/-- A note that the binding of an application was removed. -/
def Note.removes (applicationId : Uuid) : Note → Bool
  | .removed (some b) => b.applicationId = applicationId
  | _ => false

/-- The note of a caller that it looked the binding up. -/
def Note.looks : Note → Bool
  | .read _ _ => true
  | _ => false

/-- Whether the binding of an application was removed since a caller looked
it up. -/
def removedSince (id : Nat) (applicationId : Uuid)
    (past : List (Nat × Note)) : Bool :=
  (past.dropWhile fun note => !(note.1 == id && note.2.looks)).any
    fun note => note.2.removes applicationId

/-- Every activation comes where the binding it was computed from was not
removed since, or where what was made in its place is at another revision
or the same activation. -/
def Undisturbed (f : Flight Store Actor) (past : List (Nat × Note)) :
    Flight.Event Uuid Deed Empty → Prop
  | .answer id (.activate _ _) =>
      ∀ applicationId r cur,
        f.stage id = some (.holding applicationId (some r)) →
        removedSince id applicationId past = true →
        f.shared.getBinding applicationId = some cur →
        cur.record.revision = r.record.revision →
          sameActivation cur.record r.record = true
  | _ => True

variable {id other : Nat} {f : Flight Store Actor}

theorem removedSince_append {applicationId : Uuid}
    (notes : List (Nat × Note))
    (h : removedSince id applicationId past = true) :
    removedSince id applicationId (past ++ notes) = true := by
  unfold removedSince at h ⊢
  rw [List.dropWhile_append]
  by_cases hempty : (past.dropWhile fun note =>
      !(note.1 == id && note.2.looks)).isEmpty = true
  · rw [List.isEmpty_iff.mp hempty] at h
    cases h
  · rw [if_neg hempty, List.any_append, h, Bool.true_or]

/-- A removal comes after what a caller has read already. -/
theorem removedSince_concat {applicationId : Uuid} {note : Note}
    (hread : (id, .read applicationId read) ∈ past)
    (hnote : note.removes applicationId = true) :
    removedSince id applicationId (past ++ [(other, note)]) = true := by
  unfold removedSince
  rw [List.dropWhile_append]
  by_cases hempty : (past.dropWhile fun note =>
      !(note.1 == id && note.2.looks)).isEmpty = true
  · have hall := List.dropWhile_eq_nil_iff.mp (List.isEmpty_iff.mp hempty)
    have hnot := hall _ hread
    simp [Note.looks] at hnot
  · rw [if_neg hempty, List.any_append]
    simp [hnote]

-- ====== one step

/-- What becomes of a binding in one call: it stays, it is replaced by one
of the next revision, or the call notes that it removed it. -/
theorem perform_current {s : Store} {applicationId : Uuid} (deed : Deed)
    {other : Uuid} {cur : Binding} (hcur : s.getBinding other = some cur) :
    ((perform s applicationId read deed).1.getBinding other = some cur)
      ∨ (∃ next, (perform s applicationId read deed).1.getBinding other
            = some next ∧ cur.record.revision < next.record.revision)
      ∨ ∃ note, (perform s applicationId read deed).2 = [note]
          ∧ note.removes other = true := by
  have hremoval : ∀ {adapter : Adapter} {label : String} {source : Uuid},
      let result := Store.removeOwned adapter label s applicationId source
        (expected read)
      ((afterRemoval s result).1.getBinding other = some cur)
        ∨ (∃ next, (afterRemoval s result).1.getBinding other = some next
          ∧ cur.record.revision < next.record.revision)
        ∨ ∃ note, (afterRemoval s result).2 = [note]
            ∧ note.removes other = true := by
    intro adapter label source result
    cases hresult : result with
    | error e => exact .inl hcur
    | ok after =>
        obtain ⟨s', b⟩ := after
        rcases Store.removeOwned_eq_ok hresult with ⟨rfl, rfl⟩
          | ⟨removed, rfl, rfl, hid⟩
        · exact .inl hcur
        · by_cases happ : applicationId = other
          · refine .inr (.inr ⟨.removed (some removed), rfl, ?_⟩)
            exact decide_eq_true (hid.trans happ)
          · left
            show (s.remove applicationId).getBinding other = some cur
            rw [Store.getBinding_remove, if_neg happ]
            exact hcur
  cases deed with
  | activate now input =>
      unfold perform
      dsimp only
      cases hactivate : s.activate now { input with applicationId }
          (expected read) with
      | error e => exact .inl hcur
      | ok after =>
          obtain ⟨s', b⟩ := after
          obtain ⟨hid, ⟨rfl, -⟩ | ⟨rfl, hrevision, hexpected⟩⟩ :=
            Store.activate_eq_ok hactivate
          · exact .inl hcur
          · dsimp only
            rw [Store.getBinding_put]
            by_cases happ : b.applicationId = other
            · refine .inr (.inl ⟨b, if_pos happ, ?_⟩)
              have hfound : s.getBinding applicationId = some cur := by
                rw [← hcur, ← happ, hid]
              have hequal : cur.record.revision = expected read := by
                rw [← hexpected, hfound]
                rfl
              omega
            · left
              rw [if_neg happ]
              exact hcur
  | removePassenger source => exact hremoval
  | removeStatic source => exact hremoval

/-- What is known of a state and of what was noted on the way to it. -/
structure Seen (f : Flight Store Actor) (past : List (Nat × Note)) :
    Prop where
  read : ∀ id applicationId r,
    f.stage id = some (.holding applicationId r) →
      (id, .read applicationId r) ∈ past
  /-- While a binding is not removed its revision grows. -/
  current : ∀ id applicationId r,
    f.stage id = some (.holding applicationId (some r)) →
      removedSince id applicationId past = true
        ∨ ∃ cur, f.shared.getBinding applicationId = some cur
            ∧ r.record.revision ≤ cur.record.revision
            ∧ (cur.record.revision = r.record.revision → cur = r)
  replaced : ∀ id read existing b,
    (id, .activated read (some existing) b) ∈ past → existing ≠ b →
      ∃ r, read = some r
        ∧ sameActivation existing.record r.record = true
        ∧ existing.record.revision = r.record.revision

theorem seen_fresh (s : Store) : Seen (Flight.fresh s) [] :=
  ⟨fun _ _ _ h => (nomatch h), fun _ _ _ h => (nomatch h),
    fun _ _ _ _ h => (nomatch h)⟩

/-- What one call leaves true of a binding that somebody has read. -/
theorem current_perform {s : Store} {applicationId : Uuid} (deed : Deed)
    {app : Uuid} {r : Binding} (hread : (id, .read app (some r)) ∈ past)
    (hcur : ∃ cur, s.getBinding app = some cur
      ∧ r.record.revision ≤ cur.record.revision
      ∧ (cur.record.revision = r.record.revision → cur = r)) :
    removedSince id app (past ++ (perform s applicationId read deed).2.map
        fun note => (other, note)) = true
      ∨ ∃ cur, (perform s applicationId read deed).1.getBinding app = some cur
          ∧ r.record.revision ≤ cur.record.revision
          ∧ (cur.record.revision = r.record.revision → cur = r) := by
  obtain ⟨cur, hget, hle, heq⟩ := hcur
  rcases perform_current deed hget with hsame | ⟨next, hnext, hlt⟩
    | ⟨note, hnotes, hremoves⟩
  · exact .inr ⟨cur, hsame, hle, heq⟩
  · exact .inr ⟨next, hnext, by omega, fun h => by omega⟩
  · left
    rw [hnotes]
    exact removedSince_concat hread hremoves

/-- What an activation replaces is what was read: the binding is at the
revision that was read, and while it is not removed that is only the
binding itself. -/
theorem replaced_perform {s : Store} {applicationId : Uuid} {deed : Deed}
    {existing : Binding} {read' : Option Binding}
    (hcur : ∀ now input, deed = .activate now input → ∀ r, read = some r →
      ∀ cur, s.getBinding applicationId = some cur →
        cur.record.revision = r.record.revision →
          sameActivation cur.record r.record = true)
    (hnote : .activated read' (some existing) b
      ∈ (perform s applicationId read deed).2) (hne : existing ≠ b) :
    ∃ r, read' = some r
      ∧ sameActivation existing.record r.record = true
      ∧ existing.record.revision = r.record.revision := by
  have hremoval : ∀ result : Except Failure (Store × Option Binding),
      .activated read' (some existing) b ∉ (afterRemoval s result).2 := by
    intro result hmem
    cases result with
    | error e => exact absurd (List.mem_singleton.mp hmem) (by simp)
    | ok after => exact absurd (List.mem_singleton.mp hmem) (by simp)
  cases deed with
  | removePassenger source => exact absurd hnote (hremoval _)
  | removeStatic source => exact absurd hnote (hremoval _)
  | activate now input =>
      unfold perform at hnote
      dsimp only at hnote
      cases hactivate : s.activate now { input with applicationId }
          (expected read) with
      | error e =>
          rw [hactivate] at hnote
          exact absurd (List.mem_singleton.mp hnote) (by simp)
      | ok after =>
          obtain ⟨s', b'⟩ := after
          rw [hactivate] at hnote
          have hequal := List.mem_singleton.mp hnote
          obtain ⟨rfl, hexisting, rfl⟩ := Note.activated.inj hequal
          obtain ⟨-, ⟨-, hsame⟩ | ⟨-, -, hexpected⟩⟩ :=
            Store.activate_eq_ok hactivate
          · rw [← hexisting] at hsame
            exact absurd (Option.some.inj hsame) hne
          · rw [← hexisting] at hexpected
            have hone := existing.one_le_revision
            cases read' with
            | none =>
                have hzero : existing.record.revision = 0 := hexpected
                omega
            | some r =>
                have hrevision : existing.record.revision = r.record.revision :=
                  hexpected
                exact ⟨r, rfl, hcur now input rfl r rfl existing
                  hexisting.symm hrevision, hrevision⟩

-- ====== runs

/-- A step that leaves the store and the callers as they are. -/
theorem Seen.mono {f' : Flight Store Actor} (hf : Seen f past)
    (hshared : f'.shared = f.shared) (hstage : ∀ id applicationId r,
      f'.stage id = some (.holding applicationId r) →
        f.stage id = some (.holding applicationId r)) : Seen f' past := by
  refine ⟨fun id app r h => hf.read id app r (hstage id app _ h),
    fun id app r h => ?_, hf.replaced⟩
  rw [hshared]
  exact hf.current id app r (hstage id app _ h)

theorem seen_next (f : Flight Store Actor)
    (e : Flight.Event Uuid Deed Empty) (past : List (Nat × Note))
    (hok : Undisturbed f past e) (hf : Seen f past) :
    Seen (protocol.machine.next f e) (past ++ protocol.machine.answer f e) := by
  cases e with
  | start c =>
      show Seen { f with calls := f.calls ++ [some (.looking c)] } (past ++ [])
      rw [List.append_nil]
      refine hf.mono rfl fun id app r h => ?_
      rcases Flight.stage_start_eq_some h with h | ⟨-, h⟩
      · exact h
      · cases h
  | world x => cases x
  | restart =>
      show Seen _ (past ++ [])
      rw [List.append_nil]
      refine hf.mono rfl fun id app r h => ?_
      rw [protocol.next_restart, Flight.stage_forgotten] at h
      cases h
  | answer id deed =>
      show Seen (protocol.step f (.answer id deed)).1
        (past ++ (protocol.step f (.answer id deed)).2)
      cases hstage : f.stage id with
      | none =>
          rw [protocol.step_answer_none deed hstage, List.append_nil]
          exact hf
      | some k =>
          rw [protocol.step_answer deed hstage]
          dsimp only
          have hother : ∀ {j : Nat} {s : Store} {next : Option Actor}
              {app : Uuid} {r : Option Binding}, j ≠ id →
              Flight.stage { shared := s, calls := f.calls.set id next } j
                = some (.holding app r) → f.stage j = some (.holding app r) := by
            intro j s next app r hj h
            rwa [Flight.stage_set_ne f (Ne.symm hj)] at h
          cases k with
          | looking applicationId =>
              -- The caller itself holds what the store has.
              refine ⟨fun j app r h => ?_, fun j app r h => ?_,
                fun j read existing b h hne => ?_⟩
              · by_cases hj : j = id
                · subst hj
                  rw [Flight.stage_set_self hstage] at h
                  obtain ⟨rfl, rfl⟩ := Actor.holding.inj (Option.some.inj h)
                  exact List.mem_append_right _ (List.mem_singleton_self _)
                · exact List.mem_append_left _ (hf.read j app r (hother hj h))
              · by_cases hj : j = id
                · subst hj
                  rw [Flight.stage_set_self hstage] at h
                  obtain ⟨rfl, hr⟩ := Actor.holding.inj (Option.some.inj h)
                  exact .inr ⟨r, hr, Nat.le_refl _, fun _ => rfl⟩
                · exact (hf.current j app r (hother hj h)).imp_left
                    (removedSince_append _)
              · rcases List.mem_append.mp h with h | h
                · exact hf.replaced j read existing b h hne
                · obtain ⟨-, h⟩ := Prod.mk.inj (List.mem_singleton.mp h)
                  cases h
          | holding applicationId read =>
              have hover : ∀ {s : Store} {app : Uuid} {r : Option Binding},
                  Flight.stage { shared := s, calls := f.calls.set id none } id
                    ≠ some (.holding app r) := by
                intro s app r h
                rw [Flight.stage_set_self hstage] at h
                cases h
              refine ⟨fun j app r h => ?_, fun j app r h => ?_,
                fun j read' existing b h hne => ?_⟩
              · by_cases hj : j = id
                · exact absurd (hj ▸ h) hover
                · exact List.mem_append_left _ (hf.read j app r (hother hj h))
              · by_cases hj : j = id
                · exact absurd (hj ▸ h) hover
                · have hold := hother hj h
                  rcases hf.current j app r hold with hremoved | hcur
                  · exact .inl (removedSince_append _ hremoved)
                  · exact current_perform deed (hf.read j app _ hold) hcur
              · rcases List.mem_append.mp h with h | h
                · exact hf.replaced j read' existing b h hne
                · obtain ⟨note, hnote, heq⟩ := List.mem_map.mp h
                  obtain ⟨rfl, rfl⟩ := Prod.mk.inj heq
                  refine replaced_perform ?_ hnote hne
                  rintro now input rfl r rfl cur hcur hrevision
                  rcases hf.current id applicationId r hstage with hremoved
                    | ⟨cur', hcur', -, hsame⟩
                  · exact hok applicationId r cur hstage hremoved hcur hrevision
                  · rw [hcur] at hcur'
                    obtain rfl := Option.some.inj hcur'
                    rw [hsame hrevision]
                    exact decide_eq_true rfl

-- ====== repetition

/-- A record is normalized alike under any revision. -/
theorem normalizeRecord_again {value record : Record} {revision : Nat}
    (updatedAt : Instant) (h : normalizeRecord value = .ok record)
    (hrevision : 1 ≤ revision ∧ revision ≤ maxSafe) :
    normalizeRecord { value with revision, updatedAt }
      = .ok { record with revision, updatedAt } := by
  unfold normalizeRecord at h ⊢
  simp only [bind_eq_ok, pure_eq, Except.ok.injEq] at h ⊢
  obtain ⟨_, -, _, hwebsite, sorted, hdomains, _, hpassenger, _, hstatic, _,
    hstate, rfl⟩ := h
  exact ⟨(), revision_eq_ok.mpr hrevision, _, hwebsite, sorted, hdomains, _,
    hpassenger, _, hstatic, _, hstate, rfl⟩

theorem exists_normalized {value record : Record}
    (h : normalizeRecord value = .ok record) :
    ∃ b, normalized value = .ok b ∧ b.record = record := by
  unfold normalized
  split
  · rename_i e he
    rw [h] at he
    cases he
  · rename_i record' hrecord
    rw [h] at hrecord
    obtain rfl := Except.ok.inj hrecord
    exact ⟨_, rfl, rfl⟩

/-- An activation leaves its binding, and repeated where that still is
there it changes nothing, whatever revision it names by then. -/
theorem Store.activate_again {s s' : Store} {now : Instant}
    {input : Activation} {expectedRevision : Nat}
    (h : s.activate now input expectedRevision = .ok (s', b)) :
    s'.getBinding input.applicationId = some b
      ∧ ∀ (t : Store) (later : Instant) (named : Nat), named < maxSafe →
          t.getBinding input.applicationId = some b →
            t.activate later input named = .ok (t, b) := by
  have hfound : s'.getBinding input.applicationId = some b := by
    obtain ⟨hid, ⟨rfl, hsame⟩ | ⟨rfl, -, -⟩⟩ := activate_eq_ok h
    · exact hsame
    · rw [getBinding_put, if_pos hid]
  refine ⟨hfound, fun t later named hnamed ht => ?_⟩
  unfold activate at h
  simp only [bind_eq_ok] at h
  obtain ⟨_, -, c, hc, h⟩ := h
  have hrecord := record_of_normalized hc
  have happlication : c.applicationId = input.applicationId :=
    (normalizeRecord_fields hrecord).2.2
  -- The binding that is there is the one of this activation.
  have hsame : b.record.toActivation = c.record.toActivation := by
    split at h
    · rename_i same hsame
      obtain ⟨-, rfl⟩ := Prod.mk.inj (Except.ok.inj h)
      exact of_decide_eq_true (Option.filter_eq_some_iff.mp hsame).2
    · simp only [bind_eq_ok] at h
      obtain ⟨_, -, _, -, h⟩ := h
      obtain ⟨-, rfl⟩ := Prod.mk.inj (Except.ok.inj h)
      rfl
  have hrange : 1 ≤ max 1 (named + 1) ∧ max 1 (named + 1) ≤ maxSafe := by omega
  obtain ⟨c', hc', hcrecord⟩ := exists_normalized
    (normalizeRecord_again later hrecord hrange)
  have hcandidate : candidate later input named = .ok c' := hc'
  have hid : c'.applicationId = input.applicationId := by
    unfold Binding.applicationId
    rw [hcrecord]
    exact happlication
  have hkept : (some b).filter
      (fun b => sameActivation b.record c'.record) = some b := by
    rw [Option.filter_eq_some_iff]
    refine ⟨rfl, ?_⟩
    rw [hcrecord]
    exact decide_eq_true hsame
  unfold activate
  rw [hcandidate]
  simp only [bind_eq_ok, ensure_eq_ok, decide_eq_true_eq, ok_bind]
  refine ⟨⟨⟩, by omega, ?_⟩
  rw [hid, ht, hkept]
  rfl

/-- Where no binding is recreated behind an actor's back, every binding an
activation replaces is the activation its actor has read; and an activation
that is repeated changes nothing. -/
theorem replaces_what_was_read (s : Store)
    (events : List (Flight.Event Uuid Deed Empty))
    (hok : protocol.AllowedNoted Undisturbed (Flight.fresh s) [] events) :
    (∀ id read existing b,
      (id, .activated read (some existing) b)
          ∈ protocol.notes (Flight.fresh s) events → existing ≠ b →
        ∃ r, read = some r
          ∧ sameActivation existing.record r.record = true
          ∧ existing.record.revision = r.record.revision)
      ∧ ∀ (t t' : Store) (now : Instant) (input : Activation)
          (expectedRevision : Nat) (b : Binding),
          t.activate now input expectedRevision = .ok (t', b) →
          ∀ (u : Store) (later : Instant) (named : Nat), named < maxSafe →
            u.getBinding input.applicationId = some b →
              u.activate later input named = .ok (u, b) := by
  constructor
  · have hseen := noted_run_of_allowedNoted seen_next hok (seen_fresh s)
    rw [List.nil_append] at hseen
    exact hseen.replaced
  · intro t t' now input expectedRevision b h
    exact (Store.activate_again h).2

-- ====== samples

/-- Where nothing was removed so far, no activation is disturbed. -/
theorem undisturbed_of_quiet (e : Flight.Event Uuid Deed Empty)
    (h : (past.all fun note => match note.2 with
      | .removed _ => false
      | _ => true) = true) : Undisturbed f past e := by
  have hquiet : ∀ id app, removedSince id app past = false := by
    intro id app
    unfold removedSince
    rw [List.any_eq_false]
    intro note hnote
    have hmem := List.dropWhile_sublist _ |>.subset hnote
    have hnot := List.all_eq_true.mp h note hmem
    obtain ⟨other, note⟩ := note
    cases note with
    | removed b => cases hnot
    | read _ _ | activated _ _ _ | refused _ => exact Bool.false_ne_true
  cases e with
  | answer id deed =>
      cases deed with
      | activate now input =>
          intro app r cur _ hremoved
          rw [hquiet id app] at hremoved
          cases hremoved
      | removePassenger _ | removeStatic _ => trivial
  | start _ | world _ | restart => trivial

def sampleApplication : Uuid :=
  ⟨"42345678-1234-4234-8234-123456789012", by decide⟩

def firstOperation : Uuid :=
  ⟨"12345678-1234-4234-8234-123456789012", by decide⟩

def secondOperation : Uuid :=
  ⟨"12345678-1234-4234-8234-123456789013", by decide⟩

/-- A static site is served from a release, by some operation. -/
def sampleActivation (sourceOperationId : Uuid) : Activation where
  applicationId := sampleApplication
  serverId := ⟨"22345678-1234-4234-8234-123456789012", by decide⟩
  adapter := .static
  state := .active
  sourceOperationId
  releaseId := ⟨"62345678-1234-4234-8234-123456789012", by decide⟩
  websiteId := ⟨"32345678-1234-4234-8234-123456789012", by decide⟩
  websiteRevision := 1
  domains := [{
    domainId := ⟨"52345678-1234-4234-8234-123456789012", by decide⟩
    desiredRevision := 1
    nginxChecksum :=
      "f447e8cfc010135b7bf933613bb658ecb9aa45d8296662eec09479f4bfcf2815" }]
  passengerTarget := none
  staticTarget := some {
    publishRoot := "/srv/yunpanel/site/current"
    documentRoot := "/srv/yunpanel/site/current/public"
    user := "yunapp-123456781234"
    group := "yunapp-123456781234" }

def sampleNow : Instant := ⟨1789264800000⟩

def sampleBinding (sourceOperationId : Uuid) (revision : Nat)
    (h : normalizeRecord { toActivation := sampleActivation sourceOperationId
                           revision, updatedAt := sampleNow }
      = .ok { toActivation := sampleActivation sourceOperationId
              revision, updatedAt := sampleNow }) : Binding :=
  ⟨_, h⟩

def noBindings : Store := ⟨[], List.nodup_nil⟩

def activateBy (sourceOperationId : Uuid) : Deed :=
  .activate sampleNow (sampleActivation sourceOperationId)

/-- An actor that looks the binding of the sample up; what it will do does
not matter yet. -/
def looks (id : Nat) : List (Flight.Event Uuid Deed Empty) :=
  [.start sampleApplication, .answer id (.removeStatic sampleApplication)]

/-- One actor activates, and the next one after it. -/
def inTurn : List (Flight.Event Uuid Deed Empty) :=
  looks 0 ++ .answer 0 (activateBy firstOperation)
    :: (looks 1 ++ [.answer 1 (activateBy secondOperation)])

theorem inTurn_replaces :
    (∀ id read existing b,
      (id, .activated read (some existing) b)
          ∈ protocol.notes (Flight.fresh noBindings) inTurn → existing ≠ b →
        ∃ r, read = some r
          ∧ sameActivation existing.record r.record = true
          ∧ existing.record.revision = r.record.revision)
      ∧ ∀ (t t' : Store) (now : Instant) (input : Activation)
          (expectedRevision : Nat) (b : Binding),
          t.activate now input expectedRevision = .ok (t', b) →
          ∀ (u : Store) (later : Instant) (named : Nat), named < maxSafe →
            u.getBinding input.applicationId = some b →
              u.activate later input named = .ok (u, b) := by
  apply replaces_what_was_read
  refine ⟨?_, ?_, ?_, ?_, ?_, ?_, trivial⟩
  all_goals exact undisturbed_of_quiet _ (by decide +kernel)

/-- The second actor looks at the binding of the first operation, which then
is removed; the binding of the second operation is made, and the second
actor activates its own. -/
def recreated : List (Flight.Event Uuid Deed Empty) :=
  looks 0 ++ .answer 0 (activateBy firstOperation)
    :: (looks 1 ++ looks 2 ++ .answer 2 (.removeStatic firstOperation)
    :: (looks 3 ++ [.answer 3 (activateBy secondOperation),
      .answer 1 (activateBy sampleApplication)]))

/-- The binding that was made anew is replaced by an activation that was
computed from the one before it. -/
theorem recreated_is_replaced :
    ¬∀ id read existing b,
      (id, .activated read (some existing) b)
          ∈ protocol.notes (Flight.fresh noBindings) recreated →
        existing ≠ b →
        ∃ r, read = some r
          ∧ sameActivation existing.record r.record = true
          ∧ existing.record.revision = r.record.revision := by
  intro h
  have hnote : (1, Note.activated
        (some (sampleBinding firstOperation 1 (by decide +kernel)))
        (some (sampleBinding secondOperation 1 (by decide +kernel)))
        (sampleBinding sampleApplication 2 (by decide +kernel)))
      ∈ protocol.notes (Flight.fresh noBindings) recreated := by
    decide +kernel
  obtain ⟨r, hr, hsame, -⟩ := h _ _ _ _ hnote (by decide +kernel)
  obtain rfl := Option.some.inj hr
  revert hsame
  decide +kernel

example : Text.isDigit '7' = true := by decide +kernel

end Yunpanel.Applications.RuntimeBinding
