/-
The transaction of the rotation up to where the files are replaced.

Nothing in the stores has changed since the preflight, so what is read
again is what was read, and the updates find every row: at the end the
transaction holds what a commit leaves (`Staged`).
-/
import Yunpanel.Secrets.Proofs.Preflight

namespace Yunpanel.Secrets

open Lib Exec

namespace Rotation

variable {c : Rotation} {w₀ w : World} {p : Prepared}

/-- What was prepared, part by part. -/
theorem prepared_eq_ok (h : c.prepared w₀ = .ok p) :
    ∃ current next, c.keys = .ok (current, next)
      ∧ (∀ f, c.nextFile current next w₀ f = .ok (p.next f))
      ∧ (∀ t, c.rewrapMfaRows current next t (w₀.auth.rows t)
          = .ok (p.nextRows t))
      ∧ (∀ f, p.text f = if c.present w₀ f then w₀.file f else none)
      ∧ p.rows = w₀.auth.rows := by
  unfold prepared at h
  obtain ⟨⟨current, next⟩, hkeys, h⟩ := Result.bind_eq_ok.mp h
  obtain ⟨environment, henvironment, h⟩ := Result.bind_eq_ok.mp h
  obtain ⟨dnsProvider, hdnsProvider, h⟩ := Result.bind_eq_ok.mp h
  obtain ⟨mailbox, hmailbox, h⟩ := Result.bind_eq_ok.mp h
  obtain ⟨active, hactive, h⟩ := Result.bind_eq_ok.mp h
  obtain ⟨pending, hpending, h⟩ := Result.bind_eq_ok.mp h
  obtain rfl := Except.ok.inj h
  refine ⟨current, next, hkeys, fun f => ?_, fun t => ?_, fun f => rfl,
    rfl⟩
  · cases f
    · exact henvironment
    · exact hdnsProvider
    · exact hmailbox
  · cases t
    · exact hactive
    · exact hpending

/-- There is something to write of just the files there are. -/
theorem isSome_next (h : c.prepared w₀ = .ok p) (f : StoreFile) :
    (p.next f).isSome = c.present w₀ f := by
  obtain ⟨current, next, -, hnext, -⟩ := prepared_eq_ok h
  have hf := hnext f
  unfold nextFile at hf
  by_cases hpresent : c.present w₀ f = true
  · rw [if_pos hpresent] at hf
    rw [hpresent]
    cases hfile : w₀.file f with
    | none =>
        unfold Rotation.present at hpresent
        simp [hfile] at hpresent
    | some content =>
        rw [hfile] at hf
        obtain ⟨content', -, hsome⟩ := Result.map_eq_ok.mp hf
        rw [← hsome]
        rfl
  · rw [if_neg hpresent] at hf
    rw [← Except.ok.inj hf]
    simpa using hpresent

-- ====== read again

theorem meets_rereadRows {t : TableName} (h : Untouched w₀ w)
    (hrows : p.rows = w₀.auth.rows)
    (htransaction : w.transaction = some w₀.auth) :
    Meets (c.rereadRows p t) w
      (fun _ u => u = w ∧ c.fails (.rereadRows t) = none)
      (Early c w₀) := by
  refine meets_io_bind (fun hreread => meets_read_bind ?_) fun code hcode =>
    h.early hcode (by cases t <;> simp [opsBeforeWrites])
  rw [if_pos (by rw [htransaction, hrows]; rfl)]
  exact meets_pure ⟨rfl, hreread⟩

theorem meets_reread {f : StoreFile} (h : Untouched w₀ w)
    (hprepared : c.prepared w₀ = .ok p) :
    Meets (c.reread p f) w
      (fun _ u => u = w
        ∧ (c.present w₀ f = true → c.fails (.reread f) = none))
      (Early c w₀) := by
  obtain ⟨current, next, -, -, -, htext, -⟩ := prepared_eq_ok hprepared
  refine meets_onlyIf (fun hsome => ?_) fun hnone => ⟨rfl, fun hp => ?_⟩
  · have hpresent : c.present w₀ f = true := by
      by_contra hnot
      rw [htext f, if_neg hnot] at hsome
      cases hsome
    have hmem : f ∈ c.presentFiles w₀ := mem_presentFiles.mpr hpresent
    refine meets_io_bind (fun hreread => meets_read_bind ?_)
      fun code hcode => h.early hcode (by simp [opsBeforeWrites, hmem])
    rw [htext f, if_pos hpresent, if_pos (h.file f)]
    exact meets_pure ⟨rfl, fun _ => hreread⟩
  · rw [htext f, if_pos hp] at hnone
    unfold Rotation.present at hp
    rw [Bool.and_eq_true, hnone] at hp
    cases hp.2

-- ====== updates

/-- An update of a table leaves what the commit will. -/
theorem meets_updateMfaRows {t : TableName} {db : AuthDb}
    (h : Untouched w₀ w) (hprepared : c.prepared w₀ = .ok p)
    (htransaction : w.transaction = some db)
    (htable : db.table t = w₀.auth.table t) :
    Meets (c.updateMfaRows t (p.nextRows t)) w
      (fun _ u => u = { w with transaction := some { db with
          table := Function.update db.table t
            ((c.nextAuth w₀ p).table t) } }
        ∧ (w₀.auth.rows t ≠ [] → c.fails (.update t) = none))
      (Early c w₀) := by
  obtain ⟨current, next, -, -, hrows, -⟩ := prepared_eq_ok hprepared
  have hfst := map_fst_of_rewrapMfaRows (hrows t)
  unfold updateMfaRows
  split
  · rename_i hnil
    rw [hnil] at hfst
    refine meets_pure ⟨?_, fun hne => absurd hfst.symm hne⟩
    have hsame : (c.nextAuth w₀ p).table t = db.table t := by
      show (w₀.auth.table t).bind (AuthDb.updateSecrets · (p.nextRows t)) = _
      rw [hnil, htable]
      cases w₀.auth.table t <;> rfl
    rw [hsame, Function.update_eq_self]
    show w = { w with transaction := some db }
    rw [← htransaction]
  · rename_i hcons
    have hne : w₀.auth.rows t ≠ [] := by
      intro hnil
      rw [hnil] at hfst
      exact hcons (List.map_eq_nil_iff.mp hfst)
    have hupdated : ∃ table, (c.nextAuth w₀ p).table t = some table := by
      show ∃ table, (w₀.auth.table t).bind
        (AuthDb.updateSecrets · (p.nextRows t)) = some table
      unfold AuthDb.rows at hfst hne
      cases htable₀ : w₀.auth.table t with
      | none =>
          rw [htable₀] at hne
          exact absurd rfl hne
      | some table =>
          rw [htable₀] at hfst
          have hrows₀ : table.rows = [] ++ (p.nextRows t).map (·.1) :=
            hfst.symm
          obtain ⟨table', htable', -⟩ := AuthDb.updateSecrets_eq hrows₀
          exact ⟨table', htable'⟩
    obtain ⟨table, hnext⟩ := hupdated
    have hbind : (db.table t).bind
        (AuthDb.updateSecrets · (p.nextRows t)) = some table := by
      rw [htable]
      exact hnext
    refine meets_io_bind (fun hupdate => meets_read_bind ?_)
      fun code hcode => h.early hcode
        (by cases t <;> simp [opsBeforeWrites, hne])
    simp only [htransaction, Option.getD_some]
    rw [hbind, hnext]
    exact meets_modify ⟨rfl, fun _ => hupdate⟩

/-- The record of the rotation leaves what the commit will. -/
theorem meets_insertEvent {db : AuthDb} (h : Untouched w₀ w)
    (htransaction : w.transaction = some db)
    (hevents : db.events = w₀.auth.events) :
    Meets c.insertEvent w
      (fun _ u => u = { w with transaction := some { db with
          events := (c.nextAuth w₀ p).events } }
        ∧ (w₀.auth.events.isSome = true → c.fails .insertEvent = none))
      (Early c w₀) := by
  refine meets_read_bind ?_
  simp only [htransaction, Option.getD_some]
  unfold nextAuth
  cases hsome : w₀.auth.events with
  | none =>
      rw [hsome] at hevents
      rw [hevents]
      refine meets_pure ⟨?_, fun hi => by cases hi⟩
      show w = { w with transaction := some { db with events := none } }
      rw [← hevents, ← htransaction]
  | some events =>
      rw [hsome] at hevents
      rw [hevents]
      refine meets_io_bind (fun hinsert => meets_modify
        ⟨rfl, fun _ => hinsert⟩) fun code hcode => ?_
      exact h.early hcode (by simp [opsBeforeWrites, hsome])

-- ====== staged

/-- The calls of the platform before the preflight. -/
structure Started (c : Rotation) : Prop where
  lstatAuth : c.fails .lstatAuth = none
  lstat : ∀ f, c.given f = true → c.fails (.lstat f) = none
  makeDirectory : c.fails .makeDirectory = none
  openDatabase : c.fails .openDatabase = none

/-- The transaction holds what a commit leaves, and the rotation goes on to
the files. -/
structure Staged (c : Rotation) (w₀ : World) (p : Prepared) (w : World) :
    Prop where
  ready : Ready c w₀ w
  transaction : w.transaction = some (c.nextAuth w₀ p)
  reaches : c.reaches w₀ = true

theorem meets_stage (hstarted : Started c) (h : Passed c w₀ p w) :
    Meets (c.stage p) w (fun _ u => Staged c w₀ p u) (Early c w₀) := by
  have hu := h.ready.untouched
  obtain ⟨current, next, -, -, -, -, hrows⟩ := prepared_eq_ok h.prepared
  have htx : ∀ db, Untouched w₀ { w with transaction := db } := fun db =>
    ⟨hu.auth, hu.file, hu.others, hu.replaced, hu.quiet, hu.calm⟩
  refine meets_io_bind (fun hbegin => meets_modify_bind ?_)
    fun code hcode => hu.early hcode (by simp [opsBeforeWrites])
  have hdb : some w.auth = some w₀.auth := congrArg some hu.auth
  refine (meets_rereadRows (t := .active) (htx _) hrows hdb).bind
    fun _ t hread => ?_
  obtain ⟨rfl, hactive⟩ := hread
  refine (meets_rereadRows (t := .pending) (htx _) hrows hdb).bind
    fun _ t hread => ?_
  obtain ⟨rfl, hpending⟩ := hread
  refine (meets_forEach
    (P := fun fs t => t = { w with transaction := some w.auth }
      ∧ ∀ f ∈ fs, c.present w₀ f = true → c.fails (.reread f) = none)
    ⟨rfl, fun f hf => (by cases hf)⟩ ?_).bind fun _ t hrereads => ?_
  · rintro fs f - t - ⟨rfl, hfs⟩
    refine (meets_reread (htx _) h.prepared).mono ?_ fun e t he => he
    rintro - u ⟨rfl, hf⟩
    refine ⟨rfl, fun g hg => ?_⟩
    rcases List.mem_append.mp hg with hg | hg
    · exact hfs g hg
    · obtain rfl := List.mem_singleton.mp hg
      exact hf
  obtain ⟨rfl, hreread⟩ := hrereads
  have htable : ∀ t, w.auth.table t = w₀.auth.table t := fun t => by
    rw [hu.auth]
  refine (meets_updateMfaRows (htx _) h.prepared rfl (htable .active)).bind
    fun _ t hupdate => ?_
  obtain ⟨rfl, hupdate₁⟩ := hupdate
  refine (meets_updateMfaRows (t := .pending) (htx _) h.prepared rfl
    ?_).bind fun _ t hupdate => ?_
  · exact htable .pending
  obtain ⟨rfl, hupdate₂⟩ := hupdate
  refine (meets_insertEvent (p := p) (htx _) rfl ?_).mono ?_
    fun e t he => he
  · show w.auth.events = w₀.auth.events
    rw [hu.auth]
  rintro - u ⟨rfl, hinsert⟩
  refine ⟨⟨htx _, h.ready.backed⟩, ?_, ?_⟩
  · refine congrArg some (AuthDb.ext' (fun t => ?_) rfl)
    cases t
    · rfl
    · rfl
  · have hbacked := h.ready.backed
    have hall : ∀ f, f ∈ StoreFile.all := fun f => by cases f <;> decide
    have hpresent : ∀ f ∈ c.presentFiles w₀, c.present w₀ f = true :=
      fun f => mem_presentFiles.mp
    unfold reaches
    rw [h.prepared]
    simp only [opsBeforeWrites, clear_append, Bool.and_eq_true, clear_map]
    refine ⟨rfl, ⟨⟨⟨⟨⟨⟨⟨⟨⟨?_, ?_⟩, ?_⟩, ?_⟩, ?_⟩, ?_⟩, ?_⟩, ?_⟩, ?_⟩, ?_⟩⟩
    · simp [hstarted.lstatAuth]
    · exact fun f hf => hstarted.lstat f (List.mem_filter.mp hf).2
    · simp [hstarted.makeDirectory, hstarted.openDatabase, h.backupAuth,
        h.hashAuth]
    · exact fun f hf => (hbacked f (hall f) (hpresent f hf)).2.1
    · exact fun f hf => (hbacked f (hall f) (hpresent f hf)).2.2
    · exact fun f hf => h.readFile f (hpresent f hf)
    · simp [h.readRows, h.writePrepared, hbegin, hactive, hpending]
    · exact fun f hf => hreread f (hall f) (hpresent f hf)
    · intro t ht
      have hne := (List.mem_filter.mp ht).2
      cases t
      · exact hupdate₁ (by simpa using hne)
      · exact hupdate₂ (by simpa using hne)
    · by_cases hevents : w₀.auth.events.isSome = true
      · simp [hevents, hinsert hevents]
      · simp [hevents]

end Rotation

end Yunpanel.Secrets
