/-
Facts about identities and the recovery record.

Two of them carry the protocol. `key_inj`: with UUIDs for job ids a key
names one identity, whatever the server is called. `extra_eq_nil`: the
loader compares two sets of identities by one joined text, and where one
set extends the other that comparison cannot be fooled, because the joined
text of the larger one is longer.
-/
import Yunpanel.Jobs.Recovery

namespace Yunpanel.Jobs

-- ====== identities

theorem units_of_isKeyChar {c : Char} (h : Text.isKeyChar c = true) :
    Text.units c = 1 := by
  have hc : c.val < 0x10000 := by
    simp only [Text.isKeyChar, Text.isDigit, Text.isLower, Text.isUpper,
      Bool.or_eq_true, Bool.and_eq_true, decide_eq_true_eq, beq_iff_eq]
      at h
    rcases h with (((((⟨-, h⟩ | ⟨-, h⟩) | ⟨-, h⟩) | rfl) | rfl) | rfl) | rfl
    · exact Nat.lt_of_le_of_lt h (by decide)
    · exact Nat.lt_of_le_of_lt h (by decide)
    · exact Nat.lt_of_le_of_lt h (by decide)
    all_goals decide
  simp [Text.units, hc]

/-- In the characters of keys, UTF-16 units are characters. -/
theorem length_of_inClass {lo hi : Nat} {s : String}
    (h : Text.inClass Text.isKeyChar lo hi s = true) :
    lo ≤ Text.length s ∧ Text.length s ≤ hi := by
  simp only [Text.inClass, Bool.and_eq_true, List.all_eq_true,
    decide_eq_true_eq] at h
  obtain ⟨⟨hall, hlo⟩, hhi⟩ := h
  have hlen : Text.length s = s.toList.length := by
    have hmap : s.toList.map Text.units = s.toList.map fun _ => 1 :=
      List.map_congr_left fun c hc => units_of_isKeyChar (hall c hc)
    rw [Text.length, hmap]
    simp
  omega

variable {identity : Identity} {texts : List String}

/-- What the recovery store takes, the wrapper reads back as it is. -/
theorem safeRecoveryJob_of_normal (h : identity.normal = true) :
    safeRecoveryJob identity.jobId identity.serverId = some identity := by
  simp only [Identity.normal, Bool.and_eq_true] at h
  have hj := length_of_inClass h.1
  have hs := length_of_inClass h.2
  simp [safeRecoveryJob, hj, hs]

theorem safeRecoveryJob_eq_some {jobId serverId : String}
    (h : safeRecoveryJob jobId serverId = some identity) :
    identity = { jobId, serverId } := by
  unfold safeRecoveryJob at h
  split at h
  · exact (Option.some.inj h).symm
  · cases h

variable {jobs : List Identity}

theorem mapM_safeRecoveryJob (h : ∀ job ∈ jobs, job.normal = true) :
    (jobs.mapM fun job => safeRecoveryJob job.jobId job.serverId)
      = some jobs := by
  induction jobs with
  | nil => rfl
  | cons job jobs ih =>
      have hhead := safeRecoveryJob_of_normal (h job (by simp))
      have htail := ih fun j hj => h j (List.mem_cons_of_mem job hj)
      rw [List.mapM_cons, hhead, htail]
      rfl

/-- With job ids of one length, a key tells the job id and the server id
apart. -/
theorem key_inj {a b : Identity}
    (hlen : a.jobId.toList.length = b.jobId.toList.length)
    (h : a.key = b.key) : a = b := by
  have hl : (a.serverId.toList ++ ':' :: a.jobId.toList)
      = b.serverId.toList ++ ':' :: b.jobId.toList := by
    have := congrArg String.toList h
    simpa [Identity.key, String.toList_append] using this
  obtain ⟨hs, hj⟩ := List.append_inj' hl (by simp [hlen])
  have hj := (List.cons.inj hj).2
  obtain ⟨aj, as⟩ := a
  obtain ⟨bj, bs⟩ := b
  rw [String.toList_inj] at hs hj
  exact congrArg₂ Identity.mk hj hs

-- ====== unique identities

namespace uniqueRecoveryJobs

theorem mem_of_mem_go {job : Identity} {seen : List String}
    (h : job ∈ go seen jobs) : job ∈ jobs := by
  induction jobs generalizing seen with
  | nil => simp [go] at h
  | cons j js ih =>
      unfold go at h
      split at h
      · exact List.mem_cons_of_mem j (ih h)
      · rcases List.mem_cons.mp h with rfl | h
        · exact List.mem_cons_self
        · exact List.mem_cons_of_mem j (ih h)

theorem key_mem_go {job : Identity} (seen : List String) (h : job ∈ jobs) :
    job.key ∈ seen ∨ job.key ∈ (go seen jobs).map Identity.key := by
  induction jobs generalizing seen with
  | nil => simp at h
  | cons j js ih =>
      unfold go
      split
      · rename_i hseen
        rcases List.mem_cons.mp h with rfl | h
        · exact .inl hseen
        · exact ih seen h
      · rcases List.mem_cons.mp h with rfl | h
        · exact .inr (by simp)
        · rcases ih (j.key :: seen) h with hs | hs
          · rcases List.mem_cons.mp hs with heq | hs
            · exact .inr (by simp [heq])
            · exact .inl hs
          · exact .inr (by simpa using .inr (List.mem_map.mp hs))

theorem nodup_go (seen : List String) (jobs : List Identity) :
    ((go seen jobs).map Identity.key).Nodup
      ∧ ∀ k ∈ (go seen jobs).map Identity.key, k ∉ seen := by
  induction jobs generalizing seen with
  | nil => simp [go]
  | cons j js ih =>
      unfold go
      split
      · exact ih seen
      · rename_i hseen
        obtain ⟨hnodup, hfresh⟩ := ih (j.key :: seen)
        rw [List.map_cons, List.nodup_cons]
        refine ⟨⟨fun hmem => hfresh _ hmem (by simp), hnodup⟩, ?_⟩
        intro k hk
        rcases List.mem_cons.mp hk with rfl | hk
        · exact hseen
        · exact fun hs => hfresh k hk (List.mem_cons_of_mem _ hs)

/-- A list without repeated keys comes through at the front. -/
theorem go_append (seen : List String) (more : List Identity)
    (hnodup : (jobs.map Identity.key).Nodup)
    (hseen : ∀ job ∈ jobs, job.key ∉ seen) :
    ∃ seen', go seen (jobs ++ more) = jobs ++ go seen' more
      ∧ ∀ k, k ∈ seen' ↔ k ∈ seen ∨ k ∈ jobs.map Identity.key := by
  induction jobs generalizing seen with
  | nil => exact ⟨seen, rfl, by simp⟩
  | cons j js ih =>
      rw [List.map_cons, List.nodup_cons] at hnodup
      obtain ⟨seen', hgo, hmem⟩ := ih (j.key :: seen) hnodup.2 (by
        intro job hjob hs
        rcases List.mem_cons.mp hs with heq | hs
        · exact hnodup.1 (heq ▸ List.mem_map_of_mem hjob)
        · exact hseen job (List.mem_cons_of_mem j hjob) hs)
      refine ⟨seen', ?_, ?_⟩
      · rw [List.cons_append, go, if_neg (hseen j List.mem_cons_self), hgo]
        rfl
      · intro k
        rw [hmem k]
        simp only [List.mem_cons, List.map_cons]
        tauto

end uniqueRecoveryJobs

open uniqueRecoveryJobs in
theorem nodup_uniqueRecoveryJobs (jobs : List Identity) :
    ((uniqueRecoveryJobs jobs).map Identity.key).Nodup :=
  (nodup_go [] jobs).1

open uniqueRecoveryJobs in
theorem mem_of_mem_unique {job : Identity}
    (h : job ∈ uniqueRecoveryJobs jobs) : job ∈ jobs :=
  mem_of_mem_go h

open uniqueRecoveryJobs in
theorem key_mem_unique {job : Identity} (h : job ∈ jobs) :
    job.key ∈ (uniqueRecoveryJobs jobs).map Identity.key :=
  (key_mem_go [] h).resolve_left (by simp)

open uniqueRecoveryJobs in
theorem unique_append (more : List Identity)
    (h : (jobs.map Identity.key).Nodup) :
    ∃ extra, uniqueRecoveryJobs (jobs ++ more) = jobs ++ extra := by
  obtain ⟨seen, hgo, -⟩ := go_append [] more h (by simp)
  exact ⟨_, hgo⟩

open uniqueRecoveryJobs in
theorem unique_of_nodup (h : (jobs.map Identity.key).Nodup) :
    uniqueRecoveryJobs jobs = jobs := by
  obtain ⟨seen, hgo, -⟩ := go_append [] [] h (by simp)
  simpa [uniqueRecoveryJobs, go] using hgo

open uniqueRecoveryJobs in
/-- One identity added to a list without repeated keys. -/
theorem unique_concat (job : Identity) (h : (jobs.map Identity.key).Nodup) :
    uniqueRecoveryJobs (jobs ++ [job])
      = if job.key ∈ jobs.map Identity.key then jobs else jobs ++ [job] := by
  obtain ⟨seen, hgo, hmem⟩ :=
    go_append [] [job] h (by simp)
  have hseen : job.key ∈ seen ↔ job.key ∈ jobs.map Identity.key := by
    simpa using hmem job.key
  rw [uniqueRecoveryJobs, hgo]
  by_cases hk : job.key ∈ jobs.map Identity.key
  · simp [go, hseen.mpr hk, hk]
  · simp [go, mt hseen.mp hk, hk]

-- ====== joined identities

/-- Characters of the strings, and one more for each. -/
def weight (texts : List String) : Nat :=
  (texts.map fun s => s.toList.length + 1).sum

theorem length_joinLines (h : texts ≠ []) :
    (joinLines texts).toList.length + 1 = weight texts := by
  induction texts with
  | nil => contradiction
  | cons s rest ih =>
      cases rest with
      | nil => simp [joinLines, weight]
      | cons t ts =>
          have hrest := ih (by simp)
          simp only [weight, List.map_cons, List.sum_cons, joinLines,
            String.toList_append, List.length_append] at hrest ⊢
          have hnl : "\n".toList.length = 1 := rfl
          omega

theorem weight_insertText (s : String) (texts : List String) :
    weight (insertText s texts) = s.toList.length + 1 + weight texts := by
  induction texts with
  | nil => rfl
  | cons t ts ih =>
      unfold insertText
      split
      · rfl
      · simp only [weight, List.map_cons, List.sum_cons] at ih ⊢
        omega

theorem weight_sortTexts (texts : List String) :
    weight (sortTexts texts) = weight texts := by
  induction texts with
  | nil => rfl
  | cons s ss ih =>
      rw [sortTexts, weight_insertText, ih]
      rfl

theorem sortTexts_ne_nil (h : texts ≠ []) :
    sortTexts texts ≠ [] := by
  cases texts with
  | nil => contradiction
  | cons s ss =>
      intro hnil
      have hw := congrArg weight hnil
      rw [weight_sortTexts] at hw
      simp [weight] at hw

/-- The joined text of a set of identities is longer than that of a part
of it. -/
theorem extra_eq_nil {extra : List Identity}
    (h : recoveryIdentity jobs = recoveryIdentity (jobs ++ extra)) :
    extra = [] := by
  by_contra hne
  have hkey : 1 < weight (extra.map Identity.key) := by
    cases extra with
    | nil => contradiction
    | cons job rest =>
        simp only [weight, List.map_cons, List.sum_cons, Identity.key,
          String.toList_append, List.length_append]
        have hcolon : ":".toList.length = 1 := rfl
        omega
  have hlen := congrArg (fun s : String => s.toList.length + 1) h
  simp only [recoveryIdentity] at hlen
  have hsum : weight ((jobs ++ extra).map Identity.key)
      = weight (jobs.map Identity.key) + weight (extra.map Identity.key) := by
    simp [weight]
  have hlarge : (joinLines (sortTexts
        ((jobs ++ extra).map Identity.key))).toList.length + 1
      = weight (sortTexts ((jobs ++ extra).map Identity.key)) :=
    length_joinLines (sortTexts_ne_nil (by simp [hne]))
  rw [weight_sortTexts, hsum] at hlarge
  rw [hlarge] at hlen
  by_cases hjobs : jobs = []
  · subst hjobs
    have hempty : (joinLines (sortTexts ([].map Identity.key))).toList.length
        = 0 := rfl
    rw [hempty] at hlen
    omega
  · rw [length_joinLines (sortTexts_ne_nil (by simp [hjobs])),
      weight_sortTexts] at hlen
    omega

-- ====== the record

namespace RecoveryRecord

variable {r : RecoveryRecord} {now : Instant}

theorem normal_iff :
    r.normal = true ↔ (∀ job ∈ r.jobs, job.normal = true) ∧ r.keys.Nodup
      ∧ r.jobs.isEmpty = r.detectedAt.isNone := by
  simp [normal, and_assoc]

theorem addJob_jobs (now : Instant) (job : Identity)
    (r : RecoveryRecord) :
    (r.addJob now job).jobs
      = if job.key ∈ r.keys then r.jobs else r.jobs ++ [job] := by
  unfold addJob
  split <;> rfl

theorem removeJob_jobs (job : Identity) (r : RecoveryRecord) :
    (r.removeJob job).jobs
      = r.jobs.filter fun candidate => candidate.key ≠ job.key := by
  unfold removeJob
  dsimp only
  split
  · rename_i hlen
    exact (List.filter_sublist.eq_of_length hlen).symm
  · rfl

/-- Taking another job out leaves this one in. -/
theorem mem_removeJob {other : Identity} {record : RecoveryRecord}
    (h : identity ∈ record.jobs) (hne : other ≠ identity)
    (hlen : identity.jobId.toList.length = 36)
    (hother : other.jobId.toList.length = 36) :
    identity ∈ (record.removeJob other).jobs := by
  rw [removeJob_jobs]
  refine List.mem_filter.mpr ⟨h, ?_⟩
  have hkey : identity.key ≠ other.key :=
    fun heq => hne (key_inj (hlen.trans hother.symm) heq).symm
  simpa using hkey

theorem normal_addJob {job : Identity} (hr : r.normal = true)
    (hjob : job.normal = true) : (r.addJob now job).normal = true := by
  by_cases hk : job.key ∈ r.keys
  · rwa [addJob, if_pos hk]
  · rw [normal_iff] at hr ⊢
    obtain ⟨hall, hnodup, hstamp⟩ := hr
    rw [addJob, if_neg hk]
    refine ⟨?_, ?_, ?_⟩
    · intro j hj
      rcases List.mem_append.mp hj with hj | hj
      · exact hall j hj
      · rw [List.mem_singleton] at hj
        exact hj ▸ hjob
    · simp only [keys, List.map_append, List.map_cons, List.map_nil]
      refine List.nodup_append.mpr ⟨hnodup, by simp, ?_⟩
      intro a ha b hb hab
      rw [List.mem_singleton] at hb
      exact hk (hb ▸ hab ▸ ha)
    · cases hempty : r.jobs.isEmpty with
      | true => simp
      | false => simp [← hstamp, hempty]

theorem normal_removeJob {job : Identity} (hr : r.normal = true) :
    (r.removeJob job).normal = true := by
  rw [normal_iff] at hr ⊢
  obtain ⟨hall, hnodup, hstamp⟩ := hr
  refine ⟨?_, ?_, ?_⟩
  · rw [removeJob_jobs]
    exact fun j hj => hall j (List.mem_filter.mp hj).1
  · rw [keys, removeJob_jobs]
    exact hnodup.sublist (List.filter_sublist.map _)
  · unfold removeJob
    dsimp only
    split
    · exact hstamp
    · rename_i hlen
      cases hempty : (r.jobs.filter
          fun candidate => candidate.key ≠ job.key).isEmpty with
      | true => simp
      | false =>
          have hne : r.jobs.isEmpty = false := by
            cases hr : r.jobs with
            | nil => simp [hr] at hempty
            | cons => rfl
          simp [← hstamp, hne]

theorem normal_replaceJobs (hall : ∀ job ∈ jobs, job.normal = true)
    (hnodup : (jobs.map Identity.key).Nodup) :
    (replaceJobs now jobs).normal = true := by
  rw [normal_iff]
  refine ⟨hall, hnodup, ?_⟩
  cases jobs <;> rfl

end RecoveryRecord

end Yunpanel.Jobs
