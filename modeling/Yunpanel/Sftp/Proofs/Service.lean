/-
The file of a website holds its active keys once its calls are over, where
no call changes the keys while another works on a copy of them.

# The condition

A call reads the active keys once and then works on the copy, up to the
inspection that compares the file with the same copy. Where another call
changes the keys in between, the older copy may be written last and is
found to be as wanted: `revoked_key_restored` is a run that ends with a
revoked key in the file and no call rejected. `Careful` excludes it.

# The proof

`resume_spec` says once what a call that has its copy does: it goes on with
it, is rejected, or returns with the copy in the file. The copy is what the
keys ask for (`keeps_current`), so a call that returns leaves its website
in order, and any other that touched the file still owes that:
`Protocol.settled_run`.
-/
import Yunpanel.Sftp.Service

namespace Yunpanel.Sftp

open Json Lib Lib.Result
open Databases (SiteUser)

variable {c : Context}

-- ====== purpose

/-- The file of a website holds exactly its active keys; where it has none
there may be no file. -/
def Materialized (c : Context) (h : Host) (w : Uuid) : Prop :=
  ∃ website spec, requireWebsite c w = .ok website
    ∧ desired c website h.keys = .ok spec
    ∧ (h.files spec.unixUser = some spec.content
      ∨ spec.keys = [] ∧ h.files spec.unixUser = none)

abbrev KeyEvent := Flight.Event Call Env Empty

/-- Once all calls are over and none was rejected, the file of every
website is as it was wanted to be, if it was so at the start. -/
def Settles (c : Context) (start : Host) (events : List KeyEvent) : Prop :=
  (∀ id, ((protocol c).machine.run (Flight.fresh start) events).stage id
    = none) →
  (∀ id e, (id, .rejected e)
    ∉ (protocol c).notes (Flight.fresh start) events) →
  ∀ w, Materialized c start w → Materialized c
    ((protocol c).machine.run (Flight.fresh start) events).shared w

-- ====== condition

/-- The copy of the keys a call works on. -/
def Stage.spec? : Stage → Option Spec
  | rooting spec _ => some spec
  | checking spec => some spec
  | comparing spec => some spec
  | writing spec _ => some spec
  | verifying spec _ => some spec
  | _ => none

/-- The website of a call that is past its look-ups. -/
def Stage.website? : Stage → Option Uuid
  | entered _ => none
  | saving website => some website.websiteId
  | resolving website => some website.websiteId
  | k => k.spec?.map Spec.websiteId

/-- The website whose keys a call would change. -/
def Call.changes? (c : Context) (m : Moment) (keys : List Key)
    (call : Call) : Option Uuid :=
  match call.change c m keys with
  | .ok (website, some _) => some website.websiteId
  | _ => none

/-- A segment does not change keys another call has a copy of. -/
def Undisturbed (c : Context) (f : Flight Host Stage) (id : Nat)
    (env : Env) : Stage → Prop
  | .entered call =>
      ∀ w ∈ call.changes? c env.moment f.shared.keys,
        ∀ other ∈ List.range f.calls.length, other ≠ id →
          ∀ k ∈ f.stage other, ∀ spec ∈ k.spec?, spec.websiteId ≠ w
  | _ => True

instance (f : Flight Host Stage) (id : Nat) (env : Env) :
    (k : Stage) → Decidable (Undisturbed c f id env k)
  | .entered call => inferInstanceAs (Decidable
      (∀ w ∈ call.changes? c env.moment f.shared.keys,
        ∀ other ∈ List.range f.calls.length, other ≠ id →
          ∀ k ∈ f.stage other, ∀ spec ∈ k.spec?, spec.websiteId ≠ w))
  | .saving _ | .resolving _ | .rooting _ _ | .checking _ | .comparing _
  | .writing _ _ | .verifying _ _ => .isTrue trivial

/-- No segment changes keys another call has a copy of, and the process is
not started again. -/
def Careful (c : Context) (f : Flight Host Stage) : KeyEvent → Prop
  | .answer id env => ∀ k ∈ f.stage id, Undisturbed c f id env k
  | .restart => False
  | _ => True

instance (f : Flight Host Stage) : (e : KeyEvent) → Decidable (Careful c f e)
  | .answer id env => inferInstanceAs
      (Decidable (∀ k ∈ f.stage id, Undisturbed c f id env k))
  | .restart => .isFalse id
  | .start _ | .world _ => .isTrue trivial

/-- No two websites have one Unix user. -/
def Apart (c : Context) : Prop :=
  ∀ w w' website website', requireWebsite c w = .ok website →
    requireWebsite c w' = .ok website' →
      website.unixUser = website'.unixUser → w = w'

-- ====== websites

variable {w : Uuid} {website : Identity} {keys : List Key} {spec : Spec}
  {k : Stage} {h : Host} {f : Flight Host Stage} {id : Nat}

theorem requireWebsite_id (h : requireWebsite c w = .ok website) :
    website.websiteId = w := by
  unfold requireWebsite at h
  simp only [bind_eq_ok, pure_eq, Except.ok.injEq] at h
  obtain ⟨site, -, -, -, applicationId, -, unixUser, -, rfl⟩ := h
  rfl

/-- What is wanted for a website carries its identity. -/
theorem desired_eq_ok (h : desired c website keys = .ok spec) :
    spec.websiteId = website.websiteId
      ∧ spec.unixUser = website.unixUser := by
  unfold desired normalizeIntent at h
  simp only [bind_eq_ok, pure_eq, Except.ok.injEq] at h
  obtain ⟨material, -, -, -, ms, -, -, -, rfl⟩ := h
  exact ⟨rfl, rfl⟩

variable {keys' : List Key} {m : Moment} {call : Call} {h' : Host}
  {segment : Segment} {env : Env}

/-- What is wanted for a website depends on its own keys. -/
theorem desired_congr
    (h : keys'.filter (fun entry => entry.websiteId == website.websiteId)
      = keys.filter fun entry => entry.websiteId == website.websiteId) :
    desired c website keys' = desired c website keys := by
  have hactive : ∀ ks : List Key, activeKeys ks website.websiteId
      = sortKeys ((ks.filter fun entry =>
          entry.websiteId == website.websiteId).filter Key.active) := by
    intro ks
    unfold activeKeys
    rw [List.filter_filter]
    congr 1
    refine List.filter_congr fun entry _ => Bool.and_comm _ _
  unfold desired listActiveMaterial
  rw [hactive, hactive, h]

-- ====== changes

theorem filter_set_of_not {α : Type} {p : α → Bool} {as : List α} {i : Nat}
    {a b : α} (hi : as[i]? = some a) (ha : p a = false) (hb : p b = false) :
    (as.set i b).filter p = as.filter p := by
  induction as generalizing i with
  | nil => rfl
  | cons d as ih =>
      cases i with
      | zero =>
          obtain rfl : d = a := Option.some.inj hi
          rw [List.set_cons_zero, List.filter_cons_of_neg (by simp [hb]),
            List.filter_cons_of_neg (by simp [ha])]
      | succ i =>
          rw [List.set_cons_succ, List.filter_cons, List.filter_cons,
            ih hi]

theorem createRecord_websiteId {labelValue publicKey : Json}
    {time : Instant} {replacing : Option Uuid} {record : Key}
    (h : createRecord c website m labelValue publicKey time replacing keys
      = .ok record) : record.websiteId = website.websiteId := by
  unfold createRecord at h
  simp only [bind_eq_ok, pure_eq, Except.ok.injEq] at h
  obtain ⟨parsed, -, -, -, -, -, label, -, rfl⟩ := h
  rfl

theorem requireRecord_eq_ok {keyId expected : Json} {found : Nat × Key}
    (h : requireRecord website keyId expected keys = .ok found) :
    keys[found.1]? = some found.2
      ∧ found.2.websiteId = website.websiteId := by
  unfold requireRecord at h
  simp only [bind_eq_ok, demand_eq_ok, pure_eq, Except.ok.injEq] at h
  obtain ⟨id, -, located, hlocate, -, -, revision, -, -, -, rfl⟩ := h
  refine ⟨getElem?_of_locate hlocate, ?_⟩
  have haccepted := accepted_of_locate hlocate
  simp only [Bool.and_eq_true, beq_iff_eq] at haccepted
  exact haccepted.2

/-- A call changes the keys of its own website. -/
theorem mutate_filter (h : call.mutate c website m keys = .ok (some keys'))
    (hw : w ≠ website.websiteId) :
    keys'.filter (fun entry => entry.websiteId == w)
      = keys.filter fun entry => entry.websiteId == w := by
  have hother : ∀ record : Key, record.websiteId = website.websiteId →
      (record.websiteId == w) = false := by
    intro record hrecord
    rw [beq_eq_false_iff_ne, hrecord]
    exact Ne.symm hw
  cases call with
  | add websiteId label publicKey =>
      unfold Call.mutate addKey at h
      simp only [map_eq_ok, bind_eq_ok, pure_eq, Except.ok.injEq,
        Option.some.injEq] at h
      obtain ⟨next, ⟨time, -, record, hrecord, rfl⟩, rfl⟩ := h
      rw [List.filter_append, List.filter_cons_of_neg
        (by simp [hother record (createRecord_websiteId hrecord)])]
      simp
  | revoke websiteId keyId expected =>
      unfold Call.mutate revokeKey at h
      simp only [bind_eq_ok] at h
      obtain ⟨found, hfound, h⟩ := h
      obtain ⟨hi, hid⟩ := requireRecord_eq_ok hfound
      split at h
      · simp only [bind_eq_ok, pure_eq, Except.ok.injEq,
          Option.some.injEq] at h
        obtain ⟨time, -, rfl⟩ := h
        exact filter_set_of_not hi (hother _ hid) (hother _ hid)
      · simp at h
  | rotate websiteId keyId expected label publicKey =>
      unfold Call.mutate rotateKey at h
      simp only [map_eq_ok, bind_eq_ok, pure_eq, Except.ok.injEq,
        Option.some.injEq] at h
      obtain ⟨next, ⟨found, hfound, -, -, parsed, -, -, -, time, -,
        replacement, hreplacement, rfl⟩, rfl⟩ := h
      obtain ⟨hi, hid⟩ := requireRecord_eq_ok hfound
      rw [List.filter_append, List.filter_cons_of_neg
          (by simp [hother replacement (createRecord_websiteId hreplacement)]),
        filter_set_of_not hi (hother _ hid) (hother _ hid)]
      simp
  | reconcile websiteId => cases h

-- ====== segments

/-- What a call that has its copy may do in a segment. -/
structure Works (h : Host) (spec : Spec) (segment : Segment) : Prop where
  keys : segment.1.keys = h.keys
  files : ∀ user, user ≠ spec.unixUser → segment.1.files user = h.files user
  next : (∃ k, segment.2 = (some k, []) ∧ k.spec? = some spec)
    ∨ (∃ e, segment.2 = (none, [.rejected e]))
    ∨ segment = returned h ∧ h.files spec.unixUser = some spec.content

theorem works_next (h : Host) (hk : k.spec? = some spec) :
    Works h spec (h, some k, []) :=
  ⟨rfl, fun _ _ => rfl, .inl ⟨k, rfl, hk⟩⟩

theorem works_rejected (h : Host) (spec : Spec) (code message : String)
    (status : Nat) : Works h spec (rejected h code message status) :=
  ⟨rfl, fun _ _ => rfl, .inr (.inl ⟨_, rfl⟩)⟩

theorem works_setTemp (h : Host) (content : Option String)
    (hk : k.spec? = some spec) :
    Works h spec (h.setTemp spec.unixUser content, some k, []) :=
  ⟨rfl, fun _ _ => rfl, .inl ⟨k, rfl, hk⟩⟩

theorem works_ensureRoot (h : Host) (spec : Spec) (env : Env)
    (step : RootStep) : Works h spec (h.ensureRoot spec env step) := by
  have hprepared : ∀ k : Stage, k.spec? = some spec →
      Works h spec (Host.ensureRoot.prepared h env k) := by
    intro k hk
    unfold Host.ensureRoot.prepared
    split
    · exact works_next h hk
    · exact works_rejected h spec _ _ _
  cases step with
  | stat =>
      unfold Host.ensureRoot
      dsimp only
      split
      · exact works_next h rfl
      · exact works_next h rfl
      · exact works_rejected h spec _ _ _
      · exact works_rejected h spec _ _ _
  | mkdir => exact hprepared _ rfl
  | chown => exact hprepared _ rfl
  | chmod => exact hprepared _ rfl
  | verify =>
      unfold Host.ensureRoot
      dsimp only
      split
      · exact works_next h rfl
      · exact works_rejected h spec _ _ _

theorem works_check (h : Host) (spec : Spec) (env : Env) :
    Works h spec (h.check spec env) := by
  unfold Host.check
  split
  · split
    · exact works_next h rfl
    · split
      · exact works_next h rfl
      · exact works_rejected h spec _ _ _
  · exact works_rejected h spec _ _ _

theorem works_compare (h : Host) (spec : Spec) (env : Env) :
    Works h spec (h.compare spec env) := by
  unfold Host.compare
  split
  · rename_i current hfile hok
    split
    · exact works_rejected h spec _ _ _
    · split
      · rename_i hsame
        exact ⟨rfl, fun _ _ => rfl, .inr (.inr ⟨rfl, hsame ▸ hfile⟩)⟩
      · exact works_next h rfl
  · exact works_rejected h spec _ _ _

theorem works_write (h : Host) (spec : Spec) (env : Env)
    (step : WriteStep) : Works h spec (h.write spec env step) := by
  have howned : ∀ k : Stage, k.spec? = some spec →
      Works h spec (Host.write.owned h spec env k) := by
    intro k hk
    unfold Host.write.owned
    split
    · exact works_next h hk
    · exact works_next h rfl
  cases step with
  | clear =>
      show Works h spec (if env.ok then h.setTemp spec.unixUser none else h,
        _, _)
      split
      · exact works_setTemp h none rfl
      · exact works_next h rfl
  | write =>
      show Works h spec (if env.ok then _ else _)
      split
      · exact works_setTemp h _ rfl
      · exact works_next h rfl
  | chown => exact howned _ rfl
  | chmod => exact howned _ rfl
  | rename =>
      unfold Host.write
      dsimp only
      split
      · rename_i content _ _
        refine ⟨rfl, fun user huser => ?_, .inl ⟨_, rfl, rfl⟩⟩
        exact Function.update_of_ne huser (some content) h.files
      · exact works_next h rfl
  | sweep written =>
      show Works h spec (if written then _ else _)
      have hswept : (if env.ok then h.setTemp spec.unixUser none else h).keys
            = h.keys
          ∧ (if env.ok then h.setTemp spec.unixUser none else h).files
            = h.files := by
        split <;> exact ⟨rfl, rfl⟩
      split
      · exact ⟨hswept.1, fun user _ => congrFun hswept.2 user,
          .inl ⟨_, rfl, rfl⟩⟩
      · exact ⟨hswept.1, fun user _ => congrFun hswept.2 user,
          .inr (.inl ⟨_, rfl⟩)⟩

theorem works_verify (h : Host) (spec : Spec) (env : Env)
    (step : VerifyStep) : Works h spec (h.verify spec env step) := by
  cases step with
  | root =>
      unfold Host.verify
      dsimp only
      split
      · exact works_next h rfl
      · exact works_rejected h spec _ _ _
      · exact works_rejected h spec _ _ _
      · exact works_rejected h spec _ _ _
  | stat =>
      show Works h spec (if _ then _ else _)
      split
      · exact works_next h rfl
      · exact works_rejected h spec _ _ _
  | read =>
      unfold Host.verify
      dsimp only
      split
      · rename_i current hfile hok
        split
        · exact works_rejected h spec _ _ _
        · split
          · rename_i hsame
            exact ⟨rfl, fun _ _ => rfl, .inr (.inr ⟨rfl, hsame ▸ hfile⟩)⟩
          · exact works_rejected h spec _ _ _
      · exact works_rejected h spec _ _ _

/-- A call that has its copy goes on with it, is rejected, or returns with
the copy in the file. -/
theorem resume_spec (h : Host) (hk : k.spec? = some spec) (env : Env) :
    Works h spec (h.resume c k env) := by
  cases k with
  | entered call => cases hk
  | saving website => cases hk
  | resolving website => cases hk
  | rooting spec' step =>
      obtain rfl := Option.some.inj hk
      exact works_ensureRoot h spec' env step
  | checking spec' =>
      obtain rfl := Option.some.inj hk
      exact works_check h spec' env
  | comparing spec' =>
      obtain rfl := Option.some.inj hk
      exact works_compare h spec' env
  | writing spec' step =>
      obtain rfl := Option.some.inj hk
      exact works_write h spec' env step
  | verifying spec' step =>
      obtain rfl := Option.some.inj hk
      exact works_verify h spec' env step

-- ====== invariant

/-- What a call remembers is so: its website has the identity it was found
with, and its copy is what the keys ask for. -/
def Current (c : Context) (h : Host) : Stage → Prop
  | .entered _ => True
  | .saving website => requireWebsite c website.websiteId = .ok website
  | .resolving website => requireWebsite c website.websiteId = .ok website
  | k => ∀ spec ∈ k.spec?, ∃ website,
      requireWebsite c spec.websiteId = .ok website
        ∧ desired c website h.keys = .ok spec

theorem current_of_spec? (hk : k.spec? = some spec) :
    Current c h k ↔ ∃ website,
      requireWebsite c spec.websiteId = .ok website
        ∧ desired c website h.keys = .ok spec := by
  have hiff : (∀ s ∈ k.spec?, ∃ website,
      requireWebsite c s.websiteId = .ok website
        ∧ desired c website h.keys = .ok s)
      ↔ ∃ website, requireWebsite c spec.websiteId = .ok website
        ∧ desired c website h.keys = .ok spec := by
    rw [hk]
    constructor
    · intro hall
      exact hall spec rfl
    · rintro hspec s hs
      obtain rfl := Option.some.inj hs
      exact hspec
  cases k with
  | entered call => cases hk
  | saving website => cases hk
  | resolving website => cases hk
  | rooting spec' step => exact hiff
  | checking spec' => exact hiff
  | comparing spec' => exact hiff
  | writing spec' step => exact hiff
  | verifying spec' step => exact hiff

/-- A stage stays current where the keys of its copy's website stay. -/
theorem Current.of_keys (hk : Current c h k) (hkeys : ∀ spec ∈ k.spec?,
      h'.keys.filter (fun entry => entry.websiteId == spec.websiteId)
        = h.keys.filter fun entry => entry.websiteId == spec.websiteId) :
    Current c h' k := by
  cases hspec : k.spec? with
  | none =>
      cases k with
      | entered call => trivial
      | saving website => exact hk
      | resolving website => exact hk
      | rooting spec' step => cases hspec
      | checking spec' => cases hspec
      | comparing spec' => cases hspec
      | writing spec' step => cases hspec
      | verifying spec' step => cases hspec
  | some spec =>
      rw [current_of_spec? hspec] at hk ⊢
      obtain ⟨website, hrequire, hdesired⟩ := hk
      refine ⟨website, hrequire, ?_⟩
      have hsame := hkeys spec hspec
      rw [← requireWebsite_id hrequire] at hsame
      rw [desired_congr hsame]
      exact hdesired

/-- What the look-ups and the change of a call come to. -/
theorem change_eq_ok {next : Option (List Key)}
    (h : call.change c m keys = .ok (website, next)) :
    requireWebsite c website.websiteId = .ok website
      ∧ call.mutate c website m keys = .ok next := by
  unfold Call.change Call.identity at h
  simp only [bind_eq_ok, pure_eq, Except.ok.injEq, Prod.mk.injEq] at h
  obtain ⟨found, ⟨id, -, hrequire⟩, changed, hmutate, rfl, rfl⟩ := h
  refine ⟨?_, hmutate⟩
  rw [requireWebsite_id hrequire]
  exact hrequire

theorem lt_length_of_stage (h : f.stage id = some k) :
    id ∈ List.range f.calls.length :=
  List.mem_range.mpr (Protocol.lt_of_stage h)

/-- A segment keeps its own call and all others current. -/
def Keeps (c : Context) (f : Flight Host Stage) (id : Nat)
    (segment : Segment) : Prop :=
  (∀ k ∈ segment.2.1, Current c segment.1 k)
    ∧ ∀ other l, other ≠ id → f.stage other = some l →
        Current c f.shared l → Current c segment.1 l

theorem keeps_of_keys (hkeys : segment.1.keys = f.shared.keys)
    (hnext : ∀ k ∈ segment.2.1, Current c segment.1 k) :
    Keeps c f id segment :=
  ⟨hnext, fun _ _ _ _ hl => hl.of_keys fun spec _ => by rw [hkeys]⟩

/-- A call changes keys nobody else has a copy of. -/
theorem keeps_mutate (hok : Undisturbed c f id env (.entered call)) :
    Keeps c f id (f.shared.mutate c env.moment call) := by
  unfold Host.mutate
  cases hchange : call.change c env.moment f.shared.keys with
  | error e => exact keeps_of_keys rfl fun k hk => (by cases hk)
  | ok found =>
      obtain ⟨website, next⟩ := found
      obtain ⟨hrequire, hmutate⟩ := change_eq_ok hchange
      cases next with
      | none =>
          refine keeps_of_keys rfl fun k hk => ?_
          obtain rfl := Option.some.inj hk
          exact hrequire
      | some keys =>
          refine ⟨fun k hk => ?_, fun other l hother hl hcurrent =>
            hcurrent.of_keys fun spec hspec => ?_⟩
          · obtain rfl := Option.some.inj hk
            exact hrequire
          · have hchanges : call.changes? c env.moment f.shared.keys
                = some website.websiteId := by
              unfold Call.changes?
              rw [hchange]
            have hne := hok _ hchanges other (lt_length_of_stage hl) hother l
              hl spec hspec
            exact mutate_filter hmutate hne

theorem keeps_resolve (id : Nat)
    (hrequire : requireWebsite c website.websiteId = .ok website) :
    Keeps c f id (f.shared.resolve c website) := by
  unfold Host.resolve
  cases hdesired : desired c website f.shared.keys with
  | error e => exact keeps_of_keys rfl fun k hk => (by cases hk)
  | ok spec =>
      refine keeps_of_keys rfl fun k hk => ?_
      obtain rfl := Option.some.inj hk
      rw [current_of_spec? rfl]
      refine ⟨website, ?_, hdesired⟩
      rw [(desired_eq_ok hdesired).1]
      exact hrequire

theorem keeps_spec (id : Nat) (hspec : k.spec? = some spec)
    (hk : Current c f.shared k) (env : Env) :
    Keeps c f id (f.shared.resume c k env) := by
  have hworks := resume_spec (c := c) f.shared hspec env
  have hcurrent := (current_of_spec? hspec).mp hk
  refine keeps_of_keys hworks.keys fun next hnext => ?_
  rcases hworks.next with ⟨k', heq, hk'⟩ | ⟨e, heq⟩ | ⟨heq, -⟩
  · rw [heq] at hnext
    obtain rfl := Option.some.inj hnext
    rw [current_of_spec? hk', hworks.keys]
    exact hcurrent
  · rw [heq] at hnext
    cases hnext
  · rw [heq] at hnext
    cases hnext

theorem keeps_resume (hok : Undisturbed c f id env k)
    (hk : Current c f.shared k) :
    Keeps c f id (f.shared.resume c k env) := by
  cases k with
  | entered call => exact keeps_mutate hok
  | saving website =>
      show Keeps c f id (if env.ok then _ else _)
      split
      · refine keeps_of_keys rfl fun k' hk' => ?_
        obtain rfl := Option.some.inj hk'
        exact hk
      · exact keeps_of_keys rfl fun k' hk' => (by cases hk')
  | resolving website => exact keeps_resolve id hk
  | rooting spec step => exact keeps_spec id rfl hk env
  | checking spec => exact keeps_spec id rfl hk env
  | comparing spec => exact keeps_spec id rfl hk env
  | writing spec step => exact keeps_spec id rfl hk env
  | verifying spec step => exact keeps_spec id rfl hk env

/-- Along a careful run every call's copy is what the keys ask for. -/
theorem keeps_current : (protocol c).KeepsApart (Careful c) (fun _ => True)
    (Current c) fun _ _ => True where
  start _ _ _ _ := ⟨trivial, fun _ => trivial⟩
  resume _ _ _ k hok hstage _ hk := by
    obtain ⟨hnext, hothers⟩ := keeps_resume (hok k hstage) hk
    exact ⟨trivial, hnext, fun other l hother hl hcurrent _ =>
      ⟨hothers other l hother hl hcurrent, fun _ _ => trivial⟩⟩
  world _ x _ _ := nomatch x
  restart _ hok _ := absurd hok id

-- ====== obligations

/-- A segment settles the website, goes on with a call that owes it, is
rejected, or was none of its business and left it as it was. -/
def Passes (c : Context) (w : Uuid) (h : Host) (k : Stage)
    (segment : Segment) : Prop :=
  Materialized c segment.1 w
    ∨ (∃ k', segment.2.1 = some k' ∧ k'.website? = some w)
    ∨ (∃ note ∈ segment.2.2, ∃ e, note = .rejected e)
    ∨ (k.website? ≠ some w ∧ ¬Materialized c h w)

/-- A call that is none of the website's business. -/
theorem passes_other (hk : k.website? ≠ some w)
    (hkept : Materialized c h w → Materialized c segment.1 w) :
    Passes c w h k segment := by
  by_cases hall : Materialized c h w
  · exact .inl (hkept hall)
  · exact .inr (.inr (.inr ⟨hk, hall⟩))

/-- What a website is to have stays where its keys and its file do. -/
theorem Materialized.of_same (hall : Materialized c h w)
    (hkeys : h'.keys.filter (fun entry => entry.websiteId == w)
      = h.keys.filter fun entry => entry.websiteId == w)
    (hfiles : ∀ website, requireWebsite c w = .ok website →
      h'.files website.unixUser = h.files website.unixUser) :
    Materialized c h' w := by
  obtain ⟨website, spec, hrequire, hdesired, hfile⟩ := hall
  have hsame : h'.keys.filter (fun entry =>
        entry.websiteId == website.websiteId)
      = h.keys.filter fun entry => entry.websiteId == website.websiteId := by
    rw [requireWebsite_id hrequire]
    exact hkeys
  refine ⟨website, spec, hrequire, ?_, ?_⟩
  · rw [desired_congr hsame]
    exact hdesired
  · rw [(desired_eq_ok hdesired).2, hfiles website hrequire,
      ← (desired_eq_ok hdesired).2]
    exact hfile

theorem passes_mutate (w : Uuid) (h : Host) (m : Moment) (call : Call) :
    Passes c w h (.entered call) (h.mutate c m call) := by
  have hnone : (Stage.entered call).website? ≠ some w := fun heq => nomatch heq
  unfold Host.mutate
  cases hchange : call.change c m h.keys with
  | error e =>
      exact .inr (.inr (.inl ⟨_, List.mem_singleton_self _, e, rfl⟩))
  | ok found =>
      obtain ⟨website, next⟩ := found
      obtain ⟨hrequire, hmutate⟩ := change_eq_ok hchange
      by_cases hw : website.websiteId = w
      · cases next with
        | none => exact .inr (.inl ⟨.resolving website, rfl, congrArg some hw⟩)
        | some keys => exact .inr (.inl ⟨.saving website, rfl, congrArg some hw⟩)
      · cases next with
        | none => exact passes_other hnone id
        | some keys =>
            refine passes_other hnone fun hall => hall.of_same ?_ fun _ _ => rfl
            exact mutate_filter hmutate (Ne.symm hw)

theorem passes_spec (hapart : Apart c) (w : Uuid)
    (hspec : k.spec? = some spec) (hk : Current c h k) (env : Env) :
    Passes c w h k (h.resume c k env) := by
  have hworks := resume_spec (c := c) h hspec env
  obtain ⟨website, hrequire, hdesired⟩ := (current_of_spec? hspec).mp hk
  have hwebsite : ∀ {k' : Stage}, k'.spec? = some spec →
      k'.website? = some spec.websiteId := by
    intro k' hk'
    cases k' with
    | entered _ => cases hk'
    | saving _ => cases hk'
    | resolving _ => cases hk'
    | rooting _ _ => obtain rfl := Option.some.inj hk'; rfl
    | checking _ => obtain rfl := Option.some.inj hk'; rfl
    | comparing _ => obtain rfl := Option.some.inj hk'; rfl
    | writing _ _ => obtain rfl := Option.some.inj hk'; rfl
    | verifying _ _ => obtain rfl := Option.some.inj hk'; rfl
  by_cases hw : spec.websiteId = w
  · rcases hworks.next with ⟨k', heq, hk'⟩ | ⟨e, heq⟩ | ⟨heq, hfile⟩
    · exact .inr (.inl ⟨k', congrArg Prod.fst heq, hw ▸ hwebsite hk'⟩)
    · refine .inr (.inr (.inl ⟨.rejected e, ?_, e, rfl⟩))
      rw [heq]
      exact List.mem_singleton_self _
    · left
      rw [heq]
      exact ⟨website, spec, hw ▸ hrequire, hdesired, .inl hfile⟩
  · have hne : k.website? ≠ some w := by
      rw [hwebsite hspec]
      exact fun heq => hw (Option.some.inj heq)
    refine passes_other hne fun hall => hall.of_same ?_ fun site hsite => ?_
    · rw [hworks.keys]
    · -- the file is of another website, and so of another user
      refine hworks.files _ fun huser => hw ?_
      rw [(desired_eq_ok hdesired).2] at huser
      exact (hapart w _ site website hsite hrequire huser).symm

theorem passes_resume (hapart : Apart c) (w : Uuid) (hk : Current c h k)
    (env : Env) :
    Passes c w h k (h.resume c k env) := by
  have hwaits : ∀ website : Identity, ∀ k' : Stage,
      k.website? = some website.websiteId →
      k'.website? = some website.websiteId →
        Passes c w h k (h, some k', []) := by
    intro website k' hown hnext
    by_cases hw : website.websiteId = w
    · exact .inr (.inl ⟨k', rfl, hnext.trans (congrArg some hw)⟩)
    · refine passes_other ?_ id
      rw [hown]
      exact fun heq => hw (Option.some.inj heq)
  cases k with
  | entered call => exact passes_mutate w h env.moment call
  | saving website =>
      show Passes c w h _ (if env.ok then _ else _)
      split
      · exact hwaits website _ rfl rfl
      · exact .inr (.inr (.inl ⟨_, List.mem_singleton_self _, _, rfl⟩))
  | resolving website =>
      show Passes c w h _ (h.resolve c website)
      unfold Host.resolve
      cases hdesired : desired c website h.keys with
      | error e =>
          exact .inr (.inr (.inl ⟨_, List.mem_singleton_self _, e, rfl⟩))
      | ok spec =>
          exact hwaits website _ rfl
            (congrArg some (desired_eq_ok hdesired).1)
  | rooting spec step => exact passes_spec hapart w rfl hk env
  | checking spec => exact passes_spec hapart w rfl hk env
  | comparing spec => exact passes_spec hapart w rfl hk env
  | writing spec step => exact passes_spec hapart w rfl hk env
  | verifying spec step => exact passes_spec hapart w rfl hk env

-- ====== runs

/-- In every run in which no call changes the keys of a website while
another works on a copy of them, the files settle. -/
theorem sftp_keys_settle (c : Context) (hapart : Apart c) (start : Host)
    (events : List KeyEvent)
    (h : (protocol c).machine.Allowed (Careful c) (Flight.fresh start)
      events) : Settles c start events := by
  intro hover hkept w hw
  have hstart : Protocol.Apart (fun _ => True) (Current c)
      (fun _ _ => True) (Flight.fresh start) :=
    Protocol.apart_fresh trivial
  have hall := Machine.allowed_and_invariant
    (fun _ _ hok hf => Protocol.apart_next (fun _ => trivial) keeps_current
      hok hf) h hstart
  exact Protocol.settled_run (p := protocol c)
    (q := fun h => Materialized c h w)
    (o := fun _ k => k.website? = some w)
    (g := fun note => ∃ e, note = .rejected e)
    (fun f id env k hok hstage => by
      rcases passes_resume hapart w (hok.2.calls id k hstage) env
        with hpass | hpass | hpass | ⟨hne, hnot⟩
      · exact .inl hpass
      · exact .inr (.inl hpass)
      · exact .inr (.inr (.inl hpass))
      · exact .inr (.inr (.inr ⟨hne, hnot, fun l hl => hl⟩)))
    (fun f x _ => nomatch x) (fun f hok => hok.1) hall hw hover
    (fun id note hnote hgive => by
      obtain ⟨e, rfl⟩ := hgive
      exact hkept id e hnote)

section Samples

def sampleUuid (last : Fin 10) : Uuid where
  text := "00000000-0000-4000-8000-00000000000" ++ toString last.val
  shaped := Uuid.shaped_zeros last

/-- One website, and hashes that are all the same. -/
def sampleContext : Context where
  sha256 _ := ⟨"aaaaaaaaaaaaaaaaaaaaaaaaaaaaaaaaaaaaaaaaaaaaaaaaaaaaaaaaaaaaaaaa",
    Eq.refl true⟩
  digest _ := []
  getWebsite id :=
    if id = sampleUuid 1 then
      some ⟨"static", some (sampleUuid 2), some "yunapp-aaaaaaaaaaaa"⟩
    else none

def sampleIdentity : Identity where
  websiteId := sampleUuid 1
  applicationId := sampleUuid 2
  unixUser := ⟨"yunapp-aaaaaaaaaaaa", by decide +kernel⟩

def samplePublicKey : PublicKey where
  type := .ed25519
  keyData :=
    "AAAAC3NzaC1lZDI1NTE5AAAAIAAAAAAAAAAAAAAAAAAAAAAAAAAAAAAAAAAAAAAAAAAA"
  fingerprint := "SHA256:"

def sampleKey : Key where
  id := sampleUuid 3
  websiteId := sampleUuid 1
  applicationId := sampleUuid 2
  unixUser := sampleIdentity.unixUser
  label := ⟨"laptop", by decide +kernel⟩
  key := samplePublicKey
  revision := 1
  createdAt := ⟨1⟩
  updatedAt := ⟨1⟩
  revokedAt := none

/-- What the host is to hold while the key is active. -/
def sampleSpec : Spec where
  websiteId := sampleUuid 1
  unixUser := sampleIdentity.unixUser
  keys := [{
    id := sampleUuid 3
    publicKey := samplePublicKey.type.text ++ " " ++ samplePublicKey.keyData
    fingerprint := samplePublicKey.fingerprint
    revision := ⟨1, Ranged.one_ok⟩ }]

/-- The website has one key and the file holds it. -/
def sampleHost : Host where
  keys := [sampleKey]
  files _ := some sampleSpec.content
  temps _ := none

def sampleEnv : Env where
  moment := ⟨some ⟨5⟩, sampleUuid 4⟩
  ok := true
  root := .managed
  managed := true

/-- Some segments of a call. -/
def sampleTurns (id n : Nat) : List KeyEvent :=
  List.replicate n (.answer id sampleEnv)

/-- A call that finds the file as wanted. -/
def sampleAlone : List KeyEvent :=
  .start (.reconcile (sampleUuid 1).json) :: sampleTurns 0 5

theorem sample_apart : Apart sampleContext := by
  have hid : ∀ w website, requireWebsite sampleContext w = .ok website →
      w = sampleUuid 1 := by
    intro w website h
    by_cases hw : w = sampleUuid 1
    · exact hw
    · have hnone : sampleContext.getWebsite w = none := if_neg hw
      unfold requireWebsite at h
      rw [hnone] at h
      cases h
  intro w w' website website' h h' _
  rw [hid w website h, hid w' website' h']

theorem sftp_keys_settle_alone :
    Apart sampleContext ∧ Settles sampleContext sampleHost sampleAlone :=
  ⟨sample_apart, sftp_keys_settle sampleContext sample_apart sampleHost
    sampleAlone (by decide +kernel)⟩

/-- A call reads the keys; the key is revoked, from the first segment to
the last; the first call goes on. -/
def sampleOverlap : List KeyEvent :=
  .start (.reconcile (sampleUuid 1).json) :: sampleTurns 0 4
    ++ .start (.revoke (sampleUuid 1).json (sampleUuid 3).json (.num 1))
      :: sampleTurns 1 15
    ++ sampleTurns 0 10

def Note.isReturned : Note → Bool
  | returned => true
  | rejected _ => false

/-- Both calls return and the file holds the key that was revoked. -/
theorem revoked_key_restored :
    ¬Settles sampleContext sampleHost sampleOverlap := by
  intro h
  have hover : ((protocol sampleContext).machine.run
      (Flight.fresh sampleHost) sampleOverlap).calls.all Option.isNone
      = true := by
    decide +kernel
  have hnotes : ((protocol sampleContext).notes (Flight.fresh sampleHost)
      sampleOverlap).all (fun note => note.2.isReturned) = true := by
    decide +kernel
  have hstart : Materialized sampleContext sampleHost (sampleUuid 1) :=
    ⟨sampleIdentity, sampleSpec, by decide +kernel, by decide +kernel,
      .inl rfl⟩
  obtain ⟨website, spec, hrequire, hdesired, hfile⟩ :=
    h (Flight.stage_eq_none hover)
      (fun id e hmem => by
        simpa [Note.isReturned] using List.all_eq_true.mp hnotes _ hmem)
      (sampleUuid 1) hstart
  have hwebsite : requireWebsite sampleContext (sampleUuid 1)
      = .ok sampleIdentity := by
    decide +kernel
  obtain rfl := Except.ok.inj (hrequire.symm.trans hwebsite)
  -- what is wanted in the end is the empty file
  have hempty : desired sampleContext sampleIdentity
      ((protocol sampleContext).machine.run (Flight.fresh sampleHost)
        sampleOverlap).shared.keys
      = .ok ⟨sampleUuid 1, sampleIdentity.unixUser, []⟩ := by
    decide +kernel
  obtain rfl := Except.ok.inj (hdesired.symm.trans hempty)
  revert hfile
  decide +kernel

end Samples

example : isLabel "pc" = true := by decide +kernel

end Yunpanel.Sftp
