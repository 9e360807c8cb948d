/-
Runs of the removal runtime.

`removals_stay_orderly` is about every careful run from an empty journal:
in each of its states the steps of an operation were begun in their order,
no two calls work on one step, and a website has at most one operation
under way; and what has succeeded has succeeded from then on.

`continuations_overlap` is a run that is not careful. The panel offers to
continue a step that is running, two calls take it up, and both do its
work.
-/
import Yunpanel.Websites.Proofs.Removal
import Yunpanel.Domains.Proofs.Runs

namespace Yunpanel.Websites

open Json Lib Lib.Result Flight

variable {config : RemovalConfig}

-- ====== runs

theorem sane_world {s : Removals config} (hs : Sane s) (x : RemovalWorld) :
    Sane (removalWorld s x) := by
  unfold removalWorld
  split
  · split
    · exact hs
    · rename_i ops hops
      exact ⟨hs.lawful, hs.empty, fun ops' he =>
        JournalFile.stored.inj he ▸
          hs.started ops (List.mem_of_getElem? hops), hs.started⟩
  · split
    · exact hs
    · exact ⟨hs.lawful, hs.empty, fun _ he => (nomatch he), hs.started⟩

theorem journal_world (s : Removals config) (x : RemovalWorld) :
    (removalWorld s x).journal = s.journal := by
  unfold removalWorld
  split
  · split <;> rfl
  · split <;> rfl

/-- Careful calls keep apart. -/
theorem keepsApart_removals (config : RemovalConfig) :
    (removalProtocol config).KeepsApart Careful Sane Sound Rivals where
  start f c _ _ := by
    refine ⟨⟨fun h => (nomatch h), fun v hv => (nomatch hv),
      fun x hx => (nomatch hx), fun _ hops => (nomatch hops)⟩, ?_⟩
    exact fun k x y hx => (nomatch hx)
  resume f id env k hok hstage hs hk := by
    have hcareful : CarefulSegment f id env k := by
      have hthis : Careful f (.answer id env) := hok
      simp only [Careful, hstage] at hthis
      exact hthis
    have hfine := fine_resume hs hk hcareful
    exact ⟨hfine.sane, hfine.next, fun other l hne hl hsl hrivals =>
      hfine.others l ⟨other, hne, hl⟩ hsl hrivals⟩
  world f x _ hs := by
    refine ⟨sane_world hs x, fun k hk => ?_⟩
    have hjournal := journal_world f.shared x
    have hinit := hk.init
    have hviews := hk.views
    have hhand := hk.inHand
    rw [← hjournal] at hinit hviews hhand
    exact ⟨hinit, hviews, hhand, hk.snapshot⟩
  restart f _ hs := sane_boot hs.file

theorem sane_fresh (websites : List (Website config.net)) :
    Protocol.Apart Sane Sound Rivals
      (fresh (Removals.boot .absent websites : Removals config)) :=
  Protocol.apart_fresh (sane_boot fun _ he => (nomatch he))

/-- What has succeeded has succeeded after one more careful step. -/
theorem succeeded_next {f : Flight (Removals config) (Stage config)}
    {e : Flight.Event RemovalCall RemovalEnv RemovalWorld}
    (hok : Careful f e) (hf : Protocol.Apart Sane Sound Rivals f)
    {x : String × String} (hx : x ∈ succeededSteps f.shared.operations) :
    x ∈ succeededSteps
      ((removalProtocol config).machine.next f e).shared.operations := by
  cases e with
  | start c => exact hx
  | answer id env =>
      show x ∈ succeededSteps
        ((removalProtocol config).step f (.answer id env)).1.shared.operations
      cases hstage : f.stage id with
      | none =>
          rw [(removalProtocol config).step_answer_none env hstage]
          exact hx
      | some k =>
          rw [(removalProtocol config).step_answer env hstage]
          have hcareful : CarefulSegment f id env k := by
            simp only [Careful, hstage] at hok
            exact hok
          exact (fine_resume hf.shared (hf.calls id k hstage) hcareful).kept
            x hx
  | world w =>
      rw [Protocol.next_world]
      show x ∈ succeededSteps (removalWorld f.shared w).operations
      cases hinit : f.shared.journal.initialized with
      | true =>
          unfold Removals.operations at hx ⊢
          rw [journal_world, if_pos hinit]
          rw [if_pos hinit] at hx
          exact hx
      | false =>
          -- before `init` nothing was started that could land
          have hnone := (hf.shared.empty hinit).2
          have hsame : removalWorld f.shared w = f.shared := by
            unfold removalWorld
            cases w <;> simp [hnone]
          rw [hsame]
          exact hx
  | restart => exact hok x hx

/-- Nothing that had succeeded is taken back. -/
def Keeps (f g : Flight (Removals config) (Stage config)) : Prop :=
  ∀ x ∈ succeededSteps f.shared.operations,
    x ∈ succeededSteps g.shared.operations

theorem Keeps.trans {f g h : Flight (Removals config) (Stage config)}
    (hfg : Keeps f g) (hgh : Keeps g h) : Keeps f h :=
  fun x hx => hgh x (hfg x hx)

/-- The step a call is doing the work of, with its operation. -/
def Stage.work : Stage config → Option (String × String)
  | working op step => some (op.id, step.id)
  | _ => none

theorem inHand_of_work {k : Stage config} {x : String × String}
    (h : k.work = some x) : k.inHand = some x := by
  cases k with
  | working op step => exact h
  | _ => cases h

/-- What the removals of a panel are like between two segments. -/
structure Orderly (f : Flight (Removals config) (Stage config)) : Prop where
  ordered : ∀ op ∈ f.shared.operations, op.steps.Pairwise fun a b =>
    b.status ≠ .pending → a.status = .succeeded
  exclusive : ∀ i j x, i ≠ j → (f.stage i).bind Stage.work = some x →
    (f.stage j).bind Stage.work ≠ some x
  single : ∀ a ∈ f.shared.operations, ∀ b ∈ f.shared.operations,
    a.unfinished = true → b.unfinished = true →
      a.websiteId = b.websiteId → a = b

theorem orderly_of_apart {f : Flight (Removals config) (Stage config)}
    (hf : Protocol.Apart Sane Sound Rivals f) : Orderly f := by
  have hops := hf.shared.lawful_operations
  refine ⟨fun op hop => (hops.each op hop).ordered,
    fun i j x hne hi hj => ?_, hops.single⟩
  obtain ⟨k, hk, hwork⟩ := Option.bind_eq_some_iff.mp hi
  obtain ⟨l, hl, hwork'⟩ := Option.bind_eq_some_iff.mp hj
  exact hf.apart i j k l hne hk hl x x (inHand_of_work hwork)
    (inHand_of_work hwork') rfl

/-- Careful runs stay orderly, and nothing that succeeded is taken back. -/
theorem removals_stay_orderly (config : RemovalConfig)
    (websites : List (Website config.net))
    (events later : List (Flight.Event RemovalCall RemovalEnv RemovalWorld))
    (hok : (removalProtocol config).machine.Allowed Careful
      (fresh (Removals.boot .absent websites)) (events ++ later)) :
    let f := (removalProtocol config).machine.run
      (fresh (Removals.boot .absent websites)) events
    let g := (removalProtocol config).machine.run f later
    Orderly f ∧ Keeps f g := by
  intro f g
  obtain ⟨hevents, hlater⟩ :=
    ((removalProtocol config).machine.allowed_append Careful _ _ _).mp hok
  have hf : Protocol.Apart Sane Sound Rivals f :=
    Protocol.apart_run Rivals.symm (keepsApart_removals config) hevents
      (sane_fresh websites)
  refine ⟨orderly_of_apart hf, ?_⟩
  have hboth := Machine.allowed_and_invariant
    (fun s e hok hs => Protocol.apart_next Rivals.symm
      (keepsApart_removals config) hok hs) hlater hf
  exact Machine.related_run_of_allowed (R := Keeps) (fun _ _ hx => hx)
    Keeps.trans (fun s e hok x hx => succeeded_next hok.1 hok.2 hx) hboth

-- ====== sample

/-- A panel with its default wiring: nothing to clean files or Unix users
with. -/
def samplePanel : RemovalConfig where
  net := Domains.asciiPlatform.toNet
  sha256 := fun _ =>
    ⟨"c4bd8b63e62f304fc3274ab51e3171444e0bf4de9b42edb9ceb8e4077743b779",
      Eq.refl true⟩
  servers := [⟨"22345678-1234-4234-8234-123456789012", Eq.refl true⟩]
  applications := []
  workloads := []
  projects := []
  sha1 := fun _ => []
  localServerId := ⟨"22345678-1234-4234-8234-123456789012", Eq.refl true⟩
  wired kind := kind ≠ .fileCleanup && kind ≠ .unixIdentityCleanup

/-- A website that is a proxy without a target. -/
def sampleWebsite : Website samplePanel.net where
  id := ⟨"32345678-1234-4234-8234-123456789012", Eq.refl true⟩
  serverId := samplePanel.localServerId
  name := ⟨"Shop", Eq.refl true⟩
  runtime := .proxy none
  revision := 1
  createdAt := ⟨1789264800000⟩
  updatedAt := ⟨1789264800000⟩

def nothing : RemovalPlan.Inventory := ⟨true, []⟩

/-- Nothing depends on the website. -/
def sampleImpact : RemovalPlan.Impact where
  resourceId := sampleWebsite.id.text
  serverId := sampleWebsite.serverId.text
  previewDigest := String.ofList (List.replicate 64 'c')
  confirmation := "delete:website:32345678-1234-4234-8234-123456789012:"
    ++ String.ofList (List.replicate 64 'c')
  blockers := [⟨"impact_apply_not_implemented", none, some "website", none⟩]
  dependencies := ⟨none, nothing, nothing, nothing, nothing, nothing, nothing,
    nothing, []⟩

def sampleEnv : RemovalEnv where
  now := "2026-09-13T02:00:00.000Z"
  randomUUID := ⟨"12345678-1234-4234-8234-123456789012", Eq.refl true⟩
  impact := .ok sampleImpact
  saved := true
  writeError := ⟨"EIO", "i/o error"⟩
  report := .finished .null

abbrev RemovalEvent := Flight.Event RemovalCall RemovalEnv RemovalWorld

/-- The next segments of a call. -/
def segments (id count : Nat) : List RemovalEvent :=
  List.replicate count (.answer id sampleEnv)

/-- The journal is opened, and the removal of the website started: its files
are cleaned, which is nothing here. -/
def startedRemoval : List RemovalEvent :=
  [.start .init] ++ segments 0 4
    ++ [.start (.start (.str
      ("start-website-remove:32345678-1234-4234-8234-123456789012:1:"
        ++ (samplePanel.sha256 "").text)))]
    ++ segments 1 7

/-- The last step is continued. -/
def continueSample : RemovalCall :=
  let operationId := "ws-rem-12345678-1234-4234-8234-123456789012"
  let stepId := "002:metadata_finalization:"
    ++ "32345678-1234-4234-8234-123456789012"
  .continueStep {
    websiteId := .str sampleWebsite.id.text
    operationId := .str operationId
    stepId := .str stepId
    expectedUpdatedAt := .str sampleEnv.now
    confirmation := .str ("continue-website-remove-step:"
      ++ sampleWebsite.id.text ++ ":" ++ operationId ++ ":" ++ stepId ++ ":"
      ++ sampleEnv.now) }

/-- The last step is continued twice at once. -/
def overlappingContinuations : List RemovalEvent :=
  startedRemoval ++ [.start continueSample, .start continueSample]
    ++ segments 2 2 ++ segments 3 2 ++ segments 2 3 ++ segments 3 3

/-- The same panel, with the last step continued once, to its end. -/
def continuedOnce : List RemovalEvent :=
  .start continueSample :: segments 2 7

/-- The run is careful, and ends with the operation removed. -/
theorem continuedOnce_runs :
    (removalProtocol samplePanel).machine.Allowed Careful
        (fresh (Removals.boot .absent [sampleWebsite]))
        (startedRemoval ++ continuedOnce)
      ∧ ∃ op ∈ ((removalProtocol samplePanel).machine.run
          (fresh (Removals.boot .absent [sampleWebsite]))
          (startedRemoval ++ continuedOnce)).shared.operations,
        op.status = .removed := by
  decide +kernel

theorem removals_stay_orderly_sample :
    let f := (removalProtocol samplePanel).machine.run
      (fresh (Removals.boot .absent [sampleWebsite])) startedRemoval
    let g := (removalProtocol samplePanel).machine.run f continuedOnce
    Orderly f ∧ Keeps f g :=
  removals_stay_orderly samplePanel [sampleWebsite] startedRemoval
    continuedOnce continuedOnce_runs.1

/-- Two calls that continue one step do its work at the same time. -/
theorem continuations_overlap :
    ¬Orderly ((removalProtocol samplePanel).machine.run
      (fresh (Removals.boot .absent [sampleWebsite]))
      overlappingContinuations) := by
  have hboth : ∃ x ∈ (((removalProtocol samplePanel).machine.run
        (fresh (Removals.boot .absent [sampleWebsite]))
        overlappingContinuations).stage 2).bind Stage.work,
      (((removalProtocol samplePanel).machine.run
        (fresh (Removals.boot .absent [sampleWebsite]))
        overlappingContinuations).stage 3).bind Stage.work = some x := by
    decide +kernel
  obtain ⟨x, hx, hx'⟩ := hboth
  intro horderly
  exact horderly.exclusive 2 3 x (by decide) hx hx'

example : Text.isUpper 'a' = false := by decide +kernel

end Yunpanel.Websites
