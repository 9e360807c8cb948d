/-
Every interleaving of calls of the removal runtime.

# What a call remembers

A call in flight holds copies of operations, which are older than the
journal (`Viewed`), and from the mark of a step until its outcome is on
file it has that step in hand (`InHand`). `Sound` says both of a stage, and
`Rivals` that two calls have steps of different operations in hand.

# What has to be seen to

The journal refuses very little: it marks a step that is running already,
fails one that succeeded, takes up an operation that failed while another
of its website is under way. `Careful` is the condition under which none
of this happens, and `Fine` what one segment then keeps.
-/
import Yunpanel.Websites.Proofs.RemovalJournal

namespace Yunpanel.Websites

open Json Lib Lib.Result Flight
open RemovalPlan (Preview createWebsiteRemovalPreview)

variable {config : RemovalConfig}

-- ====== stages

namespace Stage

/-- The operation and the step a call has in hand. -/
def inHand : Stage config → Option (String × String)
  | reloaded op step => some (op.id, step.id)
  | working op step => some (op.id, step.id)
  | saving _ (.marked operationId step) => some (operationId, step.id)
  | saving _ (.blocked operationId step) => some (operationId, step.id)
  | _ => none

/-- The copies a call goes by. -/
def views : Stage config → List Operation
  | sweeping views => views
  | checking _ op => [op]
  | loaded op => [op]
  | saving _ (.swept rest) => rest
  | _ => []

def snapshot : Stage config → Option (List Operation)
  | saving snapshot _ => some snapshot
  | _ => none

/-- A stage that is reached through the journal only. -/
def afterInit : Stage config → Bool
  | entered _ => false
  | reading => false
  | previewing _ _ => false
  | _ => true

end Stage

/-- What is true of a call in flight. -/
structure Sound (s : Removals config) (k : Stage config) : Prop where
  init : k.afterInit = true → s.journal.initialized = true
  views : ∀ v ∈ k.views, Viewed s.journal.operations v
  inHand : ∀ x, k.inHand = some x → InHand s.journal.operations x.1 x.2
  snapshot : ∀ ops, k.snapshot = some ops → LawfulOps ops

/-- No operation is in the hands of both. -/
def Rivals (k l : Stage config) : Prop :=
  ∀ x y, k.inHand = some x → l.inHand = some y → x.1 ≠ y.1

theorem Rivals.symm {k l : Stage config} (h : Rivals k l) : Rivals l k :=
  fun x y hx hy he => h y x hy hx he.symm

/-- What is true of the panel between two segments. -/
structure Sane (s : Removals config) : Prop where
  lawful : LawfulOps s.journal.operations
  empty : s.journal.initialized = false →
    s.journal.operations = [] ∧ s.started = []
  file : ∀ ops, s.file = .stored ops → LawfulOps ops
  started : ∀ ops ∈ s.started, LawfulOps ops

theorem sane_boot {file : JournalFile} {websites : List (Website config.net)}
    (h : ∀ ops, file = .stored ops → LawfulOps ops) :
    Sane (.boot file websites : Removals config) :=
  ⟨lawfulOps_nil, fun _ => ⟨rfl, rfl⟩, h, by simp [Removals.boot]⟩

/-- The operations on file are lawful. -/
theorem Sane.lawful_file {s : Removals config} (h : Sane s) :
    LawfulOps s.file.operations := by
  cases hfile : s.file with
  | absent => exact lawfulOps_nil
  | torn => exact lawfulOps_nil
  | stored ops =>
      have hops := h.file ops hfile
      show LawfulOps (Journal.load ops)
      rw [Journal.load_of_nodup hops.ids]
      exact hops

theorem Sane.lawful_operations {s : Removals config} (h : Sane s) :
    LawfulOps s.operations := by
  unfold Removals.operations
  split
  · exact h.lawful
  · exact h.lawful_file

-- ====== segments

/-- What one segment of a call keeps, the others being there. -/
structure Fine (s : Removals config) (others : Stage config → Prop)
    (k : Stage config) (seg : Segment config) : Prop where
  sane : Sane seg.1
  next : ∀ k' ∈ seg.2.1, Sound seg.1 k'
  others : ∀ l, others l → Sound s l → Rivals k l →
    Sound seg.1 l ∧ ∀ k' ∈ seg.2.1, Rivals k' l
  kept : ∀ x ∈ succeededSteps s.operations,
    x ∈ succeededSteps seg.1.operations

variable {s : Removals config} {others : Stage config → Prop}
  {k : Stage config}

/-- A call that is over and changed nothing. -/
theorem fine_over (hs : Sane s) (notes : List RemovalNote) :
    Fine s others k (s, none, notes) :=
  ⟨hs, by simp, fun l _ hl _ => ⟨hl, by simp⟩, fun _ hx => hx⟩

/-- A call that goes on and changed nothing, with at most in hand what it
had before. -/
theorem fine_goes (hs : Sane s) {k' : Stage config}
    (hnext : Sound s k') (hhand : ∀ x, k'.inHand = some x →
      k.inHand = some x) (notes : List RemovalNote) :
    Fine s others k (s, some k', notes) := by
  refine ⟨hs, fun k'' hk'' => ?_, fun l _ hl hrivals => ⟨hl, fun k'' hk'' => ?_⟩,
    fun _ hx => hx⟩
  · exact Option.some.inj hk'' ▸ hnext
  · obtain rfl := Option.some.inj hk''
    exact fun x y hx hy => hrivals x y (hhand x hx) hy

/-- A call that goes on with nothing to remember. -/
theorem fine_clear (hs : Sane s) (k' : Stage config)
    (hinit : k'.afterInit = true → s.journal.initialized = true)
    (hviews : k'.views = []) (hhand : k'.inHand = none)
    (hsnapshot : k'.snapshot = none) (notes : List RemovalNote) :
    Fine s others k (s, some k', notes) := by
  refine fine_goes hs ⟨hinit, ?_, ?_, ?_⟩ ?_ notes
  · rw [hviews]
    simp
  · rw [hhand]
    simp
  · rw [hsnapshot]
    simp
  · rw [hhand]
    simp

variable {op : Operation} {j : Journal} {step : Step} {next : After}

/-- A call that goes on with the copy of one operation. -/
theorem fine_view (hs : Sane s) {value : Json}
    (hget : s.journal.get value = .ok (some op)) (k' : Stage config)
    (hviews : k'.views = [op]) (hhand : k'.inHand = none)
    (hsnapshot : k'.snapshot = none) (notes : List RemovalNote) :
    Fine s others k (s, some k', notes) := by
  obtain ⟨hinit, hmem, -⟩ := Journal.get_eq_ok hget
  refine fine_goes hs ⟨fun _ => hinit, fun v hv => ?_, ?_, ?_⟩ ?_ notes
  · rw [hviews, List.mem_singleton] at hv
    exact ⟨op, hmem, hv ▸ .refl op⟩
  · rw [hhand]
    simp
  · rw [hsnapshot]
    simp
  · rw [hhand]
    simp

/-- The same where only the file or the websites changed. -/
theorem fine_beside {s' : Removals config} {seg : Segment config}
    (hjournal : s'.journal = s.journal)
    (hinit : s.journal.initialized = true) (h : Fine s' others k seg) :
    Fine s others k seg := by
  have hsound : ∀ {l}, Sound s l → Sound s' l := by
    intro l hl
    have hinit' := hl.init
    have hviews := hl.views
    have hhand := hl.inHand
    rw [← hjournal] at hinit' hviews hhand
    exact ⟨hinit', hviews, hhand, hl.snapshot⟩
  refine ⟨h.sane, h.next, fun l hl hsl hrivals =>
    h.others l hl (hsound hsl) hrivals, fun x hx => h.kept x ?_⟩
  have hsame : s'.operations = s.operations := by
    unfold Removals.operations
    rw [hjournal, if_pos hinit, if_pos hinit]
  rw [hsame]
  exact hx

theorem sane_record (hs : Sane s) (hinit : j.initialized = true)
    (hops : LawfulOps j.operations) :
    Sane (s.record j) := by
  refine ⟨hops, fun hnot => ?_, hs.file, fun ops hmem => ?_⟩
  · have hnot' : j.initialized = false := hnot
    rw [hinit] at hnot'
    cases hnot'
  · rcases List.mem_append.mp hmem with hmem | hmem
    · exact hs.started ops hmem
    · rw [List.mem_singleton.mp hmem]
      exact hops

/-- A stage that was sound, in a journal where everything is kept. -/
theorem Sound.of_kept {l : Stage config} (h : Sound s l)
    (hinit : j.initialized = true)
    (hkept : KeptOps s.journal.operations j.operations)
    (hhand : ∀ x, l.inHand = some x →
      InHand s.journal.operations x.1 x.2 → InHand j.operations x.1 x.2) :
    Sound (s.record j) l :=
  ⟨fun _ => hinit, fun v hv => (h.views v hv).of_keptOps hkept,
    fun x hx => hhand x hx (h.inHand x hx), h.snapshot⟩

variable {x : String × String} {notes : List RemovalNote}
  {operationId : String} {snapshot : List Operation} {id : Nat}

theorem kept_record (hinit : s.journal.initialized = true)
    (hinit' : j.initialized = true)
    (hkept : KeptOps s.journal.operations j.operations)
    (hx : x ∈ succeededSteps s.operations) :
    x ∈ succeededSteps (s.record j).operations := by
  unfold Removals.operations at hx ⊢
  rw [if_pos hinit] at hx
  have hj : (s.record j).journal.initialized = true := hinit'
  rw [if_pos hj]
  exact succeededSteps_of_keptOps hkept hx

/-- A call that changed one step and waits for the write. The others go on
as they were where they have nothing of the operation in hand, or the step
stays one that can be in hand. -/
theorem fine_advance {op' : Operation} {step' : Step} (hs : Sane s)
    (hinit : s.journal.initialized = true) (hinit' : j.initialized = true)
    (h : Advance s.journal.operations j.operations op op' step step')
    (hops : LawfulOps j.operations)
    (hviews : ∀ v ∈ (Stage.saving j.operations next : Stage config).views,
      Viewed s.journal.operations v)
    (hhand : ∀ x, (Stage.saving j.operations next : Stage config).inHand
      = some x → x = (op.id, step.id)
        ∧ (step'.status = .running ∨ step'.status = .blocked))
    (hothers : ∀ l, others l → Rivals k l → ∀ x, l.inHand = some x →
      op.id = x.1 →
        (step'.status = .running ∨ step'.status = .blocked)
          ∧ (Stage.saving j.operations next : Stage config).inHand = none) :
    Fine s others k (.goes (s.record j) (.saving j.operations next)
      notes) := by
  have hkept := keptOps_of_advance h
  have hnext : Sound (s.record j) (.saving j.operations next) := by
    refine ⟨fun _ => hinit', fun v hv => (hviews v hv).of_keptOps hkept,
      fun x hx => ?_, fun ops hsnapshot => ?_⟩
    · obtain ⟨rfl, hstatus⟩ := hhand x hx
      exact ⟨op', h.mem', h.id, step', h.step_mem', h.stepId, hstatus⟩
    · exact Option.some.inj hsnapshot ▸ hops
  refine ⟨sane_record hs hinit' hops, fun k' hk' => ?_,
    fun l hl hsl hrivals => ⟨?_, fun k' hk' => ?_⟩,
    fun x hx => kept_record hinit hinit' hkept hx⟩
  · exact Option.some.inj hk' ▸ hnext
  · refine hsl.of_kept hinit' hkept fun x hx hin => ?_
    exact hin.of_advance h hs.lawful
      fun hsame => (hothers l hl hrivals x hx hsame).1
  · obtain rfl := Option.some.inj hk'
    intro x y hx hy he
    obtain ⟨rfl, -⟩ := hhand x hx
    have hnone := (hothers l hl hrivals y hy he).2
    rw [hx] at hnone
    cases hnone

-- ====== one by one

/-- A call looks an operation up and goes on with the copy. -/
theorem fine_runNextStep (hs : Sane s) (operationId : String) :
    Fine s others k (runNextStep s operationId) := by
  unfold runNextStep
  split
  · exact fine_over hs _
  · exact fine_over hs _
  · rename_i op hget
    exact fine_view hs hget (.loaded op) rfl rfl rfl _

/-- A call changes the step it has in hand, and keeps it in hand at most as
blocked. -/
theorem fine_inHand {updater : Journal.Updater} {status : StepStatus}
    {around : OperationStatus → OperationStatus} {now stepId : String}
    (hmakes : Journal.Makes updater status around)
    (hbegun : status ≠ .pending)
    (haround : ∀ s, status = .succeeded → around s = s)
    (h : s.journal.updateStep now operationId stepId updater = .ok j)
    (hs : Sane s) (hk : Sound s k)
    (hhand : k.inHand = some (operationId, stepId))
    (hviews : (Stage.saving j.operations next : Stage config).views = [])
    (hnext : ∀ x, (Stage.saving j.operations next : Stage config).inHand
      = some x → x = (operationId, stepId)
        ∧ (status = .running ∨ status = .blocked)) :
    Fine s others k (.goes (s.record j) (.saving j.operations next)
      notes) := by
  have hinit := (Journal.updateStep_eq_ok h).1
  obtain ⟨hinit', op, op', step, step', hadvance, hid, hstep, hopen,
    hstatus⟩ := Journal.advance_of_inHand hmakes hbegun haround h hs.lawful
      (hk.inHand _ hhand)
  refine fine_advance hs hinit hinit' hadvance
    (lawfulOps_of_advance hadvance hs.lawful fun _ hclosed => ?_)
    (by rw [hviews]; simp) (fun x hx => ?_) (fun l _ hrivals x hx he => ?_)
  · rw [hopen] at hclosed
    cases hclosed
  · obtain ⟨rfl, hkeeps⟩ := hnext x hx
    rw [hid, hstep, hstatus]
    exact ⟨rfl, hkeeps⟩
  · exact absurd (hid.symm.trans he) (hrivals _ x hhand hx)

theorem fine_failStep (hs : Sane s) (hk : Sound s k)
    (hhand : k.inHand = some (operationId, step.id)) (env : RemovalEnv)
    (e : StepError) : Fine s others k (failStep s env operationId step e) := by
  unfold failStep Segment.records
  split
  · exact fine_over hs _
  · rename_i j hj
    exact fine_inHand (Journal.makes_failed e) (by decide) (by simp) hj hs hk
      hhand rfl (fun x hx => nomatch hx)

theorem fine_succeedStep (hs : Sane s) (hk : Sound s k)
    (hhand : k.inHand = some (op.id, step.id)) (env : RemovalEnv)
    (details : Json) :
    Fine s others k (succeedStep s env op step details) := by
  unfold succeedStep recordOutcome
  split
  · exact fine_failStep hs hk hhand env _
  · rename_i j hj
    exact fine_inHand (Journal.makes_succeeded _) (by decide) (by simp) hj hs
      hk hhand rfl (fun x hx => nomatch hx)

theorem fine_blockStep (hs : Sane s) (hk : Sound s k)
    (hhand : k.inHand = some (op.id, step.id)) (env : RemovalEnv)
    (e : StepError) :
    Fine s others k (blockStep s env op step e) := by
  unfold blockStep recordOutcome
  split
  · exact fine_failStep hs hk hhand env _
  · rename_i j hj
    exact fine_inHand (Journal.makes_blocked e) (by decide) (by simp) hj hs
      hk hhand rfl fun x hx => ⟨(Option.some.inj hx).symm, .inr rfl⟩

/-- The work of a step that is in hand goes on, or its outcome is
recorded. -/
theorem fine_endWork (hs : Sane s) (hk : Sound s (.working op step))
    (env : RemovalEnv) :
    Fine s others (.working op step) (endWork s env op step) := by
  have hstays : ∀ notes, Fine s others (.working op step)
      (s, some (.working op step), notes) :=
    fun notes => fine_goes hs hk (fun x hx => hx) notes
  unfold endWork
  split
  · exact fine_succeedStep hs hk rfl env _
  · exact fine_failStep hs hk rfl env _
  · unfold endDomainRemoval
    split
    · exact fine_succeedStep hs hk rfl env _
    · exact fine_blockStep hs hk rfl env _
    · exact fine_blockStep hs hk rfl env _
    · exact fine_over hs _
  · exact hstays _
  · exact fine_succeedStep hs hk rfl env _
  · exact hstays _

theorem journal_finalizeMetadata (s : Removals config) (op : Operation) :
    (finalizeMetadata s op).journal = s.journal
      ∧ (finalizeMetadata s op).file = s.file
      ∧ (finalizeMetadata s op).started = s.started := by
  unfold finalizeMetadata
  split <;> exact ⟨rfl, rfl, rfl⟩

theorem fine_beginWork (hs : Sane s) (hk : Sound s (.reloaded op step))
    (env : RemovalEnv) :
    Fine s others (.reloaded op step) (beginWork s env op step) := by
  unfold beginWork
  split
  · obtain ⟨hjournal, hfile, hstarted⟩ := journal_finalizeMetadata s op
    have hinit := hk.init rfl
    have hsound : ∀ {s' : Removals config}, s'.journal = s.journal →
        Sound s' (.working op step) := by
      intro s' he
      refine ⟨fun _ => by rw [he]; exact hinit, fun v hv => (nomatch hv),
        fun x hx => ?_, fun ops hops => (nomatch hops)⟩
      rw [he]
      exact hk.inHand x hx
    have hhand : ∀ x, (Stage.working op step : Stage config).inHand = some x
        → (Stage.reloaded op step : Stage config).inHand = some x :=
      fun x hx => hx
    split
    · refine fine_beside hjournal hinit
        (fine_goes ?_ (hsound hjournal) hhand _)
      exact ⟨by rw [hjournal]; exact hs.lawful,
        by rw [hjournal, hstarted]; exact hs.empty,
        by rw [hfile]; exact hs.file, by rw [hstarted]; exact hs.started⟩
    · exact fine_goes hs (hsound rfl) hhand _
  · exact fine_succeedStep hs hk rfl env _

theorem fine_goOn (hs : Sane s) (hk : Sound s (.saving snapshot next)) :
    Fine s others (.saving snapshot next) (goOn s next) := by
  have hinit := hk.init rfl
  cases next with
  | created operationId => exact fine_runNextStep hs operationId
  | marked operationId step =>
      unfold goOn
      dsimp only
      split
      · exact fine_over hs _
      · exact fine_over hs _
      · rename_i op hget
        obtain ⟨-, hmem, hid⟩ := Journal.get_eq_ok hget
        obtain rfl := Json.str.inj hid
        have hsound : Sound s (.reloaded op step) :=
          ⟨fun _ => hinit, fun v hv => (nomatch hv), hk.inHand,
            fun ops hops => (nomatch hops)⟩
        have hhand : ∀ x, (Stage.reloaded op step : Stage config).inHand
            = some x → (Stage.saving snapshot (.marked op.id step)
              : Stage config).inHand = some x := fun x hx => hx
        exact fine_goes hs hsound hhand _
  | succeeded operationId step => exact fine_over hs _
  | blocked operationId step => exact fine_over hs _
  | failed operationId => exact fine_over hs _
  | swept rest =>
      have hsound : Sound s (.sweeping rest) :=
        ⟨fun _ => hinit, hk.views, fun x hx => (nomatch hx),
          fun ops hops => (nomatch hops)⟩
      exact fine_goes hs hsound (fun x hx => (nomatch hx)) _

/-- A write is done, or failed. Only a success that could not be written
would be taken back. -/
theorem fine_saved (hs : Sane s) (hk : Sound s (.saving snapshot next))
    (env : RemovalEnv)
    (hwritten : ∀ operationId step, next = .succeeded operationId step →
      env.saved = true) :
    Fine s others (.saving snapshot next) (saved s env snapshot next) := by
  unfold saved
  split
  · have hs' : Sane { s with file := .stored snapshot } :=
      ⟨hs.lawful, hs.empty, fun ops hops =>
        JournalFile.stored.inj hops ▸ hk.snapshot snapshot rfl, hs.started⟩
    have hk' : Sound { s with file := .stored snapshot }
        (.saving snapshot next) :=
      ⟨hk.init, hk.views, hk.inHand, hk.snapshot⟩
    have hsame : ({ s with file := .stored snapshot }
        : Removals config).journal = s.journal := rfl
    exact fine_beside hsame (hk.init rfl) (fine_goOn hs' hk')
  · rename_i hfailed
    split
    · exact absurd (hwritten _ _ rfl) hfailed
    · exact fine_failStep hs hk rfl env _
    · exact fine_over hs _

/-- The operation the loop of `init` comes to next, and its step. -/
def nextInterrupted (views : List Operation) : Option (Operation × Step) :=
  views.findSome? fun op => (interruptedStep op).map fun step => (op, step)

theorem fine_sweep {views : List Operation} (hs : Sane s)
    (hinit : s.journal.initialized = true)
    (hviews : ∀ v ∈ views, Viewed s.journal.operations v)
    (hrunning : ∀ x, nextInterrupted views = some x →
      InHand s.journal.operations x.1.id x.2.id) (env : RemovalEnv) :
    Fine s others k (sweep s env views) := by
  induction views with
  | nil => exact fine_over hs _
  | cons v rest ih =>
      rw [List.forall_mem_cons] at hviews
      unfold sweep
      cases hstep : interruptedStep v with
      | none =>
          refine ih hviews.2 fun x hx => hrunning x ?_
          unfold nextInterrupted at hx ⊢
          rw [List.findSome?_cons, hstep]
          exact hx
      | some step =>
          have hin := hrunning (v, step) (by
            unfold nextInterrupted
            rw [List.findSome?_cons, hstep]
            rfl)
          unfold Segment.records
          dsimp only
          split
          · exact fine_over hs _
          · rename_i j hj
            obtain ⟨hinit', op, op', t, t', hadvance, hid, -, hopen,
              hstatus⟩ := Journal.advance_of_inHand
                (Journal.makes_blocked interrupted) (by decide) (by simp) hj
                hs.lawful hin
            refine fine_advance hs hinit hinit' hadvance
              (lawfulOps_of_advance hadvance hs.lawful fun _ hclosed => ?_)
              hviews.2 (fun x hx => (nomatch hx))
              fun l _ _ x _ _ => ⟨.inr hstatus, rfl⟩
            rw [hopen] at hclosed
            cases hclosed

/-- A new operation is written to the journal. -/
theorem fine_startPreviewed {confirmation : String} {preview : Preview}
    (hs : Sane s) (env : RemovalEnv)
    (hfresh : ∀ o ∈ s.journal.operations,
      o.id ≠ "ws-rem-" ++ env.randomUUID.text) :
    Fine s others k (startPreviewed s env confirmation preview) := by
  unfold startPreviewed
  split
  · split
    · exact fine_over hs _
    · rename_i op j hcreate
      obtain ⟨hinit, hinit', happended, -, hops⟩ :=
        Journal.created hcreate hfresh hs.lawful
      have hkept : KeptOps s.journal.operations j.operations := by
        rw [happended]
        exact fun o ho => ⟨o, List.mem_append_left _ ho, .refl o⟩
      refine ⟨sane_record hs hinit' hops, fun k' hk' => ?_,
        fun l _ hsl _ => ⟨hsl.of_kept hinit' hkept fun x _ hin => ?_,
          fun k' hk' => ?_⟩,
        fun x hx => kept_record hinit hinit' hkept hx⟩
      · obtain rfl := Option.some.inj hk'
        exact ⟨fun _ => hinit', fun v hv => (nomatch hv),
          fun x hx => (nomatch hx),
          fun ops hsnapshot => Option.some.inj hsnapshot ▸ hops⟩
      · obtain ⟨o, ho, hrest⟩ := hin
        rw [happended]
        exact ⟨o, List.mem_append_left _ ho, hrest⟩
      · obtain rfl := Option.some.inj hk'
        exact fun x y hx => (nomatch hx)
  · exact fine_over hs _

/-- The first step that has not succeeded is marked, where nobody else has
anything of the operation in hand and a failed operation is alone. -/
theorem fine_markNext (hs : Sane s) (hk : Sound s (.loaded op))
    (env : RemovalEnv)
    (hfree : ∀ l, others l → ∀ x, l.inHand = some x → x.1 ≠ op.id)
    (halone : ∀ o ∈ s.journal.operations, o.id = op.id →
      o.status = .failed → ∀ o' ∈ s.journal.operations,
        o'.websiteId = o.websiteId → o'.unfinished = false) :
    Fine s others (.loaded op) (markNext s env op) := by
  unfold markNext
  split
  · exact fine_over hs _
  · rename_i first hfirst
    unfold Segment.records
    split
    · exact fine_over hs _
    · rename_i j hj
      have hinit := (Journal.updateStep_eq_ok hj).1
      obtain ⟨hinit', o, o', step, step', hadvance, hid, hstep, hstatus⟩ :=
        Journal.advance_of_markStepRunning hj hs.lawful
          (hk.views op List.mem_cons_self) hfirst
      refine fine_advance hs hinit hinit' hadvance
        (lawfulOps_of_advance hadvance hs.lawful fun _ hclosed => ?_)
        (fun v hv => (nomatch hv)) (fun x hx => ?_)
        (fun l hl _ x hx he => ?_)
      · refine halone o hadvance.mem hid ?_
        have hnot := (hs.lawful.each o hadvance.mem).status_ne_removed
          hadvance.step_mem hadvance.isOpen
        cases hstatus : o.status with
        | failed => rfl
        | removed => exact absurd hstatus hnot
        | pending | running | blocked =>
            unfold Operation.unfinished at hclosed
            rw [hstatus] at hclosed
            cases hclosed
      · obtain rfl := Option.some.inj hx
        rw [hid, hstep]
        exact ⟨rfl, .inl hstatus⟩
      · exact absurd (he.symm.trans hid) (hfree l hl x hx)

-- ====== care

/-- Nobody else has anything of the operation in hand. -/
def Free (f : Flight (Removals config) (Stage config)) (id : Nat)
    (operationId : String) : Prop :=
  ∀ other ∈ List.range f.calls.length, other ≠ id →
    ((f.stage other).bind Stage.inHand).map Prod.fst ≠ some operationId

/-- Where the operation has failed, its website has no other that is under
way. -/
def Alone (s : Removals config) (operationId : String) : Prop :=
  ∀ o ∈ s.journal.operations, o.id = operationId → o.status = .failed →
    ∀ o' ∈ s.journal.operations, o'.websiteId = o.websiteId →
      o'.unfinished = false

/-- The step is running still. -/
def StillRunning (s : Removals config) (operationId stepId : String) :
    Prop :=
  ∃ o ∈ s.journal.operations, o.id = operationId
    ∧ ∃ step ∈ o.steps, step.id = stepId ∧ step.status = .running

/-- The condition of a segment. -/
def CarefulSegment (f : Flight (Removals config) (Stage config)) (id : Nat)
    (env : RemovalEnv) : Stage config → Prop
  | .loaded op => Free f id op.id ∧ Alone f.shared op.id
  | .previewing _ _ => ∀ o ∈ f.shared.journal.operations,
      o.id ≠ "ws-rem-" ++ env.randomUUID.text
  | .reading => f.shared.journal.initialized = false
  | .sweeping views =>
      match nextInterrupted views with
      | none => True
      | some (op, step) => StillRunning f.shared op.id step.id
  | .saving _ (.succeeded _ _) => env.saved = true
  | _ => True

/-- The condition of a step of a run. -/
def Careful (f : Flight (Removals config) (Stage config)) :
    Flight.Event RemovalCall RemovalEnv RemovalWorld → Prop
  | .answer id env =>
      match f.stage id with
      | none => True
      | some k => CarefulSegment f id env k
  | .restart => ∀ x ∈ succeededSteps f.shared.operations,
      x ∈ succeededSteps f.shared.file.operations
  | _ => True

section Decidable

variable (f : Flight (Removals config) (Stage config))

instance (id : Nat) (operationId : String) :
    Decidable (Free f id operationId) :=
  inferInstanceAs (Decidable (∀ other ∈ List.range f.calls.length, _ → _))

instance (s : Removals config) (operationId : String) :
    Decidable (Alone s operationId) :=
  inferInstanceAs (Decidable (∀ o ∈ s.journal.operations, _ → _ → _))

instance (s : Removals config) (operationId stepId : String) :
    Decidable (StillRunning s operationId stepId) :=
  inferInstanceAs (Decidable (∃ o ∈ s.journal.operations, _ ∧ _))

instance decidableCarefulSegment (id : Nat) (env : RemovalEnv) :
    (k : Stage config) → Decidable (CarefulSegment f id env k)
  | .loaded op => inferInstanceAs (Decidable (Free f id op.id ∧ _))
  | .previewing _ _ =>
      inferInstanceAs (Decidable (∀ o ∈ f.shared.journal.operations, _))
  | .reading => inferInstanceAs (Decidable (_ = false))
  | .sweeping views =>
      match h : nextInterrupted views with
      | none => .isTrue (by simp [CarefulSegment, h])
      | some x =>
          decidable_of_iff (StillRunning f.shared x.1.id x.2.id)
            (by simp [CarefulSegment, h])
  | .saving _ (.succeeded _ _) => inferInstanceAs (Decidable (_ = true))
  | .saving _ (.created _) => .isTrue trivial
  | .saving _ (.marked _ _) => .isTrue trivial
  | .saving _ (.blocked _ _) => .isTrue trivial
  | .saving _ (.failed _) => .isTrue trivial
  | .saving _ (.swept _) => .isTrue trivial
  | .entered _ => .isTrue trivial
  | .listing => .isTrue trivial
  | .checking _ _ => .isTrue trivial
  | .reloaded _ _ => .isTrue trivial
  | .working _ _ => .isTrue trivial

instance (e : Flight.Event RemovalCall RemovalEnv RemovalWorld) :
    Decidable (Careful f e) :=
  match e with
  | .start _ => .isTrue trivial
  | .world _ => .isTrue trivial
  | .restart =>
      inferInstanceAs (Decidable (∀ x ∈ succeededSteps _, x ∈ _))
  | .answer id env =>
      match h : f.stage id with
      | none => .isTrue (by simp [Careful, h])
      | some k =>
          decidable_of_iff (CarefulSegment f id env k) (by simp [Careful, h])

end Decidable

theorem Free.out {f : Flight (Removals config) (Stage config)}
    (h : Free f id operationId) {other : Nat} {l : Stage config}
    (hne : other ≠ id) (hl : f.stage other = some l)
    (hx : l.inHand = some x) : x.1 ≠ operationId := by
  have hlt : other < f.calls.length := by
    by_contra hge
    unfold Flight.stage at hl
    rw [List.getElem?_eq_none (by omega)] at hl
    cases hl
  have hthis := h other (List.mem_range.mpr hlt) hne
  rw [hl] at hthis
  intro he
  apply hthis
  show (l.inHand).map Prod.fst = some operationId
  rw [hx, ← he]
  rfl

/-- A stage before `init` remembers nothing. -/
theorem remembers_of_afterInit {l : Stage config}
    (h : l.afterInit = false) :
    l.views = [] ∧ l.inHand = none ∧ l.snapshot = none := by
  cases l with
  | entered _ => exact ⟨rfl, rfl, rfl⟩
  | reading => exact ⟨rfl, rfl, rfl⟩
  | previewing _ _ => exact ⟨rfl, rfl, rfl⟩
  | _ => cases h

/-- The journal is read, into a panel where no call has seen it. -/
theorem fine_reading (hs : Sane s)
    (hfirst : s.journal.initialized = false) (env : RemovalEnv) :
    Fine s others .reading (resume s .reading env) := by
  unfold resume
  dsimp only
  split
  · exact fine_over hs _
  · refine ⟨⟨hs.lawful_file, fun h => (nomatch h), hs.file, hs.started⟩,
      fun k' hk' => ?_, fun l _ hsl _ => ⟨?_, fun k' hk' => ?_⟩,
      fun x hx => ?_⟩
    · obtain rfl := Option.some.inj hk'
      exact ⟨fun _ => rfl, fun v hv => (nomatch hv),
        fun x hx => (nomatch hx), fun ops hops => (nomatch hops)⟩
    · have hbefore : l.afterInit = false := by
        rw [← Bool.not_eq_true]
        intro hafter
        rw [hsl.init hafter] at hfirst
        cases hfirst
      obtain ⟨hviews, hhand, -⟩ := remembers_of_afterInit hbefore
      refine ⟨fun _ => rfl, ?_, ?_, hsl.snapshot⟩
      · rw [hviews]
        simp
      · rw [hhand]
        simp
    · obtain rfl := Option.some.inj hk'
      exact fun x y hx => (nomatch hx)
    · unfold Removals.operations at hx
      rw [hfirst] at hx
      exact hx

/-- Every segment of a careful run is fine. -/
theorem fine_resume {f : Flight (Removals config) (Stage config)}
    {env : RemovalEnv} (hs : Sane f.shared) (hk : Sound f.shared k)
    (hcareful : CarefulSegment f id env k) :
    Fine f.shared (fun l => ∃ other, other ≠ id ∧ f.stage other = some l) k
      (resume f.shared k env) := by
  cases k with
  | entered c =>
      cases c with
      | init =>
          unfold resume
          dsimp only
          split
          · rename_i hinit
            exact fine_clear hs .listing (fun _ => hinit) rfl rfl rfl _
          · exact fine_clear hs .reading (fun h => nomatch h) rfl rfl rfl _
      | start confirmation =>
          unfold resume
          dsimp only
          split
          · exact fine_over hs _
          · split
            · exact fine_over hs _
            · exact fine_clear hs (.previewing _ _) (fun h => nomatch h) rfl
                rfl rfl _
      | continueStep input =>
          unfold resume
          dsimp only
          split
          · exact fine_over hs _
          · exact fine_over hs _
          · rename_i op hget
            exact fine_view hs hget (.checking input op) rfl rfl rfl _
  | reading => exact fine_reading hs hcareful env
  | listing =>
      have hinit := hk.init rfl
      have hsound : Sound f.shared
          (.sweeping f.shared.journal.operations) :=
        ⟨fun _ => hinit, fun v hv => ⟨v, hv, .refl v⟩,
          fun x hx => (nomatch hx), fun ops hops => (nomatch hops)⟩
      exact fine_goes hs hsound (fun x hx => (nomatch hx)) _
  | sweeping views =>
      refine fine_sweep hs (hk.init rfl) hk.views (fun x hx => ?_) env
      have hstill : StillRunning f.shared x.1.id x.2.id := by
        have hthis : nextInterrupted views = some x := hx
        simp only [CarefulSegment, hthis] at hcareful
        exact hcareful
      obtain ⟨o, ho, hid, step, hstep, hsid, hstatus⟩ := hstill
      exact ⟨o, ho, hid, step, hstep, hsid, .inl hstatus⟩
  | previewing confirmation website =>
      unfold resume
      dsimp only
      split
      · exact fine_over hs _
      · split
        · exact fine_over hs _
        · exact fine_startPreviewed hs env hcareful
  | checking input op =>
      unfold resume
      dsimp only
      split
      · exact fine_over hs _
      · exact fine_runNextStep hs op.id
  | loaded op =>
      obtain ⟨hfree, halone⟩ := hcareful
      refine fine_markNext hs hk env (fun l hl x hx => ?_) halone
      obtain ⟨other, hne, hother⟩ := hl
      exact hfree.out hne hother hx
  | reloaded op step => exact fine_beginWork hs hk env
  | working op step => exact fine_endWork hs hk env
  | saving snapshot next =>
      refine fine_saved hs hk env fun operationId step he => ?_
      subst he
      exact hcareful

end Yunpanel.Websites
