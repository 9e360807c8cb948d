/-
What an update of a website leads to.

`Updated` says it once: an accepted update rewrites the website that was
named and no other, keeps its id, its server and its date of creation, and
binds it to the application that was sent (`sentApplication`). A type and
an application that are new were looked up: `Hosted` is what the look-up
found. Proofs about accepted updates take these facts from
`updated_of_updateWebsite` and do not unfold the preview.
-/
import Yunpanel.Websites.Registry

namespace Yunpanel.Websites

open Json Lib Lib.Result

variable {config : Config}

-- ====== application

/-- The application an update asks for: the current one where the field is
not sent, and none where it is `null`. -/
def sentApplication (fields : Json.Fields) (current : Option Uuid) :
    Option Uuid :=
  match fields.lookup "applicationId" with
  | none => current
  | some value => Uuid.read? value

variable {fields : Json.Fields} {r : Requested}

theorem requestedId_eq_sent {current r : Option Uuid} {code : String}
    (h : requestedId fields "applicationId" code current = .ok r) :
    r = sentApplication fields current := by
  unfold requestedId at h
  unfold sentApplication
  cases hlookup : fields.lookup "applicationId" with
  | none =>
      rw [hlookup] at h
      exact (Except.ok.inj h).symm
  | some value =>
      rw [hlookup] at h
      by_cases hnull : value = .null
      · subst hnull
        exact (Except.ok.inj h).symm
      · have hmap : some <$> uuid value code "applicationId" = .ok r := by
          cases value <;> first | exact absurd rfl hnull | exact h
        obtain ⟨id, hid, rfl⟩ := map_eq_ok.mp hmap
        exact (demand_eq_ok.mp hid).symm

theorem requested_applicationId {w : Website config.net}
    (h : requested fields w = .ok r) :
    r.applicationId = sentApplication fields w.runtime.applicationId := by
  unfold requested at h
  simp only [bind_eq_ok, pure_eq, Except.ok.injEq] at h
  obtain ⟨applicationId, happlication, _, -, _, -, _, -, rfl⟩ := h
  exact requestedId_eq_sent happlication

theorem HostedType.text_of_ofText? {s : String} {type : HostedType}
    (h : ofText? s = some type) : s = type.text := by
  have hfound := List.find?_some h
  exact (beq_iff_eq.mp hfound).symm

/-- The application of a type the look-up of a binding found on the
server. -/
def Hosted (config : Config) (serverId : Uuid) (runtime : Runtime config.net) :
    Prop :=
  ∀ type id, runtime = .hosted type id →
    ∃ a, config.getApplication id = some a ∧ a.serverId = serverId
      ∧ HostedType.ofText? a.type = some type

/-- A look-up that succeeds returns the id it was given. -/
theorem applicationBinding_eq_ok {id bound serverId : Uuid}
    {type : HostedType}
    (h : applicationBinding (config.getApplication id) serverId
      = .ok (type, bound)) :
    bound = id ∧ Hosted config serverId (.hosted type id) := by
  simp only [applicationBinding, bind_eq_ok, exists_unit, demand_eq_ok,
    ensure_eq_ok, pure_eq, Except.ok.injEq, Prod.mk.injEq, beq_iff_eq] at h
  obtain ⟨a, ha, hserver, _, htype, -, rfl, rfl⟩ := h
  have hid : a.id = id := by
    have hfound := List.find?_some ha
    simpa using hfound
  refine ⟨hid, fun type' id' he => ?_⟩
  obtain ⟨rfl, rfl⟩ := Runtime.hosted.inj he
  exact ⟨a, ha, hserver, htype⟩

theorem switchToProxy_eq_ok {w : Website config.net}
    {runtime : Runtime config.net} (h : switchToProxy w r = .ok runtime) :
    r.applicationId = none ∧ ∃ target, runtime = .proxy target := by
  simp only [switchToProxy, bind_eq_ok, exists_unit, ensure_eq_ok,
    Option.isNone_iff_eq_none] at h
  obtain ⟨hnone, -, -, h⟩ := h
  refine ⟨hnone, ?_⟩
  split at h
  · exact ⟨_, (Except.ok.inj h).symm⟩
  · exact ⟨_, (Except.ok.inj h).symm⟩

theorem switchToDocker_eq_ok {websites : List (Website config.net)}
    {w : Website config.net} {runtime : Runtime config.net}
    (h : switchToDocker config websites w r = .ok runtime) :
    r.applicationId = none ∧ runtime.applicationId = none := by
  simp only [switchToDocker, bind_eq_ok, exists_unit, ensure_eq_ok,
    Option.isNone_iff_eq_none] at h
  obtain ⟨hnone, h⟩ := h
  refine ⟨hnone, ?_⟩
  split at h
  · simp only [bind_eq_ok, exists_unit, pure_eq, Except.ok.injEq] at h
    obtain ⟨_, -, -, rfl⟩ := h
    rfl
  · simp only [bind_eq_ok, exists_unit, pure_eq, Except.ok.injEq] at h
    obtain ⟨-, -, rfl⟩ := h
    rfl
  · cases h

theorem switchToApplication_eq_ok {websites : List (Website config.net)}
    {w : Website config.net} {type : HostedType}
    {runtime : Runtime config.net}
    (h : switchToApplication config websites w type r = .ok runtime) :
    runtime.applicationId = r.applicationId
      ∧ Hosted config w.serverId runtime := by
  simp only [switchToApplication, bind_eq_ok, exists_unit, ensure_eq_ok,
    demand_eq_ok, Prod.exists, pure_eq, Except.ok.injEq] at h
  obtain ⟨-, -, id, hid, bound, id', happlication, -, -, rfl⟩ := h
  obtain ⟨rfl, hhosted⟩ := applicationBinding_eq_ok happlication
  exact ⟨hid.symm, hhosted⟩

/-- What a website is bound to next: the application that was sent, looked
up unless the binding is left alone. -/
theorem nextRuntime_eq_ok {websites : List (Website config.net)}
    {w : Website config.net} {runtime : Runtime config.net}
    (h : nextRuntime config websites w fields = .ok runtime) :
    runtime.applicationId
        = sentApplication fields w.runtime.applicationId
      ∧ (runtime = w.runtime ∨ Hosted config w.serverId runtime) := by
  unfold nextRuntime at h
  obtain ⟨r, hr, h⟩ := bind_eq_ok.mp h
  rw [← requested_applicationId hr]
  by_cases hrequested : bindingRequested fields = true
  · rw [if_pos hrequested] at h
    cases htype : r.runtimeType with
    | proxy =>
        rw [htype] at h
        obtain ⟨hnone, target, rfl⟩ := switchToProxy_eq_ok h
        exact ⟨hnone.symm, .inr fun type id he => nomatch he⟩
    | docker =>
        rw [htype] at h
        obtain ⟨hnone, hnext⟩ := switchToDocker_eq_ok h
        refine ⟨hnext.trans hnone.symm, .inr fun type id he => ?_⟩
        rw [he] at hnext
        cases hnext
    | hosted type =>
        rw [htype] at h
        obtain ⟨happlication, hhosted⟩ := switchToApplication_eq_ok h
        exact ⟨happlication, .inr hhosted⟩
  · rw [if_neg hrequested] at h
    obtain rfl := Except.ok.inj h
    -- no field of a binding was sent, so neither was the application
    have hnot : fields.lookup "applicationId" = none := by
      simp only [bindingRequested, List.any_cons, Bool.or_eq_true,
        Option.isSome_iff_ne_none, not_or, not_not] at hrequested
      exact hrequested.1
    refine ⟨?_, .inl rfl⟩
    rw [requested_applicationId hr]
    unfold sentApplication
    rw [hnot]

/-- A proxy target leaves the application of a website alone. -/
theorem nextTarget_eq_ok {bound runtime : Runtime config.net}
    (h : nextTarget fields bound = .ok runtime) :
    runtime = bound ∨ (bound.applicationId = none
      ∧ runtime.applicationId = none) := by
  unfold nextTarget at h
  split at h
  · exact .inl (Except.ok.inj h).symm
  · split at h
    · obtain ⟨target, -, rfl⟩ := map_eq_ok.mp h
      exact .inr ⟨rfl, rfl⟩
    · cases h

-- ====== updates

/-- The website of an accepted update before and after it. -/
structure Updated (config : Config) (fields : Json.Fields)
    (w w' : Website config.net) : Prop where
  id : w'.id = w.id
  serverId : w'.serverId = w.serverId
  applicationId : w'.runtime.applicationId
    = sentApplication fields w.runtime.applicationId
  hosted : w'.runtime = w.runtime ∨ Hosted config w.serverId w'.runtime

theorem requireWebsite_eq_ok {websites : List (Website config.net)}
    {websiteId : Json} {i : Nat} {w : Website config.net} :
    requireWebsite websites websiteId = .ok (i, w) ↔
      ∃ id, Uuid.read? websiteId = some id
        ∧ locate (fun w => w.id == id) websites = some (i, w) := by
  simp only [requireWebsite, uuid, bind_eq_ok, demand_eq_ok]

/-- The preview of an accepted update is of the website that is named. -/
theorem previewWebsiteUpdate_eq_ok {websites : List (Website config.net)}
    {websiteId changes : Json} {plan : Plan config.net}
    (h : previewWebsiteUpdate config websites websiteId changes
      = .ok plan) :
    ∃ i w fields, requireWebsite websites websiteId = .ok (i, w)
      ∧ changes.object? = some fields ∧ plan.websiteId = w.id
      ∧ plan.runtime.applicationId
        = sentApplication fields w.runtime.applicationId
      ∧ (plan.runtime = w.runtime
          ∨ Hosted config w.serverId plan.runtime) := by
  unfold previewWebsiteUpdate at h
  obtain ⟨⟨i, w⟩, hw, h⟩ := bind_eq_ok.mp h
  obtain ⟨fields, hfields, h⟩ := bind_eq_ok.mp h
  obtain ⟨nextName, -, h⟩ := bind_eq_ok.mp h
  obtain ⟨bound, hbound, h⟩ := bind_eq_ok.mp h
  obtain ⟨runtime, hruntime, h⟩ := bind_eq_ok.mp h
  simp only [bind_eq_ok, exists_unit, pure_eq, Except.ok.injEq] at h
  obtain ⟨-, rfl⟩ := h
  have hobject : changes.object? = some fields :=
    (Option.filter_eq_some_iff.mp (demand_eq_ok.mp hfields)).1
  obtain ⟨happlication, hhosted⟩ := nextRuntime_eq_ok hbound
  refine ⟨i, w, fields, hw, hobject, rfl, ?_, ?_⟩
  · rcases nextTarget_eq_ok hruntime with rfl | ⟨hnone, hnext⟩
    · exact happlication
    · exact (hnext.trans hnone.symm).trans happlication
  · rcases nextTarget_eq_ok hruntime with rfl | ⟨-, hnext⟩
    · exact hhosted
    · refine .inr fun type id he => ?_
      have he' : runtime = .hosted type id := he
      rw [he'] at hnext
      cases hnext

/-- An accepted update rewrites the website it names. -/
theorem updated_of_updateWebsite {now : Instant}
    {websites websites' : List (Website config.net)} {input : UpdateInput}
    (h : updateWebsite config now websites input = .ok websites') :
    ∃ id i w w' fields, Uuid.read? input.websiteId = some id
      ∧ locate (fun w => w.id == id) websites = some (i, w)
      ∧ input.changes.object? = some fields
      ∧ websites' = websites.set i w' ∧ Updated config fields w w' := by
  unfold updateWebsite at h
  obtain ⟨expected, -, h⟩ := bind_eq_ok.mp h
  obtain ⟨fingerprint, -, h⟩ := bind_eq_ok.mp h
  obtain ⟨plan, hplan, h⟩ := bind_eq_ok.mp h
  simp only [bind_eq_ok, exists_unit, pure_eq, Except.ok.injEq,
    Prod.exists, ensure_eq_ok] at h
  obtain ⟨-, -, j, current, hcurrent, -, rfl⟩ := h
  obtain ⟨i, w, fields, hw, hfields, hid, happlication, hhosted⟩ :=
    previewWebsiteUpdate_eq_ok hplan
  obtain ⟨id, hread, hlocated⟩ := requireWebsite_eq_ok.mp hw
  obtain ⟨id', hread', hlocated'⟩ := requireWebsite_eq_ok.mp hcurrent
  -- the website is looked up a second time, by the id of the first
  have hsame : id' = id := by
    have hwid : w.id = id := by simpa using accepted_of_locate hlocated
    rw [hid, hwid, Uuid.read?_json] at hread'
    exact (Option.some.inj hread').symm
  rw [hsame, hlocated] at hlocated'
  obtain ⟨rfl, rfl⟩ := Prod.mk.inj (Option.some.inj hlocated')
  exact ⟨id, i, w, _, fields, hread, hlocated, hfields, rfl, rfl, rfl,
    happlication, hhosted⟩

end Yunpanel.Websites
