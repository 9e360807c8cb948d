/-
Whether the process starts on the bindings that accepted calls leave.

# What the loader asks

`Startable` is what the loader of the bindings asks of both registries: each
binding has a website of its server that hosts the binding's application,
with its user, and an application of the website's type; ids and databases
are distinct. `start_eq_ok` says it asks for nothing else.

# What keeps it

Binding and unbinding keep it. An update of a website keeps it exactly
where it sends no other application for a website that has a binding
(`startable_updated_iff`): a rename, another proxy target and a repeated
application are harmless, another application, a proxy or a container are
not, and the registry of websites accepts these without looking.
-/
import Yunpanel.Databases.Bindings
import Yunpanel.Websites.Proofs.Updates

namespace Yunpanel.Databases

open Json Lib Lib.Result
open Websites (Website Runtime Requested)

variable {config : Websites.Config}

-- ====== loader

/-- What the loader looks up of a binding. -/
structure Owned (websites : List (Website config.net)) (b : Binding) :
    Prop where
  server : config.serverExists b.serverId = true
  hosted : ∃ w type a, getWebsite config websites b.websiteId = some w
    ∧ w.serverId = b.serverId
    ∧ hostedBinding config w = some (type, b.applicationId, b.unixUser)
    ∧ config.getApplication b.applicationId = some a
    ∧ a.serverId = b.serverId ∧ a.type = type.text

variable {requested : Json} {serverId websiteId id : Uuid} {o : Ownership}
  {b : Binding}

theorem requireRequested_eq_ok {applicationId : Uuid} :
    requireRequested applicationId requested = .ok ()
      ↔ (requested ≠ .null → Uuid.read? requested = some applicationId) := by
  unfold requireRequested
  split
  · simp
  · rename_i hnull
    simp only [identity, bind_eq_ok, demand_eq_ok, ensure_eq_ok, beq_iff_eq,
      exists_eq_right]
    exact ⟨fun h _ => h, fun h => h hnull⟩

theorem resolveOwnership_eq_ok {websites : List (Website config.net)} :
    resolveOwnership config websites serverId websiteId requested = .ok o ↔
      (o.serverId = serverId ∧ o.websiteId = websiteId
        ∧ config.serverExists serverId = true
        ∧ (requested ≠ .null → Uuid.read? requested = some o.applicationId))
      ∧ ∃ w type a, getWebsite config websites websiteId = some w
        ∧ w.serverId = serverId
        ∧ hostedBinding config w = some (type, o.applicationId, o.unixUser)
        ∧ config.getApplication o.applicationId = some a
        ∧ a.serverId = serverId ∧ a.type = type.text := by
  unfold resolveOwnership
  simp only [bind_eq_ok, exists_unit, ensure_eq_ok, demand_eq_ok, beq_iff_eq,
    Bool.and_eq_true, pure_eq, Except.ok.injEq, requireRequested_eq_ok,
    Prod.exists]
  constructor
  · rintro ⟨hserver, w, hw, hws, type, applicationId, unixUser, hhosted,
      hmatch, a, ha, ⟨has, hat⟩, rfl⟩
    exact ⟨⟨rfl, rfl, hserver, hmatch⟩, w, type, a, hw, hws, hhosted, ha,
      has, hat⟩
  · rintro ⟨⟨rfl, rfl, hserver, hmatch⟩, w, type, a, hw, hws, hhosted, ha,
      has, hat⟩
    exact ⟨hserver, w, hw, hws, type, o.applicationId, o.unixUser, hhosted,
      hmatch, a, ha, ⟨has, hat⟩, rfl⟩

theorem checkReference_eq_ok {websites : List (Website config.net)} :
    checkReference config websites b = .ok () ↔ Owned websites b := by
  unfold checkReference
  simp only [bind_eq_ok, ensure_eq_ok, beq_iff_eq, resolveOwnership_eq_ok,
    Uuid.read?_json, Option.some.injEq]
  constructor
  · rintro ⟨o, ⟨⟨-, -, hserver, happlication⟩, w, type, a, hw, hws, hhosted,
      ha, has, hat⟩, huser⟩
    have hsame : b.applicationId = o.applicationId :=
      happlication (fun h => Json.noConfusion h)
    rw [← hsame, huser] at hhosted
    rw [← hsame] at ha
    exact ⟨hserver, w, type, a, hw, hws, hhosted, ha, has, hat⟩
  · rintro ⟨hserver, w, type, a, hw, hws, hhosted, ha, has, hat⟩
    exact ⟨⟨b.serverId, b.websiteId, b.applicationId, b.unixUser⟩,
      ⟨⟨rfl, rfl, hserver, fun _ => rfl⟩, w, type, a, hw, hws, hhosted, ha,
        has, hat⟩, rfl⟩

theorem validateBindingReference_eq_ok
    {websites : List (Website config.net)} :
    validateBindingReference config websites b = .ok ()
      ↔ Owned websites b := by
  unfold validateBindingReference
  rw [← checkReference_eq_ok]
  split
  · rename_i hok
    simp [hok]
  · rename_i e herror
    rw [herror]
    split <;> simp

/-- What the loop of `init` asks, of bindings met after others. -/
theorem initFrom_eq_ok {websites : List (Website config.net)}
    {stored : List Binding} {ids : List Uuid}
    {databases : List (Uuid × List Char)} :
    initFrom config websites ids databases stored = .ok () ↔
      (∀ b ∈ stored, Owned websites b)
        ∧ ((stored.map Binding.id).Nodup ∧ ∀ b ∈ stored, b.id ∉ ids)
        ∧ (stored.map Binding.databaseKey).Nodup
        ∧ ∀ b ∈ stored, b.databaseKey ∉ databases := by
  induction stored generalizing ids databases with
  | nil => simp [initFrom]
  | cons b rest ih =>
      simp only [initFrom, bind_eq_ok, exists_unit, ensure_eq_ok,
        validateBindingReference_eq_ok, ih, Bool.and_eq_true,
        Bool.not_eq_true', List.contains_eq_mem, decide_eq_false_iff_not,
        List.map_cons, List.nodup_cons]
      rw [List.forall_mem_cons, List.forall_mem_cons, List.forall_mem_cons]
      simp only [List.mem_cons, not_or, List.mem_map, not_exists, not_and,
        forall_and]
      constructor
      · rintro ⟨⟨hid, hkey⟩, howned, hall, ⟨hids, hne, hnot⟩, hkeys, hnekey,
          hnotkey⟩
        exact ⟨⟨howned, hall⟩, ⟨⟨hne, hids⟩, hid, hnot⟩, ⟨hnekey, hkeys⟩,
          hkey, hnotkey⟩
      · rintro ⟨⟨howned, hall⟩, ⟨⟨hne, hids⟩, hid, hnot⟩, ⟨hnekey, hkeys⟩,
          hkey, hnotkey⟩
        exact ⟨⟨hid, hkey⟩, howned, hall, ⟨hids, hne, hnot⟩, hkeys, hnekey,
          hnotkey⟩

/-- The bindings load against the websites. -/
structure Startable (s : Control config) : Prop where
  revised : ∀ b ∈ s.bindings,
    1 ≤ b.revision ∧ b.revision ≤ 9007199254740991
  owned : ∀ b ∈ s.bindings, Owned s.websites b
  ids : (s.bindings.map Binding.id).Nodup
  databases : (s.bindings.map Binding.databaseKey).Nodup

theorem start_eq_ok {s : Control config} :
    s.start = .ok () ↔ Startable s := by
  unfold Control.start initBindings
  simp only [bind_eq_ok, exists_unit, ensure_eq_ok, List.all_eq_true,
    Bool.and_eq_true, decide_eq_true_eq, initFrom_eq_ok, List.not_mem_nil,
    not_false_eq_true, implies_true, and_true]
  constructor
  · rintro ⟨hrevised, howned, hids, hkeys⟩
    exact ⟨hrevised, howned, hids, hkeys⟩
  · rintro ⟨hrevised, howned, hids, hkeys⟩
    exact ⟨hrevised, howned, hids, hkeys⟩

-- ====== updates

/-- The condition of an update: each database binding of the website keeps
its application, which is sent again or not at all. -/
def keepsApplication (s : Control config) (input : Websites.UpdateInput) :
    Bool :=
  s.bindings.all fun b =>
    Uuid.read? input.websiteId != some b.websiteId
      || input.changes.object?.all fun fields =>
        Websites.sentApplication fields (some b.applicationId)
          == some b.applicationId

theorem hostedBinding_eq_some {w : Website config.net}
    {type : Websites.HostedType} {user : SiteUser} :
    hostedBinding config w = some (type, id, user) ↔
      w.runtime = .hosted type id
        ∧ Matching.ofText? (config.appUnixUser id) = some user := by
  unfold hostedBinding
  cases hruntime : w.runtime with
  | hosted type' id' =>
      simp only [Option.map_eq_some_iff, Prod.mk.injEq,
        Runtime.hosted.injEq]
      constructor
      · rintro ⟨user', huser, rfl, rfl, rfl⟩
        exact ⟨⟨rfl, rfl⟩, huser⟩
      · rintro ⟨⟨rfl, rfl⟩, huser⟩
        exact ⟨user, huser, rfl, rfl, rfl⟩
  | workload _ _ => simp
  | compose _ => simp
  | proxy _ => simp

/-- A runtime with an application is a hosted one. -/
theorem hosted_of_applicationId {runtime : Runtime config.net}
    (h : runtime.applicationId = some id) :
    ∃ type, runtime = .hosted type id := by
  cases runtime with
  | hosted type id' => exact ⟨type, by rw [Option.some.inj h]⟩
  | workload _ _ => cases h
  | compose _ => cases h
  | proxy _ => cases h

/-- A binding keeps its owner through an update of the website exactly
where the update asks for the application again. -/
theorem owned_set_iff {websites : List (Website config.net)}
    {fields : Json.Fields} {i : Nat} {w w' : Website config.net}
    (hlocated : locate (fun w => w.id == id) websites = some (i, w))
    (hupdated : Websites.Updated config fields w w')
    (howned : Owned websites b) :
    Owned (websites.set i w') b ↔
      (id = b.websiteId → Websites.sentApplication fields
        (some b.applicationId) = some b.applicationId) := by
  have hid : w'.id = id := by
    rw [hupdated.id]
    simpa using accepted_of_locate hlocated
  have hget := @find?_set_located _ _ _ Website.id _ _ _ _ _ hlocated hid
    b.websiteId
  by_cases hsite : id = b.websiteId
  · rw [if_pos hsite] at hget
    obtain ⟨x, type, a, hx, hserver, hhosted, ha, has, hat⟩ := howned.hosted
    -- the website the binding names is the one that was updated
    have hfind : websites.find? (fun w => w.id == id) = some w := by
      rw [← locate_map_snd, hlocated]
      rfl
    obtain rfl : w = x := by
      unfold getWebsite at hx
      rw [← hsite, hfind] at hx
      exact Option.some.inj hx
    obtain ⟨hruntime, huser⟩ := hostedBinding_eq_some.mp hhosted
    have hsent := hupdated.applicationId
    rw [hruntime] at hsent
    constructor
    · rintro ⟨-, x, type', a', hx, -, hhosted', -, -, -⟩ -
      obtain rfl : w' = x := by
        unfold getWebsite at hx
        rw [hget] at hx
        exact Option.some.inj hx
      rw [(hostedBinding_eq_some.mp hhosted').1] at hsent
      exact hsent.symm
    · intro hkeeps
      have hnext : w'.runtime.applicationId = some b.applicationId :=
        hsent.trans (hkeeps hsite)
      obtain ⟨type', hnext⟩ := hosted_of_applicationId hnext
      have htype : a.type = type'.text := by
        rcases hupdated.hosted with hsame | hlooked
        · rw [hnext, hruntime] at hsame
          rw [(Runtime.hosted.inj hsame).1, hat]
        · obtain ⟨a', ha', -, htext⟩ := hlooked type' b.applicationId hnext
          rw [ha] at ha'
          obtain rfl := Option.some.inj ha'
          exact Websites.HostedType.text_of_ofText? htext
      exact ⟨howned.server, w', type', a, hget,
        hupdated.serverId.trans hserver,
        hostedBinding_eq_some.mpr ⟨hnext, huser⟩, ha, has, htype⟩
  · rw [if_neg hsite] at hget
    refine ⟨fun _ h => absurd h hsite, fun _ => ⟨howned.server, ?_⟩⟩
    obtain ⟨x, type, a, hx, hrest⟩ := howned.hosted
    exact ⟨x, type, a, hget.trans hx, hrest⟩

/-- An accepted update keeps the bindings loadable exactly where it keeps
the application of every one of them. -/
theorem startable_updated_iff {s : Control config} {now : Instant}
    {input : Websites.UpdateInput} {websites : List (Website config.net)}
    (h : Websites.updateWebsite config now s.websites input = .ok websites)
    (hs : Startable s) :
    Startable { s with websites } ↔ keepsApplication s input = true := by
  obtain ⟨id, i, w, w', fields, hread, hlocated, hfields, rfl, hupdated⟩ :=
    Websites.updated_of_updateWebsite h
  unfold keepsApplication
  rw [List.all_eq_true, hread, hfields]
  constructor
  · intro hnext b hb
    have hkeeps := (owned_set_iff hlocated hupdated (hs.owned b hb)).mp
      (hnext.owned b hb)
    by_cases hsite : id = b.websiteId
    · simp [hkeeps hsite]
    · simp [hsite]
  · intro hkeeps
    refine ⟨hs.revised, fun b hb => ?_, hs.ids, hs.databases⟩
    rw [owned_set_iff hlocated hupdated (hs.owned b hb)]
    intro hsite
    have hthis := hkeeps b hb
    simpa [hsite] using hthis

-- ====== bind and unbind

/-- What a lookup of ownership returns is an owner. -/
theorem owned_of_resolveOwnership {websites : List (Website config.net)}
    (h : resolveOwnership config websites serverId websiteId requested
      = .ok o) (hserver : b.serverId = serverId)
    (hwebsite : b.websiteId = websiteId)
    (happlication : b.applicationId = o.applicationId)
    (huser : b.unixUser = o.unixUser) : Owned websites b := by
  obtain ⟨⟨-, -, hexists, -⟩, w, type, a, hw, hws, hhosted, ha, has, hat⟩ :=
    resolveOwnership_eq_ok.mp h
  subst hserver hwebsite
  rw [← happlication, ← huser] at hhosted
  rw [← happlication] at ha
  exact ⟨hexists, w, type, a, hw, hws, hhosted, ha, has, hat⟩

theorem startable_bound {s : Control config} {env : BindEnv}
    {input : BindInput} {bindings : List Binding}
    (h : bindDatabase config env s.websites s.bindings input = .ok bindings)
    (hs : Startable s) (hfresh : ∀ b ∈ s.bindings, b.id ≠ env.randomUUID) :
    Startable { s with bindings } := by
  unfold bindDatabase at h
  simp only [bind_eq_ok, exists_unit] at h
  obtain ⟨name, -, serverId, -, websiteId, -, o, ho, -, h⟩ := h
  split at h
  · simp only [bind_eq_ok, exists_unit, pure_eq, Except.ok.injEq] at h
    obtain ⟨-, rfl⟩ := h
    exact hs
  · rename_i hnone
    obtain rfl := Except.ok.inj h
    refine ⟨forall_mem_concat hs.revised (by simp),
      forall_mem_concat hs.owned
        (owned_of_resolveOwnership ho rfl rfl rfl rfl), ?_, ?_⟩
    · rw [List.map_append, List.map_singleton, ← List.concat_eq_append]
      refine List.Nodup.concat ?_ hs.ids
      simpa using hfresh
    · rw [List.map_append, List.map_singleton, ← List.concat_eq_append]
      refine List.Nodup.concat (fun hmem => ?_) hs.databases
      obtain ⟨b, hb, hkey⟩ := List.mem_map.mp hmem
      have hfree := List.find?_eq_none.mp hnone b hb
      apply hfree
      have hpair := Prod.mk.inj hkey
      simp [hpair.1, hpair.2]

theorem startable_unbound {s : Control config} {input : UnbindInput}
    {bindings : List Binding}
    (h : unbindDatabase s.bindings input = .ok bindings)
    (hs : Startable s) : Startable { s with bindings } := by
  unfold unbindDatabase at h
  simp only [bind_eq_ok, exists_unit, pure_eq, Except.ok.injEq,
    Prod.exists] at h
  obtain ⟨id, -, expected, -, index, b, -, -, -, rfl⟩ := h
  have hsub := List.eraseIdx_sublist s.bindings index
  exact ⟨fun b hb => hs.revised b (hsub.subset hb),
    fun b hb => hs.owned b (hsub.subset hb),
    hs.ids.sublist (hsub.map Binding.id),
    hs.databases.sublist (hsub.map Binding.databaseKey)⟩

-- ====== runs

/-- The calls the claim is about: accepted ones, where a binding is made
under an id that no other has. -/
def Accepted (s : Control config) (c : ControlCall) : Prop :=
  (s.accept c).isOk = true ∧
    match c with
    | .bindDatabase env _ => ∀ b ∈ s.bindings, b.id ≠ env.randomUUID
    | _ => True

instance (s : Control config) (c : ControlCall) :
    Decidable (Accepted s c) :=
  match c with
  | .updateWebsite _ _ => inferInstanceAs (Decidable (_ ∧ True))
  | .bindDatabase _ _ => inferInstanceAs (Decidable (_ ∧ ∀ b ∈ _, _))
  | .unbindDatabase _ => inferInstanceAs (Decidable (_ ∧ True))

/-- The condition of a call. -/
def Keeps (s : Control config) : ControlCall → Prop
  | .updateWebsite _ input => keepsApplication s input = true
  | _ => True

theorem startable_next_iff {s : Control config} {c : ControlCall}
    (hc : Accepted s c) (hs : Startable s) :
    Startable ((Control.machine config).next s c) ↔ Keeps s c := by
  show Startable (s.step c).1 ↔ Keeps s c
  obtain ⟨hok, hfresh⟩ := hc
  unfold Control.step
  cases haccept : s.accept c with
  | error e =>
      rw [haccept] at hok
      cases hok
  | ok s' =>
      cases c with
      | updateWebsite now input =>
          simp only [Control.accept] at haccept
          split at haccept
          · rename_i websites hupdate
            obtain rfl := Except.ok.inj haccept
            exact startable_updated_iff hupdate hs
          · cases haccept
      | bindDatabase env input =>
          simp only [Control.accept] at haccept
          split at haccept
          · rename_i bindings hbind
            obtain rfl := Except.ok.inj haccept
            exact iff_of_true (startable_bound hbind hs hfresh) trivial
          · cases haccept
      | unbindDatabase input =>
          simp only [Control.accept] at haccept
          split at haccept
          · rename_i bindings hunbind
            obtain rfl := Except.ok.inj haccept
            exact iff_of_true (startable_unbound hunbind hs) trivial
          · cases haccept

end Yunpanel.Databases
