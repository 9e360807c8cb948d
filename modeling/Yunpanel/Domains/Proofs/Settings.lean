/-
Settings and targets read back as themselves.

`normalizeNginxSettings` and `validateTarget` build records out of JSON;
their results, written as JSON again, are accepted and rebuilt unchanged.
That is what the loader of the store asks of every record, and what keeps
an update that leaves the settings alone from changing them.
-/
import Yunpanel.Domains.Proofs.Names
import Yunpanel.Domains.Settings

namespace Yunpanel.Domains

open Lib

-- ====== settings

variable {j : Json} {net : Net} {target : Target}

theorem optionalInteger_intJson {name : String} {lo hi : Int}
    {v : Option Int} (h : optionalInteger name lo hi j = .ok v) :
    optionalInteger name lo hi (NginxSettings.intJson v) = .ok v := by
  unfold optionalInteger at h
  split at h
  · obtain rfl := Except.ok.inj h
    rfl
  · split at h
    · cases h
    · rename_i hrange
      obtain rfl := Except.ok.inj h
      rw [NginxSettings.intJson, optionalInteger, if_neg hrange]
  · cases h

theorem headerFields_headerJson {entry : Json} {header : Header}
    (h : headerFields entry = some header) :
    headerFields (NginxSettings.headerJson header) = some header := by
  unfold headerFields at h
  split at h
  · cases h
  · split at h
    · split at h
      · rename_i hok
        obtain rfl := Option.some.inj h
        simp only [headerFields, NginxSettings.headerJson, keysOf, field,
          List.map_cons, List.map_nil, List.length_cons, List.length_nil]
        simp [hok]
      · cases h
    · cases h

theorem headerList_map {seen : List String} {entries : List Json}
    {hs : List Header} (h : headerList seen entries = .ok hs) :
    headerList seen (hs.map NginxSettings.headerJson) = .ok hs
      ∧ hs.length = entries.length := by
  induction entries generalizing seen hs with
  | nil =>
      obtain rfl := Except.ok.inj h
      exact ⟨rfl, rfl⟩
  | cons entry rest ih =>
      unfold headerList at h
      split at h
      · cases h
      · rename_i header hfields
        split at h
        · cases h
        · rename_i hblocked
          split at h
          · cases h
          · rename_i hseen
            obtain ⟨others, hothers, h⟩ := Result.bind_eq_ok.mp h
            obtain rfl := Except.ok.inj h
            obtain ⟨hmap, hlen⟩ := ih hothers
            refine ⟨?_, by rw [List.length_cons, List.length_cons, hlen]⟩
            rw [List.map_cons, headerList, headerFields_headerJson hfields]
            dsimp only
            rw [if_neg hblocked, if_neg hseen, hmap]
            rfl

theorem headers_headersJson {hs : List Header} (h : headers j = .ok hs) :
    headers (NginxSettings.headersJson hs) = .ok hs := by
  unfold headers at h
  split at h
  · split at h
    · cases h
    · rename_i hlen
      obtain ⟨hmap, hsame⟩ := headerList_map h
      rw [NginxSettings.headersJson, headers, List.length_map, hsame,
        if_neg hlen]
      exact hmap
  · cases h

/-- Settings the registry takes as they are. -/
def IsSettings (targetType : TargetType) (s : NginxSettings) : Prop :=
  normalizeNginxSettings targetType s.toJson none = .ok s

/-- Settings of the shape their kind of target has, each field in its
range. -/
inductive SettingsOf : TargetType → NginxSettings → Prop where
  | forwarded {targetType size timeout websocket hs}
      (hkind : targetType.forwards = true)
      (hsize : optionalInteger "clientMaxBodySizeMb" 1 1024
        (NginxSettings.intJson size) = .ok size)
      (htimeout : optionalInteger "proxyTimeoutSeconds" 1 600
        (NginxSettings.intJson timeout) = .ok timeout)
      (hhs : headers (NginxSettings.headersJson hs) = .ok hs) :
      SettingsOf targetType (.forwarded size timeout websocket hs)
  | served {size spaFallback cache hs}
      (hsize : optionalInteger "clientMaxBodySizeMb" 1 1024
        (NginxSettings.intJson size) = .ok size)
      (hcache : optionalInteger "staticAssetCacheSeconds" 0 31536000
        (NginxSettings.intJson cache) = .ok cache)
      (hhs : headers (NginxSettings.headersJson hs) = .ok hs) :
      SettingsOf .static (.served size spaFallback cache hs)
  | plain {targetType size hs}
      (hkind : targetType = .passenger ∨ targetType = .php)
      (hsize : optionalInteger "clientMaxBodySizeMb" 1 1024
        (NginxSettings.intJson size) = .ok size)
      (hhs : headers (NginxSettings.headersJson hs) = .ok hs) :
      SettingsOf targetType (.plain size hs)

variable {value : Json} {s : NginxSettings}

theorem settingsOf_merge {targetType : TargetType} {seed : Json}
    (h : mergeSettings targetType value seed = .ok s) :
    SettingsOf targetType s := by
  unfold mergeSettings at h
  dsimp only at h
  split at h
  · cases h
  obtain ⟨size, hsize, h⟩ := Result.bind_eq_ok.mp h
  have hforwarded : ∀ (_ : targetType.forwards = true),
      (do
        let timeout ← optionalInteger "proxyTimeoutSeconds" 1 600
          (merged seed value "proxyTimeoutSeconds")
        let websocket ← boolean "websocket"
          (merged seed value "websocket")
        let hs ← headers (merged seed value "headers")
        return NginxSettings.forwarded size timeout websocket hs)
        = Except.ok s → SettingsOf targetType s := by
    intro hkind h
    obtain ⟨timeout, htimeout, h⟩ := Result.bind_eq_ok.mp h
    obtain ⟨websocket, -, h⟩ := Result.bind_eq_ok.mp h
    obtain ⟨hs, hhs, h⟩ := Result.bind_eq_ok.mp h
    obtain rfl := Except.ok.inj h
    exact .forwarded hkind (optionalInteger_intJson hsize)
      (optionalInteger_intJson htimeout) (headers_headersJson hhs)
  have hplain : ∀ (_ : targetType = .passenger ∨ targetType = .php),
      (do
        let hs ← headers (merged seed value "headers")
        return NginxSettings.plain size hs)
        = Except.ok s → SettingsOf targetType s := by
    intro hkind h
    obtain ⟨hs, hhs, h⟩ := Result.bind_eq_ok.mp h
    obtain rfl := Except.ok.inj h
    exact .plain hkind (optionalInteger_intJson hsize)
      (headers_headersJson hhs)
  cases targetType with
  | proxy => exact hforwarded rfl h
  | python => exact hforwarded rfl h
  | passenger => exact hplain (.inl rfl) h
  | php => exact hplain (.inr rfl) h
  | static =>
      obtain ⟨spaFallback, -, h⟩ := Result.bind_eq_ok.mp h
      obtain ⟨cache, hcache, h⟩ := Result.bind_eq_ok.mp h
      obtain ⟨hs, hhs, h⟩ := Result.bind_eq_ok.mp h
      obtain rfl := Except.ok.inj h
      exact .served (optionalInteger_intJson hsize)
        (optionalInteger_intJson hcache) (headers_headersJson hhs)

theorem settingsOf_normalize {targetType : TargetType} {base : Option Json}
    (h : normalizeNginxSettings targetType value base = .ok s) :
    SettingsOf targetType s := by
  unfold normalizeNginxSettings at h
  dsimp only at h
  split at h
  · exact settingsOf_merge h
  · split at h
    · exact settingsOf_merge h
    · obtain ⟨seed, -, h⟩ := Result.bind_eq_ok.mp h
      exact settingsOf_merge h

/-- Settings of the right shape are rebuilt from their own fields. -/
theorem SettingsOf.isSettings {targetType : TargetType}
    (h : SettingsOf targetType s) :
    IsSettings targetType s := by
  have hb : ∀ (name : String) (b : Bool),
      boolean name (.bool b) = .ok b := fun _ _ => rfl
  cases h with
  | forwarded hkind hsize htimeout hhs =>
      cases targetType <;> simp only [TargetType.forwards] at hkind
      case proxy | python =>
        simp [IsSettings, normalizeNginxSettings, mergeSettings, merged,
          NginxSettings.toJson, field, keysOf, Json.isObject,
          settingFields, hsize, htimeout, hhs, hb]
      all_goals cases hkind
  | served hsize hcache hhs =>
      simp [IsSettings, normalizeNginxSettings, mergeSettings, merged,
        NginxSettings.toJson, field, keysOf, Json.isObject, settingFields,
        hsize, hcache, hhs, hb]
  | plain hkind hsize hhs =>
      rcases hkind with rfl | rfl <;>
        simp [IsSettings, normalizeNginxSettings, mergeSettings, merged,
          NginxSettings.toJson, field, keysOf, Json.isObject,
          settingFields, hsize, hhs]

-- ====== targets

/-- Targets of the shape their kind asks for, each part as its check leaves
it. -/
inductive TargetOf (net : Net) : TargetType → Target → Prop where
  | static {root spaFallback}
      (hroot : ¬(Text.length root < 2 ∨ 500 < Text.length root
        ∨ root.toList.any Text.isControl = true)) :
      TargetOf net .static (.static root spaFallback)
  | proxy {host port websocket}
      (hport : portOf (some (.num port)) = some port)
      (hhost : normalizeProxyHost net host = some host) :
      TargetOf net .proxy (.proxy host port websocket)
  | application {targetType id}
      (hkind : targetType = .passenger ∨ targetType = .php)
      (hid : assertUuid id = some id) :
      TargetOf net targetType (.application id)
  | byPort {id port websocket} (hid : assertUuid id = some id)
      (hport : portOf (some (.num port)) = some port) :
      TargetOf net .python (.python id .port none (some port) websocket)
  | bySocket {id path websocket} (hid : assertUuid id = some id)
      (hpath : socketPrefix.toList.isPrefixOf path.toList = true) :
      TargetOf net .python
        (.python id .unixSocket (some path) none websocket)

theorem portOf_stable {j : Option Json} {port : Int}
    (h : portOf j = some port) : portOf (some (.num port)) = some port := by
  unfold portOf at h
  split at h
  · split at h
    · rename_i hrange
      obtain rfl := Option.some.inj h
      rw [portOf, if_pos hrange]
    · cases h
  · cases h

theorem uuidOf_stable {j : Option Json} {id : String}
    (h : uuidOf j = some id) : assertUuid id = some id := by
  unfold uuidOf at h
  split at h
  · exact assertUuid_stable h
  · cases h

theorem targetOf_static (h : staticTarget j = .ok target) :
    TargetOf net .static target := by
  unfold staticTarget at h
  split at h
  · rw [Result.guard_eq_ok] at h
    obtain ⟨hroot, h⟩ := h
    obtain rfl := Except.ok.inj h
    exact .static hroot
  · cases h

theorem targetOf_application {targetType : TargetType}
    (hkind : targetType = .passenger ∨ targetType = .php)
    {code label : String} (h : applicationTarget code label j = .ok target) :
    TargetOf net targetType target := by
  rw [applicationTarget, Result.guard_eq_ok] at h
  obtain ⟨-, h⟩ := h
  split at h
  · rename_i id hid
    obtain rfl := Except.ok.inj h
    exact .application hkind (uuidOf_stable hid)
  · cases h

theorem targetOf_python (h : pythonTarget j = .ok target) :
    TargetOf net .python target := by
  unfold pythonTarget at h
  split at h
  · cases h
  · rename_i id hid
    have hid' := uuidOf_stable hid
    dsimp only at h
    -- by port, or through a socket
    by_cases hport : byPort j = true
    · rw [if_pos hport] at h
      split at h
      · rename_i port hport
        obtain rfl := Except.ok.inj h
        exact .byPort hid' (portOf_stable hport)
      · cases h
    · rw [if_neg hport] at h
      split at h
      · split at h
        · rename_i hpath
          obtain rfl := Except.ok.inj h
          exact .bySocket hid' hpath
        · cases h
      · cases h

theorem targetOf_proxy (h : proxyTarget net j = .ok target) :
    TargetOf net .proxy target := by
  unfold proxyTarget at h
  split at h
  · cases h
  · rename_i port hport
    dsimp only at h
    split at h
    · rename_i host hhost
      obtain rfl := Except.ok.inj h
      split at hhost
      · exact .proxy (portOf_stable hport)
          (normalizeProxyHost_stable net hhost)
      · cases hhost
    · cases h

theorem targetOf_validate {targetType : TargetType}
    (h : validateTarget net targetType j = .ok target) :
    TargetOf net targetType target := by
  unfold validateTarget at h
  rw [Result.guard_eq_ok] at h
  obtain ⟨-, h⟩ := h
  cases targetType with
  | static => exact targetOf_static h
  | proxy => exact targetOf_proxy h
  | passenger => exact targetOf_application (.inl rfl) h
  | php => exact targetOf_application (.inr rfl) h
  | python => exact targetOf_python h

/-- A target the registry takes as it is. -/
def IsTarget (net : Net) (targetType : TargetType) (target : Target) :
    Prop :=
  validateTarget net targetType target.toJson = .ok target

/-- A target of the right shape is rebuilt from its own fields. -/
theorem TargetOf.isTarget {targetType : TargetType}
    (h : TargetOf net targetType target) :
    IsTarget net targetType target := by
  unfold IsTarget
  cases h with
  | @static root spaFallback hroot =>
      have hflag : notFalse (some (.bool spaFallback)) = spaFallback := by
        cases spaFallback <;> rfl
      show (if Text.length root < 2 ∨ 500 < Text.length root
          ∨ root.toList.any Text.isControl = true then
        .error (refuse "invalid_static_root"
          "Static target root is invalid")
      else .ok (.static root (notFalse (some (.bool spaFallback)))))
        = Except.ok (Target.static root spaFallback)
      rw [if_neg hroot, hflag]
  | @proxy host port websocket hport hhost =>
      show proxyTarget net (Target.proxy host port websocket).toJson = _
      have hflag : notFalse (some (.bool websocket)) = websocket := by
        cases websocket <;> rfl
      simp [proxyTarget, Target.toJson, field, orElse, hport, hhost, hflag]
  | @application targetType id hkind hid =>
      have hread : ∀ code label, applicationTarget code label
          (Target.application id).toJson = .ok (.application id) := by
        intro code label
        simp [applicationTarget, Target.toJson, keysOf, field, uuidOf, hid]
      rcases hkind with rfl | rfl
      · exact hread "passenger" "Passenger"
      · exact hread "php" "PHP"
  | @byPort id port websocket hid hport =>
      show pythonTarget
        (Target.python id .port none (some port) websocket).toJson = _
      have hflag : notFalse (some (.bool websocket)) = websocket := by
        cases websocket <;> rfl
      simp [pythonTarget, Domains.byPort, Target.toJson, field, uuidOf, hid,
        NginxSettings.intJson, hport, hflag]
  | @bySocket id path websocket hid hpath =>
      show pythonTarget
        (Target.python id .unixSocket (some path) none websocket).toJson = _
      have hflag : notFalse (some (.bool websocket)) = websocket := by
        cases websocket <;> rfl
      simp [pythonTarget, Domains.byPort, Target.toJson, Target.textJson, field, uuidOf,
        hid, NginxSettings.intJson, present, orElse, hpath, hflag]

-- ====== target and settings

/-- The fields target and settings share hold the same. -/
structure Agree (targetType : TargetType) (target : Target)
    (settings : NginxSettings) : Prop where
  websocket : targetType.forwards = true →
    target.websocket = settings.websocket
  spaFallback : targetType = .static →
    target.spaFallback = settings.spaFallback

/-- `targetWithSettings` makes them agree, and leaves the rest of the
target as it is. -/
theorem agree_targetWithSettings {targetType : TargetType}
    {settings : NginxSettings} (htarget : TargetOf net targetType target)
    (hsettings : SettingsOf targetType settings) :
    TargetOf net targetType (targetWithSettings target settings)
      ∧ Agree targetType (targetWithSettings target settings) settings := by
  cases hsettings with
  | forwarded hkind =>
      cases htarget with
      | static => cases hkind
      | proxy hport hhost =>
          exact ⟨.proxy hport hhost, fun _ => rfl, fun h => by cases h⟩
      | application happ =>
          rcases happ with rfl | rfl <;> cases hkind
      | byPort hid hport =>
          exact ⟨.byPort hid hport, fun _ => rfl, fun h => by cases h⟩
      | bySocket hid hpath =>
          exact ⟨.bySocket hid hpath, fun _ => rfl, fun h => by cases h⟩
  | served =>
      cases htarget with
      | static hroot =>
          refine ⟨.static hroot, fun h => ?_, fun _ => rfl⟩
          cases h
      | application happ => rcases happ with h | h <;> cases h
  | plain hkind =>
      cases htarget with
      | application happ hid =>
          refine ⟨.application happ hid, fun h => ?_, fun h => ?_⟩
          · rcases happ with rfl | rfl <;> cases h
          · rcases happ with rfl | rfl <;> cases h
      | static | proxy | byPort | bySocket =>
          rcases hkind with h | h <;> cases h

end Yunpanel.Domains
