/-
The environment file says what the user asked for and nothing else.

The lines the panel writes are lines of the grammar's own quoting
(`toList_environmentText`), so systemd reads them back one by one; what is
left is that the user's variables neither repeat nor touch the panel's
(`withCustom_eq`), so that no assignment overrides another.
-/
import Yunpanel.Environment.File
import Yunpanel.Lib.Result

namespace Yunpanel.Environment

open Lib Applications Json

-- ====== lines

/-- Two passes of `replaceAll` are the escaping of the grammar. -/
theorem replaceAll_eq_escape (cs : List Char) :
    replaceAll '"' ['\\', '"'] (replaceAll '\\' ['\\', '\\'] cs)
      = EnvironmentFile.escape cs := by
  induction cs with
  | nil => rfl
  | cons c cs ih =>
      unfold replaceAll EnvironmentFile.escape at ih ⊢
      rw [List.flatMap_cons, List.flatMap_append, List.flatMap_cons, ih]
      congr 1
      by_cases hback : c = '\\'
      · subst hback
        rfl
      · by_cases hquote : c = '"'
        · subst hquote
          rfl
        · simp [hback, hquote]

theorem toList_quoteEnvironmentValue (value : String) :
    (quoteEnvironmentValue value).toList
      = EnvironmentFile.quote value.toList := by
  unfold quoteEnvironmentValue EnvironmentFile.quote
  rw [String.toList_ofList, replaceAll_eq_escape]

/-- The name and the value as the grammar has them. -/
def charsOf (entry : String × String) : EnvironmentFile.Assignment :=
  (entry.1.toList, entry.2.toList)

theorem toList_environmentLine (entry : String × String) :
    (environmentLine entry).toList
      = EnvironmentFile.line (charsOf entry) := by
  unfold environmentLine EnvironmentFile.line charsOf
  simp only [String.toList_append, toList_quoteEnvironmentValue]
  simp

theorem toList_environmentText (values : List (String × String)) :
    (environmentText values).toList
      = (values.map charsOf).flatMap EnvironmentFile.line := by
  unfold environmentText
  rw [String.toList_join, List.flatMap_map, List.flatMap_map]
  exact List.flatMap_congr fun entry _ => toList_environmentLine entry

variable {values custom : List (String × String)} {c : Char} {s : String}
  {e : Failure} {vars : Variables}

/-- Plain names are read back, with any values. -/
theorem assignments_environmentText
    (h : ∀ entry ∈ values, EnvironmentFile.Plain entry.1.toList) :
    assignments (environmentText values) = values := by
  have hplain : ∀ a ∈ values.map charsOf, EnvironmentFile.Plain a.1 := by
    intro a ha
    obtain ⟨entry, hentry, rfl⟩ := List.mem_map.mp ha
    exact h entry hentry
  unfold assignments
  rw [toList_environmentText, EnvironmentFile.read_lines hplain,
    List.map_map]
  refine (List.map_congr_left fun entry _ => ?_).trans (List.map_id values)
  simp [charsOf]

-- ====== keys

theorem isBlank_of_isKeyRest (h : isKeyRest c = true) :
    EnvironmentFile.isBlank c = false ∧ c ≠ '=' := by
  constructor
  · rw [← Bool.not_eq_true]
    intro hblank
    simp only [EnvironmentFile.isBlank, EnvironmentFile.isNewline,
      Bool.or_eq_true, beq_iff_eq] at hblank
    rcases hblank with (rfl | rfl) | rfl | rfl <;> exact absurd h (by decide)
  · rintro rfl
    exact absurd h (by decide)

theorem isComment_of_isKeyHead (h : isKeyHead c = true) :
    EnvironmentFile.isComment c = false := by
  rw [← Bool.not_eq_true]
  intro hcomment
  simp only [EnvironmentFile.isComment, Bool.or_eq_true, beq_iff_eq]
    at hcomment
  rcases hcomment with rfl | rfl <;> exact absurd h (by decide)

theorem plain_of_isKeyText (h : isKeyText s = true) :
    EnvironmentFile.Plain s.toList := by
  unfold isKeyText Text.headed at h
  split at h
  · cases h
  · rename_i c cs hcs
    simp only [Bool.and_eq_true, List.all_eq_true] at h
    obtain ⟨⟨hhead, hrest⟩, -⟩ := h
    rw [hcs]
    refine ⟨by simp, ?_, ?_⟩
    · simpa using isComment_of_isKeyHead hhead
    · rw [List.forall_mem_cons]
      refine ⟨isBlank_of_isKeyRest ?_, fun d hd =>
        isBlank_of_isKeyRest (hrest d hd)⟩
      rw [isKeyRest, hhead, Bool.true_or]

/-- The panel's names, whatever their values. -/
theorem keys_managedValues (id : Uuid) (runtime : NodeRuntime) :
    (managedValues id runtime).map Prod.fst
      = ["NODE_ENV", "HOST", "PORT", "YUNPANEL_APPLICATION_ID"] := rfl

/-- A user's name is none of the panel's. -/
theorem not_mem_managed (key : EnvironmentKey) (id : Uuid)
    (runtime : NodeRuntime) :
    key.text ∉ (managedValues id runtime).map Prod.fst := by
  have hok := key.ok
  unfold isEnvironmentKey at hok
  rw [Bool.and_eq_true, Bool.not_eq_true'] at hok
  rw [keys_managedValues]
  intro hmem
  have hreserved : key.text ∈ reservedKeys := by
    simp only [List.mem_cons, List.not_mem_nil, or_false] at hmem
    rcases hmem with h | h | h | h <;> simp [h, reservedKeys]
  have hcontains : reservedKeys.contains key.text = true :=
    List.contains_iff_mem.mpr hreserved
  rw [hok.2] at hcontains
  cases hcontains

-- ====== merging

/-- Assigning a new key adds it at the end. -/
theorem assignText_of_not_mem {key value : String}
    (h : key ∉ values.map Prod.fst) :
    assignText key value values = values ++ [(key, value)] := by
  induction values with
  | nil => rfl
  | cons entry rest ih =>
      obtain ⟨k, v⟩ := entry
      rw [List.map_cons, List.mem_cons, not_or] at h
      unfold assignText
      rw [if_neg (Ne.symm h.1), ih h.2]
      rfl

theorem foldl_assignText (f : String → String) (keys : List String) :
    ∀ values : List (String × String), keys.Nodup →
      (∀ k ∈ keys, k ∉ values.map Prod.fst) →
      keys.foldl (fun values key => assignText key (f key) values) values
        = values ++ keys.map fun key => (key, f key) := by
  induction keys with
  | nil => simp
  | cons key keys ih =>
      intro values hnodup hfresh
      rw [List.nodup_cons] at hnodup
      rw [List.forall_mem_cons] at hfresh
      rw [List.foldl_cons, assignText_of_not_mem hfresh.1]
      rw [ih _ hnodup.2 ?_]
      · simp
      · intro k hk hmem
        rw [List.map_append, List.mem_append] at hmem
        rcases hmem with hmem | hmem
        · exact hfresh.2 k hk hmem
        · have hkey : k = key := by simpa using hmem
          exact hnodup.1 (hkey ▸ hk)

/-- Looking each key up gives the entries back. -/
theorem map_lookup (h : (custom.map Prod.fst).Nodup) :
    (custom.map Prod.fst).map
      (fun key => (key, (custom.lookup key).getD "undefined")) = custom := by
  induction custom with
  | nil => rfl
  | cons entry rest ih =>
      obtain ⟨k, v⟩ := entry
      rw [List.map_cons, List.nodup_cons] at h
      obtain ⟨hnot, hrest⟩ := h
      have hhead : ((k, v) :: rest).lookup k = some v := by simp
      rw [List.map_cons, List.map_cons, hhead]
      congr 1
      refine (List.map_congr_left fun key hkey => ?_).trans (ih hrest)
      have hne : (key == k) = false := by
        rw [beq_eq_false_iff_ne]
        rintro rfl
        exact hnot hkey
      rw [List.lookup_cons, hne]

/-- Variables of other names are added, each once, in the order of their
names. -/
theorem withCustom_eq (hnodup : (custom.map Prod.fst).Nodup)
    (hfresh : ∀ k ∈ custom.map Prod.fst, k ∉ values.map Prod.fst) :
    ∃ sorted, sorted.Perm custom
      ∧ withCustom custom values = values ++ sorted := by
  have hperm := Text.sort_perm (custom.map Prod.fst)
  refine ⟨(Text.sort (custom.map Prod.fst)).map fun key =>
    (key, (custom.lookup key).getD "undefined"), ?_, ?_⟩
  · have hmap := hperm.map fun key =>
      (key, (custom.lookup key).getD "undefined")
    rwa [map_lookup hnodup] at hmap
  · exact foldl_assignText _ _ values (hperm.nodup_iff.mpr hnodup)
      fun k hk => hfresh k (hperm.mem_iff.mp hk)

-- ====== bundles

theorem demand_eq_ok {α : Type} {x : Option α} {a : α} :
    demand e x = .ok a ↔ x = some a := by
  cases x <;> simp [demand]

theorem ensure_eq_ok {condition : Bool} {u : Unit} :
    ensure e condition = .ok u ↔ condition = true := by
  cases condition <;> simp [ensure]

/-- A variable as an entry of the object it came in. -/
def entryOf (v : EnvironmentKey × EnvironmentValue) : String × Json :=
  (v.1.text, .str v.2.text)

theorem normalizeEnvironmentKey_eq_ok {key : EnvironmentKey} :
    normalizeEnvironmentKey (.str s) = .ok key ↔ key.text = s := by
  unfold normalizeEnvironmentKey
  simp only [Result.bind_eq_ok, demand_eq_ok, str?_str,
    Option.filter_eq_some_iff]
  constructor
  · rintro ⟨t, ⟨ht, -⟩, hkey⟩
    rw [← Option.some.inj ht] at hkey
    exact Matching.text_of_ofText? hkey
  · rintro rfl
    have hok := key.ok
    unfold isEnvironmentKey at hok
    rw [Bool.and_eq_true] at hok
    exact ⟨key.text, ⟨rfl, hok.1⟩, Matching.ofText?_text key⟩

theorem normalizeEnvironmentValue_eq_ok {value : Json}
    {v : EnvironmentValue} :
    normalizeEnvironmentValue value = .ok v ↔ value = .str v.text := by
  unfold normalizeEnvironmentValue
  rw [demand_eq_ok]
  constructor
  · intro h
    obtain ⟨s, hs, hv⟩ := Option.bind_eq_some_iff.mp h
    rw [Matching.text_of_ofText? hv]
    cases value with
    | str t => rw [← Option.some.inj hs]
    | _ => cases hs
  · rintro rfl
    exact Matching.read?_json v

theorem normalizeEntry_eq_ok {entry : String × Json}
    {v : EnvironmentKey × EnvironmentValue} :
    normalizeEntry entry = .ok v ↔ entry = entryOf v := by
  obtain ⟨k, value⟩ := entry
  unfold normalizeEntry
  simp only [Result.bind_eq_ok, normalizeEnvironmentKey_eq_ok,
    normalizeEnvironmentValue_eq_ok]
  constructor
  · rintro ⟨key, rfl, value', rfl, hv⟩
    rw [← Except.ok.inj hv]
    rfl
  · intro h
    obtain ⟨rfl, rfl⟩ := Prod.mk.inj h
    exact ⟨v.1, rfl, v.2, rfl, rfl⟩

theorem mapM_normalizeEntry {entries : Fields} :
    entries.mapM normalizeEntry = .ok vars ↔ entries = vars.map entryOf := by
  induction entries generalizing vars with
  | nil =>
      rw [List.mapM_nil, Result.pure_eq, Except.ok.injEq, eq_comm,
        eq_comm (a := ([] : Fields)), List.map_eq_nil_iff]
  | cons entry entries ih =>
      simp only [List.mapM_cons, Result.bind_eq_ok, normalizeEntry_eq_ok, ih]
      constructor
      · rintro ⟨v, rfl, vs, rfl, hvs⟩
        rw [← Except.ok.inj hvs]
        rfl
      · intro h
        cases vars with
        | nil => cases h
        | cons v vs =>
            obtain ⟨hv, hvs⟩ := List.cons.inj h
            exact ⟨v, hv, vs, hvs, rfl⟩

/-- A bundle is accepted as it is, or not at all. -/
theorem normalizeBundle_eq_ok {environment : Option Properties} :
    normalizeApplicationEnvironmentBundle environment = .ok vars ↔
      ∃ properties, environment = some properties
        ∧ properties.entries = vars.map entryOf
        ∧ vars.length ≤ maxVariables := by
  unfold normalizeApplicationEnvironmentBundle
  simp only [Result.bind_eq_ok, demand_eq_ok, ensure_eq_ok,
    mapM_normalizeEntry, decide_eq_true_eq]
  constructor
  · rintro ⟨properties, hsome, -, hlength, hentries⟩
    rw [hentries, List.length_map] at hlength
    exact ⟨properties, hsome, hentries, hlength⟩
  · rintro ⟨properties, hsome, hentries, hlength⟩
    refine ⟨properties, hsome, ⟨⟩, ?_, hentries⟩
    rw [hentries, List.length_map]
    exact hlength

-- ====== the file

/-- What systemd reads in a rendered file: the panel's variables with the
panel's values and the user's with the user's, each name once. -/
theorem environment_file_reads_back (applicationId runtime : Json)
    (environment : Properties) {text : String}
    (h : renderNodeEnvironmentFile applicationId runtime (some environment)
      = .ok text) :
    ∃ id config vars, Uuid.read? applicationId = some id
      ∧ normalizeNodeRuntimeConfig true runtime = .ok config
      ∧ environment.entries = vars.map entryOf
      ∧ (assignments text).Perm (managedValues id config ++ textsOf vars)
      ∧ ((assignments text).map Prod.fst).Nodup := by
  unfold renderNodeEnvironmentFile at h
  simp only [Result.bind_eq_ok, demand_eq_ok] at h
  obtain ⟨id, hid, config, hconfig, vars, hvars, htext⟩ := h
  obtain ⟨properties, hsome, hentries, -⟩ := normalizeBundle_eq_ok.mp hvars
  rw [← Option.some.inj hsome] at hentries
  have hkeys : (textsOf vars).map Prod.fst
      = environment.entries.map Prod.fst := by
    rw [hentries]
    simp [textsOf, entryOf]
  have hnodup : ((textsOf vars).map Prod.fst).Nodup :=
    hkeys ▸ environment.distinct
  have hfresh : ∀ k ∈ (textsOf vars).map Prod.fst,
      k ∉ (managedValues id config).map Prod.fst := by
    intro k hk
    obtain ⟨entry, hentry, rfl⟩ := List.mem_map.mp hk
    obtain ⟨v, -, rfl⟩ := List.mem_map.mp hentry
    exact not_mem_managed v.1 id config
  obtain ⟨sorted, hperm, hvalues⟩ := withCustom_eq hnodup hfresh
  rw [hvalues] at htext
  have hplain : ∀ entry ∈ managedValues id config ++ sorted,
      EnvironmentFile.Plain entry.1.toList := by
    intro entry hentry
    apply plain_of_isKeyText
    rcases List.mem_append.mp hentry with hmem | hmem
    · have hkey := List.mem_map_of_mem (f := Prod.fst) hmem
      rw [keys_managedValues] at hkey
      simp only [List.mem_cons, List.not_mem_nil, or_false] at hkey
      rcases hkey with h | h | h | h <;> rw [h] <;> decide
    · obtain ⟨v, -, rfl⟩ := List.mem_map.mp (hperm.mem_iff.mp hmem)
      have hok := v.1.ok
      unfold isEnvironmentKey at hok
      rw [Bool.and_eq_true] at hok
      exact hok.1
  have hread : assignments text = managedValues id config ++ sorted := by
    rw [← Except.ok.inj htext]
    exact assignments_environmentText hplain
  refine ⟨id, config, vars, hid, hconfig, hentries, ?_, ?_⟩
  · rw [hread]
    exact List.Perm.append_left _ hperm
  · rw [hread, List.map_append]
    refine List.Nodup.append (by rw [keys_managedValues]; decide) ?_ ?_
    · exact (hperm.map Prod.fst).nodup_iff.mpr hnodup
    · intro k hmanaged hsorted
      exact hfresh k ((hperm.map Prod.fst).mem_iff.mp hsorted) hmanaged

def sampleApplicationId : Uuid :=
  ⟨"00000000-0000-4000-8000-000000000021", by decide⟩

/-- A value with everything in it that the grammar looks at. -/
def awkwardEnvironment : Properties where
  entries := [("Z_LAST", .str "a\\b\\\\\"$c #d;"), ("API", .str " = '")]
  distinct := by decide

theorem environment_file_reads_back_awkward :
    ∃ text, renderNodeEnvironmentFile sampleApplicationId.json
        (.obj [("port", .num 3100)]) (some awkwardEnvironment) = .ok text
      ∧ ∃ id config vars, Uuid.read? sampleApplicationId.json = some id
        ∧ normalizeNodeRuntimeConfig true (.obj [("port", .num 3100)])
          = .ok config
        ∧ awkwardEnvironment.entries = vars.map entryOf
        ∧ (assignments text).Perm (managedValues id config ++ textsOf vars)
        ∧ ((assignments text).map Prod.fst).Nodup := by
  have hok : (renderNodeEnvironmentFile sampleApplicationId.json
      (.obj [("port", .num 3100)]) (some awkwardEnvironment)).isOk
        = true := by decide +kernel
  cases hrender : renderNodeEnvironmentFile sampleApplicationId.json
      (.obj [("port", .num 3100)]) (some awkwardEnvironment) with
  | error e =>
      rw [hrender] at hok
      cases hok
  | ok text =>
      exact ⟨text, rfl, environment_file_reads_back _ _ _ hrender⟩

example : isKeyText "PATH_2" = true := by decide +kernel

end Yunpanel.Environment
