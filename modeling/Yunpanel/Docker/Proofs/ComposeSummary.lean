/-
A summary does not depend on the order of the services, the ports and the
mounts of its configuration, unless two mounts of a service tie.

# Where the order goes

Both loops refuse a key they have seen, so what they read depends on the
order only through the order of the output (`publishedPorts_eq_ok_iff`,
`storageMounts_eq_ok_iff`), and that is sorted at the end. Ports that tie
are equal, and so are services, since their names are identifiers. Mounts
are compared by the collation of their targets, their kinds and their
sources, and the collation does not tell every two targets apart that the
loop does: such mounts stay in the order they came in
(`summary_orderFree_iff`).
-/
import Yunpanel.Docker.ComposeSummary

namespace Yunpanel.Docker

open Json Lib.Result Lib.Canonical

-- ====== ports

/-- The loop of the ports collects what is published, once each. -/
theorem collects_ports (l : Locale) :
    Collects PublishedPort.identity (readPort l) (portStep l) := by
  intro out port r
  unfold portStep
  rw [bind_eq_ok]
  constructor
  · rintro ⟨read, hread, hrest⟩
    cases read with
    | none => exact .inl ⟨hread, (Except.ok.inj hrest).symm⟩
    | some item =>
        dsimp only at hrest
        rw [guard_eq_ok, List.contains_iff_mem] at hrest
        refine .inr ⟨item, hread, hrest.1, ?_⟩
        rw [← Except.ok.inj hrest.2, List.map_append, List.map_singleton]
  · rintro (⟨hread, rfl⟩ | ⟨item, hread, hnew, rfl⟩)
    · exact ⟨none, hread, rfl⟩
    · refine ⟨some item, hread, ?_⟩
      dsimp only
      rw [guard_eq_ok, List.contains_iff_mem]
      refine ⟨hnew, ?_⟩
      rw [List.map_append, List.map_singleton]
      rfl

theorem publishedPorts_eq_ok_iff {l : Locale} {ports : List Json}
    {r : List PublishedPort} :
    publishedPorts l (some (.arr ports)) = .ok r
      ↔ ports.length ≤ 64 ∧ ∃ read, ports.mapM (readPort l) = .ok read
        ∧ ((read.filterMap id).map PublishedPort.identity).Nodup
        ∧ r = sortBy comparePorts (read.filterMap id) := by
  unfold publishedPorts Json.arr?
  simp only [bind_eq_ok, demand_eq_ok, Option.filter_eq_some_iff,
    Option.some.injEq, decide_eq_true_eq,
    foldlM_collect_nil_iff (collects_ports l)]
  constructor
  · rintro ⟨_, ⟨rfl, hlength⟩, _, ⟨read, hread, rfl, hnodup⟩, hr⟩
    exact ⟨hlength, read, hread, hnodup, (Except.ok.inj hr).symm⟩
  · rintro ⟨hlength, read, hread, hnodup, rfl⟩
    exact ⟨ports, ⟨rfl, hlength⟩, _, ⟨read, hread, rfl, hnodup⟩, rfl⟩

variable {value : Option Json} {mounts : List Json} {entry : String × Json}
  {options : Options}

theorem hostIp_ne_empty {l : Locale} {address : Option String}
    (h : hostIp l value = .ok address) :
    address ≠ some "" := by
  rintro rfl
  unfold hostIp at h
  split at h
  · cases h
  · obtain ⟨address, haddress, heq⟩ := map_eq_ok.mp h
    obtain rfl := Option.some.inj heq
    rw [demand_eq_ok, Option.bind_eq_some_iff] at haddress
    obtain ⟨text, -, hcanonical⟩ := haddress
    exact l.canonicalIp_ne_empty text hcanonical

/-- A port that is read has no empty address. -/
theorem hostIp_of_readPort {l : Locale} {port : Json} {item : PublishedPort}
    (h : readPort l port = .ok (some item)) : item.hostIp ≠ some "" := by
  unfold readPort at h
  simp only [bind_eq_ok] at h
  obtain ⟨fields, -, target, -, h⟩ := h
  split at h
  · cases h
  · simp only [bind_eq_ok] at h
    obtain ⟨published, -, protocol, -, address, haddress, hitem⟩ := h
    obtain rfl := Option.some.inj (Except.ok.inj hitem)
    exact hostIp_ne_empty haddress

theorem compareText_eq_iff {left right : String} :
    compareText left right = .eq ↔ left = right := by
  unfold compareText
  rw [Std.LawfulEqCmp.compare_eq_iff_eq]
  exact Text.utf16_injective.eq_iff

instance : Std.TransCmp compareText where
  eq_swap := fun {_ _} => @Std.OrientedCmp.eq_swap _ (List.compareLex compare) _ _ _
  isLE_trans := fun {_ _ _} => @Std.TransCmp.isLE_trans _ (List.compareLex compare) _ _ _ _

theorem Protocol.text_injective : Function.Injective Protocol.text := by
  intro a b h
  cases a <;> cases b <;> first | rfl | simp [Protocol.text] at h

/-- Ports that tie are equal. -/
theorem eq_of_comparePorts {a b : PublishedPort}
    (ha : a.hostIp ≠ some "") (hb : b.hostIp ≠ some "")
    (h : comparePorts a b = .eq) : a = b := by
  unfold comparePorts at h
  rw [compareLex_eq_eq, compareLex_eq_eq, compareLex_eq_eq,
    compareText_eq_iff, compareText_eq_iff] at h
  obtain ⟨hhost, hpublished, htarget, hprotocol⟩ := h
  have hpublished' : a.publishedPort = b.publishedPort :=
    Nat.compare_eq_eq.mp hpublished
  have htarget' : a.targetPort = b.targetPort :=
    Nat.compare_eq_eq.mp htarget
  have hprotocol' := Protocol.text_injective hprotocol
  have hhost' : a.hostIp = b.hostIp := by
    cases ha' : a.hostIp <;> cases hb' : b.hostIp <;>
      simp_all
  obtain ⟨_, _, _, _⟩ := a
  obtain ⟨_, _, _, _⟩ := b
  simp_all

instance : Std.TransCmp (fun left right : PublishedPort =>
    compareText (left.hostIp.getD "") (right.hostIp.getD "")) where
  eq_swap := fun {_ _} => @Std.OrientedCmp.eq_swap _ compareText _ _ _
  isLE_trans := fun {_ _ _} => @Std.TransCmp.isLE_trans _ compareText _ _ _ _

instance : Std.TransCmp (fun left right : PublishedPort =>
    compareText left.protocol.text right.protocol.text) where
  eq_swap := fun {_ _} => @Std.OrientedCmp.eq_swap _ compareText _ _ _
  isLE_trans := fun {_ _ _} => @Std.TransCmp.isLE_trans _ compareText _ _ _ _

instance : Std.TransCmp comparePorts :=
  inferInstanceAs (Std.TransCmp (compareLex _ _))

-- ====== mounts

/-- The loop of the mounts collects all of them, once for each target. -/
theorem collects_mounts (context : Context) :
    Collects Mount.target (fun mount => (readMount context mount).map some)
      (mountStep context) := by
  have htarget : ∀ head item, mountItem context head = .ok item →
      item.target = head.target := by
    intro head item h
    unfold mountItem at h
    dsimp only at h
    split at h
    · obtain ⟨_, -, hitem⟩ := bind_eq_ok.mp h
      exact Except.ok.inj hitem ▸ rfl
    · split at h
      · exact Except.ok.inj h ▸ rfl
      · simp only [bind_eq_ok] at h
        obtain ⟨_, -, _, -, hitem⟩ := h
        exact Except.ok.inj hitem ▸ rfl
    · split at h
      · exact Except.ok.inj h ▸ rfl
      · cases h
  intro out mount r
  unfold mountStep readMount
  rw [bind_eq_ok]
  constructor
  · rintro ⟨head, hhead, hrest⟩
    rw [guard_eq_ok, List.contains_iff_mem, bind_eq_ok] at hrest
    obtain ⟨hnew, item, hitem, hr⟩ := hrest
    have hsame := htarget head item hitem
    refine .inr ⟨item, ?_, hsame ▸ hnew, ?_⟩
    · exact map_eq_ok.mpr ⟨item, bind_eq_ok.mpr ⟨head, hhead, hitem⟩, rfl⟩
    · rw [← Except.ok.inj hr, List.map_append, List.map_singleton, hsame]
  · rintro (⟨hread, -⟩ | ⟨item, hsome, hnew, rfl⟩)
    · obtain ⟨_, -, hnone⟩ := map_eq_ok.mp hread
      cases hnone
    · obtain ⟨found, hread, hfound⟩ := map_eq_ok.mp hsome
      obtain ⟨head, hhead, hitem⟩ := bind_eq_ok.mp hread
      rw [Option.some.inj hfound] at hitem
      have hsame := htarget head item hitem
      refine ⟨head, hhead, ?_⟩
      rw [guard_eq_ok, List.contains_iff_mem, bind_eq_ok]
      refine ⟨hsame ▸ hnew, item, hitem, ?_⟩
      rw [List.map_append, List.map_singleton, hsame]
      rfl

theorem storageMounts_eq_ok_iff {l : Locale} {context : Context}
    {r : List Mount} :
    storageMounts l context (some (.arr mounts)) = .ok r
      ↔ mounts.length ≤ 128
        ∧ ∃ read, mounts.mapM (readMount context) = .ok read
          ∧ (read.map Mount.target).Nodup
          ∧ r = sortBy (compareMounts l) read := by
  unfold storageMounts Json.arr?
  simp only [bind_eq_ok, demand_eq_ok, Option.filter_eq_some_iff,
    Option.some.injEq, decide_eq_true_eq,
    foldlM_collect_all_iff (collects_mounts context)]
  constructor
  · rintro ⟨_, ⟨rfl, hlength⟩, _, ⟨read, hread, rfl, hnodup⟩, hr⟩
    exact ⟨hlength, read, hread, hnodup, (Except.ok.inj hr).symm⟩
  · rintro ⟨hlength, read, hread, hnodup, rfl⟩
    exact ⟨mounts, ⟨rfl, hlength⟩, _, ⟨read, hread, rfl, hnodup⟩, rfl⟩

instance (l : Locale) : Std.TransCmp (fun left right : Mount =>
    l.localeCompare left.target right.target) where
  eq_swap := fun {_ _} => @Std.OrientedCmp.eq_swap _ l.localeCompare _ _ _
  isLE_trans := fun {_ _ _} => @Std.TransCmp.isLE_trans _ l.localeCompare _ _ _ _

instance (l : Locale) : Std.TransCmp (fun left right : Mount =>
    l.localeCompare left.kind.text right.kind.text) where
  eq_swap := fun {_ _} => @Std.OrientedCmp.eq_swap _ l.localeCompare _ _ _
  isLE_trans := fun {_ _ _} => @Std.TransCmp.isLE_trans _ l.localeCompare _ _ _ _

instance (l : Locale) : Std.TransCmp (fun left right : Mount =>
    l.localeCompare (left.source.getD "") (right.source.getD "")) where
  eq_swap := fun {_ _} => @Std.OrientedCmp.eq_swap _ l.localeCompare _ _ _
  isLE_trans := fun {_ _ _} => @Std.TransCmp.isLE_trans _ l.localeCompare _ _ _ _

instance (l : Locale) : Std.TransCmp (compareMounts l) :=
  inferInstanceAs (Std.TransCmp (compareLex _ _))

/-- The collation tells identifiers apart. -/
theorem localeCompare_eq_iff {l : Locale} {a b : String}
    (ha : isIdentifier a = true) (hb : isIdentifier b = true) :
    l.localeCompare a b = .eq ↔ a = b := by
  rw [l.identifiers a b ha hb, Text.localeCompare_eq_eq_iff]

/-- Two mounts of one kind that the collation does not tell apart. -/
structure Tied (l : Locale) (a b : Mount) : Prop where
  target : l.localeCompare a.target b.target = .eq
  kind : a.kind = b.kind
  source : l.localeCompare (a.source.getD "") (b.source.getD "") = .eq

theorem compareMounts_eq_iff {l : Locale} {a b : Mount} :
    compareMounts l a b = .eq ↔ Tied l a b := by
  have hkind : l.localeCompare a.kind.text b.kind.text = .eq
      ↔ a.kind = b.kind := by
    have hidentifier : ∀ k : MountKind, isIdentifier k.text = true := by
      intro k
      cases k <;> decide
    rw [localeCompare_eq_iff (hidentifier _) (hidentifier _)]
    constructor
    · intro h
      cases ha : a.kind <;> cases hb : b.kind <;>
        first | rfl | (rw [ha, hb] at h; simp [MountKind.text] at h)
    · exact congrArg MountKind.text
  unfold compareMounts
  rw [compareLex_eq_eq, compareLex_eq_eq, hkind]
  exact ⟨fun ⟨ht, hk, hs⟩ => ⟨ht, hk, hs⟩,
    fun ⟨ht, hk, hs⟩ => ⟨ht, hk, hs⟩⟩

-- ====== other orders

/-- The same array in another order, or the same value. -/
inductive Reordered : Option Json → Option Json → Prop
  | same (value : Option Json) : Reordered value value
  | moved {items items' : List Json} (hperm : items.Perm items') :
      Reordered (some (.arr items)) (some (.arr items'))

/-- The same service with its ports and its mounts in other orders. -/
inductive ServiceReordered : Json → Json → Prop
  | same (service : Json) : ServiceReordered service service
  | moved {fields fields' : Fields}
      (hsame : ∀ key, key ≠ "ports" → key ≠ "volumes" →
        fields'.lookup key = fields.lookup key)
      (hports : Reordered (fields.lookup "ports") (fields'.lookup "ports"))
      (hmounts : Reordered (fields.lookup "volumes")
        (fields'.lookup "volumes")) :
      ServiceReordered (.obj fields) (.obj fields')

/-- The same configuration with its services, and the ports and mounts of
each, in other orders. -/
structure ConfigReordered (fields fields' : Fields) : Prop where
  same : ∀ key, key ≠ "services" → fields'.lookup key = fields.lookup key
  services : ∃ entries mid entries',
    fields.lookup "services" = some (.obj entries)
      ∧ fields'.lookup "services" = some (.obj entries')
      ∧ entries.Perm mid
      ∧ List.Forall₂ (fun entry entry' =>
          entry'.1 = entry.1 ∧ ServiceReordered entry.2 entry'.2) mid entries'

/-- Ports in another order are published as they were. -/
theorem publishedPorts_reordered {l : Locale} {value' : Option Json}
    (hmoved : Reordered value value') {r : List PublishedPort}
    (h : publishedPorts l value = .ok r) : publishedPorts l value' = .ok r := by
  cases hmoved with
  | same => exact h
  | @moved ports ports' hperm =>
      obtain ⟨hlength, read, hread, hnodup, rfl⟩ :=
        publishedPorts_eq_ok_iff.mp h
      obtain ⟨read', hread', hsame⟩ := mapM_perm hread hperm
      have hitems := hsame.filterMap id
      refine publishedPorts_eq_ok_iff.mpr ⟨hperm.length_eq ▸ hlength, read',
        hread', (hitems.map _).nodup_iff.mp hnodup, ?_⟩
      have hhost : ∀ item ∈ read.filterMap id, item.hostIp ≠ some "" := by
        intro item hitem
        obtain ⟨x, hx, hsome⟩ := List.mem_filterMap.mp hitem
        obtain rfl : x = some item := hsome
        obtain ⟨port, -, hport⟩ :=
          exists_of_forall₂ (mapM_eq_ok_iff.mp hread) hx
        exact hostIp_of_readPort hport
      exact sortBy_congr hitems fun a ha b hb htie =>
        eq_of_comparePorts (hhost a ha) (hhost b hb) htie

/-- The mounts of a service do not tie. -/
def UntiedMounts (l : Locale) (context : Context) (mounts : List Json) :
    Prop :=
  mounts.Pairwise fun mount mount' => ∀ a b,
    readMount context mount = .ok a → readMount context mount' = .ok b →
      ¬Tied l a b

/-- The mounts of a service come out in one order exactly where they do not
tie. -/
theorem storageMounts_reordered_iff {l : Locale} {context : Context}
    {r : List Mount}
    (h : storageMounts l context (some (.arr mounts)) = .ok r) :
    (∀ mounts', mounts.Perm mounts' →
        storageMounts l context (some (.arr mounts')) = .ok r)
      ↔ UntiedMounts l context mounts := by
  obtain ⟨hlength, read, hread, hnodup, rfl⟩ :=
    storageMounts_eq_ok_iff.mp h
  have htied : UntiedMounts l context mounts
      ↔ read.Pairwise fun a b => compareMounts l a b ≠ .eq := by
    rw [pairwise_mapM_iff hread]
    simp only [ne_eq, compareMounts_eq_iff]
    rfl
  rw [htied, ← sortBy_perm_iff (List.Nodup.of_map _ hnodup)]
  constructor
  · intro hall read' hperm
    obtain ⟨mounts', hread', hmoved⟩ := exists_mapM_of_perm hread hperm
    obtain ⟨-, read'', hread'', -, hsame⟩ :=
      storageMounts_eq_ok_iff.mp (hall mounts' hmoved)
    rw [hread'] at hread''
    obtain rfl := Except.ok.inj hread''
    exact hsame.symm
  · intro hall mounts' hmoved
    obtain ⟨read', hread', hperm⟩ := mapM_perm hread hmoved
    exact storageMounts_eq_ok_iff.mpr ⟨hmoved.length_eq ▸ hlength, read',
      hread', (hperm.map _).nodup_iff.mp hnodup, (hall read' hperm).symm⟩

-- ====== services

/-- The mounts an entry of the services names. -/
def mountsOf (service : Json) : List Json :=
  ((service.object?.bind (·.lookup "volumes")).bind Json.arr?).getD []

variable {r : Service} {name : String}

theorem readService_eq_ok_iff {l : Locale} {context : Context}
    {fields : Fields} :
    readService l context (name, .obj fields) = .ok r
      ↔ isServiceName name = true
        ∧ (fields.lookup "network_mode").all isIsolated = true
        ∧ ∃ ports mounts, publishedPorts l (fields.lookup "ports") = .ok ports
          ∧ storageMounts l context (fields.lookup "volumes") = .ok mounts
          ∧ r = ⟨name, (fields.get "image").str?.any (· != ""),
            fields.get "build" != .null, ports, mounts⟩ := by
  unfold readService
  simp only [bind_eq_ok, demand_eq_ok, ensure_eq_ok, object?]
  constructor
  · rintro ⟨found, hfound, -, hmode, ports, hports, mounts, hmounts, hr⟩
    by_cases hname : isServiceName name = true
    · rw [if_pos hname] at hfound
      obtain rfl := Option.some.inj hfound
      exact ⟨hname, hmode, ports, mounts, hports, hmounts,
        (Except.ok.inj hr).symm⟩
    · rw [if_neg hname] at hfound
      cases hfound
  · rintro ⟨hname, hmode, ports, mounts, hports, hmounts, rfl⟩
    exact ⟨fields, if_pos hname, ⟨⟩, hmode, ports, hports, mounts, hmounts,
      rfl⟩

/-- Only an object under a name of the pattern is a service. -/
theorem readService_spec {l : Locale} {context : Context}
    (h : readService l context entry = .ok r) :
    r.name = entry.1 ∧ isServiceName entry.1 = true
      ∧ ∃ fields, entry.2 = .obj fields := by
  obtain ⟨name, service⟩ := entry
  cases service with
  | obj fields =>
      obtain ⟨hname, -, _, _, -, -, rfl⟩ := readService_eq_ok_iff.mp h
      exact ⟨rfl, hname, fields, rfl⟩
  | null | bool _ | num _ | str _ | arr _ =>
      unfold readService at h
      simp only [bind_eq_ok, demand_eq_ok, object?, ite_self] at h
      obtain ⟨_, hnone, -⟩ := h
      cases hnone

/-- A service whose mounts do not tie is read the same in other orders. -/
theorem readService_reordered {l : Locale} {context : Context}
    {service service' : Json} (hmoved : ServiceReordered service service')
    (huntied : UntiedMounts l context (mountsOf service))
    (h : readService l context (name, service) = .ok r) :
    readService l context (name, service') = .ok r := by
  cases hmoved with
  | same => exact h
  | @moved fields fields' hsame hports hmounts =>
      have hget : ∀ key, key ≠ "ports" → key ≠ "volumes" →
          fields'.get key = fields.get key := fun key hp hv =>
        congrArg (·.getD .null) (hsame key hp hv)
      obtain ⟨hname, hmode, ports, mounts, hp, hm, rfl⟩ :=
        readService_eq_ok_iff.mp h
      rw [readService_eq_ok_iff, hsame _ (by decide) (by decide),
        hget "image" (by decide) (by decide),
        hget "build" (by decide) (by decide)]
      refine ⟨hname, hmode, ports, mounts,
        publishedPorts_reordered hports hp, ?_, rfl⟩
      unfold mountsOf at huntied
      rw [object?, Option.bind_some] at huntied
      generalize fields.lookup "volumes" = value at hmounts hm huntied
      generalize fields'.lookup "volumes" = value' at hmounts
      cases hmounts with
      | same => exact hm
      | @moved items items' hperm =>
          exact (storageMounts_reordered_iff hm).mpr huntied items' hperm

theorem isIdentifier_of_isServiceName (h : isServiceName name = true) :
    isIdentifier name = true := by
  have hlower : ∀ c, isLowerAlnum c = true → Text.isKeyChar c = true := by
    intro c hc
    simp only [isLowerAlnum, Bool.or_eq_true] at hc
    rcases hc with hc | hc <;> simp [Text.isKeyChar, hc]
  have hrest : ∀ c, (isLowerAlnum c || c == '_' || c == '.' || c == '-') = true →
      Text.isKeyChar c = true := by
    intro c hc
    simp only [Bool.or_eq_true, beq_iff_eq] at hc
    rcases hc with ((hc | rfl) | rfl) | rfl
    · exact hlower c hc
    · rfl
    · rfl
    · rfl
  unfold isServiceName Text.headed at h
  unfold isIdentifier
  cases hname : name.toList with
  | nil => rfl
  | cons c cs =>
      rw [hname] at h
      simp only [Bool.and_eq_true, List.all_eq_true] at h
      rw [List.all_cons, Bool.and_eq_true, List.all_eq_true]
      exact ⟨hlower c h.1.1, fun d hd => hrest d (h.1.2 d hd)⟩

/-- The services a list of entries reads as. -/
structure ReadServices (l : Locale) (context : Context)
    (entries : List (String × Json)) (services : List Service) : Prop where
  read : entries.mapM (readService l context) = .ok services
  distinct : (entries.map Prod.fst).Nodup

namespace ReadServices

variable {l : Locale} {context : Context} {entries : List (String × Json)}
  {services : List Service}

theorem names (h : ReadServices l context entries services) :
    services.map Service.name = entries.map Prod.fst := by
  have hread := mapM_eq_ok_iff.mp h.read
  clear h
  induction hread with
  | nil => rfl
  | cons hhead _ ih =>
      rw [List.map_cons, List.map_cons, ih, (readService_spec hhead).1]

theorem nodup (h : ReadServices l context entries services) :
    (services.map Service.name).Nodup :=
  h.names ▸ h.distinct

/-- Services that tie are equal. -/
theorem eq_of_compareServices (h : ReadServices l context entries services) :
    ∀ a ∈ services, ∀ b ∈ services, compareServices l a b = .eq → a = b := by
  have hname : ∀ a ∈ services, isIdentifier a.name = true := by
    intro a ha
    obtain ⟨entry, -, hentry⟩ :=
      exists_of_forall₂ (mapM_eq_ok_iff.mp h.read) ha
    obtain ⟨hsame, hvalid, -⟩ := readService_spec hentry
    exact hsame ▸ isIdentifier_of_isServiceName hvalid
  intro a ha b hb htie
  have heq : a.name = b.name :=
    (localeCompare_eq_iff (hname a ha) (hname b hb)).mp htie
  exact List.inj_on_of_nodup_map h.nodup ha hb heq

instance (l : Locale) : Std.TransCmp (compareServices l) where
  eq_swap := fun {_ _} => @Std.OrientedCmp.eq_swap _ l.localeCompare _ _ _
  isLE_trans := fun {_ _ _} => @Std.TransCmp.isLE_trans _ l.localeCompare _ _ _ _

/-- Entries in another order, their mounts not tied, read as the same
services. -/
theorem reordered (h : ReadServices l context entries services)
    (huntied : ∀ entry ∈ entries,
      UntiedMounts l context (mountsOf entry.2))
    {mid entries' : List (String × Json)} (hperm : entries.Perm mid)
    (hmoved : List.Forall₂ (fun entry entry' =>
      entry'.1 = entry.1 ∧ ServiceReordered entry.2 entry'.2) mid entries') :
    ∃ services', entries'.mapM (readService l context) = .ok services'
      ∧ services.Perm services' := by
  obtain ⟨services', hread, hsame⟩ := mapM_perm h.read hperm
  refine ⟨services', ?_, hsame⟩
  have huntied' : ∀ entry ∈ mid,
      UntiedMounts l context (mountsOf entry.2) := fun entry hentry =>
    huntied entry (hperm.mem_iff.mpr hentry)
  rw [mapM_eq_ok_iff] at hread ⊢
  clear hsame hperm
  induction hmoved generalizing services' with
  | nil => exact hread
  | @cons entry entry' _ _ hentry _ ih =>
      rw [List.forall_mem_cons] at huntied'
      obtain ⟨name, service⟩ := entry
      obtain ⟨name', service'⟩ := entry'
      obtain ⟨rfl, hservice⟩ := hentry
      cases hread with
      | cons hhead hrest =>
          exact .cons (readService_reordered hservice huntied'.1 hhead)
            (ih _ hrest huntied'.2)

end ReadServices

-- ====== summary

/-- What the services of a configuration are read under. -/
def contextOf (options : Options) (fields : Fields) : Context where
  projectDirectory := options.projectDirectory
  volumeDefinitions := (fields.get "volumes").orElse (.obj [])
  expectedProjectName := options.expectedProjectName.str?.getD ""

/-- The entries of `value.services`. -/
def servicesOf (fields : Fields) : List (String × Json) :=
  ((fields.lookup "services").bind Json.object?).getD []

/-- What a summary is made of besides the services. -/
structure SummaryRest (options : Options) (fields : Fields)
    (services : List Service) (r : Summary) : Prop where
  expected : projectName options.expectedProjectName = .ok r.projectName
  name : (fields.lookup "name").all (· == .str r.projectName) = true
  networks : resourceNames (fields.lookup "networks") "network"
    = .ok r.networks
  networkDetails : (r.networks.mapM fun name => do
      let scope ← namedNetworkScope name
        ((fields.get "networks").orElse (.obj [])) r.projectName
      return (⟨name, scope⟩ : NetworkDetail)) = .ok r.networkDetails
  volumes : resourceNames (fields.lookup "volumes") "volume" = .ok r.volumes
  secrets : ∃ secrets,
    resourceNames (fields.lookup "secrets") "secret" = .ok secrets
      ∧ r.secretCount = secrets.length
  configs : ∃ configs,
    resourceNames (fields.lookup "configs") "config" = .ok configs
      ∧ r.configCount = configs.length
  count : r.serviceCount = services.length
  fixed : r.version = 1 ∧ r.composeSha256 = options.documentSha256
    ∧ r.composeBytes = options.documentBytes ∧ r.validated = true
    ∧ r.sideEffects = false

theorem summarize_eq_ok_iff {l : Locale} {fields : Fields} {r : Summary} :
    summarizeDockerComposeConfig l options (.obj fields) = .ok r
      ↔ ∃ entries services, fields.lookup "services" = some (.obj entries)
        ∧ (1 ≤ entries.length ∧ entries.length ≤ 64)
        ∧ entries.mapM (readService l (contextOf options fields))
          = .ok services
        ∧ r.services = sortBy (compareServices l) services
        ∧ SummaryRest options fields services r := by
  have hexpected : ∀ expected,
      projectName options.expectedProjectName = .ok expected →
      options.expectedProjectName.str?.getD "" = expected := by
    intro expected h
    unfold projectName at h
    rw [demand_eq_ok, Option.filter_eq_some_iff] at h
    rw [h.1]
    rfl
  have hentries : ∀ entries,
      (fields.lookup "services").bind object? = some entries
        ↔ fields.lookup "services" = some (.obj entries) := by
    intro entries
    rw [Option.bind_eq_some_iff]
    constructor
    · rintro ⟨value, hvalue, hobject⟩
      cases value with
      | obj found => exact Option.some.inj hobject ▸ hvalue
      | null | bool _ | num _ | str _ | arr _ => cases hobject
    · exact fun h => ⟨_, h, rfl⟩
  unfold summarizeDockerComposeConfig
  simp only [bind_eq_ok, demand_eq_ok, ensure_eq_ok, object?,
    Option.some.injEq, Bool.and_eq_true, decide_eq_true_eq]
  constructor
  · rintro ⟨expected, hname, _, rfl, entries, hservices, -, hmatch, -,
      hcount, services, hread, networks, hnetworks, details, hdetails,
      volumes, hvolumes, secrets, hsecrets, configs, hconfigs, hr⟩
    obtain rfl := Except.ok.inj hr
    refine ⟨entries, services, (hentries entries).mp hservices, hcount, ?_,
      rfl, {
      expected := hname
      name := hmatch
      networks := hnetworks
      networkDetails := hdetails
      volumes := hvolumes
      secrets := ⟨secrets, hsecrets, rfl⟩
      configs := ⟨configs, hconfigs, rfl⟩
      count := rfl
      fixed := ⟨rfl, rfl, rfl, rfl, rfl⟩ }⟩
    rw [contextOf, hexpected expected hname]
    exact hread
  · rintro ⟨entries, services, hservices, hcount, hread, hsorted, hrest⟩
    obtain ⟨secrets, hsecrets, hsecretCount⟩ := hrest.secrets
    obtain ⟨configs, hconfigs, hconfigCount⟩ := hrest.configs
    obtain ⟨hversion, hsha, hbytes, hvalidated, hside⟩ := hrest.fixed
    rw [contextOf, hexpected _ hrest.expected] at hread
    refine ⟨_, hrest.expected, fields, rfl, entries,
      (hentries entries).mpr hservices, ⟨⟩, hrest.name, ⟨⟩, hcount, services, hread, _, hrest.networks, _,
      hrest.networkDetails, _, hrest.volumes, secrets, hsecrets, configs,
      hconfigs, ?_⟩
    rw [← hsecretCount, ← hconfigCount, ← hrest.count, ← hsorted,
      ← hversion, ← hsha, ← hbytes]
    obtain ⟨_, _, _, _, _, _, _, _, _, _, _, _, _⟩ := r
    dsimp only at hvalidated hside
    rw [hvalidated, hside]
    rfl

/-- The identities of the ports of a summary, each under its service. -/
def Summary.portIdentities (r : Summary) : List (String × String) :=
  r.services.flatMap fun service =>
    service.publishedPorts.map fun port => (service.name, port.identity)

/-- The targets of the mounts of a summary, each under its service. -/
def Summary.mountIdentities (r : Summary) : List (String × String) :=
  r.services.flatMap fun service =>
    service.storageMounts.map fun mount => (service.name, mount.target)

/-- What is found under services with names of their own is told apart
where it is told apart in each of them. -/
theorem nodup_identities {services : List Service} {α : Type}
    {items : Service → List α} {key : α → String}
    (hnames : (services.map Service.name).Nodup)
    (hitems : ∀ service ∈ services, ((items service).map key).Nodup) :
    (services.flatMap fun service =>
      (items service).map fun item => (service.name, key item)).Nodup := by
  rw [List.nodup_flatMap]
  constructor
  · intro service hservice
    have hpairs := (hitems service hservice).map
      (f := fun k => (service.name, k)) fun _ _ h => (Prod.mk.inj h).2
    rwa [List.map_map] at hpairs
  · refine (List.pairwise_map.mp hnames).imp fun {a b} hne => ?_
    intro pair ha hb
    obtain ⟨_, -, rfl⟩ := List.mem_map.mp ha
    obtain ⟨_, -, hpair⟩ := List.mem_map.mp hb
    exact hne (Prod.mk.inj hpair).1.symm

/-- Every array of ports a service publishes has identities of its own, and
every array of mounts targets. -/
theorem nodup_of_readService {l : Locale} {context : Context}
    (h : readService l context entry = .ok r) :
    (r.publishedPorts.map PublishedPort.identity).Nodup
      ∧ (r.storageMounts.map Mount.target).Nodup := by
  obtain ⟨name, service⟩ := entry
  obtain ⟨-, -, fields, rfl⟩ := readService_spec h
  obtain ⟨-, -, ports, mounts, hports, hmounts, rfl⟩ :=
    readService_eq_ok_iff.mp h
  constructor
  · cases hvalue : fields.lookup "ports" with
    | none =>
        rw [hvalue] at hports
        exact Except.ok.inj hports ▸ List.nodup_nil
    | some value =>
        rw [hvalue] at hports
        cases value with
        | arr items =>
            obtain ⟨-, read, -, hnodup, rfl⟩ :=
              publishedPorts_eq_ok_iff.mp hports
            exact ((sortBy_perm _ _).map _).nodup_iff.mpr hnodup
        | null => exact Except.ok.inj hports ▸ List.nodup_nil
        | bool _ | num _ | str _ | obj _ => cases hports
  · cases hvalue : fields.lookup "volumes" with
    | none =>
        rw [hvalue] at hmounts
        exact Except.ok.inj hmounts ▸ List.nodup_nil
    | some value =>
        rw [hvalue] at hmounts
        cases value with
        | arr items =>
            obtain ⟨-, read, -, hnodup, rfl⟩ :=
              storageMounts_eq_ok_iff.mp hmounts
            exact ((sortBy_perm _ _).map _).nodup_iff.mpr hnodup
        | null => exact Except.ok.inj hmounts ▸ List.nodup_nil
        | bool _ | num _ | str _ | obj _ => cases hmounts

/-- What is claimed of the summary of a configuration. -/
structure OrderFree (l : Locale) (options : Options) (fields : Fields)
    (r : Summary) : Prop where
  summary : ∀ fields', ConfigReordered fields fields' →
    summarizeDockerComposeConfig l options (.obj fields') = .ok r
  ports : r.portIdentities.Nodup
  mounts : r.mountIdentities.Nodup

/-- No service has two mounts that tie. -/
def Untied (l : Locale) (options : Options) (fields : Fields) : Prop :=
  ∀ entry ∈ servicesOf fields,
    UntiedMounts l (contextOf options fields) (mountsOf entry.2)

theorem contextOf_reordered {fields fields' : Fields}
    (h : ConfigReordered fields fields') :
    contextOf options fields' = contextOf options fields := by
  unfold contextOf Fields.get
  rw [h.same "volumes" (by decide)]

theorem SummaryRest.reordered {fields fields' : Fields}
    {services services' : List Service} {r : Summary}
    (h : SummaryRest options fields services r)
    (hmoved : ConfigReordered fields fields')
    (hlength : services'.length = services.length) :
    SummaryRest options fields' services' r := by
  have hnetworks := hmoved.same "networks" (by decide)
  have hvolumes := hmoved.same "volumes" (by decide)
  have hsecrets := hmoved.same "secrets" (by decide)
  have hconfigs := hmoved.same "configs" (by decide)
  have hname := hmoved.same "name" (by decide)
  have hget : fields'.get "networks" = fields.get "networks" :=
    congrArg (·.getD .null) hnetworks
  exact {
    expected := h.expected
    name := hname ▸ h.name
    networks := hnetworks ▸ h.networks
    networkDetails := hget ▸ h.networkDetails
    volumes := hvolumes ▸ h.volumes
    secrets := hsecrets ▸ h.secrets
    configs := hconfigs ▸ h.configs
    count := hlength ▸ h.count
    fixed := h.fixed }

/-- A configuration with the mounts of one service in another order. -/
theorem exists_moved {fields : Fields} {entries : List (String × Json)}
    (hservices : fields.lookup "services" = some (.obj entries))
    (hdistinct : (entries.map Prod.fst).Nodup) {service : Fields}
    (hentry : (name, Json.obj service) ∈ entries) {mounts' : List Json}
    (hmounts : service.lookup "volumes" = some (.arr mounts))
    (hperm : mounts.Perm mounts') :
    ∃ fields' entries' service', ConfigReordered fields fields'
      ∧ fields'.lookup "services" = some (.obj entries')
      ∧ (name, Json.obj service') ∈ entries'
      ∧ service'.lookup "volumes" = some (.arr mounts') := by
  let service' := assign "volumes" (.arr mounts') service
  let change : String × Json → String × Json := fun entry =>
    if entry.1 = name then (name, .obj service') else entry
  have hfound := lookup_assign_self "volumes" (.arr mounts') service
  refine ⟨assign "services" (.obj (entries.map change)) fields,
    entries.map change, service', ⟨fun key hkey =>
      lookup_assign_of_ne hkey _ fields, entries, entries, _, hservices,
      lookup_assign_self _ _ fields, .refl entries, ?_⟩,
    lookup_assign_self _ _ fields, ?_, hfound⟩
  · rw [List.forall₂_map_right_iff, List.forall₂_same]
    intro entry hmem
    by_cases hname : entry.1 = name
    · obtain rfl : entry = (name, .obj service) :=
        List.inj_on_of_nodup_map hdistinct hmem hentry hname
      rw [show change (name, .obj service) = (name, .obj service') from
        if_pos rfl]
      refine ⟨rfl, .moved (fun key _ hv => lookup_assign_of_ne hv _ service)
        ?_ ?_⟩
      · rw [lookup_assign_of_ne (by decide)]
        exact .same _
      · rw [hmounts, hfound]
        exact .moved hperm
    · rw [show change entry = entry from if_neg hname]
      exact ⟨rfl, .same _⟩
  · exact List.mem_map.mpr ⟨_, hentry, if_pos rfl⟩

/-- The summary of an accepted configuration with distinct services depends
on no order, and has distinct identities, exactly where no service has two
mounts of one kind whose targets and whose sources the collation does not
tell apart. -/
theorem summary_orderFree_iff (l : Locale) (options : Options)
    (fields : Fields) (r : Summary)
    (hdistinct : ((servicesOf fields).map Prod.fst).Nodup)
    (h : summarizeDockerComposeConfig l options (.obj fields) = .ok r) :
    OrderFree l options fields r ↔ Untied l options fields := by
  obtain ⟨entries, services, hservices, hcount, hread, hsorted, hrest⟩ :=
    summarize_eq_ok_iff.mp h
  have hof : servicesOf fields = entries := by
    unfold servicesOf
    rw [hservices]
    rfl
  rw [hof] at hdistinct
  have hreads : ReadServices l (contextOf options fields) entries services :=
    ⟨hread, hdistinct⟩
  have hsame := sortBy_perm (compareServices l) services
  rw [← hsorted] at hsame
  constructor
  · rintro ⟨hsummary, -, -⟩ entry hentry
    rw [hof] at hentry
    obtain ⟨service, hservice, hreadService⟩ :=
      exists_of_forall₂ (mapM_eq_ok_iff.mp hread).flip hentry
    obtain ⟨-, -, found, hfound⟩ := readService_spec hreadService
    obtain ⟨name, value⟩ := entry
    obtain rfl : value = .obj found := hfound
    obtain ⟨-, -, ports, stored, -, hstored, rfl⟩ :=
      readService_eq_ok_iff.mp hreadService
    unfold mountsOf
    rw [object?, Option.bind_some]
    cases hvolumes : found.lookup "volumes" with
    | none => exact .nil
    | some volumes =>
        cases volumes with
        | arr mounts =>
            rw [hvolumes] at hstored
            refine (storageMounts_reordered_iff hstored).mp
              fun mounts' hperm => ?_
            obtain ⟨fields', entries', service', hmoved, hservices', hmem',
              hmounts'⟩ := exists_moved hservices hdistinct hentry hvolumes
              hperm
            obtain ⟨entries'', services', hfound', -, hread', hsorted', -⟩ :=
              summarize_eq_ok_iff.mp (hsummary fields' hmoved)
            rw [hservices'] at hfound'
            obtain rfl := Json.obj.inj (Option.some.inj hfound')
            rw [contextOf_reordered hmoved] at hread'
            obtain ⟨other, hother, hreadOther⟩ :=
              exists_of_forall₂ (mapM_eq_ok_iff.mp hread').flip hmem'
            obtain ⟨-, -, ports', stored', -, hstored', rfl⟩ :=
              readService_eq_ok_iff.mp hreadOther
            -- the service of that name is in both lists, and is one
            have hin : _ ∈ services := hsame.mem_iff.mp (by
              rw [hsorted']
              exact (sortBy_perm _ _).mem_iff.mpr hother)
            have heq := List.inj_on_of_nodup_map hreads.nodup hin hservice rfl
            rw [hmounts'] at hstored'
            rw [← (Service.mk.inj heq).2.2.2.2]
            exact hstored'
        | null | bool _ | num _ | str _ | obj _ => exact .nil
  · intro huntied
    have huntied' : ∀ entry ∈ entries, UntiedMounts l
        (contextOf options fields) (mountsOf entry.2) := hof ▸ huntied
    have hnames : (r.services.map Service.name).Nodup :=
      (hsame.map _).nodup_iff.mpr hreads.nodup
    have hitems : ∀ service ∈ r.services,
        (service.publishedPorts.map PublishedPort.identity).Nodup
          ∧ (service.storageMounts.map Mount.target).Nodup := by
      intro service hservice
      obtain ⟨entry, -, hentry⟩ := exists_of_forall₂ (mapM_eq_ok_iff.mp hread)
        (hsame.mem_iff.mp hservice)
      exact nodup_of_readService hentry
    refine ⟨fun fields' hmoved => ?_,
      nodup_identities hnames fun service hs => (hitems service hs).1,
      nodup_identities hnames fun service hs => (hitems service hs).2⟩
    obtain ⟨_, mid, entries', hfound, hservices', hperm, hentries⟩ :=
      hmoved.services
    rw [hservices] at hfound
    obtain rfl := Json.obj.inj (Option.some.inj hfound)
    obtain ⟨services', hread', hpermuted⟩ :=
      hreads.reordered huntied' hperm hentries
    have hlength : entries'.length = entries.length :=
      hentries.length_eq.symm.trans hperm.length_eq.symm
    refine summarize_eq_ok_iff.mpr ⟨entries', services', hservices', ?_, ?_,
      ?_, hrest.reordered hmoved hpermuted.length_eq.symm⟩
    · omega
    · rw [contextOf_reordered hmoved]
      exact hread'
    · rw [hsorted]
      exact sortBy_congr hpermuted hreads.eq_of_compareServices

section Samples

/-- A text without its soft hyphens, which the collation passes over. -/
def withoutSoftHyphens (s : String) : String :=
  String.ofList (s.toList.filter fun c => c.toNat != 0xad)

theorem withoutSoftHyphens_of_isIdentifier {s : String}
    (h : isIdentifier s = true) : withoutSoftHyphens s = s := by
  have hall : s.toList.filter (fun c => c.toNat != 0xad) = s.toList := by
    rw [List.filter_eq_self]
    intro c hc
    have hkey := List.all_eq_true.mp h c hc
    rw [bne_iff_ne]
    intro hhyphen
    obtain rfl : c = Char.ofNat 0xad := Char.toNat_inj.mp hhyphen
    exact absurd hkey (by decide)
  unfold withoutSoftHyphens
  rw [hall, String.ofList_toList]

/-- The root collation on texts of identifier signs, slashes and soft
hyphens; no address but one. -/
def sampleLocale : Locale where
  canonicalIp s := if s = "127.0.0.1" then some s else none
  canonicalIp_ne_empty s := by
    split
    · rename_i h
      rw [h]
      decide
    · simp
  localeCompare a b :=
    Text.localeCompare (withoutSoftHyphens a) (withoutSoftHyphens b)
  trans := {
    eq_swap := fun {_ _} => @Std.OrientedCmp.eq_swap _ Text.localeCompare _ _ _
    isLE_trans := fun {_ _ _} => @Std.TransCmp.isLE_trans _ Text.localeCompare _ _ _ _ }
  identifiers a b ha hb := by
    rw [withoutSoftHyphens_of_isIdentifier ha,
      withoutSoftHyphens_of_isIdentifier hb]

def sampleOptions : Options where
  expectedProjectName := .str "app"
  documentSha256 := "aaaa"
  documentBytes := 10
  projectDirectory := none

def tmpfs (target : String) : Json :=
  .obj [("type", .str "tmpfs"), ("target", .str target)]

/-- One service with a port on the loopback address and some mounts. -/
def sampleConfig (mounts : List Json) : Fields :=
  [("services", .obj [("web", .obj [
    ("ports", .arr [.obj [("host_ip", .str "127.0.0.1"),
      ("target", .num 80), ("published", .str "8080")]]),
    ("volumes", .arr mounts)])])]

def ephemeralAt (target : String) : Mount :=
  ⟨.ephemeral, none, none, target, false⟩

def sampleSummary (mounts : List Mount) : Summary where
  version := 1
  projectName := "app"
  composeSha256 := "aaaa"
  composeBytes := 10
  serviceCount := 1
  services := [⟨"web", false, false,
    [⟨some "127.0.0.1", 8080, 80, .tcp⟩], mounts⟩]
  networks := []
  networkDetails := []
  volumes := []
  secretCount := 0
  configCount := 0
  validated := true
  sideEffects := false

/-- Two mounts the collation tells apart come out in one order. -/
theorem summary_orderFree_web :
    OrderFree sampleLocale sampleOptions
      (sampleConfig [tmpfs "/tmp", tmpfs "/data"])
      (sampleSummary [ephemeralAt "/data", ephemeralAt "/tmp"]) := by
  refine (summary_orderFree_iff sampleLocale sampleOptions _ _
    (by decide +kernel) (by decide +kernel)).mpr ?_
  intro entry hentry
  obtain rfl := List.mem_singleton.mp hentry
  refine .cons (fun mount hmount a b ha hb htied => ?_)
    (List.pairwise_singleton _ _)
  obtain rfl := List.mem_singleton.mp hmount
  have ha' : a = ephemeralAt "/tmp" := (Except.ok.inj ha).symm
  have hb' : b = ephemeralAt "/data" := (Except.ok.inj hb).symm
  have htarget := htied.target
  rw [ha', hb'] at htarget
  revert htarget
  decide +kernel

/-- A target with a soft hyphen in it is another target to the loop, and
the same to the collation. -/
theorem tied_mounts_show :
    summarizeDockerComposeConfig sampleLocale sampleOptions
        (.obj (sampleConfig [tmpfs "/data", tmpfs "/da\u00adta"]))
      = .ok (sampleSummary [ephemeralAt "/data", ephemeralAt "/da\u00adta"])
      ∧ ¬OrderFree sampleLocale sampleOptions
        (sampleConfig [tmpfs "/data", tmpfs "/da\u00adta"])
        (sampleSummary [ephemeralAt "/data", ephemeralAt "/da\u00adta"]) := by
  refine ⟨by decide +kernel, fun h => ?_⟩
  have hother := h.summary
    (sampleConfig [tmpfs "/da\u00adta", tmpfs "/data"]) {
      same := fun key hkey => by
        have hne : (key == "services") = false := beq_eq_false_iff_ne.mpr hkey
        simp only [sampleConfig, List.lookup_cons, hne]
      services := ⟨_, _, _, rfl, rfl, .refl _, .cons ⟨rfl, .moved
        (fun key _ hv => by
          have hne : (key == "volumes") = false := beq_eq_false_iff_ne.mpr hv
          simp only [List.lookup_cons, hne])
        (.same _) (.moved (.swap _ _ _))⟩ .nil⟩ }
  revert hother
  decide +kernel

end Samples

example : Protocol.tcp.text = "tcp" := by decide +kernel

end Yunpanel.Docker
