/-
The bindings along runs of accepted calls.

`bindings_load_iff` is the whole statement: a run that starts with
bindings that load has bindings that load in every state exactly where no
update in it asks for another application for a website with a database.
`proxy_switch_stops_start` is a run of two accepted calls after which the
process does not start: a database is bound, and the website is then
switched to a proxy.
-/
import Yunpanel.Databases.Proofs.Bindings
import Yunpanel.Domains.Proofs.Runs

namespace Yunpanel.Databases

open Json Lib
open Websites (Website)

/-- The process can be started on the stores of every state of a run
exactly where each update of the run keeps the applications of the
databases. -/
theorem bindings_load_iff {config : Websites.Config} (s : Control config)
    (calls : List ControlCall)
    (hok : (Control.machine config).Allowed Accepted s calls)
    (hs : s.start = .ok ()) :
    (∀ t ∈ (Control.machine config).states s calls, t.start = .ok ())
      ↔ (Control.machine config).Allowed Keeps s calls := by
  simp only [start_eq_ok] at hs ⊢
  exact Machine.forall_mem_states_iff
    (fun s c hc hs => startable_next_iff hc hs) hok hs

-- ====== sample

def sampleApplication : Websites.Application where
  id := ⟨"42345678-1234-4234-8234-123456789012", Eq.refl true⟩
  serverId := ⟨"22345678-1234-4234-8234-123456789012", Eq.refl true⟩
  type := "node"
  webRoot := none

def sampleWebsiteId : Uuid :=
  ⟨"32345678-1234-4234-8234-123456789012", Eq.refl true⟩

/-- What the preview of a switch to a proxy hashes. -/
def proxyPreview : String :=
  "\x7b\"version\":1,\"websiteId\":\"32345678-1234-4234-8234-123456789012\""
    ++ ",\"currentRevision\":1,\"nextWebsite\":\x7b\"name\":\"Shop\""
    ++ ",\"applicationId\":null,\"dockerWorkloadId\":null"
    ++ ",\"managedComposeBinding\":null,\"runtimeType\":\"proxy\""
    ++ ",\"documentRoot\":null,\"unixUser\":null,\"proxyTarget\":null\x7d\x7d"

/-- The digests of the application's id, of that preview, and of the
preview of a rename. -/
def shopSha256 (text : String) : Sha256 :=
  if text = sampleApplication.id.text then
    ⟨"f447e8cfc010135b7bf933613bb658ecb9aa45d8296662eec09479f4bfcf2815",
      by decide⟩
  else if text = proxyPreview then
    ⟨"1ac507a286fc59a3feca61203a5673c8725ff258bd4fdd603696fbfb0b54f2ee",
      by decide⟩
  else
    ⟨"335db9a5d7c5b4760be63688163ca0bf8e460881ad330cc4668ccf15af0c1cb0",
      by decide⟩

def shopConfig : Websites.Config where
  net := Domains.asciiPlatform.toNet
  sha256 := shopSha256
  servers := [sampleApplication.serverId]
  applications := [sampleApplication]
  workloads := []
  projects := []

/-- A website with a Node application, and no database yet. -/
def shopControl : Control shopConfig where
  websites := [{
    id := sampleWebsiteId
    serverId := sampleApplication.serverId
    name := ⟨"Shop", by decide⟩
    runtime := .hosted .node sampleApplication.id
    revision := 1
    createdAt := ⟨1789264800000⟩
    updatedAt := ⟨1789264800000⟩ }]
  bindings := []

def bindShop : ControlCall :=
  .bindDatabase ⟨⟨1789266600000⟩,
      ⟨"12345678-1234-4234-8234-123456789012", Eq.refl true⟩⟩
    { serverId := sampleApplication.serverId.json
      databaseName := .str "app_main"
      websiteId := sampleWebsiteId.json
      applicationId := .null
      confirmation := .str
        ("bind-database:22345678-1234-4234-8234-123456789012:app_main"
          ++ ":32345678-1234-4234-8234-123456789012") }

def updateShop (changes : Json) (previewFingerprint : String) :
    ControlCall :=
  .updateWebsite ⟨1789266600000⟩
    { websiteId := sampleWebsiteId.json
      expectedRevision := .num 1
      changes
      previewFingerprint := .str previewFingerprint }

def renameShop : ControlCall :=
  updateShop (.obj [("name", .str "Store")])
    "335db9a5d7c5b4760be63688163ca0bf8e460881ad330cc4668ccf15af0c1cb0"

def switchShopToProxy : ControlCall :=
  updateShop (.obj [("applicationId", .null), ("runtimeType", .str "proxy")])
    "1ac507a286fc59a3feca61203a5673c8725ff258bd4fdd603696fbfb0b54f2ee"

theorem bindings_load_iff_rename :
    (∀ t ∈ (Control.machine shopConfig).states shopControl
        [bindShop, renameShop], t.start = .ok ())
      ↔ (Control.machine shopConfig).Allowed Keeps shopControl
          [bindShop, renameShop] :=
  bindings_load_iff shopControl [bindShop, renameShop]
    (by decide +kernel) (by decide +kernel)

/-- A database is bound and its website switched to a proxy. Both calls are
accepted, and the process does not start afterwards. -/
theorem proxy_switch_stops_start :
    (Control.machine shopConfig).Allowed Accepted shopControl
        [bindShop, switchShopToProxy]
      ∧ shopControl.start = .ok ()
      ∧ ((Control.machine shopConfig).run shopControl
          [bindShop, switchShopToProxy]).start ≠ .ok () := by
  decide +kernel

example : isDatabaseName "db" = true := by decide +kernel

end Yunpanel.Databases
