/-
What restoring and deleting mail data leaves, whichever operation fails.

A deletion leaves the tree where it was, or the backup holds it: before
the tree is renamed its content is that of the backup; whatever happens
from there, the backup holds it all. So a restore of that backup brings the
tree back.
-/
import Yunpanel.MailData.Delete
import Yunpanel.MailData.Proofs.Restore

namespace Yunpanel.MailData.Delete

open Lib Lib.Exec Lib.Result

variable {dg : Digests} {request : Request} {o : Answers dg} {d : Disk}

/-- What was looked up before anything is renamed. -/
theorem checked_eq_ok {s : Selected dg} {present : Bool}
    (h : checked request o d = .ok (s, present)) :
    o.selected = .ok s ∧ (d.tree .target).isSome = present
      ∧ d.tree .tombstone = none := by
  unfold checked at h
  obtain ⟨s', hs, h⟩ := bind_eq_ok.mp h
  obtain ⟨target, htarget, h⟩ := bind_eq_ok.mp h
  obtain ⟨inspection, -, hpresent⟩ := bind_eq_ok.mp htarget
  obtain rfl := Except.ok.inj hpresent
  split at h
  · cases h
  · split at h
    · cases h
    · obtain ⟨tombstone, htombstone, h⟩ := bind_eq_ok.mp h
      cases tombstone with
      | true => cases h
      | false =>
          obtain ⟨rfl, rfl⟩ := Prod.mk.inj (Except.ok.inj h)
          exact ⟨checkRequest_eq_ok hs, rfl, tree_of_pathState htombstone⟩

theorem matched_eq_ok {s : Selected dg} {u : Unit}
    (h : matched o s d = .ok u) :
    ∃ t, d.tree .target = some t ∧ t.content dg = .ok s.manifest.content := by
  unfold matched at h
  split at h
  · cases h
  · split at h
    · cases h
    · rename_i hcontent
      exact contentTree_eq_some (not_not.mp hcontent)

theorem bothStates_eq_ok {target tombstone : Fate} {a b : Bool}
    (h : bothStates target tombstone d = .ok (a, b)) :
    (d.tree .target).isSome = a ∧ (d.tree .tombstone).isSome = b := by
  unfold bothStates at h
  obtain ⟨there, hthere, h⟩ := bind_eq_ok.mp h
  obtain ⟨kept, hkept, h⟩ := bind_eq_ok.mp h
  obtain ⟨rfl, rfl⟩ := Prod.mk.inj (Except.ok.inj h)
  exact ⟨pathState_eq_ok hthere, pathState_eq_ok hkept⟩

/-- There is no live tree and no tombstone. -/
def Gone (d : Disk) : Prop :=
  d.tree .target = none ∧ d.tree .tombstone = none

/-- Where the `try` of a deletion returns, it has looked. -/
theorem removeTree_meets (s : Selected dg) :
    Meets (removeTree o s) d (fun _ d' => Gone d') fun _ _ => True := by
  refine (rename_spec _ _ _).mono (fun _ _ h => h) (fun _ _ _ => trivial)
    |>.bind fun _ _ _ => ?_
  refine meets_modify_bind (meets_look_bind (fun there _ => ?_)
    fun _ _ => trivial)
  refine meets_ite (fun _ => meets_fail trivial) fun _ => ?_
  refine meets_read_bind (meets_ite (fun _ => meets_fail trivial)
    fun _ => ?_)
  refine (rm_spec _ _ _).mono (fun _ _ h => h) (fun _ _ _ => trivial)
    |>.bind fun _ _ _ => ?_
  refine meets_modify_bind (meets_look_bind (fun states hstates => ?_)
    fun _ _ => trivial)
  obtain ⟨finalTarget, finalTombstone⟩ := states
  refine meets_ite (fun _ => meets_fail trivial) fun hgone => meets_pure ?_
  obtain ⟨htarget, htombstone⟩ := bothStates_eq_ok hstates
  rw [Bool.or_eq_true, not_or] at hgone
  exact ⟨Option.not_isSome_iff_eq_none.mp (htarget ▸ hgone.1),
    Option.not_isSome_iff_eq_none.mp (htombstone ▸ hgone.2)⟩

/-- The tree is where it was, or has the content of the backup. -/
def Safe (o : Answers dg) (d d' : Disk) : Prop :=
  d'.tree .target = d.tree .target
    ∨ ∃ t s, d.tree .target = some t ∧ o.selected = .ok s
      ∧ t.content dg = .ok s.manifest.content

/-- The `catch` of a deletion throws, whatever it has put back. -/
theorem meets_undo {α : Type} {P : α → Disk → Prop} {I : Disk → Prop}
    (s : Selected dg) (e : Rejection) (h : ∀ d', I d') :
    Meets (undo o s e : Run α) d P fun _ d' => I d' := by
  refine meets_read_bind (Meets.bind (R := fun _ _ => True) ?_
    fun _ _ _ => ?_)
  · exact ⟨fun _ _ => trivial, fun _ _ => h _⟩
  · exact meets_ite (fun _ => meets_fail (h _)) fun _ => meets_fail (h _)

/-- Returning, a deletion has left neither tree nor tombstone; rejecting,
it has left the tree, or the backup holds it. -/
theorem deleteNow_meets :
    Meets (deleteNow request o) d (fun _ d' => Gone d')
      fun _ d' => Safe o d d' := by
  refine meets_look_bind (fun found hfound => ?_) fun _ _ => .inl rfl
  obtain ⟨s, present⟩ := found
  obtain ⟨hselected, hpresent, htombstone⟩ := checked_eq_ok hfound
  refine meets_ite (fun _ => ?_) fun habsent => meets_pure ?_
  · refine meets_look_bind (fun _ hmatched => ?_) fun _ _ => .inl rfl
    obtain ⟨t, ht, hcontent⟩ := matched_eq_ok hmatched
    have hsafe : ∀ d', Safe o d d' :=
      fun _ => .inr ⟨t, s, ht, hselected, hcontent⟩
    refine meets_modify_bind (Meets.attempt (R := fun _ _ => True) ?_
      fun e d' _ => meets_undo s e hsafe)
    exact (removeTree_meets s).bind fun _ _ hgone => meets_pure hgone
  · refine ⟨Option.not_isSome_iff_eq_none.mp ?_, htombstone⟩
    rw [hpresent]
    exact habsent

/-- Where a deletion returns, there was no tree, or the backup has its
content. -/
theorem deleteNow_held :
    Meets (deleteNow request o) d
      (fun _ _ => ∀ t, d.tree .target = some t →
        ∃ s, o.selected = .ok s ∧ t.content dg = .ok s.manifest.content)
      fun _ _ => True := by
  refine meets_look_bind (fun found hfound => ?_) fun _ _ => trivial
  obtain ⟨s, present⟩ := found
  obtain ⟨hselected, hpresent, -⟩ := checked_eq_ok hfound
  refine meets_ite (fun _ => ?_) fun habsent => meets_pure fun t ht => ?_
  · refine meets_look_bind (fun _ hmatched => ?_) fun _ _ => trivial
    obtain ⟨t, ht, hcontent⟩ := matched_eq_ok hmatched
    refine ⟨fun _ _ t' ht' => ⟨s, hselected, ?_⟩, fun _ _ => trivial⟩
    rwa [← Option.some.inj (ht.symm.trans ht')]
  · rw [ht] at hpresent
    exact absurd hpresent.symm habsent

end Yunpanel.MailData.Delete

namespace Yunpanel.MailData

open Lib Lib.Exec

/-- A restore that rejects, and does not say that the old state is not
confirmed, has left the live tree as it was exactly where it does not lose
a part of it; one that returns has put the backup in place and left nothing
beside it. A deletion that rejects has left the live tree, or the verified
backup is that tree; one that returns has left nothing. -/
theorem mail_data_kept_iff (dg : Digests) (request request' : Request)
    (o : Restore.Answers dg) (o' : Delete.Answers dg) (d d' : Disk)
    (hfree : ∀ s t, o'.selected = .ok s → d'.tree .target = some t →
      CollisionFree dg t s.data) :
    ((∀ e u, (Restore.restoreNow request o).run d = (.error e, u) →
        ¬Restore.Exempt e → u.tree .target = d.tree .target)
      ↔ ¬Restore.Loses request o d)
    ∧ (∀ r u, (Restore.restoreNow request o).run d = (.ok r, u) →
        Restore.InPlace o u)
    ∧ (∀ e u, (Delete.deleteNow request' o').run d' = (.error e, u) →
        u.tree .target = d'.tree .target
          ∨ ∃ s, o'.selected = .ok s ∧ d'.tree .target = some s.data)
    ∧ ∀ r u, (Delete.deleteNow request' o').run d' = (.ok r, u) →
        Delete.Gone u := by
  refine ⟨⟨fun hkept hloses => ?_, fun hnot e u hrun hexempt => ?_⟩,
    fun r u hrun => Restore.restoreNow_meets.of_ok hrun,
    fun e u hrun => ?_, fun r u hrun => Delete.deleteNow_meets.of_ok hrun⟩
  · obtain ⟨e, u, hrun, hexempt, hne⟩ := Restore.restoreNow_loses hloses
    exact hne (hkept e u hrun hexempt)
  · rcases Restore.restoreNow_meets.of_error hrun with h | h | h
    · exact absurd h hexempt
    · exact h
    · exact absurd h hnot
  · rcases Delete.deleteNow_meets.of_error hrun with h | ⟨t, s, ht, hs, hc⟩
    · exact .inl h
    · refine .inr ⟨s, hs, ?_⟩
      rw [ht, eq_of_content_eq (hfree s t hs ht) hc s.verified]

/-- A restore of the backup that a deletion was checked against brings back
the tree that was deleted, as it was, whatever the disk has become in
between. -/
theorem deletion_is_restored (dg : Digests) (request request' : Request)
    (o : Delete.Answers dg) (o' : Restore.Answers dg) (d d' : Disk) {t : Tree}
    (ht : d.tree .target = some t) (hsame : o'.selected = o.selected)
    (hfree : ∀ s, o.selected = .ok s → CollisionFree dg t s.data)
    {r : Delete.Deleted} {r' : Restore.Restored} {u u' : Disk}
    (hdelete : (Delete.deleteNow request o).run d = (.ok r, u))
    (hrestore : (Restore.restoreNow request' o').run d' = (.ok r', u')) :
    u.tree .target = none ∧ u'.tree .target = some t := by
  refine ⟨(Delete.deleteNow_meets.of_ok hdelete).1, ?_⟩
  obtain ⟨s, hs, hcontent⟩ := Delete.deleteNow_held.of_ok hdelete t ht
  obtain ⟨s', hs', hput⟩ := (Restore.restoreNow_meets.of_ok hrestore).target
  rw [hsame, hs] at hs'
  obtain rfl := Except.ok.inj hs'
  rw [hput, eq_of_content_eq (hfree s hs) hcontent s.verified]

section Examples

/-- A digest that spells everything out. -/
def spelled : Digests where
  sha256 bytes := String.ofList (bytes.map fun b => Char.ofNat b.toNat)
  tree lines := String.join (lines.map fun line =>
    match line with
    | .d relative => "d " ++ relative ++ "\n"
    | .f relative bytes sha256 =>
        "f " ++ relative ++ " " ++ toString bytes ++ " " ++ sha256 ++ "\n")

def mails : Tree :=
  ⟨[⟨"cur", .directory⟩, ⟨"cur/1", .file [72, 105]⟩,
    ⟨"cur/2", .file [72, 111]⟩]⟩

def olderMails : Tree :=
  ⟨[⟨"cur", .directory⟩, ⟨"cur/1", .file [72, 105]⟩]⟩

def mailsContent : Content :=
  ⟨"d \nd cur\nf cur/1 2 Hi\nf cur/2 2 Ho\n", 2, 1, 4⟩

def olderContent : Content := ⟨"d \nd cur\nf cur/1 2 Hi\n", 1, 1, 2⟩

def manifestOf (content : Content) : Manifest where
  backupId := "backup-1"
  scope := .mailbox
  identity := "ada@example.org"
  sourcePath := "/var/mail/example.org/ada"
  sourcePresent := true
  content

def someSha256 : String := String.ofList (List.replicate 64 'a')

def someRequest : Request where
  transactionId := "transaction-1"
  backupId := "backup-1"
  scope := .mailbox
  identity := "ada@example.org"
  expectedTargetSnapshotSha256 := someSha256

def someInspection : Inspection := ⟨someSha256, "/var/mail/example.org/ada"⟩

def mailDisk : Disk where
  tree p := if p = .target then some mails else none
  parent _ := true
  begun := false

def restoring (previousRemoved : Removal) : Restore.Answers spelled where
  selected := .ok ⟨manifestOf olderContent, olderMails, by decide +kernel⟩
  inspected := .ok someInspection
  preRestore := .ok mailsContent
  inspectedAgain := .ok someInspection
  previousRemoved

/-- A deletion of mails whose tombstone cannot be removed. -/
def deleting : Delete.Answers spelled where
  selected := .ok ⟨manifestOf mailsContent, mails, by decide +kernel⟩
  inspected := .ok someInspection
  removed := .stopped (fun e => e.relative != "cur/1") "EIO: i/o error"

theorem collisionFree_mails : CollisionFree spelled mails mails where
  tree _ := rfl
  file := by decide +kernel

/-- The law where a restore goes through and a deletion does not. -/
theorem mail_data_kept_ada :
    (∃ u, (Restore.restoreNow someRequest (restoring .done)).run mailDisk
        = (.ok ⟨"transaction-1", "backup-1", "pre-restore:transaction-1",
            .mailbox, "ada@example.org", olderContent⟩, u)
      ∧ Restore.InPlace (restoring .done) u)
    ∧ ∃ u, (Delete.deleteNow someRequest deleting).run mailDisk
        = (.error Delete.deleteFailed, u)
      ∧ u.tree .target = none
      ∧ (u.tree .target = mailDisk.tree .target
        ∨ ∃ s, deleting.selected = .ok s
          ∧ mailDisk.tree .target = some s.data) := by
  have hfree : ∀ s t, deleting.selected = .ok s →
      mailDisk.tree .target = some t → CollisionFree spelled t s.data := by
    intro s t hs ht
    obtain rfl := Except.ok.inj hs
    obtain rfl : mails = t := Option.some.inj ht
    exact collisionFree_mails
  obtain ⟨-, hok, herror, -⟩ := mail_data_kept_iff spelled someRequest
    someRequest (restoring .done) deleting mailDisk mailDisk hfree
  have hrestore : ((Restore.restoreNow someRequest (restoring .done)).run
      mailDisk).1 = .ok ⟨"transaction-1", "backup-1",
        "pre-restore:transaction-1", .mailbox, "ada@example.org",
        olderContent⟩ := by decide +kernel
  have hdelete : ((Delete.deleteNow someRequest deleting).run mailDisk).1
      = .error Delete.deleteFailed := by decide +kernel
  have hgone : ((Delete.deleteNow someRequest deleting).run
      mailDisk).2.tree .target = none := by decide +kernel
  exact ⟨⟨_, Prod.ext hrestore rfl, hok _ _ (Prod.ext hrestore rfl)⟩,
    ⟨_, Prod.ext hdelete rfl, hgone, herror _ _ (Prod.ext hdelete rfl)⟩⟩

/-- A deletion of mails that goes through. -/
def deletingAll : Delete.Answers spelled := { deleting with removed := .done }

/-- The restore of what it deletes. -/
def restoringAll : Restore.Answers spelled :=
  { restoring .done with selected := deletingAll.selected }

/-- The disk without the mails. -/
def emptied : Disk := ((Delete.deleteNow someRequest deletingAll).run mailDisk).2

theorem deletion_is_restored_ada :
    emptied.tree .target = none
      ∧ ((Restore.restoreNow someRequest restoringAll).run emptied).2.tree
        .target = some mails := by
  have hdelete : ((Delete.deleteNow someRequest deletingAll).run mailDisk).1
      = .ok ⟨"transaction-1", "backup-1", .mailbox, "ada@example.org", true,
        mailsContent⟩ := by decide +kernel
  have hrestore : ((Restore.restoreNow someRequest restoringAll).run
      emptied).1 = .ok ⟨"transaction-1", "backup-1",
        "pre-restore:transaction-1", .mailbox, "ada@example.org",
        mailsContent⟩ := by decide +kernel
  refine deletion_is_restored spelled someRequest someRequest deletingAll
    restoringAll mailDisk emptied rfl rfl (fun s hs => ?_)
    (Prod.ext hdelete rfl) (Prod.ext hrestore rfl)
  obtain rfl := Except.ok.inj hs
  exact collisionFree_mails

/-- The backup is in place and verified; the removal of what was put aside
stops with one mail gone. The call says that the previous state was
restored, and the mail is lost. -/
theorem restore_loses_mail :
    ((Restore.restoreNow someRequest (restoring
        (.stopped (fun e => e.relative != "cur/2") "EIO: i/o error"))).run
          mailDisk).1 = .error Restore.restoreFailed
      ∧ ¬Restore.Exempt Restore.restoreFailed
      ∧ ((Restore.restoreNow someRequest (restoring
          (.stopped (fun e => e.relative != "cur/2") "EIO: i/o error"))).run
            mailDisk).2.tree .target = some olderMails
      ∧ mailDisk.tree .target = some mails ∧ olderMails ≠ mails := by
  refine ⟨by decide +kernel, ?_, by decide +kernel, by decide, by decide⟩
  rintro (h | h)
  · exact absurd (Option.some.inj h) (by decide)
  · exact absurd (Option.some.inj h) (by decide)

end Examples

example : Text.isControl '\n' = true := by decide +kernel

end Yunpanel.MailData
