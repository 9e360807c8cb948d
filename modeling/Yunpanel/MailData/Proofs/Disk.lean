/-
What the operations on mail trees do, and what a digest tells of a tree.
-/
import Yunpanel.MailData.Disk
import Yunpanel.Lib.Result

namespace Yunpanel.MailData

open Lib Lib.Exec Lib.Result

-- ====== disk

namespace Disk

variable {d : Disk}

theorem put_eq_self {p : Place} {t : Option Tree} (h : d.tree p = t) :
    d.put p t = d := by
  unfold put
  rw [← h, Function.update_eq_self]

end Disk

-- ====== operations

variable {f : Fate} {dg : Digests}

theorem Fate.check_eq_ok {u : Unit} (h : f.check = .ok u) :
    f = none := by
  cases f with
  | none => rfl
  | some message => cases h

theorem Fate.isOwn_of_check {e : Rejection} (h : f.check = .error e) :
    f ≠ none ∧ e.isOwn = false := by
  cases f with
  | none => cases h
  | some message =>
      obtain rfl := Except.error.inj h
      exact ⟨Option.some_ne_none _, rfl⟩

theorem pathState_eq_ok {p : Place} {d : Disk} {here : Bool}
    (h : pathState f p d = .ok here) : (d.tree p).isSome = here := by
  unfold pathState at h
  cases f with
  | some message => cases h
  | none => exact Except.ok.inj h

theorem tree_of_pathState {p : Place} {d : Disk}
    (h : pathState f p d = .ok false) : d.tree p = none :=
  Option.isSome_eq_false_iff.mp (pathState_eq_ok h) |> Option.isNone_iff_eq_none.mp

variable {e : Entry} {c : Content} {q : Progress}

/-- A tree that is read is there, and its content is what was read. -/
theorem contentTree_eq_some {reads : Bool} {p : Place} {d : Disk}
    (h : contentTree dg reads p d = some c) :
    ∃ t, d.tree p = some t ∧ t.content dg = .ok c := by
  unfold contentTree at h
  cases reads with
  | false => cases h
  | true =>
      obtain ⟨t, ht, hc⟩ := Option.bind_eq_some_iff.mp h
      refine ⟨t, ht, ?_⟩
      cases hcontent : t.content dg with
      | ok c' =>
          rw [hcontent] at hc
          exact congrArg Except.ok (Option.some.inj hc)
      | error e =>
          rw [hcontent] at hc
          cases hc

section Operations

variable {s : Disk}

/-- A removal that returns has left nothing; one that fails has left what
the removal says of the tree. -/
theorem rm_spec (r : Removal) (force : Bool) (p : Place) :
    Meets (rm r force p) s
      (fun _ d => d = s.put p none ∧ (s.tree p = none ∨ r.fate = none))
      fun e d => e.isOwn = false ∧ d = s.put p (s.tree p >>= r.left)
        ∧ (s.tree p ≠ none → r.fate ≠ none) := by
  refine meets_read_bind ?_
  cases ht : s.tree p with
  | some t =>
      refine meets_modify_bind (meets_ofExcept (fun _ hf => ?_) fun e hf => ?_)
      · have hfate := Fate.check_eq_ok hf
        have hleft : r.left t = none := by
          cases r with
          | done => rfl
          | stopped stays message => cases hfate
          | gone message => cases hfate
        rw [hleft]
        exact ⟨rfl, .inr hfate⟩
      · obtain ⟨hfate, hown⟩ := Fate.isOwn_of_check hf
        exact ⟨hown, rfl, fun _ => hfate⟩
  | none =>
      have hself := Disk.put_eq_self ht
      refine meets_ite (fun _ => meets_ofExcept (fun _ _ => ?_) fun e hf => ?_)
        fun _ => meets_fail ?_
      · exact ⟨hself.symm, .inl rfl⟩
      · exact ⟨(Fate.isOwn_of_check hf).2, hself.symm, fun h => absurd rfl h⟩
      · exact ⟨rfl, hself.symm, fun h => absurd rfl h⟩

/-- A renaming that returns has moved a tree; one that fails has changed
nothing. -/
theorem rename_spec (f : Fate) (source destination : Place) :
    Meets (rename f source destination) s
      (fun _ d => f = none ∧ ∃ t, s.tree source = some t
        ∧ d = (s.put source none).put destination (some t))
      fun e d => e.isOwn = false ∧ d = s := by
  refine meets_ofExcept_bind (fun _ hf => ?_) fun e hf => ?_
  · refine meets_read_bind (meets_read_bind ?_)
    cases ht : s.tree source with
    | none => exact meets_fail ⟨rfl, rfl⟩
    | some t =>
        refine meets_ite (fun _ => meets_fail ⟨rfl, rfl⟩)
          fun _ => meets_modify ?_
        exact ⟨Fate.check_eq_ok hf, t, rfl, rfl⟩
  · exact ⟨(Fate.isOwn_of_check hf).2, rfl⟩

/-- A tree can be renamed to where there is nothing. -/
theorem rename_run {source destination : Place} {t : Tree}
    (ht : s.tree source = some t) (hfree : s.tree destination = none) :
    (rename none source destination).run s
      = (.ok (), (s.put source none).put destination (some t)) := by
  unfold rename
  rw [run_bind_ok (show (Exec.ofExcept (Fate.check none)).run s
    = (.ok (), s) from rfl), run_read_bind, run_read_bind, ht, hfree]
  rfl

end Operations

-- ====== requests

/-- A request that passes is about the backup that was selected. -/
theorem checkRequest_eq_ok {a b c : Rejection}
    {selected : Except Rejection (Selected dg)} {request : Request}
    {s : Selected dg} (h : checkRequest dg a b c selected request = .ok s) :
    selected = .ok s := by
  unfold checkRequest at h
  split at h
  · cases h
  · split at h
    · cases h
    · obtain ⟨s', hs, h⟩ := bind_eq_ok.mp h
      split at h
      · cases h
      · rw [hs, Except.ok.inj h]

-- ====== digests

/-- The files a tree holds. -/
def Tree.files (t : Tree) : List (List UInt8) :=
  t.entries.filterMap fun e =>
    match e.node with
    | .file content => some content
    | _ => none

/-- The line of an entry, where it has one. -/
def Entry.line (dg : Digests) (e : Entry) : Line :=
  match e.node with
  | .file content => .f e.relative content.length (dg.sha256 content)
  | _ => .d e.relative

def Entry.isPlain (e : Entry) : Prop :=
  e.node ≠ .symlink ∧ e.node ≠ .special

theorem add_eq_ok {p : Progress} (h : p.add dg e = .ok q) :
    e.isPlain ∧ q.lines = p.lines ++ [e.line dg] := by
  unfold Progress.add at h
  unfold Entry.isPlain Entry.line
  cases hnode : e.node with
  | directory =>
      rw [hnode] at h
      obtain rfl := Except.ok.inj h
      exact ⟨⟨nofun, nofun⟩, rfl⟩
  | file content =>
      rw [hnode] at h
      dsimp only at h
      split at h
      · obtain rfl := Except.ok.inj h
        exact ⟨⟨nofun, nofun⟩, rfl⟩
      · cases h
  | symlink =>
      rw [hnode] at h
      cases h
  | special =>
      rw [hnode] at h
      cases h

theorem foldlM_add_eq_ok {p : Progress} {entries : List Entry}
    (h : entries.foldlM (Progress.add dg) p = .ok q) :
    (∀ e ∈ entries, e.isPlain)
      ∧ q.lines = p.lines ++ entries.map (Entry.line dg) := by
  induction entries generalizing p with
  | nil =>
      obtain rfl := Except.ok.inj h
      exact ⟨nofun, (List.append_nil _).symm⟩
  | cons e entries ih =>
      rw [List.foldlM_cons] at h
      obtain ⟨p', hp, h⟩ := bind_eq_ok.mp h
      obtain ⟨hplain, hlines⟩ := add_eq_ok hp
      obtain ⟨hrest, hq⟩ := ih h
      refine ⟨List.forall_mem_cons.mpr ⟨hplain, hrest⟩, ?_⟩
      rw [hq, hlines, List.map_cons, List.append_assoc]
      rfl

/-- The digests do not confuse two trees: neither their lines nor the files
in them. -/
structure CollisionFree (dg : Digests) (t u : Tree) : Prop where
  tree : dg.tree (t.entries.map (Entry.line dg))
      = dg.tree (u.entries.map (Entry.line dg)) →
    t.entries.map (Entry.line dg) = u.entries.map (Entry.line dg)
  file : ∀ a ∈ t.files, ∀ b ∈ u.files, dg.sha256 a = dg.sha256 b → a = b

/-- Entries with the same line are the same, as long as their files are not
confused. -/
theorem eq_of_line_eq {g : Entry} (he : e.isPlain) (hg : g.isPlain)
    (hfile : ∀ a b, e.node = .file a → g.node = .file b →
      dg.sha256 a = dg.sha256 b → a = b) (h : e.line dg = g.line dg) :
    e = g := by
  obtain ⟨erel, enode⟩ := e
  obtain ⟨grel, gnode⟩ := g
  unfold Entry.line at h
  cases enode with
  | directory =>
      cases gnode with
      | directory =>
          cases h
          rfl
      | file b => cases h
      | symlink => exact absurd rfl hg.1
      | special => exact absurd rfl hg.2
  | file a =>
      cases gnode with
      | directory => cases h
      | file b =>
          obtain ⟨rfl, -, hsha⟩ := Line.f.inj h
          rw [hfile a b rfl rfl hsha]
      | symlink => exact absurd rfl hg.1
      | special => exact absurd rfl hg.2
  | symlink => exact absurd rfl he.1
  | special => exact absurd rfl he.2

theorem Tree.content_eq_ok {t : Tree} (h : t.content dg = .ok c) :
    (∀ e ∈ t.entries, e.isPlain)
      ∧ c.contentSha256 = dg.tree (t.entries.map (Entry.line dg)) := by
  unfold Tree.content at h
  obtain ⟨p, hp, rfl⟩ := map_eq_ok.mp h
  obtain ⟨hplain, hlines⟩ := foldlM_add_eq_ok hp
  refine ⟨hplain, ?_⟩
  unfold Progress.content
  rw [hlines]
  rfl

theorem Tree.mem_files {t : Tree} {content : List UInt8}
    (he : e ∈ t.entries) (hnode : e.node = .file content) :
    content ∈ t.files :=
  List.mem_filterMap.mpr ⟨e, he, by rw [hnode]⟩

/-- Trees of the same content are the same. -/
theorem eq_of_content_eq {t u : Tree} (hfree : CollisionFree dg t u)
    (ht : t.content dg = .ok c) (hu : u.content dg = .ok c) : t = u := by
  obtain ⟨htplain, htsha⟩ := Tree.content_eq_ok ht
  obtain ⟨huplain, husha⟩ := Tree.content_eq_ok hu
  have hlines := hfree.tree (htsha.symm.trans husha)
  have hentries : t.entries = u.entries := by
    apply List.ext_getElem?
    intro i
    have hi := congrArg (fun ls => ls[i]?) hlines
    simp only [List.getElem?_map] at hi
    cases hte : t.entries[i]? with
    | none =>
        rw [hte] at hi
        cases hue : u.entries[i]? with
        | none => rfl
        | some g =>
            rw [hue] at hi
            cases hi
    | some e =>
        rw [hte] at hi
        cases hue : u.entries[i]? with
        | none =>
            rw [hue] at hi
            cases hi
        | some g =>
            rw [hue] at hi
            have het := List.mem_of_getElem? hte
            have hgu := List.mem_of_getElem? hue
            rw [eq_of_line_eq (htplain e het) (huplain g hgu)
              (fun a b ha hb => hfree.file a (Tree.mem_files het ha) b
                (Tree.mem_files hgu hb)) (Option.some.inj hi)]
  obtain ⟨tbelow⟩ := t
  obtain ⟨ubelow⟩ := u
  exact congrArg Tree.mk (List.cons.inj hentries).2

end Yunpanel.MailData
