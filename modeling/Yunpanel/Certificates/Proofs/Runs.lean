/-
The certificate registry over whole runs.

Every event leaves memory alone, lets one call change it, or takes out
again what was imported when its write has failed (`mem_next`). Three facts are
carried along: the records are sound and each has its own id (`Tidy`), a
selection is the only one of its domain (`Sole`), and a retired record
stays what it was (`Rests`).

A state that is set is the one change whose check does not cover what the
loader asks for: it is sound because the routes only set it of a
certificate that was found active, and a certificate that once had its
material keeps its paths (`Tidy.material`).
-/
import Yunpanel.Certificates.Proofs.Changes

namespace Yunpanel.Certificates

open Lib Json
open Domains (Net)

variable {net : Net} {roots : Roots} {env : Env} {a b : Certificate}
  {s t : List Certificate} {c : Call} {r : Routes} {e : Event}

-- ====== effects

variable {certificateId : String} {f : Certificate → Certificate}
  {now : Instant} {is : List Event}

theorem clean_onCertificate {f : Nat → Certificate → CertificateEffect}
    (h : ∀ i a, (f i a).Clean) : (onCertificate certificateId f s).Clean := by
  unfold onCertificate
  split
  · trivial
  · exact h _ _

theorem clean_savedResult (i : Nat) (x : Except Failure Certificate) :
    (savedResult s i x).Clean := by
  cases x <;> trivial

/-- No call throws half way through. -/
theorem clean_effect (c : Call) : (c.effect net roots env s).Clean := by
  cases c with
  | createForDomain input =>
      simp only [Call.effect]
      unfold createForDomain
      split <;> trivial
  | registerCustom input =>
      simp only [Call.effect]
      unfold registerCustom
      split <;> trivial
  | setState certificateId nextState =>
      refine clean_onCertificate fun i a => ?_
      unfold setState
      split
      · trivial
      · split <;> trivial
  | markValidated certificateId result =>
      exact clean_onCertificate fun i a => clean_savedResult i _
  | markActive certificateId result renewal =>
      refine clean_onCertificate fun i a => ?_
      unfold markActive
      split
      · trivial
      · split <;> exact clean_savedResult i _
  | prepareSelection certificateId =>
      refine clean_onCertificate fun i a => ?_
      unfold prepareSelection
      split
      · trivial
      · split
        · trivial
        · split <;> trivial
  | commitSelection certificateId =>
      refine clean_onCertificate fun i a => ?_
      unfold commitSelection
      split
      · trivial
      · split <;> trivial
  | markFailed certificateId errorCode =>
      refine clean_onCertificate fun i a => ?_
      unfold markFailed
      split <;> trivial
  | retireForDomainRemoval certificateId r =>
      refine clean_onCertificate fun i a => ?_
      unfold retireForDomainRemoval
      split
      · trivial
      · split <;> split <;> trivial
  | markMaterialPurged certificateId purgedAt =>
      refine clean_onCertificate fun i a => ?_
      unfold markMaterialPurged
      split
      · trivial
      · split
        · trivial
        · split <;> trivial
  | getCertificate | getForDomain | listCertificates => trivial

-- ====== tidy

/-- What is held in memory: each record is sound and the only one of its
id, and one that was seen active has its paths. -/
structure Tidy (net : Net) (roots : Roots) (seen : List String)
    (s : List Certificate) : Prop where
  sound : ∀ a ∈ s, Sound net roots a
  distinct : (s.map Certificate.id).Nodup
  material : ∀ a ∈ s, a.id ∈ seen → HasPaths roots a

/-- What the routes promise of a call, in the state it meets. -/
def Promised (env : Env) (seen : List String) (s : List Certificate)
    (c : Call) : Prop :=
  (∀ input, c = .createForDomain input → env.randomUUID.text ∉ seen
    ∧ env.randomUUID.text ∉ s.map Certificate.id)
  ∧ ∀ certificateId nextState, c = .setState certificateId nextState →
    nextState ≠ "issuing" → certificateId ∈ seen

theorem promised_of_routed (h : (Event.call env c).routed r = true) :
    Promised env r.seen r.mem c := by
  refine ⟨?_, ?_⟩
  · rintro input rfl
    unfold Event.routed at h
    simpa using h
  · rintro certificateId nextState rfl hne
    unfold Event.routed at h
    simp only [Bool.or_eq_true, Bool.and_eq_true, beq_iff_eq] at h
    rcases h with h | ⟨-, h⟩
    · exact absurd h hne
    · simpa using h

/-- One id, one record. -/
theorem eq_of_distinct (h : (s.map Certificate.id).Nodup) (ha : a ∈ s)
    (hb : b ∈ s) (he : a.id = b.id) : a = b :=
  List.inj_on_of_nodup_map h ha hb he

variable {seen : List String} {domainId id : String}

theorem Tidy.appended (h : Tidy net roots seen s)
    (hsound : Sound net roots b) (hnew : b.id ∉ s.map Certificate.id)
    (hseen : b.id ∈ seen → HasPaths roots b) :
    Tidy net roots seen (s ++ [b]) := by
  refine ⟨fun a ha => ?_, ?_, fun a ha hmem => ?_⟩
  · rcases List.mem_append.mp ha with ha | ha
    · exact h.sound a ha
    · rw [List.mem_singleton] at ha
      exact ha ▸ hsound
  · rw [List.map_append, List.map_singleton, List.nodup_append']
    refine ⟨h.distinct, List.nodup_singleton _, ?_⟩
    rw [List.disjoint_singleton]
    exact hnew
  · rcases List.mem_append.mp ha with ha | ha
    · exact h.material a ha hmem
    · rw [List.mem_singleton] at ha
      subst ha
      exact hseen hmem

/-- Where every record stays or moves along, what is tidy stays tidy. -/
theorem Tidy.map (h : Tidy net roots seen s)
    (hf : ∀ a ∈ s, f a = a ∨ Moves roots c a (f a))
    (hset : ∀ certificateId nextState,
      c = .setState certificateId nextState → nextState ≠ "issuing" →
      certificateId ∈ seen) : Tidy net roots seen (s.map f) := by
  have hid : ∀ a ∈ s, (f a).id = a.id := by
    intro a ha
    rcases hf a ha with hsame | hm
    · rw [hsame]
    · exact hm.kept.id
  refine ⟨?_, ?_, ?_⟩
  · intro b hb
    obtain ⟨a, ha, rfl⟩ := List.mem_map.mp hb
    rcases hf a ha with hsame | hm
    · rw [hsame]
      exact h.sound a ha
    · exact (h.sound a ha).moves hm fun nextState hc hne =>
        h.material a ha (hset a.id nextState hc hne)
  · have hmap : (s.map f).map Certificate.id = s.map Certificate.id := by
      rw [List.map_map]
      exact List.map_congr_left hid
    rw [hmap]
    exact h.distinct
  · intro b hb hseen
    obtain ⟨a, ha, rfl⟩ := List.mem_map.mp hb
    rw [hid a ha] at hseen
    have hpaths := h.material a ha hseen
    rcases hf a ha with hsame | hm
    · rw [hsame]
      exact hpaths
    · exact hm.hasPaths hpaths

/-- Where ids are distinct, setting one place is mapping one id. -/
theorem set_eq_map (h : (s.map Certificate.id).Nodup) {i : Nat}
    (hi : s[i]? = some a) :
    s.set i b = s.map fun x => if x.id = a.id then b else x := by
  apply List.ext_getElem?
  intro j
  rw [List.getElem?_set, List.getElem?_map]
  obtain ⟨hlen, ha⟩ := List.getElem?_eq_some_iff.mp hi
  by_cases hij : i = j
  · subst hij
    simp [hlen, ha]
  · rw [if_neg hij]
    cases hj : s[j]? with
    | none => rfl
    | some x =>
        have hne : x.id ≠ a.id := by
          intro he
          have hx := List.mem_of_getElem? hj
          obtain rfl : x = a :=
            eq_of_distinct h hx (List.mem_of_getElem? hi) he
          have hnodup : s.Nodup := List.Nodup.of_map Certificate.id h
          exact hij ((List.getElem?_inj hlen hnodup).mp (hi.trans hj.symm))
        simp [hne]

/-- A record a call makes. -/
structure Fresh (net : Net) (roots : Roots) (seen : List String)
    (s : List Certificate) (c : Call) (b : Certificate) : Prop where
  sound : Sound net roots b
  new : b.id ∉ s.map Certificate.id
  material : b.id ∈ seen → HasPaths roots b
  open_ : b.state ≠ .retired
  serves : b.serves = true →
    ∃ input, c = .registerCustom input ∧ input.domainId = b.domainId

/-- A call moves records along, or makes one. -/
theorem Change.kinds (h : Change net roots env s c t)
    (hpromised : Promised env seen s c)
    (hdistinct : (s.map Certificate.id).Nodup) :
    (∃ f, t = s.map f ∧ ∀ a ∈ s, f a = a ∨ Moves roots c a (f a))
      ∨ ∃ b, t = s ++ [b] ∧ Fresh net roots seen s c b := by
  cases h with
  | created input b hsound hid hstate =>
      obtain ⟨hseen, hnew⟩ := hpromised.1 input rfl
      rw [← hid] at hseen hnew
      refine .inr ⟨b, rfl, hsound, hnew, fun hmem => absurd hmem hseen, ?_,
        fun hserves => ?_⟩
      · rw [hstate]
        decide
      · unfold Certificate.serves at hserves
        rw [hstate] at hserves
        simp at hserves
  | imported input b hsound hpaths hnew htakes hdomain hstate =>
      refine .inr ⟨b, rfl, hsound, fun hmem => ?_, fun _ => hpaths, ?_,
        fun _ => ⟨input, rfl, hdomain.symm⟩⟩
      · obtain ⟨a, ha, he⟩ := List.mem_map.mp hmem
        exact hnew a ha he
      · rw [hstate]
        decide
  | moved c i a b hi hm htakes =>
      refine .inl ⟨_, set_eq_map hdistinct hi, fun x hx => ?_⟩
      by_cases he : x.id = a.id
      · obtain rfl :=
          eq_of_distinct hdistinct hx (List.mem_of_getElem? hi) he
        rw [if_pos rfl]
        exact .inr hm
      · exact .inl (if_neg he)
  | selected certificateId now selected hserves =>
      refine .inl ⟨_, rfl, fun x hx => ?_⟩
      exact (superseded_moves _ now selected x).imp_right And.left

theorem Change.tidy (hchange : Change net roots env s c t)
    (hpromised : Promised env seen s c) (h : Tidy net roots seen s) :
    Tidy net roots seen t := by
  rcases hchange.kinds hpromised h.distinct with ⟨f, rfl, hf⟩ | ⟨b, rfl, hb⟩
  · exact h.map hf hpromised.2
  · exact h.appended hb.sound hb.new hb.material

theorem Tidy.filter (h : Tidy net roots seen s) (p : Certificate → Bool) :
    Tidy net roots seen (s.filter p) :=
  ⟨fun a ha => h.sound a (List.mem_of_mem_filter ha),
    h.distinct.sublist (List.filter_sublist.map Certificate.id),
    fun a ha => h.material a (List.mem_of_mem_filter ha)⟩

/-- A certificate that is found active has its paths. -/
theorem Tidy.look (h : Tidy net roots seen s) (ha : a ∈ s)
    (hactive : a.state = .active) :
    Tidy net roots (a.id :: seen) s := by
  refine ⟨h.sound, h.distinct, fun b hb hseen => ?_⟩
  rcases List.mem_cons.mp hseen with he | hseen
  · obtain rfl := eq_of_distinct h.distinct hb ha he
    refine (h.sound b hb).material ?_
    rw [materialState_of_open (by rw [hactive]; decide), hactive]
    rfl
  · exact h.material b hb hseen

-- ====== steps

theorem settle_next (net : Net) (r : Routes) (ok : Bool) :
    ((machine net roots).next r (.settle ok)).seen = r.seen
      ∧ (∀ x ∈ ((machine net roots).next r (.settle ok)).undo, x ∈ r.undo)
      ∧ (((machine net roots).next r (.settle ok)).mem = r.mem
        ∨ ∃ id, some id ∈ r.undo
          ∧ ((machine net roots).next r (.settle ok)).mem
            = r.mem.filter fun c => c.id != id) := by
  have hmem : (r.store.settle .store ok).1.mem = r.mem :=
    Store.settle_mem _ ok r.store
  show (r.settle ok).1.seen = r.seen ∧ (∀ x ∈ (r.settle ok).1.undo, x ∈ r.undo)
    ∧ ((r.settle ok).1.mem = r.mem ∨ ∃ id, some id ∈ r.undo
      ∧ (r.settle ok).1.mem = r.mem.filter fun c => c.id != id)
  unfold Routes.settle
  dsimp only
  split
  · rename_i id undo hundo
    refine ⟨rfl, fun x hx => ?_, ?_⟩
    · rw [hundo]
      exact List.mem_cons_of_mem _ hx
    · by_cases hbroken : (r.store.settle .store ok).1.broken = true
      · refine .inr ⟨id, by simp [hundo], ?_⟩
        show (if _ then _ else _) = _
        rw [if_pos hbroken, hmem]
      · refine .inl ?_
        show (if _ then _ else _) = _
        rw [if_neg hbroken, hmem]
  · exact ⟨rfl, fun x hx => List.mem_of_mem_drop hx, .inl hmem⟩

/-- What a call does: it leaves memory alone, or writes a change. -/
theorem call_next (net : Net) (r : Routes) (env : Env) (c : Call) :
    ((machine net roots).next r (.call env c)).seen = r.seen
      ∧ (((machine net roots).next r (.call env c)).mem = r.mem
          ∧ ((machine net roots).next r (.call env c)).undo = r.undo
        ∨ ((machine net roots).next r (.call env c)).undo
            = r.undo ++ [c.takesBack]
          ∧ Change net roots env r.mem c
            ((machine net roots).next r (.call env c)).mem) := by
  refine ⟨rfl, ?_⟩
  show ((r.store.call (c.effect net roots env)).1.mem = r.mem ∧ _) ∨ _
  have hmem : (r.store.call (c.effect net roots env)).1.mem
      = (c.effect net roots env r.mem).after r.mem := Store.call_mem _ _
  have hundo : ((machine net roots).next r (.call env c)).undo
      = if r.store.queue.length
          < (r.store.call (c.effect net roots env)).1.queue.length then
        r.undo ++ [c.takesBack] else r.undo := by
    show (if decide (r.store.queue.length
        < (r.store.call (c.effect net roots env)).1.queue.length) = true then
      r.undo ++ [c.takesBack] else r.undo) = _
    simp only [decide_eq_true_eq]
  have hclean : (c.effect net roots env r.mem).Clean := clean_effect c
  rw [hundo]
  show ((r.store.call (c.effect net roots env)).1.mem = r.mem ∧ _)
    ∨ (_ ∧ Change net roots env r.mem c
      (r.store.call (c.effect net roots env)).1.mem)
  rw [hmem]
  unfold Store.call
  rw [show r.store.mem = r.mem from rfl]
  cases heffect : c.effect net roots env r.mem with
  | refused e => exact .inl ⟨rfl, if_neg (by simp)⟩
  | replied a => exact .inl ⟨rfl, if_neg (by simp)⟩
  | spoiled t e =>
      rw [heffect] at hclean
      exact hclean.elim
  | written t reply =>
      exact .inr ⟨if_pos (by simp), change_of_written heffect⟩

/-- A restart that loses nothing is none that is seen in memory. -/
theorem restart_next (hkeeps : r.file = r.mem)
    (h : ∀ a ∈ r.mem, Sound net roots a) :
    (machine net roots).next r .restart
      = { Routes.opened r.mem with seen := r.seen } := by
  have hinit : init net roots storeVersion r.file = .ok r.mem := by
    rw [hkeeps]
    exact init_self.mpr h
  show (Routes.step net roots r .restart).1 = _
  unfold Routes.step
  dsimp only
  rw [hinit]

/-- A look remembers a certificate that is active. -/
theorem look_next (net : Net) (r : Routes) (certificateId : String) :
    (machine net roots).next r (.look certificateId) = r
      ∨ ∃ a ∈ r.mem, a.state = .active
        ∧ (machine net roots).next r (.look certificateId)
          = { r with seen := a.id :: r.seen } := by
  show (Routes.step net roots r (.look certificateId)).1 = r
    ∨ ∃ a ∈ r.mem, a.state = .active
      ∧ (Routes.step net roots r (.look certificateId)).1 = _
  unfold Routes.step
  dsimp only
  split
  · rename_i i a hlocate
    have hid := accepted_of_locate hlocate
    split
    · rename_i hactive
      refine .inr ⟨a, mem_of_locate hlocate, hactive, ?_⟩
      rw [beq_iff_eq.mp hid]
    · exact .inl rfl
  · exact .inl rfl

theorem tidy_next (hrouted : e.routed r = true)
    (h : Tidy net roots r.seen r.mem) :
    Tidy net roots ((machine net roots).next r e).seen
      ((machine net roots).next r e).mem := by
  cases e with
  | call env c =>
      obtain ⟨hseen, hcase⟩ := call_next net r env c
      rw [hseen]
      rcases hcase with ⟨hmem, -⟩ | ⟨-, hchange⟩
      · rw [hmem]
        exact h
      · exact hchange.tidy (promised_of_routed hrouted) h
  | look certificateId =>
      rcases look_next net r certificateId with hsame | hseen
      · rw [hsame]
        exact h
      · obtain ⟨a, ha, hactive, hnext⟩ := hseen
        rw [hnext]
        exact h.look ha hactive
  | settle ok =>
      obtain ⟨hseen, -, hcase⟩ := settle_next net r ok
      rw [hseen]
      rcases hcase with hmem | ⟨id, -, hmem⟩
      · rw [hmem]
        exact h
      · rw [hmem]
        exact h.filter _
  | restart =>
      rw [restart_next (of_decide_eq_true hrouted) h.sound]
      exact h

/-- Memory, the file and what is on its way there hold sound records. -/
def AllSound (net : Net) (roots : Roots) (r : Routes) : Prop :=
  r.store.Holds fun s => ∀ a ∈ s, Sound net roots a

theorem allSound_next (hrouted : e.routed r = true)
    (h : Tidy net roots r.seen r.mem) (hall : AllSound net roots r) :
    AllSound net roots ((machine net roots).next r e) := by
  have hnext : ∀ a ∈ ((machine net roots).next r e).mem,
      Sound net roots a := (tidy_next hrouted h).sound
  cases e with
  | call env c =>
      refine Store.Holds.call hall (fun t reply hw => ?_) fun t e hs => ?_
      · have hchange : Change net roots env r.mem c t := change_of_written hw
        exact (hchange.tidy (promised_of_routed hrouted) h).sound
      · have hclean : (c.effect net roots env r.mem).Clean := clean_effect c
        rw [show c.effect net roots env r.mem = _ from hs] at hclean
        exact hclean.elim
  | look certificateId =>
      rcases look_next net r certificateId with hsame | hseen
      · rw [hsame]
        exact hall
      · obtain ⟨a, ha, hactive, hnext⟩ := hseen
        rw [hnext]
        exact hall
  | settle ok =>
      have hsettled := Store.Holds.settle hall .store ok
      refine ⟨hnext, ?_, ?_⟩
      · show ∀ a ∈ (r.settle ok).1.store.file, _
        unfold Routes.settle
        dsimp only
        split <;> exact hsettled.file
      · show ∀ p ∈ (r.settle ok).1.store.queue, _
        unfold Routes.settle
        dsimp only
        split <;> exact hsettled.queue
  | restart =>
      rw [restart_next (of_decide_eq_true hrouted) h.sound]
      exact Store.holds_opened h.sound

-- ====== selection

/-- No certificate of a domain but one serves it. -/
def Sole (domainId id : String) (s : List Certificate) : Prop :=
  ∀ a ∈ s, a.domainId = domainId → a.serves = true → a.id = id

instance (domainId id : String) (s : List Certificate) :
    Decidable (Sole domainId id s) :=
  inferInstanceAs (Decidable (∀ a ∈ s, _))

/-- What may make another certificate of a domain serve it: to set it
active, to record its material, to prepare its selection, or to import
one. -/
def Event.brings (domainId id : String) (e : Event) (r : Routes) : Bool :=
  match e with
  | .call _ (.registerCustom input) => input.domainId == domainId
  | .call _ c =>
      r.mem.any fun a =>
        a.id != id && a.domainId == domainId && c.activates a.id
  | _ => false

theorem brings_of_activates (ha : a ∈ r.mem) (hid : a.id ≠ id)
    (hdomain : a.domainId = domainId) (hactivates : c.activates a.id = true) :
    (Event.call env c).brings domainId id r = true := by
  have hany : (r.mem.any fun a =>
      a.id != id && a.domainId == domainId && c.activates a.id) = true := by
    rw [List.any_eq_true]
    exact ⟨a, ha, by simp [hid, hdomain, hactivates]⟩
  cases c with
  | registerCustom input => exact absurd hactivates Bool.false_ne_true
  | _ => exact hany

theorem sole_map (h : Sole domainId id s)
    (hf : ∀ a ∈ s, f a = a ∨ Moves roots c a (f a))
    (hbrings : ∀ a ∈ s, a.domainId = domainId → a.id ≠ id →
      c.activates a.id = false) : Sole domainId id (s.map f) := by
  intro b hb hdomain hserves
  obtain ⟨a, ha, rfl⟩ := List.mem_map.mp hb
  rcases hf a ha with hsame | hm
  · rw [hsame] at hdomain hserves ⊢
    exact h a ha hdomain hserves
  · rw [hm.kept.domainId] at hdomain
    rw [hm.kept.id]
    by_cases hid : a.id = id
    · exact hid
    · rcases hm.serves hserves with hold | hnew
      · exact h a ha hdomain hold
      · rw [hbrings a ha hdomain hid] at hnew
        cases hnew

theorem sole_next (hrouted : e.routed r = true)
    (hbrings : e.brings domainId id r = false)
    (ht : Tidy net roots r.seen r.mem) (h : Sole domainId id r.mem) :
    Sole domainId id ((machine net roots).next r e).mem := by
  cases e with
  | call env c =>
      obtain ⟨-, hcase⟩ := call_next net r env c
      rcases hcase with ⟨hmem, -⟩ | ⟨-, hchange⟩
      · rw [hmem]
        exact h
      · rcases hchange.kinds (promised_of_routed hrouted) ht.distinct with
          ⟨f, hmem, hf⟩ | ⟨b, hmem, hb⟩
        · rw [hmem]
          refine sole_map h hf fun a ha hdomain hid => ?_
          rw [← Bool.not_eq_true]
          intro hactivates
          rw [brings_of_activates ha hid hdomain hactivates] at hbrings
          cases hbrings
        · rw [hmem]
          intro a ha hdomain hserves
          rcases List.mem_append.mp ha with ha | ha
          · exact h a ha hdomain hserves
          · rw [List.mem_singleton] at ha
            subst ha
            obtain ⟨input, rfl, hinput⟩ := hb.serves hserves
            have hsame : (input.domainId == domainId) = true :=
              beq_iff_eq.mpr (hinput.trans hdomain)
            rw [show (input.domainId == domainId) = false from hbrings]
              at hsame
            cases hsame
  | look certificateId =>
      rcases look_next net r certificateId with hsame | hseen
      · rw [hsame]
        exact h
      · obtain ⟨a, ha, hactive, hnext⟩ := hseen
        rw [hnext]
        exact h
  | settle ok =>
      obtain ⟨-, -, hcase⟩ := settle_next net r ok
      rcases hcase with hmem | ⟨taken, -, hmem⟩
      · rw [hmem]
        exact h
      · rw [hmem]
        exact fun a ha => h a (List.mem_of_mem_filter ha)
  | restart =>
      rw [restart_next (of_decide_eq_true hrouted) ht.sound]
      exact h

theorem superseded_self (now : Instant) (a : Certificate) :
    Certificate.superseded now a a = a := if_neg fun h => h.1 rfl

/-- What a selection leaves active of the domain is the selected one. -/
theorem eq_of_superseded_serves {selected : Certificate}
    (hdomain : (Certificate.superseded now selected a).domainId
      = selected.domainId)
    (hserves : (Certificate.superseded now selected a).serves = true) :
    (Certificate.superseded now selected a).id = selected.id := by
  unfold Certificate.superseded at hdomain hserves ⊢
  split at hserves
  · unfold Certificate.serves at hserves
    simp at hserves
  · rename_i hothers
    rw [if_neg hothers] at hdomain ⊢
    by_contra hne
    exact hothers ⟨hne, hdomain, hserves⟩

/-- A selection that is not refused leaves its certificate the only one
that serves the domain. -/
theorem sole_of_commitSelection (ha : a ∈ s)
    (h : ∀ f, commitSelection now s a ≠ .refused f) :
    a.serves = true ∧ a ∈ (commitSelection now s a).after s
      ∧ Sole a.domainId a.id ((commitSelection now s a).after s) := by
  unfold commitSelection at h ⊢
  by_cases hserves : a.serves = true
  · have hpass : ¬(!a.serves) = true := by simp [hserves]
    refine ⟨hserves, ?_⟩
    rw [if_neg hpass]
    by_cases hothers : (s.any fun c => c.id != a.id
        && c.domainId == a.domainId && c.serves) = true
    · rw [if_pos hothers]
      refine ⟨List.mem_map.mpr ⟨a, ha, superseded_self now a⟩, ?_⟩
      intro b hb hdomain hactive
      obtain ⟨x, hx, rfl⟩ := List.mem_map.mp hb
      exact eq_of_superseded_serves hdomain hactive
    · rw [if_neg hothers]
      refine ⟨ha, fun b hb hdomain hactive => ?_⟩
      by_contra hne
      refine hothers (List.any_eq_true.mpr ⟨b, hb, ?_⟩)
      simp [hne, hdomain, hactive]
  · have hrefused : (!a.serves) = true := by simpa using hserves
    exact absurd (if_pos hrefused) (h _)

theorem sole_of_commit (hcommit : ∀ f, (machine net roots).answer r
      (.call env (.commitSelection certificateId)) ≠ .rejected f) :
    ∃ a ∈ ((machine net roots).next r
        (.call env (.commitSelection certificateId))).mem,
      a.id = certificateId ∧ a.serves = true
        ∧ Sole a.domainId certificateId ((machine net roots).next r
          (.call env (.commitSelection certificateId))).mem := by
  have hmem : ((machine net roots).next r
      (.call env (.commitSelection certificateId))).mem
      = ((Call.commitSelection certificateId).effect net roots env
        r.mem).after r.mem := Store.call_mem _ _
  have haccepted : ∀ f, (Call.commitSelection certificateId).effect net roots
      env r.mem ≠ .refused f := by
    intro f heffect
    refine hcommit f ?_
    show (r.store.call _).2 = _
    unfold Store.call
    rw [show r.store.mem = r.mem from rfl, heffect]
  have heffect : ∀ i a, locate (fun c => c.id == certificateId) r.mem
      = some (i, a) → (Call.commitSelection certificateId).effect net roots
        env r.mem = commitSelection env.now r.mem a := by
    intro i a hlocate
    simp only [Call.effect]
    unfold onCertificate
    rw [hlocate]
  cases hlocate : locate (fun c => c.id == certificateId) r.mem with
  | none =>
      refine absurd ?_ (haccepted (refuse "certificate_not_found"
        "Certificate not found" 404))
      simp only [Call.effect]
      unfold onCertificate
      rw [hlocate]
  | some found =>
      obtain ⟨i, a⟩ := found
      have haccepts := accepted_of_locate hlocate
      have hid : a.id = certificateId := beq_iff_eq.mp haccepts
      rw [heffect i a hlocate] at haccepted
      obtain ⟨hserves, hleft, hsole⟩ :=
        sole_of_commitSelection (mem_of_locate hlocate) haccepted
      rw [hmem, heffect i a hlocate]
      exact ⟨a, hleft, hid, hserves, hid ▸ hsole⟩

-- ====== retirement

/-- A retired record is still there, as it was but for its purge mark. -/
def Rests (a : Certificate) (s : List Certificate) : Prop :=
  ∃ b ∈ s, b = a ∨ a.materialPurgedAt = none
    ∧ ∃ purgedAt : Instant, b = { a with
      materialPurgedAt := some purgedAt
      updatedAt := purgedAt }

/-- An import that is written is of an id no record has. -/
theorem Change.takesBack_ne (h : Change net roots env s c t) (ha : a ∈ s) :
    c.takesBack ≠ some a.id := by
  cases h with
  | imported input b hsound hpaths hnew htakes hdomain hstate =>
      rw [htakes]
      exact fun he => hnew a ha (Option.some.inj he).symm
  | moved c i x b hi hm htakes =>
      rw [htakes]
      exact fun he => nomatch he
  | created => exact fun he => nomatch he
  | selected => exact fun he => nomatch he

theorem Rests.moves (hretired : a.state = .retired)
    (hf : ∀ b ∈ s, f b = b ∨ Moves roots c b (f b)) (h : Rests a s) :
    Rests a (s.map f) := by
  obtain ⟨b, hb, hrest⟩ := h
  refine ⟨f b, List.mem_map_of_mem hb, ?_⟩
  rcases hf b hb with hsame | hm
  · rw [hsame]
    exact hrest
  · have hstate : b.state = .retired := by
      rcases hrest with rfl | ⟨-, purgedAt, rfl⟩
      · exact hretired
      · exact hretired
    generalize f b = b' at hm
    cases hm with
    | opened b' hkept hfrom => exact absurd hstate hfrom
    | retired now operationId hsafe hfrom => exact absurd hstate hfrom
    | purged purgedAt hfrom hnone =>
        rcases hrest with rfl | ⟨-, purgedAt', rfl⟩
        · exact .inr ⟨hnone, purgedAt, rfl⟩
        · cases hnone

theorem rests_next (hrouted : e.routed r = true)
    (ht : Tidy net roots r.seen r.mem) (hretired : a.state = .retired)
    (hundo : some a.id ∉ r.undo) (h : Rests a r.mem) :
    Rests a ((machine net roots).next r e).mem
      ∧ some a.id ∉ ((machine net roots).next r e).undo := by
  have hid : ∃ b ∈ r.mem, b.id = a.id := by
    obtain ⟨b, hb, hrest⟩ := h
    refine ⟨b, hb, ?_⟩
    rcases hrest with rfl | ⟨-, purgedAt, rfl⟩ <;> rfl
  cases e with
  | call env c =>
      obtain ⟨-, hcase⟩ := call_next net r env c
      rcases hcase with ⟨hmem, hsame⟩ | ⟨hqueued, hchange⟩
      · rw [hmem, hsame]
        exact ⟨h, hundo⟩
      · rw [hqueued]
        constructor
        · rcases hchange.kinds (promised_of_routed hrouted) ht.distinct with
            ⟨f, hmem, hf⟩ | ⟨b, hmem, hb⟩
          · rw [hmem]
            exact h.moves hretired hf
          · rw [hmem]
            obtain ⟨x, hx, hrest⟩ := h
            exact ⟨x, List.mem_append_left [b] hx, hrest⟩
        · intro hmem
          rcases List.mem_append.mp hmem with hmem | hmem
          · exact hundo hmem
          · rw [List.mem_singleton] at hmem
            obtain ⟨b, hb, he⟩ := hid
            exact hchange.takesBack_ne hb (he ▸ hmem.symm)
  | look certificateId =>
      rcases look_next net r certificateId with hsame | hseen
      · rw [hsame]
        exact ⟨h, hundo⟩
      · obtain ⟨x, hx, hactive, hnext⟩ := hseen
        rw [hnext]
        exact ⟨h, hundo⟩
  | settle ok =>
      obtain ⟨-, hleft, hcase⟩ := settle_next net r ok
      refine ⟨?_, fun hmem => hundo (hleft _ hmem)⟩
      rcases hcase with hmem | ⟨taken, htaken, hmem⟩
      · rw [hmem]
        exact h
      · rw [hmem]
        obtain ⟨b, hb, hrest⟩ := h
        refine ⟨b, List.mem_filter.mpr ⟨hb, ?_⟩, hrest⟩
        have hsame : b.id = a.id := by
          rcases hrest with rfl | ⟨-, purgedAt, rfl⟩ <;> rfl
        rw [bne_iff_ne, hsame]
        exact fun he => hundo (he ▸ htaken)
  | restart =>
      rw [restart_next (of_decide_eq_true hrouted) ht.sound]
      exact ⟨h, List.not_mem_nil⟩

-- ====== runs

/-- What a state of a routed run promises. -/
structure Trusted (net : Net) (roots : Roots) (r : Routes) : Prop where
  /-- What is held and what is in the file would be loaded as it is. -/
  memory : init net roots storeVersion r.mem = .ok r.mem
  file : init net roots storeVersion r.file = .ok r.file
  /-- A selection that is not refused leaves its certificate the only one
  that serves the domain, for as long as nothing brings another. -/
  selection : ∀ env certificateId,
    (∀ f, (machine net roots).answer r
      (.call env (.commitSelection certificateId)) ≠ .rejected f) →
    ∃ a ∈ ((machine net roots).next r
        (.call env (.commitSelection certificateId))).mem,
      a.id = certificateId ∧ a.serves = true
        ∧ ∀ later : List Event,
          (machine net roots).Allowed
            (fun r e => e.routed r = true
              ∧ e.brings a.domainId certificateId r = false)
            ((machine net roots).next r
              (.call env (.commitSelection certificateId))) later →
          Sole a.domainId certificateId ((machine net roots).run
            ((machine net roots).next r
              (.call env (.commitSelection certificateId))) later).mem
  /-- A retired record whose own import is not on its way any more stays
  what it is but for its purge mark. -/
  retirement : ∀ a ∈ r.mem, a.state = .retired → some a.id ∉ r.undo →
    ∀ later : List Event,
      (machine net roots).Allowed (fun r e => e.routed r = true) r later →
      Rests a ((machine net roots).run r later).mem

theorem sole_run
    (hrouted : (machine net roots).Allowed (fun r e => e.routed r = true
      ∧ e.brings domainId id r = false) r is)
    (ht : Tidy net roots r.seen r.mem) (h : Sole domainId id r.mem) :
    Sole domainId id ((machine net roots).run r is).mem := by
  have hrun := Machine.invariant_of_allowed
    (P := fun r : Routes => Tidy net roots r.seen r.mem
      ∧ Sole domainId id r.mem)
    (fun r e hok h => ⟨tidy_next hok.1 h.1,
      sole_next hok.1 hok.2 h.1 h.2⟩) hrouted ⟨ht, h⟩
  exact hrun.2

theorem rests_run
    (hrouted : (machine net roots).Allowed (fun r e => e.routed r = true) r is)
    (ht : Tidy net roots r.seen r.mem) (hretired : a.state = .retired)
    (hundo : some a.id ∉ r.undo) (h : Rests a r.mem) :
    Rests a ((machine net roots).run r is).mem := by
  have hrun := Machine.invariant_of_allowed
    (P := fun r : Routes => Tidy net roots r.seen r.mem
      ∧ Rests a r.mem ∧ some a.id ∉ r.undo)
    (fun r e hok h => ⟨tidy_next hok h.1,
      rests_next hok h.1 hretired h.2.2 h.2.1⟩) hrouted ⟨ht, h, hundo⟩
  exact hrun.2.1

theorem Tidy.trusted (ht : Tidy net roots r.seen r.mem)
    (hall : AllSound net roots r) : Trusted net roots r where
  memory := init_self.mpr ht.sound
  file := init_self.mpr hall.file
  selection := by
    intro env certificateId hcommit
    obtain ⟨a, ha, hid, hserves, hsole⟩ := sole_of_commit hcommit
    refine ⟨a, ha, hid, hserves, fun later hlater => ?_⟩
    exact sole_run hlater (tidy_next rfl ht) hsole
  retirement := by
    intro a ha hretired hundo later hlater
    exact rests_run hlater ht hretired hundo ⟨a, ha, .inl rfl⟩

/-- Every state of a routed run from a store that was loaded, whatever
writes fail and whatever interleaves, is one the loader takes as it is,
where a selection selects and a retirement is final. -/
theorem routed_run_trusted (net : Net) (roots : Roots) {version : Nat}
    {stored start : List Certificate}
    (hinit : init net roots version stored = .ok start)
    (hdistinct : (start.map Certificate.id).Nodup) (is : List Event)
    (hrouted : (machine net roots).Allowed (fun r e => e.routed r = true)
      (Routes.opened start) is) :
    Trusted net roots ((machine net roots).run (Routes.opened start) is) := by
  have hsound : ∀ a ∈ start, Sound net roots a := by
    intro a ha
    obtain ⟨-, hall⟩ := init_eq_ok.mp hinit
    obtain ⟨x, -, hx⟩ := Result.exists_of_forall₂ hall ha
    exact sound_of_check hx
  have hstart : Tidy net roots (Routes.opened start).seen
        (Routes.opened start).mem
      ∧ AllSound net roots (Routes.opened start) :=
    ⟨⟨hsound, hdistinct, fun _ _ hseen => nomatch hseen⟩,
      Store.holds_opened hsound⟩
  have hrun := Machine.invariant_of_allowed
    (P := fun r : Routes => Tidy net roots r.seen r.mem
      ∧ AllSound net roots r)
    (fun r e hok h => ⟨tidy_next hok h.1, allSound_next hok h.1 h.2⟩)
    hrouted hstart
  exact hrun.1.trusted hrun.2

def sampleUuid : Uuid :=
  ⟨"00000000-0000-4000-8000-000000000000", by decide⟩

def sampleFingerprint : String :=
  ":".intercalate (List.replicate 32 "AB")

/-- A certificate that is imported for the domain. -/
def importing (id : String) : Event :=
  .call ⟨⟨1000⟩, sampleUuid⟩ (.registerCustom {
    certificateId := id
    domainId := "domain"
    serverId := "server"
    domains := ["example.org"]
    certificatePath := some
      ("/var/lib/yunpanel/custom-certificates/" ++ id ++ "/cert.pem")
    fullchainPath := some
      ("/var/lib/yunpanel/custom-certificates/" ++ id ++ "/fullchain.pem")
    privateKeyPath := some
      ("/var/lib/yunpanel/custom-certificates/" ++ id ++ "/privkey.pem")
    subject := none
    issuer := none
    subjectAltName := none
    validFrom := some ⟨0⟩
    validTo := some ⟨7776000000⟩
    fingerprint256 := some sampleFingerprint
    materialDigest := some (String.ofList (List.replicate 64 'a'))
    purpose := "web" })

def firstId : String := "11111111-1111-4111-8111-111111111111"

def secondId : String := "22222222-2222-4222-8222-222222222222"

/-- Two imports, the first of them selected before the second came. -/
def replacing : List Event :=
  [importing firstId, .settle true,
    .call ⟨⟨2000⟩, sampleUuid⟩ (.commitSelection firstId),
    importing secondId, .settle true]

theorem routed_run_trusted_sample :
    Trusted Domains.asciiPlatform.toNet sampleRoots
      ((machine Domains.asciiPlatform.toNet sampleRoots).run
        (Routes.opened []) replacing) :=
  routed_run_trusted Domains.asciiPlatform.toNet sampleRoots
    (show init Domains.asciiPlatform.toNet sampleRoots storeVersion []
      = .ok [] from rfl)
    List.nodup_nil replacing (by decide +kernel)

/-- Until it is selected, a replacement serves beside what it is to
replace. -/
theorem replacement_serves_beside :
    (machine Domains.asciiPlatform.toNet sampleRoots).Allowed
        (fun r e => e.routed r = true) (Routes.opened []) replacing
      ∧ (((machine Domains.asciiPlatform.toNet sampleRoots).run
          (Routes.opened []) replacing).mem.filter fun c =>
            c.domainId == "domain" && c.serves).map Certificate.id
        = [firstId, secondId] := by
  decide +kernel

example : Text.isHex ':' = false := by decide +kernel

end Yunpanel.Certificates
