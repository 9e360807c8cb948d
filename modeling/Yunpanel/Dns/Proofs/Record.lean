/-
Which record values come back from PowerDNS as they went in.

A value the panel has accepted is normal: words one space apart, a text, or
a quoted value. Words lose nothing but the final dot they get
(`comesBack_words`), and a text is quoted chunk by chunk and read back as a
whole (`unquoteFrom_chunks`), so both come back unless the text is empty.
The value of a CAA record loses its quotes once when it is written and again
each time it is saved, and the spaces around it, so it comes back exactly
where there are none left to lose (`Settled`).
-/
import Yunpanel.Domains.Proofs.Names
import Yunpanel.Domains.Proofs.Runs
import Yunpanel.Dns.Record

namespace Yunpanel.Dns

open DesiredState Lib.Result

variable {p : Platform}

-- ====== statements

/-- A value that is opened in the panel and saved again is accepted and
leaves the content of the zone as it is; a text is shown as it was given. -/
def ComesBack (p : Platform) (type : RecordType) (value : List Char) : Prop :=
  ∃ content saved, powerDnsContent type value = .ok content
    ∧ recordValue p type (canonicalContent type content) = .ok saved
    ∧ powerDnsContent type saved = .ok content
    ∧ (type = .txt → canonicalContent type content = value)

/-- The value of a CAA record, its quotes aside, has neither quotes nor
spaces at its ends. -/
structure Bare (core : List Char) : Prop where
  nonempty : core ≠ []
  trimmed : Text.trim core = core
  unquoted : stripQuotes core = core

/-- A text is not empty, and the value of a CAA record is bare. -/
def Settled : RecordType → List Char → Prop
  | .txt, value => value ≠ []
  | .caa, value => ∀ parts ∈ matchCaa value, Bare (stripQuotes parts.2.2)
  | _, _ => True

-- ====== words

def Spaceless (cs : List Char) : Prop := ∀ c ∈ cs, Text.isSpace c = false

/-- What a split by spaces is made of. -/
structure Word (w : List Char) : Prop where
  nonempty : w ≠ []
  spaceless : Spaceless w

theorem splitSpaces_ne_nil (cs : List Char) : splitSpaces cs ≠ [] := by
  induction cs with
  | nil => simp [splitSpaces]
  | cons c cs ih =>
      unfold splitSpaces
      split
      · split
        · exact ih
        · simp
      · split <;> simp

variable {w cs t ds value flags tag : List Char} {ws : List (List Char)}
  {c : Char}

theorem splitSpaces_word (h : Spaceless w) :
    splitSpaces w = [w] := by
  induction w with
  | nil => rfl
  | cons c cs ih =>
      have hc := h c (by simp)
      have hcs := ih fun d hd => h d (List.mem_cons_of_mem c hd)
      unfold splitSpaces
      rw [if_neg (by simp [hc]), hcs]

variable {rest : List Char} {n max k : Nat} {field : String}

theorem splitSpaces_append (h : Spaceless w)
    (hrest : rest.head?.any Text.isSpace = false) :
    splitSpaces (w ++ ' ' :: rest) = w :: splitSpaces rest := by
  induction w with
  | nil =>
      have hspace : Text.isSpace ' ' = true := by decide
      rw [List.nil_append, splitSpaces, if_pos hspace,
        if_neg (by simp [hrest])]
  | cons c cs ih =>
      have hc := h c (by simp)
      have hcs := ih fun d hd => h d (List.mem_cons_of_mem c hd)
      rw [List.cons_append, splitSpaces, if_neg (by simp [hc]), hcs]

theorem spaced_singleton (w : List Char) : spaced [w] = w := by
  simp [spaced, List.intercalate]

theorem spaced_cons (w w' : List Char) (ws : List (List Char)) :
    spaced (w :: w' :: ws) = w ++ ' ' :: spaced (w' :: ws) := by
  simp [spaced, List.intercalate]

theorem head?_spaced (h : w ≠ []) : (spaced (w :: ws)).head? = w.head? := by
  cases ws with
  | nil => rw [spaced_singleton]
  | cons w' ws =>
      rw [spaced_cons]
      cases w with
      | nil => exact absurd rfl h
      | cons c cs => rfl

theorem Word.head? (h : Word w) :
    w.head?.any Text.isSpace = false := by
  cases w with
  | nil => rfl
  | cons c cs => exact h.spaceless c (by simp)

theorem Word.getLast? (h : Word w) :
    w.getLast?.any Text.isSpace = false := by
  cases hlast : w.getLast? with
  | none => rfl
  | some c => exact h.spaceless c (List.mem_of_getLast? hlast)

theorem getLast?_spaced (h : ∀ w ∈ ws, Word w) :
    (spaced ws).getLast?.any Text.isSpace = false := by
  induction ws with
  | nil => rfl
  | cons w ws ih =>
      rw [List.forall_mem_cons] at h
      cases ws with
      | nil =>
          rw [spaced_singleton]
          exact h.1.getLast?
      | cons w' ws =>
          have hne : spaced (w' :: ws) ≠ [] := by
            intro hnil
            have hword := (h.2 w' (by simp)).nonempty
            have hhead : (spaced (w' :: ws)).head? = w'.head? :=
              head?_spaced hword
            rw [hnil] at hhead
            cases w' with
            | nil => exact hword rfl
            | cons c cs => cases hhead
          rw [spaced_cons, List.getLast?_append_of_ne_nil _ (by simp),
            List.getLast?_cons_of_ne_nil hne]
          exact ih h.2

/-- Words come apart where they were put together. -/
theorem splitSpaces_spaced (hne : ws ≠ []) (h : ∀ w ∈ ws, Word w) :
    splitSpaces (spaced ws) = ws := by
  induction ws with
  | nil => exact absurd rfl hne
  | cons w ws ih =>
      rw [List.forall_mem_cons] at h
      cases ws with
      | nil =>
          rw [spaced_singleton]
          exact splitSpaces_word h.1.spaceless
      | cons w' ws =>
          have hw' := h.2 w' (by simp)
          rw [spaced_cons, splitSpaces_append h.1.spaceless, ih (by simp) h.2]
          rw [head?_spaced hw'.nonempty]
          exact hw'.head?

theorem trim_of_ends (hhead : cs.head?.any Text.isSpace = false)
    (hlast : cs.getLast?.any Text.isSpace = false) :
    Text.trim cs = cs := by
  have hdrop : ∀ ds : List Char, ds.head?.any Text.isSpace = false →
      ds.dropWhile Text.isSpace = ds := by
    intro ds hds
    cases ds with
    | nil => rfl
    | cons d ds =>
        have hd : ¬Text.isSpace d = true := by simpa using hds
        exact List.dropWhile_cons_of_neg hd
  unfold Text.trim
  rw [hdrop cs hhead, hdrop cs.reverse, List.reverse_reverse]
  rw [List.head?_reverse]
  exact hlast

theorem trim_spaced (h : ∀ w ∈ ws, Word w) :
    Text.trim (spaced ws) = spaced ws := by
  cases ws with
  | nil => rfl
  | cons w ws =>
      refine trim_of_ends ?_ (getLast?_spaced h)
      have hw := h w (by simp)
      rw [head?_spaced hw.nonempty]
      exact hw.head?

-- ====== names, numbers

theorem isHostChar_of_isDigit (h : c.isDigit = true) :
    Domains.isHostChar c = true := by
  have hdigit : Text.isDigit c = true := by
    simp only [Char.isDigit, Bool.and_eq_true, decide_eq_true_eq] at h
    simp only [Text.isDigit, Bool.and_eq_true, decide_eq_true_eq]
    exact h
  simp [Domains.isHostChar, Domains.isAlnum, hdigit]

/-- A word of a normal value: of the alphabet of host names, and no longer
than one. -/
structure Part (w : List Char) : Prop where
  nonempty : w ≠ []
  plain : ∀ c ∈ w, Domains.isHostChar c = true
  length : w.length ≤ 253

theorem Part.word (h : Part w) : Word w := by
  refine ⟨h.nonempty, fun c hc => ?_⟩
  obtain ⟨hlo, hhi, -⟩ := Domains.toNat_of_isHostChar (h.plain c hc)
  exact Domains.isSpace_of_range (by omega) (by omega)

theorem part_decimal (h : n < 10 ^ 10) : Part (decimal n) := by
  have hlength := (Nat.length_toDigits_le_iff (b := 10) (n := n) (k := 10)
    (by omega) (by omega)).mpr h
  refine ⟨Nat.toDigits_ne_nil, fun c hc => ?_, ?_⟩
  · exact isHostChar_of_isDigit
      (Nat.isDigit_of_mem_toDigits (by omega) (by omega) hc)
  · show (Nat.toDigits 10 n).length ≤ 253
    omega

/-- A number is read back as it was written. -/
theorem uint_decimal (field : String) (h : n ≤ max) (hmax : max < 10 ^ 10) :
    uint (decimal n) field max = .ok n := by
  have hlength := (Nat.length_toDigits_le_iff (b := 10) (n := n) (k := 10)
    (by omega) (by omega)).mpr (by omega : n < 10 ^ 10)
  have hpos : 0 < (Nat.toDigits 10 n).length := Nat.length_toDigits_pos
  have hdigits : (Nat.toDigits 10 n).all Text.isDigit = true := by
    rw [List.all_eq_true]
    intro c hc
    have hdigit := Nat.isDigit_of_mem_toDigits (by omega) (by omega) hc
    simp only [Char.isDigit, Bool.and_eq_true, decide_eq_true_eq] at hdigit
    simp only [Text.isDigit, Bool.and_eq_true, decide_eq_true_eq]
    exact hdigit
  have hread : Nat.ofDigitChars 10 (Nat.toDigits 10 n) 0 = n :=
    Nat.ofDigitChars_ten_toDigits
  unfold uint decimal
  rw [hread, hdigits, if_neg, if_neg (by omega)]
  simp only [Bool.not_true, Bool.false_or, Bool.or_eq_true, decide_eq_true_eq]
  omega

theorem uint_eq_ok (h : uint cs field max = .ok n) :
    n = Nat.ofDigitChars 10 cs 0 ∧ n ≤ max ∧ cs.all Text.isDigit = true
      ∧ 1 ≤ cs.length := by
  unfold uint at h
  split at h
  · cases h
  · rename_i hshape
    split at h
    · cases h
    · rename_i hmax
      have hn := Except.ok.inj h
      simp only [Bool.or_eq_true, Bool.not_eq_true', decide_eq_true_eq,
        not_or, Bool.not_eq_false] at hshape
      exact ⟨hn.symm, by omega, hshape.1.1, by omega⟩

/-- A host name as the panel stores it. -/
structure Target (p : Platform) (t : List Char) : Prop extends Part t where
  fixed : ∀ field, DesiredState.fqdn p.toNet t field = .ok t
  undotted : t.getLast? ≠ some '.'

theorem target_of_fqdn (h : DesiredState.fqdn p.toNet cs field = .ok t) :
    Target p t := by
  unfold DesiredState.fqdn domain at h
  split at h
  · rename_i names hnames
    have ht := Except.ok.inj h
    have hhost := (Domains.isHostname_of_normalizeDomains p.toNet hnames).1
    obtain ⟨-, hname⟩ := (Domains.assertDomainName_eq_ok p.toNet).mp hhost
    have hplain : ∀ c ∈ t, Domains.isHostChar c = true := by
      rw [← ht]
      exact hname.isHostChar
    have hundotted : t.getLast? ≠ some '.' := by
      rw [← ht]
      exact hname.getLast?
    refine ⟨⟨?_, hplain, ?_⟩, fun field => ?_, hundotted⟩
    · intro hnil
      have hempty : names.primary.toList = [] := ht.trans hnil
      exact hname.nonempty (String.toList_inj.mp hempty)
    · have hlength := hname.length
      have hrange : ∀ c ∈ t, c.toNat < 0x80 := by
        intro c hc
        obtain ⟨-, hhi, -⟩ := Domains.toNat_of_isHostChar (hplain c hc)
        omega
      rw [← String.ofList_toList (s := names.primary), ht,
        Domains.length_of_range hrange] at hlength
      exact hlength
    · unfold DesiredState.fqdn domain
      rw [Text.stripDot, if_neg hundotted, ← ht, String.ofList_toList,
        Domains.normalizeDomains_of_isHostname p.toNet hhost]
  · cases h

theorem Target.word_fqdn (h : Target p t) : Word (fqdn t) := by
  have hspace : Text.isSpace '.' = false := by decide
  unfold fqdn
  rw [Text.stripDot, if_neg h.undotted]
  refine ⟨by simp, fun c hc => ?_⟩
  rcases List.mem_append.mp hc with hc | hc
  · exact h.word.spaceless c hc
  · rw [List.mem_singleton.mp hc, hspace]

theorem Target.stripDot_fqdn (h : Target p t) :
    Text.stripDot (fqdn t) = t := by
  have hstrip : Text.stripDot t = t := if_neg h.undotted
  unfold fqdn
  rw [hstrip]
  unfold Text.stripDot
  simp

-- ====== accepted

/-- The UTF-16 units of a list of characters. -/
def size (cs : List Char) : Nat := (cs.map Text.units).sum

theorem size_append (cs ds : List Char) :
    size (cs ++ ds) = size cs + size ds := by
  simp [size]

theorem size_cons (c : Char) (cs : List Char) :
    size (c :: cs) = Text.units c + size cs := by
  simp [size]

theorem units_pos (c : Char) : 1 ≤ Text.units c := by
  unfold Text.units
  split <;> omega

theorem size_pos (h : cs ≠ []) : 1 ≤ size cs := by
  cases cs with
  | nil => exact absurd rfl h
  | cons c cs =>
      have hc := units_pos c
      rw [size_cons]
      omega

theorem size_sublist (h : cs.Sublist ds) :
    size cs ≤ size ds := by
  induction h with
  | slnil => exact Nat.le_refl _
  | cons d _ ih =>
      rw [size_cons]
      omega
  | cons_cons d _ ih =>
      rw [size_cons, size_cons]
      omega

theorem size_plain (h : ∀ c ∈ cs, c.toNat < 0x80) :
    size cs = cs.length := by
  have hlength := Domains.length_of_range h
  unfold Text.length at hlength
  rw [String.toList_ofList] at hlength
  exact hlength

/-- What the first check of `recordValue` lets through. -/
structure Accepted (cs : List Char) : Prop where
  nonempty : cs ≠ []
  size : size cs ≤ 4096
  allowed : ∀ c ∈ cs, isForbidden c = false

theorem recordValue_of_accepted {type : RecordType} (h : Accepted cs) :
    recordValue p type cs = normalizeValue p type (Text.trim cs) := by
  have hpos := size_pos h.nonempty
  have hsize := h.size
  have hany : cs.any isForbidden = false := by
    rw [List.any_eq_false]
    intro c hc
    rw [h.allowed c hc]
    exact Bool.false_ne_true
  unfold recordValue Text.length
  rw [String.toList_ofList, hany, if_neg]
  unfold Dns.size at hpos hsize
  simp only [Bool.or_false, Bool.or_eq_true, decide_eq_true_eq]
  omega

theorem accepted_of_recordValue {type : RecordType}
    (h : recordValue p type cs = .ok value) :
    Accepted cs ∧ normalizeValue p type (Text.trim cs) = .ok value := by
  unfold recordValue Text.length at h
  rw [String.toList_ofList] at h
  split at h
  · cases h
  · rename_i hcheck
    simp only [Bool.or_eq_true, decide_eq_true_eq, not_or,
      Bool.not_eq_true] at hcheck
    refine ⟨⟨?_, ?_, ?_⟩, h⟩
    · rintro rfl
      simp at hcheck
    · unfold size
      omega
    · intro c hc
      have hany := List.any_eq_false.mp hcheck.2 c hc
      exact Bool.not_eq_true _ ▸ hany

theorem trim_sublist (cs : List Char) : (Text.trim cs).Sublist cs := by
  have hdrop : (cs.dropWhile Text.isSpace).Sublist cs :=
    List.dropWhile_sublist _
  rw [Text.trim_eq]
  exact (List.rdropWhile_prefix _ _).sublist.trans hdrop

/-- A part of an accepted value is accepted unless it is empty. -/
theorem Accepted.sublist (h : Accepted ds) (hsub : cs.Sublist ds)
    (hne : cs ≠ []) : Accepted cs :=
  ⟨hne, (size_sublist hsub).trans h.size,
    fun c hc => h.allowed c (hsub.subset hc)⟩

theorem isForbidden_of_range (h : 0x20 ≤ c.toNat) :
    isForbidden c = false := by
  unfold isForbidden
  simp only [Bool.or_eq_false_iff, beq_eq_false_iff_ne]
  refine ⟨⟨?_, ?_⟩, by omega⟩
  · rintro rfl
    revert h
    decide
  · rintro rfl
    revert h
    decide

/-- Not too many words are accepted. -/
theorem accepted_spaced (hne : ws ≠ []) (hlength : ws.length ≤ 7)
    (h : ∀ w ∈ ws, Part w) :
    Accepted (spaced ws) := by
  have hrange : ∀ c ∈ spaced ws, 0x20 ≤ c.toNat ∧ c.toNat < 0x80 := by
    clear hne hlength
    induction ws with
    | nil => simp [spaced, List.intercalate]
    | cons w ws ih =>
        rw [List.forall_mem_cons] at h
        have hw : ∀ c ∈ w, 0x20 ≤ c.toNat ∧ c.toNat < 0x80 := by
          intro c hc
          obtain ⟨hlo, hhi, -⟩ := Domains.toNat_of_isHostChar (h.1.plain c hc)
          omega
        cases ws with
        | nil =>
            rw [spaced_singleton]
            exact hw
        | cons w' ws =>
            intro c hc
            rw [spaced_cons] at hc
            rcases List.mem_append.mp hc with hc | hc
            · exact hw c hc
            · rcases List.mem_cons.mp hc with rfl | hc
              · decide
              · exact ih h.2 c hc
  have hbound : (spaced ws).length ≤ ws.length * 254 := by
    clear hne hlength hrange
    induction ws with
    | nil => simp [spaced, List.intercalate]
    | cons w ws ih =>
        rw [List.forall_mem_cons] at h
        have hw := h.1.length
        have hws := ih h.2
        cases ws with
        | nil =>
            rw [spaced_singleton, List.length_singleton]
            omega
        | cons w' ws =>
            rw [spaced_cons, List.length_append, List.length_cons]
            simp only [List.length_cons] at hws ⊢
            omega
  refine ⟨?_, ?_, fun c hc => isForbidden_of_range (hrange c hc).1⟩
  · intro hnil
    have hsplit := splitSpaces_spaced hne fun w hw => (h w hw).word
    rw [hnil] at hsplit
    have hempty := h [] (by rw [← hsplit]; simp [splitSpaces])
    exact hempty.nonempty rfl
  · rw [size_plain fun c hc => (hrange c hc).2]
    omega

-- ====== words

/-- Words come back where the content is words, is shown as the words it
was made of, and they are normal. -/
theorem comesBack_words {type : RecordType} (contents : List (List Char))
    (htype : type ≠ .txt) (hne : ws ≠ []) (hlength : ws.length ≤ 7)
    (hparts : ∀ w ∈ ws, Part w) (hnormal : splitSpaces (spaced ws) = ws →
      normalizeValue p type (spaced ws) = .ok (spaced ws))
    (hwritten : splitSpaces (spaced ws) = ws →
      powerDnsContent type (spaced ws) = .ok (spaced contents))
    (hcontents : ∀ w ∈ contents, Word w) (hcontents_ne : contents ≠ [])
    (hshown : Text.trim (spaced contents) = spaced contents →
      splitSpaces (spaced contents) = contents →
      canonicalContent type (spaced contents) = spaced ws) :
    ComesBack p type (spaced ws) := by
  have hwords : ∀ w ∈ ws, Word w := fun w hw => (hparts w hw).word
  have hsplit := splitSpaces_spaced hne hwords
  have hshow := hshown (trim_spaced hcontents)
    (splitSpaces_spaced hcontents_ne hcontents)
  refine ⟨spaced contents, spaced ws, hwritten hsplit, ?_, hwritten hsplit,
    fun h => absurd h htype⟩
  rw [hshow, recordValue_of_accepted (accepted_spaced hne hlength hparts),
    trim_spaced hwords]
  exact hnormal hsplit

theorem Word.isEmpty (h : Word w) : w.isEmpty = false := by
  cases w with
  | nil => exact absurd rfl h.nonempty
  | cons c cs => rfl

theorem canonicalWords_of {count : Nat}
    {shown : List (List Char) → List (List Char)}
    (hsplit : splitSpaces value = ws) (hcount : ws.length = count)
    (h : ∀ w ∈ ws, Word w) :
    canonicalWords value count shown = spaced (shown ws) := by
  have hall : ws.all (!·.isEmpty) = true := by
    rw [List.all_eq_true]
    intro w hw
    rw [(h w hw).isEmpty]
    rfl
  unfold canonicalWords
  dsimp only
  rw [hsplit, hall, hcount]
  simp

theorem comesBack_name {type : RecordType}
    (htype : type = .ns ∨ type = .cname) (h : Target p t) :
    ComesBack p type t := by
  rw [← spaced_singleton t]
  refine comesBack_words [fqdn t] (by rcases htype with rfl | rfl <;> decide)
    (by simp) (by simp) (by simpa using h.toPart) (fun _ => ?_) (fun _ => ?_)
    (by simpa using h.word_fqdn) (by simp) (fun htrim _ => ?_)
  · rw [spaced_singleton]
    rcases htype with rfl | rfl
    · exact h.fixed _
    · exact h.fixed _
  · rw [spaced_singleton, spaced_singleton]
    rcases htype with rfl | rfl <;> rfl
  · have hstrip : Text.stripDot (Text.trim (spaced [fqdn t])) = t := by
      rw [htrim, spaced_singleton, h.stripDot_fqdn]
    rw [spaced_singleton t]
    rcases htype with rfl | rfl
    · exact hstrip
    · exact hstrip

theorem comesBack_mx (hk : k ≤ 65535) (h : Target p t) :
    ComesBack p .mx (spaced [decimal k, t]) := by
  have hpart : Part (decimal k) := part_decimal (by omega)
  have hwords : ∀ w ∈ [decimal k, fqdn t], Word w := by
    simpa using ⟨hpart.word, h.word_fqdn⟩
  refine comesBack_words [decimal k, fqdn t] (by decide)
    (by simp) (by simp) (by simpa using ⟨hpart, h.toPart⟩)
    (fun hsplit => ?_) (fun hsplit => ?_) hwords (by simp)
    (fun htrim hsplit => ?_)
  · unfold normalizeValue
    simp only [hsplit, uint_decimal _ hk (by omega), h.fixed]
    rfl
  · unfold powerDnsContent
    simp only [hsplit]
    rfl
  · unfold canonicalContent
    simp only [htrim]
    refine (canonicalWords_of hsplit rfl hwords).trans ?_
    show spaced [decimal k, Text.stripDot (fqdn t)] = _
    rw [h.stripDot_fqdn]

theorem comesBack_srv {i j : Nat} (hi : i ≤ 65535) (hj : j ≤ 65535)
    (hk : k ≤ 65535) (h : Target p t) :
    ComesBack p .srv (spaced [decimal i, decimal j, decimal k, t]) := by
  have hparti : Part (decimal i) := part_decimal (by omega)
  have hpartj : Part (decimal j) := part_decimal (by omega)
  have hpartk : Part (decimal k) := part_decimal (by omega)
  have hwords : ∀ w ∈ [decimal i, decimal j, decimal k, fqdn t], Word w := by
    simpa using ⟨hparti.word, hpartj.word, hpartk.word, h.word_fqdn⟩
  refine comesBack_words [decimal i, decimal j, decimal k, fqdn t] (by decide)
    (by simp) (by simp) (by simpa using ⟨hparti, hpartj, hpartk, h.toPart⟩)
    (fun hsplit => ?_) (fun hsplit => ?_) hwords (by simp)
    (fun htrim hsplit => ?_)
  · unfold normalizeValue
    simp only [hsplit, uint_decimal _ hi (by omega),
      uint_decimal _ hj (by omega), uint_decimal _ hk (by omega), h.fixed]
    rfl
  · unfold powerDnsContent
    simp only [hsplit]
    rfl
  · unfold canonicalContent
    simp only [htrim]
    refine (canonicalWords_of hsplit rfl hwords).trans ?_
    show spaced [decimal i, decimal j, decimal k, Text.stripDot (fqdn t)] = _
    rw [h.stripDot_fqdn]

theorem comesBack_soa {serial refresh retry expire minimum : Nat}
    {u : List Char} (hserial : serial ≤ 4294967295)
    (hrefresh : refresh ≤ 2419200) (hretry : retry ≤ 2419200)
    (hexpire : expire ≤ 4294967295) (hminimum : minimum ≤ 2419200)
    (ht : Target p t) (hu : Target p u) :
    ComesBack p .soa (spaced [t, u, decimal serial, decimal refresh,
      decimal retry, decimal expire, decimal minimum]) := by
  have hpart : ∀ n, n ≤ 4294967295 → Part (decimal n) := fun n hn =>
    part_decimal (by omega)
  have hnumbers := And.intro (hpart serial hserial)
    (And.intro (hpart refresh (by omega)) (And.intro (hpart retry (by omega))
      (And.intro (hpart expire hexpire) (hpart minimum (by omega)))))
  have hwords : ∀ w ∈ [fqdn t, fqdn u, decimal serial, decimal refresh,
      decimal retry, decimal expire, decimal minimum], Word w := by
    simpa using ⟨ht.word_fqdn, hu.word_fqdn, hnumbers.1.word,
      hnumbers.2.1.word, hnumbers.2.2.1.word, hnumbers.2.2.2.1.word,
      hnumbers.2.2.2.2.word⟩
  refine comesBack_words [fqdn t, fqdn u, decimal serial, decimal refresh,
      decimal retry, decimal expire, decimal minimum] (by decide) (by simp) (by simp)
    (by simpa using ⟨ht.toPart, hu.toPart, hnumbers⟩)
    (fun hsplit => ?_) (fun hsplit => ?_) hwords (by simp)
    (fun htrim hsplit => ?_)
  · unfold normalizeValue
    simp only [hsplit, uint_decimal _ hserial (by omega),
      uint_decimal _ hrefresh (by omega), uint_decimal _ hretry (by omega),
      uint_decimal _ hexpire (by omega), uint_decimal _ hminimum (by omega),
      ht.fixed, hu.fixed]
    rfl
  · unfold powerDnsContent
    simp only [hsplit]
    rfl
  · unfold canonicalContent
    simp only [htrim]
    refine (canonicalWords_of hsplit rfl hwords).trans ?_
    show spaced [Text.stripDot (fqdn t), Text.stripDot (fqdn u),
      decimal serial, decimal refresh, decimal retry, decimal expire,
      decimal minimum] = _
    rw [ht.stripDot_fqdn, hu.stripDot_fqdn]

-- ====== addresses

/-- Capitals are lowered by 32, and nothing else is. -/
theorem toLower_cases (c : Char) :
    c.toLower = c
      ∨ (65 ≤ c.toNat ∧ c.toNat ≤ 90 ∧ c.toLower.toNat = c.toNat + 32) := by
  by_cases hup : c.val ≥ 'A'.val ∧ c.val ≤ 'Z'.val
  · right
    have hrange : 65 ≤ c.toNat ∧ c.toNat ≤ 90 := hup
    refine ⟨hrange.1, hrange.2, ?_⟩
    delta Char.toLower
    rw [dif_pos hup]
    show (c.val + ('a'.val - 'A'.val)).toNat = c.toNat + 32
    rw [UInt32.toNat_add]
    have hval : c.val.toNat = c.toNat := rfl
    have hgap : ('a'.val - 'A'.val).toNat = 32 := by decide
    omega
  · left
    delta Char.toLower
    rw [dif_neg hup]

theorem isSpace_toLower (c : Char) :
    Text.isSpace c.toLower = Text.isSpace c := by
  rcases toLower_cases c with hsame | ⟨hlo, hhi, hlower⟩
  · rw [hsame]
  · rw [Domains.isSpace_of_range (by omega) (by omega),
      Domains.isSpace_of_range (by omega) (by omega)]

theorem isForbidden_toLower (c : Char) :
    isForbidden c.toLower = isForbidden c := by
  rcases toLower_cases c with hsame | ⟨hlo, hhi, hlower⟩
  · rw [hsame]
  · rw [isForbidden_of_range (by omega), isForbidden_of_range (by omega)]

theorem units_toLower (c : Char) : Text.units c.toLower = Text.units c := by
  rcases toLower_cases c with hsame | ⟨hlo, hhi, hlower⟩
  · rw [hsame]
  · have hone : ∀ d : Char, d.toNat < 0x10000 → Text.units d = 1 :=
      fun d hd => if_pos hd
    rw [hone _ (by omega), hone _ (by omega)]

theorem toLower_toLower (c : Char) : c.toLower.toLower = c.toLower := by
  rcases toLower_cases c with hsame | ⟨hlo, hhi, hlower⟩
  · rw [hsame, hsame]
  · rcases toLower_cases c.toLower with hsame' | ⟨-, hhi', -⟩
    · exact hsame'
    · omega

theorem lower_lower (cs : List Char) :
    Text.lower (Text.lower cs) = Text.lower cs := by
  unfold Text.lower
  rw [List.map_map]
  exact List.map_congr_left fun c _ => toLower_toLower c

theorem size_lower (cs : List Char) : size (Text.lower cs) = size cs := by
  unfold size Text.lower
  rw [List.map_map]
  exact congrArg List.sum (List.map_congr_left fun c _ => units_toLower c)

theorem dropWhile_lower (cs : List Char) :
    (Text.lower cs).dropWhile Text.isSpace
      = Text.lower (cs.dropWhile Text.isSpace) := by
  unfold Text.lower
  induction cs with
  | nil => rfl
  | cons c cs ih =>
      rw [List.map_cons, List.dropWhile_cons, List.dropWhile_cons,
        isSpace_toLower]
      split
      · exact ih
      · rfl

theorem trim_lower (cs : List Char) :
    Text.trim (Text.lower cs) = Text.lower (Text.trim cs) := by
  have hreverse : ∀ ds, (Text.lower ds).reverse = Text.lower ds.reverse :=
    fun ds => (List.map_reverse).symm
  unfold Text.trim
  rw [dropWhile_lower, hreverse, dropWhile_lower, hreverse]

theorem comesBack_a (haccepted : Accepted cs)
    (h : normalizeValue p .a (Text.trim cs) = .ok value) :
    ComesBack p .a value := by
  unfold normalizeValue at h
  dsimp only at h
  split at h
  · rename_i hip
    have hvalue := Except.ok.inj h
    have hne : Text.trim cs ≠ [] := by
      intro hnil
      rw [hnil] at hip
      exact (p.isIP_v4 _ hip).2.1 rfl
    have hkept := haccepted.sublist (trim_sublist cs) hne
    rw [hvalue] at hkept
    have htrim : Text.trim value = value := by rw [← hvalue, Text.trim_trim]
    refine ⟨value, value, rfl, ?_, rfl, fun h => nomatch h⟩
    show recordValue p .a (Text.trim value) = .ok value
    rw [htrim, recordValue_of_accepted hkept, htrim]
    unfold normalizeValue
    dsimp only
    rw [← hvalue, if_pos hip]
  · cases h

theorem comesBack_aaaa (haccepted : Accepted cs)
    (h : normalizeValue p .aaaa (Text.trim cs) = .ok value) :
    ComesBack p .aaaa value := by
  unfold normalizeValue at h
  dsimp only at h
  split at h
  · rename_i hip
    have hvalue := Except.ok.inj h
    have hne : Text.trim cs ≠ [] := by
      intro hnil
      have hcolon := p.isIP_v6 _ hip
      rw [hnil] at hcolon
      cases hcolon
    have hplain := haccepted.sublist (trim_sublist cs) hne
    have hkept : Accepted value := by
      rw [← hvalue]
      refine ⟨?_, ?_, fun c hc => ?_⟩
      · intro hnil
        exact hne (List.map_eq_nil_iff.mp hnil)
      · rw [size_lower]
        exact hplain.size
      · obtain ⟨d, hd, rfl⟩ := List.mem_map.mp hc
        rw [isForbidden_toLower]
        exact hplain.allowed d hd
    have htrim : Text.trim value = value := by
      rw [← hvalue, trim_lower, Text.trim_trim]
    refine ⟨value, value, rfl, ?_, rfl, fun h => nomatch h⟩
    show recordValue p .aaaa (Text.trim value) = .ok value
    rw [htrim, recordValue_of_accepted hkept, htrim]
    unfold normalizeValue
    dsimp only
    rw [← hvalue, if_pos (p.isIP_lower _ hip), lower_lower]
  · cases h

-- ====== texts

theorem unquoteFrom_cons (within : Bool) (c : Char) (cs : List Char) :
    unquoteFrom within (c :: cs)
      = if within then
          if c == '\\' then
            match cs with
            | [] => none
            | d :: ds => (unquoteFrom true ds).map (d :: ·)
          else if c == '"' then unquoteFrom false cs
          else (unquoteFrom true cs).map (c :: ·)
        else if Text.isSpace c then unquoteFrom false cs
        else if c == '"' then unquoteFrom true cs
        else none := by
  cases cs with
  | nil => cases within <;> rfl
  | cons d ds => cases within <;> rfl

/-- A text within quotes is read up to its closing quote. -/
theorem unquoteFrom_escape (cs rest : List Char) :
    unquoteFrom true (escapeQuoted cs ++ '"' :: rest)
      = (unquoteFrom false rest).map (cs ++ ·) := by
  induction cs with
  | nil =>
      have hclose : unquoteFrom true ('"' :: rest)
          = unquoteFrom false rest := by
        rw [unquoteFrom_cons]
        rfl
      show unquoteFrom true ('"' :: rest) = _
      rw [hclose]
      cases unquoteFrom false rest with
      | none => rfl
      | some text => rfl
  | cons c cs ih =>
      have hmore : ∀ o : Option (List Char),
          (o.map (cs ++ ·)).map (c :: ·) = o.map ((c :: cs) ++ ·) := by
        intro o
        cases o <;> rfl
      by_cases hescaped : (c == '\\' || c == '"') = true
      · have hcons : escapeQuoted (c :: cs) = '\\' :: c :: escapeQuoted cs := by
          unfold escapeQuoted
          rw [List.flatMap_cons, if_pos hescaped]
          rfl
        rw [hcons, ← hmore, ← ih, List.cons_append, unquoteFrom_cons]
        rfl
      · have hcons : escapeQuoted (c :: cs) = c :: escapeQuoted cs := by
          unfold escapeQuoted
          rw [List.flatMap_cons, if_neg hescaped]
          rfl
        simp only [Bool.or_eq_true, beq_iff_eq, not_or] at hescaped
        rw [hcons, ← hmore, ← ih, List.cons_append, unquoteFrom_cons]
        simp [hescaped.1, hescaped.2]

/-- Quoted chunks are read back as one text. -/
theorem unquoteFrom_chunks (chunks : List (List Char)) :
    unquoteFrom false (spaced (chunks.map quoted)) = some chunks.flatten := by
  have hquote : ∀ c : List Char, ∀ rest,
      unquoteFrom false (quoted c ++ rest)
        = (unquoteFrom false rest).map (c ++ ·) := by
    intro c rest
    rw [← unquoteFrom_escape]
    show unquoteFrom false ('"' :: ((escapeQuoted c ++ ['"']) ++ rest)) = _
    rw [List.append_assoc, unquoteFrom_cons]
    rfl
  induction chunks with
  | nil => rfl
  | cons c chunks ih =>
      cases chunks with
      | nil =>
          rw [List.map_singleton, spaced_singleton,
            ← List.append_nil (quoted c), hquote]
          rfl
      | cons d chunks =>
          have hspace : ∀ rest, unquoteFrom false (' ' :: rest)
              = unquoteFrom false rest := by
            intro rest
            rw [unquoteFrom_cons]
            rfl
          rw [List.map_cons, List.map_cons, spaced_cons, hquote, hspace,
            ← List.map_cons, ih]
          rfl

/-- The chunks of a text are the text. -/
theorem flatten_txtChunks (cs : List Char) : (txtChunks cs).flatten = cs := by
  have hfrom : ∀ current bytes,
      (txtChunksFrom current bytes cs).flatten = current ++ cs := by
    induction cs with
    | nil =>
        intro current bytes
        cases current with
        | nil => rfl
        | cons d ds => simp [txtChunksFrom]
    | cons c cs ih =>
        intro current bytes
        unfold txtChunksFrom
        split
        · rw [List.flatten_cons, ih]
          rfl
        · rw [ih, List.append_assoc]
          rfl
  unfold txtChunks
  have hall := hfrom [] 0
  split
  · rename_i hnil
    rw [hnil] at hall
    exact hall
  · exact hall

theorem txtChunks_ne_nil (cs : List Char) : txtChunks cs ≠ [] := by
  unfold txtChunks
  split
  · simp
  · rename_i hne
    exact hne

/-- What is quoted stays so when it is trimmed. -/
theorem trim_quoted {cs : List (List Char)} (hne : cs ≠ []) :
    Text.trim (spaced (cs.map quoted)) = spaced (cs.map quoted)
      ∧ (spaced (cs.map quoted)).head? = some '"' := by
  have hquote : Text.isSpace '"' = false := by decide
  have hhead : (spaced (cs.map quoted)).head? = some '"' := by
    cases cs with
    | nil => exact absurd rfl hne
    | cons c cs =>
        rw [List.map_cons, head?_spaced (by simp [quoted])]
        rfl
  have hlast : ∀ ds : List (List Char), ds ≠ [] →
      (spaced (ds.map quoted)).getLast? = some '"' := by
    intro ds hds
    induction ds with
    | nil => exact absurd rfl hds
    | cons d ds ih =>
        cases ds with
        | nil =>
            rw [List.map_singleton, spaced_singleton]
            unfold quoted
            rw [← List.cons_append, List.getLast?_concat]
        | cons e es =>
            have hrest := ih (by simp)
            have hne' : spaced ((e :: es).map quoted) ≠ [] := by
              intro hnil
              rw [hnil] at hrest
              cases hrest
            rw [List.map_cons] at hrest hne' ⊢
            rw [List.map_cons, spaced_cons, List.getLast?_append_of_ne_nil _
              (by simp), List.getLast?_cons_of_ne_nil hne']
            exact hrest
  refine ⟨trim_of_ends ?_ ?_, hhead⟩
  · rw [hhead]
    exact hquote
  · rw [hlast cs hne]
    exact hquote

/-- A text comes back as it was given, and is accepted unless it is
empty. -/
theorem comesBack_txt (haccepted : Accepted cs)
    (h : normalizeValue p .txt (Text.trim cs) = .ok value) :
    ComesBack p .txt value ↔ value ≠ [] := by
  obtain rfl : Text.trim cs = value := Except.ok.inj h
  have hshown : canonicalContent .txt
      (spaced ((txtChunks (Text.trim cs)).map quoted)) = Text.trim cs := by
    obtain ⟨htrim, hhead⟩ := trim_quoted (txtChunks_ne_nil (Text.trim cs))
    unfold canonicalContent
    dsimp only
    unfold unquoteSequence
    dsimp only
    rw [htrim, htrim, hhead, unquoteFrom_chunks, flatten_txtChunks]
    rfl
  constructor
  · rintro ⟨content, saved, hcontent, hsaved, -, -⟩ hnil
    have hwritten : spaced ((txtChunks (Text.trim cs)).map quoted) = content :=
      Except.ok.inj hcontent
    rw [← hwritten, hshown] at hsaved
    exact (accepted_of_recordValue hsaved).1.nonempty hnil
  · intro hne
    refine ⟨_, Text.trim cs, rfl, ?_, rfl, fun _ => hshown⟩
    rw [hshown, recordValue_of_accepted
      (haccepted.sublist (trim_sublist cs) hne), Text.trim_trim]
    exact h

-- ====== quoted values

def Spaces (cs : List Char) : Prop := ∀ c ∈ cs, Text.isSpace c = true

theorem toNat_of_isTagChar (h : isTagChar c = true) :
    0x21 ≤ c.toNat ∧ c.toNat < 0x7f := by
  have hle : ∀ {a b : Char}, a ≤ b → a.toNat ≤ b.toNat := fun h => h
  simp only [isTagChar, Text.isDigit, Text.isLower, Text.isUpper,
    Bool.or_eq_true, Bool.and_eq_true, decide_eq_true_eq, beq_iff_eq] at h
  rcases h with ((⟨hlo, hhi⟩ | ⟨hlo, hhi⟩) | ⟨hlo, hhi⟩) | rfl
  · have hlo' : 48 ≤ c.toNat := hle hlo
    have hhi' : c.toNat ≤ 57 := hle hhi
    omega
  · have hlo' : 97 ≤ c.toNat := hle hlo
    have hhi' : c.toNat ≤ 122 := hle hhi
    omega
  · have hlo' : 65 ≤ c.toNat := hle hlo
    have hhi' : c.toNat ≤ 90 := hle hhi
    omega
  · decide

theorem not_isSpace_of_isTagChar (h : isTagChar c = true) :
    Text.isSpace c = false := by
  obtain ⟨hlo, hhi⟩ := toNat_of_isTagChar h
  exact Domains.isSpace_of_range (by omega) (by omega)

theorem isTagChar_toLower (h : isTagChar c = true) :
    isTagChar c.toLower = true := by
  rcases toLower_cases c with hsame | ⟨hlo, hhi, hlower⟩
  · rw [hsame]
    exact h
  · have hrange : 'a' ≤ c.toLower ∧ c.toLower ≤ 'z' := by
      show 97 ≤ c.toLower.toNat ∧ c.toLower.toNat ≤ 122
      omega
    simp [isTagChar, Text.isLower, hrange.1, hrange.2]

/-- The parts of a CAA value are found however wide the gap before the
value is. -/
theorem matchCaa_of {gap : List Char} (hflags : flags ≠ [])
    (hdigits : ∀ c ∈ flags, Text.isDigit c = true) (htag : tag ≠ [])
    (htags : ∀ c ∈ tag, isTagChar c = true) (hgap : gap ≠ [])
    (hgaps : Spaces gap) (hrest : rest ≠ [])
    (hhead : rest.head?.any Text.isSpace = false)
    (hline : ∀ c ∈ rest, isLineEnd c = false) :
    matchCaa (flags ++ ' ' :: (tag ++ (gap ++ rest)))
      = some (flags, tag, rest) := by
  have hspace : Text.isDigit ' ' = false := by decide
  have hspaced : Text.isSpace ' ' = true := by decide
  obtain ⟨t, ts, rfl⟩ := List.exists_cons_of_ne_nil htag
  obtain ⟨g, gs, rfl⟩ := List.exists_cons_of_ne_nil hgap
  obtain ⟨r, rs, rfl⟩ := List.exists_cons_of_ne_nil hrest
  have ht := not_isSpace_of_isTagChar (htags t (by simp))
  have hg := hgaps g (by simp)
  have hgTag : isTagChar g = false := by
    by_contra htrue
    rw [Bool.not_eq_false] at htrue
    rw [not_isSpace_of_isTagChar htrue] at hg
    cases hg
  have hr : Text.isSpace r = false := hhead
  have hflagsTake : (flags ++ ' ' :: ((t :: ts) ++ ((g :: gs) ++ (r :: rs)))).takeWhile
      Text.isDigit = flags := by
    rw [List.takeWhile_append_of_pos hdigits, List.takeWhile_cons_of_neg
      (by simp [hspace]), List.append_nil]
  have hflagsDrop : (flags ++ ' ' :: ((t :: ts) ++ ((g :: gs) ++ (r :: rs)))).dropWhile
      Text.isDigit = ' ' :: ((t :: ts) ++ ((g :: gs) ++ (r :: rs))) := by
    rw [List.dropWhile_append_of_pos hdigits, List.dropWhile_cons_of_neg
      (by simp [hspace])]
  have htagged : (' ' :: ((t :: ts) ++ ((g :: gs) ++ (r :: rs)))).dropWhile
      Text.isSpace = (t :: ts) ++ ((g :: gs) ++ (r :: rs)) := by
    rw [List.dropWhile_cons_of_pos hspaced, List.cons_append,
      List.dropWhile_cons_of_neg (by simp [ht])]
  have htagTake : ((t :: ts) ++ ((g :: gs) ++ (r :: rs))).takeWhile isTagChar
      = t :: ts := by
    rw [List.takeWhile_append_of_pos htags, List.cons_append (a := g),
      List.takeWhile_cons_of_neg (by simp [hgTag]), List.append_nil]
  have htagDrop : ((t :: ts) ++ ((g :: gs) ++ (r :: rs))).dropWhile isTagChar
      = (g :: gs) ++ (r :: rs) := by
    rw [List.dropWhile_append_of_pos htags, List.cons_append (a := g),
      List.dropWhile_cons_of_neg (by simp [hgTag])]
  have hrestDrop : ((g :: gs) ++ (r :: rs)).dropWhile Text.isSpace
      = r :: rs := by
    rw [List.dropWhile_append_of_pos hgaps, List.dropWhile_cons_of_neg
      (by simp [hr])]
  have hany : (r :: rs).any isLineEnd = false := by
    rw [List.any_eq_false]
    intro c hc
    rw [hline c hc]
    exact Bool.false_ne_true
  have hflagsEmpty : flags.isEmpty = false := by
    simpa using hflags
  unfold matchCaa
  dsimp only
  rw [hflagsDrop, htagged, htagDrop, hrestDrop, hflagsTake, htagTake]
  simp only [List.isEmpty_cons, Bool.false_eq_true, if_false, hany,
    hflagsEmpty, List.head?_cons, List.cons_append, Option.any_some, hspaced,
    hg, Bool.not_true, Bool.or_self]

/-- The flags and the tag of a CAA value. -/
structure Opening (flags tag : List Char) : Prop where
  flagged : flags ≠ []
  digits : ∀ c ∈ flags, Text.isDigit c = true
  tagged : tag ≠ []
  tags : ∀ c ∈ tag, isTagChar c = true

/-- What matching says of a trimmed text. -/
structure Caa (cs flags tag content : List Char) : Prop
    extends Opening flags tag where
  present : content ≠ []
  head : content.head?.any Text.isSpace = false
  lines : ∀ c ∈ content, isLineEnd c = false
  within : content.Sublist cs
  size : size flags + size tag + size content + 2 ≤ size cs

theorem getLast?_trim (cs : List Char) :
    (Text.trim cs).getLast?.any Text.isSpace = false := by
  rw [Text.trim_eq]
  cases hlast : ((cs.dropWhile Text.isSpace).rdropWhile
      Text.isSpace).getLast? with
  | none => rfl
  | some c =>
      have hne : (cs.dropWhile Text.isSpace).rdropWhile Text.isSpace ≠ [] := by
        intro hnil
        rw [hnil] at hlast
        cases hlast
      have hnot := List.rdropWhile_last_not Text.isSpace _ hne
      rw [List.getLast?_eq_getLast_of_ne_nil hne] at hlast
      rw [Option.some.inj hlast] at hnot
      simpa using hnot

theorem caa_of_matchCaa {content : List Char} (htrim : Text.trim cs = cs)
    (h : matchCaa cs = some (flags, tag, content)) :
    Caa cs flags tag content := by
  have hlast := getLast?_trim cs
  rw [htrim] at hlast
  have htakeDrop : ∀ (f : Char → Bool) (ds : List Char),
      ds = ds.takeWhile f ++ ds.dropWhile f :=
    fun f ds => (List.takeWhile_append_dropWhile).symm
  have htake : ∀ (f : Char → Bool) (ds : List Char),
      ∀ c ∈ ds.takeWhile f, f c = true :=
    fun f ds c hc => List.mem_takeWhile_imp hc
  -- A text that starts with a space has one before what follows them.
  have hgap : ∀ ds : List Char, ds.head?.any Text.isSpace = true →
      size (ds.dropWhile Text.isSpace) + 1 ≤ size ds := by
    intro ds hds
    cases ds with
    | nil => cases hds
    | cons d ds =>
        have hd : Text.isSpace d = true := hds
        have hsub := size_sublist (List.dropWhile_sublist Text.isSpace (l := ds))
        have hpos := units_pos d
        rw [List.dropWhile_cons_of_pos hd, size_cons]
        omega
  unfold matchCaa at h
  dsimp only at h
  rw [Option.ite_none_left_eq_some] at h
  obtain ⟨hcheck, hsome⟩ := h
  simp only [Bool.or_eq_true, Bool.not_eq_true', not_or, Bool.not_eq_true,
    Bool.not_eq_false, List.isEmpty_eq_false_iff] at hcheck
  obtain ⟨⟨⟨⟨⟨hflagged, hfirst⟩, htagged⟩, hsecond⟩, hpresent⟩, hlines⟩ :=
    hcheck
  obtain ⟨hflags, hrest⟩ := Prod.mk.inj (Option.some.inj hsome)
  obtain ⟨htag, hcontent⟩ := Prod.mk.inj hrest
  -- What follows the tag does not end in a space.
  have hafter : ((cs.dropWhile Text.isDigit).dropWhile
      Text.isSpace).dropWhile isTagChar <:+ cs :=
    (List.dropWhile_suffix isTagChar).trans
      ((List.dropWhile_suffix Text.isSpace).trans
        (List.dropWhile_suffix Text.isDigit))
  revert hafter hsecond hpresent hlines hcontent
  generalize hafterTag : ((cs.dropWhile Text.isDigit).dropWhile
    Text.isSpace).dropWhile isTagChar = after
  intro hlines hpresent hsecond hcontent hafter
  have hends : (after.dropWhile Text.isSpace).isEmpty = false := by
    by_contra hempty
    rw [Bool.not_eq_false, List.isEmpty_iff, List.dropWhile_eq_nil_iff]
      at hempty
    have hne : after ≠ [] := by
      rintro rfl
      cases hsecond
    obtain ⟨before, hbefore⟩ := hafter
    rw [← hbefore, List.getLast?_append_of_ne_nil _ hne,
      List.getLast?_eq_getLast_of_ne_nil hne, Option.any_some,
      hempty _ (List.getLast_mem hne)] at hlast
    cases hlast
  rw [hends, if_neg Bool.false_ne_true] at hpresent hlines hcontent
  have hsuffix := (List.dropWhile_suffix Text.isSpace (l := after))
  refine ⟨⟨hflags ▸ hflagged, hflags ▸ htake _ _, htag ▸ htagged,
    htag ▸ htake _ _⟩, hcontent ▸ hpresent, ?_, ?_, ?_, ?_⟩
  · rw [← hcontent]
    cases hd : after.dropWhile Text.isSpace with
    | nil => rfl
    | cons d ds =>
        have hnot := List.head_dropWhile_not Text.isSpace
          (l := after) (by rw [hd]; simp)
        simp only [hd, List.head_cons] at hnot
        simpa using hnot
  · intro c hc
    rw [← hcontent] at hc
    have hline := List.any_eq_false.mp hlines c hc
    simpa using hline
  · rw [← hcontent]
    exact (hsuffix.trans hafter).sublist
  · have hcs := congrArg size (htakeDrop Text.isDigit cs)
    have htags := congrArg size (htakeDrop isTagChar
      ((cs.dropWhile Text.isDigit).dropWhile Text.isSpace))
    have hone := hgap _ hfirst
    have htwo := hgap _ hsecond
    rw [size_append, hflags] at hcs
    rw [size_append, htag, hafterTag] at htags
    rw [hcontent] at htwo
    omega

theorem stripQuotes_sublist (cs : List Char) : (stripQuotes cs).Sublist cs := by
  have hfront : (if cs.head? == some '"' then cs.tail else cs).Sublist cs := by
    split
    · exact List.tail_sublist cs
    · exact List.Sublist.refl cs
  unfold stripQuotes
  dsimp only
  revert hfront
  generalize (if cs.head? == some '"' then cs.tail else cs) = front
  intro hfront
  split
  · exact (List.dropLast_sublist front).trans hfront
  · exact hfront

theorem escapeQuoted_inj (h : escapeQuoted cs = escapeQuoted ds) : cs = ds := by
  have hcs := unquoteFrom_escape cs []
  have hds := unquoteFrom_escape ds []
  rw [h, hds] at hcs
  have hsame : some (ds ++ []) = some (cs ++ []) := hcs
  simpa using hsame.symm

theorem quoted_inj (h : quoted cs = quoted ds) :
    cs = ds := by
  have htail := List.tail_eq_of_cons_eq h
  exact escapeQuoted_inj (List.append_cancel_right htail)

theorem mem_quoted (h : c ∈ quoted cs) :
    c = '"' ∨ c = '\\' ∨ c ∈ cs := by
  unfold quoted escapeQuoted at h
  rcases List.mem_cons.mp h with rfl | h
  · exact .inl rfl
  · rcases List.mem_append.mp h with h | h
    · obtain ⟨d, hd, hc⟩ := List.mem_flatMap.mp h
      split at hc
      · rcases List.mem_cons.mp hc with rfl | hc
        · exact .inr (.inl rfl)
        · exact .inr (.inr (List.mem_singleton.mp hc ▸ hd))
      · exact .inr (.inr (List.mem_singleton.mp hc ▸ hd))
    · exact .inl (List.mem_singleton.mp h)

theorem unquoteSequence_quoted (cs : List Char) :
    unquoteSequence (quoted cs) = cs := by
  obtain ⟨htrim, hhead⟩ := trim_quoted (List.cons_ne_nil cs [])
  have hread := unquoteFrom_chunks [cs]
  rw [List.map_singleton, spaced_singleton] at htrim hhead hread
  unfold unquoteSequence
  dsimp only
  rw [htrim, hhead, hread]
  simp

/-- Spaces at the end are taken off. -/
theorem trim_append_spaces (hds : Spaces ds) (hne : cs ≠ [])
    (hhead : cs.head?.any Text.isSpace = false)
    (hlast : cs.getLast?.any Text.isSpace = false) :
    Text.trim (cs ++ ds) = cs := by
  have hfront : (cs ++ ds).dropWhile Text.isSpace = cs ++ ds := by
    obtain ⟨c, es, rfl⟩ := List.exists_cons_of_ne_nil hne
    have hc : ¬Text.isSpace c = true := by simpa using hhead
    rw [List.cons_append, List.dropWhile_cons_of_neg hc]
  have hback : cs.reverse.dropWhile Text.isSpace = cs.reverse := by
    cases hrev : cs.reverse with
    | nil => rfl
    | cons c es =>
        rw [← List.head?_reverse, hrev] at hlast
        have hc : ¬Text.isSpace c = true := by simpa using hlast
        rw [List.dropWhile_cons_of_neg hc]
  unfold Text.trim
  rw [hfront, List.reverse_append, List.dropWhile_append_of_pos
    (fun c hc => hds c (List.mem_reverse.mp hc)), hback, List.reverse_reverse]

/-- A text is what is left of it between spaces. -/
theorem exists_trim (cs : List Char) :
    ∃ gap rest, Spaces gap ∧ Spaces rest
      ∧ cs = gap ++ (Text.trim cs ++ rest) := by
  refine ⟨cs.takeWhile Text.isSpace,
    (cs.dropWhile Text.isSpace).rtakeWhile Text.isSpace,
    fun c hc => List.mem_takeWhile_imp hc, fun c hc => ?_, ?_⟩
  · exact List.mem_takeWhile_imp (List.mem_reverse.mp hc)
  · rw [Text.trim_eq, List.rdropWhile_append_rtakeWhile,
      List.takeWhile_append_dropWhile]

theorem head?_trim (cs : List Char) :
    (Text.trim cs).head?.any Text.isSpace = false := by
  cases htrim : Text.trim cs with
  | nil => rfl
  | cons c ds =>
      have hagain := Text.trim_trim cs
      rw [htrim] at hagain
      show Text.isSpace c = false
      by_contra hspace
      rw [Bool.not_eq_false] at hspace
      have hshort := (List.rdropWhile_prefix Text.isSpace
        ((c :: ds).dropWhile Text.isSpace)).length_le
      rw [Text.trim_eq] at hagain
      rw [hagain, List.dropWhile_cons_of_pos hspace] at hshort
      have hless := (List.dropWhile_sublist Text.isSpace (l := ds)).length_le
      rw [List.length_cons] at hshort
      omega

theorem Opening.start (h : Opening flags tag) :
    (flags ++ ' ' :: tag).head?.any Text.isSpace = false
      ∧ (flags ++ ' ' :: tag).getLast?.any Text.isSpace = false := by
  have hdigit : ∀ c, Text.isDigit c = true → Text.isSpace c = false := by
    intro c hc
    exact not_isSpace_of_isTagChar (by simp [isTagChar, hc])
  have hflags := h.flagged
  have htag := h.tagged
  refine ⟨?_, ?_⟩
  · obtain ⟨c, cs, rfl⟩ := List.exists_cons_of_ne_nil hflags
    exact hdigit c (h.digits c (by simp))
  · rw [List.getLast?_append_of_ne_nil _ (by simp),
      List.getLast?_cons_of_ne_nil htag,
      List.getLast?_eq_getLast_of_ne_nil htag]
    exact not_isSpace_of_isTagChar (h.tags _ (List.getLast_mem htag))

theorem spaced_caa (flags tag value : List Char) :
    spaced [flags, tag, value] = flags ++ ' ' :: (tag ++ ([' '] ++ value)) := by
  rw [spaced_cons, spaced_cons, spaced_singleton]
  rfl

theorem spaces_space : Spaces [' '] := by
  intro c hc
  rw [List.mem_singleton.mp hc]
  decide

/-- What is matched in a text whose value is only spaces, or has spaces
around it. -/
theorem matchCaa_trim {core : List Char} (h : Opening flags tag)
    (hline : ∀ c ∈ core, isLineEnd c = false) :
    matchCaa (Text.trim (spaced [flags, tag, core]))
      = if Text.trim core = [] then none
        else some (flags, tag, Text.trim core) := by
  obtain ⟨gap, rest, hgap, hrest, hcore⟩ := exists_trim core
  obtain ⟨hhead, hlast⟩ := h.start
  split
  · rename_i hnil
    rw [hnil] at hcore
    have hspaces : Spaces (' ' :: core) := by
      intro c hc
      rcases List.mem_cons.mp hc with rfl | hc
      · decide
      · rw [hcore] at hc
        rcases List.mem_append.mp hc with hc | hc
        · exact hgap c hc
        · exact hrest c hc
    have hsplit : spaced [flags, tag, core]
        = (flags ++ ' ' :: tag) ++ ' ' :: core := by
      rw [spaced_caa]
      simp
    rw [hsplit, trim_append_spaces hspaces (by simp) hhead hlast]
    have htag : (tag ++ []).dropWhile isTagChar = [] := by
      rw [List.dropWhile_append_of_pos h.tags]
      rfl
    rw [List.append_nil] at htag
    have hspace : Text.isDigit ' ' = false := by decide
    have hspaced : Text.isSpace ' ' = true := by decide
    have hstop : tag.dropWhile Text.isSpace = tag := by
      obtain ⟨t, ts, rfl⟩ := List.exists_cons_of_ne_nil h.tagged
      have ht := not_isSpace_of_isTagChar (h.tags t (by simp))
      rw [List.dropWhile_cons_of_neg (by simp [ht])]
    have hdrop : (flags ++ ' ' :: tag).dropWhile Text.isDigit = ' ' :: tag := by
      rw [List.dropWhile_append_of_pos h.digits,
        List.dropWhile_cons_of_neg (by simp [hspace])]
    unfold matchCaa
    dsimp only
    rw [hdrop, List.dropWhile_cons_of_pos hspaced, hstop, htag]
    simp
  · rename_i hne
    have hsplit : spaced [flags, tag, core]
        = (flags ++ ' ' :: (tag ++ ((' ' :: gap) ++ Text.trim core)))
          ++ rest := by
      rw [spaced_caa]
      conv_lhs => rw [hcore]
      simp
    have hinner := getLast?_trim core
    have hfront : (flags ++ ' ' :: (tag ++ ((' ' :: gap)
        ++ Text.trim core))).head?.any Text.isSpace = false := by
      obtain ⟨c, cs, rfl⟩ := List.exists_cons_of_ne_nil h.flagged
      exact hhead
    have hback : (flags ++ ' ' :: (tag ++ ((' ' :: gap)
        ++ Text.trim core))).getLast?.any Text.isSpace = false := by
      rw [List.getLast?_append_of_ne_nil _ (by simp),
        List.getLast?_cons_of_ne_nil (by simp),
        List.getLast?_append_of_ne_nil _ (by simp),
        List.getLast?_append_of_ne_nil _ hne]
      exact hinner
    rw [hsplit, trim_append_spaces hrest (by simp) hfront hback]
    refine matchCaa_of h.flagged h.digits h.tagged h.tags (by simp) ?_ hne
      (head?_trim core) fun c hc => hline c ((trim_sublist core).subset hc)
    intro c hc
    rcases List.mem_cons.mp hc with rfl | hc
    · decide
    · exact hgap c hc

/-- What the number of some digits is written with. -/
theorem length_decimal_le (hne : cs ≠ [])
    (h : ∀ c ∈ cs, Text.isDigit c = true) :
    (decimal (Nat.ofDigitChars 10 cs 0)).length ≤ cs.length := by
  have hbound : ∀ (ds : List Char) (n k : Nat),
      (∀ c ∈ ds, Text.isDigit c = true) → n < 10 ^ k →
        Nat.ofDigitChars 10 ds n < 10 ^ (k + ds.length) := by
    intro ds
    induction ds with
    | nil => intro n k _ hn; exact hn
    | cons d ds ih =>
        intro n k hds hn
        have hd := hds d (by simp)
        have hnine : d.toNat ≤ 57 := by
          simp only [Text.isDigit, Bool.and_eq_true, decide_eq_true_eq] at hd
          exact hd.2
        have hzero : '0'.toNat = 48 := rfl
        rw [Nat.ofDigitChars_cons, List.length_cons]
        have hnext := ih (10 * n + (d.toNat - '0'.toNat)) (k + 1)
          (fun c hc => hds c (List.mem_cons_of_mem d hc)) (by
            rw [Nat.pow_succ]
            omega)
        rw [show k + (ds.length + 1) = k + 1 + ds.length by omega]
        exact hnext
  have hlt := hbound cs 0 0 h (by decide)
  rw [Nat.zero_add] at hlt
  exact (Nat.length_toDigits_le_iff (by omega)
    (List.length_pos_iff.mpr hne)).mpr hlt

theorem isDigit_decimal (n : Nat) :
    ∀ c ∈ decimal n, Text.isDigit c = true := by
  intro c hc
  have hdigit := Nat.isDigit_of_mem_toDigits (b := 10) (by omega) (by omega) hc
  simp only [Char.isDigit, Bool.and_eq_true, decide_eq_true_eq] at hdigit
  simp only [Text.isDigit, Bool.and_eq_true, decide_eq_true_eq]
  exact hdigit

theorem size_tags (h : ∀ c ∈ cs, isTagChar c = true) :
    size cs = cs.length :=
  size_plain fun c hc => by
    have hrange := toNat_of_isTagChar (h c hc)
    omega

theorem tags_lower (h : ∀ c ∈ cs, isTagChar c = true) :
    ∀ c ∈ Text.lower cs, isTagChar c = true := by
  intro c hc
  obtain ⟨d, hd, rfl⟩ := List.mem_map.mp hc
  exact isTagChar_toLower (h d hd)

theorem normalizeValue_caa :
    normalizeValue p .caa cs = .ok value ↔
      ∃ flags tag content, matchCaa cs = some (flags, tag, content)
        ∧ flags.length ≤ 3 ∧ tag.length ≤ 15
        ∧ ∃ n, uint flags "CAA flags" 255 = .ok n
          ∧ spaced [decimal n, Text.lower tag, content] = value := by
  unfold normalizeValue
  dsimp only
  constructor
  · intro h
    split at h
    · rename_i flags tag content hfilter
      obtain ⟨hmatch, hlengths⟩ := Option.filter_eq_some_iff.mp hfilter
      simp only [Bool.and_eq_true, decide_eq_true_eq] at hlengths
      obtain ⟨n, hn, hvalue⟩ := bind_eq_ok.mp h
      exact ⟨flags, tag, content, hmatch, hlengths.1, hlengths.2, n, hn,
        Except.ok.inj hvalue⟩
    · cases h
  · rintro ⟨flags, tag, content, hmatch, hflags, htag, n, hn, rfl⟩
    have hfilter : (matchCaa cs).filter (fun parts =>
        decide (parts.1.length ≤ 3) && decide (parts.2.1.length ≤ 15))
        = some (flags, tag, content) := by
      rw [hmatch, Option.filter_some, if_pos]
      simp [hflags, htag]
    rw [hfilter]
    dsimp only
    rw [hn]
    rfl

/-- A CAA value comes back exactly where it is bare. -/
theorem comesBack_caa (haccepted : Accepted cs)
    (h : normalizeValue p .caa (Text.trim cs) = .ok value) :
    ComesBack p .caa value
      ↔ ∀ parts ∈ matchCaa value, Bare (stripQuotes parts.2.2) := by
  obtain ⟨flags, tag, content, hmatch, hthree, hfifteen, n, hn, rfl⟩ :=
    normalizeValue_caa.mp h
  have hcaa := caa_of_matchCaa (Text.trim_trim cs) hmatch
  obtain ⟨hvalue, hn255, hdigits, -⟩ := uint_eq_ok hn
  have hopening : Opening (decimal n) (Text.lower tag) :=
    ⟨Nat.toDigits_ne_nil, isDigit_decimal n,
      fun hnil => hcaa.tagged (List.map_eq_nil_iff.mp hnil),
      tags_lower hcaa.tags⟩
  have hmatched : ∀ rest : List Char, rest ≠ [] →
      rest.head?.any Text.isSpace = false →
      (∀ c ∈ rest, isLineEnd c = false) →
        matchCaa (spaced [decimal n, Text.lower tag, rest])
          = some (decimal n, Text.lower tag, rest) := by
    intro rest hrest hhead hlines
    rw [spaced_caa]
    exact matchCaa_of hopening.flagged hopening.digits hopening.tagged
      hopening.tags (by simp) spaces_space hrest hhead hlines
  have hstored := hmatched content hcaa.present hcaa.head hcaa.lines
  rw [hstored]
  have hsome : (∀ parts ∈ some (decimal n, Text.lower tag, content),
      Bare (stripQuotes parts.2.2)) ↔ Bare (stripQuotes content) := by
    simp
  rw [hsome]
  have hcoreSub := stripQuotes_sublist content
  revert hcoreSub
  generalize hcoreEq : stripQuotes content = core
  intro hcoreSub
  have hcoreLines : ∀ c ∈ core, isLineEnd c = false :=
    fun c hc => hcaa.lines c (hcoreSub.subset hc)
  have hwritten : powerDnsContent .caa
      (spaced [decimal n, Text.lower tag, content])
      = .ok (spaced [decimal n, Text.lower tag, quoted core]) := by
    unfold powerDnsContent
    dsimp only
    rw [hstored]
    dsimp only
    rw [hcoreEq]
  -- The panel shows the flags, the tag and what is within the quotes.
  have hshown : canonicalContent .caa
      (spaced [decimal n, Text.lower tag, quoted core])
      = spaced [decimal n, Text.lower tag, core] := by
    have hquote : isLineEnd '"' = false ∧ isLineEnd '\\' = false := by decide
    have hlines : ∀ c ∈ quoted core, isLineEnd c = false := by
      intro c hc
      rcases mem_quoted hc with rfl | rfl | hc
      · exact hquote.1
      · exact hquote.2
      · exact hcoreLines c hc
    have htrim : Text.trim (quoted core) = quoted core := by
      have hq := (trim_quoted (List.cons_ne_nil core [])).1
      rwa [List.map_singleton, spaced_singleton] at hq
    have hread := matchCaa_trim hopening hlines
    rw [htrim, if_neg (by simp [quoted])] at hread
    unfold canonicalContent
    dsimp only
    rw [hread]
    dsimp only
    rw [unquoteSequence_quoted, lower_lower]
  have hdecimal : uint (decimal n) "CAA flags" 255 = .ok n :=
    uint_decimal _ hn255 (by omega)
  have hdecimalLength : (decimal n).length ≤ 3 :=
    (Nat.length_toDigits_le_iff (by omega) (by omega)).mpr (by omega)
  have htagLength : (Text.lower tag).length ≤ 15 := by
    rw [Text.lower, List.length_map]
    exact hfifteen
  have hrecord := matchCaa_trim hopening hcoreLines
  constructor
  · rintro ⟨contentText, saved, hcontent, hsaved, hagain, -⟩
    rw [hwritten] at hcontent
    rw [← Except.ok.inj hcontent, hshown] at hsaved
    rw [← Except.ok.inj hcontent] at hagain
    obtain ⟨-, hnormal⟩ := accepted_of_recordValue hsaved
    obtain ⟨flags', tag', content', hmatch', -, -, n', hn', rfl⟩ :=
      normalizeValue_caa.mp hnormal
    rw [hrecord] at hmatch'
    split at hmatch'
    · cases hmatch'
    · rename_i hne
      obtain ⟨rfl, hrest⟩ := Prod.mk.inj (Option.some.inj hmatch')
      obtain ⟨rfl, rfl⟩ := Prod.mk.inj hrest
      rw [hdecimal] at hn'
      obtain rfl := Except.ok.inj hn'
      have hstored' := hmatched (Text.trim core) hne (head?_trim core)
        fun c hc => hcoreLines c ((trim_sublist core).subset hc)
      rw [lower_lower] at hagain
      unfold powerDnsContent at hagain
      dsimp only at hagain
      rw [hstored'] at hagain
      dsimp only at hagain
      have hsame := Except.ok.inj hagain
      rw [spaced_caa, spaced_caa] at hsame
      have hquoted : quoted (stripQuotes (Text.trim core)) = quoted core := by
        simpa using hsame
      have hcore := quoted_inj hquoted
      have hfirst := (stripQuotes_sublist (Text.trim core)).length_le
      have hsecond := (trim_sublist core)
      rw [hcore] at hfirst
      have htrim : Text.trim core = core := hsecond.eq_of_length_le hfirst
      rw [htrim] at hcore hne
      exact ⟨hne, htrim, hcore⟩
  · intro hbare
    refine ⟨_, spaced [decimal n, Text.lower tag, core], hwritten, ?_, ?_,
      fun h => nomatch h⟩
    · rw [hshown]
      have hsize : size (spaced [decimal n, Text.lower tag, core]) ≤ 4096 := by
        have hall := size_sublist (trim_sublist cs)
        have hparts := hcaa.size
        have hmax := haccepted.size
        have hcoreSize := size_sublist hcoreSub
        have hnumber := length_decimal_le hcaa.flagged hcaa.digits
        rw [← hvalue] at hnumber
        have hflagSize : size flags = flags.length :=
          size_tags fun c hc => by simp [isTagChar, hcaa.digits c hc]
        have hnumberSize : size (decimal n) = (decimal n).length :=
          size_tags fun c hc => by simp [isTagChar, isDigit_decimal n c hc]
        have hone : Text.units ' ' = 1 := by decide
        rw [spaced_cons, spaced_cons, spaced_singleton, size_append, size_cons,
          size_append, size_cons, size_lower, hone]
        omega
      have hallowed : ∀ c ∈ spaced [decimal n, Text.lower tag, core],
          isForbidden c = false := by
        intro c hc
        rw [spaced_caa] at hc
        simp only [List.mem_append, List.mem_cons, List.not_mem_nil,
          or_false] at hc
        rcases hc with hc | rfl | hc | rfl | hc
        · have hrange := toNat_of_isTagChar
            (by simp [isTagChar, isDigit_decimal n c hc] : isTagChar c = true)
          exact isForbidden_of_range (by omega)
        · decide
        · have hrange := toNat_of_isTagChar (hopening.tags c hc)
          exact isForbidden_of_range (by omega)
        · decide
        · exact haccepted.allowed c ((trim_sublist cs).subset
            (hcaa.within.subset (hcoreSub.subset hc)))
      rw [recordValue_of_accepted ⟨by simp [spaced_caa], hsize, hallowed⟩]
      refine normalizeValue_caa.mpr ⟨decimal n, Text.lower tag, core, ?_,
        hdecimalLength, htagLength, n, hdecimal, ?_⟩
      · rw [hrecord, hbare.trimmed, if_neg hbare.nonempty]
      · rw [lower_lower]
    · have hhead := head?_trim core
      rw [hbare.trimmed] at hhead
      unfold powerDnsContent
      dsimp only
      rw [hmatched core hbare.nonempty hhead hcoreLines]
      dsimp only
      rw [hbare.unquoted]

-- ====== all types

/-- A value the panel has accepted comes back from PowerDNS exactly where
it is settled: every value of a type other than TXT and CAA does, and every
text that is not empty. -/
theorem record_comes_back_iff (p : Platform) (type : RecordType)
    (input value : List Char) (h : recordValue p type input = .ok value) :
    ComesBack p type value ↔ Settled type value := by
  obtain ⟨haccepted, hnormal⟩ := accepted_of_recordValue h
  cases type with
  | txt => exact comesBack_txt haccepted hnormal
  | caa => exact comesBack_caa haccepted hnormal
  | a => exact iff_of_true (comesBack_a haccepted hnormal) trivial
  | aaaa => exact iff_of_true (comesBack_aaaa haccepted hnormal) trivial
  | ns =>
      exact iff_of_true (comesBack_name (.inl rfl) (target_of_fqdn hnormal))
        trivial
  | cname =>
      exact iff_of_true (comesBack_name (.inr rfl) (target_of_fqdn hnormal))
        trivial
  | mx =>
      refine iff_of_true ?_ trivial
      unfold normalizeValue at hnormal
      dsimp only at hnormal
      split at hnormal
      · obtain ⟨k, hk, hnormal⟩ := bind_eq_ok.mp hnormal
        obtain ⟨t, ht, hnormal⟩ := bind_eq_ok.mp hnormal
        obtain rfl := Except.ok.inj hnormal
        exact comesBack_mx (uint_eq_ok hk).2.1 (target_of_fqdn ht)
      · cases hnormal
  | srv =>
      refine iff_of_true ?_ trivial
      unfold normalizeValue at hnormal
      dsimp only at hnormal
      split at hnormal
      · obtain ⟨i, hi, hnormal⟩ := bind_eq_ok.mp hnormal
        obtain ⟨j, hj, hnormal⟩ := bind_eq_ok.mp hnormal
        obtain ⟨k, hk, hnormal⟩ := bind_eq_ok.mp hnormal
        obtain ⟨t, ht, hnormal⟩ := bind_eq_ok.mp hnormal
        obtain rfl := Except.ok.inj hnormal
        exact comesBack_srv (uint_eq_ok hi).2.1 (uint_eq_ok hj).2.1
          (uint_eq_ok hk).2.1 (target_of_fqdn ht)
      · cases hnormal
  | soa =>
      refine iff_of_true ?_ trivial
      unfold normalizeValue at hnormal
      dsimp only at hnormal
      split at hnormal
      · obtain ⟨t, ht, hnormal⟩ := bind_eq_ok.mp hnormal
        obtain ⟨u, hu, hnormal⟩ := bind_eq_ok.mp hnormal
        obtain ⟨serial, hserial, hnormal⟩ := bind_eq_ok.mp hnormal
        obtain ⟨refresh, hrefresh, hnormal⟩ := bind_eq_ok.mp hnormal
        obtain ⟨retry, hretry, hnormal⟩ := bind_eq_ok.mp hnormal
        obtain ⟨expire, hexpire, hnormal⟩ := bind_eq_ok.mp hnormal
        obtain ⟨minimum, hminimum, hnormal⟩ := bind_eq_ok.mp hnormal
        obtain rfl := Except.ok.inj hnormal
        exact comesBack_soa (uint_eq_ok hserial).2.1 (uint_eq_ok hrefresh).2.1
          (uint_eq_ok hretry).2.1 (uint_eq_ok hexpire).2.1
          (uint_eq_ok hminimum).2.1 (target_of_fqdn ht) (target_of_fqdn hu)
      · cases hnormal

/-- A platform without addresses, for the samples. -/
def namesPlatform : Platform where
  toNet := Domains.asciiPlatform.toNet
  isIP_lower := fun _ h => nomatch h

/-- A text with quotes and backslashes is settled, so it comes back. -/
theorem quoted_text_comes_back :
    ComesBack namesPlatform .txt "v=1; \"a\\b\"".toList :=
  (record_comes_back_iff namesPlatform .txt " v=1; \"a\\b\"".toList
    "v=1; \"a\\b\"".toList (by decide +kernel)).mpr
    (by show "v=1; \"a\\b\"".toList ≠ []; decide)

/-- The empty value of a CAA record is accepted within quotes, and what the
panel shows of it is refused. -/
theorem empty_issuer_is_lost :
    let value := "0 issue \"\"".toList
    recordValue namesPlatform .caa value = .ok value
      ∧ ¬ ComesBack namesPlatform .caa value := by
  refine ⟨by decide +kernel, ?_⟩
  rintro ⟨content, saved, hcontent, hsaved, -⟩
  have hwritten : powerDnsContent .caa "0 issue \"\"".toList
      = .ok "0 issue \"\"".toList := by decide +kernel
  rw [hwritten] at hcontent
  rw [← Except.ok.inj hcontent] at hsaved
  have hrefused : recordValue namesPlatform .caa
      (canonicalContent .caa "0 issue \"\"".toList)
      = .error (invalidRecord "CAA record requires flags, tag and value") := by
    decide +kernel
  rw [hrefused] at hsaved
  cases hsaved

example : Text.isDigit '.' = false := by decide +kernel

end Yunpanel.Dns
