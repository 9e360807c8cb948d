/-
Normalizing what has been normalized changes nothing.

The loader of the store checks names, hosts and ids with the functions that
made them, so what the registry writes is accepted only because each of
these is idempotent. For host names this rests on one law of the platform
(`domainToASCII_stable`); everything around it is shown to leave a
normalized name alone.
-/
import Yunpanel.Domains.Names
import Yunpanel.Lib.Result

namespace Yunpanel.Domains

open Lib

variable (net : Net)

-- ====== host characters

variable {c : Char} {value name : String} {cs : List Char}

theorem toNat_of_isHostChar (h : isHostChar c = true) :
    0x2d ≤ c.toNat ∧ c.toNat < 0x7f ∧ (c.toNat < 0x41 ∨ 0x5a < c.toNat) := by
  simp only [isHostChar, isAlnum, Text.isDigit, Text.isLower, Bool.or_eq_true,
    Bool.and_eq_true, decide_eq_true_eq, beq_iff_eq] at h
  rcases h with ((⟨h1, h2⟩ | ⟨h1, h2⟩) | rfl) | rfl
  · have h1' : '0'.toNat ≤ c.toNat := h1
    have h2' : c.toNat ≤ '9'.toNat := h2
    have e1 : '0'.toNat = 0x30 := rfl
    have e2 : '9'.toNat = 0x39 := rfl
    omega
  · have h1' : 'a'.toNat ≤ c.toNat := h1
    have h2' : c.toNat ≤ 'z'.toNat := h2
    have e1 : 'a'.toNat = 0x61 := rfl
    have e2 : 'z'.toNat = 0x7a := rfl
    omega
  · decide
  · decide

theorem isSpace_of_range (hlo : 0x21 ≤ c.toNat) (hhi : c.toNat < 0x80) :
    Text.isSpace c = false := by
  unfold Text.isSpace
  simp only [List.contains_eq_mem, List.mem_cons, List.not_mem_nil, or_false,
    Bool.or_eq_false_iff, decide_eq_false_iff_not, Bool.and_eq_false_iff]
  constructor
  · rintro (h | h | h | h | h | h | h | h | h | h | h | h | h | h) <;> omega
  · left
    omega

theorem isUpper_of_range (h : c.toNat < 0x41 ∨ 0x5a < c.toNat) :
    Text.isUpper c = false := by
  unfold Text.isUpper
  simp only [Bool.and_eq_false_iff, decide_eq_false_iff_not]
  have ha : 'A'.toNat = 0x41 := rfl
  have hz : 'Z'.toNat = 0x5a := rfl
  rcases h with h | h
  · left
    intro hle
    have hle' : 'A'.toNat ≤ c.toNat := hle
    omega
  · right
    intro hle
    have hle' : c.toNat ≤ 'Z'.toNat := hle
    omega

-- ====== host names

/-- A name the registry takes as it is. -/
def IsHostname (name : String) : Prop :=
  assertDomainName net name = .ok name

/-- What passing `validateDomainName` says of a name. -/
structure Hostname (name : String) : Prop where
  nonempty : name ≠ ""
  length : Text.length name ≤ 253
  noStar : '*' ∉ name.toList
  labels : 2 ≤ (Text.splitDots name.toList).length
  label : ∀ l ∈ Text.splitDots name.toList,
    1 ≤ l.length ∧ l.length ≤ 63 ∧ isLabel l = true

theorem assertDomainName_eq_ok :
    assertDomainName net value = .ok name ↔
      normalizeDomainName net value = name ∧ Hostname name := by
  unfold assertDomainName
  dsimp only
  constructor
  · intro h
    split at h
    · cases h
    · rename_i hlen
      split at h
      · cases h
      · rename_i hstar
        split at h
        · cases h
        · rename_i hlabels
          split at h
          · split at h <;> cases h
          · rename_i hfind
            obtain rfl := Except.ok.inj h
            refine ⟨rfl, ?_, ?_, ?_, ?_, ?_⟩
            · exact fun he => hlen (.inl he)
            · by_contra hlong
              exact hlen (.inr (by omega))
            · simpa using hstar
            · omega
            · intro l hl
              have hno := List.find?_eq_none.mp hfind l hl
              simp only [Bool.or_eq_true, decide_eq_true_eq, not_or,
                Bool.not_eq_true', Bool.not_eq_false] at hno
              exact ⟨by omega, by omega, hno.2⟩
  · rintro ⟨rfl, h⟩
    have hlen : ¬(normalizeDomainName net value = ""
        ∨ 253 < Text.length (normalizeDomainName net value)) := by
      rintro (he | hlong)
      · exact h.nonempty he
      · have := h.length
        omega
    have hfind : (Text.splitDots (normalizeDomainName net value).toList).find?
        (fun label => decide (label.length < 1 ∨ 63 < label.length)
          || !isLabel label) = none := by
      refine List.find?_eq_none.mpr fun l hl => ?_
      obtain ⟨h1, h2, h3⟩ := h.label l hl
      have hbound : ¬(l.length < 1 ∨ 63 < l.length) := by omega
      simp only [hbound, h3, decide_false, Bool.not_true, Bool.or_self,
        Bool.false_eq_true, not_false_eq_true]
    have hlabels := h.labels
    rw [if_neg hlen, if_neg (by simpa using h.noStar),
      if_neg (by omega), hfind]

/-- Every character of a host name is one of its alphabet. -/
theorem Hostname.isHostChar (h : Hostname name) :
    ∀ c ∈ name.toList, isHostChar c = true := by
  intro c hc
  rcases Text.mem_splitDots hc with rfl | ⟨l, hl, hcl⟩
  · rfl
  · obtain ⟨-, -, hlabel⟩ := h.label l hl
    simp only [isLabel, Bool.and_eq_true, List.all_eq_true] at hlabel
    have hchar := hlabel.2 c hcl
    simp only [Domains.isHostChar, Bool.or_eq_true] at hchar ⊢
    exact .inl hchar

theorem Hostname.getLast? (h : Hostname name) :
    name.toList.getLast? ≠ some '.' := by
  intro hdot
  obtain ⟨l, ls, hsplit⟩ := Text.splitDots_of_getLast? hdot
  have hempty := h.label [] (by rw [hsplit]; simp)
  simp at hempty

/-- Everything `normalizeDomainName` does around `domainToASCII` leaves a
host name alone. -/
theorem normalizeDomainName_of_hostname (h : Hostname name)
    (hascii : net.domainToASCII name = name) :
    normalizeDomainName net name = name := by
  have hchar := fun c hc => toNat_of_isHostChar (h.isHostChar c hc)
  have htrim : Text.trim name.toList = name.toList := by
    refine Text.trim_of_forall fun c hc => ?_
    obtain ⟨hlo, hhi, -⟩ := hchar c hc
    exact isSpace_of_range (by omega) (by omega)
  have hmap : name.toList.map (fun c => if isWideDot c then '.' else c)
      = name.toList := by
    refine (List.map_congr_left fun c hc => ?_).trans (List.map_id _)
    obtain ⟨-, hhi, -⟩ := hchar c hc
    have hwide : isWideDot c = false := by
      simp only [isWideDot, Bool.or_eq_false_iff, beq_eq_false_iff_ne]
      omega
    rw [hwide]
    rfl
  have hstrip : Text.stripDot name.toList = name.toList := by
    rw [Text.stripDot, if_neg h.getLast?]
  have hempty : name.toList.isEmpty = false := by
    cases hn : name.toList with
    | nil =>
        have hzero : name = "" := by
          rw [← String.ofList_toList (s := name), hn]
        exact absurd hzero h.nonempty
    | cons c cs => rfl
  have hstar : name.toList.contains '*' = false := by
    simpa using h.noStar
  have hcontrol : name.toList.any Text.isControl = false := by
    rw [List.any_eq_false]
    intro c hc
    obtain ⟨hlo, hhi, -⟩ := hchar c hc
    simp only [Text.isControl, Bool.or_eq_true, decide_eq_true_eq,
      beq_iff_eq]
    omega
  have hnfc : net.nfc name = name :=
    net.nfc_ascii name fun c hc => by
      obtain ⟨-, hhi, -⟩ := hchar c hc
      omega
  have hlower : Text.lower name.toList = name.toList :=
    Text.lower_of_forall fun c hc => isUpper_of_range (hchar c hc).2.2
  rw [normalizeDomainName]
  simp only [htrim, hmap, hstrip, hempty, hstar, hcontrol,
    Bool.false_eq_true, if_false, String.ofList_toList, hnfc, hascii, hlower]

/-- A host name that comes out of the normalizer is in the form
`domainToASCII` produces. -/
theorem domainToASCII_of_normalized
    (hnorm : normalizeDomainName net value = name) (h : Hostname name) :
    net.domainToASCII name = name := by
  rw [normalizeDomainName] at hnorm
  dsimp only at hnorm
  have hall : name.toList.all isHostChar = true :=
    List.all_eq_true.mpr h.isHostChar
  split at hnorm
  · exact absurd hnorm.symm h.nonempty
  · split at hnorm
    · -- a wildcard stays one in lower case
      rename_i hstar
      exfalso
      apply h.noStar
      rw [← hnorm, String.toList_ofList]
      have hmem := List.mem_map_of_mem (f := Char.toLower)
        (by simpa using hstar : '*' ∈ _)
      exact hmem
    · split at hnorm
      · exact absurd hnorm.symm h.nonempty
      · exact net.domainToASCII_stable _ name hall hnorm

/-- The normalizer is idempotent on what the registry accepts. -/
theorem isHostname_of_assert (h : assertDomainName net value = .ok name) :
    IsHostname net name := by
  obtain ⟨hnorm, hname⟩ := (assertDomainName_eq_ok net).mp h
  have hascii := domainToASCII_of_normalized net hnorm hname
  exact (assertDomainName_eq_ok net).mpr
    ⟨normalizeDomainName_of_hostname net hname hascii, hname⟩

variable {aliases : List String} {input : List Char} {host id : String}

theorem isHostname_of_normalizeAliases {seen names : List String}
    (h : normalizeAliases net seen names = .ok aliases) :
    ∀ name ∈ aliases, IsHostname net name := by
  induction names generalizing seen aliases with
  | nil =>
      obtain rfl := Except.ok.inj h
      simp
  | cons name rest ih =>
      rw [normalizeAliases] at h
      obtain ⟨normalized, hname, h⟩ := Result.bind_eq_ok.mp h
      split at h
      · exact ih h
      · obtain ⟨others, hothers, h⟩ := Result.bind_eq_ok.mp h
        obtain rfl := Except.ok.inj h
        intro other hother
        rcases List.mem_cons.mp hother with rfl | hother
        · exact isHostname_of_assert net hname
        · exact ih hothers other hother

/-- Every name of a normalized set is a host name. -/
theorem isHostname_of_normalizeDomains {primaryDomain : String}
    {names : DomainSet}
    (h : normalizeDomains net primaryDomain aliases = .ok names) :
    IsHostname net names.primary
      ∧ ∀ name ∈ names.aliases, IsHostname net name := by
  rw [normalizeDomains] at h
  obtain ⟨primary, hprimary, h⟩ := Result.bind_eq_ok.mp h
  obtain ⟨normalized, haliases, h⟩ := Result.bind_eq_ok.mp h
  obtain ⟨-, h⟩ := Result.guard_eq_ok.mp h
  obtain rfl := Except.ok.inj h
  exact ⟨isHostname_of_assert net hprimary,
    isHostname_of_normalizeAliases net haliases⟩

/-- A host name alone is a normalized set. -/
theorem normalizeDomains_of_isHostname (h : IsHostname net name) :
    normalizeDomains net name [] = .ok { primary := name, aliases := [] } := by
  rw [normalizeDomains, show assertDomainName net name = .ok name from h]
  rfl

-- ====== upstream hosts

/-- Every character of a list is one of the alphabet of addresses and host
names. -/
def Plain (cs : List Char) : Prop :=
  ∀ c ∈ cs, Text.isHex c = true ∨ isHostChar c = true ∨ c = ':'

theorem Plain.range (h : Plain cs) (hc : c ∈ cs) :
    0x2d ≤ c.toNat ∧ c.toNat < 0x7f ∧ c ≠ '['
      ∧ c ≠ ']' := by
  have hhost : isHostChar c = true → 0x2d ≤ c.toNat ∧ c.toNat < 0x7f
      ∧ c ≠ '[' ∧ c ≠ ']' := by
    intro hx
    obtain ⟨hlo, hhi, hcase⟩ := toNat_of_isHostChar hx
    refine ⟨hlo, hhi, ?_, ?_⟩
    · rintro rfl
      simp [isHostChar, isAlnum, Text.isDigit, Text.isLower] at hx
    · rintro rfl
      simp [isHostChar, isAlnum, Text.isDigit, Text.isLower] at hx
  rcases h c hc with hx | hx | rfl
  · refine hhost ?_
    simp only [Text.isHex, Text.isDigit, Bool.or_eq_true, Bool.and_eq_true,
      decide_eq_true_eq] at hx
    simp only [isHostChar, isAlnum, Text.isDigit, Text.isLower,
      Bool.or_eq_true, Bool.and_eq_true, decide_eq_true_eq, beq_iff_eq]
    rcases hx with hx | ⟨hlo, hhi⟩
    · exact .inl (.inl (.inl hx))
    · have hz : 'f' ≤ 'z' := by decide
      exact .inl (.inl (.inr ⟨hlo, Char.le_trans hhi hz⟩))
  · exact hhost hx
  · decide

/-- A plain text is classified as it is. -/
theorem normalizeProxyHost_of_plain (hplain : Plain cs) (hempty : cs ≠ [])
    (hlength : Text.length (String.ofList cs) ≤ 253) :
    normalizeProxyHost net (String.ofList cs) = addressOrName net cs := by
  have htrim : Text.trim cs = cs := by
    refine Text.trim_of_forall fun c hc => ?_
    obtain ⟨hlo, hhi, -, -⟩ := hplain.range hc
    exact isSpace_of_range (by omega) (by omega)
  have hcontrol : cs.any (fun c => c.toNat ≤ 0x20 || c.toNat == 0x7f)
      = false := by
    rw [List.any_eq_false]
    intro c hc
    obtain ⟨hlo, hhi, -, -⟩ := hplain.range hc
    simp only [Bool.or_eq_true, decide_eq_true_eq, beq_iff_eq]
    omega
  have hopen : cs.contains '[' = false := by
    rw [List.contains_eq_mem, decide_eq_false_iff_not]
    exact fun hmem => (hplain.range hmem).2.2.1 rfl
  have hclose : cs.contains ']' = false := by
    rw [List.contains_eq_mem, decide_eq_false_iff_not]
    exact fun hmem => (hplain.range hmem).2.2.2 rfl
  have hhead : (cs.head? == some '[') = false := by
    rw [beq_eq_false_iff_ne]
    intro heq
    exact (hplain.range (List.mem_of_head? heq)).2.2.1 rfl
  have hisEmpty : cs.isEmpty = false := by
    simpa using hempty
  have hlong : decide (253 < Text.length (String.ofList cs)) = false := by
    simpa using hlength
  rw [normalizeProxyHost]
  simp only [String.toList_ofList, htrim, hisEmpty, hlong, hcontrol, hopen,
    hclose, hhead, Bool.or_self, Bool.false_and, Bool.false_eq_true,
    if_false]

theorem length_of_range (h : ∀ c ∈ cs, c.toNat < 0x80) :
    Text.length (String.ofList cs) = cs.length := by
  have hunits : cs.map Text.units = List.replicate cs.length 1 := by
    refine List.eq_replicate_iff.mpr ⟨by simp, fun u hu => ?_⟩
    obtain ⟨c, hc, rfl⟩ := List.mem_map.mp hu
    have hlt := h c hc
    unfold Text.units
    rw [if_pos]
    have hval : c.val.toNat < 0x80 := hlt
    rw [UInt32.lt_iff_toNat_lt]
    have he : (0x10000 : UInt32).toNat = 65536 := rfl
    omega
  rw [Text.length, String.toList_ofList, hunits]
  simp

/-- What the classification returns is plain, and is classified as
itself. -/
structure Settled (cs : List Char) : Prop where
  plain : Plain cs
  nonempty : cs ≠ []
  length : cs.length ≤ 253
  again : addressOrName net cs = some (String.ofList cs)

theorem settled_v4 (hip : net.isIP (String.ofList cs) = some .v4) :
    Settled net cs := by
  obtain ⟨hlen, hne, hchars⟩ := net.isIP_v4 _ hip
  rw [String.toList_ofList] at hlen hchars
  refine ⟨?_, ?_, by omega, ?_⟩
  · intro c hc
    rcases hchars c hc with hd | rfl
    · exact .inl (by simp [Text.isHex, hd])
    · exact .inr (.inl rfl)
  · intro hnil
    exact hne (by rw [hnil])
  · rw [addressOrName, hip]

theorem settled_v6 (hip : net.isIP value = some .v6)
    (hhost : net.ipv6Hostname value = some (String.ofList cs)) :
    Settled net cs := by
  obtain ⟨hip', hself, hlen, hchars⟩ :=
    net.ipv6Hostname_canonical _ _ hip hhost
  rw [String.toList_ofList] at hlen hchars
  refine ⟨?_, ?_, by omega, ?_⟩
  · intro c hc
    rcases hchars c hc with hx | rfl
    · exact .inl hx
    · exact .inr (.inr rfl)
  · intro hnil
    have hcolon := net.isIP_v6 _ hip'
    rw [String.toList_ofList, hnil] at hcolon
    cases hcolon
  · rw [addressOrName, hip']
    exact hself

/-- Labels of a DNS name make a host name. -/
theorem isHostChar_of_proxyLabels
    (h : ∀ l ∈ Text.splitDots cs, isProxyLabel l = true) :
    ∀ c ∈ cs, isHostChar c = true := by
  intro c hc
  rcases Text.mem_splitDots hc with rfl | ⟨l, hl, hcl⟩
  · rfl
  · have hlabel := h l hl
    simp only [isProxyLabel, isLabel, Bool.and_eq_true, List.all_eq_true]
      at hlabel
    have hchar := hlabel.1.2 c hcl
    simp only [isHostChar, Bool.or_eq_true] at hchar ⊢
    exact .inl hchar

theorem not_isUrlChar (h : isHostChar c = true) :
    isUrlChar c = false := by
  by_contra hurl
  rw [Bool.not_eq_false] at hurl
  simp [isUrlChar] at hurl
  rcases hurl with rfl | rfl | rfl | rfl | rfl | rfl | rfl <;>
    simp [isHostChar, isAlnum, Text.isDigit, Text.isLower] at h

theorem settled_dns (h : dnsHost net input = some host) :
    Settled net host.toList := by
  rw [dnsHost] at h
  split at h
  · cases h
  dsimp only at h
  generalize hascii : Text.stripDot (Text.lower
    (net.domainToASCII (String.ofList input)).toList) = ascii at h
  split at h
  · cases h
  rename_i hbad
  obtain rfl := Option.some.inj h
  rw [String.toList_ofList]
  simp only [Bool.or_eq_true, not_or, decide_eq_true_eq] at hbad
  obtain ⟨⟨hempty, hlong⟩, hlabels⟩ := hbad
  have hlabel : ∀ l ∈ Text.splitDots ascii, isProxyLabel l = true := by
    intro l hl
    by_contra hno
    exact hlabels (List.any_eq_true.mpr ⟨l, hl, by simpa using hno⟩)
  have hhost := isHostChar_of_proxyLabels hlabel
  have hstable : net.domainToASCII (String.ofList ascii)
      = String.ofList ascii := by
    refine net.domainToASCII_stable (String.ofList input) _ ?_ ?_
    · rw [String.toList_ofList, List.all_eq_true]
      exact hhost
    · rw [hascii]
  have hlower : Text.lower ascii = ascii :=
    Text.lower_of_forall fun c hc =>
      isUpper_of_range (toNat_of_isHostChar (hhost c hc)).2.2
  have hstrip : Text.stripDot ascii = ascii := by
    have hlast : ascii.getLast? ≠ some '.' := by
      intro hdot
      obtain ⟨l, ls, hsplit⟩ := Text.splitDots_of_getLast? hdot
      have hnil := hlabel [] (by rw [hsplit]; simp)
      simp [isProxyLabel, isLabel] at hnil
    rw [Text.stripDot, if_neg hlast]
  have hlength : Text.length (String.ofList ascii) = ascii.length := by
    refine length_of_range fun c hc => ?_
    have hr := toNat_of_isHostChar (hhost c hc)
    omega
  refine ⟨fun c hc => .inr (.inl (hhost c hc)), ?_, by omega, ?_⟩
  · intro hnil
    rw [hnil] at hempty
    exact hempty rfl
  · rw [addressOrName]
    cases hip : net.isIP (String.ofList ascii) with
    | none =>
        have hurl : ascii.any isUrlChar = false := by
          rw [List.any_eq_false]
          intro c hc
          rw [not_isUrlChar (hhost c hc)]
          exact Bool.false_ne_true
        have hany : (Text.splitDots ascii).any (fun l => !isProxyLabel l)
            = false := by
          rw [List.any_eq_false]
          intro l hl
          simp [hlabel l hl]
        have hnotEmpty : ascii.isEmpty = false := by simpa using hempty
        have hshort : decide (253 < Text.length (String.ofList ascii))
            = false := by simpa using hlong
        simp only [dnsHost, hurl, hstable, String.toList_ofList, hlower,
          hstrip, hnotEmpty, hshort, hany, Bool.or_self, Bool.false_eq_true,
          if_false]
    | some version =>
        cases version with
        | v4 => rfl
        | v6 =>
            have hcolon := net.isIP_v6 _ hip
            rw [String.toList_ofList] at hcolon
            have hchar := hhost ':' hcolon
            simp [isHostChar, isAlnum, Text.isDigit, Text.isLower] at hchar

theorem settled_addressOrName (h : addressOrName net input = some host) :
    Settled net host.toList := by
  rw [addressOrName] at h
  split at h
  · rename_i hip
    obtain rfl := Option.some.inj h
    rw [String.toList_ofList]
    exact settled_v4 net hip
  · rename_i hip
    refine settled_v6 net hip ?_
    rw [String.ofList_toList]
    exact h
  · exact settled_dns net h

theorem normalizeProxyHost_stable
    (h : normalizeProxyHost net value = some host) :
    normalizeProxyHost net host = some host := by
  have hsettled : Settled net host.toList := by
    rw [normalizeProxyHost] at h
    dsimp only at h
    split at h
    · cases h
    · split at h
      · cases h
      · exact settled_addressOrName net h
  have hlength : Text.length (String.ofList host.toList) ≤ 253 := by
    rw [length_of_range]
    · exact hsettled.length
    · intro c hc
      have hr := hsettled.plain.range hc
      omega
  have hagain := normalizeProxyHost_of_plain net hsettled.plain
    hsettled.nonempty hlength
  rw [hsettled.again, String.ofList_toList] at hagain
  exact hagain

-- ====== UUIDs

/-- A UUID in lower case is taken as it is. -/
theorem assertUuid_of_shape (h : Text.shape uuidShape id.toList = true) :
    assertUuid id = some id := by
  have hlower : Text.lower id.toList = id.toList := by
    refine Text.lower_of_forall fun c hc => ?_
    obtain ⟨p, hp, hpc⟩ := Text.exists_class_of_shape h c hc
    have hplain : Plain [c] := by
      intro d hd
      obtain rfl := List.mem_singleton.mp hd
      rcases class_of_mem_uuidShape hp d hpc with hx | rfl
      · exact .inl hx
      · exact .inr (.inl rfl)
    refine isUpper_of_range ?_
    rcases class_of_mem_uuidShape hp c hpc with hx | rfl
    · simp only [Text.isHex, Text.isDigit, Bool.or_eq_true,
        Bool.and_eq_true, decide_eq_true_eq] at hx
      rcases hx with ⟨-, hhi⟩ | ⟨hlo, -⟩
      · have hhi' : c.toNat ≤ '9'.toNat := hhi
        have e : '9'.toNat = 0x39 := rfl
        omega
      · have hlo' : 'a'.toNat ≤ c.toNat := hlo
        have e : 'a'.toNat = 0x61 := rfl
        omega
    · decide
  rw [assertUuid]
  simp only [hlower, h, if_true, String.ofList_toList]

theorem shape_of_assertUuid (h : assertUuid value = some id) :
    Text.shape uuidShape id.toList = true := by
  rw [assertUuid] at h
  split at h
  · rename_i hshape
    obtain rfl := Option.some.inj h
    rw [String.toList_ofList]
    exact hshape
  · cases h

theorem assertUuid_stable (h : assertUuid value = some id) :
    assertUuid id = some id :=
  assertUuid_of_shape (shape_of_assertUuid h)

end Yunpanel.Domains
