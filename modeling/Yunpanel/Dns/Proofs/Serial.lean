/-
The serial of a zone, and the RRset it is read from.

The serial is the third word of the SOA record at the name of the zone. Keys
of proper RRsets are apart, so the zone says which RRset that is
(`serial_eq_serialOf`), and an RRset whose third word is a number has it as
its serial, whatever its other words are (`serialOf_spaced`).
-/
import Yunpanel.Dns.Proofs.Zone

namespace Yunpanel.Dns

open Lib Lib.Keyed Lib.Result

-- ====== words

variable {cs : List Char} {rrset : Rrset}

theorem spaceless_of_splitSpaces {w : List Char} (hw : w ∈ splitSpaces cs) :
    Spaceless w := by
  induction cs generalizing w with
  | nil =>
      rw [splitSpaces, List.mem_singleton] at hw
      rw [hw]
      intro d hd
      cases hd
  | cons c cs ih =>
      unfold splitSpaces at hw
      split at hw
      · split at hw
        · exact ih hw
        · rcases List.mem_cons.mp hw with rfl | hw
          · intro d hd
            cases hd
          · exact ih hw
      · rename_i hc
        rw [Bool.not_eq_true] at hc
        cases hsplit : splitSpaces cs with
        | nil => exact absurd hsplit (splitSpaces_ne_nil cs)
        | cons word words =>
            rw [hsplit] at hw
            dsimp only at hw
            rcases List.mem_cons.mp hw with rfl | hw
            · have hword := ih (hsplit ▸ List.mem_cons_self)
              intro d hd
              rcases List.mem_cons.mp hd with rfl | hd
              · exact hc
              · exact hword d hd
            · exact ih (hsplit ▸ List.mem_cons_of_mem word hw)

/-- A text that starts with no space starts with a word. -/
theorem head_splitSpaces {c : Char} (hc : Text.isSpace c = false)
    (cs : List Char) :
    ∃ word words, splitSpaces (c :: cs) = (c :: word) :: words
      ∧ (splitSpaces cs).tail = words := by
  rw [splitSpaces, if_neg (by simp [hc])]
  cases hsplit : splitSpaces cs with
  | nil => exact absurd hsplit (splitSpaces_ne_nil cs)
  | cons word words => exact ⟨word, words, rfl, rfl⟩

/-- No word but the first can be empty in a text that ends with no space. -/
theorem nonempty_of_tail (hlast : cs.getLast?.any Text.isSpace = false) :
    ∀ w ∈ (splitSpaces cs).tail, w ≠ [] := by
  induction cs with
  | nil => exact nofun
  | cons c cs ih =>
      cases cs with
      | nil =>
          have hc : Text.isSpace c = false := by simpa using hlast
          intro w hw
          rw [splitSpaces_word (w := [c]) (by
            intro d hd
            rw [List.mem_singleton.mp hd]
            exact hc)] at hw
          cases hw
      | cons d ds =>
          rw [List.getLast?_cons_cons] at hlast
          have hrest := ih hlast
          by_cases hc : Text.isSpace c = true
          · unfold splitSpaces
            rw [if_pos hc]
            by_cases hd : Text.isSpace d = true
            · rw [if_pos (by simpa using hd)]
              exact hrest
            · rw [if_neg (by simpa using hd)]
              rw [Bool.not_eq_true] at hd
              obtain ⟨word, words, hsplit, -⟩ := head_splitSpaces hd ds
              intro w hw
              rw [List.tail_cons, hsplit] at hw
              rcases List.mem_cons.mp hw with rfl | hw
              · simp
              · exact hrest w (by rw [hsplit]; exact hw)
          · rw [Bool.not_eq_true] at hc
            obtain ⟨word, words, hsplit, htail⟩ :=
              head_splitSpaces hc (d :: ds)
            rw [hsplit, List.tail_cons, ← htail]
            exact hrest

/-- The words of a trimmed text. -/
theorem words_of_trim (hne : Text.trim cs ≠ []) :
    ∀ w ∈ splitSpaces (Text.trim cs), Word w := by
  intro w hw
  refine ⟨?_, spaceless_of_splitSpaces hw⟩
  have hhead := head?_trim cs
  have hlast := getLast?_trim cs
  revert hne hhead hlast hw
  generalize Text.trim cs = ds
  intro hne hw hhead hlast
  obtain ⟨d, ds, rfl⟩ := List.exists_cons_of_ne_nil hne
  have hd : Text.isSpace d = false := hhead
  obtain ⟨word, words, hsplit, -⟩ := head_splitSpaces hd ds
  have htail := nonempty_of_tail hlast
  rw [hsplit] at hw htail
  rcases List.mem_cons.mp hw with rfl | hw
  · simp
  · exact htail w hw

-- ====== keys

theorem toList_keyText (name type : String) :
    (keyText name type).toList
      = Text.lower name.toList ++ '\x00' :: upper type.toList := by
  unfold keyText lowerText upperText
  rw [String.toList_append, String.toList_append, String.toList_ofList,
    String.toList_ofList, String.toList_ofList]
  show (_ ++ ['\x00']) ++ _ = _
  rw [List.append_assoc, List.singleton_append]

/-- The name and the type of a key. -/
theorem keyText_inj {m n s t : String} (hm : IsName m) (hn : IsName n)
    (hkey : keyText m s = keyText n t) :
    lowerText m = lowerText n ∧ upperText s = upperText t := by
  have hnul : ∀ name : String, IsName name → ∀ c ∈ Text.lower name.toList,
      (c != '\x00') = true := by
    intro name hname c hc
    have hprinted := hname.lowerText.printed c (by
      unfold lowerText
      rwa [String.toList_ofList])
    rw [bne_iff_ne]
    rintro rfl
    have hzero : ('\x00' : Char).toNat = 0 := rfl
    omega
  have htake : ∀ (name : String) (rest : List Char), IsName name →
      (Text.lower name.toList ++ '\x00' :: rest).takeWhile (· != '\x00')
        = Text.lower name.toList := by
    intro name rest hname
    rw [List.takeWhile_append_of_pos (hnul name hname)]
    simp
  have hlists := congrArg String.toList hkey
  rw [toList_keyText, toList_keyText] at hlists
  have hname := congrArg (List.takeWhile (· != '\x00')) hlists
  rw [htake m _ hm, htake n _ hn] at hname
  rw [hname] at hlists
  have htype := (List.cons.inj (List.append_cancel_left hlists)).2
  unfold lowerText upperText
  exact ⟨congrArg String.ofList hname, congrArg String.ofList htype⟩

-- ====== serials

/-- The serial of an RRset that is taken for the SOA record. -/
def serialOf (soa : Option Rrset) : Option Nat :=
  let content := (soa.bind fun rrset => rrset.records.head?).map Entry.content
  let parts := (content.map fun text => splitSpaces text.toList).getD []
  ((parseInt (parts.getD 2 [])).filter fun n =>
    0 < n ∧ n ≤ maxSafeInteger).map Int.toNat

/-- The key of the SOA record of a zone. -/
def soaKey (zoneName : String) : String := keyText (fqdnText zoneName) "SOA"

theorem isName_fqdnText (zone : Owner) : IsName (fqdnText zone.text) := by
  have howned : Owned {
      key := ""
      owner := zone.text
      type := .soa
      ttl := 0
      values := []
      source := .template
      templateVersion := none } := ⟨zone.allowed, zone.relative⟩
  exact howned.isName

theorem lowerText_fqdnText (zone : Owner) :
    lowerText (fqdnText zone.text) = fqdnText zone.text := by
  have howned : Owned {
      key := ""
      owner := zone.text
      type := .soa
      ttl := 0
      values := []
      source := .template
      templateVersion := none } := ⟨zone.allowed, zone.relative⟩
  exact howned.lowerText

/-- The SOA record of a normal RRset list is the one with its key. -/
theorem find?_soa {zone : Owner} {rrsets : List Rrset}
    (hproper : ∀ rrset ∈ rrsets, Proper rrset)
    (hnormal : ∀ rrset ∈ rrsets, normalizedExistingRrset rrset = rrset) :
    rrsets.find? (fun entry =>
        entry.name = fqdnText zone.text ∧ entry.type = "SOA")
      = get rrsetKey rrsets (soaKey zone.text) := by
  induction rrsets with
  | nil => rfl
  | cons rrset rrsets ih =>
      rw [List.forall_mem_cons] at hproper hnormal
      have hsoa : IsType "SOA" := isType_text .soa
      have hiff : (rrset.name = fqdnText zone.text ∧ rrset.type = "SOA")
          ↔ rrsetKey rrset = soaKey zone.text := by
        constructor
        · rintro ⟨hname, htype⟩
          unfold rrsetKey soaKey
          rw [hname, htype]
        · intro hkey
          obtain ⟨hname, htype⟩ := keyText_inj hproper.1.name
            (isName_fqdnText zone) hkey
          rw [lowerText_fqdnText] at hname
          rw [hsoa.upperText] at htype
          rw [← hnormal.1]
          exact ⟨hname, htype⟩
      rw [get_cons]
      by_cases hkey : rrsetKey rrset = soaKey zone.text
      · rw [if_pos hkey, List.find?_cons_of_pos
          (by rw [decide_eq_true_eq]; exact hiff.mpr hkey)]
      · rw [if_neg hkey, List.find?_cons_of_neg
          (by rw [decide_eq_true_eq]; exact fun h => hkey (hiff.mp h)),
          ih hproper.2 hnormal.2]

/-- What is read of a hosted zone is normal. -/
theorem normal_readZone {zoneName : String} {hosted : Hosted}
    (hrrset : rrset ∈ (readZone zoneName hosted).rrsets) :
    Proper rrset ∧ normalizedExistingRrset rrset = rrset := by
  obtain ⟨raw, hraw, rfl⟩ := List.mem_map.mp hrrset
  exact ⟨Proper.normalized ⟨hosted.named raw hraw, hosted.typed raw hraw⟩,
    normalized_normalized raw⟩

theorem serial_eq_serialOf (zone : Owner) (hosted : Hosted) :
    (readZone zone.text hosted).serial
      = serialOf (get rrsetKey (readZone zone.text hosted).rrsets
          (soaKey zone.text)) := by
  rw [← find?_soa (fun rrset hrrset => (normal_readZone hrrset).1)
    (fun rrset hrrset => (normal_readZone hrrset).2)]
  rfl

theorem parseInt_decimal (n : Nat) : parseInt (decimal n) = some (Int.ofNat n) := by
  have hdigit := isDigit_decimal n
  have htake : (decimal n).takeWhile Text.isDigit = decimal n :=
    List.takeWhile_eq_self_iff.mpr hdigit
  have hne : (decimal n).isEmpty = false := by
    rw [List.isEmpty_eq_false_iff]
    exact Nat.toDigits_ne_nil
  have hread : Nat.ofDigitChars 10 (decimal n) 0 = n :=
    Nat.ofDigitChars_ten_toDigits
  unfold parseInt
  split
  · rename_i cs heq
    have hminus := hdigit '-' (heq ▸ List.mem_cons_self)
    exact absurd hminus (by decide)
  · rename_i cs heq
    have hplus := hdigit '+' (heq ▸ List.mem_cons_self)
    exact absurd hplus (by decide)
  · dsimp only
    rw [htake, hne, if_neg (by decide), hread]
    rfl

/-- An RRset whose third word is a number has it as its serial. -/
theorem serialOf_spaced {words : List (List Char)} {n : Nat}
    {disabled : Bool} {entries : List Entry} (hrecords : rrset.records
      = { content := String.ofList (spaced words), disabled := disabled } :: entries)
    (hwords : ∀ w ∈ words, Word w) (hthird : words[2]? = some (decimal n))
    (hpos : 0 < n) (hmax : n ≤ 4294967295) :
    serialOf (some rrset) = some n := by
  have hne : words ≠ [] := by
    rintro rfl
    cases hthird
  have hget : words.getD 2 [] = decimal n := by
    rw [List.getD_eq_getElem?_getD, hthird, Option.getD_some]
  unfold serialOf
  dsimp only
  rw [Option.bind_some, hrecords, List.head?_cons, Option.map_some,
    Option.map_some, Option.getD_some, String.toList_ofList,
    splitSpaces_spaced hne hwords, hget, parseInt_decimal, Option.filter_some,
    if_pos]
  · rfl
  · have hcast : Int.ofNat n = (n : Int) := rfl
    rw [decide_eq_true_eq, hcast]
    unfold maxSafeInteger
    omega

end Yunpanel.Dns
