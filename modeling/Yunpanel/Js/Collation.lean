/-
The two orders JavaScript puts texts in.

`sort` without a comparison goes by UTF-16 units, `localeCompare` by the
collation of the process. They are different orders: the collation knows
letters without their case first, and has its own place for every sign.
What is defined here is the root collation, which the process has unless
it is started under a locale with letters of its own, on the texts the
program compares with it: identifiers of `[A-Za-z0-9_.:-]` and addresses
of `[a-z0-9._+@-]`.

# Where the two agree

On texts of lower-case letters, digits and dashes (`Text.isPlain`) they
are the same order (`weights_lt_iff`). A colon breaks it, being above the
digits in the one and below them in the other, so an identifier with
colons in it has to be taken apart where they stand.
-/
import Yunpanel.Js.Text
import Mathlib.Data.List.Sort
import Mathlib.Data.List.Lex
import Mathlib.Data.Prod.Lex

namespace Yunpanel.Text

-- ====== UTF-16 units

/-- The UTF-16 units of one character. -/
def unitsOf (c : Char) : List Nat :=
  if c.toNat < 0x10000 then [c.toNat]
  else
    [0xd800 + (c.toNat - 0x10000) / 0x400,
      0xdc00 + (c.toNat - 0x10000) % 0x400]

def utf16 (s : String) : List Nat := s.toList.flatMap unitsOf

/-- `[...values].sort()` -/
def sort (values : List String) : List String :=
  values.insertionSort fun a b => utf16 a ≤ utf16 b

theorem sort_perm (values : List String) : (sort values).Perm values :=
  List.perm_insertionSort _ values

theorem pairwise_sort (values : List String) :
    (sort values).Pairwise fun a b => utf16 a ≤ utf16 b :=
  haveI : Std.Total fun a b : String => utf16 a ≤ utf16 b :=
    ⟨fun a b => le_total (utf16 a) (utf16 b)⟩
  haveI : IsTrans String fun a b => utf16 a ≤ utf16 b :=
    ⟨fun _ _ _ => le_trans⟩
  List.pairwise_insertionSort _ values

/-- A text is known by its UTF-16 units: a character of two units starts
with one that is no character. -/
theorem utf16_injective : Function.Injective utf16 := by
  intro s t h
  apply String.toList_inj.mp
  have hvalid : ∀ c : Char,
      c.toNat < 0xd800 ∨ 0xdfff < c.toNat ∧ c.toNat < 0x110000 :=
    fun c => c.valid
  have hall : ∀ cs ds : List Char,
      cs.flatMap unitsOf = ds.flatMap unitsOf → cs = ds := by
    intro cs
    induction cs with
    | nil =>
        intro ds hds
        cases ds with
        | nil => rfl
        | cons d ds =>
            rw [List.flatMap_nil, List.flatMap_cons] at hds
            unfold unitsOf at hds
            split at hds <;> cases hds
    | cons c cs ih =>
        intro ds hds
        cases ds with
        | nil =>
            rw [List.flatMap_nil, List.flatMap_cons] at hds
            unfold unitsOf at hds
            split at hds <;> cases hds
        | cons d ds =>
            have hc := hvalid c
            have hd := hvalid d
            rw [List.flatMap_cons, List.flatMap_cons] at hds
            have hhead : c.toNat = d.toNat
                ∧ cs.flatMap unitsOf = ds.flatMap unitsOf := by
              by_cases hcs : c.toNat < 0x10000 <;>
              by_cases hds' : d.toNat < 0x10000 <;>
              simp only [unitsOf, hcs, hds', if_true, if_false,
                List.cons_append, List.nil_append, List.cons.injEq] at hds
              · exact hds
              · omega
              · omega
              · exact ⟨by omega, hds.2.2⟩
            rw [Char.toNat_inj.mp hhead.1, ih ds hhead.2]
  exact hall _ _ h

-- ====== collation

/-- Where a character stands in the root collation, its case aside. -/
def weight (c : Char) : Nat :=
  if c == '_' then 0
  else if c == '-' then 1
  else if c == ':' then 2
  else if c == '.' then 3
  else if c == '@' then 4
  else if c == '+' then 5
  else if isDigit c then 6 + (c.toNat - '0'.toNat)
  else if isLower c then 16 + (c.toNat - 'a'.toNat)
  else if isUpper c then 16 + (c.toNat - 'A'.toNat)
  else 42 + c.toNat

def weights (s : String) : List Nat := s.toList.map weight

/-- A small letter comes before its capital. -/
def cases (s : String) : List Nat :=
  s.toList.map fun c => if isUpper c then 1 else 0

/-- `left.localeCompare(right)`: letters first, and their case where the
letters are the same. -/
def localeCompare (left right : String) : Ordering :=
  if weights left < weights right then .lt
  else if weights right < weights left then .gt
  else if cases left < cases right then .lt
  else if cases right < cases left then .gt
  else .eq

variable {left right : String} {d : Char}

/-- The text that comes later is greater. -/
theorem localeCompare_eq_gt (h : weights right < weights left) :
    localeCompare left right = .gt := by
  have hnot : ¬weights left < weights right := not_lt_of_gt h
  unfold localeCompare
  rw [if_neg hnot, if_pos h]

/-- What `localeCompare` compares of a text. -/
def collationKey (s : String) : List Nat ×ₗ List Nat :=
  toLex (weights s, cases s)

theorem localeCompare_eq_lt_iff :
    localeCompare left right = .lt
      ↔ collationKey left < collationKey right := by
  have hlex : collationKey left < collationKey right
      ↔ weights left < weights right
        ∨ weights left = weights right ∧ cases left < cases right :=
    Prod.Lex.toLex_lt_toLex
  rw [hlex]
  rcases lt_trichotomy (weights left) (weights right) with h | h | h
  · simp [localeCompare, h]
  · by_cases hc : cases left < cases right
    · simp [localeCompare, h, hc]
    · by_cases hc' : cases right < cases left <;>
        simp [localeCompare, h, hc, hc']
  · simp [localeCompare, h, not_lt_of_gt h, ne_of_gt h]

theorem localeCompare_eq_gt_iff :
    localeCompare left right = .gt
      ↔ collationKey right < collationKey left := by
  have hlex : collationKey right < collationKey left
      ↔ weights right < weights left
        ∨ weights right = weights left ∧ cases right < cases left :=
    Prod.Lex.toLex_lt_toLex
  rw [hlex]
  rcases lt_trichotomy (weights left) (weights right) with h | h | h
  · simp [localeCompare, h, not_lt_of_gt h, ne_of_gt h]
  · by_cases hc : cases left < cases right
    · have hc' : ¬cases right < cases left := not_lt_of_gt hc
      simp [localeCompare, h, hc, hc']
    · by_cases hc' : cases right < cases left <;>
        simp [localeCompare, h, hc, hc']
  · simp [localeCompare, h, not_lt_of_gt h]

theorem localeCompare_ne_gt_iff :
    localeCompare left right ≠ .gt
      ↔ collationKey left ≤ collationKey right := by
  rw [ne_eq, localeCompare_eq_gt_iff, not_lt]

instance : Std.TransCmp localeCompare where
  eq_swap {a b} := by
    cases h : localeCompare b a with
    | lt =>
        rw [localeCompare_eq_lt_iff] at h
        exact localeCompare_eq_gt_iff.mpr h
    | gt =>
        rw [localeCompare_eq_gt_iff] at h
        exact localeCompare_eq_lt_iff.mpr h
    | eq =>
        have hlt : localeCompare a b ≠ .lt := fun hlt => by
          rw [localeCompare_eq_lt_iff, ← localeCompare_eq_gt_iff, h] at hlt
          cases hlt
        have hgt : localeCompare a b ≠ .gt := fun hgt => by
          rw [localeCompare_eq_gt_iff, ← localeCompare_eq_lt_iff, h] at hgt
          cases hgt
        cases hab : localeCompare a b with
        | lt => exact absurd hab hlt
        | gt => exact absurd hab hgt
        | eq => rfl
  isLE_trans {a b c} hab hbc := by
    have hkey : ∀ x y, (localeCompare x y).isLE = true
        ↔ collationKey x ≤ collationKey y := fun _ _ =>
      Ordering.ne_gt_iff_isLE.symm.trans localeCompare_ne_gt_iff
    rw [hkey] at hab hbc ⊢
    exact le_trans hab hbc

theorem localeCompare_self (s : String) : localeCompare s s = .eq := by
  have hw : ¬weights s < weights s := lt_irrefl _
  have hc : ¬cases s < cases s := lt_irrefl _
  unfold localeCompare
  rw [if_neg hw, if_neg hw, if_neg hc, if_neg hc]

-- ====== agreement

/-- `[a-z0-9-]` -/
def isPlain (c : Char) : Bool := isDigit c || isLower c || c == '-'

/-- A sign is none of the characters from the digits on. -/
theorem beq_sign_of_lt {c : Char} (h : d.toNat < c.toNat) :
    (c == d) = false :=
  beq_eq_false_iff_ne.mpr fun he => Nat.lt_irrefl _ (he ▸ h)

/-- The range a digit stands in, and its weight. -/
theorem weight_of_isDigit {c : Char} (h : isDigit c = true) :
    48 ≤ c.toNat ∧ c.toNat ≤ 57 ∧ weight c = 6 + (c.toNat - 48) := by
  have hd : 48 ≤ c.toNat ∧ c.toNat ≤ 57 := by
    simpa [isDigit, Char.le_def, UInt32.le_iff_toNat_le] using h
  have hsign : ∀ d : Char, d.toNat < 48 ∨ 57 < d.toNat →
      (c == d) = false :=
    fun d hrange => beq_eq_false_iff_ne.mpr fun he => by
      rw [he] at hd
      omega
  refine ⟨hd.1, hd.2, ?_⟩
  unfold weight
  rw [hsign '_' (by decide), hsign '-' (by decide), hsign ':' (by decide),
    hsign '.' (by decide), hsign '@' (by decide), hsign '+' (by decide), h]
  rfl

/-- The range a small letter stands in, and its weight. -/
theorem weight_of_isLower {c : Char} (h : isLower c = true) :
    97 ≤ c.toNat ∧ c.toNat ≤ 122 ∧ weight c = 16 + (c.toNat - 97) := by
  have hl : 97 ≤ c.toNat ∧ c.toNat ≤ 122 := by
    simpa [isLower, Char.le_def, UInt32.le_iff_toNat_le] using h
  have hsign : ∀ d : Char, d.toNat < 97 → (c == d) = false :=
    fun d hd => beq_sign_of_lt (by omega)
  have hdigit : isDigit c = false := by
    rw [← Bool.not_eq_true]
    intro hd
    have hrange := weight_of_isDigit hd
    omega
  refine ⟨hl.1, hl.2, ?_⟩
  unfold weight
  rw [hsign '_' (by decide), hsign '-' (by decide), hsign ':' (by decide),
    hsign '.' (by decide), hsign '@' (by decide), hsign '+' (by decide),
    hdigit, h]
  rfl

/-- A character is a sign, a digit, a letter or neither of them, and what
its weight is then. -/
theorem weight_cases (c : Char) :
    (isUpper c = false ∧ (c.toNat = 95 ∧ weight c = 0
        ∨ c.toNat = 45 ∧ weight c = 1 ∨ c.toNat = 58 ∧ weight c = 2
        ∨ c.toNat = 46 ∧ weight c = 3 ∨ c.toNat = 64 ∧ weight c = 4
        ∨ c.toNat = 43 ∧ weight c = 5))
      ∨ (isUpper c = false ∧ 48 ≤ c.toNat ∧ c.toNat ≤ 57
        ∧ weight c = 6 + (c.toNat - 48))
      ∨ (isUpper c = false ∧ 97 ≤ c.toNat ∧ c.toNat ≤ 122
        ∧ weight c = 16 + (c.toNat - 97))
      ∨ (isUpper c = true ∧ 65 ≤ c.toNat ∧ c.toNat ≤ 90
        ∧ weight c = 16 + (c.toNat - 65))
      ∨ (isUpper c = false ∧ weight c = 42 + c.toNat) := by
  by_cases hsign : c ∈ ['_', '-', ':', '.', '@', '+']
  · left
    simp only [List.mem_cons, List.not_mem_nil, or_false] at hsign
    rcases hsign with rfl | rfl | rfl | rfl | rfl | rfl <;> decide
  · simp only [List.mem_cons, List.not_mem_nil, or_false, not_or] at hsign
    obtain ⟨h₀, h₁, h₂, h₃, h₄, h₅⟩ := hsign
    have hup : isUpper c = true ↔ 65 ≤ c.toNat ∧ c.toNat ≤ 90 := by
      simp [isUpper, Char.le_def, UInt32.le_iff_toNat_le]
    have hlow : isLower c = true ↔ 97 ≤ c.toNat ∧ c.toNat ≤ 122 := by
      simp [isLower, Char.le_def, UInt32.le_iff_toNat_le]
    have hdig : isDigit c = true ↔ 48 ≤ c.toNat ∧ c.toNat ≤ 57 := by
      simp [isDigit, Char.le_def, UInt32.le_iff_toNat_le]
    have hw : weight c
        = if isDigit c then 6 + (c.toNat - 48)
          else if isLower c then 16 + (c.toNat - 97)
          else if isUpper c then 16 + (c.toNat - 65)
          else 42 + c.toNat := by
      unfold weight
      rw [beq_eq_false_iff_ne.mpr h₀, beq_eq_false_iff_ne.mpr h₁,
        beq_eq_false_iff_ne.mpr h₂, beq_eq_false_iff_ne.mpr h₃,
        beq_eq_false_iff_ne.mpr h₄, beq_eq_false_iff_ne.mpr h₅]
      rfl
    right
    by_cases hd : isDigit c = true
    · rw [if_pos hd] at hw
      have hrange := hdig.mp hd
      have hnot : isUpper c = false := by
        rw [← Bool.not_eq_true, hup]
        omega
      exact .inl ⟨hnot, hrange.1, hrange.2, hw⟩
    · rw [if_neg hd] at hw
      by_cases hl : isLower c = true
      · rw [if_pos hl] at hw
        have hrange := hlow.mp hl
        have hnot : isUpper c = false := by
          rw [← Bool.not_eq_true, hup]
          omega
        exact .inr (.inl ⟨hnot, hrange.1, hrange.2, hw⟩)
      · rw [if_neg hl] at hw
        by_cases hu : isUpper c = true
        · rw [if_pos hu] at hw
          have hrange := hup.mp hu
          exact .inr (.inr (.inl ⟨hu, hrange.1, hrange.2, hw⟩))
        · rw [if_neg hu] at hw
          exact .inr (.inr (.inr ⟨by simpa using hu, hw⟩))

/-- A character is known by its weight and its case. -/
theorem eq_of_weight {c : Char} (hw : weight c = weight d)
    (hcase : isUpper c = isUpper d) : c = d := by
  apply Char.toNat_inj.mp
  rcases weight_cases c with
    ⟨hc, h⟩ | ⟨hc, h⟩ | ⟨hc, h⟩ | ⟨hc, h⟩ | ⟨hc, h⟩ <;>
  rcases weight_cases d with
    ⟨hd, k⟩ | ⟨hd, k⟩ | ⟨hd, k⟩ | ⟨hd, k⟩ | ⟨hd, k⟩ <;>
  first
    | omega
    | simp [hc, hd] at hcase

/-- A text is known by what `localeCompare` compares of it. -/
theorem collationKey_injective : Function.Injective collationKey := by
  intro s t h
  have hweights : s.toList.map weight = t.toList.map weight :=
    congrArg (fun key => (ofLex key).1) h
  have hcases : s.toList.map (fun c => if isUpper c then 1 else 0)
      = t.toList.map (fun c => if isUpper c then 1 else 0) :=
    congrArg (fun key => (ofLex key).2) h
  apply String.toList_inj.mp
  have hall : ∀ cs ds : List Char, cs.map weight = ds.map weight →
      cs.map (fun c => if isUpper c then 1 else 0)
        = ds.map (fun c => if isUpper c then 1 else 0) → cs = ds := by
    intro cs
    induction cs with
    | nil =>
        intro ds hw _
        exact (List.map_eq_nil_iff.mp hw.symm).symm
    | cons c cs ih =>
        intro ds hw hc
        cases ds with
        | nil => cases hw
        | cons d ds =>
            rw [List.map_cons, List.map_cons, List.cons.injEq] at hw hc
            have hupper : isUpper c = isUpper d := by
              have h1 := hc.1
              by_cases hup : isUpper c = true <;>
              by_cases hup' : isUpper d = true <;>
              simp_all
            rw [eq_of_weight hw.1 hupper, ih ds hw.2 hc.2]
  exact hall _ _ hweights hcases

/-- Two different texts are never the same to `localeCompare`. -/
theorem localeCompare_eq_lt_of_ne (hle : localeCompare left right ≠ .gt)
    (hne : left ≠ right) :
    localeCompare left right = .lt := by
  rw [localeCompare_ne_gt_iff] at hle
  rw [localeCompare_eq_lt_iff]
  exact lt_of_le_of_ne hle fun h => hne (collationKey_injective h)

theorem localeCompare_eq_eq_iff :
    localeCompare left right = .eq ↔ left = right := by
  constructor
  · intro h
    by_contra hne
    have hlt : localeCompare left right = .lt :=
      localeCompare_eq_lt_of_ne (by rw [h]; decide) hne
    rw [h] at hlt
    cases hlt
  · rintro rfl
    exact Std.ReflCmp.compare_self

theorem isPlain_cases {c : Char} (h : isPlain c = true) :
    (c.toNat = 45 ∧ weight c = 1)
      ∨ (48 ≤ c.toNat ∧ c.toNat ≤ 57 ∧ weight c = 6 + (c.toNat - 48))
      ∨ (97 ≤ c.toNat ∧ c.toNat ≤ 122
        ∧ weight c = 16 + (c.toNat - 97)) := by
  simp only [isPlain, Bool.or_eq_true, beq_iff_eq] at h
  rcases h with (h | h) | rfl
  · exact .inr (.inl (weight_of_isDigit h))
  · exact .inr (.inr (weight_of_isLower h))
  · exact .inl ⟨rfl, rfl⟩

/-- A plain character is one UTF-16 unit. -/
theorem unitsOf_of_isPlain {c : Char} (h : isPlain c = true) :
    unitsOf c = [c.toNat] := by
  have hlt : c.toNat < 0x10000 := by
    rcases isPlain_cases h with ⟨h, -⟩ | ⟨-, h, -⟩ | ⟨-, h, -⟩ <;> omega
  exact if_pos hlt

theorem weight_lt_iff {c : Char} (hc : isPlain c = true)
    (hd : isPlain d = true) : weight c < weight d ↔ c.toNat < d.toNat := by
  rcases isPlain_cases hc with ⟨h, hw⟩ | ⟨h, h', hw⟩ | ⟨h, h', hw⟩ <;>
  rcases isPlain_cases hd with ⟨k, kw⟩ | ⟨k, k', kw⟩ | ⟨k, k', kw⟩ <;>
  omega

theorem weight_eq_iff {c : Char} (hc : isPlain c = true)
    (hd : isPlain d = true) : weight c = weight d ↔ c.toNat = d.toNat := by
  have hlt := weight_lt_iff hc hd
  have hgt := weight_lt_iff hd hc
  omega

/-- On plain texts the two orders are one. -/
theorem weights_lt_iff {cs ds : List Char} (hc : ∀ c ∈ cs, isPlain c = true)
    (hd : ∀ d ∈ ds, isPlain d = true) :
    cs.map weight < ds.map weight
      ↔ cs.flatMap unitsOf < ds.flatMap unitsOf := by
  induction cs generalizing ds with
  | nil =>
      cases ds with
      | nil => simp
      | cons d ds =>
          rw [List.flatMap_cons, unitsOf_of_isPlain (hd d (by simp))]
          simp
  | cons c cs ih =>
      cases ds with
      | nil =>
          rw [List.flatMap_cons, unitsOf_of_isPlain (hc c (by simp))]
          simp
      | cons d ds =>
          have hc' := hc c (by simp)
          have hd' := hd d (by simp)
          rw [List.flatMap_cons, List.flatMap_cons, unitsOf_of_isPlain hc',
            unitsOf_of_isPlain hd', List.map_cons, List.map_cons,
            List.singleton_append, List.singleton_append,
            List.cons_lt_cons_iff, List.cons_lt_cons_iff,
            weight_lt_iff hc' hd', weight_eq_iff hc' hd',
            ih (fun e he => hc e (List.mem_cons_of_mem c he))
              (fun e he => hd e (List.mem_cons_of_mem d he))]

end Yunpanel.Text
