/-
What the panel writes, the import parser reads back.

A line of the environment file goes through the parser one expression at a
time: it is no comment, its name ends where the key does, its fragment is
the quoted value, and unquoting takes the escapes away again
(`doubleQuoted_escape`). `importLine_written` is one line, `importLines`
then follows the list.
-/
import Yunpanel.Environment.Import
import Yunpanel.Environment.Proofs.File

namespace Yunpanel.Environment

open Lib Applications Json

-- ====== characters

variable {c d : Char} {vars : Variables}

theorem isKeyRest_of_head (h : isKeyHead c = true) :
    isKeyRest c = true := by
  rw [isKeyRest, h, Bool.true_or]

/-- A character of a key is a capital, a digit or an underscore. -/
theorem toNat_of_isKeyRest (h : isKeyRest c = true) :
    48 ≤ c.toNat ∧ c.toNat ≤ 57 ∨ 65 ≤ c.toNat ∧ c.toNat ≤ 95 := by
  simp only [isKeyRest, isKeyHead, Text.isUpper, Text.isDigit,
    Bool.or_eq_true, Bool.and_eq_true, decide_eq_true_eq, beq_iff_eq,
    Char.le_def, UInt32.le_iff_toNat_le] at h
  have hA : 'A'.val.toNat = 65 := rfl
  have hZ : 'Z'.val.toNat = 90 := rfl
  have h0 : '0'.val.toNat = 48 := rfl
  have h9 : '9'.val.toNat = 57 := rfl
  have hc : c.toNat = c.val.toNat := rfl
  rcases h with (h | rfl) | h
  · omega
  · right
    decide
  · omega

theorem isSpace_of_isKeyRest (h : isKeyRest c = true) :
    Text.isSpace c = false := by
  have hrange := toNat_of_isKeyRest h
  simp only [Text.isSpace, List.contains_eq_mem, List.mem_cons,
    List.not_mem_nil, or_false, Bool.or_eq_false_iff,
    decide_eq_false_iff_not, Bool.and_eq_false_iff]
  omega

theorem isTab_of_isKeyRest (h : isKeyRest c = true) :
    isTab c = false := by
  rw [← Bool.not_eq_true]
  intro htab
  simp only [isTab, Bool.or_eq_true, beq_iff_eq] at htab
  rcases htab with rfl | rfl <;> exact absurd h (by decide)

/-- A key taken apart: its first character and the rest. -/
theorem exists_cons_of_key (key : EnvironmentKey) :
    ∃ c cs, key.text.toList = c :: cs ∧ isKeyHead c = true
      ∧ ∀ d ∈ cs, isKeyRest d = true := by
  have hok := key.ok
  unfold isEnvironmentKey isKeyText Text.headed at hok
  rw [Bool.and_eq_true] at hok
  cases hcs : key.text.toList with
  | nil =>
      rw [hcs] at hok
      cases hok.1
  | cons c cs =>
      rw [hcs] at hok
      simp only [Bool.and_eq_true, List.all_eq_true] at hok
      exact ⟨c, cs, rfl, hok.1.1.1, hok.1.1.2⟩

theorem isKeyRest_of_mem_key {key : EnvironmentKey}
    (h : d ∈ key.text.toList) : isKeyRest d = true := by
  obtain ⟨c, cs, hkey, hhead, hrest⟩ := exists_cons_of_key key
  rw [hkey, List.mem_cons] at h
  rcases h with rfl | h
  · exact isKeyRest_of_head hhead
  · exact hrest d h

theorem not_break_of_value (v : EnvironmentValue) (h : d ∈ v.text.toList) :
    d ≠ '\x00' ∧ d ≠ '\n' ∧ d ≠ '\r' := by
  have hok := v.ok
  unfold isEnvironmentValue at hok
  rw [Bool.and_eq_true, List.all_eq_true] at hok
  have hd := hok.2 d h
  simp only [Bool.and_eq_true, bne_iff_ne] at hd
  exact ⟨hd.1.1, hd.1.2, hd.2⟩

/-- A character of a quoted value is a quote, a backslash, or in the
value. -/
theorem mem_quote {v : List Char} (h : d ∈ EnvironmentFile.quote v) :
    d = '"' ∨ d = '\\' ∨ d ∈ v := by
  unfold EnvironmentFile.quote EnvironmentFile.escape at h
  rw [List.mem_cons, List.mem_append, List.mem_flatMap] at h
  rcases h with rfl | ⟨c, hc, hd⟩ | h
  · exact .inl rfl
  · split at hd
    · simp only [List.mem_cons, List.not_mem_nil, or_false] at hd
      rcases hd with rfl | rfl
      · exact .inr (.inl rfl)
      · exact .inr (.inr hc)
    · obtain rfl := List.mem_singleton.mp hd
      exact .inr (.inr hc)
  · exact .inl (List.mem_singleton.mp h)

-- ====== unquoting

/-- Unquoting takes away what quoting put in. -/
theorem doubleQuoted_escape (v rest : List Char) :
    doubleQuoted (EnvironmentFile.escape v ++ '"' :: rest)
      = some (v, rest) := by
  induction v with
  | nil => rfl
  | cons c cs ih =>
      have hcons : EnvironmentFile.escape (c :: cs)
          = (if c = '\\' ∨ c = '"' then ['\\', c] else [c])
            ++ EnvironmentFile.escape cs := rfl
      rw [hcons]
      by_cases hc : c = '\\' ∨ c = '"'
      · rw [if_pos hc]
        show doubleQuoted ('\\' :: c
          :: (EnvironmentFile.escape cs ++ '"' :: rest)) = _
        rw [doubleQuoted, if_pos hc, ih]
        rfl
      · rw [if_neg hc]
        obtain ⟨hback, hquote⟩ := not_or.mp hc
        show doubleQuoted (c :: (EnvironmentFile.escape cs ++ '"' :: rest))
          = _
        rw [doubleQuoted, if_neg hquote, if_neg hback, ih]
        · rfl
        · rintro d ds rfl
          exact absurd rfl hback

/-- A text that neither starts nor ends in a blank is not trimmed. -/
theorem trim_quote (v : List Char) :
    Text.trim (EnvironmentFile.quote v) = EnvironmentFile.quote v := by
  have hquote : ¬Text.isSpace '"' = true := by decide
  have hsplit : EnvironmentFile.quote v
      = ('"' :: EnvironmentFile.escape v) ++ ['"'] := rfl
  rw [Text.trim_eq, EnvironmentFile.quote, List.dropWhile_cons_of_neg hquote,
    ← EnvironmentFile.quote, hsplit, List.rdropWhile_concat_neg _ _ _ hquote]

theorem importLineValue_quote (v : EnvironmentValue) (n : Nat) :
    importLineValue (EnvironmentFile.quote v.text.toList) n = .ok v := by
  unfold importLineValue
  rw [trim_quote]
  show demand _ ((doubleQuoted
      (EnvironmentFile.escape v.text.toList ++ '"' :: [])).filter _)
    >>= (fun found => normalizeEnvironmentValue
      (.str (String.ofList found.1))) = _
  rw [doubleQuoted_escape]
  have htail : isTail [] = true := rfl
  rw [Option.filter_some, if_pos htail]
  show normalizeEnvironmentValue (.str (String.ofList v.text.toList)) = _
  rw [String.ofList_toList]
  exact normalizeEnvironmentValue_eq_ok.mpr rfl

-- ====== lines

/-- The line of one variable, without its line break. -/
def writtenLine (v : EnvironmentKey × EnvironmentValue) : List Char :=
  v.1.text.toList ++ '=' :: EnvironmentFile.quote v.2.text.toList

/-- A value the dot of a regular expression runs through. -/
def Undivided (v : EnvironmentValue) : Prop :=
  ∀ c ∈ v.text.toList, isSeparator c = false

instance (v : EnvironmentValue) : Decidable (Undivided v) :=
  List.decidableBAll (fun c => isSeparator c = false) v.text.toList

/-- No character of a line breaks it, and none is NUL. -/
theorem not_break_of_writtenLine (v : EnvironmentKey × EnvironmentValue)
    (h : d ∈ writtenLine v) :
    d ≠ '\x00' ∧ d ≠ '\n' ∧ d ≠ '\r' := by
  unfold writtenLine at h
  rw [List.mem_append, List.mem_cons] at h
  rcases h with h | rfl | h
  · have hrange := toNat_of_isKeyRest (isKeyRest_of_mem_key h)
    refine ⟨?_, ?_, ?_⟩ <;> rintro rfl <;> revert hrange <;> decide
  · decide
  · rcases mem_quote h with rfl | rfl | h
    · decide
    · decide
    · exact not_break_of_value v.2 h

/-- A line starts with the first character of its key. -/
theorem exists_cons_of_writtenLine
    (v : EnvironmentKey × EnvironmentValue) :
    ∃ c cs, writtenLine v
        = c :: (cs ++ '=' :: EnvironmentFile.quote v.2.text.toList)
      ∧ v.1.text.toList = c :: cs ∧ isKeyHead c = true
      ∧ ∀ d ∈ cs, isKeyRest d = true := by
  obtain ⟨c, cs, hkey, hhead, hrest⟩ := exists_cons_of_key v.1
  refine ⟨c, cs, ?_, hkey, hhead, hrest⟩
  rw [writtenLine, hkey]
  rfl

theorem isIdle_writtenLine (v : EnvironmentKey × EnvironmentValue) :
    isIdle (writtenLine v) = false := by
  obtain ⟨c, cs, hline, -, hhead, -⟩ := exists_cons_of_writtenLine v
  have hspace := isSpace_of_isKeyRest (isKeyRest_of_head hhead)
  have hnot : ¬Text.isSpace c = true := by simp [hspace]
  have hcomment : c ≠ '#' := by
    rintro rfl
    exact absurd hhead (by decide)
  have htrim : Text.trim (writtenLine v) ≠ [] := by
    rw [Text.trim_eq, hline, List.dropWhile_cons_of_neg hnot, ne_eq,
      List.rdropWhile_eq_nil_iff]
    intro hall
    exact hnot (hall c (by simp))
  have hhash : ((writtenLine v).dropWhile Text.isSpace).head? ≠ some '#' := by
    rw [hline, List.dropWhile_cons_of_neg hnot]
    simpa using hcomment
  unfold isIdle
  simp [htrim, hhash]

variable {v : EnvironmentKey × EnvironmentValue}

/-- The fragment of a line is the quoted value, where no separator cuts
it short. -/
theorem matchLine_writtenLine (h : Undivided v.2) :
    matchLine (writtenLine v)
      = some (v.1.text.toList, EnvironmentFile.quote v.2.text.toList) := by
  obtain ⟨c, cs, hline, hkey, hhead, hrest⟩ := exists_cons_of_writtenLine v
  have htab : ¬isTab c = true := by
    simp [isTab_of_isKeyRest (isKeyRest_of_head hhead)]
  have hexport : ¬("export".toList.isPrefixOf (writtenLine v) = true) := by
    rw [hline]
    show ¬(('e' == c) && _) = true
    have hne : ('e' == c) = false := by
      rw [beq_eq_false_iff_ne]
      rintro rfl
      exact absurd hhead (by decide)
    simp [hne]
  have hstrip : stripExport (writtenLine v) = writtenLine v := by
    unfold stripExport
    rw [if_neg fun hboth => hexport hboth.1]
  have hdot : (EnvironmentFile.quote v.2.text.toList).all isDot = true := by
    rw [List.all_eq_true]
    intro d hd
    have hbreak : d ≠ '\n' ∧ d ≠ '\r' ∧ isSeparator d = false := by
      rcases mem_quote hd with rfl | rfl | hd
      · decide
      · decide
      · exact ⟨(not_break_of_value v.2 hd).2.1,
          (not_break_of_value v.2 hd).2.2, h d hd⟩
    simp [isDot, hbreak]
  have hsign : ¬isTab '=' = true := by decide
  have hquote : ¬isTab '"' = true := by decide
  have hfragment : (EnvironmentFile.quote v.2.text.toList).dropWhile isTab
      = EnvironmentFile.quote v.2.text.toList :=
    List.dropWhile_cons_of_neg hquote
  have hafter : afterName ('=' :: EnvironmentFile.quote v.2.text.toList)
      = some (EnvironmentFile.quote v.2.text.toList) := by
    unfold afterName
    rw [List.dropWhile_cons_of_neg hsign]
    show (if ((EnvironmentFile.quote v.2.text.toList).dropWhile isTab).all
      isDot = true then some _ else none) = _
    rw [hfragment, if_pos hdot]
  have hend : ¬isKeyRest '=' = true := by decide
  have htake : (cs ++ '=' :: EnvironmentFile.quote v.2.text.toList).takeWhile
      isKeyRest = cs := by
    rw [List.takeWhile_append_of_pos hrest,
      List.takeWhile_cons_of_neg hend, List.append_nil]
  have hdrop : (cs ++ '=' :: EnvironmentFile.quote v.2.text.toList).dropWhile
      isKeyRest = '=' :: EnvironmentFile.quote v.2.text.toList := by
    rw [List.dropWhile_append_of_pos hrest,
      List.dropWhile_cons_of_neg hend]
  unfold matchLine
  rw [hline, List.dropWhile_cons_of_neg htab, ← hline, hstrip, hline]
  dsimp only
  rw [if_pos hhead, htake, hdrop, hafter, hkey]
  rfl

/-- One line of the loop: the variable is added. -/
theorem importLine_writtenLine (h : Undivided v.2)
    (hfresh : v.1 ∉ vars.map Prod.fst) (hroom : vars.length < maxVariables)
    (n : Nat) :
    importLine vars (writtenLine v) n = .ok (vars ++ [v]) := by
  have hending : (!(writtenLine v).contains '\r') = true := by
    rw [Bool.not_eq_true', ← Bool.not_eq_true, List.contains_iff_mem]
    exact fun hmem => (not_break_of_writtenLine v hmem).2.2 rfl
  have hnew : (!vars.any fun w => w.1 == v.1) = true := by
    rw [Bool.not_eq_true', ← Bool.not_eq_true, List.any_eq_true]
    rintro ⟨w, hw, hkey⟩
    exact hfresh (List.mem_map.mpr ⟨w, hw, beq_iff_eq.mp hkey⟩)
  have hlength : decide ((vars ++ [v]).length ≤ maxVariables) = true := by
    rw [decide_eq_true_eq, List.length_append, List.length_singleton]
    exact hroom
  have hkey : normalizeEnvironmentKey (.str v.1.text) = .ok v.1 :=
    normalizeEnvironmentKey_eq_ok.mpr rfl
  unfold importLine
  rw [hending, isIdle_writtenLine, matchLine_writtenLine h]
  simp only [ensure, demand, if_true, Bool.false_eq_true, if_false,
    Result.ok_bind, Result.pure_eq, String.ofList_toList, hkey, hnew,
    importLineValue_quote, hlength]

theorem importLines_written {rest : Variables} :
    ∀ {vars : Variables} (n : Nat), ((vars ++ rest).map Prod.fst).Nodup →
      (vars ++ rest).length ≤ maxVariables → (∀ v ∈ rest, Undivided v.2) →
      importLines vars (rest.map writtenLine ++ [[]]) n
        = .ok (vars ++ rest) := by
  induction rest with
  | nil =>
      intro vars n _ _ _
      rw [List.append_nil]
      rfl
  | cons v rest ih =>
      intro vars n hnodup hlength hall
      rw [List.forall_mem_cons] at hall
      have hassoc : vars ++ v :: rest = (vars ++ [v]) ++ rest := by simp
      have hfresh : v.1 ∉ vars.map Prod.fst := by
        rw [List.map_append, List.nodup_append] at hnodup
        intro hmem
        exact hnodup.2.2 _ hmem _ (by simp) rfl
      have hroom : vars.length < maxVariables := by
        rw [List.length_append, List.length_cons] at hlength
        omega
      rw [List.map_cons, List.cons_append, importLines,
        importLine_writtenLine hall.1 hfresh hroom, Result.ok_bind, hassoc]
      rw [hassoc] at hnodup hlength
      exact ih (n + 1) hnodup hlength hall.2

-- ====== texts

theorem joinCrLf_of_not_mem {cs : List Char} (h : '\r' ∉ cs) :
    joinCrLf cs = cs := by
  induction cs with
  | nil => rfl
  | cons c cs ih =>
      rw [List.mem_cons, not_or] at h
      rw [joinCrLf, ih h.2]
      rintro ds rfl
      exact absurd rfl h.1

/-- The text of the file: its lines, each with its break. -/
theorem toList_written (vars : Variables) :
    (environmentText (textsOf vars)).toList
      = vars.flatMap fun v => writtenLine v ++ ['\n'] := by
  rw [toList_environmentText, textsOf, List.map_map, List.flatMap_map]
  refine List.flatMap_congr fun v _ => ?_
  simp [charsOf, EnvironmentFile.line, writtenLine]

theorem splitOn_written (vars : Variables) :
    (vars.flatMap fun v => writtenLine v ++ ['\n']).splitOn '\n'
      = vars.map writtenLine ++ [[]] := by
  induction vars with
  | nil => rfl
  | cons v vars ih =>
      have hnot : '\n' ∉ writtenLine v :=
        fun hmem => (not_break_of_writtenLine v hmem).2.1 rfl
      rw [List.flatMap_cons, List.append_assoc, List.singleton_append,
        List.splitOn_append_cons_self_of_not_mem hnot, ih]
      rfl

/-- A character of the text is in one of its lines, or a line break. -/
theorem mem_written (h : d ∈ vars.flatMap fun v => writtenLine v ++ ['\n']) :
    d ≠ '\x00' ∧ d ≠ '\r' := by
  obtain ⟨v, -, hd⟩ := List.mem_flatMap.mp h
  rcases List.mem_append.mp hd with hd | hd
  · have hbreak := not_break_of_writtenLine v hd
    exact ⟨hbreak.1, hbreak.2.2⟩
  · obtain rfl := List.mem_singleton.mp hd
    decide

theorem stripBom_written (vars : Variables) :
    stripBom (vars.flatMap fun v => writtenLine v ++ ['\n'])
      = vars.flatMap fun v => writtenLine v ++ ['\n'] := by
  cases vars with
  | nil => rfl
  | cons v vars =>
      obtain ⟨c, cs, hline, -, hhead, -⟩ := exists_cons_of_writtenLine v
      have hbom : c ≠ '\ufeff' := by
        rintro rfl
        exact absurd hhead (by decide)
      rw [List.flatMap_cons, hline]
      unfold stripBom
      split
      · rename_i heq
        exact absurd (List.cons.inj heq).1 hbom
      · rfl

/-- An environment written line by line is read back: no more variables
than an environment may have, no more text than an import may have, and no
value with a line separator in it. -/
theorem import_reads_back {vars : Variables}
    (hdistinct : (vars.map Prod.fst).Nodup)
    (hcount : vars.length ≤ maxVariables)
    (hlength : Text.length (environmentText (textsOf vars))
      ≤ maxImportLength)
    (hundivided : ∀ v ∈ vars, Undivided v.2) :
    parseApplicationEnvironmentImport
      (.str (environmentText (textsOf vars))) = .ok vars := by
  have hnul : '\x00' ∉ (environmentText (textsOf vars)).toList := by
    rw [toList_written]
    exact fun hmem => (mem_written hmem).1 rfl
  have hreturn : '\r' ∉ vars.flatMap fun v => writtenLine v ++ ['\n'] :=
    fun hmem => (mem_written hmem).2 rfl
  unfold parseApplicationEnvironmentImport
  rw [str?_str, Option.filter_some, if_pos (by simp [hlength, hnul])]
  show importLines [] (List.splitOn '\n'
    (joinCrLf (stripBom (environmentText (textsOf vars)).toList))) 1 = _
  rw [toList_written, stripBom_written, joinCrLf_of_not_mem hreturn,
    splitOn_written]
  exact importLines_written 1 hdistinct hcount hundivided

/-- A key of one character, `A`. -/
def sampleKey : EnvironmentKey := ⟨"A", by decide⟩

def sampleVars : Variables :=
  [(sampleKey, ⟨"a\\b\\\\\"$c #d;", by decide⟩),
    (⟨"B_2", by decide⟩, ⟨" ' = ", by decide⟩)]

theorem import_reads_back_sample :
    parseApplicationEnvironmentImport
      (.str (environmentText (textsOf sampleVars))) = .ok sampleVars :=
  import_reads_back (by decide) (by decide) (by decide +kernel)
    (by decide +kernel)

-- ====== limits

theorem length_importLine {vars' : Variables} {line : List Char} {n : Nat}
    (h : importLine vars line n = .ok vars')
    (hvars : vars.length ≤ maxVariables) : vars'.length ≤ maxVariables := by
  unfold importLine at h
  simp only [Result.bind_eq_ok, ensure_eq_ok] at h
  obtain ⟨-, -, h⟩ := h
  split at h
  · rw [← Except.ok.inj h]
    exact hvars
  · simp only [Result.bind_eq_ok, ensure_eq_ok, decide_eq_true_eq] at h
    obtain ⟨_, -, _, -, _, -, _, -, _, hlength, hsame⟩ := h
    rw [← Except.ok.inj hsame]
    exact hlength

theorem length_importLines {lines : List (List Char)} :
    ∀ {vars vars' : Variables} {n : Nat},
      importLines vars lines n = .ok vars' →
      vars.length ≤ maxVariables → vars'.length ≤ maxVariables := by
  induction lines with
  | nil =>
      intro vars vars' n h hvars
      rw [← Except.ok.inj h]
      exact hvars
  | cons line lines ih =>
      intro vars vars' n h hvars
      obtain ⟨next, hline, hrest⟩ := Result.bind_eq_ok.mp h
      exact ih hrest (length_importLine hline hvars)

/-- Whatever is imported keeps both limits. -/
theorem import_bounded {text : String}
    (h : parseApplicationEnvironmentImport (.str text) = .ok vars) :
    Text.length text ≤ maxImportLength ∧ vars.length ≤ maxVariables := by
  unfold parseApplicationEnvironmentImport at h
  obtain ⟨t, ht, hlines⟩ := Result.bind_eq_ok.mp h
  rw [demand_eq_ok, str?_str, Option.filter_eq_some_iff] at ht
  obtain ⟨hsame, hfits⟩ := ht
  rw [Bool.and_eq_true, decide_eq_true_eq, ← Option.some.inj hsame] at hfits
  exact ⟨hfits.1, length_importLines hlines (Nat.zero_le _)⟩

theorem length_le_units (cs : List Char) :
    cs.length ≤ (cs.map Text.units).sum := by
  induction cs with
  | nil => simp
  | cons c cs ih =>
      have hunit : 1 ≤ Text.units c := by
        unfold Text.units
        split <;> omega
      rw [List.map_cons, List.sum_cons, List.length_cons]
      omega

/-- Backslashes, as many as a value may have. -/
def backslashes : List Char := List.replicate maxValueLength '\\'

theorem isEnvironmentValue_backslashes :
    isEnvironmentValue (String.ofList backslashes) = true := by
  have hunits : Text.units '\\' = 1 := rfl
  have hlength : Text.length (String.ofList backslashes)
      = maxValueLength := by
    unfold Text.length backslashes
    rw [String.toList_ofList, List.map_replicate, List.sum_replicate_nat, hunits]
    simp
  unfold isEnvironmentValue
  rw [hlength, String.toList_ofList, backslashes]
  simp

def longVars : Variables :=
  [(sampleKey, ⟨String.ofList backslashes, isEnvironmentValue_backslashes⟩)]

/-- Quoting doubles a backslash. -/
theorem length_escape_backslashes (n : Nat) :
    (EnvironmentFile.escape (List.replicate n '\\')).length = 2 * n := by
  induction n with
  | zero => rfl
  | succ n ih =>
      have hcons : EnvironmentFile.escape (List.replicate (n + 1) '\\')
          = '\\' :: '\\'
            :: EnvironmentFile.escape (List.replicate n '\\') := rfl
      rw [hcons, List.length_cons, List.length_cons, ih]
      omega

theorem maxImportLength_lt_long :
    maxImportLength < Text.length (environmentText (textsOf longVars)) := by
  have hle := length_le_units (environmentText (textsOf longVars)).toList
  have hsub : (EnvironmentFile.escape backslashes).length
      ≤ (environmentText (textsOf longVars)).toList.length := by
    rw [toList_written]
    simp only [longVars, List.flatMap_cons, List.flatMap_nil, writtenLine,
      EnvironmentFile.quote, String.toList_ofList, List.length_append,
      List.length_cons]
    omega
  rw [backslashes, length_escape_backslashes] at hsub
  unfold Text.length
  unfold maxImportLength
  unfold maxValueLength at hsub
  omega

/-- A hundred and one keys of two letters. -/
def manyVars : Variables :=
  ("ABCDE".toList.flatMap fun c => "ABCDEFGHIJKLMNOPQRSTU".toList.map
    fun d => String.ofList [c, d]).take 101 |>.filterMap fun s =>
      (Matching.ofText? s).map fun key => (key, ⟨"", Eq.refl true⟩)

def dividedVars : Variables := [(sampleKey, ⟨"x\u2028y", by decide⟩)]

/-- Three environments that are not read back: too many variables, too
long a text, and a value with a line separator. -/
theorem import_falls_short :
    (∀ vars ∈ [manyVars, longVars, dividedVars],
        (vars.map Prod.fst).Nodup)
      ∧ ∀ vars ∈ [manyVars, longVars, dividedVars],
        parseApplicationEnvironmentImport
          (.str (environmentText (textsOf vars))) ≠ .ok vars := by
  constructor
  · have hmany : (manyVars.map fun v => v.1.text).Nodup := by
      decide +kernel
    simp only [List.forall_mem_cons]
    refine ⟨?_, by simp [longVars], by simp [dividedVars], by simp⟩
    rw [show (fun v : EnvironmentKey × EnvironmentValue => v.1.text)
      = Matching.text ∘ Prod.fst from rfl, ← List.map_map] at hmany
    exact hmany.of_map _
  · simp only [List.forall_mem_cons]
    refine ⟨fun h => ?_, fun h => ?_, fun h => ?_, by simp⟩
    · have hlength : manyVars.length = 101 := by decide +kernel
      have hle := (import_bounded h).2
      rw [hlength] at hle
      exact absurd hle (by decide)
    · exact absurd maxImportLength_lt_long
        (Nat.not_lt.mpr (import_bounded h).1)
    · have hrefused : (parseApplicationEnvironmentImport
          (.str (environmentText (textsOf dividedVars)))).isOk
            = false := by decide +kernel
      rw [h] at hrefused
      cases hrefused

example : isIdle "#".toList = true := by decide +kernel

end Yunpanel.Environment
