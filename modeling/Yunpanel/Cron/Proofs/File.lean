/-
The file of a task, as cron reads it.

The schedule of a task is five words of digits and the signs of a calendar,
its user a word, and its command a line without control characters that
starts with no blank. So the line of a task that is enabled is read as those
(`Lib.Crontab.readLine_entry`), and the others are read without it. What the
panel does to the command is what cron undoes, apart from a `%` that came with
a backslash of its own: that backslash is taken for the panel's.
-/
import Yunpanel.Cron.Task
import Yunpanel.Js.Lines
import Yunpanel.Lib.Crontab

namespace Yunpanel.Cron

open Json Lib Lib.Result
open Databases (isSiteUser)

-- ====== characters

/-- What a schedule is made of, apart from the blanks. -/
def isCalendarChar (c : Char) : Bool :=
  Text.isDigit c || ['*', '/', ',', '-'].contains c

variable {c : Char} {field : List Char} {s : String}

theorem isCalendarChar_spec (h : isCalendarChar c = true) :
    c ≠ '#' ∧ c ≠ '=' := by
  constructor <;> (rintro rfl; revert h; decide)

variable {cs : List Char} {range : Nat × Nat} {value : Json}

theorem calendar_of_isNumber (h : isNumber cs = true) :
    ∀ c ∈ cs, isCalendarChar c = true := by
  unfold isNumber at h
  rw [Bool.and_eq_true, List.all_eq_true] at h
  intro c hc
  unfold isCalendarChar
  rw [h.2 c hc]
  rfl

theorem calendar_of_boundedNumber {n : Nat}
    (h : boundedNumber cs range = some n) :
    ∀ c ∈ cs, isCalendarChar c = true := by
  unfold boundedNumber at h
  split at h
  · rename_i hcond
    rw [Bool.and_eq_true, Bool.and_eq_true] at hcond
    exact calendar_of_isNumber hcond.1.1
  · cases h

theorem calendar_of_cronBase {base : List Char} {stepped : Bool}
    (h : cronBase base stepped range = true) :
    ∀ c ∈ base, isCalendarChar c = true := by
  unfold cronBase at h
  split at h
  · rename_i hstar
    subst hstar
    exact Text.forall_mem_of_all (by decide)
  · split at h
    · split at h
      · rename_i left right hsplit
        split at h
        · rename_i hleft hright
          intro c hc
          rcases Text.mem_of_splitOn hsplit hc with rfl | ⟨part, hpart, hc⟩
          · decide
          · simp only [List.mem_cons, List.not_mem_nil, or_false] at hpart
            rcases hpart with rfl | rfl
            · exact calendar_of_boundedNumber hleft c hc
            · exact calendar_of_boundedNumber hright c hc
        · cases h
      · cases h
    · rw [Bool.and_eq_true, Option.isSome_iff_exists] at h
      obtain ⟨-, n, hn⟩ := h
      exact calendar_of_boundedNumber hn

theorem calendar_of_cronAtom {atom : List Char}
    (h : cronAtom atom range = true) :
    ∀ c ∈ atom, isCalendarChar c = true := by
  unfold cronAtom at h
  split at h
  · rename_i base hsplit
    rw [Bool.and_eq_true] at h
    intro c hc
    rcases Text.mem_of_splitOn hsplit hc with rfl | ⟨part, hpart, hc⟩
    · decide
    · rw [List.mem_singleton.mp hpart] at hc
      exact calendar_of_cronBase h.2 c hc
  · rename_i base step hsplit
    simp only [Bool.and_eq_true] at h
    obtain ⟨⟨⟨⟨-, hstep⟩, -⟩, -⟩, hbase⟩ := h
    intro c hc
    rcases Text.mem_of_splitOn hsplit hc with rfl | ⟨part, hpart, hc⟩
    · decide
    · simp only [List.mem_cons, List.not_mem_nil, or_false] at hpart
      rcases hpart with rfl | rfl
      · exact calendar_of_cronBase hbase c hc
      · exact calendar_of_isNumber hstep c hc
  · cases h

theorem calendar_of_cronField (h : cronField field range = true) :
    ∀ c ∈ field, isCalendarChar c = true := by
  unfold cronField at h
  rw [Bool.and_eq_true, List.all_eq_true] at h
  intro c hc
  rcases Text.mem_of_splitOn (rfl : field.splitOn ',' = _) hc with rfl | ⟨part, hpart, hc⟩
  · decide
  · exact calendar_of_cronAtom (h.2 part hpart) c hc

-- ====== schedules

/-- What cron takes for a blank, or for the end of a line, the schedule is
split at. -/
theorem isSpace_of_isBlank (h : Crontab.isBlank c = true ∨ c = '\n') :
    Text.isSpace c = true := by
  unfold Crontab.isBlank at h
  rw [Bool.or_eq_true, beq_iff_eq, beq_iff_eq] at h
  rcases h with (rfl | rfl) | rfl <;> decide

theorem isWord_of_words (h : field ∈ words cs) :
    Crontab.IsWord field ∧ '\n' ∉ field := by
  obtain ⟨hpart, hne⟩ := List.mem_filter.mp h
  have hspace := Text.of_mem_splitOnP hpart
  refine ⟨⟨of_decide_eq_true hne, fun c hc => ?_⟩, fun hbreak => ?_⟩
  · by_contra hblank
    rw [Bool.not_eq_false] at hblank
    have hc' := hspace c hc
    rw [isSpace_of_isBlank (.inl hblank)] at hc'
    cases hc'
  · have hc' := hspace _ hbreak
    rw [isSpace_of_isBlank (.inr rfl)] at hc'
    cases hc'

/-- A schedule is five words that no comment and no variable starts with. -/
theorem schedule_spec {schedule : String}
    (h : normalizeCronSchedule value = .ok schedule) :
    ∃ first second others, schedule.toList
        = [' '].intercalate (first :: second :: others)
      ∧ others.length = 3
      ∧ (∀ field ∈ first :: second :: others,
          Crontab.IsWord field ∧ '\n' ∉ field)
      ∧ ∀ field ∈ first :: second :: others, ∀ c ∈ field,
          isCalendarChar c = true := by
  unfold normalizeCronSchedule at h
  obtain ⟨s, -, hrest⟩ := bind_eq_ok.mp h
  obtain ⟨_, hfields, hrest⟩ := bind_eq_ok.mp hrest
  rw [ensure_eq_ok, Bool.and_eq_true, beq_iff_eq, List.all_eq_true] at hfields
  obtain ⟨hlength, hall⟩ := hfields
  obtain rfl := Except.ok.inj hrest
  have hcalendar : ∀ field ∈ words s.toList, ∀ c ∈ field,
      isCalendarChar c = true := by
    intro field hfield
    obtain ⟨i, hi, rfl⟩ := List.mem_iff_getElem.mp hfield
    have hrange : i < fieldRanges.length := hlength ▸ hi
    have hzip : ((words s.toList)[i], fieldRanges[i])
        ∈ (words s.toList).zip fieldRanges := by
      rw [← List.getElem_zip (h := by simp; omega)]
      exact List.getElem_mem _
    exact calendar_of_cronField (hall _ hzip)
  have hwords : ∀ field ∈ words s.toList,
      Crontab.IsWord field ∧ '\n' ∉ field := fun _ => isWord_of_words
  revert hlength hcalendar hwords
  generalize words s.toList = fields
  intro hlength hcalendar hwords
  match fields, hlength with
  | first :: second :: others, hlength =>
      refine ⟨first, second, others, String.toList_ofList, ?_, hwords,
        hcalendar⟩
      simpa [fieldRanges] using hlength

-- ====== commands

/-- A trimmed text starts with no blank. -/
theorem head_trim (cs : List Char) :
    ∀ c ∈ (Text.trim cs).head?, Text.isSpace c = false := by
  have hdrop : (Text.trim cs).dropWhile Text.isSpace = Text.trim cs := by
    have htrim := Text.trim_trim cs
    rw [Text.trim_eq (Text.trim cs)] at htrim
    have hshort := (List.rdropWhile_prefix Text.isSpace
      ((Text.trim cs).dropWhile Text.isSpace)).length_le
    rw [htrim] at hshort
    exact (List.dropWhile_suffix Text.isSpace).eq_of_length_le hshort
  intro c hc
  cases htrim : Text.trim cs with
  | nil =>
      rw [htrim] at hc
      cases hc
  | cons d ds =>
      rw [htrim] at hc hdrop
      obtain rfl : d = c := Option.some.inj hc
      by_contra hspace
      rw [List.dropWhile_cons_of_pos (by simpa using hspace)] at hdrop
      have hlength := (List.dropWhile_suffix Text.isSpace (l := ds)).length_le
      rw [hdrop, List.length_cons] at hlength
      omega

/-- What a command that was accepted is. -/
structure IsCommand (cs : List Char) : Prop where
  nonempty : cs ≠ []
  head : ∀ c ∈ cs.head?, Text.isSpace c = false
  printable : ∀ c ∈ cs, Text.isControl c = false

theorem isCommand_of_normalize {command : String}
    (h : normalizeCronCommand value = .ok command) :
    IsCommand command.toList := by
  unfold normalizeCronCommand at h
  obtain ⟨s, -, hrest⟩ := bind_eq_ok.mp h
  rw [demand_eq_ok] at hrest
  unfold printableText at hrest
  dsimp only at hrest
  split at hrest
  · rename_i hcond
    obtain rfl := Option.some.inj hrest
    simp only [Bool.and_eq_true, decide_eq_true_eq, Bool.not_eq_true',
      List.any_eq_false, String.toList_ofList] at hcond
    obtain ⟨⟨hlength, -⟩, hplain⟩ := hcond
    rw [String.toList_ofList]
    refine ⟨fun hnil => ?_, head_trim _, fun c hc => by simpa using hplain c hc⟩
    rw [hnil] at hlength
    revert hlength
    decide
  · cases hrest

/-- The panel escapes a command as the format asks for. -/
theorem escapeCronPercent_eq (cs : List Char) :
    escapeCronPercent false cs = Crontab.escape cs := by
  induction cs using Crontab.command_induction with
  | nil => rfl
  | percent cs ih =>
      rw [Crontab.escape, ← ih]
      rfl
  | pair c cs ih =>
      rw [Crontab.escape, ← ih]
      show '\\' :: escapeCronPercent true (c :: cs) = _
      by_cases hslash : c = '\\'
      · subst hslash
        rfl
      · rw [escapeCronPercent, if_neg hslash, if_neg (by simp)]
  | last => rfl
  | other c cs hpercent hslash ih =>
      rw [Crontab.escape_cons hpercent hslash, ← ih]
      rw [escapeCronPercent, if_neg hslash, if_neg (by simp [hpercent])]

theorem mem_escape (h : c ∈ Crontab.escape cs) :
    c = '\\' ∨ c ∈ cs := by
  induction cs using Crontab.command_induction with
  | nil => cases h
  | percent cs ih =>
      simp only [Crontab.escape, List.mem_cons] at h ⊢
      rcases h with h | h | h
      · exact .inl h
      · exact .inr (.inl h)
      · exact (ih h).imp_right .inr
  | pair d cs ih =>
      simp only [Crontab.escape, List.mem_cons] at h ⊢
      rcases h with h | h | h
      · exact .inl h
      · exact .inr (.inr (.inl h))
      · exact (ih h).imp_right fun h => .inr (.inr h)
  | last => exact .inr h
  | other d cs hpercent hslash ih =>
      rw [Crontab.escape_cons hpercent hslash] at h
      rcases List.mem_cons.mp h with rfl | h
      · exact .inr (by simp)
      · exact (ih h).imp_right fun h => List.mem_cons_of_mem d h

/-- The command of a line starts with no blank. -/
theorem head_escape (h : IsCommand cs) :
    ∀ c ∈ (Crontab.escape cs).head?, Crontab.isBlank c = false := by
  obtain ⟨d, ds, rfl⟩ := List.exists_cons_of_ne_nil h.nonempty
  have hd : Crontab.isBlank d = false := by
    by_contra hblank
    rw [Bool.not_eq_false] at hblank
    have hspace := h.head d rfl
    rw [isSpace_of_isBlank (.inl hblank)] at hspace
    cases hspace
  have hhead : (Crontab.escape (d :: ds)).head? = some d
      ∨ (Crontab.escape (d :: ds)).head? = some '\\' := by
    by_cases hpercent : d = '%'
    · subst hpercent
      exact .inr rfl
    · by_cases hslash : d = '\\'
      · subst hslash
        cases ds with
        | nil => exact .inr rfl
        | cons e es => exact .inr rfl
      · rw [Crontab.escape_cons hpercent hslash]
        exact .inl rfl
  intro c hc
  rcases hhead with hhead | hhead <;> rw [hhead] at hc <;>
    obtain rfl := Option.some.inj hc
  · exact hd
  · decide

-- ====== users

theorem isWord_of_isSiteUser {account : String}
    (h : isSiteUser account = true) :
    Crontab.IsWord account.toList ∧ '\n' ∉ account.toList := by
  unfold isSiteUser at h
  simp only [Bool.and_eq_true, beq_iff_eq, List.isPrefixOf_iff_prefix,
    List.all_eq_true] at h
  obtain ⟨⟨⟨rest, hsplit⟩, hlength⟩, hhex⟩ := h
  rw [← hsplit, List.drop_left] at hhex
  have hname : ∀ c ∈ "yunapp-".toList,
      (!Crontab.isBlank c && c != '\n') = true :=
    Text.forall_mem_of_all (by decide)
  have hplain : ∀ c ∈ account.toList,
      (!Crontab.isBlank c && c != '\n') = true := by
    rw [← hsplit]
    intro c hc
    rcases List.mem_append.mp hc with hc | hc
    · exact hname c hc
    · have hc' := hhex c hc
      by_contra hblank
      have hcases : c = ' ' ∨ c = '\t' ∨ c = '\n' := by
        by_cases hbreak : c = '\n'
        · exact .inr (.inr hbreak)
        · simpa [Crontab.isBlank, hbreak, or_assoc, imp_iff_not_or]
            using hblank
      rcases hcases with rfl | rfl | rfl <;> revert hc' <;> decide
  refine ⟨⟨?_, fun c hc => ?_⟩, fun hbreak => ?_⟩
  · intro hnil
    rw [hnil] at hlength
    cases hlength
  · have hc' := hplain c hc
    rw [Bool.and_eq_true, Bool.not_eq_true'] at hc'
    exact hc'.1
  · have hc' := hplain _ hbreak
    revert hc'
    decide

-- ====== files

theorem eq_str (h : value.str? = some s) :
    value = .str s := by
  cases value <;> cases h
  rfl

theorem eq_bool {b : Bool} (h : value.bool? = some b) :
    value = .bool b := by
  cases value <;> cases h
  rfl

theorem renderCronTask_eq_ok {input : RenderInput} {file : String}
    (h : renderCronTask input = .ok file) :
    ∃ account schedule command enabled,
      input.user = .str account ∧ isSiteUser account = true
      ∧ normalizeCronSchedule input.schedule = .ok schedule
      ∧ normalizeCronCommand input.command = .ok command
      ∧ input.enabled.getD (.bool true) = .bool enabled
      ∧ file = "\n".intercalate
        (fileLines account schedule command enabled ++ [""]) := by
  unfold renderCronTask at h
  obtain ⟨_, -, h⟩ := bind_eq_ok.mp h
  obtain ⟨account, huser, h⟩ := bind_eq_ok.mp h
  obtain ⟨schedule, hschedule, h⟩ := bind_eq_ok.mp h
  obtain ⟨command, hcommand, h⟩ := bind_eq_ok.mp h
  obtain ⟨enabled, henabled, h⟩ := bind_eq_ok.mp h
  unfold cronUser at huser
  rw [demand_eq_ok, Option.filter_eq_some_iff] at huser
  unfold enabledFlag at henabled
  rw [demand_eq_ok] at henabled
  exact ⟨account, schedule, command, enabled, eq_str huser.1, huser.2,
    hschedule, hcommand, eq_bool henabled, (Except.ok.inj h).symm⟩

theorem normalize_of_isCanonical {normalize : Json → Except Failure String}
    (h : isCanonical normalize s = true) :
    normalize (.str s) = .ok s := by
  unfold isCanonical at h
  split at h
  · rename_i t ht
    rw [ht, beq_iff_eq.mp h]
  · cases h

/-- What the renderer is called with for a task. -/
def Task.renderInput (task : Task) : RenderInput where
  taskId := task.id.json
  user := .str task.unixUser.text
  schedule := .str task.schedule.text
  command := .str task.command.text
  enabled := some (.bool task.enabled)

/-- A task of the registry is always rendered, as the file of the service. -/
theorem renderCronTask_task (task : Task) :
    renderCronTask task.renderInput = .ok (renderCronTaskFile task) := by
  have hid : Uuid.read? task.id.json = some task.id := by simp
  have huser : cronUser (.str task.unixUser.text) = .ok task.unixUser.text := by
    unfold cronUser
    rw [demand_eq_ok, Option.filter_eq_some_iff]
    exact ⟨rfl, task.unixUser.ok⟩
  unfold renderCronTask Task.renderInput
  dsimp only
  rw [hid, huser, normalize_of_isCanonical task.schedule.ok,
    normalize_of_isCanonical task.command.ok]
  cases h : task.enabled <;>
    simp [renderCronTaskFile, fileLines, enabledFlag, demand, bool?, h]

/-- The lines of a file that are no task. -/
def settings : List Crontab.Line :=
  [.nothing, .variable "SHELL".toList "/bin/sh".toList,
    .variable "PATH".toList "/usr/local/bin:/usr/bin:/bin".toList,
    .variable "MAILTO".toList "\"\"".toList]

/-- A task that is enabled is one line of its file, and a task that is not
is none. Cron reads of it the schedule, the user and the command, without the
backslashes that stood before a `%`; so it is the command itself exactly where
none did, and where the panel escapes what it escaped before, the same
runs. -/
theorem task_file_reads (input : RenderInput) (file : String)
    (h : renderCronTask input = .ok file) :
    ∃ account schedule command enabled fields,
      input.user = .str account
      ∧ normalizeCronSchedule input.schedule = .ok schedule
      ∧ normalizeCronCommand input.command = .ok command
      ∧ input.enabled.getD (.bool true) = .bool enabled
      ∧ [' '].intercalate fields = schedule.toList ∧ fields.length = 5
      ∧ Crontab.readFile file.toList = settings ++ [if enabled then
          .entry ⟨fields, account.toList, Crontab.unescape command.toList, none⟩
        else .nothing]
      ∧ (Crontab.unescape command.toList = command.toList
        ↔ ¬Crontab.HasEscaped command.toList)
      ∧ Crontab.readCommand (escapeCronPercent false
          (escapeCronPercent false command.toList))
        = Crontab.readCommand (escapeCronPercent false command.toList) := by
  obtain ⟨account, schedule, command, enabled, huser, hsite, hschedule,
    hcommand, henabled, rfl⟩ := renderCronTask_eq_ok h
  obtain ⟨first, second, others, hjoin, hthree, hwords, hcalendar⟩ :=
    schedule_spec hschedule
  obtain ⟨haccount, hbreak⟩ := isWord_of_isSiteUser hsite
  have hprintable := isCommand_of_normalize hcommand
  refine ⟨account, schedule, command, enabled, first :: second :: others, huser,
    hschedule, hcommand, henabled, hjoin.symm, by simp [hthree], ?_,
    Crontab.unescape_eq_iff _, by
      rw [escapeCronPercent_eq, escapeCronPercent_eq, Crontab.escape_escape]⟩
  have hhead : ∀ field ∈ first :: second :: others,
      field.head? ≠ some '#' ∧ field.head? ≠ some '=' ∧ '=' ∉ field := by
    intro field hfield
    have hspec := fun c hc => isCalendarChar_spec (hcalendar field hfield c hc)
    exact ⟨fun hc => (hspec _ (List.mem_of_mem_head? hc)).1 rfl,
      fun hc => (hspec _ (List.mem_of_mem_head? hc)).2 rfl,
      fun hc => (hspec _ hc).2 rfl⟩
  -- the line of the task, as it is read
  have hline : (schedule ++ " " ++ account ++ " " ++ String.ofList
        (escapeCronPercent false command.toList)).toList
      = [' '].intercalate (first :: second :: others) ++ ' ' ::
        (account.toList ++ ' ' :: Crontab.escape command.toList) := by
    rw [escapeCronPercent_eq]
    simp [hjoin]
  have hread := Crontab.readLine_entry hthree
    (fun field hfield => (hwords field hfield).1) (hhead first (by simp)).1
    (hhead first (by simp)).2.2 (hhead second (by simp)).2.1 haccount
    (head_escape hprintable)
  rw [← hline, Crontab.readCommand_escape] at hread
  have hplain : '\n' ∉ (schedule ++ " " ++ account ++ " " ++ String.ofList
      (escapeCronPercent false command.toList)).toList := by
    rw [hline]
    intro hmem
    rcases List.mem_append.mp hmem with hmem | hmem
    · rcases Text.mem_intercalate hmem with hmem | ⟨field, hfield, hmem⟩
      · revert hmem
        decide
      · exact (hwords field hfield).2 hmem
    · rcases List.mem_cons.mp hmem with hmem | hmem
      · revert hmem
        decide
      · rcases List.mem_append.mp hmem with hmem | hmem
        · exact hbreak hmem
        · rcases List.mem_cons.mp hmem with hmem | hmem
          · revert hmem
            decide
          · rcases mem_escape hmem with hmem | hmem
            · revert hmem
              decide
            · have hcontrol := hprintable.printable _ hmem
              revert hcontrol
              decide
  rw [String.toList_intercalate, List.map_append]
  show Crontab.readFile (['\n'].intercalate
    ((fileLines account schedule command enabled).map String.toList ++ [[]]))
    = _
  rw [Crontab.readFile_intercalate]
  · cases enabled with
    | false =>
        simp only [fileLines, settings, List.map_cons, List.map_nil,
          Bool.false_eq_true, if_false]
        rw [String.toList_append]
        rfl
    | true =>
        simp only [fileLines, settings, List.map_cons, List.map_nil, if_true]
        rw [hread]
        rfl
  · have hfixed : ∀ l ∈ ["# Managed by YunPanel. Manual edits are overwritten.",
        "SHELL=/bin/sh", "PATH=/usr/local/bin:/usr/bin:/bin", "MAILTO=\"\"",
        "# disabled: "], '\n' ∉ l.toList := by decide
    intro l hl
    obtain ⟨text, htext, rfl⟩ := List.mem_map.mp hl
    simp only [fileLines, List.mem_cons, List.not_mem_nil, or_false] at htext
    rcases htext with rfl | rfl | rfl | rfl | rfl
    · exact hfixed _ (by simp)
    · exact hfixed _ (by simp)
    · exact hfixed _ (by simp)
    · exact hfixed _ (by simp)
    · cases enabled with
      | true => exact hplain
      | false =>
          rw [if_neg (by decide), String.toList_append, List.mem_append, not_or]
          exact ⟨hfixed _ (by simp), hplain⟩

/-- What a task every five minutes of some hours is rendered from. -/
def sampleInput (command : String) : RenderInput where
  taskId := .str "07b0be89-f855-4c61-8132-3a73eb39888b"
  user := .str "yunapp-0123456789ab"
  schedule := .str "*/5   0-23/2 * 1,6,12 0-5"
  command := .str command
  enabled := none

def sampleEntry (command : String) : Crontab.Entry where
  fields := ["*/5", "0-23/2", "*", "1,6,12", "0-5"].map String.toList
  user := "yunapp-0123456789ab".toList
  command := command.toList
  input := none

theorem task_file_reads_date :
    ∃ file fields account, renderCronTask (sampleInput "date +%F") = .ok file
      ∧ fields.length = 5
      ∧ Crontab.readFile file.toList
        = settings ++ [.entry ⟨fields, account, "date +%F".toList, none⟩] := by
  have hok : ∃ file, renderCronTask (sampleInput "date +%F") = .ok file :=
    ⟨_, rfl⟩
  obtain ⟨file, hok⟩ := hok
  obtain ⟨account, schedule, command, enabled, fields, -, -, hcommand,
    henabled, -, hfive, hread, -⟩ :=
    task_file_reads (sampleInput "date +%F") file hok
  have hdate : normalizeCronCommand (sampleInput "date +%F").command
      = .ok "date +%F" := by decide +kernel
  rw [hdate] at hcommand
  obtain rfl := Except.ok.inj hcommand
  obtain rfl : true = enabled := Json.bool.inj henabled
  exact ⟨file, fields, account.toList, hok, hfive, hread⟩

/-- The backslash of a `%` that was escaped already is lost. -/
theorem escaped_percent_lost :
    ∃ file, renderCronTask (sampleInput "date +\\%F") = .ok file
      ∧ normalizeCronCommand (sampleInput "date +\\%F").command
        = .ok "date +\\%F"
      ∧ Crontab.readFile file.toList
        = settings ++ [.entry (sampleEntry "date +%F")] := by
  have hok : ∃ file, renderCronTask (sampleInput "date +\\%F") = .ok file
      ∧ Crontab.readFile file.toList
        = settings ++ [.entry (sampleEntry "date +%F")] := by
    refine ⟨_, rfl, ?_⟩
    decide +kernel
  obtain ⟨file, hfile, hread⟩ := hok
  exact ⟨file, hfile, by decide +kernel, hread⟩

example : Text.isDigit '*' = false := by decide +kernel

end Yunpanel.Cron
