import GameBridge.Proofs.Config.Reading
import GameBridge.Proofs.Disk.Looking
import GameBridge.Proofs.Schedule.Countdown
import GameBridge.Proofs.Wire.Links

/-!
# The settings in a file

What is loaded from a file goes by its text, and by the check of the scheme that comes after it
(`load_eq_ok_iff`). So a file with a text of a sheet gives the settings that were arranged on the
sheet, or nothing at all if they are not acceptable or if there is anything else on the sheet.

Not every file is written as a sheet. Settings can be given in braces, by keys with dots or as the
items of a list. Whatever a file holds, a setting or a section that does not exist is refused
(`exists_known_of_load`), and what is loaded is sound.
-/

namespace GameBridge.Config

open Toml

/-! ## Loading -/

/-- A configuration is loaded from a file just if its text is read and the scheme is one. -/
theorem load_eq_ok_iff {disk : Disk} {path : Path} {text : String} {config : Config}
    (hfile : disk.contentAt path = .ok (Text.bytes text)) :
    load disk path = .ok config ↔ read? text = some config ∧ isScheme config.scheme = true := by
  have hcontains : disk.contains path = true := by
    rw [Disk.contains_eq_isSome_nodeAt?, Disk.contentAt_eq_ok_iff.mp hfile]
    rfl
  have htext : (disk.contentAt path).toOption.bind Text.ofBytes? = some text := by
    rw [hfile]
    exact Text.ofBytes?_bytes text
  simp only [load, hcontains, Bool.true_eq_false, if_false, htext]
  cases read? text with
  | none => simp
  | some found =>
    simp only [Option.some.injEq]
    split_ifs with hscheme
    · rw [Except.ok.injEq]
      exact ⟨fun heq ↦ ⟨heq, heq ▸ hscheme⟩, And.left⟩
    · refine iff_of_false (by simp) ?_
      rintro ⟨rfl, h⟩
      exact hscheme h

theorem exists_error_of_ne_ok {disk : Disk} {path : Path}
    (h : ∀ config, load disk path ≠ .ok config) : ∃ fault, load disk path = .error fault := by
  cases hload : load disk path with
  | ok config => exact absurd hload (h config)
  | error fault => exact ⟨fault, rfl⟩

/-! ## Whatever a file holds -/

theorem mem_of_findEntry {α : Type} {key : String} {value : α} {entries : List (String × α)}
    (h : findEntry key entries = some value) : (key, value) ∈ entries := by
  induction entries with
  | nil => exact absurd h (by simp [findEntry])
  | cons entry rest ih =>
    obtain ⟨k, v⟩ := entry
    rw [findEntry] at h
    split_ifs at h with heq
    · rw [heq, Option.some.inj h]
      exact List.mem_cons_self
    · exact List.mem_cons_of_mem _ (ih h)

/-- Nothing is in a document but the known sections, with the known settings in their tables. -/
structure Known (entries : Entries) : Prop where
  parts : ∀ entry ∈ entries, ∃ setting : Setting, setting.part = entry.1
  keys : ∀ name origin table, findEntry name entries = some (.table origin table) →
    ∀ entry ∈ table, ∃ setting : Setting, setting.part = name ∧ setting.key = entry.1

theorem known_of_ofEntries? {entries : Entries} {config : Config}
    (h : ofEntries? entries = some config) : Known entries := by
  obtain ⟨look, hreads⟩ := ofEntries?_eq_some_iff.mp h
  refine ⟨hreads.known, fun name origin table hfound entry hentry ↦ ?_⟩
  obtain ⟨setting, rfl⟩ := hreads.known _ (mem_of_findEntry hfound)
  obtain ⟨find?, hfind, -⟩ := hreads.parts setting
  rw [hfound, Option.getD_some, settings?_table_eq_some_iff] at hfind
  exact mem_partKeys.mp (hfind.1 entry hentry)

/-- A file from which a configuration is loaded holds a document without anything unknown. -/
theorem exists_known_of_load {disk : Disk} {path : Path} {config : Config}
    (h : load disk path = .ok config) (hcontains : disk.contains path = true) :
    ∃ content text entries, disk.contentAt path = .ok content ∧ Text.ofBytes? content = some text
      ∧ Toml.read? text = some entries ∧ Known entries := by
  simp only [load, hcontains, Bool.true_eq_false, if_false] at h
  cases htext : (disk.contentAt path).toOption.bind Text.ofBytes? with
  | none => exact absurd h (by simp [htext])
  | some text =>
    rw [htext] at h
    obtain ⟨content, hcontent, htext⟩ := Option.bind_eq_some_iff.mp htext
    cases hread : read? text with
    | none => exact absurd h (by simp [hread])
    | some found =>
      obtain ⟨entries, hentries, hfound⟩ := Option.bind_eq_some_iff.mp hread
      refine ⟨content, text, entries, ?_, htext, hentries, known_of_ofEntries? hfound⟩
      cases hdisk : disk.contentAt path with
      | error fault =>
        rw [hdisk] at hcontent
        exact absurd hcontent (by simp [Except.toOption])
      | ok bytes =>
        rw [hdisk] at hcontent
        exact congrArg Except.ok (Option.some.inj hcontent)

/-! ## The settings of a file -/

/-- Something on a sheet is no setting: a pair in front of the sections, a section with an unknown
name, or an unknown key in a section. -/
inductive Additional (sheet : Sheet) : Prop
  | front (h : sheet.front ≠ [])
  | part {part : String × List (String × Scalar)} (hpart : part ∈ sheet.sections)
      (h : ∀ setting : Setting, setting.part ≠ part.1)
  | key {name key : String} {value : Scalar} (hhas : sheet.Has name key value)
      (h : ∀ setting : Setting, setting.part = name → setting.key ≠ key)

theorem not_arranged_of_additional {sheet : Sheet} (h : Additional sheet) (choice : Choice) :
    ¬choice.Arranged sheet := by
  intro harranged
  cases h with
  | front h => exact h harranged.front
  | part hpart h =>
    obtain ⟨setting, hsetting⟩ := harranged.known _ hpart
    exact h setting hsetting
  | key hhas h =>
    obtain ⟨setting, hpart, hkey, -⟩ := (harranged.has _ _ _).mp hhas
    exact h setting hpart hkey

/-- **The settings of a file.** Take any text of any sheet. If the sheet is an arrangement of a
choice that is acceptable, then each chosen setting has its value and each other one its default.
With a scheme that is none, or with an interval that is negative or too large, nothing is loaded,
and neither is it from a sheet that has something besides settings, has a setting or a section
twice, or has a value of a wrong kind.

Whatever a file holds, what is loaded has intervals that are not negative and a scheme that is one,
and there is nothing in the file but known sections with known settings. -/
theorem loaded_settings (disk : Disk) (path : Path) :
    (∀ (text : String) (sheet : Sheet), disk.contentAt path = .ok (Text.bytes text) →
        sheet.Writes text →
        (∀ choice : Choice, choice.Arranged sheet → choice.Acceptable →
            ∃ config, load disk path = .ok config ∧ choice.Gives config)
          ∧ (∀ choice : Choice, choice.Arranged sheet → ¬choice.Acceptable →
            ∃ fault, load disk path = .error fault)
          ∧ (Additional sheet → ∃ fault, load disk path = .error fault)
          ∧ ((∀ choice : Choice, ¬choice.Arranged sheet) → ∃ fault, load disk path = .error fault))
      ∧ ∀ config, load disk path = .ok config →
        (∀ task, 0 ≤ (config.engineSettings.intervals.get task).toInt
          ∧ (config.engineSettings.intervals.get task).toInt ≤ Int64.maxValue.toInt)
        ∧ IsScheme config.engineSettings.scheme
        ∧ (disk.contains path = true → ∃ content text entries,
          disk.contentAt path = .ok content ∧ Text.ofBytes? content = some text
            ∧ Toml.read? text = some entries ∧ Known entries) := by
  refine ⟨fun text sheet hfile hwrites ↦ ?_, fun config hload ↦
    ⟨fun task ↦ ⟨config.interval_nonneg task, Int64.toInt_le _⟩,
      isScheme_iff.mp (isScheme_of_load hload), exists_known_of_load hload⟩⟩
  have harranged : ∀ config, load disk path = .ok config →
      ∃ choice : Choice, choice.Arranged sheet := fun config hload ↦
    exists_arranged_of_read? hwrites ((load_eq_ok_iff hfile).mp hload).1
  have hrefused : (∀ choice : Choice, ¬choice.Arranged sheet) →
      ∃ fault, load disk path = .error fault := by
    intro hnone
    apply exists_error_of_ne_ok
    intro config hload
    obtain ⟨choice, hchoice⟩ := harranged config hload
    exact hnone choice hchoice
  refine ⟨fun choice hchoice haccept ↦ ?_, fun choice hchoice haccept ↦ ?_,
    fun hadditional ↦ hrefused (not_arranged_of_additional hadditional), hrefused⟩
  · obtain ⟨config, hconfig, hscheme⟩ := Choice.acceptable_iff.mp haccept
    refine ⟨config, (load_eq_ok_iff hfile).mpr ⟨?_, hscheme⟩, Choice.gives_of_config? hconfig⟩
    exact (read?_of_arranged hchoice hwrites).trans hconfig
  · apply exists_error_of_ne_ok
    intro config hload
    obtain ⟨hread, hscheme⟩ := (load_eq_ok_iff hfile).mp hload
    rw [read?_of_arranged hchoice hwrites] at hread
    exact haccept (Choice.acceptable_iff.mpr ⟨config, hread, hscheme⟩)

/-- A scheme and a policy. -/
def linksChoice : Choice := ⟨none, none, none, some .prune, some "my-app"⟩

/-- The sections of a choice in another order than usual. -/
def linksSheet : Sheet :=
  ⟨[], [("launch", [("uri_scheme", .text "my-app")]), ("refresh", [("staleness", .text "prune")])]⟩

theorem writes_linksSheet : linksSheet.Writes
    "# links\n[launch]\nuri_scheme = 'my-app'\n[refresh]\nstaleness = \"prune\"\n" := by
  have hfeed : ['\n'] ∈ breaks := List.mem_cons_self
  have hremark : LineSpelling none ([] ++ '#' :: " links".toList) :=
    .blank blanks_nil (.some (List.forall_iff_forall_mem.mp (by decide)))
  have happ : StringSpelling "my-app" ('\'' :: "my-app".toList ++ ['\'']) :=
    .literal (List.forall_iff_forall_mem.mp (by decide))
  have hprune : StringSpelling "prune" ('"' :: "prune".toList ++ ['"']) :=
    .quoted (.plain (List.forall_iff_forall_mem.mp (by decide)))
  have hlaunch := @LineSpelling.bareHeader "launch" (by decide) (by decide)
  have hscheme := @LineSpelling.barePair "uri_scheme" _ _ (by decide) (by decide) (.text happ)
  have hrefresh := @LineSpelling.bareHeader "refresh" (by decide) (by decide)
  have hpolicy := @LineSpelling.barePair "staleness" _ _ (by decide) (by decide) (.text hprune)
  exact .cons hremark hfeed (.cons hlaunch hfeed (.cons hscheme hfeed (.cons hrefresh hfeed
    (.cons hpolicy hfeed (.last (.blank blanks_nil .none))))))

theorem arranged_linksSheet : linksChoice.Arranged linksSheet := by
  refine ⟨rfl, by decide, by simp [linksSheet, ← mem_sections_iff], by decide,
    fun name key value ↦ ⟨?_, ?_⟩⟩
  · rintro ⟨pairs, hpairs, hmem⟩
    simp only [linksSheet, List.mem_cons, Prod.mk.injEq, List.not_mem_nil, or_false] at hpairs
    rcases hpairs with ⟨rfl, rfl⟩ | ⟨rfl, rfl⟩
    · obtain ⟨rfl, rfl⟩ := Prod.mk.inj (List.mem_singleton.mp hmem)
      exact ⟨.scheme, rfl, rfl, rfl⟩
    · obtain ⟨rfl, rfl⟩ := Prod.mk.inj (List.mem_singleton.mp hmem)
      exact ⟨.staleness, rfl, rfl, rfl⟩
  · rintro ⟨setting, rfl, rfl, hvalue⟩
    cases setting with
    | scheme =>
      obtain rfl := Option.some.inj hvalue
      exact ⟨_, List.mem_cons_self, List.mem_cons_self⟩
    | staleness =>
      obtain rfl := Option.some.inj hvalue
      exact ⟨_, List.mem_cons_of_mem _ List.mem_cons_self, List.mem_cons_self⟩
    | _ => exact absurd hvalue (by simp [linksChoice, Choice.value])

theorem acceptable_linksChoice : linksChoice.Acceptable := by
  refine ⟨by simp [linksChoice], by simp [linksChoice], ?_⟩
  rintro s ⟨⟩
  exact isScheme_iff.mp (by decide)

/-- An interval that is negative. -/
def negativeChoice : Choice := ⟨none, some (-1), none, none, none⟩

theorem writes_negativeChoice : negativeChoice.sheet.Writes
    "[store]\n[refresh]\nownership_interval_secs = -1\n[launch]" := by
  have hfeed : ['\n'] ∈ breaks := List.mem_cons_self
  have hstore := @LineSpelling.bareHeader "store" (by decide) (by decide)
  have hrefresh := @LineSpelling.bareHeader "refresh" (by decide) (by decide)
  have hinterval := @LineSpelling.barePair "ownership_interval_secs" _ _ (by decide) (by decide)
    (.int (-1))
  have hlaunch := @LineSpelling.bareHeader "launch" (by decide) (by decide)
  exact .cons hstore hfeed (.cons hrefresh hfeed (.cons hinterval hfeed (.last hlaunch)))

theorem not_acceptable_negativeChoice : ¬negativeChoice.Acceptable := fun h ↦
  absurd (h.ownershipInterval (-1) rfl).1 (by decide)

/-- A sheet with a key that is not known. -/
def misspeltSheet : Sheet := ⟨[], [("refresh", [("ownership_interval", .int 5)])]⟩

theorem writes_misspeltSheet : misspeltSheet.Writes "[refresh]\nownership_interval = 5" :=
  .cons (@LineSpelling.bareHeader "refresh" (by decide) (by decide)) List.mem_cons_self
    (.last (@LineSpelling.barePair "ownership_interval" _ _ (by decide) (by decide) (.int 5)))

theorem additional_misspeltSheet : Additional misspeltSheet := by
  refine .key ⟨_, List.mem_cons_self, List.mem_cons_self⟩ fun setting _ ↦ ?_
  cases setting <;> decide

/-- Two settings are chosen, and their sections come in another order than usual, under a remark. In
the other files an interval is negative and a key is misspelt. -/
theorem loaded_settings_reordered :
    let choice : Choice := ⟨none, none, none, some .prune, some "my-app"⟩
    (∃ config, load (Desk.configured
          "# links\n[launch]\nuri_scheme = 'my-app'\n[refresh]\nstaleness = \"prune\"\n")
        "config.toml" = .ok config ∧ choice.Gives config)
      ∧ (∃ fault, load (Desk.configured
          "[store]\n[refresh]\nownership_interval_secs = -1\n[launch]") "config.toml"
        = .error fault)
      ∧ ∃ fault, load (Desk.configured "[refresh]\nownership_interval = 5") "config.toml"
        = .error fault := by
  have hfile : ∀ text, (Desk.configured text).contentAt "config.toml" = .ok (Text.bytes text) :=
    fun text ↦ rfl
  have hsettings := fun text ↦ (loaded_settings (Desk.configured text) "config.toml").1
  exact ⟨(hsettings _ _ linksSheet (hfile _) writes_linksSheet).1 linksChoice arranged_linksSheet
      acceptable_linksChoice,
    (hsettings _ _ negativeChoice.sheet (hfile _) writes_negativeChoice).2.1 negativeChoice
      negativeChoice.arranged_sheet not_acceptable_negativeChoice,
    (hsettings _ _ misspeltSheet (hfile _) writes_misspeltSheet).2.2.1 additional_misspeltSheet⟩

end GameBridge.Config
