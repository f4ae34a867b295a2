import GameBridge.Proofs.Config.Choices

/-!
# Reading the settings of a sheet

A setting is looked up in the table of its section and read on its own, so what is read of one
setting does not depend on what is said of another one (`ofEntries?_eq_some_iff`). In the table of a
sheet there is just what the sheet has. It follows that each text of an arrangement of a choice is
read as the choice (`read?_of_arranged`), and that nothing else is read of a sheet: what is read of
its texts is arranged on it (`exists_arranged_of_read?`).
-/

namespace GameBridge.Config

open Toml

/-! ## Reading settings -/

/-- The item of a setting, among those that are found in the sections. -/
def Setting.item? (store refresh launch : String → Option Item) (setting : Setting) :
    Option Item :=
  match setting with
  | .databasePath => store setting.key
  | .ownershipInterval | .installationInterval | .staleness => refresh setting.key
  | .scheme => launch setting.key

/-- What a configuration is read from: known sections with known settings, and a value for each
setting or none. -/
structure Reads (entries : Entries) (config : Config) (look : Setting → Option Item) : Prop where
  known : ∀ entry ∈ entries, ∃ setting : Setting, setting.part = entry.1
  parts : ∀ setting : Setting, ∃ find?,
    settings? (partKeys setting.part) ((findEntry setting.part entries).getD blank) = some find?
      ∧ find? setting.key = look setting
  databasePath : setting? (fun item ↦ (text? item).map some) default.databasePath
    (look .databasePath) = some config.databasePath
  ownershipInterval : setting? seconds? default.ownershipInterval (look .ownershipInterval)
    = some config.ownershipInterval
  installationInterval : setting? seconds? default.installationInterval
    (look .installationInterval) = some config.installationInterval
  staleness : setting? staleness? default.staleness (look .staleness) = some config.staleness
  scheme : setting? text? default.scheme (look .scheme) = some config.scheme

theorem settings?_table_eq_some_iff {names : List String} {origin : Origin} {entries : Entries}
    {find? : String → Option Item} :
    settings? names (.table origin entries) = some find?
      ↔ (∀ entry ∈ entries, entry.1 ∈ names) ∧ (fun name ↦ findEntry name entries) = find? := by
  rw [settings?, Option.ite_none_right_eq_some, Option.some.injEq]
  simp

/-- **Settings** are read one by one, each of them from its own section only. -/
theorem ofEntries?_eq_some_iff {entries : Entries} {config : Config} :
    ofEntries? entries = some config ↔ ∃ look, Reads entries config look := by
  constructor
  · intro h
    simp only [ofEntries?, Option.bind_eq_bind, Option.bind_eq_some_iff,
      settings?_table_eq_some_iff] at h
    obtain ⟨_, ⟨hknown, rfl⟩, store, hstore, refresh, hrefresh, launch, hlaunch, path, hpath,
      ownership, hownership, installation, hinstallation, staleness, hstaleness, scheme, hscheme,
      hconfig⟩ := h
    obtain rfl := Option.some.inj hconfig
    refine ⟨Setting.item? store refresh launch,
      fun entry hentry ↦ mem_sections_iff.mp (hknown entry hentry), fun setting ↦ ?_,
      hpath, hownership, hinstallation, hstaleness, hscheme⟩
    cases setting with
    | databasePath => exact ⟨store, hstore, rfl⟩
    | ownershipInterval => exact ⟨refresh, hrefresh, rfl⟩
    | installationInterval => exact ⟨refresh, hrefresh, rfl⟩
    | staleness => exact ⟨refresh, hrefresh, rfl⟩
    | scheme => exact ⟨launch, hlaunch, rfl⟩
  · rintro ⟨look, h⟩
    obtain ⟨store, hstore, hdatabasePath⟩ := h.parts .databasePath
    obtain ⟨refresh, hrefresh, hownership⟩ := h.parts .ownershipInterval
    obtain ⟨_, hrefresh₁, hinstallation⟩ := h.parts .installationInterval
    obtain ⟨_, hrefresh₂, hstaleness⟩ := h.parts .staleness
    obtain ⟨launch, hlaunch, hscheme⟩ := h.parts .scheme
    obtain rfl := Option.some.inj (hrefresh₁.symm.trans hrefresh)
    obtain rfl := Option.some.inj (hrefresh₂.symm.trans hrefresh)
    have hparts : settings? ["store", "refresh", "launch"] (.table .header entries)
        = some fun name ↦ findEntry name entries :=
      settings?_table_eq_some_iff.mpr
        ⟨fun entry hentry ↦ mem_sections_iff.mpr (h.known entry hentry), rfl⟩
    have hpath := hdatabasePath ▸ h.databasePath
    have hownership := hownership ▸ h.ownershipInterval
    have hinstallation := hinstallation ▸ h.installationInterval
    have hstaleness := hstaleness ▸ h.staleness
    have hscheme := hscheme ▸ h.scheme
    simp only [ofEntries?, Option.bind_eq_bind, Option.bind_eq_some_iff]
    exact ⟨_, hparts, store, hstore, _, hrefresh, launch, hlaunch, _, hpath, _, hownership, _,
      hinstallation, _, hstaleness, _, hscheme, rfl⟩

/-! ## Sheets and settings -/

section Sheets

variable {sheet : Sheet} {index : Index Item} {choice : Choice} {config : Config}

theorem forall_mem_entries_iff {p : String → Prop} (index : Index Item) :
    (∀ entry ∈ index.entries, p entry.1) ↔ ∀ key item, index.get? key = some item → p key := by
  simp only [Index.get?_eq_some_iff]
  exact ⟨fun h key item hmem ↦ h (key, item) hmem, fun h entry hmem ↦ h entry.1 entry.2 hmem⟩

theorem isSome_item?_of_has (hindex : sheet.index? = some index) {name key : String}
    {value : Scalar} (h : sheet.Has name key value) : value.item?.isSome = true := by
  obtain ⟨-, -, htables⟩ := Sheet.isSome_index?_iff.mp (by rw [hindex]; rfl)
  obtain ⟨pairs, hpairs, hmem⟩ := h
  exact (Sheet.isSome_table?_iff.mp (htables _ hpairs)).2 _ hmem

/-- The settings of a section, if their names are known. -/
theorem settings?_part (hindex : sheet.index? = some index) (hfront : sheet.front = [])
    (name : String) {find? : String → Option Item} :
    settings? (partKeys name) ((findEntry name index.entries).getD blank) = some find?
      ↔ (∀ key value, sheet.Has name key value → key ∈ partKeys name)
        ∧ ∀ key item, find? key = some item
          ↔ ∃ value, sheet.Has name key value ∧ value.item? = some item := by
  obtain ⟨child, hchild, hget⟩ := Sheet.exists_index_of_section hindex hfront name
  rw [Index.get?, ← blank] at hchild
  rw [hchild, settings?_table_eq_some_iff, forall_mem_entries_iff]
  constructor
  · rintro ⟨hknown, rfl⟩
    refine ⟨fun key value hhas ↦ ?_, hget⟩
    obtain ⟨item, hitem⟩ := Option.isSome_iff_exists.mp (isSome_item?_of_has hindex hhas)
    exact hknown key item ((hget key item).mpr ⟨value, hhas, hitem⟩)
  · rintro ⟨hknown, hfind⟩
    refine ⟨fun key item hitem ↦ ?_, funext fun key ↦ Option.ext fun item ↦ ?_⟩
    · obtain ⟨value, hhas, -⟩ := (hget key item).mp hitem
      exact hknown key value hhas
    · exact (hget key item).trans (hfind key item).symm

theorem Choice.Arranged.has_iff (h : choice.Arranged sheet) (setting : Setting) (value : Scalar) :
    sheet.Has setting.part setting.key value ↔ choice.value setting = some value := by
  rw [h.has]
  constructor
  · rintro ⟨other, hpart, hkey, hvalue⟩
    rwa [← Setting.eq_of_place hpart hkey]
  · exact fun hvalue ↦ ⟨setting, rfl, rfl, hvalue⟩

/-- A setting is read as the value that was chosen. -/
theorem Choice.Arranged.exists_find? (h : choice.Arranged sheet)
    (hindex : sheet.index? = some index) (setting : Setting) : ∃ find?,
      settings? (partKeys setting.part) ((findEntry setting.part index.entries).getD blank)
          = some find?
        ∧ find? setting.key = (choice.value setting).bind Scalar.item? := by
  obtain ⟨child, -, hget⟩ := Sheet.exists_index_of_section hindex h.front setting.part
  refine ⟨child.get?, (settings?_part hindex h.front setting.part).mpr ⟨?_, hget⟩,
    Option.ext fun item ↦ ?_⟩
  · intro key value hhas
    obtain ⟨other, hpart, hkey, -⟩ := (h.has _ _ _).mp hhas
    exact mem_partKeys.mpr ⟨other, hpart, hkey⟩
  · simp only [hget, h.has_iff, Option.bind_eq_some_iff]

/-- A sheet of a choice gives a value to each setting that was chosen, and to no other. -/
theorem exists_reads_iff (h : choice.Arranged sheet) (hindex : sheet.index? = some index) :
    (∃ look, Reads index.entries config look)
      ↔ Reads index.entries config fun setting ↦ (choice.value setting).bind Scalar.item? := by
  refine ⟨?_, fun hreads ↦ ⟨_, hreads⟩⟩
  rintro ⟨look, hreads⟩
  have hlook : look = fun setting ↦ (choice.value setting).bind Scalar.item? := by
    funext setting
    obtain ⟨find?, hfind, hvalue⟩ := h.exists_find? hindex setting
    obtain ⟨other, hother, hlook⟩ := hreads.parts setting
    rw [← hlook, ← hvalue, Option.some.inj (hother.symm.trans hfind)]
  exact hlook ▸ hreads

theorem setting?_path (path : Option String) :
    setting? (fun item ↦ (text? item).map some) none ((path.map Scalar.text).bind Scalar.item?)
      = some path := by
  cases path <;> rfl

theorem setting?_scheme (missing : String) (scheme : Option String) :
    setting? text? missing ((scheme.map Scalar.text).bind Scalar.item?)
      = some (scheme.getD missing) := by
  cases scheme <;> rfl

theorem setting?_staleness (missing : Staleness) (policy : Option Staleness) :
    setting? staleness? missing
        ((policy.map fun policy ↦ Scalar.text policy.name).bind Scalar.item?)
      = some (policy.getD missing) := by
  rcases policy with _ | _ | _ <;> rfl

/-- An interval on a sheet that is read. -/
theorem setting?_interval (missing : UInt64) {interval : Option Int}
    (h : ∀ n ∈ interval, (Scalar.int n).item?.isSome = true) :
    setting? seconds? missing ((interval.map Scalar.int).bind Scalar.item?)
      = interval? missing interval := by
  cases interval with
  | none => rfl
  | some n =>
    obtain ⟨item, hitem⟩ := Option.isSome_iff_exists.mp (h n rfl)
    rw [Option.map_some, Option.bind_some, interval?, hitem]
    rfl

theorem ofEntries?_of_arranged (h : choice.Arranged sheet) (hindex : sheet.index? = some index) :
    ofEntries? index.entries = choice.config? := by
  refine Option.ext fun config ↦ ?_
  have hint : ∀ setting n, choice.value setting = some (.int n) →
      (Scalar.int n).item?.isSome = true := fun setting n hvalue ↦
    isSome_item?_of_has hindex ((h.has_iff setting _).mpr hvalue)
  have hownership := setting?_interval default.ownershipInterval fun n hn ↦
    hint .ownershipInterval n (congrArg (Option.map Scalar.int) hn)
  have hinstallation := setting?_interval default.installationInterval fun n hn ↦
    hint .installationInterval n (congrArg (Option.map Scalar.int) hn)
  rw [ofEntries?_eq_some_iff, exists_reads_iff h hindex, Choice.config?_eq_some_iff]
  constructor
  · intro hreads
    exact ⟨hownership.symm.trans hreads.ownershipInterval,
      hinstallation.symm.trans hreads.installationInterval,
      Option.some.inj ((setting?_path _).symm.trans hreads.databasePath),
      Option.some.inj ((setting?_staleness _ _).symm.trans hreads.staleness),
      Option.some.inj ((setting?_scheme _ _).symm.trans hreads.scheme)⟩
  · rintro ⟨hfound, hother, hpath, hstaleness, hscheme⟩
    refine ⟨?_, h.exists_find? hindex, (setting?_path _).trans (congrArg some hpath),
      hownership.trans hfound, hinstallation.trans hother,
      (setting?_staleness _ _).trans (congrArg some hstaleness),
      (setting?_scheme _ _).trans (congrArg some hscheme)⟩
    rw [forall_mem_entries_iff (p := fun name ↦ ∃ setting : Setting, setting.part = name)]
    intro key item hget
    obtain ⟨value, hfront, -⟩ | ⟨pairs, hpairs, -⟩ := (Sheet.get?_of_index? hindex _ _).mp hget
    · rw [h.front] at hfront
      exact absurd hfront List.not_mem_nil
    · exact h.known _ hpairs

/-- The values of a choice that can be read can be written. -/
theorem isSome_item?_of_config? (h : choice.config? = some config) {setting : Setting}
    {value : Scalar} (hvalue : choice.value setting = some value) : value.item?.isSome = true := by
  obtain ⟨hownership, hinstallation, -⟩ := Choice.config?_eq_some_iff.mp h
  have hinterval : ∀ {missing found : UInt64} {interval : Option Int},
      interval? missing interval = some found → interval.map Scalar.int = some value →
        value.item?.isSome = true := by
    intro missing found interval hfound hmap
    obtain ⟨n, rfl, rfl⟩ := Option.map_eq_some_iff.mp hmap
    obtain ⟨item, hitem, -⟩ := Option.bind_eq_some_iff.mp hfound
    rw [hitem]
    rfl
  cases setting with
  | databasePath =>
    obtain ⟨path, -, rfl⟩ := Option.map_eq_some_iff.mp hvalue
    rfl
  | ownershipInterval => exact hinterval hownership hvalue
  | installationInterval => exact hinterval hinstallation hvalue
  | staleness =>
    obtain ⟨policy, -, rfl⟩ := Option.map_eq_some_iff.mp hvalue
    rfl
  | scheme =>
    obtain ⟨scheme, -, rfl⟩ := Option.map_eq_some_iff.mp hvalue
    rfl

/-- **A choice** whose settings are arranged on a sheet is what is read of each text of it. -/
theorem read?_of_arranged {text : String} (h : choice.Arranged sheet)
    (hwrites : sheet.Writes text) : read? text = choice.config? := by
  rw [read?, Sheet.read?_of_writes hwrites]
  cases hindex : sheet.index? with
  | some index => exact ofEntries?_of_arranged h hindex
  | none =>
    refine (Option.eq_none_iff_forall_ne_some.mpr fun config hconfig ↦ ?_).symm
    have hsome : sheet.index?.isSome = true := by
      refine Sheet.isSome_index?_iff.mpr
        ⟨by simpa [h.front] using h.sections, by simp [h.front], fun part hpart ↦ ?_⟩
      refine Sheet.isSome_table?_iff.mpr ⟨h.keys part hpart, fun pair hpair ↦ ?_⟩
      obtain ⟨setting, -, -, hvalue⟩ := (h.has _ _ _).mp ⟨part.2, hpart, hpair⟩
      exact isSome_item?_of_config? hconfig hvalue
    rw [hindex] at hsome
    exact absurd hsome (by decide)

/-! ## Nothing else is read -/

/-- A value that was read is a written one, if there is only one and each has a written form. -/
theorem exists_field {α β : Type} {read : Item → Option β} {missing found : β}
    {look : Option Item} {has : Scalar → Prop} (write : α → Scalar)
    (hfound : setting? read missing look = some found)
    (hlook : ∀ item, look = some item ↔ ∃ value, has value ∧ value.item? = some item)
    (hunique : ∀ value other, has value → has other → value = other)
    (hitem : ∀ value, has value → value.item?.isSome = true)
    (hread : ∀ value item, value.item? = some item → (read item).isSome = true →
      ∃ a, write a = value) :
    ∃ field : Option α, ∀ value, has value ↔ field.map write = some value := by
  by_cases hany : ∃ value, has value
  · obtain ⟨value, hvalue⟩ := hany
    obtain ⟨item, hsome⟩ := Option.isSome_iff_exists.mp (hitem value hvalue)
    rw [(hlook item).mpr ⟨value, hvalue, hsome⟩] at hfound
    obtain ⟨a, rfl⟩ := hread value item hsome (Option.isSome_of_eq_some hfound)
    refine ⟨some a, fun other ↦ ⟨fun hother ↦ ?_, fun heq ↦ ?_⟩⟩
    · exact congrArg some (hunique _ _ hvalue hother)
    · exact Option.some.inj heq ▸ hvalue
  · refine ⟨none, fun value ↦ iff_of_false (fun hvalue ↦ hany ⟨value, hvalue⟩) ?_⟩
    simp

variable {look : Setting → Option Item}

theorem Reads.front_eq_nil (h : Reads index.entries config look)
    (hindex : sheet.index? = some index) : sheet.front = [] := by
  rw [List.eq_nil_iff_forall_not_mem]
  rintro ⟨key, value⟩ hmem
  obtain ⟨-, hvalues, -⟩ := Sheet.isSome_index?_iff.mp (by rw [hindex]; rfl)
  obtain ⟨item, hitem⟩ := Option.isSome_iff_exists.mp (hvalues _ hmem)
  have hget : index.get? key = some item :=
    (Sheet.get?_of_index? hindex _ _).mpr (Or.inl ⟨value, hmem, hitem⟩)
  obtain ⟨setting, rfl⟩ := h.known _ ((Index.get?_eq_some_iff _ _ _).mp hget)
  obtain ⟨find?, hfind, -⟩ := h.parts setting
  rw [← Index.get?, hget, Option.getD_some] at hfind
  -- a value that is no table has no settings
  obtain ⟨s, -, rfl⟩ | ⟨i, n, -, rfl⟩ | ⟨b, -, rfl⟩ := Scalar.cases_of_item? hitem <;>
    exact absurd hfind (by simp [settings?])

theorem Reads.look_iff (h : Reads index.entries config look) (hindex : sheet.index? = some index)
    (setting : Setting) (item : Item) :
    look setting = some item
      ↔ ∃ value, sheet.Has setting.part setting.key value ∧ value.item? = some item := by
  obtain ⟨find?, hfind, hlook⟩ := h.parts setting
  rw [← hlook]
  exact ((settings?_part hindex (h.front_eq_nil hindex) _).mp hfind).2 _ item

theorem Reads.known_part (h : Reads index.entries config look) (hindex : sheet.index? = some index)
    {part : String × List (String × Scalar)} (hpart : part ∈ sheet.sections) :
    ∃ setting : Setting, setting.part = part.1 := by
  obtain ⟨-, -, htables⟩ := Sheet.isSome_index?_iff.mp (by rw [hindex]; rfl)
  obtain ⟨table, htable⟩ := Option.isSome_iff_exists.mp (htables part hpart)
  have hget := (Sheet.get?_of_index? hindex _ _).mpr (Or.inr ⟨_, hpart, htable⟩)
  exact h.known _ ((Index.get?_eq_some_iff _ _ _).mp hget)

theorem Reads.exists_setting (h : Reads index.entries config look)
    (hindex : sheet.index? = some index) {name key : String} {value : Scalar}
    (hhas : sheet.Has name key value) :
    ∃ setting : Setting, setting.part = name ∧ setting.key = key := by
  obtain ⟨setting, rfl⟩ := h.known_part hindex hhas.choose_spec.1
  obtain ⟨find?, hfind, -⟩ := h.parts setting
  have hkeys := ((settings?_part hindex (h.front_eq_nil hindex) _).mp hfind).1
  exact mem_partKeys.mp (hkeys key value hhas)

theorem exists_text {value : Scalar} {item : Item} (hitem : value.item? = some item)
    (htext : (text? item).isSome = true) : ∃ s, Scalar.text s = value := by
  obtain ⟨s, rfl, -⟩ | ⟨i, n, -, rfl⟩ | ⟨b, -, rfl⟩ := Scalar.cases_of_item? hitem
  · exact ⟨s, rfl⟩
  · exact absurd htext Bool.false_ne_true
  · exact absurd htext Bool.false_ne_true

theorem exists_seconds {value : Scalar} {item : Item} (hitem : value.item? = some item)
    (hseconds : (seconds? item).isSome = true) : ∃ n, Scalar.int n = value := by
  obtain ⟨s, -, rfl⟩ | ⟨i, n, rfl, -⟩ | ⟨b, -, rfl⟩ := Scalar.cases_of_item? hitem
  · exact absurd hseconds Bool.false_ne_true
  · exact ⟨i, rfl⟩
  · exact absurd hseconds Bool.false_ne_true

theorem exists_staleness {value : Scalar} {item : Item} (hitem : value.item? = some item)
    (hstaleness : (staleness? item).isSome = true) :
    ∃ policy : Staleness, Scalar.text policy.name = value := by
  obtain ⟨s, rfl, rfl⟩ | ⟨i, n, -, rfl⟩ | ⟨b, -, rfl⟩ := Scalar.cases_of_item? hitem
  · rw [staleness?, stalenessNamed?] at hstaleness
    split_ifs at hstaleness with hsticky hprune
    · exact ⟨.sticky, by rw [hsticky]⟩
    · exact ⟨.prune, by rw [hprune]⟩
    · exact absurd hstaleness Bool.false_ne_true
  · exact absurd hstaleness Bool.false_ne_true
  · exact absurd hstaleness Bool.false_ne_true

theorem exists_arranged_of_read? {text : String} (hwrites : sheet.Writes text)
    (h : read? text = some config) : ∃ choice : Choice, choice.Arranged sheet := by
  rw [read?, Sheet.read?_of_writes hwrites] at h
  obtain ⟨entries, hentries, h⟩ := Option.bind_eq_some_iff.mp h
  obtain ⟨index, hindex, rfl⟩ := Option.map_eq_some_iff.mp hentries
  obtain ⟨look, hreads⟩ := ofEntries?_eq_some_iff.mp h
  have hfront := hreads.front_eq_nil hindex
  obtain ⟨hnodup, -, htables⟩ := Sheet.isSome_index?_iff.mp (by rw [hindex]; rfl)
  rw [hfront, List.map_nil, List.nil_append] at hnodup
  have hkeys : ∀ part ∈ sheet.sections, (part.2.map Prod.fst).Nodup :=
    fun part hpart ↦ (Sheet.isSome_table?_iff.mp (htables part hpart)).1
  have hunique : ∀ (setting : Setting) value other, sheet.Has setting.part setting.key value →
      sheet.Has setting.part setting.key other → value = other :=
    fun _ _ _ hvalue hother ↦ hvalue.unique hnodup hkeys hother
  have hitem : ∀ (setting : Setting) value, sheet.Has setting.part setting.key value →
      value.item?.isSome = true := fun _ _ ↦ isSome_item?_of_has hindex
  obtain ⟨path, hpath⟩ := exists_field Scalar.text hreads.databasePath
    (hreads.look_iff hindex _) (hunique _) (hitem _)
    fun value item hitem hread ↦ exists_text hitem (by simpa using hread)
  obtain ⟨ownership, hownership⟩ := exists_field Scalar.int hreads.ownershipInterval
    (hreads.look_iff hindex _) (hunique _) (hitem _) fun _ _ ↦ exists_seconds
  obtain ⟨installation, hinstallation⟩ := exists_field Scalar.int hreads.installationInterval
    (hreads.look_iff hindex _) (hunique _) (hitem _) fun _ _ ↦ exists_seconds
  obtain ⟨policy, hpolicy⟩ := exists_field (fun policy : Staleness ↦ Scalar.text policy.name)
    hreads.staleness (hreads.look_iff hindex _) (hunique _) (hitem _) fun _ _ ↦ exists_staleness
  obtain ⟨scheme, hscheme⟩ := exists_field Scalar.text hreads.scheme
    (hreads.look_iff hindex _) (hunique _) (hitem _) fun _ _ ↦ exists_text
  let choice : Choice := ⟨path, ownership, installation, policy, scheme⟩
  have hvalue : ∀ (setting : Setting) value,
      sheet.Has setting.part setting.key value ↔ choice.value setting = some value := by
    intro setting value
    cases setting with
    | databasePath => exact hpath value
    | ownershipInterval => exact hownership value
    | installationInterval => exact hinstallation value
    | staleness => exact hpolicy value
    | scheme => exact hscheme value
  refine ⟨choice, hfront, hnodup, fun part ↦ hreads.known_part hindex, hkeys,
    fun name key value ↦ ⟨fun hhas ↦ ?_, ?_⟩⟩
  · obtain ⟨setting, rfl, rfl⟩ := hreads.exists_setting hindex hhas
    exact ⟨setting, rfl, rfl, (hvalue setting value).mp hhas⟩
  · rintro ⟨setting, rfl, rfl, hchosen⟩
    exact (hvalue setting value).mpr hchosen

end Sheets

end GameBridge.Config
