import GameBridge.Config
import GameBridge.Proofs.Toml.Sheets
import Mathlib.Algebra.Order.Ring.Int

/-!
# Choices of settings

Whoever writes a configuration chooses some of five settings, and puts each of them under its key
into one of three sections. A `Choice` is what is chosen, and `Choice.Arranged` says which sheets
have just these settings, with the sections and the keys in any order. There are such sheets and
texts of them for every choice (`Choice.exists_text`).

A choice is acceptable if its intervals are counts of seconds within 63 bits and its scheme can be
the beginning of a link. What it asks for is then a configuration (`Choice.acceptable_iff`), with
the defaults of the settings that were not chosen (`Choice.Gives`).
-/

namespace GameBridge.Config

open Toml

/-! ## Choices -/

/-- A setting. -/
inductive Setting where
  | databasePath
  | ownershipInterval
  | installationInterval
  | staleness
  | scheme
deriving DecidableEq, Repr

/-- The section of a setting. -/
def Setting.part : Setting → String
  | databasePath => "store"
  | ownershipInterval | installationInterval | staleness => "refresh"
  | scheme => "launch"

/-- The key of a setting in its section. -/
def Setting.key : Setting → String
  | databasePath => "butler_db_path"
  | ownershipInterval => "ownership_interval_secs"
  | installationInterval => "installation_interval_secs"
  | staleness => "staleness"
  | scheme => "uri_scheme"

/-- The settings in the order of their sections. -/
def Setting.all : List Setting :=
  [.databasePath, .ownershipInterval, .installationInterval, .staleness, .scheme]

/-- The keys of a section, in their order. -/
def partKeys (name : String) : List String :=
  (Setting.all.filter fun setting ↦ setting.part = name).map Setting.key

theorem Setting.mem_all (setting : Setting) : setting ∈ Setting.all := by
  cases setting <;> decide

theorem mem_partKeys {name key : String} :
    key ∈ partKeys name ↔ ∃ setting : Setting, setting.part = name ∧ setting.key = key := by
  simp [partKeys, Setting.mem_all]

theorem mem_sections_iff {name : String} :
    name ∈ ["store", "refresh", "launch"] ↔ ∃ setting : Setting, setting.part = name := by
  constructor
  · intro h
    simp only [List.mem_cons, List.not_mem_nil, or_false] at h
    rcases h with rfl | rfl | rfl
    · exact ⟨.databasePath, rfl⟩
    · exact ⟨.staleness, rfl⟩
    · exact ⟨.scheme, rfl⟩
  · rintro ⟨setting, rfl⟩
    cases setting <;> decide

theorem Setting.eq_of_place {a b : Setting} (hpart : a.part = b.part) (hkey : a.key = b.key) :
    a = b := by
  cases a <;> cases b <;> first | rfl | exact absurd hkey (by decide)

/-- The settings that somebody asks for. -/
structure Choice where
  databasePath : Option String
  ownershipInterval : Option Int
  installationInterval : Option Int
  staleness : Option Staleness
  scheme : Option String
deriving DecidableEq, Repr

namespace Choice

/-- The value of a setting in a file, if it is asked for. -/
def value (choice : Choice) : Setting → Option Scalar
  | .databasePath => choice.databasePath.map .text
  | .ownershipInterval => choice.ownershipInterval.map .int
  | .installationInterval => choice.installationInterval.map .int
  | .staleness => choice.staleness.map fun policy ↦ .text policy.name
  | .scheme => choice.scheme.map .text

end Choice

/-- A sheet has the settings of a choice and nothing else, in whatever order. -/
structure Choice.Arranged (choice : Choice) (sheet : Sheet) : Prop where
  front : sheet.front = []
  sections : (sheet.sections.map Prod.fst).Nodup
  known : ∀ part ∈ sheet.sections, ∃ setting : Setting, setting.part = part.1
  keys : ∀ part ∈ sheet.sections, (part.2.map Prod.fst).Nodup
  has : ∀ name key value, sheet.Has name key value
    ↔ ∃ setting : Setting, setting.part = name ∧ setting.key = key
      ∧ choice.value setting = some value

/-- The pairs that a choice has in a section. -/
def Choice.pairs (choice : Choice) (name : String) : List (String × Scalar) :=
  (Setting.all.filter fun setting ↦ setting.part = name).filterMap fun setting ↦
    (choice.value setting).map (setting.key, ·)

/-- The sheet of a choice with the sections and the keys in their usual order. -/
def Choice.sheet (choice : Choice) : Sheet :=
  ⟨[], ["store", "refresh", "launch"].map fun name ↦ (name, choice.pairs name)⟩

theorem Choice.keys_pairs (choice : Choice) (name : String) :
    ((choice.pairs name).map Prod.fst).Sublist (partKeys name) := by
  rw [pairs, partKeys]
  induction Setting.all.filter fun setting ↦ setting.part = name with
  | nil => exact .slnil
  | cons setting rest ih =>
    cases hvalue : choice.value setting with
    | none =>
      rw [List.filterMap_cons_none (by rw [hvalue]; rfl)]
      exact ih.cons _
    | some value =>
      rw [List.filterMap_cons_some (by rw [hvalue]; rfl)]
      exact ih.cons_cons _

theorem Choice.mem_pairs {choice : Choice} {name key : String} {value : Scalar} :
    (key, value) ∈ choice.pairs name ↔ ∃ setting : Setting, setting.part = name
      ∧ setting.key = key ∧ choice.value setting = some value := by
  simp only [pairs, List.mem_filterMap, List.mem_filter, Setting.mem_all, true_and,
    decide_eq_true_eq, Option.map_eq_some_iff, Prod.mk.injEq]
  constructor
  · rintro ⟨setting, hpart, found, hfound, hkey, rfl⟩
    exact ⟨setting, hpart, hkey, hfound⟩
  · rintro ⟨setting, hpart, hkey, hvalue⟩
    exact ⟨setting, hpart, value, hvalue, hkey, rfl⟩

/-- Every choice can be arranged on a sheet. -/
theorem Choice.arranged_sheet (choice : Choice) : choice.Arranged choice.sheet where
  front := rfl
  sections := (by decide : ["store", "refresh", "launch"].Nodup)
  known := by
    intro part hpart
    obtain ⟨name, hname, rfl⟩ := List.mem_map.mp hpart
    exact mem_sections_iff.mp hname
  keys := by
    intro part hpart
    obtain ⟨name, hname, rfl⟩ := List.mem_map.mp hpart
    have hnodup : ∀ name ∈ ["store", "refresh", "launch"], (partKeys name).Nodup := by decide
    exact (hnodup name hname).sublist (choice.keys_pairs name)
  has := by
    intro name key value
    constructor
    · rintro ⟨pairs, hpairs, hmem⟩
      obtain ⟨other, -, heq⟩ := List.mem_map.mp hpairs
      obtain ⟨rfl, rfl⟩ := Prod.mk.inj heq
      exact mem_pairs.mp hmem
    · rintro ⟨setting, rfl, hkey, hvalue⟩
      exact ⟨_, List.mem_map.mpr ⟨_, mem_sections_iff.mpr ⟨setting, rfl⟩, rfl⟩,
        mem_pairs.mpr ⟨setting, rfl, hkey, hvalue⟩⟩

/-- Every choice can be written, whatever its texts and numbers are. -/
theorem Choice.exists_text (choice : Choice) :
    ∃ sheet text, choice.Arranged sheet ∧ sheet.Writes text := by
  obtain ⟨text, hwrites⟩ := choice.sheet.exists_writes
  exact ⟨choice.sheet, text, choice.arranged_sheet, hwrites⟩

/-! ## Schemes -/

/-- The letters from `a` to `z`, small or large. -/
def IsLetter (c : Char) : Prop := ('a' ≤ c ∧ c ≤ 'z') ∨ ('A' ≤ c ∧ c ≤ 'Z')

/-- The texts that are schemes: a letter, and then letters, digits and these three marks. -/
def IsScheme (s : String) : Prop :=
  ∃ first rest, s.toList = first :: rest ∧ IsLetter first
    ∧ ∀ c ∈ rest, IsLetter c ∨ ('0' ≤ c ∧ c ≤ '9') ∨ c ∈ ['+', '-', '.']

theorem isAlpha_iff {c : Char} : c.isAlpha = true ↔ IsLetter c := by
  have hupper : c.isUpper = true ↔ 'A' ≤ c ∧ c ≤ 'Z' := decide_eq_true_iff
  have hlower : c.isLower = true ↔ 'a' ≤ c ∧ c ≤ 'z' :=
    Bool.and_eq_true_iff.trans (and_congr decide_eq_true_iff decide_eq_true_iff)
  have halpha : c.isAlpha = (c.isUpper || c.isLower) := rfl
  rw [halpha, Bool.or_eq_true, hupper, hlower, IsLetter, or_comm]

theorem isSchemeChar_iff {c : Char} :
    isSchemeChar c = true ↔ IsLetter c ∨ ('0' ≤ c ∧ c ≤ '9') ∨ c ∈ ['+', '-', '.'] := by
  simp only [isSchemeChar, Char.isAlphanum, Char.isDigit, Bool.or_eq_true, Bool.and_eq_true,
    decide_eq_true_eq, beq_iff_eq, isAlpha_iff, Char.le_def, List.mem_cons, List.not_mem_nil,
    or_false, or_assoc]

theorem isScheme_iff {s : String} : isScheme s = true ↔ IsScheme s := by
  rw [isScheme, IsScheme, Bool.and_eq_true, List.all_eq_true]
  cases s.toList with
  | nil => simp
  | cons c cs =>
    rw [List.head?_cons, Option.any_some, isAlpha_iff, List.forall_mem_cons, isSchemeChar_iff]
    simp only [isSchemeChar_iff]
    constructor
    · rintro ⟨hfirst, -, hrest⟩
      exact ⟨c, cs, rfl, hfirst, hrest⟩
    · rintro ⟨first, rest, heq, hfirst, hrest⟩
      obtain ⟨rfl, rfl⟩ := List.cons.inj heq
      exact ⟨hfirst, Or.inl hfirst, hrest⟩

/-! ## What a choice asks for -/

/-- Intervals that are counts of seconds within 63 bits, and a scheme that is one. -/
structure Choice.Acceptable (choice : Choice) : Prop where
  ownershipInterval : ∀ n ∈ choice.ownershipInterval, 0 ≤ n ∧ n < 2 ^ 63
  installationInterval : ∀ n ∈ choice.installationInterval, 0 ≤ n ∧ n < 2 ^ 63
  scheme : ∀ s ∈ choice.scheme, IsScheme s

/-- The configuration has the settings that are asked for, and the defaults of the others. -/
structure Choice.Gives (choice : Choice) (config : Config) : Prop where
  databasePath : config.databasePath = choice.databasePath
  ownershipInterval :
    (config.engineSettings.intervals.get .ownership).toInt = choice.ownershipInterval.getD 86400
  installationInterval : (config.engineSettings.intervals.get .installation).toInt
    = choice.installationInterval.getD 3600
  staleness : config.engineSettings.staleness = choice.staleness.getD .sticky
  scheme : config.engineSettings.scheme = choice.scheme.getD "itch"

/-- An interval in a configuration. -/
def interval? (missing : UInt64) : Option Int → Option UInt64
  | none => some missing
  | some n => (Scalar.int n).item?.bind seconds?

/-- What is read of a choice, whatever its scheme is. -/
def Choice.config? (choice : Choice) : Option Config := do
  let ownershipInterval ← interval? default.ownershipInterval choice.ownershipInterval
  let installationInterval ← interval? default.installationInterval choice.installationInterval
  return { databasePath := choice.databasePath, ownershipInterval, installationInterval,
           staleness := choice.staleness.getD default.staleness,
           scheme := choice.scheme.getD default.scheme }

theorem toNat_toUInt64 {n : Int64} (h : 0 ≤ n.toInt) : (n.toUInt64.toNat : Int) = n.toInt := by
  have hbits : n.toInt = n.toBitVec.toInt := rfl
  rw [hbits, BitVec.toInt_eq_toNat_cond] at h ⊢
  rw [← Int64.toNat_toBitVec]
  split_ifs at h ⊢
  · rfl
  · omega

/-- A number of seconds has to fit into 64 bits with a sign, and not to be negative. -/
theorem interval?_some_eq_some_iff {missing found : UInt64} {n : Int} :
    interval? missing (some n) = some found ↔ (0 ≤ n ∧ n < 2 ^ 63) ∧ (found.toNat : Int) = n := by
  have hlow : Int64.minValue.toInt = -2 ^ 63 := rfl
  have hhigh : Int64.maxValue.toInt = 2 ^ 63 - 1 := rfl
  rw [interval?, Scalar.item?, int64?, hlow, hhigh]
  split_ifs with hfits
  · have hvalue : (Int64.ofInt n).toInt = n := Int64.toInt_ofInt_of_le hfits.1 (by omega)
    have hsign : (0 : Int64) ≤ Int64.ofInt n ↔ 0 ≤ n := by
      rw [Int64.le_iff_toInt_le, hvalue, Int64.toInt_zero]
    rw [Option.map_some, Option.bind_some, seconds?, Option.ite_none_right_eq_some, hsign]
    constructor
    · rintro ⟨hnonneg, heq⟩
      rw [← Option.some.inj heq, toNat_toUInt64 (hvalue.symm ▸ hnonneg), hvalue]
      exact ⟨⟨hnonneg, by omega⟩, rfl⟩
    · rintro ⟨⟨hnonneg, -⟩, heq⟩
      refine ⟨hnonneg, congrArg some ?_⟩
      rw [← UInt64.toNat_inj, ← Int.ofNat_inj, heq, toNat_toUInt64 (hvalue.symm ▸ hnonneg), hvalue]
  · rw [Option.map_none, Option.bind_none]
    exact iff_of_false (by simp) fun h ↦ hfits ⟨by omega, by omega⟩

theorem exists_interval (missing : UInt64) {interval : Option Int}
    (h : ∀ n ∈ interval, 0 ≤ n ∧ n < 2 ^ 63) :
    ∃ found, interval? missing interval = some found := by
  cases interval with
  | none => exact ⟨missing, rfl⟩
  | some n =>
    obtain ⟨hnonneg, hsmall⟩ := h n rfl
    refine ⟨UInt64.ofNat n.toNat, interval?_some_eq_some_iff.mpr ⟨⟨hnonneg, hsmall⟩, ?_⟩⟩
    rw [UInt64.toNat_ofNat_of_lt' (by rw [UInt64.size]; omega)]
    omega

theorem bounds_of_interval? {missing found : UInt64} {interval : Option Int}
    (h : interval? missing interval = some found) : ∀ n ∈ interval, 0 ≤ n ∧ n < 2 ^ 63 := by
  rintro n hn
  obtain rfl : interval = some n := hn
  exact (interval?_some_eq_some_iff.mp h).1

/-- An interval of a choice is the one of the engine. -/
theorem toInt_interval {missing found : UInt64} {interval : Option Int}
    (h : interval? missing interval = some found) (hmissing : missing.toNat < 2 ^ 63) :
    (Int64.ofIntClamp found.toNat).toInt = interval.getD missing.toNat := by
  have hvalue : (found.toNat : Int) = interval.getD missing.toNat
      ∧ interval.getD missing.toNat < 2 ^ 63 := by
    cases interval with
    | none =>
      obtain rfl := Option.some.inj h
      refine ⟨rfl, ?_⟩
      rw [Option.getD_none]
      omega
    | some n =>
      obtain ⟨⟨-, hsmall⟩, heq⟩ := interval?_some_eq_some_iff.mp h
      exact ⟨heq, hsmall⟩
  have hlow : Int64.minValue.toInt = -2 ^ 63 := rfl
  have hhigh : Int64.maxValue.toInt = 2 ^ 63 - 1 := rfl
  rw [Int64.toInt_ofIntClamp (by omega) (by omega), hvalue.1]

theorem Choice.config?_eq_some_iff {choice : Choice} {config : Config} :
    choice.config? = some config
      ↔ interval? default.ownershipInterval choice.ownershipInterval = some config.ownershipInterval
        ∧ interval? default.installationInterval choice.installationInterval
          = some config.installationInterval
        ∧ choice.databasePath = config.databasePath
        ∧ choice.staleness.getD default.staleness = config.staleness
        ∧ choice.scheme.getD default.scheme = config.scheme := by
  obtain ⟨path, ownership, installation, staleness, scheme⟩ := config
  simp only [config?, Option.bind_eq_bind, Option.bind_eq_some_iff]
  constructor
  · rintro ⟨found, hfound, other, hother, heq⟩
    obtain ⟨rfl, rfl, rfl, rfl, rfl⟩ := Config.mk.inj (Option.some.inj heq)
    exact ⟨hfound, hother, rfl, rfl, rfl⟩
  · rintro ⟨hfound, hother, rfl, rfl, rfl⟩
    exact ⟨_, hfound, _, hother, rfl⟩

theorem Choice.gives_of_config? {choice : Choice} {config : Config}
    (h : choice.config? = some config) : choice.Gives config := by
  obtain ⟨hownership, hinstallation, hpath, hstaleness, hscheme⟩ :=
    Choice.config?_eq_some_iff.mp h
  exact ⟨hpath.symm, toInt_interval hownership (by decide),
    toInt_interval hinstallation (by decide), hstaleness.symm, hscheme.symm⟩

/-- A choice is acceptable just if it can be read and its scheme is one. -/
theorem Choice.acceptable_iff {choice : Choice} :
    choice.Acceptable ↔ ∃ config, choice.config? = some config ∧ isScheme config.scheme = true := by
  constructor
  · intro h
    obtain ⟨ownership, hownership⟩ := exists_interval default.ownershipInterval h.ownershipInterval
    obtain ⟨installation, hinstallation⟩ :=
      exists_interval default.installationInterval h.installationInterval
    refine ⟨⟨choice.databasePath, ownership, installation, _, _⟩,
      config?_eq_some_iff.mpr ⟨hownership, hinstallation, rfl, rfl, rfl⟩, ?_⟩
    cases hscheme : choice.scheme with
    | none => exact (by decide : isScheme default.scheme = true)
    | some s => exact isScheme_iff.mpr (h.scheme s hscheme)
  · rintro ⟨config, hconfig, hscheme⟩
    obtain ⟨hownership, hinstallation, -, -, hchosen⟩ := config?_eq_some_iff.mp hconfig
    refine ⟨bounds_of_interval? hownership, bounds_of_interval? hinstallation, fun s hs ↦ ?_⟩
    rw [← hchosen, Option.mem_def.mp hs, Option.getD_some] at hscheme
    exact isScheme_iff.mp hscheme

end GameBridge.Config
