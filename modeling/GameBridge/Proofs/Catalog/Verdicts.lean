import GameBridge.Proofs.Catalog.LastRows
import GameBridge.Proofs.Json.Members
import GameBridge.Proofs.Text.ByteOrder
import Mathlib.Data.List.Forall2
import Mathlib.Logic.Relation

/-!
# What a verdict says

A verdict names a folder and lists executables, and each of the two has to be there at most once.
`NamesFirst` and `NamesNone` say in terms of the values under the two names, whichever members stand
around them, what a verdict has to look like for an executable to be found, or for none to be
found. Every item of the list has to name an executable, although only the first of them is used.

These are the three things that can come of a text (`executableOf_of_writes`). Whatever leaves the
values under the names alone leaves the outcome alone too: the order of the members, members with
other names in the verdict or in an executable, and which path a later executable has (`Edit`).
-/

namespace GameBridge

open Json Document

/-! ## Joining paths -/

namespace Path

theorem isAbsolute_iff {path : Path} :
    path.isAbsolute = true ↔ ∃ rest : String, path = "/" ++ rest := by
  rw [isAbsolute, beq_iff_eq]
  constructor
  · intro h
    obtain ⟨rest, hrest⟩ := List.head?_eq_some_iff.mp h
    exact ⟨String.ofList rest, by simp [← String.toList_inj, hrest]⟩
  · rintro ⟨rest, rfl⟩
    rw [String.toList_append]
    rfl

theorem endsWithSeparator_iff {path : Path} :
    path.endsWithSeparator = true ↔ ∃ front : String, path = front ++ "/" := by
  rw [endsWithSeparator, beq_iff_eq]
  constructor
  · intro h
    obtain ⟨front, hfront⟩ := List.getLast?_eq_some_iff.mp h
    exact ⟨String.ofList front, by simp [← String.toList_inj, hfront]⟩
  · rintro ⟨front, rfl⟩
    rw [String.toList_append]
    exact List.getLast?_concat

/-- The path `joined` is `path` seen from `base`. -/
inductive Joins : Path → Path → Path → Prop
  /-- An absolute path stays what it is. -/
  | absolute (base rest : String) : Joins base ("/" ++ rest) ("/" ++ rest)
  /-- Nothing is put in front of a path that is seen from nowhere. -/
  | empty {path : Path} (h : ∀ rest : String, path ≠ "/" ++ rest) : Joins "" path path
  /-- A separator at the end of the base is not repeated. -/
  | ended (front : String) {path : Path} (h : ∀ rest : String, path ≠ "/" ++ rest) :
      Joins (front ++ "/") path (front ++ "/" ++ path)
  /-- Otherwise there is a separator between the two. -/
  | between {base path : Path} (h : ∀ rest : String, path ≠ "/" ++ rest) (hbase : base ≠ "")
      (hend : ∀ front : String, base ≠ front ++ "/") : Joins base path (base ++ "/" ++ path)

theorem joins_iff {base path joined : Path} : Joins base path joined ↔ base.join path = joined := by
  constructor
  · rintro (⟨base, rest⟩ | h | ⟨front, h⟩ | ⟨h, hbase, hend⟩)
    · rw [join, if_pos (isAbsolute_iff.mpr ⟨rest, rfl⟩)]
    · have hrel : ¬path.isAbsolute = true := fun habs ↦ (isAbsolute_iff.mp habs).elim h
      rw [join, if_neg hrel, if_pos (Or.inl rfl), String.empty_append]
    · have hrel : ¬path.isAbsolute = true := fun habs ↦ (isAbsolute_iff.mp habs).elim h
      rw [join, if_neg hrel, if_pos (Or.inr (endsWithSeparator_iff.mpr ⟨front, rfl⟩))]
    · have hrel : ¬path.isAbsolute = true := fun habs ↦ (isAbsolute_iff.mp habs).elim h
      rw [join, if_neg hrel, if_neg]
      rintro (hempty | hended)
      · exact hbase hempty
      · exact (endsWithSeparator_iff.mp hended).elim hend
  · rintro rfl
    rw [join]
    split_ifs with habs hplain
    · obtain ⟨rest, rfl⟩ := isAbsolute_iff.mp habs
      exact .absolute base rest
    · have hrel : ∀ rest : String, path ≠ "/" ++ rest := fun rest heq ↦
        habs (isAbsolute_iff.mpr ⟨rest, heq⟩)
      rcases hplain with rfl | hended
      · rw [String.empty_append]
        exact .empty hrel
      · obtain ⟨front, rfl⟩ := endsWithSeparator_iff.mp hended
        exact .ended front hrel
    · rw [not_or] at hplain
      exact .between (fun rest heq ↦ habs (isAbsolute_iff.mpr ⟨rest, heq⟩)) hplain.1
        fun front heq ↦ hplain.2 (endsWithSeparator_iff.mpr ⟨front, heq⟩)

end Path

namespace Verdict

/-! ## Executables -/

/-- A document names an executable. -/
inductive Names : Document → Path → Prop
  /-- An object with one value under `path`. -/
  | object {members : Members} {path : Path} (h : valuesOf "path" members = [.str (some path)]) :
      Names (.obj members) path
  /-- An array of one text. -/
  | array (path : Path) : Names (.arr [.str (some path)]) path

theorem names_obj_iff {members : Members} {path : Path} :
    Names (.obj members) path ↔ valuesOf "path" members = [.str (some path)] :=
  ⟨fun h ↦ by cases h; assumption, .object⟩

theorem candidate?_eq_some_iff {d : Document} {path : Path} (h : d.Textual) :
    candidate? d = some path ↔ Names d path := by
  cases d with
  | obj members =>
    have hfields := @Layout.fields?_obj_eq_some_iff candidateLayout rfl members h
    simp only [candidate?, Option.bind_eq_bind, Option.bind_eq_some_iff, hfields, names_obj_iff,
      valuesOf_eq_singleton_iff, text?_eq_some_iff]
    simp [candidateLayout]
  | arr items =>
    have harr : Names (.arr items) path ↔ items = [.str (some path)] :=
      ⟨fun h ↦ by cases h; rfl, fun h ↦ h ▸ .array path⟩
    rw [harr]
    rcases items with - | ⟨item, - | ⟨other, rest⟩⟩
    · simp [candidate?, candidateLayout, Layout.fields?]
    · simp [candidate?, candidateLayout, Layout.fields?, text?_eq_some_iff]
    · simp [candidate?, candidateLayout, Layout.fields?]
  | _ => exact iff_of_false (by simp [candidate?, Layout.fields?]) fun h ↦ by cases h

/-- All executables of a list are read just where each item names one. -/
theorem candidates?_arr_eq_some_iff {items : List Document} {paths : List Path}
    (h : ∀ item ∈ items, item.Textual) :
    candidates? (.arr items) = some paths ↔ List.Forall₂ Names items paths := by
  rw [candidates?]
  induction items generalizing paths with
  | nil => simp [eq_comm]
  | cons item rest ih =>
    obtain ⟨hitem, hrest⟩ := List.forall_mem_cons.mp h
    simp only [List.mapM_cons, Option.bind_eq_bind, Option.bind_eq_some_iff,
      candidate?_eq_some_iff hitem, ih hrest, List.forall₂_cons_left_iff]
    simp [eq_comm]

/-! ## Verdicts -/

/-- What is written under `candidates` lists executables. -/
inductive Lists : List Document → List Path → Prop
  /-- Nothing is written there. -/
  | absent : Lists [] []
  /-- There is no list. -/
  | null : Lists [.null] []
  /-- Every item of an array names an executable. -/
  | items {items : List Document} {paths : List Path} (h : List.Forall₂ Names items paths) :
      Lists [.arr items] paths

theorem lists_nil_iff {paths : List Path} : Lists [] paths ↔ paths = [] :=
  ⟨fun h ↦ by cases h; rfl, fun h ↦ h ▸ .absent⟩

theorem lists_null_iff {paths : List Path} : Lists [.null] paths ↔ paths = [] :=
  ⟨fun h ↦ by cases h; rfl, fun h ↦ h ▸ .null⟩

theorem lists_arr_iff {items : List Document} {paths : List Path} :
    Lists [.arr items] paths ↔ List.Forall₂ Names items paths :=
  ⟨fun h ↦ by cases h; assumption, .items⟩

/-- The list in a verdict, as it is looked up. -/
def listOf? : Option Document → Option (List Path)
  | none => some []
  | some .null => some []
  | some d => candidates? d

/-- A list is looked up just where there is one value for it, or none. -/
theorem lists_valuesOf_iff {members : Members} (h : Textual (.obj members)) {paths : List Path} :
    Lists (valuesOf "candidates" members) paths
      ↔ Layout.count "candidates" members ≤ 1
        ∧ listOf? (members.lookup (some "candidates")) = some paths := by
  have htext : ∀ d ∈ valuesOf "candidates" members, d.Textual := fun d hd ↦ h.of_mem_valuesOf hd
  rw [← length_valuesOf, ← head?_valuesOf]
  generalize valuesOf "candidates" members = values at htext
  rcases values with - | ⟨d, - | ⟨e, rest⟩⟩
  · simp [lists_nil_iff, listOf?, eq_comm]
  · cases d with
    | null => simp [lists_null_iff, listOf?, eq_comm]
    | arr items =>
      have hitems := (htext _ (List.mem_singleton_self _)).items
      simp [lists_arr_iff, listOf?, candidates?_arr_eq_some_iff hitems]
    | _ => exact iff_of_false (fun h ↦ by cases h) (by simp [listOf?, candidates?])
  · exact iff_of_false (fun h ↦ by cases h) (by simp)

theorem ofDocument?_eq (d : Document) : ofDocument? d
    = (layout.fields? d).bind fun field ↦ (field "basePath").bind fun base ↦
      base.text?.bind fun basePath ↦ (listOf? (field "candidates")).map (Verdict.mk basePath) := by
  rw [ofDocument?, Option.bind_eq_bind]
  refine Option.bind_congr fun field _ ↦ Option.bind_congr fun base _ ↦
    Option.bind_congr fun basePath _ ↦ ?_
  rcases field "candidates" with - | list
  · rfl
  · cases list <;> rfl

/-- A verdict is read just where there is one folder and one list of executables, if any. -/
theorem ofDocument?_obj_eq_some_iff {members : Members} (h : Textual (.obj members))
    {verdict : Verdict} : ofDocument? (.obj members) = some verdict
      ↔ valuesOf "basePath" members = [.str (some verdict.basePath)]
        ∧ Lists (valuesOf "candidates" members) verdict.candidates := by
  have hfields := @Layout.fields?_obj_eq_some_iff layout rfl members h
  obtain ⟨base, paths⟩ := verdict
  simp only [ofDocument?_eq, Option.bind_eq_some_iff, Option.map_eq_some_iff, hfields,
    valuesOf_eq_singleton_iff, lists_valuesOf_iff h, text?_eq_some_iff]
  simp only [layout, List.forall_mem_cons, List.not_mem_nil, false_imp_iff, implies_true, and_true,
    and_assoc, mk.injEq, true_and, existsAndEq]
  exact and_congr_right' and_left_comm

/-! ## The first executable -/

/-- Every item names an executable, and the first one names this one. -/
def FirstOf (items : List Document) (first : Path) : Prop :=
  (∀ item ∈ items, ∃ path, Names item path) ∧ ∃ head ∈ items.head?, Names head first

/-- Members name a folder once, and once a list whose first executable is the given one. -/
def NamesFirst (members : Members) (base first : Path) : Prop :=
  valuesOf "basePath" members = [.str (some base)]
    ∧ ∃ items, valuesOf "candidates" members = [.arr items] ∧ FirstOf items first

/-- Members name a folder once, and there are no executables. -/
def NamesNone (members : Members) : Prop :=
  (∃ base, valuesOf "basePath" members = [.str (some base)])
    ∧ (valuesOf "candidates" members = [] ∨ valuesOf "candidates" members = [.null]
      ∨ valuesOf "candidates" members = [.arr []])

theorem firstOf_iff {items : List Document} {first : Path} :
    FirstOf items first ↔ ∃ rest, List.Forall₂ Names items (first :: rest) := by
  have hall {items : List Document} :
      (∀ item ∈ items, ∃ path, Names item path) ↔ ∃ paths, List.Forall₂ Names items paths := by
    induction items with
    | nil => simp
    | cons item rest ih =>
      rw [List.forall_mem_cons, ih]
      simp only [List.forall₂_cons_left_iff]
      exact ⟨fun ⟨⟨path, hpath⟩, paths, hpaths⟩ ↦ ⟨_, path, paths, hpath, hpaths, rfl⟩,
        fun ⟨_, path, paths, hpath, hpaths, _⟩ ↦ ⟨⟨path, hpath⟩, paths, hpaths⟩⟩
  rw [FirstOf]
  rcases items with - | ⟨item, rest⟩
  · simp
  · simp only [List.forall_mem_cons, hall, List.head?_cons, Option.mem_def, Option.some.injEq,
      exists_eq_left', List.forall₂_cons]
    exact ⟨fun ⟨⟨_, paths, hpaths⟩, hfirst⟩ ↦ ⟨paths, hfirst, hpaths⟩,
      fun ⟨paths, hfirst, hpaths⟩ ↦ ⟨⟨⟨first, hfirst⟩, paths, hpaths⟩, hfirst⟩⟩

theorem lists_cons_iff {values : List Document} {first : Path} :
    (∃ rest, Lists values (first :: rest))
      ↔ ∃ items, values = [.arr items] ∧ FirstOf items first := by
  simp only [firstOf_iff]
  constructor
  · rintro ⟨rest, h⟩
    cases h with
    | items h => exact ⟨_, rfl, rest, h⟩
  · rintro ⟨items, rfl, rest, h⟩
    exact ⟨rest, .items h⟩

theorem lists_nil_right_iff {values : List Document} :
    Lists values [] ↔ values = [] ∨ values = [.null] ∨ values = [.arr []] := by
  constructor
  · rintro (_ | _ | h)
    · exact Or.inl rfl
    · exact Or.inr (Or.inl rfl)
    · cases h
      exact Or.inr (Or.inr rfl)
  · rintro (rfl | rfl | rfl)
    · exact .absent
    · exact .null
    · exact .items .nil

theorem read?_of_writes {d : Document} {text : String} (h : d.Writes text.toList) :
    read? text = ofDocument? d := by
  rw [read?, Text.bytes_eq_flatMap, Document.read?_of_writes h, Option.bind_some]

/-- An executable is found just where a folder and a first executable are named. -/
theorem executableOf_eq_ok_some_iff_of_writes {members : Members} {text : String}
    (h : (Document.obj members).Writes text.toList) {gameId : Int64} {path : Path} :
    executableOf gameId text = .ok (some path)
      ↔ ∃ base first, NamesFirst members base first ∧ base.join first = path := by
  have hread := @ofDocument?_obj_eq_some_iff members h.textual
  simp only [executableOf_eq_ok_some_iff, read?_of_writes h, Option.mem_def, hread]
  constructor
  · rintro ⟨⟨base, paths⟩, ⟨hbase, hlists⟩, first, hfirst, rfl⟩
    obtain ⟨rest, rfl⟩ := List.head?_eq_some_iff.mp hfirst
    exact ⟨base, first, ⟨hbase, lists_cons_iff.mp ⟨rest, hlists⟩⟩, rfl⟩
  · rintro ⟨base, first, ⟨hbase, hitems⟩, rfl⟩
    obtain ⟨rest, hlists⟩ := lists_cons_iff.mpr hitems
    exact ⟨⟨base, first :: rest⟩, ⟨hbase, hlists⟩, first, rfl, rfl⟩

/-- No executable is found just where a folder and no executables are named. -/
theorem executableOf_eq_ok_none_iff_of_writes {members : Members} {text : String}
    (h : (Document.obj members).Writes text.toList) {gameId : Int64} :
    executableOf gameId text = .ok none ↔ NamesNone members := by
  have hread := @ofDocument?_obj_eq_some_iff members h.textual
  have hnone : executableOf gameId text = .ok none
      ↔ ∃ base, ofDocument? (.obj members) = some ⟨base, []⟩ := by
    rw [executableOf, read?_of_writes h]
    rcases ofDocument? (.obj members) with - | ⟨base, - | ⟨first, rest⟩⟩ <;> simp [executable?]
  rw [hnone, NamesNone, ← lists_nil_right_iff]
  simp only [hread, exists_and_right]

/-- Where no executable can be looked for, the record is malformed. -/
theorem executableOf_eq_error_iff {gameId : Int64} {text : String} : executableOf gameId text
      = .error (.malformedRecord (Decimal.ofInt64 gameId) "invalid verdict JSON: ")
    ↔ ∀ executable, executableOf gameId text ≠ .ok executable := by
  rw [executableOf]
  cases read? text <;> simp

/-- Texts in which the same is found are understood in the same way. -/
theorem executableOf_congr {gameId : Int64} {text other : String}
    (h : ∀ executable, executableOf gameId text = .ok executable
      ↔ executableOf gameId other = .ok executable) :
    executableOf gameId other = executableOf gameId text := by
  by_cases hok : ∃ executable, executableOf gameId text = .ok executable
  · obtain ⟨executable, hexecutable⟩ := hok
    rw [hexecutable, (h executable).mp hexecutable]
  · rw [executableOf_eq_error_iff.mpr (not_exists.mp hok), executableOf_eq_error_iff]
    exact fun executable hother ↦ hok ⟨executable, (h executable).mpr hother⟩

/-! ## Verdicts that differ in what is not used -/

/-- Lists differ in members of an object that do not name an executable, or in a later item that
names one. -/
inductive ItemsEdit : List Document → List Document → Prop
  | members (before after : List Document) {members others : Members}
      (h : MembersEdit ["path"] members others) :
      ItemsEdit (before ++ .obj members :: after) (before ++ .obj others :: after)
  | later {before : List Document} (after : List Document) {item other : Document}
      {path path' : Path} (hbefore : before ≠ []) (hitem : Names item path)
      (hother : Names other path') : ItemsEdit (before ++ item :: after) (before ++ other :: after)

/-- Verdicts differ in their order, in members that have other names, or in the same way in the list
of executables. -/
inductive Edit : Members → Members → Prop
  | members {members others : Members} (h : MembersEdit ["basePath", "candidates"] members others) :
      Edit members others
  | items (before after : Members) {items others : List Document} (h : ItemsEdit items others) :
      Edit (before ++ (some "candidates", .arr items) :: after)
        (before ++ (some "candidates", .arr others) :: after)

/-- An item may be replaced by another one that names an executable as well, if the first item is
not replaced or the same executable is named. -/
theorem FirstOf.replace {before after : List Document} {item other : Document} {first : Path}
    (hany : (∃ path, Names item path) → ∃ path, Names other path)
    (hsame : before = [] → ∀ path, Names item path → Names other path)
    (h : FirstOf (before ++ item :: after) first) : FirstOf (before ++ other :: after) first := by
  obtain ⟨hall, head, hhead, hfirst⟩ := h
  rw [List.forall_mem_append, List.forall_mem_cons] at hall
  refine ⟨List.forall_mem_append.mpr
    ⟨hall.1, List.forall_mem_cons.mpr ⟨hany hall.2.1, hall.2.2⟩⟩, ?_⟩
  rcases before with - | ⟨start, rest⟩
  · obtain rfl := Option.some.inj hhead
    exact ⟨other, rfl, hsame rfl first hfirst⟩
  · exact ⟨head, hhead, hfirst⟩

theorem ItemsEdit.firstOf_iff {items others : List Document} (h : ItemsEdit items others)
    {first : Path} : FirstOf items first ↔ FirstOf others first := by
  cases h with
  | @members before after members others h =>
    have hnames : ∀ path, Names (.obj members) path ↔ Names (.obj others) path := fun path ↦ by
      rw [names_obj_iff, names_obj_iff, h.eq_singleton_iff (List.mem_singleton_self _)]
    exact ⟨.replace (Exists.imp fun path ↦ (hnames path).mp) fun _ path ↦ (hnames path).mp,
      .replace (Exists.imp fun path ↦ (hnames path).mpr) fun _ path ↦ (hnames path).mpr⟩
  | later after hbefore hitem hother =>
    exact ⟨.replace (fun _ ↦ ⟨_, hother⟩) fun hnil ↦ absurd hnil hbefore,
      .replace (fun _ ↦ ⟨_, hitem⟩) fun hnil ↦ absurd hnil hbefore⟩

theorem ItemsEdit.ne_nil {items others : List Document} (h : ItemsEdit items others) :
    items ≠ [] ∧ others ≠ [] := by
  cases h <;> simp

theorem valuesOf_candidates_eq_singleton_iff {before after : Members} {items : List Document}
    {value : Document} :
    valuesOf "candidates" (before ++ (some "candidates", .arr items) :: after) = [value]
      ↔ valuesOf "candidates" before = [] ∧ valuesOf "candidates" after = []
        ∧ value = .arr items := by
  rw [valuesOf_append, valuesOf_cons_self, List.append_eq_singleton_iff]
  simp only [List.cons.injEq, reduceCtorEq, and_false, or_false]
  exact and_congr_right' (and_comm.trans (and_congr_right' eq_comm))

theorem Edit.names_iff {members others : Members} (h : Edit members others) :
    (∀ base first, NamesFirst members base first ↔ NamesFirst others base first)
      ∧ (NamesNone members ↔ NamesNone others) := by
  cases h with
  | members h =>
    have hbase {value : Document} : valuesOf "basePath" members = [value]
        ↔ valuesOf "basePath" others = [value] := h.eq_singleton_iff (by decide)
    have hlist {value : Document} : valuesOf "candidates" members = [value]
        ↔ valuesOf "candidates" others = [value] := h.eq_singleton_iff (by decide)
    have hnil : valuesOf "candidates" members = [] ↔ valuesOf "candidates" others = [] :=
      h.eq_nil_iff (by decide)
    simp only [NamesFirst, NamesNone, hbase, hlist, hnil, implies_true, and_self]
  | items before after h =>
    have hbase (items : List Document) :
        valuesOf "basePath" (before ++ (some "candidates", .arr items) :: after)
          = valuesOf "basePath" (before ++ after) := by
      rw [valuesOf_append, valuesOf_cons_of_ne (by decide), valuesOf_append]
    have hnil (items : List Document) :
        valuesOf "candidates" (before ++ (some "candidates", .arr items) :: after) ≠ [] := by
      simp
    obtain ⟨hitems, hothers⟩ := h.ne_nil
    constructor
    · intro base first
      simp only [NamesFirst, hbase, valuesOf_candidates_eq_singleton_iff, Document.arr.injEq]
      simp [h.firstOf_iff]
    · -- there is something in both lists
      simp only [NamesNone, hbase, hnil, valuesOf_candidates_eq_singleton_iff]
      simp [hitems.symm, hothers.symm]

theorem names_iff_of_eqvGen {members others : Members} (h : Relation.EqvGen Edit members others) :
    (∀ base first, NamesFirst members base first ↔ NamesFirst others base first)
      ∧ (NamesNone members ↔ NamesNone others) := by
  induction h with
  | rel _ _ h => exact h.names_iff
  | refl _ => exact ⟨fun _ _ ↦ .rfl, .rfl⟩
  | symm _ _ _ ih => exact ⟨fun base first ↦ (ih.1 base first).symm, ih.2.symm⟩
  | trans _ _ _ _ _ ih ih' =>
    exact ⟨fun base first ↦ (ih.1 base first).trans (ih'.1 base first), ih.2.trans ih'.2⟩

/-- **Verdicts.** Let a text write an object, with any white space and any escapes. An executable is
found in it just if it names a folder and a list of executables that is not empty, and it is the
first of the list as it is seen from the folder. None is found just if it names a folder and no
executables, and everything else is malformed. Any text that writes a verdict which differs in the
order of its members, in members with other names or in the later executables of the list is
understood in the same way. -/
theorem executableOf_of_writes {members : Members} {text : String}
    (h : (Document.obj members).Writes text.toList) (gameId : Int64) :
    (∀ path, executableOf gameId text = .ok (some path)
        ↔ ∃ base first, NamesFirst members base first ∧ Path.Joins base first path)
      ∧ (executableOf gameId text = .ok none ↔ NamesNone members)
      ∧ (executableOf gameId text
            = .error (.malformedRecord (Decimal.ofInt64 gameId) "invalid verdict JSON: ")
          ↔ ¬(∃ base first, NamesFirst members base first) ∧ ¬NamesNone members)
      ∧ ∀ others other, Relation.EqvGen Edit members others →
          (Document.obj others).Writes other.toList →
          executableOf gameId other = executableOf gameId text := by
  have hsome {path : Path} := @executableOf_eq_ok_some_iff_of_writes members text h gameId path
  have hnone := @executableOf_eq_ok_none_iff_of_writes members text h gameId
  refine ⟨fun path ↦ ?_, hnone, ?_, fun others other hedit hother ↦ executableOf_congr ?_⟩
  · simp only [hsome, Path.joins_iff]
  · have hnofirst : (∀ path, executableOf gameId text ≠ .ok (some path))
        ↔ ¬∃ base first, NamesFirst members base first := by
      simp only [ne_eq, hsome, not_exists, not_and]
      exact ⟨fun hpath base first hfirst ↦ hpath _ base first hfirst rfl,
        fun hfirst _ base first hnames _ ↦ hfirst base first hnames⟩
    rw [executableOf_eq_error_iff, Option.forall, hnofirst, ne_eq, hnone, and_comm]
  · obtain ⟨hfirst, hempty⟩ := names_iff_of_eqvGen hedit
    rintro (- | path)
    · rw [hnone, hempty, executableOf_eq_ok_none_iff_of_writes hother]
    · simp only [hsome, hfirst, executableOf_eq_ok_some_iff_of_writes hother]

/-- A verdict with white space, an escape, and a member that nobody asks for, and one in another
order with none of these and with another second executable. -/
theorem executableOf_of_writes_two :
    let executable : Document := .obj [(some "path", .str (some "a"))]
    let members : Members := [(some "candidates", .arr [executable, .arr [.str (some "b")]]),
      (some "y", .null), (some "basePath", .str (some "/g"))]
    let others : Members := [(some "basePath", .str (some "/g")),
      (some "candidates", .arr [executable, .arr [.str (some "c")]])]
    let text := " \x7b\"candidates\":[\x7b\"path\":\"\\u0061\"\x7d,[\"b\"]],"
      ++ "\"y\":null,\"basePath\":\"/g\"\x7d"
    let other := "\x7b\"basePath\":\"/g\",\"candidates\":[\x7b\"path\":\"a\"\x7d,[\"c\"]]\x7d"
    (Document.obj members).Writes text.toList ∧ (Document.obj others).Writes other.toList
      ∧ Relation.EqvGen Edit members others
      ∧ executableOf 7 text = .ok (some "/g/a") ∧ executableOf 7 other = .ok (some "/g/a") := by
  intro executable members others text other
  have hescaped : Token.Spelling (.str (some "a")) ('"' :: "\\u0061".toList ++ ['"']) := by
    have hcode : CodeSpelling 'a'.toNat ['0', '0', '6', '1'] := .small 0 0 6 1
    have hcontent : ContentSpelling ('a' :: []) ('\\' :: 'u' :: ['0', '0', '6', '1'] ++ []) :=
      .cons (.code hcode) .nil
    exact .str hcontent
  have hpath := Token.Spelling.plain "path" (by decide)
  have hbase := Token.Spelling.plain "basePath" (by decide)
  have hfolder := Token.Spelling.plain "/g" (by decide)
  have hlist := Token.Spelling.plain "candidates" (by decide)
  have hwrites : (Document.obj members).Writes text.toList := by
    dsimp only [text]
    exact .space (by decide) (.cons .openObject (.cons hlist (.cons .colon (.cons .openArray
      (.cons .openObject (.cons hpath (.cons .colon (.cons hescaped (.cons .closeObject
        (.cons .comma (.cons .openArray (.cons (.plain "b" (by decide))
          (.cons .closeArray (.cons .closeArray (.cons .comma
            (.cons (.plain "y" (by decide)) (.cons .colon (.cons .null (.cons .comma
              (.cons hbase (.cons .colon (.cons hfolder
                (.cons .closeObject .nil)))))))))))))))))))))))
  have hothers : (Document.obj others).Writes other.toList := by
    dsimp only [other]
    exact .cons .openObject (.cons hbase (.cons .colon (.cons hfolder (.cons .comma (.cons hlist
      (.cons .colon (.cons .openArray (.cons .openObject (.cons hpath (.cons .colon
        (.cons (.plain "a" (by decide)) (.cons .closeObject (.cons .comma
          (.cons .openArray (.cons (.plain "c" (by decide)) (.cons .closeArray
            (.cons .closeArray (.cons .closeObject .nil))))))))))))))))))
  -- the second executable is replaced, a member is added, and the members are put in another order
  have hlater : Edit members [(some "candidates", .arr [executable, .arr [.str (some "c")]]),
      (some "y", .null), (some "basePath", .str (some "/g"))] :=
    .items [] _ (.later [] (List.cons_ne_nil executable []) (.array "b") (.array "c"))
  have hadded : Edit [(some "candidates", .arr [executable, .arr [.str (some "c")]]),
        (some "basePath", .str (some "/g"))]
      [(some "candidates", .arr [executable, .arr [.str (some "c")]]), (some "y", .null),
        (some "basePath", .str (some "/g"))] :=
    .members (.added [_] [_] (by decide) .null)
  have hreordered : Edit others [(some "candidates", .arr [executable, .arr [.str (some "c")]]),
      (some "basePath", .str (some "/g"))] := .members (.reordered (.swap _ _ []))
  have hedit : Relation.EqvGen Edit members others :=
    .trans _ _ _ (.rel _ _ hlater) (.trans _ _ _ (.symm _ _ (.rel _ _ hadded))
      (.symm _ _ (.rel _ _ hreordered)))
  have hfirst : NamesFirst members "/g" "a" := by
    have hone : Names executable "a" := .object rfl
    refine ⟨rfl, [executable, .arr [.str (some "b")]], rfl, ?_, executable, rfl, hone⟩
    exact List.forall_mem_cons.mpr ⟨⟨_, hone⟩, List.forall_mem_singleton.mpr ⟨_, .array "b"⟩⟩
  have hjoins : Path.Joins "/g" "a" "/g/a" := Path.joins_iff.mpr (by decide)
  obtain ⟨hsome, -, -, hsame⟩ := executableOf_of_writes hwrites 7
  have hfound := (hsome "/g/a").mpr ⟨"/g", "a", hfirst, hjoins⟩
  exact ⟨hwrites, hothers, hedit, hfound, (hsame others other hedit hothers).trans hfound⟩

end Verdict

end GameBridge
