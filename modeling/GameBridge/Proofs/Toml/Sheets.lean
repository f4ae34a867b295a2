import GameBridge.Proofs.Toml.Spelling
import GameBridge.Toml.Document
import Mathlib.Data.List.Nodup
import Mathlib.Data.List.TakeWhile

/-!
# Sheets

A sheet is a document with pairs of keys and values in front and then in sections, of which each has
a header. `Sheet.Writes` says which texts a sheet has: every pair and every header stands on a line
of its own, with any blanks between its parts, any remark after them, and any lines in between that
are blank or hold just a remark. Only the last line may end with the text.

What a sheet means can be told without going through its lines (`Sheet.index?`): the table of its
pairs in front and of one table for each section, if no key is used twice in one of these tables and
all the integers fit. This is what is read of each of its texts (`Sheet.read?_of_writes`).
-/

namespace GameBridge.Toml

/-! ## Lines -/

/-- What stands on a line of a sheet. -/
inductive Line where
  /-- The header of a section. -/
  | header (name : String)
  /-- A key and its value. -/
  | pair (key : String) (value : Scalar)

/-- How the content of a line is written. -/
inductive Line.Spelling : Line → List Char → Prop
  | header {name : String} {front cs back : List Char} (hfront : Blanks front)
      (hname : KeySpelling name cs) (hback : Blanks back) :
      Spelling (.header name) ('[' :: (front ++ (cs ++ (back ++ [']']))))
  | pair {key : String} {value : Scalar} {cs back front vs : List Char} (hkey : KeySpelling key cs)
      (hback : Blanks back) (hfront : Blanks front) (hvalue : value.Spelling vs) :
      Spelling (.pair key value) (cs ++ (back ++ '=' :: (front ++ vs)))

/-- A remark, or none. -/
inductive Remark : List Char → Prop
  | none : Remark []
  | some {cs : List Char} (h : ∀ c ∈ cs, isPrintable c = true) : Remark ('#' :: cs)

/-- How a line is written, be there anything on it or not. -/
inductive LineSpelling : Option Line → List Char → Prop
  | blank {back remark : List Char} (hback : Blanks back) (hremark : Remark remark) :
      LineSpelling none (back ++ remark)
  | content {line : Line} {front body back remark : List Char} (hfront : Blanks front)
      (hbody : line.Spelling body) (hback : Blanks back) (hremark : Remark remark) :
      LineSpelling (some line) (front ++ (body ++ (back ++ remark)))

/-- The ends of lines. -/
def breaks : List (List Char) := [['\n'], ['\r', '\n']]

/-- How lines are written one after the other. -/
inductive LinesSpelling : List Line → List Char → Prop
  | last {line : Option Line} {cs : List Char} (hline : LineSpelling line cs) :
      LinesSpelling line.toList cs
  | cons {line : Option Line} {lines : List Line} {cs stop rest : List Char}
      (hline : LineSpelling line cs) (hstop : stop ∈ breaks) (hrest : LinesSpelling lines rest) :
      LinesSpelling (line.toList ++ lines) (cs ++ (stop ++ rest))

/-- A header of which the name is written as it is. -/
theorem LineSpelling.bareHeader {name : String} (hne : name.toList ≠ [])
    (h : name.toList.Forall (isKeyChar · = true)) :
    LineSpelling (some (.header name)) ('[' :: (name.toList ++ [']'])) := by
  have hline := LineSpelling.content blanks_nil (.header blanks_nil
    (.bare hne (List.forall_iff_forall_mem.mp h)) blanks_nil) blanks_nil .none
  simpa using hline

/-- A pair of which the key is written as it is, with spaces around the equals sign. -/
theorem LineSpelling.barePair {key : String} {value : Scalar} {vs : List Char}
    (hne : key.toList ≠ []) (h : key.toList.Forall (isKeyChar · = true))
    (hvalue : value.Spelling vs) :
    LineSpelling (some (.pair key value)) (key.toList ++ ([' '] ++ '=' :: ([' '] ++ vs))) := by
  have hspace : Blanks [' '] := by simp [Blanks, isBlank]
  have hline := LineSpelling.content blanks_nil (.pair
    (.bare hne (List.forall_iff_forall_mem.mp h)) hspace hspace hvalue) blanks_nil .none
  simpa using hline

/-! ## Sheets -/

/-- Pairs of keys and values, in front and in sections. -/
structure Sheet where
  /-- The pairs before the first header. -/
  front : List (String × Scalar)
  /-- The names of the sections with their pairs. -/
  sections : List (String × List (String × Scalar))

namespace Sheet

/-- The lines of pairs. -/
def pairLines (pairs : List (String × Scalar)) : List Line :=
  pairs.map fun pair ↦ .pair pair.1 pair.2

/-- The lines of a section. -/
def sectionLines (part : String × List (String × Scalar)) : List Line :=
  .header part.1 :: pairLines part.2

/-- The lines of a sheet. -/
def lines (sheet : Sheet) : List Line :=
  pairLines sheet.front ++ sheet.sections.flatMap sectionLines

/-- The texts of a sheet. -/
def Writes (sheet : Sheet) (text : String) : Prop := LinesSpelling sheet.lines text.toList

/-- A sheet has a value under a key of a section. -/
def Has (sheet : Sheet) (name key : String) (value : Scalar) : Prop :=
  ∃ pairs, (name, pairs) ∈ sheet.sections ∧ (key, value) ∈ pairs

/-! ## The meaning of a sheet -/

/-- Reads the values of entries, and keeps their keys. -/
def mapValues? {α β : Type} (read : α → Option β) (entries : List (String × α)) :
    Option (List (String × β)) :=
  entries.mapM fun entry ↦ (read entry.2).map (entry.1, ·)

/-- Files items under keys, if these are new. -/
def fileNew? (index : Index Item) (items : List (String × Item)) : Option (Index Item) :=
  if (items.map Prod.fst).Nodup ∧ ∀ item ∈ items, (index.get? item.1).isNone = true then
    some (index.insertAll items)
  else none

/-- The table of a section. -/
def table? (pairs : List (String × Scalar)) : Option Item :=
  ((mapValues? Scalar.item? pairs).bind (fileNew? .empty)).map fun index ↦
    .table .header index.entries

/-- The table of a sheet. -/
def index? (sheet : Sheet) : Option (Index Item) := do
  let front ← mapValues? Scalar.item? sheet.front
  let tables ← mapValues? table? sheet.sections
  fileNew? .empty (front ++ tables)

end Sheet

/-! ## Reading lines -/

theorem exists_mem_break {stop : List Char} (h : stop ∈ breaks) :
    ∃ c ∈ stop, isBlank c = false := by
  simp only [breaks, List.mem_cons, List.not_mem_nil, or_false] at h
  rcases h with rfl | rfl
  · exact ⟨'\n', List.mem_cons_self, rfl⟩
  · exact ⟨'\r', List.mem_cons_self, rfl⟩

/-- What may come after a line, and what is left after that. -/
def Stops (stop rest : List Char) : Prop :=
  stop = [] ∧ rest = [] ∨ ∃ mark ∈ breaks, stop = mark ++ rest

theorem Stops.lineEnd? {stop rest : List Char} (h : Stops stop rest) :
    lineEnd? stop = some rest := by
  obtain ⟨rfl, rfl⟩ | ⟨mark, hmark, rfl⟩ := h
  · rfl
  · simp only [breaks, List.mem_cons, List.not_mem_nil, or_false] at hmark
    rcases hmark with rfl | rfl <;> rfl

theorem Stops.head {stop rest : List Char} (h : Stops stop rest) {p : Char → Prop}
    (hmarks : ['\n', '\r'].Forall p) : ∀ c ∈ stop.head?, p c := by
  obtain ⟨hfeed, hreturn⟩ := hmarks
  obtain ⟨rfl, rfl⟩ | ⟨mark, hmark, rfl⟩ := h
  · simp
  · simp only [breaks, List.mem_cons, List.not_mem_nil, or_false] at hmark
    rcases hmark with rfl | rfl
    · rintro c ⟨⟩
      exact hfeed
    · rintro c ⟨⟩
      exact hreturn

/-- The rest of a line starts with the mark of a remark, or with the end of the line. -/
theorem head_remark {remark stop rest : List Char} (hremark : Remark remark)
    (hstop : Stops stop rest) {p : Char → Prop} (hmarks : ['#', '\n', '\r'].Forall p) :
    ∀ c ∈ (remark ++ stop).head?, p c := by
  obtain ⟨hmark, hmarks⟩ := hmarks
  cases hremark with
  | none => exact hstop.head hmarks
  | some hprint =>
    rintro c ⟨⟩
    exact hmark

theorem skipBlanks_remark {back remark stop rest : List Char} (hback : Blanks back)
    (hremark : Remark remark) (hstop : Stops stop rest) :
    skipBlanks (back ++ (remark ++ stop)) = remark ++ stop :=
  skipBlanks_append hback (head_remark hremark hstop (by decide))

theorem finishLine?_rest {back remark stop rest : List Char} (hback : Blanks back)
    (hremark : Remark remark) (hstop : Stops stop rest) :
    finishLine? (back ++ (remark ++ stop)) = some rest := by
  have hcomment : skipComment (remark ++ stop) = stop := by
    cases hremark with
    | none =>
      rw [List.nil_append, skipComment]
      rintro more rfl
      exact hstop.head (by decide : ['\n', '\r'].Forall (· ≠ '#')) '#' rfl rfl
    | some hprint =>
      exact dropWhile_run hprint (hstop.head (by decide))
  rw [finishLine?, skipBlanks_remark hback hremark hstop, hcomment, hstop.lineEnd?]

theorem ended_rest {back remark stop rest : List Char} (hback : Blanks back)
    (hremark : Remark remark) (hstop : Stops stop rest) : Ended (back ++ (remark ++ stop)) :=
  Ended.append hback (head_remark hremark hstop (by decide))

/-- The statement on a line. -/
def Line.statement? : Line → Option Statement
  | header name => some (.table [name])
  | pair key value => value.item?.map (.pair [key])

section Lines

variable {tail rest : List Char}

theorem line?_header {name : String} {front cs back : List Char} (hfront : Blanks front)
    (hname : KeySpelling name cs) (hback : Blanks back) (htail : finishLine? tail = some rest)
    (fuel : Nat) :
    line? fuel ('[' :: (front ++ (cs ++ (back ++ ']' :: tail))))
      = some (some (.table [name]), rest) := by
  have hkey : key? (front ++ (cs ++ (back ++ ']' :: tail))) = some ([name], ']' :: tail) :=
    key?_of_spelling hfront hname hback (by rintro c ⟨⟩; decide) (by rintro c ⟨⟩; decide)
  -- there is no second bracket, so this is no header of a further table
  have hbracket : ∀ more, front ++ (cs ++ (back ++ ']' :: tail)) ≠ '[' :: more := by
    have hhead : ∀ c ∈ (front ++ (cs ++ (back ++ ']' :: tail))).head?, c ≠ '[' := by
      apply head_append
      · rintro c hc rfl
        exact absurd (hfront _ hc) (by decide)
      · obtain ⟨c, more, rfl, hstart⟩ := hname.exists_cons
        rintro d ⟨⟩ rfl
        exact absurd hstart (by decide)
    intro more heq
    exact hhead '[' (by rw [heq]; rfl) rfl
  rw [line?]
  · simp [hkey, expect?, htail]
  · exact hbracket

theorem line?_pair {key : String} {value : Scalar} {cs back front vs : List Char}
    (hkey : KeySpelling key cs) (hback : Blanks back) (hfront : Blanks front)
    (hvalue : value.Spelling vs) (hended : Ended tail) (htail : finishLine? tail = some rest)
    (fuel : Nat) :
    line? fuel (cs ++ (back ++ '=' :: (front ++ (vs ++ tail))))
      = value.item?.map fun item ↦ (some (.pair [key] item), rest) := by
  have hread : key? (cs ++ (back ++ '=' :: (front ++ (vs ++ tail))))
      = some ([key], '=' :: (front ++ (vs ++ tail))) :=
    key?_of_spelling blanks_nil hkey hback (by rintro c ⟨⟩; decide) (by rintro c ⟨⟩; decide)
  have hskip : skipBlanks (front ++ (vs ++ tail)) = vs ++ tail := by
    obtain ⟨c, more, rfl, hblank, -⟩ := Scalar.exists_cons_of_spelling hvalue
    apply skipBlanks_append hfront
    rintro d ⟨⟩
    exact hblank
  have hpair : pair? (value? fuel maxDepth) (cs ++ (back ++ '=' :: (front ++ (vs ++ tail))))
      = value.item?.map fun item ↦ (([key], item), tail) := by
    simp only [pair?, hread, Option.bind_eq_bind, Option.bind_some, expect?, if_true, hskip,
      value?_of_spelling hvalue hended]
    cases value.item? <;> rfl
  obtain ⟨c, more, rfl, hstart⟩ := hkey.exists_cons
  have hnone : ∀ d ∈ ['[', '#', '\n', '\r'], isKeyStart d = false :=
    List.forall_iff_forall_mem.mp (by decide)
  have hne : ∀ d ∈ ['[', '#', '\n', '\r'], c ≠ d := by
    rintro d hd rfl
    exact absurd hstart (by simp [hnone c hd])
  rw [List.cons_append] at hpair ⊢
  rw [line?]
  · simp only [hpair]
    cases value.item? with
    | none => rfl
    | some item => simp [htail]
  all_goals exact fun _ heq ↦ hne _ (by decide) (List.cons.inj heq).1

/-- **Lines** are read from each of their spellings, after the blanks in front. -/
theorem line?_of_spelling {line : Line} {body back remark stop : List Char}
    (hbody : line.Spelling body) (hback : Blanks back) (hremark : Remark remark)
    (hstop : Stops stop rest) (fuel : Nat) :
    line? fuel (body ++ (back ++ (remark ++ stop)))
      = line.statement?.map fun statement ↦ (some statement, rest) := by
  have htail := finishLine?_rest hback hremark hstop
  cases hbody with
  | header hfront hname hback =>
    rw [List.cons_append, List.append_assoc, List.append_assoc, List.append_assoc]
    exact line?_header hfront hname hback htail fuel
  | pair hkey hback' hfront hvalue =>
    rw [List.append_assoc, List.append_assoc, List.cons_append, List.append_assoc,
      line?_pair hkey hback' hfront hvalue (ended_rest hback hremark hstop) htail,
      Line.statement?, Option.map_map]
    rfl

theorem line?_remark {remark stop : List Char} (hremark : Remark remark) (hstop : Stops stop rest)
    (hne : remark ++ stop ≠ []) (fuel : Nat) :
    line? fuel (remark ++ stop) = some (none, rest) := by
  have htail : finishLine? (remark ++ stop) = some rest :=
    finishLine?_rest blanks_nil hremark hstop
  cases hremark with
  | some hprint =>
    rw [List.cons_append] at htail ⊢
    rw [line?, htail]
    rfl
  | none =>
    obtain ⟨rfl, rfl⟩ | ⟨mark, hmark, rfl⟩ := hstop
    · exact absurd rfl hne
    · simp only [breaks, List.mem_cons, List.not_mem_nil, or_false] at hmark
      rcases hmark with rfl | rfl <;> rfl

theorem Line.Spelling.exists_cons {line : Line} {body : List Char} (h : line.Spelling body) :
    ∃ c more, body = c :: more ∧ isBlank c = false ∧ c ≠ '\ufeff' := by
  cases h with
  | header hfront hname hback => exact ⟨_, _, rfl, by decide⟩
  | pair hkey hback hfront hvalue =>
    obtain ⟨c, cs, rfl, hstart⟩ := hkey.exists_cons
    refine ⟨c, _, rfl, isBlank_of_isKeyStart hstart, ?_⟩
    rintro rfl
    exact absurd hstart (by decide)

theorem lines?_succ {cs content : List Char} (hskip : skipBlanks cs = content) (hne : content ≠ [])
    (fuel : Nat) :
    lines? (fuel + 1) cs = (line? (fuel + 1) content).bind fun read ↦
      (lines? fuel read.2).map (read.1.toList ++ ·) := by
  obtain ⟨c, more, rfl⟩ := List.exists_cons_of_ne_nil hne
  rw [lines?, hskip]
  simp only [Option.bind_eq_bind]
  exact congrArg _ (funext fun read ↦ by cases lines? fuel read.2 <;> rfl)

/-- The lines of a text are read from the first one on. -/
theorem lines?_of_line {line : Option Line} {cs stop : List Char} (hline : LineSpelling line cs)
    (hstop : Stops stop rest) (hne : skipBlanks (cs ++ stop) ≠ []) (fuel : Nat) :
    lines? (fuel + 1) (cs ++ stop) = (line.toList.mapM Line.statement?).bind fun first ↦
      (lines? fuel rest).map (first ++ ·) := by
  cases hline with
  | blank hback hremark =>
    rw [List.append_assoc] at hne ⊢
    have hskip := skipBlanks_remark hback hremark hstop
    rw [hskip] at hne
    rw [lines?_succ hskip hne, line?_remark hremark hstop hne]
    rfl
  | @content line front body back remark hfront hbody hback hremark =>
    rw [List.append_assoc, List.append_assoc, List.append_assoc] at hne ⊢
    have hskip : skipBlanks (front ++ (body ++ (back ++ (remark ++ stop))))
        = body ++ (back ++ (remark ++ stop)) := by
      obtain ⟨c, more, rfl, hblank, -⟩ := hbody.exists_cons
      apply skipBlanks_append hfront
      rintro d ⟨⟩
      exact hblank
    rw [hskip] at hne
    rw [lines?_succ hskip hne, line?_of_spelling hbody hback hremark hstop]
    cases hstatement : line.statement? <;> simp [hstatement]

/-- A line of which nothing is left after its blanks has no content. -/
theorem LineSpelling.eq_none {line : Option Line} {cs : List Char} (h : LineSpelling line cs)
    (hskip : skipBlanks cs = []) : line = none := by
  cases h with
  | blank hback hremark => rfl
  | content hfront hbody hback hremark =>
    obtain ⟨c, more, rfl, hblank, -⟩ := hbody.exists_cons
    rw [skipBlanks, List.dropWhile_eq_nil_iff] at hskip
    have hc := hskip c (by simp)
    rw [hblank] at hc
    exact absurd hc (by decide)

end Lines

/-- **Texts** of lines are read as their statements. -/
theorem lines?_of_spelling {lines : List Line} {cs : List Char} (h : LinesSpelling lines cs)
    {fuel : Nat} (hfuel : cs.length ≤ fuel) :
    lines? (fuel + 1) cs = lines.mapM Line.statement? := by
  induction h generalizing fuel with
  | @last line cs hline =>
    by_cases hskip : skipBlanks cs = []
    · rw [hline.eq_none hskip, lines?, hskip]
      rfl
    · have hread := lines?_of_line hline (Or.inl ⟨rfl, rfl⟩) (by rwa [List.append_nil]) fuel
      have hne : cs ≠ [] := fun hnil ↦ hskip (by rw [hnil]; rfl)
      obtain ⟨k, rfl⟩ := Nat.exists_eq_add_of_lt (List.length_pos_iff.mpr hne |>.trans_le hfuel)
      rw [List.append_nil] at hread
      rw [hread, Nat.zero_add, lines?]
      simp [skipBlanks]
  | @cons line lines cs stop rest hline hstop hrest ih =>
    obtain ⟨c, hc, hblank⟩ := exists_mem_break hstop
    have hskip : skipBlanks (cs ++ (stop ++ rest)) ≠ [] := by
      rw [skipBlanks, ne_eq, List.dropWhile_eq_nil_iff]
      intro hall
      have hall := hall c (by simp [hc])
      rw [hblank] at hall
      exact absurd hall (by decide)
    -- the end of the line leaves enough for the lines after it
    have hlength : 0 < stop.length := List.length_pos_of_mem hc
    rw [List.length_append, List.length_append] at hfuel
    obtain ⟨k, rfl⟩ := Nat.exists_eq_add_of_lt (by omega : 0 < fuel)
    rw [lines?_of_line hline (Or.inr ⟨stop, hstop, rfl⟩) hskip, Nat.zero_add, ih (by omega),
      List.mapM_append]
    cases line.toList.mapM Line.statement? with
    | none => rfl
    | some first => cases lines.mapM Line.statement? <;> rfl

theorem LineSpelling.head_append {line : Option Line} {cs more : List Char}
    (h : LineSpelling line cs) (hmore : ∀ c ∈ more.head?, c ≠ '\ufeff') :
    ∀ c ∈ (cs ++ more).head?, c ≠ '\ufeff' := by
  have hblanks : ∀ {front : List Char}, Blanks front → ∀ c ∈ front, c ≠ '\ufeff' := by
    rintro front hfront c hc rfl
    exact absurd (hfront _ hc) (by decide)
  cases h with
  | blank hback hremark =>
    rw [List.append_assoc]
    refine Toml.head_append (hblanks hback) ?_
    cases hremark with
    | none => exact hmore
    | some hprint =>
      rintro c ⟨⟩
      decide
  | content hfront hbody hback hremark =>
    rw [List.append_assoc]
    refine Toml.head_append (hblanks hfront) ?_
    obtain ⟨c, more, rfl, -, hmark⟩ := hbody.exists_cons
    rintro d ⟨⟩
    exact hmark

theorem LinesSpelling.head {lines : List Line} {cs : List Char} (h : LinesSpelling lines cs) :
    ∀ c ∈ cs.head?, c ≠ '\ufeff' := by
  cases h with
  | last hline =>
    rw [← List.append_nil cs]
    exact hline.head_append (by simp)
  | @cons line lines cs stop rest hline hstop hrest =>
    have hstops : Stops (stop ++ rest) rest := Or.inr ⟨stop, hstop, rfl⟩
    exact hline.head_append (hstops.head (by decide))

theorem statements?_of_spelling {lines : List Line} {text : String}
    (h : LinesSpelling lines text.toList) :
    statements? text = lines.mapM Line.statement? := by
  rw [← lines?_of_spelling h le_rfl, statements?]
  split
  · rename_i rest heq
    exact absurd rfl (h.head '\ufeff' (by rw [heq]; rfl))
  · rfl

/-! ## Carrying lines out -/

namespace Sheet

section Entries

variable {α β : Type} {read : α → Option β}

theorem mapValues?_cons (read : α → Option β) (key : String) (value : α)
    (rest : List (String × α)) :
    mapValues? read ((key, value) :: rest)
      = (read value).bind fun item ↦ (mapValues? read rest).map ((key, item) :: ·) := by
  rw [mapValues?, List.mapM_cons, mapValues?]
  cases read value with
  | none => rfl
  | some item => cases rest.mapM fun entry ↦ (read entry.2).map (entry.1, ·) <;> rfl

theorem keys_of_mapValues? {entries : List (String × α)} {items : List (String × β)}
    (h : mapValues? read entries = some items) :
    items.map Prod.fst = entries.map Prod.fst := by
  induction entries generalizing items with
  | nil =>
    obtain rfl := Option.some.inj h
    rfl
  | cons entry rest ih =>
    obtain ⟨key, value⟩ := entry
    rw [mapValues?_cons] at h
    obtain ⟨item, hitem, hrest⟩ := Option.bind_eq_some_iff.mp h
    obtain ⟨more, hmore, rfl⟩ := Option.map_eq_some_iff.mp hrest
    rw [List.map_cons, List.map_cons, ih hmore]

theorem mem_mapValues? {entries : List (String × α)} {items : List (String × β)}
    (h : mapValues? read entries = some items) (key : String) (item : β) :
    (key, item) ∈ items ↔ ∃ value, (key, value) ∈ entries ∧ read value = some item := by
  induction entries generalizing items with
  | nil =>
    obtain rfl := Option.some.inj h
    simp
  | cons entry rest ih =>
    obtain ⟨k, v⟩ := entry
    rw [mapValues?_cons] at h
    obtain ⟨first, hfirst, hrest⟩ := Option.bind_eq_some_iff.mp h
    obtain ⟨more, hmore, rfl⟩ := Option.map_eq_some_iff.mp hrest
    rw [List.mem_cons, ih hmore, Prod.mk.injEq]
    constructor
    · rintro (⟨rfl, rfl⟩ | ⟨value, hmem, hread⟩)
      · exact ⟨v, List.mem_cons_self, hfirst⟩
      · exact ⟨value, List.mem_cons_of_mem _ hmem, hread⟩
    · rintro ⟨value, hmem, hread⟩
      rcases List.mem_cons.mp hmem with heq | hmem
      · obtain ⟨rfl, rfl⟩ := Prod.mk.inj heq
        exact Or.inl ⟨rfl, Option.some.inj (hread.symm.trans hfirst)⟩
      · exact Or.inr ⟨value, hmem, hread⟩

theorem isSome_mapValues?_iff {entries : List (String × α)} :
    (mapValues? read entries).isSome = true
      ↔ ∀ entry ∈ entries, (read entry.2).isSome = true := by
  induction entries with
  | nil => simp [mapValues?]
  | cons entry rest ih =>
    obtain ⟨key, value⟩ := entry
    rw [mapValues?_cons, List.forall_mem_cons, ← ih]
    cases read value with
    | none => simp
    | some item => simp

theorem fileNew?_cons (index : Index Item) (key : String) (item : Item)
    (rest : List (String × Item)) :
    fileNew? index ((key, item) :: rest)
      = if (index.get? key).isNone = true then fileNew? (index.insert key item) rest else none := by
  have hiff : ((((key, item) :: rest).map Prod.fst).Nodup
        ∧ ∀ entry ∈ (key, item) :: rest, (index.get? entry.1).isNone = true)
      ↔ (index.get? key).isNone = true ∧ (rest.map Prod.fst).Nodup
        ∧ ∀ entry ∈ rest, ((index.insert key item).get? entry.1).isNone = true := by
    rw [List.map_cons, List.nodup_cons, List.forall_mem_cons]
    constructor
    · rintro ⟨⟨hkey, hnodup⟩, hnew, hrest⟩
      refine ⟨hnew, hnodup, fun entry hentry ↦ ?_⟩
      have hne : entry.1 ≠ key := fun heq ↦ hkey (List.mem_map.mpr ⟨entry, hentry, heq⟩)
      rw [Index.get?_insert, if_neg hne]
      exact hrest entry hentry
    · rintro ⟨hnew, hnodup, hrest⟩
      have hne : ∀ entry ∈ rest, entry.1 ≠ key := by
        intro entry hentry heq
        have hnone := hrest entry hentry
        rw [Index.get?_insert, if_pos heq] at hnone
        exact absurd hnone (by simp)
      refine ⟨⟨?_, hnodup⟩, hnew, fun entry hentry ↦ ?_⟩
      · intro hmem
        obtain ⟨entry, hentry, heq⟩ := List.mem_map.mp hmem
        exact hne entry hentry heq
      · have hnone := hrest entry hentry
        rwa [Index.get?_insert, if_neg (hne entry hentry)] at hnone
  rw [fileNew?, fileNew?]
  by_cases hnew : (index.get? key).isNone = true
  · rw [if_pos hnew]
    simp only [hiff, hnew, true_and]
    rfl
  · rw [if_neg hnew, if_neg fun h ↦ hnew (hiff.mp h).1]

theorem bind_fileNew?_cons (index : Index Item) (key : String) (item : Item)
    (more : Option (List (String × Item))) :
    (more.map ((key, item) :: ·)).bind (fileNew? index)
      = if (index.get? key).isNone = true then more.bind (fileNew? (index.insert key item))
        else none := by
  cases more with
  | none => simp
  | some rest => exact fileNew?_cons index key item rest

theorem fileNew?_append (index : Index Item) (first more : List (String × Item)) :
    fileNew? index (first ++ more) = (fileNew? index first).bind (fileNew? · more) := by
  induction first generalizing index with
  | nil => rfl
  | cons entry rest ih =>
    obtain ⟨key, item⟩ := entry
    rw [List.cons_append, fileNew?_cons, fileNew?_cons]
    split
    · exact ih _
    · rfl

/-- Filed under different keys, all items are found, and nothing else is. -/
theorem get?_insertAll_iff {items : List (String × Item)} (hnodup : (items.map Prod.fst).Nodup)
    (index : Index Item) (key : String) (item : Item) :
    (index.insertAll items).get? key = some item
      ↔ (key, item) ∈ items ∨ key ∉ items.map Prod.fst ∧ index.get? key = some item := by
  induction items generalizing index with
  | nil => simp
  | cons entry rest ih =>
    obtain ⟨k, v⟩ := entry
    rw [List.map_cons, List.nodup_cons] at hnodup
    obtain ⟨hk, hnodup⟩ := hnodup
    rw [Index.insertAll_cons, ih hnodup, Index.get?_insert, List.mem_cons, List.map_cons,
      List.mem_cons, Prod.mk.injEq]
    by_cases heq : key = k
    · subst heq
      have hrest : (key, item) ∉ rest := fun hmem ↦ hk (List.mem_map.mpr ⟨_, hmem, rfl⟩)
      simp [hk, hrest, eq_comm]
    · simp [heq]

theorem fileNew?_empty_eq_some {items : List (String × Item)} {index : Index Item}
    (h : fileNew? .empty items = some index) :
    (items.map Prod.fst).Nodup ∧ ∀ key item, index.get? key = some item ↔ (key, item) ∈ items := by
  obtain ⟨⟨hnodup, -⟩, hindex⟩ := Option.ite_none_right_eq_some.mp h
  obtain rfl := Option.some.inj hindex
  refine ⟨hnodup, fun key item ↦ ?_⟩
  rw [get?_insertAll_iff hnodup]
  simp

end Entries

/-- Carries out the statement on a line. -/
def runLine (draft : Draft) (line : Line) : Option Draft := line.statement?.bind draft.step

theorem foldlM_runLine (lines : List Line) (draft : Draft) :
    (lines.mapM Line.statement?).bind (fun statements ↦ statements.foldlM Draft.step draft)
      = lines.foldlM runLine draft := by
  induction lines generalizing draft with
  | nil => rfl
  | cons line lines ih =>
    rw [List.foldlM_cons, List.mapM_cons, runLine]
    cases line.statement? with
    | none => rfl
    | some statement =>
      cases hstep : draft.step statement with
      | none => cases lines.mapM Line.statement? <;> simp [hstep]
      | some next =>
        simp only [Option.bind_eq_bind, Option.bind_some, hstep, ← ih]
        cases lines.mapM Line.statement? <;> simp [hstep]

theorem foldlM_pairLines {place : Index Item → Draft}
    (hplace : ∀ index key item, (place index).step (.pair [key] item)
      = if (index.get? key).isNone = true then some (place (index.insert key item)) else none)
    (pairs : List (String × Scalar)) (index : Index Item) :
    (pairLines pairs).foldlM runLine (place index)
      = ((mapValues? Scalar.item? pairs).bind (fileNew? index)).map place := by
  induction pairs generalizing index with
  | nil => rfl
  | cons pair rest ih =>
    obtain ⟨key, value⟩ := pair
    rw [pairLines, List.map_cons, ← pairLines, List.foldlM_cons, mapValues?_cons, runLine,
      Line.statement?]
    cases hitem : value.item? with
    | none => rfl
    | some item =>
      simp only [Option.map_some, Option.bind_some, hplace, Option.bind_eq_bind,
        bind_fileNew?_cons]
      by_cases hnew : (index.get? key).isNone = true
      · rw [if_pos hnew, if_pos hnew]
        exact ih _
      · rw [if_neg hnew, if_neg hnew]
        rfl

/-- The draft before the first header. -/
def inFront (index : Index Item) : Draft := ⟨index.entries, []⟩

/-- The draft after a header, with a table for the section. -/
def inSection (index : Index Item) (name : String) (child : Index Item) : Draft :=
  ⟨(index.insert name (.table .header child.entries)).entries, [name]⟩

theorem addValue?_index (key : String) (item : Item) (origin : Origin) (index : Index Item) :
    addValue? false key item origin index.entries
      = if (index.get? key).isNone = true then some (index.insert key item).entries else none := by
  rw [addValue?, if_neg (by simp), Index.get?]
  cases findEntry key index.entries <;> rfl

theorem step_inFront (index : Index Item) (key : String) (item : Item) :
    (inFront index).step (.pair [key] item)
      = if (index.get? key).isNone = true then some (inFront (index.insert key item))
        else none := by
  have hstep : (inFront index).step (.pair [key] item)
      = (addValue? false key item .header index.entries).map fun entries ↦ ⟨entries, []⟩ := by
    simp only [inFront, Draft.step, within?, List.getLast?_singleton, List.dropLast_singleton,
      Option.bind_eq_bind, Option.bind_some, List.isEmpty_nil, Bool.not_true]
    cases addValue? false key item .header index.entries <;> rfl
  rw [hstep, addValue?_index]
  split <;> rfl

theorem insert_insert (index : Index Item) (key : String) (item next : Item) :
    (index.insert key item).insert key next = index.insert key next := by
  ext k
  simp only [Index.get?_insert]
  split <;> rfl

theorem step_inSection (name : String) (index child : Index Item) (key : String) (item : Item) :
    (inSection index name child).step (.pair [key] item)
      = if (child.get? key).isNone = true then some (inSection index name (child.insert key item))
        else none := by
  have hfind : findEntry name (index.insert name (.table .header child.entries)).entries
      = some (.table .header child.entries) := by
    rw [← Index.get?, Index.get?_insert, if_pos rfl]
  have hstep : (inSection index name child).step (.pair [key] item)
      = (addValue? false key item .header child.entries).map fun entries ↦
        ⟨insertEntry name (.table .header entries)
          (index.insert name (.table .header child.entries)).entries, [name]⟩ := by
    simp only [inSection, Draft.step, within?, hfind, List.getLast?_singleton,
      List.dropLast_singleton, Option.bind_eq_bind, Option.bind_some, List.isEmpty_nil,
      Bool.not_true]
    cases addValue? false key item .header child.entries <;> rfl
  rw [hstep, addValue?_index]
  split
  · have hentries := congrArg Index.entries (insert_insert index name
      (.table .header child.entries) (.table .header (child.insert key item).entries))
    exact congrArg some (congrArg (Draft.mk · [name]) hentries)
  · rfl

/-- A header begins a table if its name is new. -/
theorem runLine_header {index : Index Item}
    (hopen : ∀ key child, index.get? key ≠ some (.table .implied child)) (current : List String)
    (name : String) :
    runLine ⟨index.entries, current⟩ (.header name)
      = if (index.get? name).isNone = true then some (inSection index name .empty) else none := by
  have hstep : runLine ⟨index.entries, current⟩ (.header name)
      = (openTable? name index.entries).map fun entries ↦ ⟨entries, [name]⟩ := by
    simp only [runLine, Line.statement?, Draft.step, within?, List.getLast?_singleton,
      List.dropLast_singleton, Option.bind_eq_bind, Option.bind_some]
    cases openTable? name index.entries <;> rfl
  rw [hstep, openTable?]
  have hopen := hopen name
  rw [Index.get?] at hopen ⊢
  cases hfind : findEntry name index.entries with
  | none => rfl
  | some item =>
    rw [hfind] at hopen
    cases item with
    | table origin child =>
      cases origin with
      | implied => exact absurd rfl (hopen child)
      | _ => rfl
    | _ => rfl

/-- The entries that sections add. -/
theorem foldlM_sections (sections : List (String × List (String × Scalar))) {index : Index Item}
    (hopen : ∀ key child, index.get? key ≠ some (.table .implied child)) (current : List String) :
    ((sections.flatMap sectionLines).foldlM runLine ⟨index.entries, current⟩).map Draft.entries
      = ((mapValues? table? sections).bind (fileNew? index)).map Index.entries := by
  induction sections generalizing index current with
  | nil => rfl
  | cons part rest ih =>
    obtain ⟨name, pairs⟩ := part
    rw [List.flatMap_cons, List.foldlM_append, sectionLines, List.foldlM_cons,
      runLine_header hopen, mapValues?_cons, table?]
    by_cases hnew : (index.get? name).isNone = true
    · rw [if_pos hnew]
      simp only [Option.bind_eq_bind, Option.bind_some,
        foldlM_pairLines (step_inSection name index) pairs .empty]
      cases (mapValues? Scalar.item? pairs).bind (fileNew? .empty) with
      | none => rfl
      | some child =>
        have hopen' : ∀ key next, (index.insert name (.table .header child.entries)).get? key
            ≠ some (.table .implied next) := by
          intro key next
          rw [Index.get?_insert]
          split
          · simp
          · exact hopen key next
        simp only [Option.map_some, Option.bind_some]
        rw [inSection, ih hopen', bind_fileNew?_cons, if_pos hnew]
    · rw [if_neg hnew]
      cases (mapValues? Scalar.item? pairs).bind (fileNew? .empty) with
      | none => rfl
      | some child =>
        rw [Option.map_some, Option.bind_some, bind_fileNew?_cons, if_neg hnew]
        rfl

/-- The pairs in front are no tables. -/
theorem open_front {pairs : List (String × Scalar)} {index : Index Item}
    (h : (mapValues? Scalar.item? pairs).bind (fileNew? .empty) = some index) (key : String)
    (child : Entries) : index.get? key ≠ some (.table .implied child) := by
  obtain ⟨items, hitems, hindex⟩ := Option.bind_eq_some_iff.mp h
  intro hget
  have hmem := ((fileNew?_empty_eq_some hindex).2 _ _).mp hget
  obtain ⟨value, -, hvalue⟩ := (mem_mapValues? hitems _ _).mp hmem
  obtain ⟨s, -, hitem⟩ | ⟨i, n, -, hitem⟩ | ⟨b, -, hitem⟩ := Scalar.cases_of_item? hvalue <;>
    exact absurd hitem (by simp)

/-- **Meaning.** What is read of each text of a sheet is the table of the sheet. -/
theorem read?_of_writes {sheet : Sheet} {text : String} (h : sheet.Writes text) :
    read? text = sheet.index?.map Index.entries := by
  have hread : read? text = (sheet.lines.foldlM runLine (inFront .empty)).map Draft.entries := by
    rw [read?, statements?_of_spelling h, ← foldlM_runLine]
    cases sheet.lines.mapM Line.statement? <;> rfl
  rw [hread, lines, List.foldlM_append, foldlM_pairLines step_inFront, index?]
  cases hfront : mapValues? Scalar.item? sheet.front with
  | none => rfl
  | some items =>
    simp only [Option.bind_eq_bind, Option.bind_some]
    cases hindex : fileNew? .empty items with
    | none => cases mapValues? table? sheet.sections <;> simp [fileNew?_append, hindex]
    | some index =>
      have hopen := open_front (by rw [hfront, Option.bind_some, hindex])
      rw [Option.map_some, Option.bind_some, inFront, foldlM_sections _ hopen]
      cases mapValues? table? sheet.sections <;> simp [fileNew?_append, hindex]

/-! ## What a sheet holds -/

theorem isSome_fileNew?_empty {items : List (String × Item)} :
    (fileNew? .empty items).isSome = true ↔ (items.map Prod.fst).Nodup := by
  rw [fileNew?]
  split
  · rename_i h
    exact iff_of_true rfl h.1
  · rename_i h
    exact iff_of_false (by simp) fun hnodup ↦ h ⟨hnodup, by simp⟩

/-- A section has a table if its keys differ and its values can be read. -/
theorem isSome_table?_iff {pairs : List (String × Scalar)} :
    (table? pairs).isSome = true
      ↔ (pairs.map Prod.fst).Nodup ∧ ∀ pair ∈ pairs, pair.2.item?.isSome = true := by
  rw [table?, Option.isSome_map, ← isSome_mapValues?_iff]
  cases hitems : mapValues? Scalar.item? pairs with
  | none => simp
  | some items => simp [isSome_fileNew?_empty, keys_of_mapValues? hitems]

/-- The table of a section holds its pairs. -/
theorem exists_index_of_table? {pairs : List (String × Scalar)} {item : Item}
    (h : table? pairs = some item) :
    ∃ child : Index Item, item = .table .header child.entries ∧ ∀ key found,
      child.get? key = some found
        ↔ ∃ value, (key, value) ∈ pairs ∧ value.item? = some found := by
  obtain ⟨child, hchild, rfl⟩ := Option.map_eq_some_iff.mp h
  obtain ⟨items, hitems, hfiled⟩ := Option.bind_eq_some_iff.mp hchild
  refine ⟨child, rfl, fun key found ↦ ?_⟩
  rw [(fileNew?_empty_eq_some hfiled).2, mem_mapValues? hitems]

/-- **A sheet has a table** if no key and no section comes twice and its values can be read. -/
theorem isSome_index?_iff {sheet : Sheet} :
    sheet.index?.isSome = true
      ↔ (sheet.front.map Prod.fst ++ sheet.sections.map Prod.fst).Nodup
        ∧ (∀ pair ∈ sheet.front, pair.2.item?.isSome = true)
        ∧ ∀ part ∈ sheet.sections, (table? part.2).isSome = true := by
  rw [index?, ← isSome_mapValues?_iff, ← isSome_mapValues?_iff]
  cases hfront : mapValues? Scalar.item? sheet.front with
  | none => simp
  | some front =>
    cases htables : mapValues? table? sheet.sections with
    | none => simp
    | some tables =>
      simp [isSome_fileNew?_empty, keys_of_mapValues? hfront, keys_of_mapValues? htables]

/-- The table of a sheet holds the pairs in front and the sections. -/
theorem get?_of_index? {sheet : Sheet} {index : Index Item} (h : sheet.index? = some index)
    (key : String) (item : Item) :
    index.get? key = some item
      ↔ (∃ value, (key, value) ∈ sheet.front ∧ value.item? = some item)
        ∨ ∃ pairs, (key, pairs) ∈ sheet.sections ∧ table? pairs = some item := by
  obtain ⟨front, hfront, h⟩ := Option.bind_eq_some_iff.mp h
  obtain ⟨tables, htables, hfiled⟩ := Option.bind_eq_some_iff.mp h
  rw [(fileNew?_empty_eq_some hfiled).2, List.mem_append, mem_mapValues? hfront,
    mem_mapValues? htables]

theorem pairs_unique {sheet : Sheet} (hsections : (sheet.sections.map Prod.fst).Nodup)
    {name : String} {pairs others : List (String × Scalar)}
    (hpairs : (name, pairs) ∈ sheet.sections) (hothers : (name, others) ∈ sheet.sections) :
    pairs = others :=
  congrArg Prod.snd (List.inj_on_of_nodup_map hsections hpairs hothers rfl)

/-- If no section and no key comes twice, neither does a setting. -/
theorem Has.unique {sheet : Sheet} (hsections : (sheet.sections.map Prod.fst).Nodup)
    (hkeys : ∀ part ∈ sheet.sections, (part.2.map Prod.fst).Nodup) {name key : String}
    {value other : Scalar} (h : sheet.Has name key value) (hother : sheet.Has name key other) :
    value = other := by
  obtain ⟨pairs, hpairs, hvalue⟩ := h
  obtain ⟨others, hothers, hother⟩ := hother
  obtain rfl := pairs_unique hsections hpairs hothers
  exact congrArg Prod.snd (List.inj_on_of_nodup_map (hkeys _ hpairs) hvalue hother rfl)

/-- **A section** is read as the table of its pairs, and as an empty one if it is missing. -/
theorem exists_index_of_section {sheet : Sheet} {index : Index Item}
    (h : sheet.index? = some index) (hfront : sheet.front = []) (name : String) :
    ∃ child : Index Item, (index.get? name).getD (.table .header []) = .table .header child.entries
      ∧ ∀ key item, child.get? key = some item
        ↔ ∃ value, sheet.Has name key value ∧ value.item? = some item := by
  obtain ⟨hnodup, -, htables⟩ := isSome_index?_iff.mp (by rw [h]; rfl)
  rw [hfront, List.map_nil, List.nil_append] at hnodup
  have hget := get?_of_index? h name
  simp only [hfront, List.not_mem_nil, false_and, exists_false, false_or] at hget
  cases hfound : index.get? name with
  | none =>
    refine ⟨.empty, rfl, fun key item ↦ iff_of_false (by simp) ?_⟩
    rintro ⟨value, ⟨pairs, hpairs, -⟩, -⟩
    obtain ⟨table, htable⟩ := Option.isSome_iff_exists.mp (htables _ hpairs)
    rw [(hget table).mpr ⟨pairs, hpairs, htable⟩] at hfound
    exact absurd hfound (by simp)
  | some table =>
    obtain ⟨pairs, hpairs, htable⟩ := (hget table).mp hfound
    obtain ⟨child, rfl, hchild⟩ := exists_index_of_table? htable
    refine ⟨child, rfl, fun key item ↦ (hchild key item).trans ?_⟩
    constructor
    · rintro ⟨value, hmem, hvalue⟩
      exact ⟨value, ⟨pairs, hpairs, hmem⟩, hvalue⟩
    · rintro ⟨value, ⟨others, hothers, hmem⟩, hvalue⟩
      obtain rfl := pairs_unique hnodup hothers hpairs
      exact ⟨value, hmem, hvalue⟩

/-! ## Every sheet can be written -/

theorem exists_lineSpelling (line : Line) : ∃ cs, line.Spelling cs := by
  cases line with
  | header name =>
    obtain ⟨cs, hcs⟩ := exists_stringSpelling name
    exact ⟨_, .header blanks_nil (.string hcs) blanks_nil⟩
  | pair key value =>
    obtain ⟨cs, hcs⟩ := exists_stringSpelling key
    have hvalue : ∃ vs, value.Spelling vs := by
      cases value with
      | text s =>
        obtain ⟨vs, hvs⟩ := exists_stringSpelling s
        exact ⟨vs, .text hvs⟩
      | int n => exact ⟨_, .int n⟩
      | bool b =>
        cases b with
        | true => exact ⟨_, .true⟩
        | false => exact ⟨_, .false⟩
    obtain ⟨vs, hvs⟩ := hvalue
    exact ⟨_, .pair (.string hcs) blanks_nil blanks_nil hvs⟩

/-- Every sheet has a text, whatever its keys, names and values are. -/
theorem exists_writes (sheet : Sheet) : ∃ text, sheet.Writes text := by
  have hlines : ∀ lines : List Line, ∃ cs, LinesSpelling lines cs := by
    intro lines
    induction lines with
    | nil => exact ⟨_, .last (.blank blanks_nil .none)⟩
    | cons line lines ih =>
      obtain ⟨rest, hrest⟩ := ih
      obtain ⟨body, hbody⟩ := exists_lineSpelling line
      exact ⟨_, .cons (.content blanks_nil hbody blanks_nil .none) List.mem_cons_self hrest⟩
  obtain ⟨cs, hcs⟩ := hlines sheet.lines
  refine ⟨String.ofList cs, ?_⟩
  rw [Writes, String.toList_ofList]
  exact hcs

end Sheet

end GameBridge.Toml
