import Mathlib.Data.List.TakeWhile
import GameBridge.Path

/-!
# The names of a path and of the folder that contains it

What a path refers to depends on its names only, while the containing folder is read off the text.
Here the two are brought together: splitting a text at a separator splits the names, so the names
of the containing folder are the first names of the path. Of the names that follow at least one is
no dot.
-/

namespace GameBridge.Path

/-! ## Pieces -/

theorem pieces_ne_nil (cs : List Char) : pieces cs ≠ [] := by
  cases cs with
  | nil => exact List.cons_ne_nil _ _
  | cons c rest =>
    rw [pieces]
    split
    · exact List.cons_ne_nil _ _
    · split <;> exact List.cons_ne_nil _ _

theorem pieces_append_separator (a b : List Char) :
    pieces (a ++ '/' :: b) = pieces a ++ pieces b := by
  induction a with
  | nil => rfl
  | cons c rest ih =>
    rw [List.cons_append, pieces, pieces, ih]
    by_cases hc : c = '/'
    · rw [if_pos hc, if_pos hc, List.cons_append]
    · rw [if_neg hc, if_neg hc]
      obtain ⟨piece, others, hpieces⟩ := List.exists_cons_of_ne_nil (pieces_ne_nil rest)
      rw [hpieces]
      rfl

theorem pieces_of_notMem {cs : List Char} (h : '/' ∉ cs) : pieces cs = [cs] := by
  induction cs with
  | nil => rfl
  | cons c rest ih =>
    have hc : c ≠ '/' := fun e ↦ h (e ▸ List.mem_cons_self)
    rw [pieces, if_neg hc, ih fun hmem ↦ h (List.mem_cons_of_mem _ hmem)]

/-- The names of a text that is given by its characters. -/
def namesOf (cs : List Char) : List String := names (String.ofList cs)

theorem names_eq_namesOf (path : Path) : path.names = namesOf path.toList := by
  rw [namesOf, String.ofList_toList]

theorem namesOf_eq (cs : List Char) :
    namesOf cs = ((pieces cs).filter (· ≠ [])).map String.ofList := by
  rw [namesOf, names, String.toList_ofList]

@[simp] theorem namesOf_nil : namesOf [] = [] := rfl

@[simp] theorem namesOf_dot : namesOf ['.'] = ["."] := rfl

theorem namesOf_append_separator (a b : List Char) :
    namesOf (a ++ '/' :: b) = namesOf a ++ namesOf b := by
  rw [namesOf_eq, namesOf_eq, namesOf_eq, pieces_append_separator, List.filter_append,
    List.map_append]

theorem namesOf_name {name : List Char} (h : '/' ∉ name) (hne : name ≠ []) :
    namesOf name = [String.ofList name] := by
  rw [namesOf_eq, pieces_of_notMem h, List.filter_cons_of_pos (by simpa using hne)]
  rfl

/-! ## Separators and dots at the end -/

/-- Names that say to stay. -/
def Dots (names : List String) : Prop := ∀ name ∈ names, name = "."

theorem stripReversed_suffix (cs : List Char) : stripReversed cs <:+ cs := by
  fun_induction stripReversed cs with
  | case1 cs ih => exact ih.trans (List.suffix_cons _ _)
  | case2 cs ih => exact ih.trans ((List.suffix_cons _ _).trans (List.suffix_cons _ _))
  | case3 cs => exact List.suffix_rfl

theorem stripReversed_ne_dot_separator (cs rest : List Char) :
    stripReversed cs ≠ '.' :: '/' :: rest := by
  fun_induction stripReversed cs with
  | case1 cs ih => exact ih
  | case2 cs ih => exact ih
  | case3 cs _ h => exact fun e ↦ h rest e

/-- What is taken off the end of a path has no names but dots. -/
theorem namesOf_stripReversed (cs : List Char) :
    ∃ dots, Dots dots ∧ namesOf cs.reverse = namesOf (stripReversed cs).reverse ++ dots := by
  fun_induction stripReversed cs with
  | case1 cs ih =>
    obtain ⟨dots, hdots, heq⟩ := ih
    refine ⟨dots, hdots, ?_⟩
    rw [List.reverse_cons, namesOf_append_separator, namesOf_nil, List.append_nil, heq]
  | case2 cs ih =>
    obtain ⟨dots, hdots, heq⟩ := ih
    refine ⟨dots ++ ["."], fun name hname ↦ ?_, ?_⟩
    · rcases List.mem_append.mp hname with hname | hname
      · exact hdots name hname
      · exact List.mem_singleton.mp hname
    · rw [List.reverse_cons, List.reverse_cons, List.append_assoc, List.singleton_append,
        namesOf_append_separator, namesOf_dot, heq, List.append_assoc]
  | case3 cs => exact ⟨[], fun name hname ↦ absurd hname List.not_mem_nil, by simp⟩

/-- Where everything is taken off, the path starts with a separator. -/
theorem getLast?_of_stripReversed_eq_nil {cs : List Char} (h : stripReversed cs = [])
    (hne : cs ≠ []) : cs.getLast? = some '/' := by
  fun_induction stripReversed cs with
  | case1 cs ih =>
    cases cs with
    | nil => rfl
    | cons c rest => rw [List.getLast?_cons_cons]; exact ih h (List.cons_ne_nil _ _)
  | case2 cs ih =>
    cases cs with
    | nil => rfl
    | cons c rest =>
      rw [List.getLast?_cons_cons, List.getLast?_cons_cons]
      exact ih h (List.cons_ne_nil _ _)
  | case3 cs => exact absurd h hne

/-! ## The last name and what is in front of it -/

/-- The characters of the last name that is no dot. -/
def lastName (path : Path) : List Char :=
  ((stripReversed path.toList.reverse).takeWhile (· ≠ '/')).reverse

/-- The characters in front of the last name. -/
def frontOf (path : Path) : List Char :=
  ((stripReversed path.toList.reverse).dropWhile (· ≠ '/')).reverse

theorem notMem_lastName (path : Path) : '/' ∉ path.lastName := by
  rw [lastName, List.mem_reverse]
  intro hmem
  have himp := List.mem_takeWhile_imp hmem
  simp at himp

theorem frontOf_append_lastName (path : Path) :
    path.frontOf ++ path.lastName = (stripReversed path.toList.reverse).reverse := by
  rw [frontOf, lastName, ← List.reverse_append, List.takeWhile_append_dropWhile]

/-- In front of the last name there is nothing, or something that ends with a separator. -/
theorem frontOf_cases (path : Path) :
    path.frontOf = [] ∨ ∃ above, path.frontOf = above ++ ['/'] := by
  rw [frontOf]
  cases habove : (stripReversed path.toList.reverse).dropWhile (· ≠ '/') with
  | nil => exact Or.inl rfl
  | cons c above =>
    have hc : c = '/' := by
      have hhead := List.head?_dropWhile_not (· ≠ '/') (stripReversed path.toList.reverse)
      rw [habove] at hhead
      simpa using hhead
    exact Or.inr ⟨above.reverse, by rw [List.reverse_cons, hc]⟩

/-- The text in front of a name, and the name, have the names of both. -/
theorem namesOf_frontOf_append (path : Path) {name : List Char} :
    namesOf (path.frontOf ++ name) = namesOf path.frontOf ++ namesOf name := by
  rcases path.frontOf_cases with hfront | ⟨above, hfront⟩
  · rw [hfront, List.nil_append, namesOf_nil, List.nil_append]
  · rw [hfront, List.append_assoc, List.singleton_append, namesOf_append_separator,
      namesOf_append_separator, namesOf_nil, List.append_nil]

/-- **The names of a path** are those in front of the last name, the last name, and dots. -/
theorem exists_names_eq (path : Path) :
    ∃ dots, Dots dots
      ∧ path.names = namesOf path.frontOf ++ namesOf path.lastName ++ dots := by
  obtain ⟨dots, hdots, heq⟩ := namesOf_stripReversed path.toList.reverse
  refine ⟨dots, hdots, ?_⟩
  rw [List.reverse_reverse] at heq
  rw [names_eq_namesOf, heq, ← frontOf_append_lastName, namesOf_frontOf_append]

theorem frontOf_of_dot {path : Path} (h : path.lastName = ['.']) : path.frontOf = [] := by
  rcases path.frontOf_cases with hfront | ⟨above, hfront⟩
  · exact hfront
  · refine absurd ?_ (stripReversed_ne_dot_separator path.toList.reverse above.reverse)
    rw [← List.reverse_reverse (stripReversed path.toList.reverse), ← frontOf_append_lastName,
      hfront, h]
    simp

/-! ## The containing folder -/

theorem stripReversed_eq_nil_iff (path : Path) :
    stripReversed path.toList.reverse = [] ↔ path.lastName = [] := by
  rw [lastName, List.reverse_eq_nil_iff]
  constructor
  · intro h
    rw [h]
    rfl
  · intro h
    cases hnamed : stripReversed path.toList.reverse with
    | nil => rfl
    | cons c rest =>
      refine absurd ?_ (head?_stripReversed path.toList.reverse)
      rw [hnamed] at h ⊢
      rw [List.takeWhile_eq_nil_iff] at h
      simpa using h

theorem frontOf_of_nil {path : Path} (h : path.lastName = []) : path.frontOf = [] := by
  rw [frontOf, (stripReversed_eq_nil_iff path).mpr h]
  rfl

/-- A path whose last name is none or made of dots has no other name at its end. -/
theorem getLast?_names_of_dots {path : Path} {name : String}
    (h : path.lastName = [] ∨ path.lastName = ['.'] ∨ path.lastName = ['.', '.'])
    (hlast : path.names.getLast? = some name) : name = "." ∨ name = ".." := by
  obtain ⟨dots, hdots, hnames⟩ := path.exists_names_eq
  rcases List.eq_nil_or_concat dots with rfl | ⟨before, dot, rfl⟩
  · rw [List.append_nil] at hnames
    rw [hnames] at hlast
    rcases h with h | h | h
    · rw [h, frontOf_of_nil h] at hlast
      exact absurd hlast (by simp)
    · rw [h, namesOf_dot, List.getLast?_concat] at hlast
      exact Or.inl (Option.some.inj hlast).symm
    · rw [h, show namesOf ['.', '.'] = [".."] from rfl, List.getLast?_concat] at hlast
      exact Or.inr (Option.some.inj hlast).symm
  · rw [List.concat_eq_append] at hdots hnames
    rw [hnames, ← List.append_assoc, List.getLast?_concat] at hlast
    exact Or.inl (Option.some.inj hlast ▸ hdots dot (by simp))

theorem parent?_eq (path : Path) :
    path.parent? = if path.lastName = [] then none else
      some (String.ofList (if stripReversed path.frontOf.reverse = [] ∧ path.frontOf ≠ [] then ['/']
        else (stripReversed path.frontOf.reverse).reverse)) := by
  rw [parent?]
  simp only [stripReversed_eq_nil_iff, frontOf, List.reverse_reverse, ne_eq,
    List.reverse_eq_nil_iff]

/-- The text of the containing folder is the beginning of the path. -/
theorem prefix_of_parent? {path parent : Path} (h : path.parent? = some parent) :
    parent.toList <+: path.toList := by
  have hfront : path.frontOf <+: path.toList := by
    have hnamed : (stripReversed path.toList.reverse).reverse <+: path.toList :=
      List.reverse_suffix.mp (by
        rw [List.reverse_reverse]
        exact stripReversed_suffix _)
    rw [← frontOf_append_lastName] at hnamed
    exact (List.prefix_append _ _).trans hnamed
  rw [parent?_eq] at h
  split at h
  · exact absurd h (by simp)
  · rw [← Option.some.inj h, String.toList_ofList]
    split
    · rename_i hroot
      have hlast := getLast?_of_stripReversed_eq_nil hroot.1
        fun e ↦ hroot.2 (List.reverse_eq_nil_iff.mp e)
      rw [List.getLast?_reverse] at hlast
      obtain ⟨rest, hrest⟩ := List.head?_eq_some_iff.mp hlast
      rw [hrest] at hfront
      exact (List.prefix_append ['/'] rest).trans hfront
    · exact (List.reverse_suffix.mp (by
        rw [List.reverse_reverse]
        exact stripReversed_suffix _)).trans hfront

/-- **The names of the containing folder** are the first names of the path. A name that follows is
no dot, unless the containing folder is the empty path. -/
theorem names_of_parent? {path parent : Path} (h : path.parent? = some parent) :
    ∃ rest, path.names = parent.names ++ rest ∧ rest ≠ []
      ∧ (parent = "" ∨ ∃ name ∈ rest, name ≠ ".") := by
  obtain ⟨trailing, -, hnames⟩ := path.exists_names_eq
  obtain ⟨dots, hdots, hfront⟩ := namesOf_stripReversed path.frontOf.reverse
  rw [List.reverse_reverse] at hfront
  rw [parent?_eq] at h
  split at h
  · exact absurd h (by simp)
  · rename_i hne
    have hparent : parent.names = namesOf (stripReversed path.frontOf.reverse).reverse := by
      rw [← Option.some.inj h]
      split
      · rename_i hroot
        rw [hroot.1]
        rfl
      · rfl
    have hlast := namesOf_name path.notMem_lastName hne
    refine ⟨dots ++ [String.ofList path.lastName] ++ trailing, ?_, by simp, ?_⟩
    · rw [hnames, hfront, hlast, hparent]
      simp
    · by_cases hdot : path.lastName = ['.']
      · left
        rw [← Option.some.inj h, frontOf_of_dot hdot]
        rfl
      · refine Or.inr ⟨_, List.mem_append_left _ (List.mem_append_right _ List.mem_cons_self), ?_⟩
        intro e
        apply hdot
        rw [← String.toList_ofList (l := path.lastName), e]
        rfl

theorem chain_of_parent? {path parent : Path} (h : path.parent? = some parent) :
    path.chain = path :: parent.chain := by
  rw [chain]
  split
  · rename_i hnone
    rw [h] at hnone
    exact absurd hnone (by simp)
  · rename_i found hfound
    rw [h] at hfound
    rw [Option.some.inj hfound]

theorem chain_of_top {path : Path} (h : path.parent? = none) : path.chain = [path] := by
  rw [chain]
  split
  · rfl
  · rename_i found hfound
    rw [h] at hfound
    exact absurd hfound (by simp)

/-! ## Another extension -/

theorem splitExtension_cases (name : List Char) :
    splitExtension name = (name, []) ∨ ∃ stem old, name = stem ++ '.' :: old
      ∧ splitExtension name = (stem, old) := by
  have hsplit := List.takeWhile_append_dropWhile (p := (· ≠ '.')) (l := name.reverse)
  have hhead := List.head?_dropWhile_not (· ≠ '.') name.reverse
  rw [splitExtension]
  split
  · exact Or.inl rfl
  · exact Or.inl rfl
  · rename_i c stem _ hdrop
    rw [hdrop] at hsplit hhead
    have hc : c = '.' := by simpa using hhead
    refine Or.inr ⟨stem.reverse, (name.reverse.takeWhile (· ≠ '.')).reverse, ?_, rfl⟩
    calc name = (name.reverse.takeWhile (· ≠ '.') ++ c :: stem).reverse := by
          rw [hsplit, List.reverse_reverse]
      _ = stem.reverse ++ '.' :: (name.reverse.takeWhile (· ≠ '.')).reverse := by
          rw [hc, List.reverse_append, List.reverse_cons, List.append_assoc, List.singleton_append]

theorem splitName?_eq (path : Path) :
    path.splitName? =
      if path.lastName = [] ∨ path.lastName = ['.'] ∨ path.lastName = ['.', '.'] then none
      else some (path.frontOf, path.lastName,
        path.toList.drop (stripReversed path.toList.reverse).length) := rfl

/-- The extension of the last name, empty if it has none. -/
def extension (path : Path) : String :=
  match path.splitName? with
  | none => ""
  | some (_, name, _) => String.ofList (splitExtension name).2

/-- What becomes of a path when its extension is replaced. Only in the last case there is a name
with the new extension, in place of a name that is no dots. -/
theorem replaceExtension_cases (path : Path) (new : String) :
    ((path.lastName = [] ∨ path.lastName = ['.'] ∨ path.lastName = ['.', '.'])
        ∧ path.replaceExtension new = path) ∨
      path.replaceExtension new = String.ofList (path.frontOf ++ ['.', '.']) ∨
      ((path.lastName ≠ [] ∧ path.lastName ≠ ['.'] ∧ path.lastName ≠ ['.', '.'])
        ∧ path.extension = String.ofList (splitExtension path.lastName).2
        ∧ path.replaceExtension new
          = String.ofList (path.frontOf ++ ((splitExtension path.lastName).1 ++ '.' :: new.toList)))
    := by
  rw [replaceExtension, extension, splitName?_eq]
  by_cases hname : path.lastName = [] ∨ path.lastName = ['.'] ∨ path.lastName = ['.', '.']
  · rw [if_pos hname]
    exact Or.inl ⟨hname, rfl⟩
  · right
    rw [if_neg hname]
    rcases hsplit : splitExtension path.lastName with ⟨stem, old⟩
    dsimp only
    rw [hsplit]
    dsimp only
    split
    · exact Or.inl rfl
    · refine Or.inr ⟨by simpa only [not_or] using hname, rfl, ?_⟩
      apply String.toList_inj.mp
      simp

/-- What is left of a name without its extension is part of the name. -/
private theorem notMem_splitExtension {name : List Char} (h : '/' ∉ name) :
    '/' ∉ (splitExtension name).1 := by
  rcases splitExtension_cases name with hsplit | ⟨stem, old, hname, hsplit⟩
  · rw [hsplit]
    exact h
  · rw [hsplit]
    intro hmem
    exact h (hname ▸ List.mem_append_left _ hmem)

private theorem append_extension_ne {name new : List Char} (h : (splitExtension name).2 ≠ new) :
    (splitExtension name).1 ++ '.' :: new ≠ name := by
  rcases splitExtension_cases name with hsplit | ⟨stem, old, hname, hsplit⟩
  · rw [hsplit]
    intro heq
    have hlength : (name ++ '.' :: new).length = name.length := congrArg List.length heq
    rw [List.length_append, List.length_cons] at hlength
    omega
  · rw [hsplit] at h ⊢
    intro heq
    rw [hname, List.append_cancel_left_eq, List.cons.injEq] at heq
    exact h heq.2.symm

/-- **Beside the path.** A path whose extension was replaced has the same names in front, and one
name more. That is not the last name of the path if the extension was another one. -/
theorem names_replaceExtension (path : Path) {new : String} (hnew : '/' ∉ new.toList) :
    ((path.lastName = [] ∨ path.lastName = ['.'] ∨ path.lastName = ['.', '.'])
        ∧ path.replaceExtension new = path) ∨
      (path.replaceExtension new).names = namesOf path.frontOf ++ [".."] ∨
      ∃ name replaced dots, Dots dots ∧ path.names = namesOf path.frontOf ++ name :: dots
        ∧ name ≠ "." ∧ name ≠ ".."
        ∧ (path.replaceExtension new).names = namesOf path.frontOf ++ [replaced]
        ∧ (path.extension ≠ new → replaced ≠ name) := by
  rcases replaceExtension_cases path new with
    hsame | hdots | ⟨⟨hempty, hdot, hdots⟩, hextension, hreplaced⟩
  · exact Or.inl hsame
  · refine Or.inr (Or.inl ?_)
    rw [hdots, ← namesOf, namesOf_frontOf_append]
    rfl
  · obtain ⟨dots, hall, hnames⟩ := path.exists_names_eq
    have hseparator : '/' ∉ (splitExtension path.lastName).1 ++ '.' :: new.toList := by
      rw [List.mem_append, List.mem_cons, not_or, not_or]
      exact ⟨notMem_splitExtension path.notMem_lastName, by decide, hnew⟩
    refine Or.inr (Or.inr ⟨String.ofList path.lastName,
      String.ofList ((splitExtension path.lastName).1 ++ '.' :: new.toList), dots, hall, ?_, ?_, ?_,
      ?_, fun hne heq ↦ ?_⟩)
    · rw [hnames, namesOf_name path.notMem_lastName hempty, List.append_assoc,
        List.singleton_append]
    · exact fun h ↦ hdot (String.ofList_injective h)
    · exact fun h ↦ hdots (String.ofList_injective h)
    · rw [hreplaced, ← namesOf, namesOf_frontOf_append, namesOf_name hseparator (by simp)]
    · refine append_extension_ne (fun h ↦ hne ?_) (String.ofList_injective heq)
      rw [hextension, h, String.ofList_toList]

end GameBridge.Path
