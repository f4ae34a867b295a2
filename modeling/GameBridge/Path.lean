/-!
# Paths

A path is text with `/` between its names. Joining follows the rule that an absolute second part
replaces the first, and that a separator is added only where one is missing; nothing else about
the text is normalised.

What a path refers to is found by following its `names` one after the other, which needs a disk.
The containing folder and the extension of a path are read off its text: for these, separators and
`.` names at the end do not count.
-/

namespace GameBridge

/-- The text of a path. -/
abbrev Path := String

namespace Path

/-- Whether the path starts at the root. -/
def isAbsolute (path : Path) : Bool := path.toList.head? == some '/'

/-- Whether the path ends with a separator, so that it can only refer to a folder. -/
def endsWithSeparator (path : Path) : Bool := path.toList.getLast? == some '/'

/-- The path of `path` seen from `base`. -/
def join (base path : Path) : Path :=
  if path.isAbsolute then path
  else if base = "" ∨ base.endsWithSeparator then base ++ path
  else base ++ "/" ++ path

/-! ## Names -/

/-- The pieces of a text between separators. -/
def pieces : List Char → List (List Char)
  | [] => [[]]
  | c :: cs =>
    if c = '/' then [] :: pieces cs
    else
      match pieces cs with
      | [] => [[c]]
      | piece :: rest => (c :: piece) :: rest

/-- The names between the separators of a path. -/
def names (path : Path) : List String :=
  ((pieces path.toList).filter (· ≠ [])).map String.ofList

/-! ## The containing folder -/

/-- Takes separators and `.` names off a reversed path. -/
def stripReversed : List Char → List Char
  | '/' :: cs => stripReversed cs
  | '.' :: '/' :: cs => stripReversed cs
  | cs => cs

/-- The path of the folder that contains what the path names; the root and the empty path have
none. -/
def parent? (path : Path) : Option Path :=
  let named := stripReversed path.toList.reverse
  if named = [] then none
  else
    let above := named.dropWhile (· ≠ '/')
    let kept := stripReversed above
    -- nothing kept below a separator is the root
    some (String.ofList (if kept = [] ∧ above ≠ [] then ['/'] else kept.reverse))

/-- Stripping makes nothing longer. -/
theorem length_stripReversed_le (cs : List Char) : (stripReversed cs).length ≤ cs.length := by
  fun_induction stripReversed cs with
  | case1 cs ih => exact Nat.le_succ_of_le ih
  | case2 cs ih => exact Nat.le_succ_of_le (Nat.le_succ_of_le ih)
  | case3 cs => exact Nat.le_refl _

/-- What is left does not end with a separator. -/
theorem head?_stripReversed (cs : List Char) : (stripReversed cs).head? ≠ some '/' := by
  fun_induction stripReversed cs with
  | case1 cs ih => exact ih
  | case2 cs ih => exact ih
  | case3 cs h _ =>
    intro hs
    cases cs with
    | nil => simp at hs
    | cons c rest =>
      rw [List.head?_cons] at hs
      exact h rest (by rw [Option.some.inj hs])

/-- A containing folder has a shorter path. -/
theorem length_of_parent? {path parent : Path} (h : path.parent? = some parent) :
    parent.length < path.length := by
  rw [parent?] at h
  split at h
  · exact absurd h (by simp)
  · rename_i hne
    obtain ⟨c, rest, hnamed⟩ := List.exists_cons_of_ne_nil hne
    have hc : c ≠ '/' := by
      intro e
      apply head?_stripReversed path.toList.reverse
      rw [hnamed, e, List.head?_cons]
    have hdrop : (stripReversed path.toList.reverse).dropWhile (· ≠ '/')
        = rest.dropWhile (· ≠ '/') := by
      rw [hnamed, List.dropWhile_cons_of_pos (by simpa using hc)]
    have hlt : ((stripReversed path.toList.reverse).dropWhile (· ≠ '/')).length
        < path.length := by
      have h1 := (List.dropWhile_suffix (l := rest) (· ≠ '/')).length_le
      have h2 := length_stripReversed_le path.toList.reverse
      rw [hnamed, List.length_cons, List.length_reverse, String.length_toList] at h2
      rw [hdrop]
      omega
    have hkept := length_stripReversed_le
      ((stripReversed path.toList.reverse).dropWhile (· ≠ '/'))
    rw [← Option.some.inj h, String.length_ofList]
    split
    · rename_i habove
      have := List.length_pos_iff.mpr habove.2
      rw [List.length_singleton]
      omega
    · rw [List.length_reverse]
      omega

/-- The path itself, the folder that contains it, the folder that contains that, and so on. -/
def chain (path : Path) : List Path :=
  match _h : path.parent? with
  | none => [path]
  | some parent => path :: chain parent
termination_by path.length
decreasing_by exact length_of_parent? _h

/-! ## Extensions -/

/-- The name at the end of a path, unless it is `.` or `..`, with the characters in front of it and
behind it. -/
def splitName? (path : Path) : Option (List Char × List Char × List Char) :=
  let named := stripReversed path.toList.reverse
  let name := (named.takeWhile (· ≠ '/')).reverse
  if name = [] ∨ name = ['.'] ∨ name = ['.', '.'] then none
  else some ((named.dropWhile (· ≠ '/')).reverse, name, path.toList.drop named.length)

/-- A name without its extension, and the extension. The dot at the front of a hidden file starts
none. -/
def splitExtension (name : List Char) : List Char × List Char :=
  match name.reverse.dropWhile (· ≠ '.') with
  | [] => (name, [])
  | [_] => (name, [])
  | _ :: stem => (stem.reverse, (name.reverse.takeWhile (· ≠ '.')).reverse)

/-- The path with the extension of its last name replaced. What follows the name is dropped. Where
there is no such name the path stays as it is, and a name that is a dot and an extension becomes
`..`, unless something follows it. -/
def replaceExtension (path : Path) (extension : String) : Path :=
  match path.splitName? with
  | none => path
  | some (front, name, back) =>
    let (stem, old) := splitExtension name
    if stem = ['.'] ∧ old ≠ [] ∧ back = [] then String.ofList (front ++ ['.', '.'])
    else String.ofList (front ++ stem) ++ "." ++ extension

end Path

end GameBridge
