import GameBridge.Proofs.Catalog.Merging
import GameBridge.Proofs.Json.Strings
import GameBridge.Store

/-!
# Reading a written index

An index of texts that is written as a file is read back as it was. The lexer turns each line into
the same four tokens, and the builder turns these into one more member of the one open object.
-/

namespace GameBridge.Json

/-! ## The tokens of an index -/

/-- The tokens of the further lines of an index. -/
def moreTokens : List (String × String) → List Token
  | [] => [.closeObject]
  | (key, value) :: rest =>
    .comma :: .str (some key) :: .colon :: .str (some value) :: moreTokens rest

/-- The tokens of an index. -/
def indexTokens (index : Index String) : List Token :=
  match index.entries with
  | [] => [.openObject, .closeObject]
  | (key, value) :: rest =>
    .openObject :: .str (some key) :: .colon :: .str (some value) :: moreTokens rest

private theorem feed_line (start : List Char) {first : Token} {tokens : List Token}
    (hstart : Lexer.feed ⟨.between, tokens⟩ (start.flatMap Text.charBytes)
      = some ⟨.between, first :: tokens⟩) (key value : String) :
    Lexer.feed ⟨.between, tokens⟩
        ((start ++ stringChars key ++ [':', ' '] ++ stringChars value).flatMap Text.charBytes)
      = some ⟨.between, .str (some value) :: .colon :: .str (some key) :: first :: tokens⟩ := by
  have hcolon : ∀ tokens, Lexer.feed ⟨.between, tokens⟩ ([':', ' '].flatMap Text.charBytes)
      = some ⟨.between, .colon :: tokens⟩ := fun _ ↦ rfl
  rw [List.flatMap_append, List.flatMap_append, List.flatMap_append]
  exact Lexer.feed_trans (Lexer.feed_trans (Lexer.feed_trans hstart (Lexer.feed_stringChars key _))
    (hcolon _)) (Lexer.feed_stringChars value _)

private theorem feed_moreLines (entries : List (String × String)) (tokens : List Token) :
    Lexer.feed ⟨.between, tokens⟩ ((moreLines entries).flatMap Text.charBytes)
      = some ⟨.between, (moreTokens entries).reverse ++ tokens⟩ := by
  induction entries generalizing tokens with
  | nil => rfl
  | cons entry rest ih =>
    obtain ⟨key, value⟩ := entry
    have hcomma : Lexer.feed ⟨.between, tokens⟩ ([',', '\n', ' ', ' '].flatMap Text.charBytes)
        = some ⟨.between, .comma :: tokens⟩ := rfl
    have hline := feed_line [',', '\n', ' ', ' '] hcomma key value
    rw [moreLines, List.flatMap_append, Lexer.feed_trans hline (ih _), moreTokens]
    simp

/-- **A written index** has its tokens. -/
theorem scan?_indexBytes (index : Index String) :
    Token.scan? (indexBytes index) = some (indexTokens index) := by
  have hfeed : Lexer.feed .start (indexBytes index)
      = some ⟨.between, (indexTokens index).reverse⟩ := by
    rw [indexBytes, indexChars, indexTokens]
    cases index.entries with
    | nil => rfl
    | cons entry rest =>
      obtain ⟨key, value⟩ := entry
      have hopen : Lexer.feed ⟨.between, []⟩ (['\x7b', '\n', ' ', ' '].flatMap Text.charBytes)
          = some ⟨.between, [.openObject]⟩ := rfl
      have hline := feed_line ['\x7b', '\n', ' ', ' '] hopen key value
      dsimp only
      rw [List.flatMap_append]
      rw [Lexer.start, Lexer.feed_trans hline (feed_moreLines rest _)]
      simp
  rw [Lexer.feed] at hfeed
  rw [Token.scan?, hfeed]
  exact congrArg some (List.reverse_reverse _)

/-! ## The document of an index -/

/-- An index as the members of an object. -/
def membersOf (entries : List (String × String)) : Document.Members :=
  entries.map fun entry ↦ (some entry.1, .str (some entry.2))

open Document in
private theorem foldlM_moreTokens (before : Members) (key value : String)
    (entries : List (String × String)) :
    (moreTokens entries).foldlM Builder.step
        ⟨[.member before (some key)], .complete (.str (some value))⟩
      = some ⟨[], .complete (.obj (before.reverse ++ membersOf ((key, value) :: entries)))⟩ := by
  induction entries generalizing before key value with
  | nil =>
    show some _ = some _
    simp [membersOf]
  | cons entry rest ih =>
    obtain ⟨nextKey, nextValue⟩ := entry
    have h := ih ((some key, .str (some value)) :: before) nextKey nextValue
    rw [moreTokens]
    simp only [List.foldlM_cons, Builder.step, Builder.beginValue?, Option.bind_eq_bind,
      Option.bind_some]
    rw [h]
    simp [membersOf]

/-- **A written index** is read as an object with its entries as members. -/
theorem read?_indexBytes (index : Index String) :
    Document.read? (indexBytes index) = some (.obj (membersOf index.entries)) := by
  rw [Document.read?, scan?_indexBytes, Option.bind_some, Document.ofTokens?, indexTokens]
  cases index.entries with
  | nil => rfl
  | cons entry rest =>
    obtain ⟨key, value⟩ := entry
    dsimp only
    simp only [List.foldlM_cons, Document.Builder.start, Document.Builder.step,
      Document.Builder.beginValue?, Option.bind_eq_bind, Option.bind_some]
    rw [foldlM_moreTokens]
    rfl

end GameBridge.Json

namespace GameBridge.Store

/-- **Round trip.** The content that is saved for an index holds that index. -/
theorem parse?_indexBytes (index : Index String) : parse? (Json.indexBytes index) = some index := by
  have hmembers : ∀ entries, (Json.membersOf entries).mapM entry? = some entries := by
    intro entries
    induction entries with
    | nil => rfl
    | cons entry rest ih =>
      rw [Json.membersOf, List.map_cons, List.mapM_cons, ← Json.membersOf, ih]
      rfl
  rw [parse?, Json.read?_indexBytes]
  show indexOf? _ = _
  rw [indexOf?, hmembers, Option.map_some, index.ofList_entries]

end GameBridge.Store
