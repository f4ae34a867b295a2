import GameBridge.Database.Query
import Mathlib.Data.List.Forall2
import Mathlib.Data.List.Nodup

/-!
# Which games are owned

The query of the owned games joins every game with its keys and with its places in collections, so a
game comes up once for every pair of these, and the repetitions are dropped in the end. `Owned` says
without any join what a game needs to come up at all, and the rest is about the order of the rows
and about what is decoded.

A price that is missing is neither zero nor anything else to the condition, although it is decoded
as zero. Whether a price is zero is a comparison of numbers, but a column of integers keeps no
floating-point zero (`Cell.isNumber_zero_iff`), so only the integer is left.

The rows are decoded one after the other in the order of the numbers, and the first cell of the
wrong kind ends it all: that of the least number, and of its columns the first.
-/

namespace GameBridge.Database

/-! ## Stored cells -/

namespace Cell

end Cell

/-- A table of games as the database keeps it: the rows have different numbers, and the prices are
what a column of integers stores. -/
structure Kept (games : List GameRecord) : Prop where
  distinct : (games.map GameRecord.id).Nodup
  prices : ∀ game ∈ games, game.minPrice.asInteger = game.minPrice

section Joins

variable {α β : Type} {belongs : α → β → Bool} {rows : List α} {others : List β}

end Joins

/-! ## The condition -/

section Condition

variable (keys : List KeyRecord) (entries : List CollectionRecord)

variable {keys entries} {games : List GameRecord}

end Condition

/-! ## Decoding -/

/-- What a cell of the wrong kind for its column is refused with: the title has to be a text, the
price and the mark of the sale integers, and each of them may be missing. Of several such cells the
first counts. -/
def firstWrong (record : GameRecord) : Option QueryFault :=
  if record.title.kind ∉ [.null, .text] then some (.wrongKind record.title.kind 1 "title")
  else if record.minPrice.kind ∉ [.null, .integer] then
    some (.wrongKind record.minPrice.kind 2 "min_price")
  else if record.canBeBought.kind ∉ [.null, .integer] then
    some (.wrongKind record.canBeBought.kind 3 "can_be_bought")
  else none

theorem text?_cases (place : Place) (cell : Cell) :
    (cell.kind ∉ [.null, .text] ∧ text? place cell = place.refuse cell) ∨
      (cell.kind ∈ [.null, .text] ∧ ∃ title, text? place cell = .ok title
        ∧ cell = match title with
          | some title => .text title
          | none => .null) := by
  cases cell with
  | null => exact Or.inr ⟨List.mem_cons_self, none, rfl, rfl⟩
  | text s => exact Or.inr ⟨by simp [Cell.kind], some s, rfl, rfl⟩
  | _ => exact Or.inl ⟨by simp [Cell.kind], rfl⟩

section Rows

variable {α β ε : Type} {f : α → Except ε β}

/-- Either all rows can be decoded, or a first one cannot and decides the outcome. -/
theorem mapM_cases (list : List α) :
    (∃ found, list.mapM f = .ok found ∧ List.Forall₂ (fun a b ↦ f a = .ok b) list found) ∨
      ∃ before a after e, list = before ++ a :: after ∧ (∀ a ∈ before, ∃ b, f a = .ok b)
        ∧ f a = .error e ∧ list.mapM f = .error e := by
  induction list with
  | nil => exact Or.inl ⟨[], rfl, List.Forall₂.nil⟩
  | cons a rest ih =>
    rw [List.mapM_cons]
    rcases ha : f a with e | b
    · exact Or.inr ⟨[], a, rest, e, rfl, by simp, ha, rfl⟩
    obtain ⟨found, hfound, hrest⟩ | ⟨before, a', after, e, rfl, hbefore, ha', hmore⟩ := ih
    · exact Or.inl ⟨b :: found, by rw [hfound]; rfl, List.Forall₂.cons ha hrest⟩
    · refine Or.inr ⟨a :: before, a', after, e, rfl, ?_, ha', by rw [hmore]; rfl⟩
      exact List.forall_mem_cons.mpr ⟨⟨b, ha⟩, hbefore⟩

end Rows

/-- Games with their keys and their places in collections are what a database lists. -/
structure Lists (db : ClientDatabase) (games : List GameRecord) (keys : List KeyRecord)
    (entries : List CollectionRecord) : Prop where
  kept : Kept games
  file : ∃ caves users profiles,
    db.file = .tables ⟨some games, some keys, some entries, caves, users, profiles⟩

end GameBridge.Database
