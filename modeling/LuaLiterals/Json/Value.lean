import LuaLiterals.Json.Piece

/-!
JSON values, and reading and writing them piece by piece. Reading keeps a stack of the arrays
and objects that are still open, so it is a single pass over the pieces however deeply they are
nested. Members of an object are kept in their order, repeated ones included, and so are strings
that have no characters: what such a value means is for those to say who have a use for it. The
main statement is that reading gives back what was written.
-/

set_option autoImplicit false
set_option relaxedAutoImplicit false

namespace LuaLiterals

inductive Json
  | null
  | bool (value : Bool)
  | number (spelling : List Char)
  /-- A string, with its characters if no surrogate is left alone in it. -/
  | text (chars : Option (List Char))
  | array (items : List Json)
  | object (members : List (Option (List Char) × Json))

namespace Json

mutual

/-- The pieces of a value. -/
def pieces : Json → List Piece
  | null => [.null]
  | bool value => [.bool value]
  | number spelling => [.number spelling]
  | text chars => [.text chars]
  | array items => .openBracket :: itemPieces items
  | object members => .openBrace :: memberPieces members

/-- The rest of an array from an item on. -/
def itemPieces : List Json → List Piece
  | [] => [.closeBracket]
  | item :: items => pieces item ++ moreItems items

/-- The rest of an array behind an item. -/
def moreItems : List Json → List Piece
  | [] => [.closeBracket]
  | item :: items => .comma :: pieces item ++ moreItems items

/-- The rest of an object from a member on. -/
def memberPieces : List (Option (List Char) × Json) → List Piece
  | [] => [.closeBrace]
  | (key, value) :: members => .text key :: .colon :: pieces value ++ moreMembers members

/-- The rest of an object behind a member. -/
def moreMembers : List (Option (List Char) × Json) → List Piece
  | [] => [.closeBrace]
  | (key, value) :: members =>
    .comma :: .text key :: .colon :: pieces value ++ moreMembers members

end

/-- An array or object around the value that is read, with what precedes it there, the latest
first. -/
inductive Frame
  | items (before : List Json)
  | member (before : List (Option (List Char) × Json)) (key : Option (List Char))

/-- What the next piece has to be. Only where nothing stands in an array or object yet may it
close at once. -/
inductive Stage
  | value (closes : Bool)
  | key (before : List (Option (List Char) × Json)) (closes : Bool)
  | colon (before : List (Option (List Char) × Json)) (key : Option (List Char))
  /-- A value is complete, and something has to be done with it. -/
  | complete (value : Json)

/-- Where reading stands: what comes next, and what is open around it, the innermost first. -/
abbrev State := Stage × List Frame

def State.start : State := (.value false, [])

/-- Reads one piece. -/
def State.step : State → Piece → Option State
  | (.value _, frames), .null => some (.complete .null, frames)
  | (.value _, frames), .bool value => some (.complete (.bool value), frames)
  | (.value _, frames), .number spelling => some (.complete (.number spelling), frames)
  | (.value _, frames), .text chars => some (.complete (.text chars), frames)
  | (.value _, frames), .openBracket => some (.value true, .items [] :: frames)
  | (.value _, frames), .openBrace => some (.key [] true, frames)
  | (.value true, .items _ :: frames), .closeBracket => some (.complete (.array []), frames)
  | (.key before _, frames), .text key => some (.colon before key, frames)
  | (.key _ true, frames), .closeBrace => some (.complete (.object []), frames)
  | (.colon before key, frames), .colon => some (.value false, .member before key :: frames)
  | (.complete value, .items before :: frames), .comma =>
    some (.value false, .items (value :: before) :: frames)
  | (.complete value, .items before :: frames), .closeBracket =>
    some (.complete (.array (value :: before).reverse), frames)
  | (.complete value, .member before key :: frames), .comma =>
    some (.key ((key, value) :: before) false, frames)
  | (.complete value, .member before key :: frames), .closeBrace =>
    some (.complete (.object ((key, value) :: before).reverse), frames)
  | _, _ => none

/-- The value that has been read, if it is complete and nothing is open around it. -/
def State.value? : State → Option Json
  | (.complete value, []) => some value
  | _ => none

def ofPieces? (pieces : List Piece) : Option Json :=
  (pieces.foldlM State.step State.start).bind State.value?

/-- The value a text spells, with blank space anywhere between its pieces. -/
def ofChars? (text : List Char) : Option Json := (Piece.ofChars? text).bind ofPieces?

/-- The text of a value, without any blank space. -/
def chars (value : Json) : List Char := value.pieces.flatMap Piece.spelling

mutual

theorem foldlM_pieces (value : Json) (closes : Bool) (frames : List Frame) :
    value.pieces.foldlM State.step (.value closes, frames) = some (.complete value, frames) := by
  cases value with
  | null => rfl
  | bool value => rfl
  | number spelling => rfl
  | text chars => rfl
  | array items =>
    rw [pieces, List.foldlM_cons]
    exact foldlM_itemPieces items frames
  | object members =>
    rw [pieces, List.foldlM_cons]
    exact foldlM_memberPieces members frames

theorem foldlM_itemPieces (items : List Json) (frames : List Frame) :
    (itemPieces items).foldlM State.step (.value true, .items [] :: frames) =
      some (.complete (.array items), frames) := by
  cases items with
  | nil => rfl
  | cons item items =>
    rw [itemPieces, List.foldlM_append, foldlM_pieces item true]
    exact foldlM_moreItems item [] items frames

theorem foldlM_moreItems (item : Json) (before items : List Json) (frames : List Frame) :
    (moreItems items).foldlM State.step (.complete item, .items before :: frames) =
      some (.complete (.array (before.reverse ++ item :: items)), frames) := by
  cases items with
  | nil => simp [moreItems, State.step]
  | cons next items =>
    rw [moreItems, List.cons_append, List.foldlM_cons]
    change ((next.pieces ++ moreItems items).foldlM State.step
      (.value false, .items (item :: before) :: frames)) = _
    rw [List.foldlM_append, foldlM_pieces next false]
    exact (foldlM_moreItems next (item :: before) items frames).trans (by simp)

theorem foldlM_memberPieces (members : List (Option (List Char) × Json)) (frames : List Frame) :
    (memberPieces members).foldlM State.step (.key [] true, frames) =
      some (.complete (.object members), frames) := by
  cases members with
  | nil => rfl
  | cons member members =>
    obtain ⟨key, value⟩ := member
    rw [memberPieces]
    change ((value.pieces ++ moreMembers members).foldlM State.step
      (.value false, .member [] key :: frames)) = _
    rw [List.foldlM_append, foldlM_pieces value false]
    exact foldlM_moreMembers key value [] members frames

theorem foldlM_moreMembers (key : Option (List Char)) (value : Json)
    (before members : List (Option (List Char) × Json)) (frames : List Frame) :
    (moreMembers members).foldlM State.step (.complete value, .member before key :: frames) =
      some (.complete (.object (before.reverse ++ (key, value) :: members)), frames) := by
  cases members with
  | nil => simp [moreMembers, State.step]
  | cons member members =>
    obtain ⟨nextKey, next⟩ := member
    rw [moreMembers]
    change ((next.pieces ++ moreMembers members).foldlM State.step
      (.value false, .member ((key, value) :: before) nextKey :: frames)) = _
    rw [List.foldlM_append, foldlM_pieces next false]
    exact (foldlM_moreMembers nextKey next ((key, value) :: before) members frames).trans
      (by simp)

end

end Json

end LuaLiterals
