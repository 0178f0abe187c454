/-!
# Slash-separated paths

A path is the text it was written with. Its meaning is the list of its
components: an optional root, an optional leading `.`, and then names and
`..` steps, where repeated slashes, trailing slashes and inner `.` segments
count for nothing. Two paths lead the same way exactly when their components
agree, although both texts stay visible in messages.
-/

namespace CommonJs

/-- A path as written. -/
structure Path where
  /-- The characters as written. -/
  chars : List Char
  deriving DecidableEq, Inhabited

/-- One step of a path. -/
inductive Component
  | root
  | here
  | up
  | name (chars : List Char)
  deriving DecidableEq

namespace Component

/-- The text of a step; the root is the empty text before the first slash. -/
def chars : Component → List Char
  | root => []
  | here => ['.']
  | up => ['.', '.']
  | name chars => chars

/-- Whether a step is a plain name. -/
def isName : Component → Bool
  | name _ => true
  | _ => false

end Component

namespace Path

/-- The path that a text spells. -/
def ofString (text : String) : Path := ⟨text.toList⟩

/-- The text that a path was written as. -/
def toString (path : Path) : String := String.ofList path.chars

instance : ToString Path := ⟨Path.toString⟩

@[simp] theorem toString_ofString (text : String) :
    (ofString text).toString = text := by
  simp [ofString, toString]

@[simp] theorem ofString_toString (path : Path) :
    ofString path.toString = path := by
  simp [ofString, toString]

/-- The pieces of a text between its slashes; there is always a first one. -/
def segments : List Char → List (List Char)
  | [] => [[]]
  | char :: rest =>
      if char = '/' then [] :: segments rest
      else
        match segments rest with
        | [] => [[char]]
        | segment :: others => (char :: segment) :: others

/-- The segments joined by slashes. -/
def joinSegments : List (List Char) → List Char
  | [] => []
  | [segment] => segment
  | segment :: next :: others => segment ++ '/' :: joinSegments (next :: others)

/-- The empty path is one segment without characters. -/
theorem segments_ne_nil (chars : List Char) : segments chars ≠ [] := by
  induction chars with
  | nil => simp [segments]
  | cons char rest ih =>
      rw [segments]
      split
      · simp
      · split <;> simp

/-- A path is its segments with slashes between them. -/
@[simp] theorem joinSegments_segments (chars : List Char) :
    joinSegments (segments chars) = chars := by
  induction chars with
  | nil => rfl
  | cons char rest ih =>
      rw [segments]
      split
      next slash =>
        subst slash
        cases shape : segments rest with
        | nil => exact absurd shape (segments_ne_nil rest)
        | cons segment others => rw [joinSegments, ← shape, ih, List.nil_append]
      next plain =>
        cases shape : segments rest with
        | nil => exact absurd shape (segments_ne_nil rest)
        | cons segment others =>
            rw [shape] at ih
            cases others with
            | nil => simpa [joinSegments] using ih
            | cons next others => simpa [joinSegments] using ih

/-- The step named by a segment after the start of a path. Empty and `.`
segments are no step. -/
def stepOf (segment : List Char) : Option Component :=
  if segment = [] ∨ segment = ['.'] then none
  else if segment = ['.', '.'] then some .up
  else some (.name segment)

/-- Whether a segment is no step. -/
def isFiller (segment : List Char) : Bool :=
  (stepOf segment).isNone

/-- A path starts at the root when its text starts with a slash, and at `.`
when its first segment is `.`. -/
def anchor (path : Path) : Option Component :=
  match segments path.chars with
  | [] :: _ :: _ => some .root
  | ['.'] :: _ => some .here
  | _ => none

/-- The segments after the anchor. -/
def body (path : Path) : List (List Char) :=
  match path.anchor with
  | some _ => (segments path.chars).tail
  | none => segments path.chars

/-- The steps of a path in order. -/
def components (path : Path) : List Component :=
  path.anchor.toList ++ path.body.filterMap stepOf

/-- Whether a path starts at the root. -/
def isAbsolute (path : Path) : Bool :=
  path.chars.head? = some '/'

/-- Two paths lead the same way when their components agree. -/
def SameWay (first second : Path) : Prop :=
  first.components = second.components

instance (first second : Path) : Decidable (SameWay first second) :=
  inferInstanceAs (Decidable (first.components = second.components))

/-- The path that `second` names when it is read from `first`: an absolute
path stands for itself, any other is written after a slash. -/
def join (first second : Path) : Path :=
  if second.isAbsolute then second
  else if first.chars = [] ∨ first.chars.getLast? = some '/' then
    ⟨first.chars ++ second.chars⟩
  else ⟨first.chars ++ '/' :: second.chars⟩

/-- `join` with the right side given as text. -/
def child (path : Path) (name : String) : Path :=
  path.join (ofString name)

/-- A text built from an anchor and the segments after it. -/
def ofSegments
    (anchor : Option Component)
    (segments : List (List Char)) : Path :=
  match anchor with
  | some .root => ⟨'/' :: joinSegments segments⟩
  | some start => ⟨joinSegments (start.chars :: segments)⟩
  | none => ⟨joinSegments segments⟩

/-- The segments up to the last one that is a step. -/
def trimFiller (segments : List (List Char)) : List (List Char) :=
  (segments.reverse.dropWhile isFiller).reverse

/-- The path without its last step and without the filler before that step.
The root and the empty path have no parent. -/
def parent (path : Path) : Option Path :=
  match trimFiller path.body with
  | [] =>
      match path.anchor with
      | some .here => some ⟨[]⟩
      | _ => none
  | segments => some (ofSegments path.anchor (trimFiller segments.dropLast))

/-- A path followed by its parents, at most `steps` of them. -/
def ancestorsWithin : Nat → Path → List Path
  | 0, path => [path]
  | steps + 1, path =>
      path ::
        match path.parent with
        | none => []
        | some parent => ancestorsWithin steps parent

/-- A path as written, then its parent, and so on. Each parent has one step
less, so there are no more parents than steps. -/
def ancestors (path : Path) : List Path :=
  ancestorsWithin path.components.length path

/-- The last step, when it is a name. -/
def fileName (path : Path) : Option (List Char) :=
  match path.components.getLast? with
  | some (.name chars) => some chars
  | _ => none

/-- The part of a name after its last dot. A name without a dot, or whose
only dot comes first, has no extension. -/
def extensionOf (name : List Char) : Option (List Char) :=
  let reversed := name.reverse
  match reversed.dropWhile (· ≠ '.') with
  | [] => none
  | [_] => none
  | _ => some (reversed.takeWhile (· ≠ '.')).reverse

/-- The extension of the last step. -/
def extension (path : Path) : Option (List Char) :=
  path.fileName.bind extensionOf

/-- The path with a text added to its end, whatever extension it has. -/
def append (path : Path) (suffix : String) : Path :=
  ⟨path.chars ++ suffix.toList⟩

/-- The path with ASCII letters in lower case. -/
def foldCase (path : Path) : Path :=
  ⟨path.chars.map Char.toLower⟩

end Path
end CommonJs
