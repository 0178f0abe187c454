/-!
# JSON values

Numbers are kept as integers where they were written as integers of 64 bits,
and as floats otherwise. An object is a list of members; what reads an object
lists them in ascending order of their keys, each key once.
-/

namespace CommonJs

/-- A number of a JSON value. -/
inductive JsonNumber
  | integer (value : Int)
  | float (value : Float)

/-- A JSON value. -/
inductive Json
  | null
  | bool (value : Bool)
  | number (value : JsonNumber)
  | string (value : String)
  | array (items : List Json)
  | object (members : List (String × Json))
  deriving Inhabited

namespace JsonNumber

/-- The float nearest to a number. -/
def toFloat : JsonNumber → Float
  | integer value => Float.ofInt value
  | float value => value

end JsonNumber

namespace Json

/-- Members in ascending order of keys with one more member; a member with
the same key is replaced. -/
def insertMember
    (key : String)
    (value : α) : List (String × α) → List (String × α)
  | [] => [(key, value)]
  | (present, held) :: rest =>
      if key < present then (key, value) :: (present, held) :: rest
      else if key = present then (key, value) :: rest
      else (present, held) :: insertMember key value rest

/-- The members of a list in ascending order of keys; of several with one
key the last remains. -/
def sortMembers (members : List (String × α)) : List (String × α) :=
  members.foldl (fun sorted member => insertMember member.1 member.2 sorted) []

/-- The value of a member. -/
def member? (members : List (String × α)) (key : String) : Option α :=
  members.lookup key

end Json
end CommonJs
