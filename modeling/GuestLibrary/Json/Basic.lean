import GuestLibrary.Numeral.Binary

/-!
JSON values. Whole numbers that fit a 64-bit word, signed or unsigned, are integers and all other
numbers are doubles.
-/
namespace GuestLibrary

inductive Json
  | null
  | bool (b : Bool)
  | integer (i : Int)
  | real (x : Double)
  | text (s : String)
  | array (items : List Json)
  /-- Members in the order they are written. -/
  | object (members : List (String × Json))
  deriving Repr

namespace Json

/-- Inserts a member by the order of keys, in place of one of the same key. -/
def insertMember (key : String) (value : Json) : List (String × Json) → List (String × Json)
  | [] => [(key, value)]
  | (k, v) :: rest =>
    if key < k then (key, value) :: (k, v) :: rest
    else if key = k then (key, value) :: rest
    else (k, v) :: insertMember key value rest

/-- An object with its members in the order of their keys; of members with one key the last one
stays. -/
def ofMembers (members : List (String × Json)) : Json :=
  .object (members.foldl (fun sorted (key, value) => insertMember key value sorted) [])

def isNull : Json → Bool
  | null => true
  | _ => false

def bool? : Json → Option Bool
  | bool b => some b
  | _ => none

def integer? : Json → Option Int
  | integer i => some i
  | _ => none

def text? : Json → Option String
  | text s => some s
  | _ => none

def array? : Json → Option (List Json)
  | array items => some items
  | _ => none

def members? : Json → Option (List (String × Json))
  | object members => some members
  | _ => none

/-- The member of a key; other values than objects have none. -/
def member? (value : Json) (key : String) : Option Json :=
  (value.members?.getD []).lookup key

end Json
end GuestLibrary
