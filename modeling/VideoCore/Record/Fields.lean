import VideoCore.Value.Basic

namespace VideoCore

/-!
# Named values

The fields of a record in order.  Setting a name anew keeps its place; a new
name goes to the end.
-/

/-- Values by name, in order. -/
abbrev Fields := List (String × Value)

namespace Fields

/-- The value of a name. -/
def get?
    (fields : Fields)
    (name : String) : Option Value :=
  fields.lookup name

/-- The value of a name, `absent` if there is none. -/
def get
    (fields : Fields)
    (name : String) : Value :=
  (fields.get? name).getD .absent

/-- The integer that a name holds, zero if it holds none. -/
def integer
    (fields : Fields)
    (name : String) : Int :=
  ((fields.get? name).bind Value.integer?).getD 0

/-- Set the value of a name. -/
def set
    (fields : Fields)
    (name : String)
    (value : Value) : Fields :=
  match fields with
  | [] => [(name, value)]
  | (first, old) :: rest =>
      if first = name then
        (name, value) :: rest
      else
        (first, old) :: set rest name value

/-- Set the values of several names, one after the other. -/
def update
    (fields : Fields)
    (news : Fields) : Fields :=
  news.foldl (fun current (name, value) => current.set name value) fields

/-- Put a field in front of the first one whose rank is no smaller. -/
def insertByRank
    (rank : String → Nat)
    (field : String × Value) : Fields → Fields
  | [] => [field]
  | first :: rest =>
      if rank field.1 ≤ rank first.1 then
        field :: first :: rest
      else
        first :: insertByRank rank field rest

/--
The fields in the order of their ranks; those of the same rank keep their order.
-/
def sortByRank (rank : String → Nat) : Fields → Fields
  | [] => []
  | first :: rest => insertByRank rank first (sortByRank rank rest)

end Fields

end VideoCore
